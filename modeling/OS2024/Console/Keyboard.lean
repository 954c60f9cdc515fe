import Mathlib.Tactic
import OS2024.Lib.Traced
import OS2024.Stdlib.String

/-!
# `keyboard.c` and `framebuffer.c`

The keyboard interrupt keeps its own position on the screen, writes the pressed characters
there, and leaves the last one in a buffer of one character.  A single flag, `key_pressed`,
stands for all keys of the keyboard.

What is written to the screen is recorded as an event.  Row and column are signed in the
keyboard and cut to eight bits by `framebuffer_write`.

**Results.**
* `keyboardIsr_backspace`, `keyboardIsr_margin`, `keyboardIsr_enter`, `keyboardIsr_char`,
  `keyboardIsr_ignored`, `keyboardIsr_release`, `keyboardIsr_released`: the ways through the
  interrupt.
-/

namespace OS2024
namespace Console

open Stdlib TracedState

/-- `struct KeyboardDriverState` -/
structure KeyboardDriverState where
  readExtendedMode : Bool
  keyboardInputOn : Bool
  keyboardBuffer : UInt8
deriving DecidableEq

/-- The statics of `keyboard.c`, the cursor of `puts`, and the memory of the screen. -/
structure ConsoleState where
  row : Int
  col : Int
  keyPressed : Bool
  backspacePressed : Bool
  keyboardState : KeyboardDriverState
  cursorRow : UInt8
  cursorCol : UInt8
  framebuffer : Memory

/-- What the console asks of the screen. -/
inductive ConsoleEvent
  | write (row col c fg bg : UInt8)
  | setCursor (cursorIndex : UInt16)
deriving DecidableEq

/-- Console operations; none of them can fault. -/
abbrev ConsoleM := Traced Empty ConsoleState ConsoleEvent

/-! ## `framebuffer.c` -/

/-- The byte of the character in a cell; the next byte has its colours. -/
def frameBufferIndex (row col : UInt8) : Nat := (row.toNat * 80 + col.toNat) * 2

def framebufferWrite (row col c fg bg : UInt8) : ConsoleM Unit :=
  fun s =>
    ⟨.ok (),
      { s with
        framebuffer := Function.update (Function.update s.framebuffer (frameBufferIndex row col) c)
          (frameBufferIndex row col + 1) (bg <<< 4 ||| fg) },
      [ConsoleEvent.write row col c fg bg]⟩

def framebufferSetCursor (r c : UInt8) : ConsoleM Unit :=
  fun s => ⟨.ok (), s, [ConsoleEvent.setCursor (r.toUInt16 * 80 + c.toUInt16)]⟩

/-! ## `keyboard.c` -/

/-- The rows of `keyboard_scancode_1_to_ascii_map` that are not all zero. -/
def scancodeChars : List Char :=
  ['\x00', '\x1b', '1', '2', '3', '4', '5', '6', '7', '8', '9', '0', '-', '=', '\x08', '\t',
   'q', 'w', 'e', 'r', 't', 'y', 'u', 'i', 'o', 'p', '[', ']', '\n', '\x00', 'a', 's',
   'd', 'f', 'g', 'h', 'j', 'k', 'l', ';', '\x27', '\x60', '\x00', '\x5c', 'z', 'x', 'c', 'v',
   'b', 'n', 'm', ',', '.', '/', '\x00', '*', '\x00', ' ', '\x00', '\x00', '\x00', '\x00', '\x00',
   '\x00', '\x00', '\x00', '\x00', '\x00', '\x00', '\x00', '\x00', '\x00', '\x00', '\x00', '-',
   '\x00', '\x00', '\x00', '+', '\x00']

def keyboardScancode1ToAsciiMap (scancode : UInt8) : UInt8 :=
  (scancodeChars.map fun c => UInt8.ofNat c.toNat).getD scancode.toNat 0

def setRow (value : Int) : ConsoleM Unit := modifyState fun s => { s with row := value }

def setCol (value : Int) : ConsoleM Unit := modifyState fun s => { s with col := value }

def setKeyboardBuffer (c : UInt8) : ConsoleM Unit :=
  modifyState fun s => { s with keyboardState := { s.keyboardState with keyboardBuffer := c } }

def keyboardStateActivate : ConsoleM Unit :=
  modifyState fun s => { s with keyboardState := { s.keyboardState with keyboardInputOn := true } }

def keyboardStateDeactivate : ConsoleM Unit :=
  modifyState fun s => { s with keyboardState := { s.keyboardState with keyboardInputOn := false } }

/-- The character that `get_keyboard_buffer` stores through its pointer. -/
def getKeyboardBuffer : ConsoleM UInt8 := do
  let s ← getState
  setKeyboardBuffer 0
  return s.keyboardState.keyboardBuffer

/-- `terminal_length`, which nothing assigns. -/
def terminalLength : Int := 0

/-- `keyboard_isr`, given the scancode at the data port. -/
def keyboardIsr (scancode : UInt8) : ConsoleM Unit := do
  let s ← getState
  if !s.keyboardState.keyboardInputOn then setKeyboardBuffer 0
  else
    let mappedChar := keyboardScancode1ToAsciiMap scancode
    -- '\b'
    if mappedChar = 8 then
      if s.col ≥ terminalLength + 1 then
        modifyState fun s => { s with backspacePressed := true }
        framebufferWrite (UInt8.ofInt s.row) (UInt8.ofInt (s.col - 1)) 0 0x0F 0x00
        framebufferSetCursor (UInt8.ofInt s.row) (UInt8.ofInt (s.col - 1))
        setCol (s.col - 1)
        setKeyboardBuffer 0
      else return ()
    else if scancode = 0x1C && !s.keyPressed then
      keyboardStateDeactivate
      setRow (s.row + 1)
      setCol 0
      framebufferSetCursor (UInt8.ofInt (s.row + 1)) 0
      modifyState fun s => { s with keyPressed := true }
      -- '\n'
      setKeyboardBuffer 10
      keyboardStateActivate
    else if scancode ≥ 0x02 && scancode ≤ 0x4A && !s.keyPressed then
      framebufferWrite (UInt8.ofInt s.row) (UInt8.ofInt s.col) mappedChar 0x0F 0x00
      framebufferSetCursor (UInt8.ofInt s.row) (UInt8.ofInt (s.col + 1))
      setKeyboardBuffer mappedChar
      modifyState fun s => { s with keyPressed := true }
    else if scancode ≥ 0x80 && s.backspacePressed then
      modifyState fun s => { s with backspacePressed := false }
      if s.keyboardState.keyboardBuffer ≠ 0 then
        setKeyboardBuffer 0
        setCol (s.col - 1)
      else return ()
    else if scancode ≥ 0x80 && scancode ≠ 0x9C && s.keyPressed then
      modifyState fun s => { s with keyPressed := false }
      setCol (s.col + 1)
    else if scancode = 0x9C then
      modifyState fun s => { s with keyPressed := false }
    else if scancode = 0xE0 then
      setCol (s.col - 1)
      framebufferSetCursor (UInt8.ofInt s.row) (UInt8.ofInt (s.col - 1))
    else return ()

/-- The console at boot, once the shell has turned input on. -/
def bootConsole : ConsoleState where
  row := 0
  col := 0
  keyPressed := false
  backspacePressed := false
  keyboardState := ⟨false, true, 0⟩
  cursorRow := 0
  cursorCol := 0
  framebuffer := fun i => if i % 2 = 0 then 0 else 7

/-! ## The ways through the interrupt -/

section Ways

variable {s : ConsoleState} {k : UInt8}

/-- Input is on. -/
abbrev ConsoleState.InputOn
    (s : ConsoleState) : Prop :=
  s.keyboardState.keyboardInputOn = true

/-- The state with another character in the buffer. -/
def ConsoleState.buffered
    (s : ConsoleState)
    (c : UInt8) :
    ConsoleState :=
  { s with keyboardState := { s.keyboardState with keyboardBuffer := c } }

/-- The state with another character in a cell. -/
def ConsoleState.written
    (s : ConsoleState)
    (row col c fg bg : UInt8) :
    ConsoleState :=
  { s with
    framebuffer := Function.update (Function.update s.framebuffer (frameBufferIndex row col) c)
      (frameBufferIndex row col + 1) (bg <<< 4 ||| fg) }

/-- The state after a backspace that has something to erase. -/
def ConsoleState.erased
    (s : ConsoleState) :
    ConsoleState :=
  { (s.written (UInt8.ofInt s.row) (UInt8.ofInt (s.col - 1)) 0 0x0F 0x00).buffered 0 with
    backspacePressed := true
    col := s.col - 1 }

/-- The state after a character was typed. -/
def ConsoleState.typed
    (s : ConsoleState)
    (c : UInt8) :
    ConsoleState :=
  { (s.written (UInt8.ofInt s.row) (UInt8.ofInt s.col) c 0x0F 0x00).buffered c with
    keyPressed := true }

/-- The state after Enter was typed. -/
def ConsoleState.entered
    (s : ConsoleState) :
    ConsoleState :=
  { s.buffered 10 with
    row := s.row + 1
    col := 0
    keyPressed := true }

theorem scancodeMap_of_ge
    (hk : 0x80 ≤ k) :
    keyboardScancode1ToAsciiMap k = 0 := by
  rw [UInt8.le_iff_toNat_le] at hk
  have hlen : (scancodeChars.map fun c => UInt8.ofNat c.toNat).length ≤ k.toNat :=
    le_trans (by decide) hk
  rw [keyboardScancode1ToAsciiMap, List.getD_eq_getElem?_getD, List.getElem?_eq_none hlen]
  rfl

theorem not_char_of_break
    (hk : 0x80 ≤ k) :
    ¬ k ≤ 0x4A := by
  rw [UInt8.le_iff_toNat_le] at hk ⊢
  have h80 : (0x80 : UInt8).toNat = 128 := rfl
  have h4a : (0x4A : UInt8).toNat = 74 := rfl
  omega

variable (hon : s.InputOn)
include hon

theorem keyboardIsr_backspace
    (hk : keyboardScancode1ToAsciiMap k = 8)
    (hcol : 1 ≤ s.col) :
    keyboardIsr k s =
      ⟨.ok (), s.erased,
        [ConsoleEvent.write (UInt8.ofInt s.row) (UInt8.ofInt (s.col - 1)) 0 0x0F 0x00,
          ConsoleEvent.setCursor
            ((UInt8.ofInt s.row).toUInt16 * 80 + (UInt8.ofInt (s.col - 1)).toUInt16)]⟩ := by
  have hlt : terminalLength < s.col := hcol
  simp [keyboardIsr, bind_apply, hon, hk, hlt, framebufferWrite, framebufferSetCursor, setCol,
    setKeyboardBuffer, Outcome.prepend, ConsoleState.erased, ConsoleState.written,
    ConsoleState.buffered]

theorem keyboardIsr_margin
    (hk : keyboardScancode1ToAsciiMap k = 8)
    (hcol : ¬ 1 ≤ s.col) :
    keyboardIsr k s = ⟨.ok (), s, []⟩ := by
  have hlt : ¬ terminalLength < s.col := hcol
  simp [keyboardIsr, bind_apply, hon, hk, hlt, Outcome.prepend]

theorem keyboardIsr_enter
    (hpressed : s.keyPressed = false) :
    keyboardIsr 0x1C s =
      ⟨.ok (), s.entered,
        [ConsoleEvent.setCursor
          ((UInt8.ofInt (s.row + 1)).toUInt16 * 80 + (0 : UInt8).toUInt16)]⟩ := by
  have hmap : keyboardScancode1ToAsciiMap 0x1C = 10 := by decide
  simp [keyboardIsr, bind_apply, hon, hmap, hpressed, framebufferSetCursor, setCol, setRow,
    setKeyboardBuffer, keyboardStateActivate, keyboardStateDeactivate, Outcome.prepend,
    ConsoleState.entered, ConsoleState.buffered]

theorem keyboardIsr_char
    (h8 : keyboardScancode1ToAsciiMap k ≠ 8)
    (henter : k ≠ 0x1C)
    (hlow : 0x02 ≤ k)
    (hhigh : k ≤ 0x4A)
    (hpressed : s.keyPressed = false) :
    keyboardIsr k s =
      ⟨.ok (), s.typed (keyboardScancode1ToAsciiMap k),
        [ConsoleEvent.write (UInt8.ofInt s.row) (UInt8.ofInt s.col)
            (keyboardScancode1ToAsciiMap k) 0x0F 0x00,
          ConsoleEvent.setCursor
            ((UInt8.ofInt s.row).toUInt16 * 80 + (UInt8.ofInt (s.col + 1)).toUInt16)]⟩ := by
  simp [keyboardIsr, bind_apply, hon, h8, henter, hlow, hhigh, hpressed, framebufferWrite,
    framebufferSetCursor, setKeyboardBuffer, Outcome.prepend, ConsoleState.typed,
    ConsoleState.written, ConsoleState.buffered]

/-- A key below the break codes does nothing while another is held, nor if it is out of the
range of the characters. -/
theorem keyboardIsr_ignored
    (h8 : keyboardScancode1ToAsciiMap k ≠ 8)
    (hk : k < 0x80)
    (hidle : s.keyPressed = true ∨ k < 0x02 ∨ 0x4A < k) :
    keyboardIsr k s = ⟨.ok (), s, []⟩ := by
  have hbreak : ¬ 0x80 ≤ k := UInt8.not_le.mpr hk
  have h9c : k ≠ 0x9C := by rintro rfl; exact absurd hk (by decide)
  have he0 : k ≠ 0xE0 := by rintro rfl; exact absurd hk (by decide)
  have henter : ¬ (k = 0x1C ∧ s.keyPressed = false) := by
    rintro ⟨rfl, hp⟩
    rcases hidle with h | h | h
    · rw [h] at hp
      cases hp
    · exact absurd h (by decide)
    · exact absurd h (by decide)
  have hchar : ¬ ((0x02 ≤ k ∧ k ≤ 0x4A) ∧ s.keyPressed = false) := by
    rintro ⟨⟨hlow, hhigh⟩, hp⟩
    rcases hidle with h | h | h
    · rw [h] at hp
      cases hp
    · exact absurd hlow (UInt8.not_le.mpr h)
    · exact absurd hhigh (UInt8.not_le.mpr h)
  simp [keyboardIsr, bind_apply, hon, h8, henter, hchar, hbreak, h9c, he0, Outcome.prepend]

/-- The break code after a backspace, when the character was already taken. -/
theorem keyboardIsr_releaseBackspace
    (hk : 0x80 ≤ k)
    (hback : s.backspacePressed = true)
    (hbuf : s.keyboardState.keyboardBuffer = 0) :
    keyboardIsr k s = ⟨.ok (), { s with backspacePressed := false }, []⟩ := by
  have hmap := scancodeMap_of_ge hk
  have henter : k ≠ 0x1C := by rintro rfl; exact absurd hk (by decide)
  have hhigh : ¬ k ≤ 0x4A := not_char_of_break hk
  simp [keyboardIsr, bind_apply, hon, hmap, henter, hhigh, hk, hback, hbuf, Outcome.prepend]

variable (hback : s.backspacePressed = false)
include hback

theorem keyboardIsr_release
    (hk : 0x80 ≤ k)
    (henter : k ≠ 0x9C)
    (hpressed : s.keyPressed = true) :
    keyboardIsr k s = ⟨.ok (), { s with keyPressed := false, col := s.col + 1 }, []⟩ := by
  have hmap := scancodeMap_of_ge hk
  have hmake : k ≠ 0x1C := by rintro rfl; exact absurd hk (by decide)
  have hhigh : ¬ k ≤ 0x4A := not_char_of_break hk
  simp [keyboardIsr, bind_apply, hon, hmap, hmake, hhigh, hk, hback, henter, hpressed, setCol,
    Outcome.prepend]

theorem keyboardIsr_releaseEnter :
    keyboardIsr 0x9C s = ⟨.ok (), { s with keyPressed := false }, []⟩ := by
  have hmap : keyboardScancode1ToAsciiMap 0x9C = 0 := by decide
  simp [keyboardIsr, bind_apply, hon, hmap, hback, Outcome.prepend]

/-- A break code does nothing when no key counts as pressed. -/
theorem keyboardIsr_released
    (hk : 0x80 ≤ k)
    (hext : k ≠ 0xE0)
    (hpressed : s.keyPressed = false) :
    keyboardIsr k s = ⟨.ok (), s, []⟩ := by
  by_cases henter : k = 0x9C
  · rw [henter, keyboardIsr_releaseEnter hon hback, ← hpressed]
  · have hmap := scancodeMap_of_ge hk
    have hmake : k ≠ 0x1C := by rintro rfl; exact absurd hk (by decide)
    have hhigh : ¬ k ≤ 0x4A := not_char_of_break hk
    simp [keyboardIsr, bind_apply, hon, hmap, hmake, hhigh, hback, henter, hext, hpressed,
      Outcome.prepend]

end Ways

end Console
end OS2024
