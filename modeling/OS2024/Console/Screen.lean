import OS2024.Lib.Runs
import OS2024.Console.Keyboard

/-!
# `puts` and the edges of the screen

`puts` has a cursor of its own, which it wraps at the right edge and at the bottom.  The
keyboard's position follows it from time to time but is moved by the keys without any
bound: Enter never wraps the row, typing never wraps the column, and the extended scancode
takes the column below zero.

**Results.**
* `puts_ensures`: `puts` keeps its cursor on the screen and only writes there.
* `keyboardIsr_prints`, `keyboardIsr_quiet`: a key writes a cell at the keyboard's position, or
  nothing.
* `writesOnScreen_iff`: which runs only write to the screen.
-/

namespace OS2024
namespace Console

open Stdlib TracedState Runs

/-! ## `puts` -/

/-- The assignments at the end of a line. -/
def newLine : ConsoleM Unit := do
  modifyState fun s => { s with cursorRow := s.cursorRow + 1, cursorCol := 0 }
  setCol (← getState).cursorCol.toNat
  setRow (← getState).cursorRow.toNat

/-- The branch of `puts` for a character that is shown. -/
def printChar (c fg bg : UInt8) : ConsoleM Unit := do
  let s ← getState
  framebufferWrite s.cursorRow s.cursorCol c fg bg
  modifyState fun s => { s with cursorCol := s.cursorCol + 1 }
  setCol (← getState).cursorCol.toNat
  if (← getState).cursorCol ≥ 80 then newLine else return ()

/-- The check of `puts` for the bottom of the screen. -/
def wrapRow : ConsoleM Unit := do
  if (← getState).cursorRow ≥ 25 then
    modifyState fun s => { s with cursorRow := 0 }
    setCol (← getState).cursorCol.toNat
  else return ()

/-- One round of the loop of `puts`. -/
def putsChar (c fg bg : UInt8) : ConsoleM Unit := do
  -- '\n'
  (if c = 10 then newLine else printChar c fg bg)
  wrapRow

/-- The loop of `puts` from position `i`, with `n` characters left. -/
def putsLoop (str : Memory) (fg bg : UInt8) : Nat → Nat → ConsoleM Unit
  | 0, _ => pure ()
  | n + 1, i =>
      if str i = 0 then pure ()
      else do
        putsChar (str i) fg bg
        putsLoop str fg bg n (i + 1)

def updateCursorPosition : ConsoleM Unit := do
  framebufferSetCursor (← getState).cursorRow (← getState).cursorCol

def puts (str : Memory) (length attr : UInt32) : ConsoleM Unit := do
  putsLoop str (attr &&& 0x0F).toUInt8 (attr >>> 4 &&& 0x0F).toUInt8 length.toNat 0
  updateCursorPosition

/-! ## Runs of the console -/

/-- What reaches the console from outside. -/
inductive Input
  | interrupt (scancode : UInt8)
  | poll
  | puts (str : Memory) (length attr : UInt32)

def handle : Input → ConsoleM Unit
  | Input.interrupt scancode => keyboardIsr scancode
  | Input.poll => do
      let _ ← getKeyboardBuffer
      return ()
  | Input.puts str length attr => puts str length attr

/-- The inputs are handled one after another. -/
def handleAll : List Input → ConsoleM Unit
  | [] => pure ()
  | i :: is => do
      handle i
      handleAll is

/-- The state after an input. -/
def after (s : ConsoleState) (i : Input) : ConsoleState := (handle i s).state

/-- The event does not write outside the 80 by 25 cells of the screen. -/
def OnScreen : ConsoleEvent → Prop
  | ConsoleEvent.write row col _ _ _ => row.toNat * 80 + col.toNat < 2000
  | ConsoleEvent.setCursor _ => True

/-- All cursors are in the corner, and input is on. -/
structure NewConsole
    (s : ConsoleState) : Prop where
  row : s.row = 0
  col : s.col = 0
  cursorRow : s.cursorRow = 0
  cursorCol : s.cursorCol = 0
  on : s.InputOn

/-- The column in which a key would print now, if it prints. -/
def printColumn
    (s : ConsoleState)
    (scancode : UInt8) :
    Option Int :=
  if keyboardScancode1ToAsciiMap scancode = 8 then
    if 1 ≤ s.col then some (s.col - 1) else none
  else if scancode ≠ 0x1C ∧ 0x02 ≤ scancode ∧ scancode ≤ 0x4A ∧ s.keyPressed = false then
    some s.col
  else none

/-- Row and column, cut to eight bits, are those of a cell: any column up to row 21, and
from there on the fewer the closer to the last row. -/
def Room
    (row col : Int) : Prop :=
  row % 256 ≤ 21 ∨ (row % 256 = 22 ∧ col % 256 < 240) ∨ (row % 256 = 23 ∧ col % 256 < 160) ∨
    (row % 256 = 24 ∧ col % 256 < 80)

instance (row col : Int) : Decidable (Room row col) :=
  inferInstanceAs (Decidable (_ ∨ _))

/-- A key that prints finds room at the keyboard's position. -/
def PrintsOnScreen
    (s : ConsoleState) :
    Input → Prop
  | Input.interrupt scancode => ∀ c, c ∈ printColumn s scancode → Room s.row c
  | Input.poll => True
  | Input.puts _ _ _ => True

instance (s : ConsoleState) (i : Input) : Decidable (PrintsOnScreen s i) :=
  match i with
  | Input.interrupt scancode =>
      inferInstanceAs (Decidable (∀ c, c ∈ printColumn s scancode → Room s.row c))
  | Input.poll => isTrue trivial
  | Input.puts _ _ _ => isTrue trivial

/-! ## The cursor of `puts` -/

/-- The cursor of `puts` is on the screen, and input is on. -/
structure CursorOnScreen
    (s : ConsoleState) : Prop where
  row : s.cursorRow.toNat < 25
  col : s.cursorCol.toNat < 80
  on : s.InputOn

/-- The cursor may have left the screen at the bottom. -/
structure CursorBelow
    (s : ConsoleState) : Prop where
  row : s.cursorRow.toNat ≤ 25
  col : s.cursorCol.toNat < 80
  on : s.InputOn

section Puts

/-- The state at the beginning of the next line. -/
def ConsoleState.nextLine
    (s : ConsoleState) :
    ConsoleState :=
  { s with
    cursorRow := s.cursorRow + 1
    cursorCol := 0
    col := 0
    row := (s.cursorRow + 1).toNat }

/-- The state with the cursor back in the first row. -/
def ConsoleState.wrapped
    (s : ConsoleState) :
    ConsoleState :=
  { s with
    cursorRow := 0
    col := s.cursorCol.toNat }

/-- The state with a character shown and the cursor behind it. -/
def ConsoleState.advanced
    (s : ConsoleState)
    (c fg bg : UInt8) :
    ConsoleState :=
  { s.written s.cursorRow s.cursorCol c fg bg with
    cursorCol := s.cursorCol + 1
    col := (s.cursorCol + 1).toNat }

variable {s : ConsoleState}

theorem newLine_apply :
    newLine s = ⟨.ok (), s.nextLine, []⟩ := rfl

/-- A character is shown where the cursor is, which then moves on by one cell. -/
theorem printChar_apply
    (c fg bg : UInt8) :
    printChar c fg bg s =
      ⟨.ok (),
        if (s.advanced c fg bg).cursorCol ≥ 80 then (s.advanced c fg bg).nextLine
        else s.advanced c fg bg,
        [ConsoleEvent.write s.cursorRow s.cursorCol c fg bg]⟩ := by
  have hrun : printChar c fg bg s =
      ((if (s.advanced c fg bg).cursorCol ≥ 80 then newLine else pure () : ConsoleM Unit)
        (s.advanced c fg bg)).prepend [ConsoleEvent.write s.cursorRow s.cursorCol c fg bg] := by
    simp only [printChar, bind_apply, getState_apply, framebufferWrite, modifyState_apply,
      setCol, Outcome.prepend, List.nil_append]
    rfl
  rw [hrun]
  split_ifs <;> rfl

theorem wrapRow_apply :
    wrapRow s = ⟨.ok (), if s.cursorRow ≥ 25 then s.wrapped else s, []⟩ := by
  simp only [wrapRow, bind_apply, getState_apply]
  split_ifs <;> rfl

/-- The row counts up to one more than the screen has. -/
theorem cursorRow_succ
    (hrow : s.cursorRow.toNat < 25) :
    (s.cursorRow + 1).toNat = s.cursorRow.toNat + 1 := by
  have hone : (1 : UInt8).toNat = 1 := rfl
  rw [UInt8.toNat_add]
  omega

theorem cursorCol_succ
    (hcol : s.cursorCol.toNat < 80) :
    (s.cursorCol + 1).toNat = s.cursorCol.toNat + 1 := by
  have hone : (1 : UInt8).toNat = 1 := rfl
  rw [UInt8.toNat_add]
  omega

theorem nextLine_below
    (hrow : s.cursorRow.toNat < 25)
    (hon : s.InputOn) :
    CursorBelow s.nextLine := by
  refine ⟨?_, (by decide : (0 : UInt8).toNat < 80), hon⟩
  show (s.cursorRow + 1).toNat ≤ 25
  rw [cursorRow_succ hrow]
  exact hrow

theorem newLine_ensures :
    Ensures OnScreen (fun s => s.cursorRow.toNat < 25 ∧ s.InputOn) newLine
      fun _ s => CursorBelow s :=
  fun s h => ⟨(), s.nextLine, [], newLine_apply, nextLine_below h.1 h.2, fun e he => by cases he⟩

theorem printChar_ensures
    (c fg bg : UInt8) :
    Ensures OnScreen CursorOnScreen (printChar c fg bg) fun _ s => CursorBelow s := by
  intro s h
  refine ⟨(), _, _, printChar_apply c fg bg, ?_, fun e he => ?_⟩
  · split_ifs with hedge
    · exact nextLine_below (s := s.advanced c fg bg) h.row h.on
    · exact ⟨le_of_lt h.row, UInt8.lt_iff_toNat_lt.mp (UInt8.not_le.mp hedge), h.on⟩
  · have hrow := h.row
    have hcol := h.col
    rw [List.mem_singleton.mp he]
    show s.cursorRow.toNat * 80 + s.cursorCol.toNat < 2000
    omega

theorem wrapRow_ensures :
    Ensures OnScreen CursorBelow wrapRow fun _ s => CursorOnScreen s := by
  intro s h
  refine ⟨(), _, _, wrapRow_apply, ?_, fun e he => by cases he⟩
  split_ifs with hrow
  · exact ⟨(by decide : (0 : UInt8).toNat < 25), h.col, h.on⟩
  · exact ⟨UInt8.lt_iff_toNat_lt.mp (UInt8.not_le.mp hrow), h.col, h.on⟩

theorem putsChar_ensures
    (c fg bg : UInt8) :
    Ensures OnScreen CursorOnScreen (putsChar c fg bg) fun _ s => CursorOnScreen s := by
  have hbody : Ensures OnScreen CursorOnScreen
      (if c = 10 then newLine else printChar c fg bg) fun _ s => CursorBelow s := by
    by_cases hc : c = 10
    · rw [if_pos hc]
      exact fun s h => newLine_ensures s ⟨h.row, h.on⟩
    · rw [if_neg hc]
      exact printChar_ensures c fg bg
  exact hbody.bind fun _ => wrapRow_ensures

theorem putsLoop_ensures
    (str : Memory)
    (fg bg : UInt8)
    (n i : Nat) :
    Ensures OnScreen CursorOnScreen (putsLoop str fg bg n i) fun _ s => CursorOnScreen s := by
  induction n generalizing i with
  | zero => exact Ensures.pure () fun _ h => h
  | succ n ih =>
      rw [putsLoop]
      by_cases hi : str i = 0
      · rw [if_pos hi]
        exact Ensures.pure () fun _ h => h
      · rw [if_neg hi]
        exact (putsChar_ensures (str i) fg bg).bind fun _ => ih (i + 1)

/-- **`puts` writes to the screen only.** -/
theorem puts_ensures
    (str : Memory)
    (length attr : UInt32) :
    Ensures OnScreen CursorOnScreen (puts str length attr) fun _ s => CursorOnScreen s := by
  refine (putsLoop_ensures str _ _ length.toNat 0).bind fun _ => ?_
  intro s h
  refine ⟨(), s, [_], rfl, h, fun e he => ?_⟩
  rw [List.mem_singleton.mp he]
  trivial

end Puts

/-! ## The position of the keyboard -/

section Keys

variable {s : ConsoleState} {k : UInt8}

/-- No interrupt moves the cursor of `puts` or turns input off. -/
theorem keyboardIsr_frame
    (hon : s.InputOn) :
    ∃ s' w, keyboardIsr k s = ⟨.ok (), s', w⟩ ∧ s'.cursorRow = s.cursorRow ∧
      s'.cursorCol = s.cursorCol ∧ s'.InputOn := by
  refine ⟨(keyboardIsr k s).state, (keyboardIsr k s).trace, ?_⟩
  have hok : (keyboardIsr k s).result = .ok () := by
    cases hresult : (keyboardIsr k s).result with
    | error e => exact e.elim
    | ok u => rfl
  refine ⟨by rw [← hok], ?_⟩
  have hon' : s.keyboardState.keyboardInputOn = true := hon
  simp only [keyboardIsr, bind_apply, getState_apply, ConsoleState.InputOn]
  split_ifs <;>
    simp [bind_apply, setCol, setRow, setKeyboardBuffer, framebufferWrite,
      framebufferSetCursor, keyboardStateActivate, keyboardStateDeactivate, hon']

/-- A key that prints writes one cell, in the keyboard's row. -/
theorem keyboardIsr_prints
    (hon : s.InputOn)
    {c : Int}
    (hc : printColumn s k = some c) :
    ∃ x i, (keyboardIsr k s).trace =
      [ConsoleEvent.write (UInt8.ofInt s.row) (UInt8.ofInt c) x 0x0F 0x00,
        ConsoleEvent.setCursor i] := by
  unfold printColumn at hc
  split_ifs at hc with h8 hcol hchar
  · rw [keyboardIsr_backspace hon h8 hcol, ← Option.some_inj.mp hc]
    exact ⟨_, _, rfl⟩
  · obtain ⟨henter, hlow, hhigh, hpressed⟩ := hchar
    rw [keyboardIsr_char hon h8 henter hlow hhigh hpressed, ← Option.some_inj.mp hc]
    exact ⟨_, _, rfl⟩

/-- Any other scancode writes nothing. -/
theorem keyboardIsr_quiet
    (hon : s.InputOn)
    (hc : printColumn s k = none) :
    ∀ e, e ∈ (keyboardIsr k s).trace → OnScreen e := by
  unfold printColumn at hc
  split_ifs at hc with h8 hcol hchar
  · rw [keyboardIsr_margin hon h8 hcol]
    intro e he
    cases he
  · have hon' : s.keyboardState.keyboardInputOn = true := hon
    by_cases hk : k = 0x1C
    · subst hk
      cases hpressed : s.keyPressed with
      | false =>
          rw [keyboardIsr_enter hon hpressed]
          intro e he
          rw [List.mem_singleton.mp he]
          trivial
      | true =>
          rw [keyboardIsr_ignored hon h8 (by decide) (Or.inl hpressed)]
          intro e he
          cases he
    · have hnot : ¬ ((0x02 ≤ k ∧ k ≤ 0x4A) ∧ s.keyPressed = false) :=
        fun h => hchar ⟨hk, h.1.1, h.1.2, h.2⟩
      -- the branches that are left move the cursor at most
      intro e he
      simp only [keyboardIsr, bind_apply, getState_apply, hon', Bool.false_eq_true, if_false,
        if_neg h8, decide_eq_false hk, Bool.false_and, Bool.and_eq_true,
        decide_eq_true_eq, Bool.not_eq_true', if_neg hnot] at he
      split_ifs at he <;>
        simp_all [bind_apply, setCol, setKeyboardBuffer, framebufferSetCursor, OnScreen]

end Keys

/-! ## Runs -/

section Runs

variable {s : ConsoleState}

theorem toNat_ofInt
    (n : Int) :
    (UInt8.ofInt n).toNat = (n % 256).toNat := by
  simp only [UInt8.ofInt, UInt8.toNat_ofNat']
  omega

/-- There is room exactly where the cell is on the screen. -/
theorem room_iff
    (row col : Int) :
    (UInt8.ofInt row).toNat * 80 + (UInt8.ofInt col).toNat < 2000 ↔ Room row col := by
  rw [toNat_ofInt, toNat_ofInt, Room]
  omega

theorem handle_ok
    (i : Input)
    (s : ConsoleState) :
    (handle i s).result = .ok () := by
  cases hresult : (handle i s).result with
  | error e => exact e.elim
  | ok u => rfl

theorem handleAll_cons_trace
    (i : Input)
    (is : List Input) :
    (handleAll (i :: is) s).trace =
      (handle i s).trace ++ (handleAll is (after s i)).trace := by
  have hrun : handle i s = ⟨.ok (), after s i, (handle i s).trace⟩ := by
    rw [← handle_ok i s]
    rfl
  rw [handleAll, bind_apply, hrun]
  rfl

/-- No input takes the cursor of `puts` off the screen. -/
theorem after_cursor
    (h : CursorOnScreen s)
    (i : Input) :
    CursorOnScreen (after s i) := by
  cases i with
  | interrupt k =>
      obtain ⟨s', w, hrun, hrow, hcol, hon⟩ := keyboardIsr_frame (k := k) h.on
      rw [after, handle, hrun]
      exact ⟨hrow ▸ h.row, hcol ▸ h.col, hon⟩
  | poll => exact ⟨h.row, h.col, h.on⟩
  | puts str length attr =>
      obtain ⟨a, s', w, hrun, hs', -⟩ := puts_ensures str length attr s h
      rw [after, handle, hrun]
      exact hs'

/-- An input writes to the screen only, exactly if it is no key that prints outside. -/
theorem handle_onScreen_iff
    (h : CursorOnScreen s)
    (i : Input) :
    (∀ e, e ∈ (handle i s).trace → OnScreen e) ↔ PrintsOnScreen s i := by
  cases i with
  | interrupt k =>
      rw [handle, PrintsOnScreen]
      cases hc : printColumn s k with
      | none =>
          simp only [Option.mem_def, reduceCtorEq, false_implies, implies_true, iff_true]
          exact keyboardIsr_quiet h.on hc
      | some c =>
          obtain ⟨x, j, htrace⟩ := keyboardIsr_prints h.on hc
          rw [htrace]
          simp only [List.mem_cons, List.not_mem_nil, or_false, forall_eq_or_imp, forall_eq,
            OnScreen, room_iff, and_true, Option.mem_def, Option.some_inj, forall_eq']
  | poll =>
      exact ⟨fun _ => trivial, fun _ e he => by cases he⟩
  | puts str length attr =>
      obtain ⟨a, s', w, hrun, -, hw⟩ := puts_ensures str length attr s h
      rw [handle, hrun]
      exact ⟨fun _ => trivial, fun _ => hw⟩

theorem handleAll_onScreen_iff
    (h : CursorOnScreen s)
    (is : List Input) :
    (∀ e, e ∈ (handleAll is s).trace → OnScreen e) ↔ Along PrintsOnScreen after s is := by
  induction is generalizing s with
  | nil => exact ⟨fun _ => trivial, fun _ e he => by cases he⟩
  | cons i is ih =>
      rw [handleAll_cons_trace, Along, ← handle_onScreen_iff h, ← ih (after_cursor h i)]
      simp only [List.mem_append, or_imp, forall_and]

end Runs

/-- **The console writes to the screen only, exactly along the runs in which every key that
prints finds the keyboard's position on the screen.** -/
theorem writesOnScreen_iff
    {s : ConsoleState}
    (hnew : NewConsole s)
    (is : List Input) :
    (∀ e, e ∈ (handleAll is s).trace → OnScreen e) ↔ Along PrintsOnScreen after s is := by
  refine handleAll_onScreen_iff ⟨?_, ?_, hnew.on⟩ is
  · rw [hnew.cursorRow]
    decide
  · rw [hnew.cursorCol]
    decide

theorem newConsole_bootConsole :
    NewConsole bootConsole :=
  ⟨rfl, rfl, rfl, rfl, rfl⟩

/-- The strokes of `a` and Enter stay on the screen. -/
theorem onScreen_firstLine :
    NewConsole bootConsole ∧
      ∀ e, e ∈ (handleAll [Input.interrupt 0x1E, Input.interrupt 0x9E, Input.interrupt 0x1C,
        Input.interrupt 0x9C] bootConsole).trace → OnScreen e :=
  ⟨newConsole_bootConsole, (writesOnScreen_iff newConsole_bootConsole _).mpr (by decide +kernel)⟩

/-- Twenty-five times Enter, and then the key of `a`. -/
def enterStrokes : List Input :=
  (List.replicate 25 [Input.interrupt 0x1C, Input.interrupt 0x9C]).flatten ++
    [Input.interrupt 0x1E]

/-- Enter never wraps the row: after twenty-five lines the next key writes below the
screen. -/
theorem enter_leaves_screen :
    NewConsole bootConsole ∧
      ConsoleEvent.write 25 0 97 0x0F 0x00 ∈ (handleAll enterStrokes bootConsole).trace ∧
      ¬ ∀ e, e ∈ (handleAll enterStrokes bootConsole).trace → OnScreen e := by
  have hwrite : ConsoleEvent.write 25 0 97 0x0F 0x00 ∈
      (handleAll enterStrokes bootConsole).trace := by
    decide +kernel
  refine ⟨newConsole_bootConsole, hwrite, fun h => ?_⟩
  have houtside := h _ hwrite
  revert houtside
  show ¬ 25 * 80 + 0 < 2000
  decide

end Console
end OS2024
