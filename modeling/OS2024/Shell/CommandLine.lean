import OS2024.Console.Strokes
import OS2024.Shell.Strings

/-!
# The command line

The line that is typed exists twice: the keyboard interrupt writes it to the screen, and the
loop of `main` collects the characters that it polls.  A backspace only reaches the screen:
it leaves an empty mailbox, so the shell never hears of it.  A character for which the keyboard's
position is below the screen only reaches the shell.

**Results.**
* `stroke_typed`, `stroke_backspace`: one stroke, in both copies.
* `typeStrokes_harmless`: without such strokes the copies stay the same.
* `typeStrokes_harmful`: after one of them they never agree again.
* `shownIsExecuted_iff`: when what is shown is what is executed.
-/

namespace OS2024
namespace Shell

open TracedState Console

/-- The console and the `input` of `main`. -/
structure Terminal where
  console : ConsoleState
  input : StringBuff

/-- What ends the loop of `main` abnormally. -/
inductive TerminalFault
  /-- `str->buf[str->len]` with `len` outside the 256 characters. -/
  | stringBuffIndex
deriving DecidableEq

/-- What the loop of `main` and the interrupts do. -/
inductive TerminalEvent
  | console (e : ConsoleEvent)
  | parseCommand (input : StringBuff)

abbrev TerminalM := Traced TerminalFault Terminal TerminalEvent

/-- An operation of the console. -/
def liftConsole {α : Type} (x : ConsoleM α) : TerminalM α :=
  fun t =>
    match x t.console with
    | ⟨.ok a, s, w⟩ => ⟨.ok a, { t with console := s }, w.map TerminalEvent.console⟩
    | ⟨.error e, _, _⟩ => e.elim

/-- The call of `parseCommand`, as far as the command line is concerned. -/
def parseCommand (input : StringBuff) : TerminalM Unit :=
  fun t => ⟨.ok (), t, [TerminalEvent.parseCommand input]⟩

/-- One round of the loop of `main`; the kernel has no system call 5. -/
def mainLoop : TerminalM Unit := do
  let buf ← liftConsole getKeyboardBuffer
  -- '\n'
  if buf = 10 then
    parseCommand (← getState).input
    modifyState fun t => { t with input := stringBuffCreate }
  else if buf ≠ 0 then
    match stringBuffInputChar (← getState).input buf with
    | some input => modifyState fun t => { t with input := input }
    | none => fault TerminalFault.stringBuffIndex
  else return ()

def mainLoops : Nat → TerminalM Unit
  | 0 => return ()
  | n + 1 => do
      mainLoop
      mainLoops n

/-- An interrupt, and then `n` further rounds of the loop after a first one. -/
def interruptAndPoll (scancode : UInt8) (n : Nat) : TerminalM Unit := do
  liftConsole (keyboardIsr scancode)
  mainLoops (n + 1)

/-! ## Strokes -/

/-- A key whose character stands in the line: not NUL, backspace or newline. -/
def IsPrintable (k : UInt8) : Prop :=
  k < 0x80 ∧ keyboardScancode1ToAsciiMap k ≠ 0 ∧ keyboardScancode1ToAsciiMap k ≠ 8 ∧
    keyboardScancode1ToAsciiMap k ≠ 10

instance (k : UInt8) : Decidable (IsPrintable k) :=
  inferInstanceAs (Decidable (_ ∧ _))

/-- A stroke of the line. -/
inductive Stroke
  | key (k : { k : UInt8 // IsPrintable k })
  | backspace

def Stroke.makeCode : Stroke → UInt8
  | Stroke.key k => k.val
  | Stroke.backspace => 0x0E

/-- The strokes with the numbers of further polls after the make and after the break code. -/
def typeStrokes : List (Stroke × Nat × Nat) → TerminalM Unit
  | [] => return ()
  | (k, m, n) :: ks => do
      interruptAndPoll k.makeCode m
      interruptAndPoll (k.makeCode + 0x80) n
      typeStrokes ks

/-- A whole line with the make code of Enter at its end; the result is the terminal before
that. -/
def typeLine (ks : List (Stroke × Nat × Nat)) (n : Nat) : TerminalM Terminal := do
  typeStrokes ks
  let shown ← getState
  interruptAndPoll 0x1C n
  return shown

/-- The interrupt takes the key for a character. -/
def IsTyped (k : UInt8) : Prop := 0x02 ≤ k ∧ k ≤ 0x4A

instance (k : UInt8) : Decidable (IsTyped k) :=
  inferInstanceAs (Decidable (_ ∧ _))

/-- There are always fewer than 50 characters on the line, `n` of them already. -/
def FitsLine : Nat → List Stroke → Prop
  | n, [] => n < 50
  | n, Stroke.key k :: ks => n < 50 ∧ FitsLine (if IsTyped k.val then n + 1 else n) ks
  | n, Stroke.backspace :: ks => n < 50 ∧ FitsLine (n - 1) ks

/-- Every character finds its cell on the screen, and every backspace comes while the line is
empty and the prompt ends in column 0.  The prompt ends in column `p` of the row, and `n`
characters are on the line already. -/
def Harmless (row : UInt8) (p : Nat) : Nat → List Stroke → Prop
  | _, [] => True
  | n, Stroke.key k :: ks =>
      if IsTyped k.val then row.toNat * 80 + (p + n) < 2000 ∧ Harmless row p (n + 1) ks
      else Harmless row p n ks
  | n, Stroke.backspace :: ks => (p = 0 ∧ n = 0) ∧ Harmless row p n ks

/-! ## The two copies of the line -/

/-- There is such a cell on the screen. -/
def IsCell (row col : UInt8) : Prop := row.toNat * 80 + col.toNat < 2000

instance (row col : UInt8) : Decidable (IsCell row col) :=
  inferInstanceAs (Decidable (_ < _))

/-- The character in a cell of the screen. -/
def shownCell (s : ConsoleState) (row col : UInt8) : Option UInt8 :=
  if IsCell row col then some (s.framebuffer (frameBufferIndex row col)) else none

/-- The characters that stand on the screen between the end of the prompt, in column `p`, and the
cursor. -/
def shownText (s : ConsoleState) (p : Nat) : List UInt8 :=
  (List.range (s.col - p).toNat).filterMap fun i =>
    shownCell s (UInt8.ofInt s.row) (UInt8.ofInt (p + i : Nat))

/-- The inputs handed to `parseCommand`. -/
def executed (w : List TerminalEvent) : List StringBuff :=
  w.filterMap fun
    | TerminalEvent.parseCommand input => some input
    | TerminalEvent.console _ => none

/-- The event writes to a cell before the end of the prompt, in column `p` of the row. -/
def OverwritesPrompt (row : UInt8) (p : Nat) : TerminalEvent → Prop
  | TerminalEvent.console (ConsoleEvent.write r c _ _ _) =>
      r.toNat * 80 + c.toNat < row.toNat * 80 + p
  | TerminalEvent.console (ConsoleEvent.setCursor _) => False
  | TerminalEvent.parseCommand _ => False

/-- The line went once to `parseCommand`, as it stood on the screen, and the prompt is
still there. -/
structure ShownIsExecuted
    (row : UInt8)
    (p : Nat)
    (o : Outcome TerminalFault Terminal TerminalEvent Terminal) : Prop where
  same : ∃ shown input, o.result = .ok shown ∧ executed o.trace = [input] ∧
    input.text = shownText shown.console p
  prompt : ∀ e, e ∈ o.trace → ¬ OverwritesPrompt row p e

/-! ## One interrupt and the polls after it -/

section Polls

variable {t : Terminal}

theorem liftConsole_apply
    {α : Type}
    {x : ConsoleM α}
    {a : α}
    {s : ConsoleState}
    {w : List ConsoleEvent}
    (h : x t.console = ⟨.ok a, s, w⟩) :
    liftConsole x t = ⟨.ok a, { t with console := s }, w.map TerminalEvent.console⟩ := by
  rw [liftConsole, h]

/-- With an empty mailbox the loop does nothing. -/
theorem mainLoops_empty
    (h : t.console.keyboardState.keyboardBuffer = 0)
    (n : Nat) :
    mainLoops n t = ⟨.ok (), t, []⟩ := by
  induction n with
  | zero => rfl
  | succ n ih =>
      have hpoll := liftConsole_apply (t := t) (getKeyboardBuffer_apply t.console)
      rw [h, buffered_of_empty h] at hpoll
      have hround : mainLoop t = ⟨.ok (), t, []⟩ := by
        simp [mainLoop, bind_apply, hpoll, Outcome.prepend]
      simp only [mainLoops, bind_apply, hround, ih, Outcome.prepend, List.nil_append]

/-- A character in the mailbox is added to the input. -/
theorem mainLoops_char
    {c : UInt8}
    (hc : t.console.keyboardState.keyboardBuffer = c)
    (h0 : c ≠ 0)
    (h10 : c ≠ 10)
    {input : StringBuff}
    (hinput : stringBuffInputChar t.input c = some input)
    (n : Nat) :
    mainLoops (n + 1) t = ⟨.ok (), ⟨t.console.buffered 0, input⟩, []⟩ := by
  have hpoll := liftConsole_apply (t := t) (getKeyboardBuffer_apply t.console)
  rw [hc] at hpoll
  have hround : mainLoop t = ⟨.ok (), ⟨t.console.buffered 0, input⟩, []⟩ := by
    simp [mainLoop, bind_apply, hpoll, h0, h10, hinput, Outcome.prepend]
  have hrest : mainLoops n ⟨t.console.buffered 0, input⟩ =
      ⟨.ok (), ⟨t.console.buffered 0, input⟩, []⟩ := mainLoops_empty rfl n
  simp only [mainLoops, bind_apply, hround, hrest, Outcome.prepend, List.nil_append]

/-- A full input overflows. -/
theorem mainLoops_overflow
    {c : UInt8}
    (hc : t.console.keyboardState.keyboardBuffer = c)
    (h0 : c ≠ 0)
    (h10 : c ≠ 10)
    (hinput : stringBuffInputChar t.input c = none)
    (n : Nat) :
    (mainLoops (n + 1) t).result = .error TerminalFault.stringBuffIndex := by
  have hpoll := liftConsole_apply (t := t) (getKeyboardBuffer_apply t.console)
  rw [hc] at hpoll
  have hround : (mainLoop t).result = .error TerminalFault.stringBuffIndex := by
    simp [mainLoop, bind_apply, hpoll, h0, h10, hinput, Outcome.prepend]
  rw [mainLoops]
  exact bind_result_error hround

/-- Enter hands the input over. -/
theorem mainLoops_enter
    (hc : t.console.keyboardState.keyboardBuffer = 10)
    (n : Nat) :
    mainLoops (n + 1) t =
      ⟨.ok (), ⟨t.console.buffered 0, stringBuffCreate⟩, [TerminalEvent.parseCommand t.input]⟩ := by
  have hpoll := liftConsole_apply (t := t) (getKeyboardBuffer_apply t.console)
  rw [hc] at hpoll
  have hround : mainLoop t =
      ⟨.ok (), ⟨t.console.buffered 0, stringBuffCreate⟩,
        [TerminalEvent.parseCommand t.input]⟩ := by
    simp [mainLoop, bind_apply, hpoll, parseCommand, Outcome.prepend]
  have hrest : mainLoops n ⟨t.console.buffered 0, stringBuffCreate⟩ =
      ⟨.ok (), ⟨t.console.buffered 0, stringBuffCreate⟩, []⟩ := mainLoops_empty rfl n
  simp only [mainLoops, bind_apply, hround, hrest, Outcome.prepend, List.append_nil]

end Polls

/-! ## One stroke -/

/-- Between two strokes: nothing is held and the mailbox is empty. -/
structure Resting
    (s : ConsoleState) : Prop where
  quiet : Quiet s
  released : s.keyPressed = false

/-- The console after the stroke of a character. -/
def typedStroke
    (s : ConsoleState)
    (c : UInt8) :
    ConsoleState :=
  { (s.typed c).buffered 0 with
    keyPressed := false
    col := s.col + 1 }

/-- The console after the stroke of a backspace. -/
def erasedStroke
    (s : ConsoleState) :
    ConsoleState :=
  { s.erased with backspacePressed := false }

/-- What is asked of the screen when a cell is written and the cursor moved to a column. -/
def writeEvents
    (row col : Int)
    (c : UInt8)
    (next : Int) :
    List TerminalEvent :=
  [TerminalEvent.console (ConsoleEvent.write (UInt8.ofInt row) (UInt8.ofInt col) c 0x0F 0x00),
    TerminalEvent.console (ConsoleEvent.setCursor
      ((UInt8.ofInt row).toUInt16 * 80 + (UInt8.ofInt next).toUInt16))]

section Strokes

variable {t : Terminal} {k : UInt8}

theorem break_of_printable
    (hk : IsPrintable k) :
    0x80 ≤ k + 0x80 ∧ k + 0x80 ≠ 0xE0 ∧ k + 0x80 ≠ 0x9C := by
  have hlt := UInt8.lt_iff_toNat_lt.mp hk.1
  have h80 : (0x80 : UInt8).toNat = 128 := rfl
  have hsum : (k + 0x80).toNat = k.toNat + 128 := by
    rw [UInt8.toNat_add, h80]
    omega
  -- a break code equal to the one of `m` belongs to `m`
  have hinj : ∀ m : UInt8, m < 0x80 → k + 0x80 = m + 0x80 → k = m := by
    intro m hm he
    have hm := UInt8.lt_iff_toNat_lt.mp hm
    have := congrArg UInt8.toNat he
    rw [hsum, UInt8.toNat_add, h80] at this
    exact UInt8.toNat_inj.mp (by omega)
  refine ⟨?_, fun he => ?_, fun he => ?_⟩
  · rw [UInt8.le_iff_toNat_le, hsum, h80]
    omega
  · obtain rfl := hinj 0x60 (by decide) he
    exact hk.2.1 (by decide)
  · obtain rfl := hinj 0x1C (by decide) he
    exact hk.2.2.2 (by decide)

/-- What a stroke does, given by its two interrupts and the polls after them. -/
def stroke (k : UInt8) (m n : Nat) : TerminalM Unit := do
  interruptAndPoll k m
  interruptAndPoll (k + 0x80) n

theorem typeStrokes_cons
    (k : Stroke)
    (m n : Nat)
    (ks : List (Stroke × Nat × Nat)) :
    typeStrokes ((k, m, n) :: ks) t =
      ((stroke k.makeCode m n >>= fun _ => typeStrokes ks) : TerminalM Unit) t := by
  rw [typeStrokes, stroke]
  simp only [bind_apply]
  rcases interruptAndPoll k.makeCode m t with ⟨_ | _, t₁, w₁⟩
  · rfl
  · simp only [Outcome.prepend]
    rcases interruptAndPoll (k.makeCode + 0x80) n t₁ with ⟨_ | _, t₂, w₂⟩
    · rfl
    · simp [List.append_assoc]

theorem typeStrokes_cons_of_ok
    {k : Stroke}
    {m n : Nat}
    {t₁ : Terminal}
    {w : List TerminalEvent}
    (hrun : stroke k.makeCode m n t = ⟨.ok (), t₁, w⟩)
    (ks : List (Stroke × Nat × Nat)) :
    typeStrokes ((k, m, n) :: ks) t = (typeStrokes ks t₁).prepend w := by
  rw [typeStrokes_cons, bind_apply, hrun]

/-- A typed character reaches both copies of the line. -/
theorem stroke_typed
    (h : Resting t.console)
    (hk : IsPrintable k)
    (htyped : IsTyped k)
    {input : StringBuff}
    (hinput : stringBuffInputChar t.input (keyboardScancode1ToAsciiMap k) = some input)
    (m n : Nat) :
    stroke k m n t =
      ⟨.ok (), ⟨typedStroke t.console (keyboardScancode1ToAsciiMap k), input⟩,
        writeEvents t.console.row t.console.col (keyboardScancode1ToAsciiMap k)
          (t.console.col + 1)⟩ := by
  obtain ⟨hlt, h0, h8, h10⟩ := hk
  obtain ⟨hbreak, -, henter⟩ := break_of_printable ⟨hlt, h0, h8, h10⟩
  have hne : k ≠ 0x1C := by
    rintro rfl
    exact h10 (by decide)
  have hmake := liftConsole_apply (t := t)
    (keyboardIsr_char h.quiet.on h8 hne htyped.1 htyped.2 h.released)
  have hpoll := mainLoops_char
    (t := ⟨t.console.typed (keyboardScancode1ToAsciiMap k), t.input⟩) rfl h0 h10 hinput m
  have hon : ((t.console.typed (keyboardScancode1ToAsciiMap k)).buffered 0).InputOn :=
    h.quiet.on
  have hback : ((t.console.typed (keyboardScancode1ToAsciiMap k)).buffered 0).backspacePressed =
      false := h.quiet.noBackspace
  have hisr : keyboardIsr (k + 0x80)
      ((t.console.typed (keyboardScancode1ToAsciiMap k)).buffered 0) =
        ⟨.ok (), typedStroke t.console (keyboardScancode1ToAsciiMap k), []⟩ :=
    keyboardIsr_release hon hback hbreak henter rfl
  have hrelease := liftConsole_apply
    (t := ⟨(t.console.typed (keyboardScancode1ToAsciiMap k)).buffered 0, input⟩) hisr
  have hrest := mainLoops_empty
    (t := ⟨typedStroke t.console (keyboardScancode1ToAsciiMap k), input⟩) rfl (n + 1)
  simp only [stroke, interruptAndPoll, bind_apply, hmake, hpoll, hrelease, hrest,
    Outcome.prepend]
  rfl

/-- A character for which the input has no place ends the shell. -/
theorem stroke_overflow
    (h : Resting t.console)
    (hk : IsPrintable k)
    (htyped : IsTyped k)
    (hinput : stringBuffInputChar t.input (keyboardScancode1ToAsciiMap k) = none)
    (m n : Nat) :
    (stroke k m n t).result = .error TerminalFault.stringBuffIndex := by
  obtain ⟨hlt, h0, h8, h10⟩ := hk
  have hne : k ≠ 0x1C := by
    rintro rfl
    exact h10 (by decide)
  have hmake := liftConsole_apply (t := t)
    (keyboardIsr_char h.quiet.on h8 hne htyped.1 htyped.2 h.released)
  have hpoll := mainLoops_overflow
    (t := ⟨t.console.typed (keyboardScancode1ToAsciiMap k), t.input⟩) rfl h0 h10 hinput m
  rw [stroke]
  refine bind_result_error ?_
  rw [interruptAndPoll, bind_apply, hmake, Outcome.prepend_result, hpoll]

/-- Other keys do nothing. -/
theorem stroke_ignored
    (h : Resting t.console)
    (hk : IsPrintable k)
    (htyped : ¬ IsTyped k)
    (m n : Nat) :
    stroke k m n t = ⟨.ok (), t, []⟩ := by
  obtain ⟨hbreak, hext, -⟩ := break_of_printable hk
  have hidle : k < 0x02 ∨ 0x4A < k := by
    by_contra hnot
    rw [not_or, UInt8.not_lt, UInt8.not_lt] at hnot
    exact htyped hnot
  have hmake := liftConsole_apply (t := t)
    (keyboardIsr_ignored h.quiet.on hk.2.2.1 hk.1 (Or.inr hidle))
  have hrelease := liftConsole_apply (t := t)
    (keyboardIsr_released h.quiet.on h.quiet.noBackspace hbreak hext h.released)
  have hrest := fun n => mainLoops_empty (t := t) h.quiet.empty n
  simp only [stroke, interruptAndPoll, bind_apply, hmake, hrelease, hrest, Outcome.prepend,
    List.map_nil, List.nil_append]

/-- A backspace erases the cell before the cursor, and the shell does not notice. -/
theorem stroke_backspace
    (h : Resting t.console)
    (hcol : 1 ≤ t.console.col)
    (m n : Nat) :
    stroke 0x0E m n t =
      ⟨.ok (), ⟨erasedStroke t.console, t.input⟩,
        writeEvents t.console.row (t.console.col - 1) 0 (t.console.col - 1)⟩ := by
  have hmake := liftConsole_apply (t := t)
    (keyboardIsr_backspace h.quiet.on (by decide) hcol : keyboardIsr 0x0E t.console = _)
  have hpoll := mainLoops_empty (t := ⟨t.console.erased, t.input⟩) rfl (m + 1)
  have hon : t.console.erased.InputOn := h.quiet.on
  have hisr : keyboardIsr (0x0E + 0x80) t.console.erased =
      ⟨.ok (), erasedStroke t.console, []⟩ :=
    keyboardIsr_releaseBackspace hon (by decide) rfl rfl
  have hrelease := liftConsole_apply (t := ⟨t.console.erased, t.input⟩) hisr
  have hrest := mainLoops_empty (t := ⟨erasedStroke t.console, t.input⟩) rfl (n + 1)
  simp only [stroke, interruptAndPoll, bind_apply, hmake, hpoll, hrelease, hrest,
    Outcome.prepend]
  rfl

/-- At the left edge a backspace does nothing. -/
theorem stroke_margin
    (h : Resting t.console)
    (hcol : ¬ 1 ≤ t.console.col)
    (m n : Nat) :
    stroke 0x0E m n t = ⟨.ok (), t, []⟩ := by
  have hmake := liftConsole_apply (t := t)
    (keyboardIsr_margin h.quiet.on (by decide) hcol : keyboardIsr 0x0E t.console = _)
  have hrelease := liftConsole_apply (t := t)
    (keyboardIsr_released h.quiet.on h.quiet.noBackspace (by decide) (by decide) h.released :
      keyboardIsr (0x0E + 0x80) t.console = _)
  have hrest := fun n => mainLoops_empty (t := t) h.quiet.empty n
  simp only [stroke, interruptAndPoll, bind_apply, hmake, hrelease, hrest, Outcome.prepend,
    List.map_nil, List.nil_append]

/-- Enter hands the line over and leaves the screen alone. -/
theorem interruptAndPoll_enter
    (h : Resting t.console)
    (n : Nat) :
    ∃ t' i, interruptAndPoll 0x1C n t =
      ⟨.ok (), t', [TerminalEvent.console (ConsoleEvent.setCursor i),
        TerminalEvent.parseCommand t.input]⟩ := by
  have hmake := liftConsole_apply (t := t) (keyboardIsr_enter h.quiet.on h.released)
  have hpoll := mainLoops_enter (t := ⟨t.console.entered, t.input⟩) rfl n
  simp only [interruptAndPoll, bind_apply, hmake, hpoll, Outcome.prepend]
  exact ⟨_, _, rfl⟩

end Strokes

/-! ## The line without an effective backspace -/

/-- Both copies hold the same `n` characters. -/
structure Copied
    (row : Int)
    (p n : Nat)
    (t : Terminal) : Prop where
  resting : Resting t.console
  row_eq : t.console.row = row
  col_eq : t.console.col = ((p + n : Nat) : Int)
  len_eq : t.input.len.toNat = n
  text_eq : t.input.text = shownText t.console p

section Copies

variable {row : Int} {p n : Nat} {t : Terminal}

theorem toNat_ofInt_natCast
    {m : Nat}
    (hm : m < 256) :
    (UInt8.ofInt (m : Int)).toNat = m := by
  simp only [UInt8.ofInt, UInt8.toNat_ofNat']
  omega

theorem resting_typedStroke
    {s : ConsoleState}
    (h : Resting s)
    (c : UInt8) :
    Resting (typedStroke s c) :=
  ⟨⟨h.quiet.on, rfl, h.quiet.noBackspace⟩, rfl⟩

theorem resting_erasedStroke
    {s : ConsoleState}
    (h : Resting s) :
    Resting (erasedStroke s) :=
  ⟨⟨h.quiet.on, rfl, rfl⟩, h.released⟩

/-- A character that is typed on the screen stands behind the ones that were shown before. -/
theorem shownText_typedStroke
    {s : ConsoleState}
    (c : UInt8)
    (hcol : s.col = ((p + n : Nat) : Int))
    (hlt : p + n < 256)
    (hcell : (UInt8.ofInt s.row).toNat * 80 + (p + n) < 2000) :
    shownText (typedStroke s c) p = shownText s p ++ [c] := by
  have hcount : (s.col - p).toNat = n := by omega
  have hcount' : ((typedStroke s c).col - p).toNat = n + 1 := by
    show (s.col + 1 - p).toNat = n + 1
    omega
  have hrow : (typedStroke s c).row = s.row := rfl
  have hbuffer : (typedStroke s c).framebuffer =
      Function.update (Function.update s.framebuffer
        (frameBufferIndex (UInt8.ofInt s.row) (UInt8.ofInt s.col)) c)
        (frameBufferIndex (UInt8.ofInt s.row) (UInt8.ofInt s.col) + 1)
        ((0x00 : UInt8) <<< 4 ||| 0x0F) := rfl
  rw [shownText, shownText, hcount, hcount', List.range_succ, List.filterMap_append, hrow]
  congr 1
  · refine List.filterMap_congr fun i hi => ?_
    have hi := List.mem_range.mp hi
    have hne : (UInt8.ofInt ((p + i : Nat) : Int)).toNat ≠ (UInt8.ofInt s.col).toNat := by
      rw [hcol, toNat_ofInt_natCast hlt, toNat_ofInt_natCast (by omega)]
      omega
    rw [shownCell, hbuffer, Function.update_of_ne, Function.update_of_ne]
    · rfl
    · unfold frameBufferIndex
      omega
    · unfold frameBufferIndex
      omega
  · have hon : IsCell (UInt8.ofInt s.row) (UInt8.ofInt ((p + n : Nat) : Int)) := by
      rw [IsCell, toNat_ofInt_natCast hlt]
      exact hcell
    have hshown : shownCell (typedStroke s c) (UInt8.ofInt s.row)
        (UInt8.ofInt ((p + n : Nat) : Int)) = some c := by
      rw [shownCell, if_pos hon, hbuffer, ← hcol, Function.update_of_ne (by omega),
        Function.update_self]
    exact List.filterMap_cons_some hshown

/-- How many of the `n` cells behind the prompt are on the screen. -/
def cellsBehind (row : UInt8) (p n : Nat) : Nat :=
  (List.range n).countP fun i => IsCell row (UInt8.ofInt (p + i : Nat))

theorem length_shownText (s : ConsoleState) (p : Nat) :
    (shownText s p).length = cellsBehind (UInt8.ofInt s.row) p (s.col - p).toNat := by
  rw [shownText, cellsBehind, List.length_filterMap_eq_countP]
  refine List.countP_congr fun i _ => ?_
  rw [shownCell]
  by_cases h : IsCell (UInt8.ofInt s.row) (UInt8.ofInt ((p + i : Nat) : Int))
  · rw [if_pos h, decide_eq_true h, Option.isSome_some]
  · rw [if_neg h, decide_eq_false h, Option.isSome_none]

theorem cellsBehind_le (row : UInt8) (p n : Nat) : cellsBehind row p n ≤ n := by
  have hle : cellsBehind row p n ≤ (List.range n).length := List.countP_le_length
  rwa [List.length_range] at hle

theorem cellsBehind_succ (row : UInt8) (p n : Nat) :
    cellsBehind row p (n + 1) =
      cellsBehind row p n + if IsCell row (UInt8.ofInt (p + n : Nat)) then 1 else 0 := by
  rw [cellsBehind, List.range_succ, List.countP_append, List.countP_singleton]
  simp [cellsBehind]

/-- Writing behind the prompt does not overwrite it. -/
theorem not_overwrites_writeEvents
    {col : Int}
    (c : UInt8)
    (next : Int)
    (hcol : p ≤ (UInt8.ofInt col).toNat) :
    ∀ e, e ∈ writeEvents row col c next → ¬ OverwritesPrompt (UInt8.ofInt row) p e := by
  intro e he
  rcases List.mem_cons.mp he with rfl | he
  · show ¬ (UInt8.ofInt row).toNat * 80 + (UInt8.ofInt col).toNat <
      (UInt8.ofInt row).toNat * 80 + p
    omega
  · rw [List.mem_singleton.mp he]
    exact fun h => h

theorem executed_append
    (w v : List TerminalEvent) :
    executed (w ++ v) = executed w ++ executed v :=
  List.filterMap_append

/-- A typed character goes to both copies. -/
theorem Copied.typed
    {c : UInt8}
    {input : StringBuff}
    (h : Copied row p n t)
    (hroom : p + n < 256)
    (hcell : (UInt8.ofInt row).toNat * 80 + (p + n) < 2000)
    (hinput : stringBuffInputChar t.input c = some input) :
    Copied row p (n + 1) ⟨typedStroke t.console c, input⟩ where
  resting := resting_typedStroke h.resting _
  row_eq := h.row_eq
  col_eq := by
    show t.console.col + 1 = _
    rw [h.col_eq]
    omega
  len_eq := by rw [(inputChar_len hinput).1, h.len_eq]
  text_eq := by
    rw [← h.row_eq] at hcell
    rw [text_inputChar hinput, h.text_eq, shownText_typedStroke _ h.col_eq hroom hcell]

/-- Without a harmful stroke the copies stay the same. -/
theorem typeStrokes_harmless
    (hp : p < 80)
    (h : Copied row p n t)
    (ks : List (Stroke × Nat × Nat))
    (hfits : FitsLine n (ks.map Prod.fst))
    (hharmless : Harmless (UInt8.ofInt row) p n (ks.map Prod.fst)) :
    ∃ n' t' w, typeStrokes ks t = ⟨.ok (), t', w⟩ ∧ Copied row p n' t' ∧ executed w = [] ∧
      ∀ e, e ∈ w → ¬ OverwritesPrompt (UInt8.ofInt row) p e := by
  induction ks generalizing n t with
  | nil => exact ⟨n, t, [], rfl, h, rfl, fun e he => by cases he⟩
  | cons k ks ih =>
      obtain ⟨k, i, j⟩ := k
      cases k with
      | key k =>
          obtain ⟨hn, hfits⟩ := hfits
          by_cases htyped : IsTyped k.val
          · -- the character is appended on both sides
            rw [if_pos htyped] at hfits
            have hlen : t.input.len.toNat < 256 := by
              rw [h.len_eq]
              omega
            have hinput := inputChar_of_lt (c := keyboardScancode1ToAsciiMap k.val) hlen
            rw [List.map_cons, Harmless, if_pos htyped] at hharmless
            have hrun := stroke_typed h.resting k.property htyped hinput i j
            have hcopied := h.typed (c := keyboardScancode1ToAsciiMap k.val) (by omega)
              hharmless.1 hinput
            obtain ⟨n', t', w, hrest, hc, hexec, hw⟩ := ih hcopied hfits hharmless.2
            refine ⟨n', t', _, (typeStrokes_cons_of_ok (k := Stroke.key k) hrun ks).trans
              (congrArg (Outcome.prepend _) hrest), hc, ?_, ?_⟩
            · rw [executed_append, hexec]
              rfl
            · intro e he
              rcases List.mem_append.mp he with he | he
              · rw [h.row_eq] at he
                refine not_overwrites_writeEvents _ _ ?_ e he
                rw [h.col_eq, toNat_ofInt_natCast (by omega)]
                omega
              · exact hw e he
          · rw [if_neg htyped] at hfits
            have hrun := stroke_ignored h.resting k.property htyped i j
            rw [List.map_cons, Harmless, if_neg htyped] at hharmless
            obtain ⟨n', t', w, hrest, hc, hexec, hw⟩ := ih h hfits hharmless
            exact ⟨n', t', w, (typeStrokes_cons_of_ok (k := Stroke.key k) hrun ks).trans
              (congrArg (Outcome.prepend _) hrest), hc, hexec, hw⟩
      | backspace =>
          obtain ⟨⟨rfl, rfl⟩, hharmless⟩ := hharmless
          have hmargin : ¬ 1 ≤ t.console.col := by
            rw [h.col_eq]
            decide
          have hrun := stroke_margin h.resting hmargin i j
          obtain ⟨n', t', w, hrest, hc, hexec, hw⟩ := ih h hfits.2 hharmless
          exact ⟨n', t', w, (typeStrokes_cons_of_ok (k := Stroke.backspace) hrun ks).trans
            (congrArg (Outcome.prepend _) hrest), hc, hexec, hw⟩

end Copies

/-! ## The line after a harmful stroke -/

/-- The shell holds more characters than the screen shows behind the prompt. -/
structure Diverged
    (row : Int)
    (p : Nat)
    (t : Terminal) : Prop where
  resting : Resting t.console
  row_eq : t.console.row = row
  prompt_le : (p : Int) ≤ t.console.col
  more : (shownText t.console p).length < t.input.len.toNat
  fits : t.input.len.toNat ≤ 256

/-- The run ended with a fault, wrote over the prompt, or left the copies different. -/
def Spoiled
    {α : Type}
    (row : Int)
    (p : Nat)
    (o : Outcome TerminalFault Terminal TerminalEvent α) : Prop :=
  (∃ f, o.result = .error f) ∨ (∃ e, e ∈ o.trace ∧ OverwritesPrompt (UInt8.ofInt row) p e) ∨
    Diverged row p o.state

section Differences

variable {row : Int} {p n : Nat} {t : Terminal}

/-- A run stays spoiled behind earlier events. -/
theorem Spoiled.prepend
    {α : Type}
    {o : Outcome TerminalFault Terminal TerminalEvent α}
    (h : Spoiled row p o)
    (w : List TerminalEvent) :
    Spoiled row p (o.prepend w) := by
  rcases h with herr | ⟨e, he, hover⟩ | hdiv
  · exact Or.inl herr
  · exact Or.inr (Or.inl ⟨e, List.mem_append_right _ he, hover⟩)
  · exact Or.inr (Or.inr hdiv)

/-- A first part that is spoiled spoils the whole, if it is kept up from different copies. -/
theorem Spoiled.bind
    {α β : Type}
    {x : TerminalM α}
    {f : α → TerminalM β}
    (hx : Spoiled row p (x t))
    (hf : ∀ a u, Diverged row p u → Spoiled row p (f a u)) :
    Spoiled row p ((x >>= f) t) := by
  rcases hrun : x t with ⟨e | a, u, w⟩
  · rw [bind_apply, hrun]
    exact Or.inl ⟨e, rfl⟩
  · rw [bind_apply, hrun]
    rw [hrun] at hx
    rcases hx with ⟨e, he⟩ | ⟨e, he, hover⟩ | hdiv
    · cases he
    · exact Or.inr (Or.inl ⟨e, List.mem_append_left _ he, hover⟩)
    · exact (hf a u hdiv).prepend w

/-- A backspace right behind the prompt overwrites its last cell. -/
theorem overwrites_of_col
    (hp : p < 80)
    (hpos : 0 < p) :
    OverwritesPrompt (UInt8.ofInt row) p
      (TerminalEvent.console (ConsoleEvent.write (UInt8.ofInt row) (UInt8.ofInt ((p : Int) - 1))
        0 0x0F 0x00)) := by
  have hcast : (p : Int) - 1 = ((p - 1 : Nat) : Int) := by omega
  show _ < _
  rw [hcast, toNat_ofInt_natCast (by omega)]
  omega

/-- A typed character is shown in a cell of its own, if at all. -/
theorem length_shownText_typedStroke
    {s : ConsoleState}
    (hle : (p : Int) ≤ s.col)
    (c : UInt8) :
    (shownText (typedStroke s c) p).length = (shownText s p).length +
      if IsCell (UInt8.ofInt s.row) (UInt8.ofInt s.col) then 1 else 0 := by
  obtain ⟨n, hn⟩ : ∃ n : Nat, s.col = ((p + n : Nat) : Int) := ⟨(s.col - p).toNat, by omega⟩
  have hcount : (s.col - p).toNat = n := by omega
  have hcount' : ((typedStroke s c).col - p).toNat = n + 1 := by
    show (s.col + 1 - p).toNat = n + 1
    omega
  have hrow : (typedStroke s c).row = s.row := rfl
  rw [length_shownText, length_shownText, hcount, hcount', hrow, cellsBehind_succ, ← hn]

/-- A backspace takes a cell from the line. -/
theorem length_shownText_erasedStroke
    {s : ConsoleState}
    (hlt : (p : Int) < s.col) :
    (shownText (erasedStroke s) p).length ≤ (shownText s p).length ∧
      (shownText (erasedStroke s) p).length < (s.col - p).toNat := by
  obtain ⟨n, hn⟩ : ∃ n : Nat, s.col = ((p + n : Nat) : Int) + 1 := ⟨(s.col - p - 1).toNat, by omega⟩
  have hcount : (s.col - p).toNat = n + 1 := by omega
  have hcount' : ((erasedStroke s).col - p).toNat = n := by
    show (s.col - 1 - p).toNat = n
    omega
  have hrow : (erasedStroke s).row = s.row := rfl
  rw [length_shownText, length_shownText, hcount, hcount', hrow, cellsBehind_succ]
  exact ⟨Nat.le_add_right _ _, Nat.lt_succ_of_le (cellsBehind_le _ _ _)⟩

/-- From different copies, or where it has something to erase, a backspace spoils the line. -/
theorem stroke_backspace_spoils
    (hp : p < 80)
    (hrest : Resting t.console)
    (hrow : t.console.row = row)
    (hle : (p : Int) ≤ t.console.col)
    (hmore : (p : Int) < t.console.col →
      (shownText (erasedStroke t.console) p).length < t.input.len.toNat)
    (hfits : t.input.len.toNat ≤ 256)
    (hcol : 1 ≤ t.console.col)
    (m n : Nat) :
    Spoiled row p (stroke 0x0E m n t) := by
  rw [stroke_backspace hrest hcol]
  by_cases hlast : t.console.col = p
  · refine Or.inr (Or.inl ⟨_, List.mem_cons_self, ?_⟩)
    rw [hrow, hlast]
    exact overwrites_of_col hp (by omega)
  · refine Or.inr (Or.inr ⟨resting_erasedStroke hrest, hrow, ?_, hmore (by omega), hfits⟩)
    show (p : Int) ≤ t.console.col - 1
    omega

theorem stroke_diverged
    (hp : p < 80)
    (h : Diverged row p t)
    (k : Stroke)
    (m n : Nat) :
    Spoiled row p (stroke k.makeCode m n t) := by
  cases k with
  | key k =>
      by_cases htyped : IsTyped k.val
      · cases hinput : stringBuffInputChar t.input (keyboardScancode1ToAsciiMap k.val) with
        | none => exact Or.inl ⟨_, stroke_overflow h.resting k.property htyped hinput m n⟩
        | some input =>
            have hlen := inputChar_len hinput
            have hle := h.prompt_le
            have hmore := h.more
            rw [Stroke.makeCode, stroke_typed h.resting k.property htyped hinput m n]
            refine Or.inr (Or.inr ⟨resting_typedStroke h.resting _, h.row_eq, ?_, ?_, hlen.2⟩)
            · show (p : Int) ≤ t.console.col + 1
              omega
            · show (shownText (typedStroke t.console _) p).length < _
              rw [length_shownText_typedStroke hle, hlen.1]
              split_ifs <;> omega
      · rw [Stroke.makeCode, stroke_ignored h.resting k.property htyped m n]
        exact Or.inr (Or.inr h)
  | backspace =>
      by_cases hcol : 1 ≤ t.console.col
      · exact stroke_backspace_spoils hp h.resting h.row_eq h.prompt_le
          (fun hlt => (length_shownText_erasedStroke hlt).1.trans_lt h.more) h.fits hcol m n
      · rw [Stroke.makeCode, stroke_margin h.resting hcol m n]
        exact Or.inr (Or.inr h)

/-- Once the copies differ, they differ to the end of the line. -/
theorem typeStrokes_diverged
    (hp : p < 80)
    (h : Diverged row p t)
    (ks : List (Stroke × Nat × Nat)) :
    Spoiled row p (typeStrokes ks t) := by
  induction ks generalizing t with
  | nil => exact Or.inr (Or.inr h)
  | cons k ks ih =>
      obtain ⟨k, m, n⟩ := k
      rw [typeStrokes_cons]
      exact (stroke_diverged hp h k m n).bind fun _ u hu => ih hu

/-- Both cursors have moved by `n` characters. -/
structure Aligned
    (row : Int)
    (p n : Nat)
    (t : Terminal) : Prop where
  resting : Resting t.console
  row_eq : t.console.row = row
  col_eq : t.console.col = ((p + n : Nat) : Int)
  len_eq : t.input.len.toNat = n
  fits : n ≤ 256

/-- A typed character moves the cursor and lengthens the buffer. -/
theorem Aligned.typed
    {c : UInt8}
    {input : StringBuff}
    (h : Aligned row p n t)
    (hinput : stringBuffInputChar t.input c = some input) :
    Aligned row p (n + 1) ⟨typedStroke t.console c, input⟩ where
  resting := resting_typedStroke h.resting _
  row_eq := h.row_eq
  col_eq := by
    show t.console.col + 1 = _
    rw [h.col_eq]
    omega
  len_eq := by rw [(inputChar_len hinput).1, h.len_eq]
  fits := by
    rw [← h.len_eq, ← (inputChar_len hinput).1]
    exact (inputChar_len hinput).2

/-- A character for which there is no cell is not shown. -/
theorem Aligned.diverged
    {c : UInt8}
    {input : StringBuff}
    (h : Aligned row p n t)
    (hroom : p + n < 256)
    (hcell : ¬ (UInt8.ofInt row).toNat * 80 + (p + n) < 2000)
    (hinput : stringBuffInputChar t.input c = some input) :
    Diverged row p ⟨typedStroke t.console c, input⟩ := by
  have hcol := h.col_eq
  have hlen := inputChar_len hinput
  have hoff : ¬ IsCell (UInt8.ofInt t.console.row) (UInt8.ofInt t.console.col) := by
    rw [IsCell, h.row_eq, hcol, toNat_ofInt_natCast hroom]
    exact hcell
  have hle : (p : Int) ≤ t.console.col := by omega
  refine ⟨resting_typedStroke h.resting c, h.row_eq, ?_, ?_, hlen.2⟩
  · show (p : Int) ≤ t.console.col + 1
    omega
  · have hshown := cellsBehind_le (UInt8.ofInt t.console.row) p (t.console.col - p).toNat
    show (shownText (typedStroke t.console c) p).length < input.len.toNat
    rw [length_shownText_typedStroke hle, if_neg hoff, length_shownText, hlen.1, h.len_eq]
    omega

/-- A character for which there is no cell spoils the line. -/
theorem Aligned.spoiled_typed
    (h : Aligned row p n t)
    {k : UInt8}
    (hk : IsPrintable k)
    (htyped : IsTyped k)
    (hroom : p + n < 256)
    (hcell : ¬ (UInt8.ofInt row).toNat * 80 + (p + n) < 2000)
    (i j : Nat) :
    Spoiled row p (stroke k i j t) := by
  cases hinput : stringBuffInputChar t.input (keyboardScancode1ToAsciiMap k) with
  | none => exact Or.inl ⟨_, stroke_overflow h.resting hk htyped hinput i j⟩
  | some input =>
      rw [stroke_typed h.resting hk htyped hinput i j]
      exact Or.inr (Or.inr (h.diverged hroom hcell hinput))

/-- So does a backspace with anything before the cursor. -/
theorem Aligned.spoiled_backspace
    (hp : p < 80)
    (h : Aligned row p n t)
    (hcol : 1 ≤ t.console.col)
    (i j : Nat) :
    Spoiled row p (stroke 0x0E i j t) := by
  have hcursor := h.col_eq
  have hlen := h.len_eq
  have hfits := h.fits
  refine stroke_backspace_spoils hp h.resting h.row_eq (by omega) (fun hlt => ?_) (by omega) hcol i j
  have herased := (length_shownText_erasedStroke hlt).2
  omega

/-- A harmful stroke spoils the line. -/
theorem typeStrokes_harmful
    (hp : p < 80)
    (h : Aligned row p n t)
    (ks : List (Stroke × Nat × Nat))
    (hfits : FitsLine n (ks.map Prod.fst))
    (hharmful : ¬ Harmless (UInt8.ofInt row) p n (ks.map Prod.fst)) :
    Spoiled row p (typeStrokes ks t) := by
  induction ks generalizing n t with
  | nil => exact absurd trivial hharmful
  | cons k ks ih =>
      obtain ⟨k, i, j⟩ := k
      cases k with
      | key k =>
          obtain ⟨hn, hfits⟩ := hfits
          rw [List.map_cons, Harmless] at hharmful
          by_cases htyped : IsTyped k.val
          · rw [if_pos htyped] at hharmful hfits
            by_cases hcell : (UInt8.ofInt row).toNat * 80 + (p + n) < 2000
            · have hlen : t.input.len.toNat < 256 := by
                rw [h.len_eq]
                omega
              have hinput := inputChar_of_lt (c := keyboardScancode1ToAsciiMap k.val) hlen
              have hrun := stroke_typed h.resting k.property htyped hinput i j
              rw [typeStrokes_cons_of_ok (k := Stroke.key k) hrun]
              exact (ih (h.typed hinput) hfits fun hrest => hharmful ⟨hcell, hrest⟩).prepend _
            · rw [typeStrokes_cons]
              exact (h.spoiled_typed k.property htyped (by omega) hcell i j).bind
                fun _ u hu => typeStrokes_diverged hp hu ks
          · rw [if_neg htyped] at hharmful hfits
            have hrun := stroke_ignored h.resting k.property htyped i j
            rw [typeStrokes_cons_of_ok (k := Stroke.key k) hrun]
            exact ih h hfits hharmful
      | backspace =>
          rw [List.map_cons, Harmless] at hharmful
          by_cases hcol : 1 ≤ t.console.col
          · -- the first effective backspace
            rw [typeStrokes_cons]
            exact (h.spoiled_backspace hp hcol i j).bind
              fun _ u hu => typeStrokes_diverged hp hu ks
          · have hrun := stroke_margin h.resting hcol i j
            rw [typeStrokes_cons_of_ok (k := Stroke.backspace) hrun]
            have hzero : p = 0 ∧ n = 0 := by
              rw [h.col_eq] at hcol
              omega
            rw [hzero.2] at hfits
            exact ih h (by rw [hzero.2]; exact hfits.2) fun hrest => hharmful ⟨hzero, hrest⟩

end Differences

/-! ## The whole line -/

section Lines

variable {row : Int} {p n : Nat} {t : Terminal}

/-- Behind strokes that have come to an end, Enter hands the line over. -/
theorem typeLine_of_ok
    {ks : List (Stroke × Nat × Nat)}
    {t' : Terminal}
    {w : List TerminalEvent}
    (hrun : typeStrokes ks t = ⟨.ok (), t', w⟩)
    (h : Resting t'.console)
    (polls : Nat) :
    ∃ t'' i, typeLine ks polls t =
      ⟨.ok t', t'', w ++ [TerminalEvent.console (ConsoleEvent.setCursor i),
        TerminalEvent.parseCommand t'.input]⟩ := by
  obtain ⟨t'', i, henter⟩ := interruptAndPoll_enter h polls
  simp only [typeLine, bind_apply, hrun, getState_apply, henter, pure_apply, Outcome.prepend,
    List.nil_append, List.append_nil]
  exact ⟨t'', i, rfl⟩

theorem Copied.shownIsExecuted
    {ks : List (Stroke × Nat × Nat)}
    {t' : Terminal}
    {w : List TerminalEvent}
    (hrun : typeStrokes ks t = ⟨.ok (), t', w⟩)
    (h : Copied row p n t')
    (hexec : executed w = [])
    (hprompt : ∀ e, e ∈ w → ¬ OverwritesPrompt (UInt8.ofInt row) p e)
    (polls : Nat) :
    ShownIsExecuted (UInt8.ofInt row) p (typeLine ks polls t) := by
  obtain ⟨t'', i, hline⟩ := typeLine_of_ok hrun h.resting polls
  rw [hline]
  refine ⟨⟨t', t'.input, rfl, ?_, h.text_eq⟩, fun e he => ?_⟩
  · rw [executed_append, hexec]
    rfl
  · rcases List.mem_append.mp he with he | he
    · exact hprompt e he
    · rcases List.mem_cons.mp he with rfl | he
      · exact fun hover => hover
      · rw [List.mem_singleton.mp he]
        exact fun hover => hover

theorem Spoiled.not_shownIsExecuted
    {ks : List (Stroke × Nat × Nat)}
    (h : Spoiled row p (typeStrokes ks t))
    (polls : Nat) :
    ¬ ShownIsExecuted (UInt8.ofInt row) p (typeLine ks polls t) := by
  intro hshown
  rcases hrun : typeStrokes ks t with ⟨e | ⟨⟩, t', w⟩
  · obtain ⟨shown, input, hok, -⟩ := hshown.same
    rw [typeLine, bind_apply, hrun] at hok
    cases hok
  · rw [hrun] at h
    rcases h with ⟨e, he⟩ | ⟨e, he, hover⟩ | hdiv
    · cases he
    · refine hshown.prompt e ?_ hover
      rw [typeLine, bind_apply, hrun]
      exact List.mem_append_left _ he
    · have hdiv : Diverged row p t' := hdiv
      obtain ⟨t'', i, hline⟩ := typeLine_of_ok hrun hdiv.resting polls
      obtain ⟨shown, input, hok, hexec, htext⟩ := hshown.same
      rw [hline] at hok hexec
      obtain rfl : t' = shown := Except.ok.inj hok
      rw [executed_append] at hexec
      have hlast : t'.input = input := by
        have := congrArg List.getLast? hexec
        rw [show executed [TerminalEvent.console (ConsoleEvent.setCursor i),
          TerminalEvent.parseCommand t'.input] = [t'.input] from rfl,
          List.getLast?_append, List.getLast?_singleton, List.getLast?_singleton] at this
        exact Option.some_inj.mp this
      -- the input is longer than what is shown
      have hlen := congrArg List.length htext
      rw [← hlast, length_text hdiv.fits] at hlen
      exact absurd hdiv.more (Nat.not_lt.mpr hlen.le)

end Lines

/-- **What is shown on the line is what is executed, exactly if every character finds a cell of
the screen and every backspace is pressed while there is nothing before the cursor, prompt
included.** -/
theorem shownIsExecuted_iff
    {t : Terminal}
    {p : Nat}
    {ks : List (Stroke × Nat × Nat)}
    (hrest : Resting t.console)
    (hcol : t.console.col = p)
    (hp : p < 80)
    (hinput : t.input = stringBuffCreate)
    (hfits : FitsLine 0 (ks.map Prod.fst))
    (polls : Nat) :
    ShownIsExecuted (UInt8.ofInt t.console.row) p (typeLine ks polls t) ↔
      Harmless (UInt8.ofInt t.console.row) p 0 (ks.map Prod.fst) := by
  have hlen : t.input.len.toNat = 0 := by
    rw [hinput]
    rfl
  constructor
  · intro hshown
    by_contra hharmful
    have haligned : Aligned t.console.row p 0 t := ⟨hrest, rfl, hcol, hlen, by decide⟩
    exact (typeStrokes_harmful hp haligned ks hfits hharmful).not_shownIsExecuted polls hshown
  · intro hharmless
    have htext : t.input.text = shownText t.console p := by
      have hnone : (t.console.col - p).toNat = 0 := by omega
      rw [hinput, shownText, hnone]
      rfl
    have hcopied : Copied t.console.row p 0 t := ⟨hrest, rfl, hcol, hlen, htext⟩
    obtain ⟨n, t', w, hrun, hc, hexec, hprompt⟩ :=
      typeStrokes_harmless hp hcopied ks hfits hharmless
    exact hc.shownIsExecuted hrun hexec hprompt polls

/-- The terminal behind the first prompt, which ends in column 27. -/
def firstPrompt : Terminal where
  console := { bootConsole with col := 27 }
  input := stringBuffCreate

theorem resting_firstPrompt :
    Resting firstPrompt.console :=
  ⟨⟨rfl, rfl, rfl⟩, rfl⟩

/-- The strokes of `l` and `s`. -/
def strokeL : Stroke := Stroke.key ⟨0x26, by decide⟩

def strokeS : Stroke := Stroke.key ⟨0x1F, by decide⟩

theorem shownIsExecuted_ls :
    ShownIsExecuted (UInt8.ofInt firstPrompt.console.row) 27
      (typeLine [(strokeL, 0, 0), (strokeS, 0, 1)] 0 firstPrompt) :=
  (shownIsExecuted_iff resting_firstPrompt rfl (by decide) rfl
    (by simp [FitsLine, strokeL, strokeS, IsTyped]) 0).mpr
    (by
      have hrow : (UInt8.ofInt firstPrompt.console.row).toNat = 0 := by decide
      simp [Harmless, strokeL, strokeS, IsTyped, hrow])

/-- A character that was taken back is executed all the same. -/
theorem backspace_executed :
    FitsLine 0 [strokeL, Stroke.backspace] ∧
      (typeStrokes [(strokeL, 0, 0), (Stroke.backspace, 0, 0)] firstPrompt).state.console.col = 27 ∧
      (executed (typeLine [(strokeL, 0, 0), (Stroke.backspace, 0, 0)] 0 firstPrompt).trace).map
        StringBuff.text = [[108]] ∧
      ¬ ShownIsExecuted (UInt8.ofInt firstPrompt.console.row) 27
        (typeLine [(strokeL, 0, 0), (Stroke.backspace, 0, 0)] 0 firstPrompt) := by
  have hfits : FitsLine 0 [strokeL, Stroke.backspace] := by simp [FitsLine, strokeL, IsTyped]
  have hspoiled : Spoiled 0 27
      (typeStrokes [(strokeL, 0, 0), (Stroke.backspace, 0, 0)] firstPrompt) := by
    refine typeStrokes_harmful (n := 0) (by decide)
      ⟨resting_firstPrompt, rfl, rfl, rfl, by decide⟩ _ hfits ?_
    simp [Harmless, strokeL, IsTyped]
  exact ⟨hfits, by decide +kernel, by decide +kernel,
    hspoiled.not_shownIsExecuted 0⟩

end Shell
end OS2024
