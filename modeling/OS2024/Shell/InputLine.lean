import OS2024.Shell.CommandLine
import OS2024.Shell.Dispatch

/-!
# The input line

The loop of `main` in `user-shell.c` puts the characters that system call 4 delivers into
`input`, and at a newline hands it to `parseCommand`, which copies it into three more buffers
of the same kind.  `stringBuffInputChar` has no bound.

**Results.**
* `mainLoop_sameRound`: the loop with a keyboard makes the same rounds.
* `typed_of_fits`: with at most 256 characters on each line the buffer holds the line.
* `keepsLine_iff`: this is exactly when the buffer is not left.
-/

namespace OS2024
namespace Shell

open TracedState

/-- What ends the loop of `main` abnormally, as far as its buffers are concerned. -/
inductive InputFault
  /-- `buf[i]` of a `struct StringBuff` with `i` outside the 256 characters. -/
  | stringBuffIndex
deriving DecidableEq

/-- A call of `parseCommand`, with the words that it copies; the commands only get these. -/
structure ParsedLine where
  input : StringBuff
  words : StringBuff × StringBuff × StringBuff

abbrev InputM := Traced InputFault StringBuff ParsedLine

/-- Go on with the words of a line. -/
def handOver (line : ParsedLine) : InputM Unit := fun s => ⟨.ok (), s, [line]⟩

/-- `parseCommand` up to the comparisons. -/
def parseInput (input : StringBuff) : InputM Unit :=
  match takeFields input with
  | some words => handOver ⟨input, words⟩
  | none => fault InputFault.stringBuffIndex

/-- One round of the loop of `main`, for the character that system call 4 delivers. -/
def mainRound (buf : UInt8) : InputM Unit := do
  let input ← getState
  -- '\n'
  if buf = 10 then
    parseInput input
    modifyState fun _ => stringBuffCreate
  else if buf ≠ 0 then
    match stringBuffInputChar input buf with
    | some input => modifyState fun _ => input
    | none => fault InputFault.stringBuffIndex
  else return ()

/-- The loop, from its new buffer. -/
def typed (cs : List UInt8) : Outcome InputFault StringBuff ParsedLine Unit :=
  each mainRound cs stringBuffCreate

/-- The characters that have come since the last newline, without NULs. -/
def pending (cs : List UInt8) : List UInt8 :=
  ((cs.reverse.takeWhile (· ≠ 10)).reverse).filter (· ≠ 0)

/-- The buffer holds the line, or some part of one that is too long. -/
def Buffers (line : List UInt8) (input : StringBuff) : Prop :=
  ∃ r, r.length ≤ 256 ∧ input = StringBuff.ofChars r ∧ (line.length ≤ 256 → r = line)

/-- The line is handed over, cut to 256 characters, or rejected if it is longer. -/
def HandsOver (line : List UInt8) (w : List ParsedLine) : Prop :=
  w.map ParsedLine.input = [StringBuff.ofChars (line.take 256)] ∨ 256 < line.length ∧ w = []

/-- No buffer is left, the length counts what is in the buffer, and each newline hands over
its line. -/
structure KeepsLine
    (cs : List UInt8) : Prop where
  inside : (typed cs).result = .ok ()
  counted : ∀ p, p <+: cs → Buffers (pending p) (typed p).state
  handed : ∀ p, p ++ [10] <+: cs → HandsOver (pending p) (mainRound 10 (typed p).state).trace
  silent : ∀ p c, p ++ [c] <+: cs → c ≠ 10 → (mainRound c (typed p).state).trace = []

/-! ## One round -/

section OneRound

variable {cs r : List UInt8} {c : UInt8}

@[simp] theorem pending_nil : pending [] = [] := rfl

@[simp] theorem pending_newline (cs : List UInt8) : pending (cs ++ [10]) = [] := by
  simp [pending]

@[simp] theorem pending_nul (cs : List UInt8) : pending (cs ++ [0]) = pending cs := by
  simp [pending]

theorem pending_char
    (h10 : c ≠ 10)
    (h0 : c ≠ 0)
    (cs : List UInt8) :
    pending (cs ++ [c]) = pending cs ++ [c] := by
  simp [pending, h10, h0]

/-- A newline hands over what is in the buffer. -/
theorem mainRound_newline
    (hr : r.length ≤ 256) :
    mainRound 10 (StringBuff.ofChars r) =
      ⟨.ok (), stringBuffCreate, [⟨StringBuff.ofChars r, StringBuff.ofChars (field r 0),
        StringBuff.ofChars (field r 1), StringBuff.ofChars (field r 2)⟩]⟩ := by
  simp [mainRound, bind_apply, parseInput, handOver, takeFields_line hr, Outcome.prepend]

theorem mainRound_nul (input : StringBuff) : mainRound 0 input = ⟨.ok (), input, []⟩ := by
  simp [mainRound, bind_apply, Outcome.prepend]

theorem mainRound_char
    (h10 : c ≠ 10)
    (h0 : c ≠ 0)
    (hr : r.length < 256) :
    mainRound c (StringBuff.ofChars r) = ⟨.ok (), StringBuff.ofChars (r ++ [c]), []⟩ := by
  simp [mainRound, bind_apply, h10, h0, ofChars_inputChar c hr, Outcome.prepend]

/-- There is no place for a character behind the buffer. -/
theorem mainRound_full
    (h10 : c ≠ 10)
    (h0 : c ≠ 0)
    (hr : r.length = 256) :
    (mainRound c (StringBuff.ofChars r)).result = .error InputFault.stringBuffIndex := by
  have hfull : ¬ (StringBuff.ofChars r).len.toNat < 256 := by
    rw [ofChars_len (by omega), hr]
    exact Nat.lt_irrefl 256
  have hnone : stringBuffInputChar (StringBuff.ofChars r) c = none := dif_neg hfull
  simp [mainRound, bind_apply, h10, h0, hnone, Outcome.prepend]

/-- Only a newline calls `parseCommand`. -/
theorem mainRound_silent
    (h10 : c ≠ 10)
    (input : StringBuff) :
    (mainRound c input).trace = [] := by
  by_cases h0 : c = 0
  · subst h0
    rw [mainRound_nul]
  · cases hinput : stringBuffInputChar input c with
    | none => simp [mainRound, bind_apply, h10, h0, hinput, Outcome.prepend]
    | some input' => simp [mainRound, bind_apply, h10, h0, hinput, Outcome.prepend]

end OneRound

/-! ## The keyboard behind system call 4 -/

section Keyboard

open Console

variable {t : Terminal} {r : List UInt8} {c : UInt8}

/-- The loop that polls the keyboard makes the round of the character in the mailbox. -/
structure SameRound
    (o : Outcome TerminalFault Terminal TerminalEvent Unit)
    (o' : Outcome InputFault StringBuff ParsedLine Unit) : Prop where
  ends : o.result = .ok () ↔ o'.result = .ok ()
  input : o.state.input = o'.state
  lines : executed o.trace = o'.trace.map ParsedLine.input

theorem mainLoop_sameRound
    (hr : r.length ≤ 256)
    (hinput : t.input = StringBuff.ofChars r)
    (hc : t.console.keyboardState.keyboardBuffer = c) :
    SameRound (mainLoop t) (mainRound c t.input) := by
  have hpoll := liftConsole_apply (t := t) (getKeyboardBuffer_apply t.console)
  rw [hc] at hpoll
  by_cases h10 : c = 10
  · subst h10
    rw [hinput, mainRound_newline hr]
    constructor <;>
      simp [mainLoop, bind_apply, hpoll, hinput, parseCommand, executed, Outcome.prepend]
  by_cases h0 : c = 0
  · subst h0
    rw [mainRound_nul]
    constructor <;> simp [mainLoop, bind_apply, hpoll, executed, Outcome.prepend]
  rw [mainRound, getState_bind, if_neg h10, if_pos h0]
  cases hnext : stringBuffInputChar t.input c with
  | none =>
      constructor <;>
        simp [mainLoop, bind_apply, hpoll, h10, h0, hnext, executed, Outcome.prepend]
  | some next =>
      constructor <;>
        simp [mainLoop, bind_apply, hpoll, h10, h0, hnext, executed, Outcome.prepend]

end Keyboard

/-! ## All rounds -/

section AllRounds

variable {cs p : List UInt8}

/-- At no time are there more than 256 characters on the line. -/
def Fits (cs : List UInt8) : Prop := ∀ p, p <+: cs → (pending p).length ≤ 256

theorem Fits.of_prefix
    (h : Fits cs)
    (hp : p <+: cs) :
    Fits p :=
  fun q hq => h q (hq.trans hp)

/-- While the lines fit, the buffer holds the last one. -/
theorem typed_of_fits
    (h : Fits cs) :
    (typed cs).result = .ok () ∧ (typed cs).state = StringBuff.ofChars (pending cs) := by
  induction cs using List.reverseRecOn with
  | nil => exact ⟨rfl, rfl⟩
  | append_singleton cs c ih =>
      obtain ⟨hok, hstate⟩ := ih (h.of_prefix (List.prefix_append cs [c]))
      have hlen : (pending cs).length ≤ 256 := h cs (List.prefix_append cs [c])
      have hnext : (pending (cs ++ [c])).length ≤ 256 := h _ (List.prefix_refl _)
      have hbefore : Ends (each mainRound cs) stringBuffCreate ()
          (StringBuff.ofChars (pending cs)) := ⟨hok, hstate⟩
      have hround : Ends (mainRound c) (StringBuff.ofChars (pending cs)) ()
          (StringBuff.ofChars (pending (cs ++ [c]))) := by
        by_cases h10 : c = 10
        · subst h10
          rw [pending_newline]
          exact Ends.of_apply (mainRound_newline hlen)
        by_cases h0 : c = 0
        · subst h0
          rw [pending_nul]
          exact Ends.of_apply (mainRound_nul _)
        · rw [pending_char h10 h0] at hnext ⊢
          exact Ends.of_apply (mainRound_char h10 h0 (by simpa using hnext))
      rw [typed, each_concat]
      exact Ends.bind (f := fun _ => mainRound c) hbefore hround

/-- A loop that has not left the buffer has only seen lines that fit. -/
theorem fits_of_typed
    (h : (typed cs).result = .ok ()) :
    Fits cs := by
  induction cs using List.reverseRecOn with
  | nil =>
      intro p hp
      simp [List.prefix_nil.mp hp]
  | append_singleton cs c ih =>
      rw [typed, each_concat] at h
      have hends : Ends (each mainRound cs >>= fun _ => mainRound c) stringBuffCreate () _ :=
        ⟨h, rfl⟩
      obtain ⟨_, s, hbefore, hround⟩ := hends.of_bind
      have hfits : Fits cs := ih hbefore.1
      obtain rfl : s = StringBuff.ofChars (pending cs) :=
        hbefore.2.symm.trans (typed_of_fits hfits).2
      intro p hp
      rcases List.prefix_concat_iff.mp hp with rfl | hp
      · have hlen : (pending cs).length ≤ 256 := hfits cs (List.prefix_refl cs)
        by_cases h10 : c = 10
        · simp [h10]
        by_cases h0 : c = 0
        · simpa [h0] using hlen
        · have hroom : (pending cs).length ≠ 256 := by
            intro hfull
            have herror := mainRound_full h10 h0 hfull
            rw [hround.1] at herror
            cases herror
          rw [pending_char h10 h0, List.length_append, List.length_singleton]
          omega
      · exact hfits p hp

/-- **The input line is kept exactly if no line has more than 256 characters.** -/
theorem keepsLine_iff
    (cs : List UInt8) :
    KeepsLine cs ↔ ∀ p, p <+: cs → (pending p).length ≤ 256 := by
  constructor
  · intro h
    exact fits_of_typed h.inside
  · intro (h : Fits cs)
    refine ⟨(typed_of_fits h).1, fun p hp => ?_, fun p hp => ?_, fun p c _ h10 => ?_⟩
    · exact ⟨pending p, h p hp, (typed_of_fits (h.of_prefix hp)).2, fun _ => rfl⟩
    · have hp : p <+: cs := (List.prefix_append p [10]).trans hp
      have hlen : (pending p).length ≤ 256 := h p hp
      rw [(typed_of_fits (h.of_prefix hp)).2, mainRound_newline hlen, HandsOver,
        List.take_of_length_le hlen]
      exact Or.inl rfl
    · exact mainRound_silent h10 _

end AllRounds

/-- A line of 257 letters leaves the buffer. -/
theorem long_line_overruns :
    (typed (List.replicate 257 97)).result = .error InputFault.stringBuffIndex ∧
      ¬ KeepsLine (List.replicate 257 97) := by
  have hfault : (typed (List.replicate 257 97)).result = .error InputFault.stringBuffIndex := by
    decide +kernel
  refine ⟨hfault, fun h => ?_⟩
  have hok := h.inside
  rw [hfault] at hok
  cases hok

end Shell
end OS2024
