import OS2024.Console.Keyboard

/-!
# Key strokes and the mailbox

The interrupt leaves a character in a buffer of one place and the shell polls it from there.
Whether a make code counts as a new stroke is decided by the flag `key_pressed`, which all
keys share: it is set by every make code and cleared by every break code.

**Results.**
* `keyboardIsr_make`, `keyboardIsr_break`: the flag and the mailbox after an interrupt.
* `keyEvents_result`: the polled characters are those of the make codes that follow a break.
* `strokes_iff`: when they are the characters of the keys that were not held.
-/

namespace OS2024
namespace Console

open TracedState

/-- A key with a character of its own, other than backspace. -/
def IsKey (k : UInt8) : Prop :=
  0x02 ≤ k ∧ k ≤ 0x4A ∧ keyboardScancode1ToAsciiMap k ≠ 0 ∧ keyboardScancode1ToAsciiMap k ≠ 8

instance (k : UInt8) : Decidable (IsKey k) :=
  inferInstanceAs (Decidable (_ ∧ _))

/-- The scancodes of such keys. -/
abbrev Key := { k : UInt8 // IsKey k }

/-- The character of a key. -/
def Key.char (k : Key) : UInt8 := keyboardScancode1ToAsciiMap k.val

/-- What a key sends: its make code, also repeatedly while it is held, or its break code. -/
inductive KeyEvent
  | make (k : Key)
  | release (k : Key)
deriving DecidableEq

def KeyEvent.scancode : KeyEvent → UInt8
  | KeyEvent.make k => k.val
  | KeyEvent.release k => k.val + 0x80

/-- The characters, NULs left out, of `n` calls of `get_keyboard_buffer`. -/
def pollMany : Nat → ConsoleM (List UInt8)
  | 0 => return []
  | n + 1 => do
      let c ← getKeyboardBuffer
      let cs ← pollMany n
      return if c = 0 then cs else c :: cs

/-- Interrupts, each with the number of further polls after the one that follows it; the
result are all polled characters. -/
def keyEvents : List (KeyEvent × Nat) → ConsoleM (List UInt8)
  | [] => return []
  | (e, n) :: es => do
      keyboardIsr e.scancode
      let cs ← pollMany (n + 1)
      let rest ← keyEvents es
      return cs ++ rest

/-- The keys that are held after an event. -/
def heldAfter (held : Key → Bool) : KeyEvent → Key → Bool
  | KeyEvent.make k => Function.update held k true
  | KeyEvent.release k => Function.update held k false

/-- The characters of the make codes of keys that were not held. -/
def typedChars : (Key → Bool) → List KeyEvent → List UInt8
  | _, [] => []
  | held, KeyEvent.make k :: es =>
      (if held k then [] else [k.char]) ++ typedChars (heldAfter held (KeyEvent.make k)) es
  | held, KeyEvent.release k :: es => typedChars (heldAfter held (KeyEvent.release k)) es

/-- Every make code of a held key follows another make code, and every make code of a key
that is not held comes first or follows a break code. -/
def NoOverlap : (Key → Bool) → Bool → List KeyEvent → Prop
  | _, _, [] => True
  | held, afterMake, KeyEvent.make k :: es =>
      held k = afterMake ∧ NoOverlap (heldAfter held (KeyEvent.make k)) true es
  | held, _, KeyEvent.release k :: es => NoOverlap (heldAfter held (KeyEvent.release k)) false es

/-- No key is held. -/
def noneHeld : Key → Bool := fun _ => false

/-- Input is on, the mailbox is empty, and no backspace is being released. -/
structure Quiet
    (s : ConsoleState) : Prop where
  on : s.InputOn
  empty : s.keyboardState.keyboardBuffer = 0
  noBackspace : s.backspacePressed = false

/-! ## One interrupt -/

section Interrupt

variable {s : ConsoleState}

theorem Key.char_ne_zero
    (k : Key) :
    k.char ≠ 0 :=
  k.property.2.2.1

theorem break_scancode
    (k : Key) :
    0x80 ≤ k.val + 0x80 ∧ k.val + 0x80 ≠ 0xE0 := by
  have hhigh := UInt8.le_iff_toNat_le.mp k.property.2.1
  have h4a : (0x4A : UInt8).toNat = 74 := rfl
  have h80 : (0x80 : UInt8).toNat = 128 := rfl
  have hsum : (k.val + 0x80).toNat = k.val.toNat + 128 := by
    rw [UInt8.toNat_add, h80]
    omega
  constructor
  · rw [UInt8.le_iff_toNat_le, hsum, h80]
    omega
  · intro he
    have := congrArg UInt8.toNat he
    rw [hsum] at this
    have he0 : (0xE0 : UInt8).toNat = 224 := rfl
    omega

/-- A make code sets the flag, and is delivered if the flag was not set. -/
theorem keyboardIsr_make
    (h : Quiet s)
    (k : Key) :
    ∃ s' w, keyboardIsr k.val s = ⟨.ok (), s', w⟩ ∧ s'.InputOn ∧
      s'.backspacePressed = false ∧ s'.keyPressed = true ∧
      s'.keyboardState.keyboardBuffer = if s.keyPressed then 0 else k.char := by
  obtain ⟨hlow, hhigh, -, h8⟩ := k.property
  cases hpressed : s.keyPressed with
  | true =>
      have hlt : k.val < 0x80 := by
        rw [UInt8.lt_iff_toNat_lt]
        exact Nat.lt_of_le_of_lt (UInt8.le_iff_toNat_le.mp hhigh) (by decide)
      exact ⟨s, [], keyboardIsr_ignored h.on h8 hlt (Or.inl hpressed), h.on, h.noBackspace,
        hpressed, h.empty⟩
  | false =>
      by_cases henter : k.val = 0x1C
      · have hchar : k.char = 10 := by
          rw [Key.char, henter]
          decide
        rw [henter, hchar]
        exact ⟨_, _, keyboardIsr_enter h.on hpressed, h.on, h.noBackspace, rfl, rfl⟩
      · exact ⟨_, _, keyboardIsr_char h.on h8 henter hlow hhigh hpressed, h.on, h.noBackspace,
          rfl, rfl⟩

/-- A break code clears the flag and delivers nothing. -/
theorem keyboardIsr_break
    (h : Quiet s)
    (k : Key) :
    ∃ s' w, keyboardIsr (k.val + 0x80) s = ⟨.ok (), s', w⟩ ∧ Quiet s' ∧
      s'.keyPressed = false := by
  obtain ⟨hbreak, hext⟩ := break_scancode k
  cases hpressed : s.keyPressed with
  | true =>
      by_cases henter : k.val + 0x80 = 0x9C
      · rw [henter]
        exact ⟨_, _, keyboardIsr_releaseEnter h.on h.noBackspace,
          ⟨h.on, h.empty, h.noBackspace⟩, rfl⟩
      · exact ⟨_, _, keyboardIsr_release h.on h.noBackspace hbreak henter hpressed,
          ⟨h.on, h.empty, h.noBackspace⟩, rfl⟩
  | false =>
      exact ⟨s, [], keyboardIsr_released h.on h.noBackspace hbreak hext hpressed, h, hpressed⟩

theorem getKeyboardBuffer_apply
    (s : ConsoleState) :
    getKeyboardBuffer s = ⟨.ok s.keyboardState.keyboardBuffer, s.buffered 0, []⟩ := rfl

theorem buffered_of_empty
    (h : s.keyboardState.keyboardBuffer = 0) :
    s.buffered 0 = s := by
  rw [ConsoleState.buffered, ← h]

theorem pollMany_empty
    (h : s.keyboardState.keyboardBuffer = 0)
    (n : Nat) :
    pollMany n s = ⟨.ok [], s, []⟩ := by
  induction n with
  | zero => rfl
  | succ n ih =>
      simp only [pollMany, bind_apply, getKeyboardBuffer_apply, buffered_of_empty h, ih, h,
        pure_apply, Outcome.prepend, List.nil_append, if_true]

/-- The first poll takes the character, and the others find nothing. -/
theorem pollMany_succ
    (n : Nat) :
    pollMany (n + 1) s =
      ⟨.ok (if s.keyboardState.keyboardBuffer = 0 then []
        else [s.keyboardState.keyboardBuffer]), s.buffered 0, []⟩ := by
  have hrest : pollMany n (s.buffered 0) = ⟨.ok [], s.buffered 0, []⟩ := pollMany_empty rfl n
  simp only [pollMany, bind_apply, getKeyboardBuffer_apply, hrest, pure_apply, Outcome.prepend,
    List.nil_append]

end Interrupt

/-! ## Sequences of interrupts -/

/-- The characters that reach the shell: those of the make codes that find the flag clear. -/
def deliveredChars : Bool → List KeyEvent → List UInt8
  | _, [] => []
  | pressed, KeyEvent.make k :: es =>
      (if pressed then [] else [k.char]) ++ deliveredChars true es
  | _, KeyEvent.release _ :: es => deliveredChars false es

theorem keyEvents_result
    {s : ConsoleState}
    (h : Quiet s)
    (es : List (KeyEvent × Nat)) :
    (keyEvents es s).result = .ok (deliveredChars s.keyPressed (es.map Prod.fst)) := by
  induction es generalizing s with
  | nil => rfl
  | cons en es ih =>
      obtain ⟨e, n⟩ := en
      cases e with
      | make k =>
          obtain ⟨s', w, hrun, hon, hback, hpressed, hbuf⟩ := keyboardIsr_make h k
          have hrest := ih (s := s'.buffered 0) ⟨hon, rfl, hback⟩
          have hflag : (s'.buffered 0).keyPressed = true := hpressed
          have hpolled : (if s'.keyboardState.keyboardBuffer = 0 then []
              else [s'.keyboardState.keyboardBuffer]) =
                if s.keyPressed then [] else [k.char] := by
            rw [hbuf]
            cases s.keyPressed <;> simp [k.char_ne_zero]
          rw [hflag] at hrest
          simp only [keyEvents, KeyEvent.scancode, bind_apply, hrun, pollMany_succ, hpolled,
            Outcome.prepend_result, List.map_cons, deliveredChars]
          exact map_result_ok (f := fun rest => _ ++ rest) hrest
      | release k =>
          obtain ⟨s', w, hrun, hquiet, hpressed⟩ := keyboardIsr_break h k
          have hrest := ih hquiet
          rw [hpressed] at hrest
          simp only [keyEvents, KeyEvent.scancode, bind_apply, hrun, pollMany_succ,
            hquiet.empty, if_true, buffered_of_empty hquiet.empty, Outcome.prepend_result,
            List.map_cons, deliveredChars, List.nil_append]
          exact map_result_ok (f := fun rest => rest) hrest

/-- The delivered characters are the typed ones all along, exactly if no strokes overlap. -/
theorem delivered_eq_typed_iff
    (held : Key → Bool)
    (pressed : Bool)
    (es : List KeyEvent) :
    (∀ es', es' <+: es → deliveredChars pressed es' = typedChars held es') ↔
      NoOverlap held pressed es := by
  induction es generalizing held pressed with
  | nil =>
      refine ⟨fun _ => trivial, fun _ es' hpre => ?_⟩
      rw [List.prefix_nil.mp hpre]
      rfl
  | cons e es ih =>
      have hsplit : ∀ P : List KeyEvent → Prop, (∀ es', es' <+: e :: es → P es') ↔
          P [] ∧ ∀ es', es' <+: es → P (e :: es') := by
        intro P
        constructor
        · exact fun h => ⟨h [] List.nil_prefix, fun es' he =>
            h _ (List.prefix_cons_inj e |>.mpr he)⟩
        · rintro ⟨hnil, hcons⟩ es' hpre
          rcases List.prefix_cons_iff.mp hpre with rfl | ⟨t, rfl, ht⟩
          · exact hnil
          · exact hcons t ht
      rw [hsplit]
      cases e with
      | make k =>
          rw [NoOverlap, ← ih]
          simp only [deliveredChars, typedChars, true_and]
          constructor
          · intro h
            -- the shortest run shows that the make code was rightly delivered or dropped
            have hfirst : held k = pressed := by
              have h0 := h [] List.nil_prefix
              cases hh : held k <;> cases pressed <;>
                simp [hh, deliveredChars, typedChars] at h0 ⊢
            refine ⟨hfirst, fun es' he => ?_⟩
            have h1 := h es' he
            rw [hfirst] at h1
            exact List.append_cancel_left h1
          · rintro ⟨hfirst, hrest⟩ es' he
            rw [hfirst, hrest es' he]
      | release k =>
          rw [NoOverlap, ← ih]
          simp only [deliveredChars, typedChars, true_and]

/-- **At every moment the polled characters are those of the keys that were not held,
exactly if no strokes overlap.** -/
theorem strokes_iff
    {s : ConsoleState}
    (h : Quiet s)
    (hpressed : s.keyPressed = false)
    (es : List (KeyEvent × Nat)) :
    (∀ es', es' <+: es →
        (keyEvents es' s).result = .ok (typedChars noneHeld (es'.map Prod.fst))) ↔
      NoOverlap noneHeld false (es.map Prod.fst) := by
  rw [← delivered_eq_typed_iff]
  simp only [keyEvents_result h, hpressed, Except.ok.injEq]
  constructor
  · intro hall es' hpre
    obtain ⟨l, hl, rfl⟩ := List.prefix_map_iff.mp hpre
    exact hall l hl
  · exact fun hall es' hpre => hall _ (hpre.map Prod.fst)

theorem quiet_bootConsole :
    Quiet bootConsole :=
  ⟨rfl, rfl, rfl⟩

/-- The keys of `a` and `s`. -/
def keyA : Key := ⟨0x1E, by decide⟩

def keyS : Key := ⟨0x1F, by decide⟩

/-- A held key that repeats, and then another key, reach the shell once each. -/
theorem strokes_repeated :
    (keyEvents [(KeyEvent.make keyA, 0), (KeyEvent.make keyA, 2), (KeyEvent.release keyA, 0),
        (KeyEvent.make keyS, 1)] bootConsole).result =
      .ok (typedChars noneHeld [KeyEvent.make keyA, KeyEvent.make keyA, KeyEvent.release keyA,
        KeyEvent.make keyS]) :=
  (strokes_iff quiet_bootConsole rfl [(KeyEvent.make keyA, 0), (KeyEvent.make keyA, 2),
    (KeyEvent.release keyA, 0), (KeyEvent.make keyS, 1)]).mpr ⟨rfl, rfl, rfl, trivial⟩ _
      (List.prefix_refl _)

/-- A key pressed before the last one was released is lost. -/
theorem rolled_stroke_lost :
    Quiet bootConsole ∧
      (keyEvents [(KeyEvent.make keyA, 0), (KeyEvent.make keyS, 0), (KeyEvent.release keyA, 0),
        (KeyEvent.release keyS, 0)] bootConsole).result = .ok [97] ∧
      typedChars noneHeld [KeyEvent.make keyA, KeyEvent.make keyS, KeyEvent.release keyA,
        KeyEvent.release keyS] = [97, 115] ∧
      ¬ (keyEvents [(KeyEvent.make keyA, 0), (KeyEvent.make keyS, 0),
          (KeyEvent.release keyA, 0), (KeyEvent.release keyS, 0)] bootConsole).result =
        .ok (typedChars noneHeld [KeyEvent.make keyA, KeyEvent.make keyS,
          KeyEvent.release keyA, KeyEvent.release keyS]) := by
  refine ⟨quiet_bootConsole, by decide +kernel, by decide +kernel, by decide +kernel⟩

end Console
end OS2024
