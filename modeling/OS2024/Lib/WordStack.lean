import OS2024.Lib.LittleEndian

/-!
# Stacks of words in byte memory

A stack grows downwards, four bytes for each word.  Addresses wrap around at the end of the
address space.  `Holds m sp ws` says that the words `ws` are found from `sp` on upwards, the one
that was pushed last comes first.

**Results.**
* `Holds.push`: a word pushed in front of the others.
* `Holds.word`, `Holds.pop`, `Holds.of_append`: the word on top, the stack below it, the words
  above some of them.
* `Holds.congr`: a memory with the same bytes holds the same words.
-/

namespace OS2024
namespace WordStack

open LittleEndian

/-- Byte memory with thirty-two-bit addresses. -/
abbrev Memory32 := UInt32 → UInt8

/-- The word in the four bytes from `a` on. -/
def loadWord (m : Memory32) (a : UInt32) : UInt32 :=
  word32 fun i => m (a + UInt32.ofNat i)

/-- The memory with the word `w` in the four bytes from `a` on. -/
def storeWord (m : Memory32) (a w : UInt32) : Memory32 := fun x =>
  if h : (x - a).toNat < 4 then byte32 w ⟨(x - a).toNat, h⟩ else m x

/-- The stack whose top is at `sp` begins with these words. -/
def Holds (m : Memory32) : UInt32 → List UInt32 → Prop
  | _, [] => True
  | sp, w :: ws => loadWord m sp = w ∧ Holds m (sp + 4) ws

section Words

variable {m m' : Memory32} {a b sp w : UInt32} {ws : List UInt32}

/-- The distance grows with the higher address, as long as it does not wrap. -/
theorem toNat_add_sub
    (n : UInt32)
    (h : (a - b).toNat + n.toNat < 2 ^ 32) :
    (a + n - b).toNat = (a - b).toNat + n.toNat := by
  have hsum : a + n - b = (a - b) + n := by
    rw [UInt32.sub_eq_add_neg, UInt32.sub_eq_add_neg, UInt32.add_assoc, UInt32.add_comm n,
      ← UInt32.add_assoc]
  rw [hsum, UInt32.toNat_add, Nat.mod_eq_of_lt h]

theorem loadWord_storeWord_self :
    loadWord (storeWord m a w) a = w := by
  have hbytes : (fun i : Fin 4 => storeWord m a w (a + UInt32.ofNat i)) = byte32 w := by
    funext i
    have hi : (a + UInt32.ofNat i - a).toNat = i := by
      rw [UInt32.add_comm, UInt32.add_sub_cancel]
      exact UInt32.toNat_ofNat_of_lt' (i.isLt.trans (by decide))
    simp only [storeWord, hi, i.isLt, dif_pos]
  rw [loadWord, hbytes, word32_byte32]

/-- A word that begins behind the stored one, and ends before the addresses wrap, stays. -/
theorem loadWord_storeWord_of_apart
    (hlow : 4 ≤ (b - a).toNat)
    (hhigh : (b - a).toNat + 4 ≤ 2 ^ 32) :
    loadWord (storeWord m a w) b = loadWord m b := by
  have hbytes : ∀ i : Fin 4,
      storeWord m a w (b + UInt32.ofNat i) = m (b + UInt32.ofNat i) := by
    intro i
    have hi : (UInt32.ofNat i).toNat = i :=
      UInt32.toNat_ofNat_of_lt' (i.isLt.trans (by decide))
    have hdist : (b + UInt32.ofNat i - a).toNat = (b - a).toNat + i := by
      rw [toNat_add_sub _ (by omega), hi]
    exact dif_neg (by omega)
  rw [loadWord, loadWord, funext hbytes]

theorem loadWord_congr
    (h : ∀ i : Fin 4, m' (a + UInt32.ofNat i) = m (a + UInt32.ofNat i)) :
    loadWord m' a = loadWord m a := by
  rw [loadWord, loadWord, funext h]

theorem Holds.word
    (h : Holds m sp (w :: ws)) :
    loadWord m sp = w := h.1

theorem Holds.pop
    (h : Holds m sp (w :: ws)) :
    Holds m (sp + 4) ws := h.2

theorem Holds.of_append
    {ws' : List UInt32}
    (h : Holds m sp (ws ++ ws')) :
    Holds m sp ws := by
  induction ws generalizing sp with
  | nil => trivial
  | cons v ws ih => exact ⟨h.word, ih h.pop⟩

/-- What is stored below a stack does not change it. -/
theorem Holds.storeWord
    (h : Holds m sp ws)
    (hlow : 4 ≤ (sp - a).toNat)
    (hhigh : (sp - a).toNat + 4 * ws.length ≤ 2 ^ 32) :
    Holds (storeWord m a w) sp ws := by
  induction ws generalizing sp with
  | nil => trivial
  | cons v ws ih =>
      rw [List.length_cons] at hhigh
      refine ⟨?_, ?_⟩
      · rw [loadWord_storeWord_of_apart hlow (by omega)]
        exact h.word
      · cases ws with
        | nil => trivial
        | cons u ws =>
            rw [List.length_cons] at hhigh
            have hfour : (4 : UInt32).toNat = 4 := rfl
            have hnext : (sp + 4 - a).toNat = (sp - a).toNat + 4 := by
              rw [toNat_add_sub _ (by omega), hfour]
            exact ih h.pop (by omega) (by rw [hnext, List.length_cons]; omega)

/-- **A word pushed on a stack.** -/
theorem Holds.push
    (h : Holds m sp ws)
    (hlength : 4 * (ws.length + 1) ≤ 2 ^ 32)
    (w : UInt32) :
    Holds (WordStack.storeWord m (sp - 4) w) (sp - 4) (w :: ws) := by
  have hfour : sp - (sp - 4) = 4 := by grind
  have hdist : (sp - (sp - 4)).toNat = 4 := by
    rw [hfour]
    rfl
  refine ⟨loadWord_storeWord_self, ?_⟩
  rw [UInt32.sub_add_cancel]
  exact h.storeWord (by omega) (by omega)

/-- The bytes of a stack decide what it holds. -/
theorem Holds.congr
    (h : Holds m sp ws)
    (hbytes : ∀ i, i < 4 * ws.length → m' (sp + UInt32.ofNat i) = m (sp + UInt32.ofNat i)) :
    Holds m' sp ws := by
  induction ws generalizing sp with
  | nil => trivial
  | cons v ws ih =>
      rw [List.length_cons] at hbytes
      refine ⟨?_, ih h.pop fun i hi => ?_⟩
      · rw [loadWord_congr fun i => hbytes i (by omega)]
        exact h.word
      · have hstep := hbytes (4 + i) (by omega)
        rwa [UInt32.ofNat_add, ← UInt32.add_assoc] at hstep

end Words

end WordStack
end OS2024
