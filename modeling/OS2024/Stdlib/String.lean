import Mathlib.Tactic

/-!
# `stdlib/string.c`

Byte memory as seen through a C pointer, and the comparison loop of `memcmp`.

**Results.**
* `memcmp_eq_zero_iff`: `memcmp` returns zero exactly on equal byte ranges.
-/

namespace OS2024
namespace Stdlib

/-- The bytes at and after a pointer, indexed by their distance from it. -/
abbrev Memory := Nat → UInt8

/-- Memory holding a byte buffer, followed by zeros. -/
def Memory.ofBuffer {n : Nat} (b : Fin n → UInt8) : Memory :=
  fun a => if h : a < n then b ⟨a, h⟩ else 0

theorem Memory.ofBuffer_of_lt {n : Nat} (b : Fin n → UInt8) {a : Nat} (h : a < n) :
    Memory.ofBuffer b a = b ⟨a, h⟩ := by
  rw [Memory.ofBuffer, dif_pos h]

/-- `memcmp` on ranges of `n` bytes: the sign of the first difference, else zero. -/
def memcmp : {n : Nat} → (Fin n → UInt8) → (Fin n → UInt8) → Int
  | 0, _, _ => 0
  | _ + 1, s1, s2 =>
      if s1 0 < s2 0 then -1
      else if s2 0 < s1 0 then 1
      else memcmp (fun i => s1 i.succ) (fun i => s2 i.succ)

theorem memcmp_eq_zero_iff {n : Nat} (s1 s2 : Fin n → UInt8) :
    memcmp s1 s2 = 0 ↔ s1 = s2 := by
  induction n with
  | zero => exact ⟨fun _ => funext fun i => i.elim0, fun _ => rfl⟩
  | succ n ih =>
      rw [memcmp]
      constructor
      · intro h
        by_cases hlt : s1 0 < s2 0
        · simp [hlt] at h
        by_cases hgt : s2 0 < s1 0
        · simp [hlt, hgt] at h
        rw [if_neg hlt, if_neg hgt] at h
        have hhead : s1 0 = s2 0 := UInt8.le_antisymm (UInt8.not_lt.mp hgt) (UInt8.not_lt.mp hlt)
        have htail := (ih _ _).mp h
        funext i
        exact Fin.cases hhead (fun j => congrFun htail j) i
      · rintro rfl
        have hirrefl : ¬ s1 0 < s1 0 := UInt8.lt_irrefl _
        rw [if_neg hirrefl, if_neg hirrefl]
        exact (ih _ _).mpr rfl

end Stdlib
end OS2024
