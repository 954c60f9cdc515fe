import Mathlib.Tactic

/-!
# Sequences with a part replaced

`splice m start len f` is `m` with the `len` values from `start` on replaced by `f 0`, `f 1`, ...
A loop that stores value after value builds a splice at its end or at its beginning, so an
invariant of the loop is a splice that grows.

**Results.**
* `splice_inside`, `splice_outside`: the values.
* `update_splice`, `splice_update`: one value more at the end, stored after all others or before
  them.
* `splice_splice`: two parts next to each other.
-/

namespace OS2024
namespace Splices

universe u

variable {β : Type u} {m : Nat → β} {start len k a i : Nat} {f g : Nat → β}

/-- The sequence `m` with the `len` values from `start` on replaced. -/
def splice (m : Nat → β) (start len : Nat) (f : Nat → β) : Nat → β :=
  fun a => if start ≤ a ∧ a < start + len then f (a - start) else m a

theorem splice_inside (hi : i < len) : splice m start len f (start + i) = f i := by
  rw [splice, if_pos ⟨Nat.le_add_right start i, Nat.add_lt_add_left hi start⟩,
    Nat.add_sub_cancel_left]

theorem splice_outside (ha : a < start ∨ start + len ≤ a) : splice m start len f a = m a :=
  if_neg fun h => by omega

@[simp] theorem splice_zero : splice m start 0 f = m :=
  funext fun a => splice_outside (Nat.lt_or_ge a start)

/-- From the beginning of the sequence no subtraction is left. -/
theorem splice_from_zero : splice m 0 len f = fun a => if a < len then f a else m a := by
  funext a
  simp [splice]

theorem splice_from_zero_inside (hi : i < len) : splice m 0 len f i = f i := by
  rw [splice_from_zero]
  exact if_pos hi

theorem splice_congr (h : ∀ i, i < len → f i = g i) :
    splice m start len f = splice m start len g := by
  funext a
  rw [splice, splice]
  split_ifs with ha
  · exact h _ (by omega)
  · rfl

/-- One value more, stored after all others. -/
theorem update_splice
    (m : Nat → β)
    (start len : Nat)
    (f : Nat → β) :
    Function.update (splice m start len f) (start + len) (f len) =
      splice m start (len + 1) f := by
  funext a
  by_cases ha : a = start + len
  · subst ha
    rw [Function.update_self, splice_inside (Nat.lt_succ_self len)]
  · rw [Function.update_of_ne ha, splice, splice]
    exact if_congr (by omega) rfl rfl

/-- Two values more, stored after all others. -/
theorem update_update_splice
    (m : Nat → β)
    (start len : Nat)
    (f : Nat → β) :
    Function.update (Function.update (splice m start len f) (start + len) (f len))
        (start + len + 1) (f (len + 1)) =
      splice m start (len + 2) f := by
  rw [update_splice, Nat.add_assoc, update_splice]

/-- One value more, stored before all others. -/
theorem splice_update
    (m : Nat → β)
    (start len : Nat)
    (f : Nat → β) :
    splice (Function.update m (start + len) (f len)) start len f =
      splice m start (len + 1) f := by
  funext a
  by_cases ha : a = start + len
  · subst ha
    rw [splice_outside (Or.inr le_rfl), Function.update_self,
      splice_inside (Nat.lt_succ_self len)]
  · rw [splice, splice, Function.update_of_ne ha]
    exact if_congr (by omega) rfl rfl

/-- Two parts next to each other are one. -/
theorem splice_splice
    (m : Nat → β)
    (start len k : Nat)
    (f : Nat → β) :
    splice (splice m start len f) (start + len) k (fun i => f (len + i)) =
      splice m start (len + k) f := by
  induction k with
  | zero => rw [splice_zero, Nat.add_zero]
  | succ k ih =>
      rw [← update_splice, ih, Nat.add_assoc, update_splice, Nat.add_assoc]

end Splices
end OS2024
