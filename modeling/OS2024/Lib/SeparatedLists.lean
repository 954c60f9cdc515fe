import Mathlib.Algebra.Order.BigOperators.Group.List
import Mathlib.Algebra.Order.Ring.Nat
import Mathlib.Tactic.Common

/-!
# Lists put together with a separator between them

`sep.intercalate ls` has the lists `ls` one after another and `sep` between each two of them.

**Results.**
* `flatMap_separated`: a loop that puts the separator behind all but the last list.
* `intercalate_map_eq_iff`: if the parts only grow, the whole is the same exactly if each part
  is.
-/

namespace OS2024
namespace SeparatedLists

universe u v

variable {α : Type u} {ι : Type v} {sep : List α} {f g : ι → List α} {is : List ι}

/-- The separator behind all but the last list. -/
theorem flatMap_separated [DecidableEq ι] (f : ι → List α) (sep : List α) {last : ι}
    (h : last ∉ is) :
    ((is ++ [last]).flatMap fun i => f i ++ if i ≠ last then sep else []) =
      sep.intercalate ((is ++ [last]).map f) := by
  induction is with
  | nil => simp
  | cons i is ih =>
      have hi : i ≠ last := fun he => h (he ▸ List.mem_cons_self)
      have his : last ∉ is := fun hmem => h (List.mem_cons_of_mem i hmem)
      have hrest : (is ++ [last]).map f ≠ [] := by simp
      rw [List.cons_append, List.flatMap_cons, ih his, if_pos hi, List.map_cons,
        List.intercalate_cons_of_ne_nil hrest]

/-- The whole is as long as its parts and the separators. -/
theorem length_intercalate (i : ι) (is : List ι) :
    (sep.intercalate ((i :: is).map f)).length =
      ((i :: is).map fun j => (f j).length).sum + is.length * sep.length := by
  induction is generalizing i with
  | nil => simp
  | cons j is ih =>
      rw [List.map_cons, List.intercalate_cons_of_ne_nil (by simp), List.length_append,
        List.length_append, ih j]
      simp only [List.map_cons, List.sum_cons, List.length_cons, Nat.succ_mul]
      omega

/-- **If each part is a beginning of another one, the wholes are the same exactly if the parts
are.** -/
theorem intercalate_map_eq_iff (h : ∀ i, i ∈ is → g i <+: f i) :
    sep.intercalate (is.map f) = sep.intercalate (is.map g) ↔ ∀ i, i ∈ is → f i = g i := by
  refine ⟨fun heq i hi => ?_, fun heq => by rw [List.map_congr_left heq]⟩
  cases is with
  | nil => cases hi
  | cons j is =>
      have hlen := congrArg List.length heq
      rw [length_intercalate, length_intercalate] at hlen
      refine (List.IsPrefix.eq_of_length (h i hi) (Nat.le_antisymm (h i hi).length_le ?_)).symm
      by_contra hlt
      exact absurd (Nat.add_right_cancel hlen).symm
        (List.sum_lt_sum _ _ (fun k hk => (h k hk).length_le) ⟨i, hi, Nat.lt_of_not_le hlt⟩).ne

end SeparatedLists
end OS2024
