import Mathlib.Data.Option.Basic
import Mathlib.Logic.Function.Basic

/-!
# Caches in front of a table

A cache holds copies of some entries of a table and is asked first.  It may take and drop copies at
any time; only the table can make it wrong.  A change of the table in one place is safe if the
place is dropped from the cache.

**Results.**
* `Coherent.lookup_eq`: a coherent cache does not show.
* `Coherent.fill`, `Coherent.drop`, `Coherent.change`: what keeps it coherent.
-/

namespace OS2024
namespace Lookaside

variable {κ ν : Type} {table table' cache : κ → Option ν} {k : κ}

/-- What the cache holds is in the table. -/
def Coherent (table cache : κ → Option ν) : Prop := ∀ k v, cache k = some v → table k = some v

/-- The cache first, then the table. -/
def lookup (table cache : κ → Option ν) (k : κ) : Option ν := (cache k).or (table k)

theorem Coherent.lookup_eq
    (h : Coherent table cache)
    (k : κ) :
    lookup table cache k = table k := by
  rw [lookup]
  cases hk : cache k with
  | none => rfl
  | some v => exact (h k v hk).symm

section Changes

variable [DecidableEq κ]

/-- Take a copy. -/
theorem Coherent.fill
    (h : Coherent table cache)
    (k : κ) :
    Coherent table (Function.update cache k (table k)) := by
  intro j v hj
  by_cases hjk : j = k
  · subst hjk
    rwa [Function.update_self] at hj
  · rw [Function.update_of_ne hjk] at hj
    exact h j v hj

/-- Change the table in one place, and drop the copy. -/
theorem Coherent.change
    (h : Coherent table cache)
    (hsame : ∀ j, j ≠ k → table' j = table j) :
    Coherent table' (Function.update cache k none) := by
  intro j v hj
  by_cases hjk : j = k
  · subst hjk
    rw [Function.update_self] at hj
    cases hj
  · rw [Function.update_of_ne hjk] at hj
    rw [hsame j hjk]
    exact h j v hj

/-- Drop a copy. -/
theorem Coherent.drop
    (h : Coherent table cache)
    (k : κ) :
    Coherent table (Function.update cache k none) :=
  h.change fun _ _ => rfl

end Changes

end Lookaside
end OS2024
