import Mathlib.Logic.Function.Basic
import Mathlib.Tactic.Common

/-!
# Ledgers of exclusively owned resources

A ledger says which resource each holder holds and which resources are marked as used.
`take` gives a holder a resource, in place of what it held before; `release` takes the
resource away and unmarks it.

**Results.**
* `Sound.take`, `Sound.release`: no resource gets two holders or loses its mark while held.
* `leaked_take_iff`, `leaked_release_iff`: a resource leaks exactly when its holder takes
  another one, and never comes back.
* `used_releaseAll_iff`: what is still used after several holders released.
-/

namespace OS2024
namespace Ownership

universe u v

variable {κ : Type u} {ρ : Type v}

/-- Which resource each holder holds, and which resources are marked as used. -/
@[ext] structure Ledger (κ : Type u) (ρ : Type v) where
  holds : κ → Option ρ
  used : ρ → Prop

/-- What is held is marked, and held only once. -/
structure Ledger.Sound
    (l : Ledger κ ρ) : Prop where
  used_of_holds : ∀ k r, l.holds k = some r → l.used r
  exclusive : ∀ k k' r, l.holds k = some r → l.holds k' = some r → k = k'

/-- Marked as used, but held by nobody. -/
def Ledger.Leaked
    (l : Ledger κ ρ)
    (r : ρ) : Prop :=
  l.used r ∧ ∀ k, l.holds k ≠ some r

/-- Without leaks exactly the held resources are marked. -/
theorem Ledger.Sound.used_iff_of_no_leak
    {l : Ledger κ ρ}
    (h : l.Sound)
    (hleak : ∀ r, ¬ l.Leaked r)
    (r : ρ) :
    l.used r ↔ ∃ k, l.holds k = some r := by
  constructor
  · intro hr
    by_contra hnone
    exact hleak r ⟨hr, fun k hk => hnone ⟨k, hk⟩⟩
  · rintro ⟨k, hk⟩
    exact h.used_of_holds k r hk

section Steps

variable [DecidableEq κ]

/-- The holder `k` takes the resource `r`. -/
def Ledger.take
    (l : Ledger κ ρ)
    (k : κ)
    (r : ρ) :
    Ledger κ ρ where
  holds := Function.update l.holds k (some r)
  used := fun x => x = r ∨ l.used x

/-- The holder `k` gives back what it holds. -/
def Ledger.release
    (l : Ledger κ ρ)
    (k : κ) :
    Ledger κ ρ where
  holds := Function.update l.holds k none
  used := fun x => l.used x ∧ l.holds k ≠ some x

variable {l : Ledger κ ρ} {k : κ} {r : ρ}

@[simp] theorem Ledger.take_holds_self : (l.take k r).holds k = some r :=
  Function.update_self _ _ _

theorem Ledger.take_holds_of_ne
    {j : κ}
    (hj : j ≠ k) :
    (l.take k r).holds j = l.holds j :=
  Function.update_of_ne hj _ _

@[simp] theorem Ledger.release_holds_self : (l.release k).holds k = none :=
  Function.update_self _ _ _

theorem Ledger.release_holds_of_ne
    {j : κ}
    (hj : j ≠ k) :
    (l.release k).holds j = l.holds j :=
  Function.update_of_ne hj _ _

/-- Who holds something after a release held it before and is somebody else. -/
theorem Ledger.release_holds_eq_some_iff
    {j : κ}
    {x : ρ} :
    (l.release k).holds j = some x ↔ j ≠ k ∧ l.holds j = some x := by
  by_cases hj : j = k
  · subst hj
    simp
  · rw [release_holds_of_ne hj]
    simp [hj]

/-- A release by somebody who holds nothing changes nothing. -/
theorem Ledger.release_of_none
    (h : l.holds k = none) :
    l.release k = l := by
  refine Ledger.ext ?_ ?_
  · rw [Ledger.release, ← h, Function.update_eq_self]
  · funext x
    simp [Ledger.release, h]

/-- Taking an unused resource keeps the ledger sound. -/
theorem Ledger.Sound.take
    (h : l.Sound)
    (hr : ¬ l.used r) :
    (l.take k r).Sound := by
  -- nobody else holds the resource taken
  have hother : ∀ j, j ≠ k → ∀ x, (l.take k r).holds j = some x → x ≠ r ∧ l.holds j = some x := by
    intro j hj x hx
    rw [take_holds_of_ne hj] at hx
    refine ⟨?_, hx⟩
    rintro rfl
    exact hr (h.used_of_holds j x hx)
  constructor
  · intro j x hx
    by_cases hj : j = k
    · subst hj
      rw [take_holds_self, Option.some_inj] at hx
      exact Or.inl hx.symm
    · exact Or.inr (h.used_of_holds j x (hother j hj x hx).2)
  · intro i j x hi hj
    by_cases hik : i = k
    · by_cases hjk : j = k
      · rw [hik, hjk]
      · subst hik
        rw [take_holds_self, Option.some_inj] at hi
        exact absurd hi.symm (hother j hjk x hj).1
    · by_cases hjk : j = k
      · subst hjk
        rw [take_holds_self, Option.some_inj] at hj
        exact absurd hj.symm (hother i hik x hi).1
      · exact h.exclusive i j x (hother i hik x hi).2 (hother j hjk x hj).2

/-- A release keeps the ledger sound. -/
theorem Ledger.Sound.release
    (h : l.Sound) :
    (l.release k).Sound := by
  constructor
  · intro j x hx
    obtain ⟨hj, hx⟩ := release_holds_eq_some_iff.mp hx
    exact ⟨h.used_of_holds j x hx, fun hk => hj (h.exclusive j k x hx hk)⟩
  · intro i j x hi hj
    exact h.exclusive i j x (release_holds_eq_some_iff.mp hi).2
      (release_holds_eq_some_iff.mp hj).2

/-- A resource leaks when its holder takes another one. -/
theorem leaked_take_iff
    (h : l.Sound)
    (hr : ¬ l.used r)
    (x : ρ) :
    (l.take k r).Leaked x ↔ l.Leaked x ∨ l.holds k = some x := by
  constructor
  · rintro ⟨hused, hfree⟩
    have hne : x ≠ r := by
      rintro rfl
      exact hfree k Ledger.take_holds_self
    have hx : l.used x := hused.resolve_left hne
    by_cases hk : l.holds k = some x
    · exact Or.inr hk
    · refine Or.inl ⟨hx, fun j hj => ?_⟩
      have hjk : j ≠ k := by
        rintro rfl
        exact hk hj
      exact hfree j (by rw [Ledger.take_holds_of_ne hjk, hj])
  · intro hx
    have hused : l.used x := by
      rcases hx with hx | hx
      · exact hx.1
      · exact h.used_of_holds k x hx
    have hne : r ≠ x := by
      rintro rfl
      exact hr hused
    refine ⟨Or.inr hused, fun j hj => ?_⟩
    by_cases hjk : j = k
    · subst hjk
      rw [Ledger.take_holds_self, Option.some_inj] at hj
      exact hne hj
    · rw [Ledger.take_holds_of_ne hjk] at hj
      rcases hx with hx | hx
      · exact hx.2 j hj
      · exact hjk (h.exclusive j k x hj hx)

/-- A release neither leaks a resource nor recovers one. -/
theorem leaked_release_iff
    (x : ρ) :
    (l.release k).Leaked x ↔ l.Leaked x := by
  constructor
  · rintro ⟨⟨hused, hk⟩, hfree⟩
    refine ⟨hused, fun j hj => ?_⟩
    have hjk : j ≠ k := by
      rintro rfl
      exact hk hj
    exact hfree j (Ledger.release_holds_eq_some_iff.mpr ⟨hjk, hj⟩)
  · rintro ⟨hused, hfree⟩
    exact ⟨⟨hused, hfree k⟩, fun j hj => hfree j (Ledger.release_holds_eq_some_iff.mp hj).2⟩

/-- Several holders release, one after another. -/
def Ledger.releaseAll
    (l : Ledger κ ρ) :
    List κ → Ledger κ ρ
  | [] => l
  | k :: ks => (l.release k).releaseAll ks

/-- After the releases only what another holder holds, or has leaked, is still used. -/
theorem used_releaseAll_iff
    {ks : List κ}
    (x : ρ) :
    (l.releaseAll ks).used x ↔ l.used x ∧ ∀ k, k ∈ ks → l.holds k ≠ some x := by
  induction ks generalizing l with
  | nil => simp [Ledger.releaseAll]
  | cons k ks ih =>
      rw [Ledger.releaseAll, ih]
      constructor
      · rintro ⟨⟨hused, hk⟩, hks⟩
        refine ⟨hused, fun j hj hx => ?_⟩
        by_cases hjk : j = k
        · exact hk (hjk ▸ hx)
        · exact hks j ((List.mem_cons.mp hj).resolve_left hjk)
            (Ledger.release_holds_eq_some_iff.mpr ⟨hjk, hx⟩)
      · rintro ⟨hused, hks⟩
        exact ⟨⟨hused, hks k List.mem_cons_self⟩, fun j hj hx =>
          hks j (List.mem_cons_of_mem _ hj) (Ledger.release_holds_eq_some_iff.mp hx).2⟩

end Steps

end Ownership
end OS2024
