import Mathlib.Tactic.Common

/-!
# Reachability in a graph with labelled slots

A node `d` has slots indexed by `ι`; `edge d i = some c` says that slot `i` of `d`
points to the node `c`.  `Reach edge root` is the set of nodes hanging below `root`.

Two local edits are analysed: hanging one new leaf into a slot, and unhooking a
leaf from the only slot that points to it.

**Results.**
* `reach_iff_of_agree`: edits outside the reachable nodes are invisible.
* `reach_insert_iff`: hanging a leaf `c` adds exactly `c`.
* `reach_erase_iff`: unhooking a leaf `c` removes exactly `c`.
* `Path.unique`, `Path.above`: in a tree every node has one path, which ends at its parent.
* `Path.mono`: a path of which no slot has changed is still a path.
-/

namespace OS2024
namespace SlotTree

universe u v

variable {ν : Type u} {ι : Type v}

/-- Nodes reachable from `root` along the slots. -/
inductive Reach (edge : ν → ι → Option ν) (root : ν) : ν → Prop
  | root : Reach edge root root
  | child {d c : ν} {i : ι} :
      Reach edge root d → edge d i = some c → Reach edge root c

variable {edge edge' : ν → ι → Option ν} {root : ν}

/-- A reachable node is the root or hangs in a slot of a reachable node. -/
theorem Reach.eq_root_or_child {c : ν} (h : Reach edge root c) :
    c = root ∨ ∃ d i, Reach edge root d ∧ edge d i = some c := by
  cases h with
  | root => exact Or.inl rfl
  | child hd he => exact Or.inr ⟨_, _, hd, he⟩

theorem Reach.mono_of_agree {d : ν} (h : Reach edge root d)
    (hagree : ∀ x i, Reach edge root x → edge' x i = edge x i) :
    Reach edge' root d := by
  induction h with
  | root => exact Reach.root
  | @child d c i hd he ih => exact Reach.child ih ((hagree d i hd).trans he)

/-- Two graphs that agree on the reachable nodes of the first have the same
reachable nodes. -/
theorem reach_iff_of_agree
    (hagree : ∀ x i, Reach edge root x → edge' x i = edge x i) (d : ν) :
    Reach edge' root d ↔ Reach edge root d := by
  constructor
  · intro h
    induction h with
    | root => exact Reach.root
    | @child d c i _ he ih => exact Reach.child ih ((hagree d i ih).symm.trans he)
  · exact fun h => h.mono_of_agree hagree

/-- Hanging a leaf `c` into slot `k` of the reachable node `p` adds exactly `c`. -/
theorem reach_insert_iff {p c : ν} {k : ι}
    (hp : Reach edge root p)
    (hfree : edge p k = none)
    (hnew : edge' p k = some c)
    (hleaf : ∀ i, edge' c i = none)
    (hagree : ∀ x i, Reach edge root x → ¬(x = p ∧ i = k) → edge' x i = edge x i)
    (d : ν) :
    Reach edge' root d ↔ Reach edge root d ∨ d = c := by
  have hold : ∀ x, Reach edge root x → Reach edge' root x := by
    intro x hx
    induction hx with
    | root => exact Reach.root
    | @child d y i hd he ih =>
        by_cases hslot : d = p ∧ i = k
        · obtain ⟨rfl, rfl⟩ := hslot
          rw [hfree] at he
          cases he
        · exact Reach.child ih ((hagree d i hd hslot).trans he)
  constructor
  · intro h
    induction h with
    | root => exact Or.inl Reach.root
    | @child d y i _ he ih =>
        rcases ih with hd | rfl
        · by_cases hslot : d = p ∧ i = k
          · obtain ⟨rfl, rfl⟩ := hslot
            exact Or.inr (Option.some.inj (he.symm.trans hnew))
          · exact Or.inl (Reach.child hd ((hagree d i hd hslot).symm.trans he))
        · rw [hleaf i] at he
          cases he
  · rintro (hd | rfl)
    · exact hold d hd
    · exact Reach.child (hold p hp) hnew

/-- Unhooking the leaf `c` from the only slot that points to it removes exactly `c`. -/
theorem reach_erase_iff {p c : ν} {k : ι}
    (hroot : c ≠ root)
    (hleaf : ∀ i, edge c i = none)
    (hhook : edge p k = some c)
    (hgone : edge' p k = none)
    (honly : ∀ x i, Reach edge root x → edge x i = some c → x = p ∧ i = k)
    (hagree : ∀ x i, Reach edge root x → x ≠ c → ¬(x = p ∧ i = k) →
      edge' x i = edge x i)
    (d : ν) :
    Reach edge' root d ↔ Reach edge root d ∧ d ≠ c := by
  constructor
  · intro h
    induction h with
    | root => exact ⟨Reach.root, hroot.symm⟩
    | @child d y i _ he ih =>
        obtain ⟨hd, hdc⟩ := ih
        by_cases hslot : d = p ∧ i = k
        · obtain ⟨rfl, rfl⟩ := hslot
          rw [hgone] at he
          cases he
        · rw [hagree d i hd hdc hslot] at he
          refine ⟨Reach.child hd he, ?_⟩
          rintro rfl
          exact hslot (honly d i hd he)
  · rintro ⟨h, hdc⟩
    induction h with
    | root => exact Reach.root
    | @child d y i hd he ih =>
        have hd' : d ≠ c := by
          rintro rfl
          rw [hleaf i] at he
          cases he
        have hslot : ¬(d = p ∧ i = k) := by
          rintro ⟨rfl, rfl⟩
          exact hdc (Option.some.inj (he.symm.trans hhook))
        exact Reach.child (ih hd') ((hagree d i hd hd' hslot).trans he)

section Paths

/-- A path from `root` to a node; the list has the nodes above it, from the root down. -/
inductive Path (edge : ν → ι → Option ν) (root : ν) : ν → List ν → Prop
  | root : Path edge root root []
  | child {d c : ν} {i : ι} {l : List ν} :
      Path edge root d l → edge d i = some c → Path edge root c (l ++ [d])

variable {c : ν} {l l' : List ν}

theorem Path.reach
    (h : Path edge root c l) :
    Reach edge root c := by
  induction h with
  | root => exact Reach.root
  | child _ he ih => exact Reach.child ih he

/-- All nodes on a path are reachable. -/
theorem Path.reach_of_mem
    {d : ν}
    (h : Path edge root c l)
    (hd : d ∈ l) :
    Reach edge root d := by
  induction h with
  | root => cases hd
  | child hpath _ ih =>
      rcases List.mem_append.mp hd with hd | hd
      · exact ih hd
      · rw [List.mem_singleton.mp hd]
        exact hpath.reach

/-- Every path begins at the root. -/
theorem Path.head?_eq
    (h : Path edge root c l) :
    (l ++ [c]).head? = some root := by
  induction h with
  | root => rfl
  | child _ _ ih => rw [List.head?_append, ih, Option.some_or]

/-- Only the root has nothing above it. -/
theorem Path.eq_root
    (h : Path edge root c []) :
    c = root := by
  generalize hl : ([] : List ν) = l at h
  cases h with
  | root => rfl
  | child _ _ => simp at hl

/-- In a tree the root is below no node. -/
theorem Path.root_nil
    (hroot : ∀ d i, Reach edge root d → edge d i ≠ some root)
    (h : Path edge root root l) :
    l = [] := by
  generalize hc : root = c at h
  cases h with
  | root => rfl
  | @child d _ i _ hd he =>
      subst hc
      exact absurd he (hroot d i hd.reach)

/-- The path of any other node ends at its parent. -/
theorem Path.above
    (hne : c ≠ root)
    (h : Path edge root c l) :
    ∃ d i l', l = l' ++ [d] ∧ Path edge root d l' ∧ edge d i = some c := by
  cases h with
  | root => exact absurd rfl hne
  | @child d _ i l' hd he => exact ⟨d, i, l', rfl, hd, he⟩

/-- In a tree a node has one path. -/
theorem Path.unique
    (hroot : ∀ d i, Reach edge root d → edge d i ≠ some root)
    (honly : ∀ d d' i i' c, Reach edge root d → Reach edge root d' →
      edge d i = some c → edge d' i' = some c → d = d')
    (h : Path edge root c l)
    (h' : Path edge root c l') :
    l = l' := by
  induction h generalizing l' with
  | root => exact (h'.root_nil hroot).symm
  | @child d c i l hd he ih =>
      have hne : c ≠ root := by
        rintro rfl
        exact hroot d i hd.reach he
      obtain ⟨d', i', l'', rfl, hd', he'⟩ := h'.above hne
      obtain rfl := honly d d' i i' c hd.reach hd'.reach he he'
      rw [ih hd']

/-- A node on a path has a shorter path itself. -/
theorem Path.of_mem
    {d : ν}
    (h : Path edge root c l)
    (hd : d ∈ l) :
    ∃ l', Path edge root d l' ∧ l'.length < l.length := by
  induction h with
  | root => cases hd
  | @child x c i l hpath he ih =>
      rw [List.length_append, List.length_singleton]
      rcases List.mem_append.mp hd with hd | hd
      · obtain ⟨l', hpath', hlen⟩ := ih hd
        exact ⟨l', hpath', by omega⟩
      · rw [List.mem_singleton.mp hd]
        exact ⟨l, hpath, Nat.lt_succ_self _⟩

/-- A path stays a path if the slots of the nodes on it keep what they point to. -/
theorem Path.mono
    (h : Path edge root c l)
    (hkeep : ∀ d, d ∈ l → ∀ i x, edge d i = some x → edge' d i = some x) :
    Path edge' root c l := by
  induction h with
  | root => exact Path.root
  | @child d c i l hpath he ih =>
      have hlast : d ∈ l ++ [d] := List.mem_append_right l (List.mem_singleton_self d)
      exact Path.child (ih fun x hx => hkeep x (List.mem_append_left _ hx)) (hkeep d hlast i c he)

end Paths

end SlotTree
end OS2024
