import Mathlib.Data.List.Nodup
import Mathlib.Data.List.Perm.Subperm
import Mathlib.Tactic.Common

/-!
# Chains in a successor table

A table `next : α → α` together with a distinguished end marker `stop` describes
singly linked chains: starting from a cell one follows `next` until `stop` is met.
`Linked next stop c l` says that this walk visits exactly the cells of `l`.

**Results.**
* `Linked.unique`, `Linked.nodup`: the walk is deterministic and never revisits a cell.
* `Linked.congr`: a chain only depends on the entries of its own cells.
* `linked_link`: threading a list of distinct cells yields a chain through them.
* `link_of_not_mem`: threading touches no other cell.
* `clear_link`: clearing a chain threaded through clear cells restores the table.
* `Linked.length_le`: a chain through finitely many cells has bounded length.
-/

namespace OS2024
namespace LinkedChain

universe u

variable {α : Type u}

/-- The walk from `c` visits exactly the cells `l` and then meets `stop`. -/
inductive Linked (next : α → α) (stop : α) : α → List α → Prop
  | nil : Linked next stop stop []
  | cons {c : α} {l : List α} :
      c ≠ stop → Linked next stop (next c) l → Linked next stop c (c :: l)

section Walks

variable {next : α → α} {stop c : α} {l : List α}

theorem Linked.nil_iff : Linked next stop c [] ↔ c = stop := by
  constructor
  · intro h
    cases h
    rfl
  · rintro rfl
    exact Linked.nil

theorem Linked.cons_iff {d : α} :
    Linked next stop c (d :: l) ↔ c = d ∧ c ≠ stop ∧ Linked next stop (next c) l := by
  constructor
  · intro h
    cases h with
    | cons hc h => exact ⟨rfl, hc, h⟩
  · rintro ⟨rfl, hc, h⟩
    exact Linked.cons hc h

/-- The cells visited by a walk are determined by its first cell. -/
theorem Linked.unique {l' : List α}
    (h : Linked next stop c l) (h' : Linked next stop c l') : l = l' := by
  induction h generalizing l' with
  | nil =>
      cases h' with
      | nil => rfl
      | cons hc _ => exact absurd rfl hc
  | cons hc _ ih =>
      cases h' with
      | nil => exact absurd rfl hc
      | cons _ h' => rw [ih h']

theorem Linked.head_mem (h : Linked next stop c l) (hc : c ≠ stop) : c ∈ l := by
  cases h with
  | nil => exact absurd rfl hc
  | cons => exact List.mem_cons_self

/-- From every visited cell the walk continues with a shorter or equal list. -/
theorem Linked.suffix {x : α} (h : Linked next stop c l) (hx : x ∈ l) :
    ∃ l₁ l₂, l = l₁ ++ l₂ ∧ Linked next stop x l₂ := by
  induction h with
  | nil => simp at hx
  | @cons c l hc hl ih =>
      rcases List.mem_cons.mp hx with rfl | hx
      · exact ⟨[], x :: l, rfl, Linked.cons hc hl⟩
      · obtain ⟨l₁, l₂, he, hs⟩ := ih hx
        exact ⟨c :: l₁, l₂, by rw [he]; rfl, hs⟩

/-- A terminating walk never visits a cell twice. -/
theorem Linked.nodup (h : Linked next stop c l) : l.Nodup := by
  induction h with
  | nil => exact List.nodup_nil
  | @cons c l hc hl ih =>
      refine List.nodup_cons.mpr ⟨fun hmem => ?_, ih⟩
      -- a second visit would start the same walk from a proper suffix
      obtain ⟨l₁, l₂, he, hs⟩ := hl.suffix hmem
      have hlen := congrArg List.length (hs.unique (Linked.cons hc hl))
      rw [he] at hlen
      simp only [List.length_cons, List.length_append] at hlen
      omega

/-- A chain only depends on the table entries of its own cells. -/
theorem Linked.congr {next' : α → α}
    (h : Linked next stop c l) (hagree : ∀ x, x ∈ l → next' x = next x) :
    Linked next' stop c l := by
  induction h with
  | nil => exact Linked.nil
  | @cons c l hc hl ih =>
      refine Linked.cons hc ?_
      rw [hagree c List.mem_cons_self]
      exact ih (fun x hx => hagree x (List.mem_cons_of_mem _ hx))

/-- The entry of a visited cell is the end marker or again a visited cell. -/
theorem Linked.next_mem {x : α} (h : Linked next stop c l) (hx : x ∈ l) :
    next x = stop ∨ next x ∈ l := by
  induction h with
  | nil => simp at hx
  | @cons c l hc hl ih =>
      rcases List.mem_cons.mp hx with rfl | hx
      · by_cases hn : next x = stop
        · exact Or.inl hn
        · exact Or.inr (List.mem_cons_of_mem _ (hl.head_mem hn))
      · exact (ih hx).imp_right (List.mem_cons_of_mem _)

/-- The end marker is stored exactly in the last cell of a chain. -/
theorem Linked.next_eq_stop_iff {x : α} (h : Linked next stop c l) (hx : x ∈ l) :
    next x = stop ↔ l.getLast? = some x := by
  induction h with
  | nil => simp at hx
  | @cons c l hc hl ih =>
      cases hl with
      | nil =>
          obtain rfl : x = c := by simpa using hx
          simp_all
      | @cons _ l hn hl =>
          rw [List.getLast?_cons_cons]
          rcases List.mem_cons.mp hx with rfl | hx
          · have hnd := (Linked.cons hc (Linked.cons hn hl)).nodup
            constructor
            · exact fun he => absurd he hn
            · intro hlast
              exact absurd (List.mem_of_getLast? hlast) (List.nodup_cons.mp hnd).1
          · exact ih hx

/-- A chain through cells numbered below `n` has at most `n` cells. -/
theorem Linked.length_le {n : Nat} {rank : α → Nat} (hinj : Function.Injective rank)
    (h : Linked next stop c l) (hlt : ∀ x, x ∈ l → rank x < n) :
    l.length ≤ n := by
  have hsub : l.map rank ⊆ List.range n := by
    intro k hk
    obtain ⟨x, hx, rfl⟩ := List.mem_map.mp hk
    exact List.mem_range.mpr (hlt x hx)
  have hle := ((h.nodup.map hinj).subperm hsub).length_le
  simpa using hle

end Walks

section Threading

variable [DecidableEq α]

/-- Thread the cells of a list: each points to its successor, the last to `stop`. -/
def link (stop : α) (next : α → α) : List α → α → α
  | [], x => next x
  | c :: cs, x => if x = c then cs.headD stop else link stop next cs x

variable {stop : α} {next : α → α}

@[simp] theorem link_nil (x : α) : link stop next [] x = next x := rfl

theorem link_of_not_mem {l : List α} {x : α} (hx : x ∉ l) :
    link stop next l x = next x := by
  induction l with
  | nil => rfl
  | cons c cs ih =>
      rw [List.mem_cons, not_or] at hx
      rw [link, if_neg hx.1, ih hx.2]

/-- Clearing the threaded cells undoes the threading if they were clear before. -/
theorem clear_link {l : List α} {blank : α} (hblank : ∀ x, x ∈ l → next x = blank) (x : α) :
    (if x ∈ l then blank else link stop next l x) = next x := by
  by_cases hx : x ∈ l
  · rw [if_pos hx, hblank x hx]
  · rw [if_neg hx, link_of_not_mem hx]

/-- Inside the threaded cells the table underneath does not matter. -/
theorem link_congr_of_mem {next' : α → α} {l : List α} {x : α} (hx : x ∈ l) :
    link stop next l x = link stop next' l x := by
  induction l with
  | nil => simp at hx
  | cons c cs ih =>
      by_cases hxc : x = c
      · rw [link, link, if_pos hxc, if_pos hxc]
      · rw [link, link, if_neg hxc, if_neg hxc]
        exact ih ((List.mem_cons.mp hx).resolve_left hxc)

/-- Threading distinct cells yields a chain through exactly these cells. -/
theorem linked_link {l : List α} (hnd : l.Nodup) (hstop : stop ∉ l) :
    Linked (link stop next l) stop (l.headD stop) l := by
  induction l with
  | nil => exact Linked.nil
  | cons c cs ih =>
      rw [List.nodup_cons] at hnd
      rw [List.mem_cons, not_or] at hstop
      have htail := ih hnd.2 hstop.2
      refine Linked.cons (fun he => hstop.1 he.symm) ?_
      show Linked (link stop next (c :: cs)) stop (link stop next (c :: cs) c) cs
      rw [show link stop next (c :: cs) c = cs.headD stop by simp [link]]
      refine htail.congr (fun x hx => ?_)
      have hxc : x ≠ c := fun he => hnd.1 (he ▸ hx)
      rw [link, if_neg hxc]

end Threading

end LinkedChain
end OS2024
