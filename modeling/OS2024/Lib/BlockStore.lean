import Mathlib.Tactic

/-!
# Block stores and the writes issued to them

A block store maps addresses to blocks.  A device applies the writes it is given one
after the other; if it stops early, what is on it is the result of a prefix of them.

**Results.**
* `applyWrites_append`, `applyWrites_of_not_mem`: composition and frame.
* `applyWrites_invariant`: what every single write keeps, every prefix keeps.
* `prefix_append`: a prefix of `xs ++ ys` is a prefix of `xs`, or `xs` and a prefix
  of `ys`.
* `groupWrites_atomic`: overwriting a group so that one block changes is atomic.
* `group_applyWrites_groupWrites`: overwriting one aligned group of blocks replaces
  that group and no other.
-/

namespace OS2024
namespace BlockStore

universe u

variable {β : Type u}

/-- The store after one block write. -/
def applyWrite (d : Nat → β) (w : Nat × β) : Nat → β :=
  fun a => if a = w.1 then w.2 else d a

/-- The store after a list of block writes, first to last. -/
def applyWrites (d : Nat → β) (ws : List (Nat × β)) : Nat → β :=
  ws.foldl applyWrite d

@[simp] theorem applyWrites_nil (d : Nat → β) : applyWrites d [] = d := rfl

@[simp] theorem applyWrites_cons (d : Nat → β) (w : Nat × β) (ws : List (Nat × β)) :
    applyWrites d (w :: ws) = applyWrites (applyWrite d w) ws := rfl

theorem applyWrites_append (d : Nat → β) (xs ys : List (Nat × β)) :
    applyWrites d (xs ++ ys) = applyWrites (applyWrites d xs) ys :=
  List.foldl_append

/-- A block that no write addresses keeps its value. -/
theorem applyWrites_of_not_mem {d : Nat → β} {ws : List (Nat × β)} {a : Nat}
    (h : ∀ w, w ∈ ws → w.1 ≠ a) :
    applyWrites d ws a = d a := by
  induction ws generalizing d with
  | nil => rfl
  | cons w ws ih =>
      rw [applyWrites_cons, ih (fun w' hw' => h w' (List.mem_cons_of_mem _ hw')),
        applyWrite, if_neg (fun he => h w List.mem_cons_self he.symm)]

/-- A property kept by each single write is kept by all of them. -/
theorem applyWrites_invariant {P : (Nat → β) → Prop} {d : Nat → β} {ws : List (Nat × β)}
    (hd : P d) (hstep : ∀ d w, P d → w ∈ ws → P (applyWrite d w)) :
    P (applyWrites d ws) := by
  induction ws generalizing d with
  | nil => exact hd
  | cons w ws ih =>
      exact ih (hstep d w hd List.mem_cons_self)
        (fun d' w' hP hw' => hstep d' w' hP (List.mem_cons_of_mem _ hw'))

/-- Where a prefix of a concatenation ends. -/
theorem prefix_append {γ : Type*} {ws xs ys : List γ} (h : ws <+: xs ++ ys) :
    ws <+: xs ∨ ∃ zs, zs <+: ys ∧ ws = xs ++ zs := by
  rcases List.prefix_or_prefix_of_prefix h (List.prefix_append xs ys) with h | ⟨zs, rfl⟩
  · exact Or.inl h
  · exact Or.inr ⟨zs, (List.prefix_append_right_inj xs).mp h, rfl⟩

section Groups

variable {m : Nat}

/-- The `n`-th aligned group of `m` consecutive blocks. -/
def group (m : Nat) (d : Nat → β) (n : Nat) : Fin m → β :=
  fun i => d (m * n + i)

/-- The writes that overwrite the `n`-th aligned group, in address order. -/
def groupWrites (n : Nat) (content : Fin m → β) : List (Nat × β) :=
  (List.finRange m).map fun i : Fin m => (m * n + (i : Nat), content i)

theorem mem_groupWrites {n : Nat} {content : Fin m → β} {w : Nat × β} :
    w ∈ groupWrites n content ↔ ∃ i : Fin m, w = (m * n + (i : Nat), content i) := by
  simp [groupWrites, eq_comm]

/-- Aligned groups do not overlap. -/
theorem group_address_inj {n n' : Nat} {i i' : Fin m}
    (h : m * n + i = m * n' + i') : n = n' ∧ i = i' := by
  have hdiv := congrArg (· / m) h
  have hmod := congrArg (· % m) h
  have hm : 0 < m := i.pos
  simp only [Nat.mul_add_div hm, Nat.div_eq_of_lt i.isLt, Nat.div_eq_of_lt i'.isLt,
    Nat.mul_add_mod, Nat.mod_eq_of_lt i.isLt, Nat.mod_eq_of_lt i'.isLt, Nat.add_zero]
    at hdiv hmod
  exact ⟨hdiv, Fin.ext hmod⟩

/-- After distinct blocks of a group were overwritten, each holds its new content. -/
theorem applyWrites_groupBlock {n : Nat} {content : Fin m → β} {d : Nat → β}
    {is : List (Fin m)} (hnd : is.Nodup) (i : Fin m) :
    applyWrites d (is.map fun i : Fin m => (m * n + (i : Nat), content i)) (m * n + i) =
      if i ∈ is then content i else d (m * n + i) := by
  induction is generalizing d with
  | nil => rfl
  | cons j js ih =>
      rw [List.nodup_cons] at hnd
      rw [List.map_cons, applyWrites_cons, ih hnd.2]
      by_cases hij : i = j
      · subst hij
        simp [hnd.1, applyWrite]
      · have haddr : m * n + (i : Nat) ≠ m * n + j :=
          fun he => hij (group_address_inj he).2
        simp only [applyWrite, if_neg haddr, List.mem_cons, hij, false_or]

/-- Overwriting one group replaces it and leaves every other group alone. -/
theorem group_applyWrites_groupWrites (d : Nat → β) (n n' : Nat) (content : Fin m → β) :
    group m (applyWrites d (groupWrites n content)) n' =
      if n' = n then content else group m d n' := by
  funext i
  by_cases hn : n' = n
  · subst hn
    rw [if_pos rfl, group, groupWrites, applyWrites_groupBlock (List.nodup_finRange m),
      if_pos (List.mem_finRange i)]
  · rw [if_neg hn, group, applyWrites_of_not_mem]
    · rfl
    · intro w hw he
      obtain ⟨j, rfl⟩ := mem_groupWrites.mp hw
      exact hn (group_address_inj he).1.symm

/-- Overwriting some blocks of a group, where only block `b` gets a new content, changes
nothing before block `b` is written and has the full effect afterwards. -/
theorem applyWrites_groupBlocks_eq {n : Nat} {content : Fin m → β} {d : Nat → β} {b : Fin m}
    (h : ∀ i, i ≠ b → content i = d (m * n + i)) {is : List (Fin m)} (hnd : is.Nodup) :
    applyWrites d (is.map fun i : Fin m => (m * n + (i : Nat), content i)) =
      if b ∈ is then applyWrites d (groupWrites n content) else d := by
  funext a
  by_cases ha : ∃ i : Fin m, m * n + (i : Nat) = a
  · obtain ⟨i, rfl⟩ := ha
    rw [applyWrites_groupBlock hnd]
    by_cases hb : b ∈ is
    · rw [if_pos hb, groupWrites, applyWrites_groupBlock (List.nodup_finRange m),
        if_pos (List.mem_finRange i)]
      by_cases hi : i ∈ is
      · rw [if_pos hi]
      · rw [if_neg hi, h i fun he => hi (he ▸ hb)]
    · rw [if_neg hb]
      by_cases hi : i ∈ is
      · rw [if_pos hi, h i fun he => hb (he ▸ hi)]
      · rw [if_neg hi]
  · have hother : ∀ js : List (Fin m),
        applyWrites d (js.map fun i : Fin m => (m * n + (i : Nat), content i)) a = d a := by
      intro js
      refine applyWrites_of_not_mem fun w hw he => ?_
      obtain ⟨i, -, rfl⟩ := List.mem_map.mp hw
      exact ha ⟨i, he⟩
    rw [hother]
    split_ifs
    · exact (hother _).symm
    · rfl

/-- Overwriting a group so that one block changes is atomic. -/
theorem groupWrites_atomic {n : Nat} {content : Fin m → β} {d : Nat → β} {b : Fin m}
    (h : ∀ i, i ≠ b → content i = d (m * n + i)) {ws : List (Nat × β)}
    (hws : ws <+: groupWrites n content) :
    applyWrites d ws = d ∨ applyWrites d ws = applyWrites d (groupWrites n content) := by
  rw [List.prefix_iff_eq_take] at hws
  rw [groupWrites, ← List.map_take] at hws
  have hnd : ((List.finRange m).take ws.length).Nodup :=
    (List.nodup_finRange m).sublist (List.take_sublist _ _)
  rw [hws, applyWrites_groupBlocks_eq h hnd]
  split_ifs
  · exact Or.inr rfl
  · exact Or.inl rfl

end Groups

end BlockStore
end OS2024
