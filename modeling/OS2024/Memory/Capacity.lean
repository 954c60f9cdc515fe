import OS2024.Memory.Isolation

/-!
# How much memory is left

`paging_allocate_check` multiplies the count of free frames by their size.  The allocator does
not look at the count: it searches the bitmap.  Of several allocations in a row, the first ones
succeed, as many as there are free frames, and all later ones fail.

**Results.**
* `allocate_effect`: an allocation takes one from the free frames, if there is one.
* `allocateAll_run`: which of several allocations succeed.
* `reached_checked`: the check tells whether an amount can be allocated.
-/

namespace OS2024
namespace Memory

open TracedState Ownership Runs

variable {ι : Type}

def pagingAllocateCheck (amount : UInt32) : PagingM ι Bool := do
  return (← getState).pageManagerState.freePageFrameCount * pageFrameSize ≥ amount

/-- The frames that an amount of bytes takes, the last of them perhaps in part. -/
def framesFor (amount : UInt32) : Nat :=
  (amount.toNat + (pageFrameSize.toNat - 1)) / pageFrameSize.toNat

/-- Allocations in a row, each in a directory and at an address, and their results. -/
def allocateAll [DecidableEq ι] (pages : List (ι × UInt32)) : PagingM ι (List Bool) :=
  pages.mapM' fun page => pagingAllocateUserPageFrame page.1 page.2

/-- **The property.**  The product of the check does not wrap, and its result is that of all the
allocations for the amount together, wherever they go. -/
structure Checked [DecidableEq ι] (s : Paging ι) : Prop where
  exact_product : (s.pageManagerState.freePageFrameCount * pageFrameSize).toNat =
    s.pageManagerState.freePageFrameCount.toNat * pageFrameSize.toNat
  check : ∀ amount pages, pages.length = framesFor amount →
    ∃ results, (allocateAll pages s).result = .ok results ∧ results.length = pages.length ∧
      (pagingAllocateCheck amount s).result = .ok (results.all id)

/-! ## Allocations in a row -/

section Capacity

/-- The number of free frames. -/
def Paging.free (s : Paging ι) : Nat := s.pageManagerState.freePageFrameCount.toNat

variable {s : Paging ι}

theorem Counted.free_le
    (h : Counted s) :
    s.free ≤ 32 := by
  have hle := Finset.card_le_univ (freeFrames s)
  rw [Fintype.card_fin] at hle
  exact h.trans_le hle

/-- The size of the memory is far below 4 GiB. -/
theorem Counted.product
    (h : Counted s) :
    (s.pageManagerState.freePageFrameCount * pageFrameSize).toNat =
      s.pageManagerState.freePageFrameCount.toNat * pageFrameSize.toNat := by
  have hle : s.pageManagerState.freePageFrameCount.toNat ≤ 32 := h.free_le
  have hsize : pageFrameSize.toNat = 4194304 := rfl
  rw [UInt32.toNat_mul, hsize]
  omega

/-- An amount fits in `n` frames if it takes no more than these. -/
theorem framesFor_le_iff
    (amount : UInt32)
    (n : Nat) :
    framesFor amount ≤ n ↔ amount.toNat ≤ n * pageFrameSize.toNat := by
  have hsize : pageFrameSize.toNat = 4194304 := rfl
  rw [framesFor, hsize]
  omega

theorem check_result
    (h : Counted s)
    (amount : UInt32) :
    (pagingAllocateCheck amount s).result = .ok (decide (framesFor amount ≤ s.free)) := by
  have hiff : s.pageManagerState.freePageFrameCount * pageFrameSize ≥ amount ↔
      framesFor amount ≤ s.free := by
    rw [framesFor_le_iff, ge_iff_le, UInt32.le_iff_toNat_le, h.product]
    rfl
  exact congrArg Except.ok (decide_eq_decide.mpr hiff)

theorem Counted.free_pos_iff
    (h : Counted s) :
    0 < s.free ↔ ¬ AllUsed s := by
  rw [← count_pos_iff h, UInt32.lt_iff_toNat_lt, UInt32.toNat_zero]
  rfl

variable [DecidableEq ι]

/-- An allocation succeeds if there is a free frame, which is then one less. -/
theorem allocate_effect
    (h : Frames s)
    (d : ι)
    (va : UInt32) :
    ∃ s' w, pagingAllocateUserPageFrame d va s = ⟨.ok (decide (0 < s.free)), s', w⟩ ∧
      Frames s' ∧ s'.free = s.free - 1 := by
  have hframes := frames_after h (Call.allocate d va)
  rw [after] at hframes
  rcases firstFree_or_allUsed s with ⟨i, hi⟩ | hfull
  · have hpos : 0 < s.free := by
      rw [h.counted.free_pos_iff]
      intro hall
      exact absurd (hall i) (by rw [hi.1]; decide)
    have hone : (1 : UInt32) ≤ s.pageManagerState.freePageFrameCount :=
      UInt32.le_iff_toNat_le.mpr hpos
    rw [allocate_frame d va hi] at hframes ⊢
    rw [decide_eq_true hpos]
    exact ⟨_, _, rfl, hframes, UInt32.toNat_sub_of_le _ _ hone⟩
  · have hzero : ¬ 0 < s.free := by
      rw [h.counted.free_pos_iff]
      exact fun hne => hne hfull
    rw [allocate_full d va hfull, decide_eq_false hzero]
    exact ⟨_, _, rfl, h, by omega⟩

/-- **Of several allocations the first ones succeed,** one for each free frame. -/
theorem allocateAll_run
    (h : Frames s)
    (pages : List (ι × UInt32)) :
    ∃ s' w, allocateAll pages s =
      ⟨.ok ((List.range pages.length).map fun k => decide (k < s.free)), s', w⟩ := by
  induction pages generalizing s with
  | nil => exact ⟨s, [], rfl⟩
  | cons page pages ih =>
      obtain ⟨s₁, w₁, hrun, hframes, hfree⟩ := allocate_effect h page.1 page.2
      obtain ⟨s₂, w₂, hrest⟩ := ih hframes
      have hlater : ∀ k, decide (k < s₁.free) = decide (k + 1 < s.free) := by
        intro k
        rw [hfree]
        exact decide_eq_decide.mpr (by omega)
      refine ⟨s₂, w₁ ++ w₂, ?_⟩
      rw [allocateAll] at hrest
      simp only [allocateAll, List.mapM'_cons, bind_apply, hrun, hrest, pure_apply, Outcome.prepend,
        List.append_nil, List.length_cons, List.range_succ_eq_map, List.map_cons, List.map_map,
        Function.comp_def, hlater, Nat.succ_eq_add_one]

theorem all_succeed_iff
    (n free : Nat) :
    ((List.range n).map fun k => decide (k < free)).all id = decide (n ≤ free) := by
  rw [Bool.eq_iff_iff]
  simp only [List.all_eq_true, List.mem_map, List.mem_range, id_eq, decide_eq_true_eq]
  constructor
  · intro hall
    by_contra hlt
    have hlast := hall _ ⟨free, by omega, rfl⟩
    rw [decide_eq_true_eq] at hlast
    exact absurd hlast (lt_irrefl free)
  · rintro hle - ⟨k, hk, rfl⟩
    exact decide_eq_true (by omega)

theorem Frames.checked
    (h : Frames s) :
    Checked s where
  exact_product := h.counted.product
  check := by
    intro amount pages hpages
    obtain ⟨s', w, hrun⟩ := allocateAll_run h pages
    rw [hrun]
    refine ⟨_, rfl, by rw [List.length_map, List.length_range], ?_⟩
    rw [check_result h.counted, all_succeed_iff, hpages]

/-- **After any calls on any directories, the check is right.** -/
theorem reached_checked
    {kernel : ι}
    (h : Reached (NewPaging kernel) (fun _ _ => True) after s) :
    Checked s := by
  have hframes : Frames s :=
    h.invariant (fun _ hs => hs.frames) fun _ c hs _ => frames_after hs c
  exact hframes.checked

end Capacity

/-- The check is right after the shell has its first page. -/
theorem checked_firstPage :
    Checked (after bootPaging (Call.allocate () 0)) :=
  reached_checked ((Reached.start newPaging_bootPaging).step trivial)

end Memory
end OS2024
