import OS2024.Lib.Ownership
import OS2024.Lib.Runs
import OS2024.Memory.Paging

/-!
# Every page frame has one owner

The bitmap, the count of free frames and the entries of the directories are three records
of one fact.  Read as a ledger, in which the present entries hold their frames and the
bitmap marks the used ones, an allocation is a `take` and a deallocation a `release`.

**Results.**
* `ledger_mapped`, `ledger_unmapped`: the operations as steps of the ledger.
* `call_effect`: what a call can do to the state.
* `reached_isolated`: frames are never shared, and the count is right.
-/

namespace OS2024
namespace Memory

open TracedState Ownership Runs

variable {ι : Type} [DecidableEq ι]

/-- A call of one of the two operations. -/
inductive Call (ι : Type)
  | allocate (pageDir : ι) (virtualAddr : UInt32)
  | free (pageDir : ι) (virtualAddr : UInt32)
deriving DecidableEq

/-- The state after a call. -/
def after (s : Paging ι) : Call ι → Paging ι
  | Call.allocate d va => (pagingAllocateUserPageFrame d va s).state
  | Call.free d va => (pagingFreeUserPageFrame d va s).state

/-- The directories have no present entry but the kernel's, which is mapped to frame 0. -/
structure NewPaging
    (kernel : ι)
    (s : Paging ι) : Prop where
  manager : s.pageManagerState = bootPageManagerState
  kernel_present : (s.directory kernel kernelIndex).Present
  kernel_frame : (s.directory kernel kernelIndex).frame = 0
  absent : ∀ d i, ¬(d = kernel ∧ i = kernelIndex) → ¬ (s.directory d i).Present

/-! ## The ledger of the page frames -/

/-- The present entries hold their frames; the bitmap marks the used ones. -/
def ledger
    (s : Paging ι) :
    Ledger (ι × Fin 1024) Nat where
  holds := fun k =>
    if (s.directory k.1 k.2).Present then some (s.directory k.1 k.2).frame else none
  used := fun n => ∃ h : n < 32, s.pageManagerState.pageFrameMap ⟨n, h⟩ = true

/-- The frames that the bitmap marks as free. -/
def freeFrames
    (s : Paging ι) :
    Finset (Fin 32) :=
  Finset.univ.filter fun i => s.pageManagerState.pageFrameMap i = false

/-- The count of free frames is the number of false bits. -/
def Counted
    (s : Paging ι) : Prop :=
  s.pageManagerState.freePageFrameCount.toNat = (freeFrames s).card

section Ledger

variable {s : Paging ι} {d : ι} {va : UInt32} {i : Fin 32}

omit [DecidableEq ι] in
theorem ledger_holds_eq_some_iff
    {k : ι × Fin 1024}
    {n : Nat} :
    (ledger s).holds k = some n ↔
      (s.directory k.1 k.2).Present ∧ (s.directory k.1 k.2).frame = n := by
  simp [ledger]

omit [DecidableEq ι] in
theorem ledger_used_iff
    (i : Fin 32) :
    (ledger s).used i ↔ s.pageManagerState.pageFrameMap i = true := by
  simp [ledger]

omit [DecidableEq ι] in
theorem mem_freeFrames :
    i ∈ freeFrames s ↔ s.pageManagerState.pageFrameMap i = false := by
  simp [freeFrames]

theorem setEntry_directory
    (s : Paging ι)
    (k : ι × Fin 1024)
    (j : Fin 1024)
    (entry : PageDirectoryEntry) :
    (s.setEntry d j entry).directory k.1 k.2 =
      if k = (d, j) then entry else s.directory k.1 k.2 := by
  obtain ⟨e, m⟩ := k
  by_cases he : e = d
  · subst he
    by_cases hm : m = j
    · subst hm
      simp [Paging.setEntry]
    · simp [Paging.setEntry, hm]
  · simp [Paging.setEntry, he]

@[simp] theorem userEntry_present
    (entry : PageDirectoryEntry) :
    (userEntry entry i).Present :=
  rfl

@[simp] theorem userEntry_frame
    (entry : PageDirectoryEntry) :
    (userEntry entry i).frame = i :=
  lowerAddressOf_frame i

@[simp] theorem zero_not_present :
    ¬ PageDirectoryEntry.zero.Present := by
  decide

/-- Giving a frame to a region is a `take`. -/
theorem ledger_mapped :
    ledger (s.mapped d va i) = (ledger s).take (d, pageIndex va) i := by
  have hholds : (ledger (s.mapped d va i)).holds =
      ((ledger s).take (d, pageIndex va) i).holds := by
    funext k
    by_cases hk : k = (d, pageIndex va)
    · rw [hk, Ledger.take_holds_self, ledger_holds_eq_some_iff, Paging.mapped,
        setEntry_directory, if_pos rfl]
      exact ⟨userEntry_present _, userEntry_frame _⟩
    · rw [Ledger.take_holds_of_ne hk]
      simp only [ledger, Paging.mapped, setEntry_directory, if_neg hk]
      rfl
  refine Ledger.ext hholds (funext fun n => propext ?_)
  constructor
  · rintro ⟨hn, hmark⟩
    by_cases hni : n = i
    · exact Or.inl hni
    · refine Or.inr ⟨hn, ?_⟩
      rwa [show (s.mapped d va i).pageManagerState.pageFrameMap ⟨n, hn⟩ =
        s.pageManagerState.pageFrameMap ⟨n, hn⟩ from
          Function.update_of_ne (fun he => hni (congrArg Fin.val he)) _ _] at hmark
  · rintro (rfl | ⟨hn, hmark⟩)
    · exact ⟨i.isLt, Function.update_self _ _ _⟩
    · refine ⟨hn, ?_⟩
      by_cases hni : (⟨n, hn⟩ : Fin 32) = i
      · rw [hni]
        exact Function.update_self _ _ _
      · rw [← hmark]
        exact Function.update_of_ne hni _ _

/-- Taking the frame back is a `release`. -/
theorem ledger_unmapped
    (hpresent : (s.directory d (pageIndex va)).Present)
    (hframe : (s.directory d (pageIndex va)).frame = i) :
    ledger (s.unmapped d va i) = (ledger s).release (d, pageIndex va) := by
  have hheld : (ledger s).holds (d, pageIndex va) = some (i : Nat) :=
    ledger_holds_eq_some_iff.mpr ⟨hpresent, hframe⟩
  have hholds : (ledger (s.unmapped d va i)).holds =
      ((ledger s).release (d, pageIndex va)).holds := by
    funext k
    by_cases hk : k = (d, pageIndex va)
    · rw [hk, Ledger.release_holds_self]
      simp [ledger, Paging.unmapped, setEntry_directory]
    · rw [Ledger.release_holds_of_ne hk]
      simp only [ledger, Paging.unmapped, setEntry_directory, if_neg hk]
      rfl
  refine Ledger.ext hholds (funext fun n => propext ?_)
  have hmap : ∀ hn : n < 32, (s.unmapped d va i).pageManagerState.pageFrameMap ⟨n, hn⟩ =
      if (⟨n, hn⟩ : Fin 32) = i then false else s.pageManagerState.pageFrameMap ⟨n, hn⟩ :=
    fun hn => Function.update_apply _ _ _ _
  constructor
  · rintro ⟨hn, hmark⟩
    rw [hmap hn] at hmark
    split_ifs at hmark with hni
    refine ⟨⟨hn, hmark⟩, fun he => ?_⟩
    rw [hheld, Option.some_inj] at he
    exact hni (Fin.ext he.symm)
  · rintro ⟨⟨hn, hmark⟩, hne⟩
    refine ⟨hn, ?_⟩
    rw [hmap hn, if_neg, hmark]
    rintro rfl
    exact hne hheld

/-- A free frame that is given away no longer counts. -/
theorem counted_mapped
    (h : Counted s)
    (hi : s.pageManagerState.pageFrameMap i = false) :
    Counted (s.mapped d va i) := by
  have hfree : freeFrames (s.mapped d va i) = (freeFrames s).erase i := by
    ext j
    rw [Finset.mem_erase, mem_freeFrames, mem_freeFrames]
    show Function.update s.pageManagerState.pageFrameMap i true j = false ↔ _
    rw [Function.update_apply]
    split_ifs with hj <;> simp [hj]
  have hmem : i ∈ freeFrames s := mem_freeFrames.mpr hi
  have hpos := Finset.card_pos.mpr ⟨i, hmem⟩
  rw [Counted, hfree, Finset.card_erase_of_mem hmem]
  show (s.pageManagerState.freePageFrameCount - 1).toNat = _
  have hone : (1 : UInt32) ≤ s.pageManagerState.freePageFrameCount := by
    rw [UInt32.le_iff_toNat_le, h]
    exact hpos
  rw [UInt32.toNat_sub_of_le _ _ hone, h]
  rfl

/-- A used frame that is taken back counts again. -/
theorem counted_unmapped
    (h : Counted s)
    (hi : s.pageManagerState.pageFrameMap i = true) :
    Counted (s.unmapped d va i) := by
  have hfree : freeFrames (s.unmapped d va i) = insert i (freeFrames s) := by
    ext j
    rw [Finset.mem_insert, mem_freeFrames, mem_freeFrames]
    show Function.update s.pageManagerState.pageFrameMap i false j = false ↔ _
    rw [Function.update_apply]
    split_ifs with hj <;> simp [hj]
  have hmem : i ∉ freeFrames s := by
    rw [mem_freeFrames, hi]
    decide
  have hle : (freeFrames s).card ≤ 32 := by
    have := Finset.card_le_univ (freeFrames s)
    rwa [Fintype.card_fin] at this
  rw [Counted, hfree, Finset.card_insert_of_notMem hmem]
  show (s.pageManagerState.freePageFrameCount + 1).toNat = _
  rw [UInt32.toNat_add, h]
  have hone : (1 : UInt32).toNat = 1 := rfl
  rw [hone]
  omega

end Ledger

/-! ## What a call does -/

/-- The ledger is sound and the count is right. -/
structure Frames
    (s : Paging ι) : Prop where
  sound : (ledger s).Sound
  counted : Counted s

omit [DecidableEq ι] in
/-- The frame of a present entry is marked in the bitmap. -/
theorem Frames.marked
    {s : Paging ι}
    (h : Frames s)
    {d : ι}
    {i : Fin 1024}
    (hpresent : (s.directory d i).Present) :
    ∃ f : Fin 32, (s.directory d i).frame = f ∧ s.pageManagerState.pageFrameMap f = true := by
  obtain ⟨hn, hmark⟩ := h.sound.used_of_holds (d, i) _
    (ledger_holds_eq_some_iff.mpr ⟨hpresent, rfl⟩)
  exact ⟨⟨_, hn⟩, rfl, hmark⟩

/-- What a call can do to the state. -/
inductive Effect (s : Paging ι) : Call ι → Paging ι → Prop
  | full {d : ι} {va : UInt32} :
      AllUsed s → Effect s (Call.allocate d va) s
  | maps {d : ι} {va : UInt32} {i : Fin 32} :
      FirstFree s i → Effect s (Call.allocate d va) (s.mapped d va i)
  | absent {d : ι} {va : UInt32} :
      ¬ (s.directory d (pageIndex va)).Present → Effect s (Call.free d va) s
  | unmaps {d : ι} {va : UInt32} {i : Fin 32} :
      (s.directory d (pageIndex va)).Present → (s.directory d (pageIndex va)).frame = i →
      s.pageManagerState.pageFrameMap i = true →
      Effect s (Call.free d va) (s.unmapped d va i)

theorem call_effect
    {s : Paging ι}
    (h : Frames s)
    (c : Call ι) :
    Effect s c (after s c) := by
  cases c with
  | allocate d va =>
      rcases firstFree_or_allUsed s with ⟨i, hi⟩ | hfull
      · rw [after, allocate_frame d va hi]
        exact Effect.maps hi
      · rw [after, allocate_full d va hfull]
        exact Effect.full hfull
  | free d va =>
      by_cases hpresent : (s.directory d (pageIndex va)).Present
      · obtain ⟨f, hframe, hmark⟩ := h.marked hpresent
        rw [after, free_mapped hpresent hframe hmark]
        exact Effect.unmaps hpresent hframe hmark
      · rw [after, free_absent hpresent]
        exact Effect.absent hpresent

omit [DecidableEq ι] in
theorem FirstFree.not_used
    {s : Paging ι}
    {i : Fin 32}
    (h : FirstFree s i) :
    ¬ (ledger s).used i := by
  rw [ledger_used_iff, h.1]
  decide

theorem frames_after
    {s : Paging ι}
    (h : Frames s)
    (c : Call ι) :
    Frames (after s c) := by
  have heff := call_effect h c
  generalize after s c = s' at heff ⊢
  cases heff with
  | full _ => exact h
  | maps hi =>
      refine ⟨?_, counted_mapped h.counted hi.1⟩
      rw [ledger_mapped]
      exact h.sound.take hi.not_used
  | absent _ => exact h
  | unmaps hpresent hframe hmark =>
      refine ⟨?_, counted_unmapped h.counted hmark⟩
      rw [ledger_unmapped hpresent hframe]
      exact h.sound.release

theorem bootPageManagerState_free :
    (Finset.univ.filter fun i => bootPageManagerState.pageFrameMap i = false).card = 31 := by
  decide

omit [DecidableEq ι] in
theorem NewPaging.frames
    {kernel : ι}
    {s : Paging ι}
    (h : NewPaging kernel s) :
    Frames s := by
  -- only the kernel's entry holds anything, and that is frame 0
  have hholds : ∀ k n, (ledger s).holds k = some n → k = (kernel, kernelIndex) ∧ n = 0 := by
    intro k n hk
    obtain ⟨hpresent, hframe⟩ := ledger_holds_eq_some_iff.mp hk
    have hkernel : k.1 = kernel ∧ k.2 = kernelIndex := by
      by_contra hne
      exact h.absent k.1 k.2 hne hpresent
    refine ⟨Prod.ext hkernel.1 hkernel.2, ?_⟩
    rw [hkernel.1, hkernel.2, h.kernel_frame] at hframe
    exact hframe.symm
  refine ⟨⟨fun k n hk => ?_, fun k k' n hk hk' => ?_⟩, ?_⟩
  · rw [(hholds k n hk).2]
    refine ⟨by decide, ?_⟩
    rw [h.manager]
    rfl
  · rw [(hholds k n hk).1, (hholds k' n hk').1]
  · rw [Counted, freeFrames, h.manager, bootPageManagerState_free]
    rfl

/-! ## Isolation -/

/-- Every present entry has a frame of its own that is marked as used, the count is the
number of false bits, and it decides whether an allocation succeeds. -/
structure Isolated
    (s : Paging ι) : Prop where
  marked : ∀ d i, (s.directory d i).Present →
    ∃ h : (s.directory d i).frame < 32,
      s.pageManagerState.pageFrameMap ⟨(s.directory d i).frame, h⟩ = true
  exclusive : ∀ d i d' i', (s.directory d i).Present → (s.directory d' i').Present →
    (s.directory d i).frame = (s.directory d' i').frame → d = d' ∧ i = i'
  counted : s.pageManagerState.freePageFrameCount.toNat =
    (Finset.univ.filter fun i => s.pageManagerState.pageFrameMap i = false).card
  allocates : ∀ d va, (pagingAllocateUserPageFrame d va s).result =
    .ok (decide (0 < s.pageManagerState.freePageFrameCount))
  frees : ∀ d va, ∃ b, (pagingFreeUserPageFrame d va s).result = .ok b

omit [DecidableEq ι] in
/-- The count is positive exactly if there is a free frame. -/
theorem count_pos_iff
    {s : Paging ι}
    (h : Counted s) :
    0 < s.pageManagerState.freePageFrameCount ↔ ¬ AllUsed s := by
  rw [UInt32.lt_iff_toNat_lt, UInt32.toNat_zero, h, Finset.card_pos]
  constructor
  · rintro ⟨i, hi⟩ hall
    rw [mem_freeFrames, hall i] at hi
    cases hi
  · intro hall
    by_contra hnone
    refine hall fun i => ?_
    by_contra hi
    exact hnone ⟨i, mem_freeFrames.mpr (Bool.eq_false_of_not_eq_true hi)⟩

theorem Frames.isolated
    {s : Paging ι}
    (h : Frames s) :
    Isolated s where
  marked := by
    intro d i hpresent
    exact h.sound.used_of_holds (d, i) _ (ledger_holds_eq_some_iff.mpr ⟨hpresent, rfl⟩)
  exclusive := by
    intro d i d' i' hpresent hpresent' hframe
    have hk := h.sound.exclusive (d, i) (d', i') _
      (ledger_holds_eq_some_iff.mpr ⟨hpresent, rfl⟩)
      (ledger_holds_eq_some_iff.mpr ⟨hpresent', hframe.symm⟩)
    exact Prod.ext_iff.mp hk
  counted := h.counted
  allocates := by
    intro d va
    rcases firstFree_or_allUsed s with ⟨i, hi⟩ | hfull
    · have hpos : 0 < s.pageManagerState.freePageFrameCount := by
        rw [count_pos_iff h.counted]
        intro hall
        exact absurd (hall i) (by rw [hi.1]; decide)
      rw [allocate_frame d va hi, decide_eq_true hpos]
    · have hzero : ¬ 0 < s.pageManagerState.freePageFrameCount := by
        rw [count_pos_iff h.counted]
        exact fun hne => hne hfull
      rw [allocate_full d va hfull, decide_eq_false hzero]
  frees := by
    intro d va
    by_cases hpresent : (s.directory d (pageIndex va)).Present
    · obtain ⟨f, hframe, hmark⟩ := h.marked hpresent
      exact ⟨true, by rw [free_mapped hpresent hframe hmark]⟩
    · exact ⟨false, by rw [free_absent hpresent]⟩

/-- **After any calls on any directories, no two present entries share a frame, and the
bitmap and the count are right.** -/
theorem reached_isolated
    {kernel : ι}
    {s : Paging ι}
    (h : Reached (NewPaging kernel) (fun _ _ => True) after s) :
    Isolated s := by
  have hframes : Frames s :=
    h.invariant (fun _ hs => hs.frames) fun _ c hs _ => frames_after hs c
  exact hframes.isolated

/-- The state at boot, with the directory of the kernel alone. -/
def bootPaging : Paging Unit where
  pageManagerState := bootPageManagerState
  directory := fun _ => bootDirectory

theorem newPaging_bootPaging :
    NewPaging () bootPaging where
  manager := rfl
  kernel_present := by decide
  kernel_frame := by decide
  absent := by
    intro d i hne hpresent
    have hi : i ≠ kernelIndex := fun hi => hne ⟨rfl, hi⟩
    have hzero : bootDirectory i = PageDirectoryEntry.zero := by
      rw [bootDirectory, Function.update_of_ne hi]
    change (bootDirectory i).Present at hpresent
    rw [hzero] at hpresent
    exact zero_not_present hpresent

/-- The directory of the kernel and an empty one. -/
def twoDirectories : Paging Bool where
  pageManagerState := bootPageManagerState
  directory d := if d then fun _ => PageDirectoryEntry.zero else bootDirectory

theorem newPaging_twoDirectories :
    NewPaging false twoDirectories where
  manager := rfl
  kernel_present := by decide
  kernel_frame := by decide
  absent := by
    intro d i hne
    cases d with
    | false => exact newPaging_bootPaging.absent () i fun hi => hne ⟨rfl, hi.2⟩
    | true => exact zero_not_present

/-- The second region of one directory and the first one of the other, which is freed and allocated
again. -/
theorem isolated_twoDirectories :
    Isolated (after (after (after (after twoDirectories (Call.allocate false 0x400000))
      (Call.allocate true 0)) (Call.free true 0)) (Call.allocate true 0)) :=
  reached_isolated (((((Reached.start newPaging_twoDirectories).step trivial).step trivial).step
    trivial).step trivial)

/-- Both regions are there, in frames of their own. -/
example :
    let s := after (after (after (after twoDirectories (Call.allocate false 0x400000))
      (Call.allocate true 0)) (Call.free true 0)) (Call.allocate true 0)
    (s.directory false 1).Present ∧ (s.directory false 1).frame = 1 ∧
      (s.directory true 0).Present ∧ (s.directory true 0).frame = 2 := by
  decide +kernel

end Memory
end OS2024
