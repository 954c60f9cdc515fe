import OS2024.Lib.Lookaside
import OS2024.Memory.Isolation

/-!
# Paging and the processor

The processor translates an address by the directory in `cr3`, or by a copy of an entry that it
keeps in its TLB.  It takes and drops copies as it likes, and marks entries that it has used.  The
kernel meanwhile gives frames to regions and takes them back.

The number of a frame goes to `lower_address`, which is packed behind the flags and has the bits 8
to 17 of the entry.  For a page of 4 MiB the processor takes the frame from the bits 22 to 31, where
`higher_address` is, and nobody ever sets that.  So every region that is there shows the same
frame, the one of the kernel.

In that frame are also the code and the data by which the kernel does all this, and the memory of
the devices.  These places are `reserved` here: a store to one of them leads out of the model.

**Results.**
* `load_mirror`: what is loaded is what the mirror shows.
* `run_mirror`: any run of accesses, calls and whims of the processor is a run of the mirror.
* `kernel_exposed`: a program with one page reads and writes the memory of the kernel.
-/

namespace OS2024
namespace Memory

open TracedState Ownership Runs Lookaside

/-- What the processor takes from an entry for a page of 4 MiB. -/
structure Mapping where
  frame : Nat
  user : Bool
  write : Bool
deriving DecidableEq

/-- The processor's view of an entry.  The bits 30 and 31 belong to no field and are zero; an entry
without `page_size_bit` would lead to a table of small pages, and there are none. -/
def PageDirectoryEntry.mapping (entry : PageDirectoryEntry) : Option Mapping :=
  if entry.Present ∧ entry.flag.pageSizeBit = true then
    some ⟨entry.higherAddress.toNat, entry.flag.userBit, entry.flag.writeBit⟩
  else none

/-- The entry after the processor has used it, for a store if `dirty`. -/
def PageDirectoryEntry.marked (entry : PageDirectoryEntry) (dirty : Bool) : PageDirectoryEntry :=
  { entry with
    flag := { entry.flag with
      accessedBit := true
      dirtyBit := entry.flag.dirtyBit || dirty } }

/-- The place of an address in its page. -/
def offset (va : UInt32) : UInt32 := va &&& 0x3FFFFF

/-- Programs need the user bit, and the write bit for a store.  `CR0.WP` is 0, so the kernel needs
neither. -/
def permits (user write : Bool) (byUser store : Bool) : Bool :=
  !byUser || (user && (!store || write))

/-- The directories, the TLB, and the bytes of every page frame. -/
structure Mmu (ι : Type) where
  paging : Paging ι
  tlb : Fin 1024 → Option Mapping
  memory : Nat → UInt32 → UInt8

/-- What happens: the processor fills or drops an entry of its TLB or marks an entry of the
directory, somebody stores a byte, or the kernel calls an operation. -/
inductive Event (ι : Type)
  | fill (i : Fin 1024)
  | evict (i : Fin 1024)
  | mark (i : Fin 1024) (dirty : Bool)
  | store (byUser : Bool) (va : UInt32) (b : UInt8)
  | call (c : Call ι)

section Translation

variable {ι : Type} [DecidableEq ι] (kernel : ι) (reserved : UInt32 → Prop) [DecidablePred reserved]

namespace Mmu

omit [DecidableEq ι] in
/-- The translations of the directory in `cr3`. -/
def table (s : Mmu ι) : Fin 1024 → Option Mapping :=
  fun i => (s.paging.directory kernel i).mapping

omit [DecidableEq ι] in
/-- A load; a page fault gives nothing. -/
def load (s : Mmu ι) (byUser : Bool) (va : UInt32) : Option UInt8 :=
  match lookup (s.table kernel) s.tlb (pageIndex va) with
  | none => none
  | some m =>
      if permits m.user m.write byUser false then some (s.memory m.frame (offset va)) else none

omit [DecidableEq ι] in
/-- A store; a page fault changes nothing. -/
def store (s : Mmu ι) (byUser : Bool) (va : UInt32) (b : UInt8) : Option (Mmu ι) :=
  match lookup (s.table kernel) s.tlb (pageIndex va) with
  | none => some s
  | some m =>
      if permits m.user m.write byUser true then
        if m.frame = 0 ∧ reserved (offset va) then none
        else some { s with
          memory := Function.update s.memory m.frame
            (Function.update (s.memory m.frame) (offset va) b) }
      else some s

end Mmu

def Call.run : Call ι → PagingM ι Bool
  | .allocate d va => pagingAllocateUserPageFrame d va
  | .free d va => pagingFreeUserPageFrame d va

/-- `invlpg` -/
def flush (tlb : Fin 1024 → Option Mapping) : TlbEvent → Fin 1024 → Option Mapping
  | .invlpg va => Function.update tlb (pageIndex va) none

def Mmu.afterCall (s : Mmu ι) (c : Call ι) : Mmu ι :=
  { s with
    paging := (c.run s.paging).state
    tlb := (c.run s.paging).trace.foldl flush s.tlb }

def Mmu.afterMark (s : Mmu ι) (i : Fin 1024) (dirty : Bool) : Mmu ι :=
  { s with paging := s.paging.setEntry kernel i ((s.paging.directory kernel i).marked dirty) }

/-- The state after an event, if the model goes that far. -/
def Mmu.after (s : Mmu ι) : Event ι → Option (Mmu ι)
  | .fill i => some { s with tlb := Function.update s.tlb i (s.table kernel i) }
  | .evict i => some { s with tlb := Function.update s.tlb i none }
  | .mark i dirty => some (s.afterMark kernel i dirty)
  | .store byUser va b => s.store kernel reserved byUser va b
  | .call c => some (s.afterCall c)

/-- The state after several. -/
def Mmu.run (s : Mmu ι) (es : List (Event ι)) : Option (Mmu ι) :=
  es.foldlM (Mmu.after kernel reserved) s

/-! ## The mirror -/

/-- What may be done in a region. -/
structure Access where
  user : Bool
  write : Bool
deriving DecidableEq

/-- One page of 4 MiB that shows in every region that is there, and the number of regions for which
there still are frames. -/
@[ext] structure Mirror (ι : Type) where
  regions : ι → Fin 1024 → Option Access
  free : Nat
  page : UInt32 → UInt8

/-- The region `i` of one directory is changed. -/
def Mirror.setRegion (v : Mirror ι) (d : ι) (i : Fin 1024) (a : Option Access) : Mirror ι :=
  { v with regions := Function.update v.regions d (Function.update (v.regions d) i a) }

omit [DecidableEq ι] in
def Mirror.load (v : Mirror ι) (byUser : Bool) (va : UInt32) : Option UInt8 :=
  (v.regions kernel (pageIndex va)).bind fun a =>
    if permits a.user a.write byUser false then some (v.page (offset va)) else none

omit [DecidableEq ι] in
def Mirror.store (v : Mirror ι) (byUser : Bool) (va : UInt32) (b : UInt8) : Mirror ι :=
  match v.regions kernel (pageIndex va) with
  | none => v
  | some a =>
      if permits a.user a.write byUser true then
        { v with page := Function.update v.page (offset va) b }
      else v

/-- What happens to the mirror.  A new region shows the page as it is. -/
def Mirror.after (v : Mirror ι) : Event ι → Mirror ι
  | .fill _ | .evict _ | .mark _ _ => v
  | .store byUser va b => v.store kernel byUser va b
  | .call (.allocate d va) =>
      if 0 < v.free then
        { v.setRegion d (pageIndex va) (some ⟨true, true⟩) with free := v.free - 1 }
      else v
  | .call (.free d va) =>
      if (v.regions d (pageIndex va)).isSome then
        { v.setRegion d (pageIndex va) none with free := v.free + 1 }
      else v

omit [DecidableEq ι] in
def PageDirectoryEntry.access (entry : PageDirectoryEntry) : Option Access :=
  if entry.Present then some ⟨entry.flag.userBit, entry.flag.writeBit⟩ else none

omit [DecidableEq ι] in
/-- The memory as it shows. -/
def Mmu.view (s : Mmu ι) : Mirror ι where
  regions d i := (s.paging.directory d i).access
  free := s.paging.pageManagerState.freePageFrameCount.toNat
  page := s.memory 0

/-! ## Invariants -/

/-- The processor takes frame 0 from the entry, which is one of a page of 4 MiB if it is
present. -/
structure PageDirectoryEntry.Plain (entry : PageDirectoryEntry) : Prop where
  base : entry.higherAddress = 0
  large : entry.Present → entry.flag.pageSizeBit = true

/-- Frames have one owner, the TLB holds copies, and all entries are plain. -/
structure Works (s : Mmu ι) : Prop where
  frames : Frames s.paging
  coherent : Coherent (s.table kernel) s.tlb
  plain : ∀ i, (s.paging.directory kernel i).Plain

section Entries

variable {entry : PageDirectoryEntry}

theorem plain_zero : PageDirectoryEntry.zero.Plain :=
  ⟨rfl, fun h => absurd h zero_not_present⟩

theorem PageDirectoryEntry.Plain.userEntry
    (h : entry.Plain)
    (i : Fin 32) :
    (userEntry entry i).Plain :=
  ⟨h.base, fun _ => rfl⟩

theorem PageDirectoryEntry.Plain.marked
    (h : entry.Plain)
    (dirty : Bool) :
    (entry.marked dirty).Plain :=
  ⟨h.base, h.large⟩

/-- All pages are frame 0. -/
theorem PageDirectoryEntry.Plain.mapping
    (h : entry.Plain) :
    entry.mapping = entry.access.map fun a => ⟨0, a.user, a.write⟩ := by
  rw [PageDirectoryEntry.mapping, PageDirectoryEntry.access]
  by_cases hpresent : entry.Present
  · rw [if_pos ⟨hpresent, h.large hpresent⟩, if_pos hpresent, h.base]
    rfl
  · rw [if_neg fun hboth => hpresent hboth.1, if_neg hpresent]
    rfl

theorem access_isSome_iff :
    entry.access.isSome ↔ entry.Present := by
  rw [PageDirectoryEntry.access]
  split_ifs with h <;> simp [h]

end Entries

section Accesses

variable {kernel reserved} {s : Mmu ι}

omit [DecidableEq ι] in
/-- What the processor finds for an address. -/
theorem Works.lookup
    (h : Works kernel s)
    (va : UInt32) :
    Lookaside.lookup (s.table kernel) s.tlb (pageIndex va) =
      ((s.view).regions kernel (pageIndex va)).map fun a => ⟨0, a.user, a.write⟩ := by
  rw [h.coherent.lookup_eq, Mmu.table, (h.plain _).mapping]
  rfl

omit [DecidableEq ι] in
/-- **What is loaded is what the mirror shows.** -/
theorem load_mirror
    (h : Works kernel s)
    (byUser : Bool)
    (va : UInt32) :
    s.load kernel byUser va = s.view.load kernel byUser va := by
  rw [Mmu.load, h.lookup, Mirror.load]
  cases s.view.regions kernel (pageIndex va) with
  | none => rfl
  | some a => rfl

omit [DecidableEq ι] in
/-- A store changes the page in the place that it is about. -/
theorem store_mirror
    {s' : Mmu ι}
    (h : Works kernel s)
    {byUser : Bool}
    {va : UInt32}
    {b : UInt8}
    (hs' : s.store kernel reserved byUser va b = some s') :
    s'.paging = s.paging ∧ s'.tlb = s.tlb ∧ s'.view = s.view.store kernel byUser va b := by
  rw [Mmu.store, h.lookup] at hs'
  rw [Mirror.store]
  cases ha : s.view.regions kernel (pageIndex va) with
  | none =>
      rw [ha] at hs'
      cases hs'
      exact ⟨rfl, rfl, rfl⟩
  | some a =>
      rw [ha, Option.map_some] at hs'
      dsimp only at hs' ⊢
      split_ifs at hs' ⊢
      · cases hs'
        refine ⟨rfl, rfl, Mirror.ext rfl rfl ?_⟩
        show Function.update s.memory 0 (Function.update (s.memory 0) (offset va) b) 0 = _
        rw [Function.update_self]
        rfl
      · cases hs'
        exact ⟨rfl, rfl, rfl⟩

omit [DecidableEq ι] in
/-- The model follows a store to any other place. -/
theorem Works.stores
    (h : Works kernel s)
    {byUser : Bool}
    {va : UInt32}
    {b : UInt8}
    (hplace : ¬ reserved (offset va)) :
    ∃ s', s.store kernel reserved byUser va b = some s' := by
  rw [Mmu.store, h.lookup]
  cases s.view.regions kernel (pageIndex va) with
  | none => exact ⟨_, rfl⟩
  | some a =>
      rw [Option.map_some]
      dsimp only
      split_ifs with hpermits hthere
      · exact absurd hthere.2 hplace
      · exact ⟨_, rfl⟩
      · exact ⟨_, rfl⟩

end Accesses

/-! ## Calls -/

section Calls

variable {kernel} {s : Mmu ι} {d : ι} {va : UInt32}

/-- The entry of one region of one directory has changed, and the region is flushed. -/
theorem Works.change
    {p : Paging ι}
    {entry : PageDirectoryEntry}
    (h : Works kernel s)
    (hframes : Frames p)
    (hplain : (s.paging.directory d (pageIndex va)).Plain → entry.Plain)
    (hdirectory : ∀ e j, p.directory e j =
      if (e, j) = (d, pageIndex va) then entry else s.paging.directory e j) :
    Works kernel ⟨p, Function.update s.tlb (pageIndex va) none, s.memory⟩ := by
  refine ⟨hframes, h.coherent.change fun j hj => ?_, fun j => ?_⟩
  · rw [Mmu.table, Mmu.table, hdirectory, if_neg fun heq => hj (Prod.ext_iff.mp heq).2]
  · show (p.directory kernel j).Plain
    rw [hdirectory]
    split_ifs with heq
    · obtain ⟨rfl, rfl⟩ := Prod.mk.inj heq
      exact hplain (h.plain _)
    · exact h.plain j

/-- Its access has changed with it. -/
theorem regions_setEntry
    (p : Paging ι)
    (d : ι)
    (i : Fin 1024)
    (entry : PageDirectoryEntry) :
    (fun e j => ((p.setEntry d i entry).directory e j).access) =
      Function.update (fun e j => (p.directory e j).access) d
        (Function.update (fun j => (p.directory d j).access) i entry.access) := by
  funext e j
  rw [setEntry_directory p (e, j)]
  by_cases he : e = d
  · subst he
    rw [Function.update_self]
    by_cases hj : j = i
    · subst hj
      rw [if_pos rfl, Function.update_self]
    · rw [if_neg fun heq => hj (Prod.ext_iff.mp heq).2, Function.update_of_ne hj]
  · rw [if_neg fun heq => he (Prod.ext_iff.mp heq).1, Function.update_of_ne he]

omit [DecidableEq ι] in
/-- There are frames for the mirror as long as there are frames. -/
theorem view_free_pos_iff
    (h : Works kernel s) :
    0 < s.view.free ↔ ¬ AllUsed s.paging := by
  rw [← count_pos_iff h.frames.counted, UInt32.lt_iff_toNat_lt]
  exact Iff.rfl

/-- Giving a frame to a region. -/
theorem allocate_mirror
    (h : Works kernel s)
    (d : ι)
    (va : UInt32) :
    Works kernel (s.afterCall (.allocate d va)) ∧
      (s.afterCall (.allocate d va)).view =
        s.view.after kernel (.call (.allocate d va)) := by
  rcases firstFree_or_allUsed s.paging with ⟨i, hi⟩ | hfull
  · have hframes := frames_after h.frames (.allocate d va)
    rw [after, allocate_frame d va hi] at hframes
    have hafter : s.afterCall (.allocate d va) =
        ⟨s.paging.mapped d va i, Function.update s.tlb (pageIndex va) none, s.memory⟩ := by
      rw [Mmu.afterCall, Call.run, allocate_frame d va hi]
      rfl
    have hpos : 0 < s.view.free :=
      (view_free_pos_iff h).mpr fun hall => absurd (hall i) (by rw [hi.1]; decide)
    have hone : (1 : UInt32) ≤ s.paging.pageManagerState.freePageFrameCount := by
      rw [UInt32.le_iff_toNat_le]
      exact hpos
    rw [hafter]
    refine ⟨h.change hframes (fun hp => hp.userEntry i)
      fun e j => setEntry_directory _ (e, j) _ _, ?_⟩
    rw [Mirror.after, if_pos hpos]
    exact Mirror.ext (regions_setEntry _ d (pageIndex va) _)
      (UInt32.toNat_sub_of_le _ _ hone) rfl
  · have hafter : s.afterCall (.allocate d va) = s := by
      rw [Mmu.afterCall, Call.run, allocate_full d va hfull]
      rfl
    rw [hafter, Mirror.after, if_neg fun hpos => (view_free_pos_iff h).mp hpos hfull]
    exact ⟨h, rfl⟩

/-- Taking it back. -/
theorem free_mirror
    (h : Works kernel s)
    (d : ι)
    (va : UInt32) :
    Works kernel (s.afterCall (.free d va)) ∧
      (s.afterCall (.free d va)).view = s.view.after kernel (.call (.free d va)) := by
  have hsome : ((s.view).regions d (pageIndex va)).isSome ↔
      (s.paging.directory d (pageIndex va)).Present := access_isSome_iff
  by_cases hpresent : (s.paging.directory d (pageIndex va)).Present
  · obtain ⟨i, hframe, hmark⟩ := h.frames.marked hpresent
    have hframes := frames_after h.frames (.free d va)
    rw [after, free_mapped hpresent hframe hmark] at hframes
    have hafter : s.afterCall (.free d va) =
        ⟨s.paging.unmapped d va i, Function.update s.tlb (pageIndex va) none, s.memory⟩ := by
      rw [Mmu.afterCall, Call.run, free_mapped hpresent hframe hmark]
      rfl
    have hcount : s.paging.pageManagerState.freePageFrameCount.toNat ≤ 32 := by
      rw [h.frames.counted]
      exact Finset.card_le_univ _
    rw [hafter]
    refine ⟨h.change hframes (fun _ => plain_zero)
      fun e j => setEntry_directory _ (e, j) _ _, ?_⟩
    rw [Mirror.after, if_pos (hsome.mpr hpresent)]
    refine Mirror.ext (regions_setEntry _ d (pageIndex va) _) ?_ rfl
    show (s.paging.pageManagerState.freePageFrameCount + 1).toNat =
      s.paging.pageManagerState.freePageFrameCount.toNat + 1
    rw [UInt32.toNat_add, UInt32.toNat_one]
    omega
  · have hafter : s.afterCall (.free d va) = s := by
      rw [Mmu.afterCall, Call.run, free_absent hpresent]
      rfl
    rw [hafter, Mirror.after, if_neg fun hs => hpresent (hsome.mp hs)]
    exact ⟨h, rfl⟩

end Calls

/-! ## Runs -/

section Runs

variable {kernel reserved} {s : Mmu ι}

/-- The marks of the processor are not about frames. -/
theorem marked_frames
    {p : Paging ι}
    (h : Frames p)
    (i : Fin 1024)
    (dirty : Bool) :
    Frames (p.setEntry kernel i ((p.directory kernel i).marked dirty)) := by
  have hholds : (ledger (p.setEntry kernel i ((p.directory kernel i).marked dirty))).holds =
      (ledger p).holds := by
    funext k
    by_cases hk : k = (kernel, i)
    · simp only [ledger, setEntry_directory p k, if_pos hk]
      rw [hk]
      rfl
    · simp only [ledger, setEntry_directory p k, if_neg hk]
  have hledger : ledger (p.setEntry kernel i ((p.directory kernel i).marked dirty)) = ledger p :=
    Ledger.ext hholds rfl
  refine ⟨?_, h.counted⟩
  rw [hledger]
  exact h.sound

/-- They do not show. -/
theorem marked_mirror
    (h : Works kernel s)
    (i : Fin 1024)
    (dirty : Bool) :
    Works kernel (s.afterMark kernel i dirty) ∧
      (s.afterMark kernel i dirty).view = s.view := by
  have hentry : ∀ e j, (s.afterMark kernel i dirty).paging.directory e j =
      if (e, j) = (kernel, i) then (s.paging.directory kernel i).marked dirty
      else s.paging.directory e j := fun e j => setEntry_directory _ (e, j) _ _
  have htable : (s.afterMark kernel i dirty).table kernel = s.table kernel := by
    funext j
    rw [Mmu.table, hentry]
    split_ifs with hj
    · obtain rfl := (Prod.ext_iff.mp hj).2
      rfl
    · rfl
  refine ⟨⟨marked_frames h.frames i dirty, ?_, fun j => ?_⟩, Mirror.ext ?_ rfl rfl⟩
  · rw [htable]
    exact h.coherent
  · rw [hentry]
    split_ifs
    · exact (h.plain i).marked dirty
    · exact h.plain j
  · funext e j
    show ((s.afterMark kernel i dirty).paging.directory e j).access =
      (s.paging.directory e j).access
    rw [hentry]
    split_ifs with hj
    · obtain ⟨rfl, rfl⟩ := Prod.mk.inj hj
      rfl
    · rfl

/-- **Every step is a step of the mirror.** -/
theorem step_mirror
    {s' : Mmu ι}
    (h : Works kernel s)
    {e : Event ι}
    (hs' : s.after kernel reserved e = some s') :
    Works kernel s' ∧ s'.view = s.view.after kernel e := by
  cases e with
  | fill i =>
      cases hs'
      exact ⟨⟨h.frames, h.coherent.fill i, h.plain⟩, rfl⟩
  | evict i =>
      cases hs'
      exact ⟨⟨h.frames, h.coherent.drop i, h.plain⟩, rfl⟩
  | mark i dirty =>
      cases hs'
      exact marked_mirror h i dirty
  | store byUser va b =>
      obtain ⟨hpaging, htlb, hview⟩ := store_mirror h hs'
      have htable : s'.table kernel = s.table kernel := by
        funext i
        rw [Mmu.table, Mmu.table, hpaging]
      refine ⟨⟨?_, ?_, fun i => ?_⟩, hview⟩
      · rw [hpaging]
        exact h.frames
      · rw [htable, htlb]
        exact h.coherent
      · rw [hpaging]
        exact h.plain i
  | call c =>
      cases hs'
      cases c with
      | allocate d va => exact allocate_mirror h d va
      | free d va => exact free_mirror h d va

theorem run_works
    {s' : Mmu ι}
    (h : Works kernel s)
    {es : List (Event ι)}
    (hs' : s.run kernel reserved es = some s') :
    Works kernel s' ∧ s'.view = es.foldl (Mirror.after kernel) s.view := by
  induction es generalizing s with
  | nil =>
      cases hs'
      exact ⟨h, rfl⟩
  | cons e es ih =>
      rw [Mmu.run, List.foldlM_cons] at hs'
      obtain ⟨s₁, hfirst, hrest⟩ := Option.bind_eq_some_iff.mp hs'
      obtain ⟨hworks, hstep⟩ := step_mirror h hfirst
      rw [List.foldl_cons, ← hstep]
      exact ih hworks hrest

end Runs

/-! ## The start -/

/-- `_paging_kernel_page_directory` as it is linked, with the identity mapping for the loader. -/
def linkedDirectory : PageDirectory := Function.update bootDirectory 0 kernelEntry

/-- Paging has just been switched on. -/
structure Linked (s : Mmu ι) : Prop where
  manager : s.paging.pageManagerState = bootPageManagerState
  directory : s.paging.directory kernel = linkedDirectory
  absent : ∀ d i, d ≠ kernel → ¬ (s.paging.directory d i).Present
  coherent : Coherent (s.table kernel) s.tlb

/-- `loader_virtual` deletes the identity mapping. -/
def loaderVirtual (s : Mmu ι) : Mmu ι :=
  { s with
    paging := s.paging.setEntry kernel 0 PageDirectoryEntry.zero
    tlb := flush s.tlb (.invlpg 0) }

/-- The mirror then: the page shows in the region of the kernel, for the kernel only. -/
def bootMirror (memory : Nat → UInt32 → UInt8) : Mirror ι where
  regions d i := if d = kernel ∧ i = kernelIndex then some ⟨false, true⟩ else none
  free := 31
  page := memory 0

section Start

variable {kernel reserved} {s : Mmu ι}

theorem Linked.directory_boot
    (h : Linked kernel s) :
    (loaderVirtual kernel s).paging.directory kernel = bootDirectory := by
  have hzero : bootDirectory 0 = PageDirectoryEntry.zero := rfl
  rw [loaderVirtual, Paging.setEntry]
  show Function.update s.paging.directory kernel
    (Function.update (s.paging.directory kernel) 0 PageDirectoryEntry.zero) kernel = _
  rw [Function.update_self, h.directory, linkedDirectory, Function.update_idem, ← hzero,
    Function.update_eq_self]

theorem Linked.absent_other
    (h : Linked kernel s)
    {d : ι}
    {i : Fin 1024}
    (hne : ¬ (d = kernel ∧ i = kernelIndex)) :
    ¬ ((loaderVirtual kernel s).paging.directory d i).Present := by
  by_cases hd : d = kernel
  · subst hd
    have hi : i ≠ kernelIndex := fun hi => hne ⟨rfl, hi⟩
    rw [h.directory_boot, bootDirectory, Function.update_of_ne hi]
    exact zero_not_present
  · have hother : (loaderVirtual kernel s).paging.directory d = s.paging.directory d :=
      Function.update_of_ne hd _ _
    rw [hother]
    exact h.absent d i hd

theorem Linked.newPaging
    (h : Linked kernel s) :
    NewPaging kernel (loaderVirtual kernel s).paging := by
  have hboot := h.directory_boot
  refine ⟨h.manager, ?_, ?_, fun d i hne => h.absent_other hne⟩
  · rw [hboot]
    decide
  · rw [hboot]
    decide

theorem plain_bootDirectory (i : Fin 1024) : (bootDirectory i).Plain := by
  by_cases hi : i = kernelIndex
  · rw [hi, bootDirectory, Function.update_self]
    exact ⟨rfl, fun _ => rfl⟩
  · rw [bootDirectory, Function.update_of_ne hi]
    exact plain_zero

theorem Linked.works
    (h : Linked kernel s) :
    Works kernel (loaderVirtual kernel s) := by
  refine ⟨h.newPaging.frames, h.coherent.change fun j hj => ?_, fun i => ?_⟩
  · have hindex : pageIndex 0 = 0 := rfl
    rw [hindex] at hj
    rw [Mmu.table, Mmu.table, h.directory_boot, h.directory, linkedDirectory,
      Function.update_of_ne hj]
  · rw [h.directory_boot]
    exact plain_bootDirectory i

theorem Linked.view
    (h : Linked kernel s) :
    (loaderVirtual kernel s).view = bootMirror kernel s.memory := by
  refine Mirror.ext ?_ ?_ rfl
  · funext d i
    show ((loaderVirtual kernel s).paging.directory d i).access =
      if d = kernel ∧ i = kernelIndex then some ⟨false, true⟩ else none
    split_ifs with hboot
    · rw [hboot.1, hboot.2, h.directory_boot]
      rfl
    · exact if_neg (h.absent_other hboot)
  · show s.paging.pageManagerState.freePageFrameCount.toNat = 31
    rw [h.manager]
    rfl

/-- **Whatever programs, the kernel and the processor do, the memory is one page in a mirror.** -/
theorem run_mirror
    (h : Linked kernel s)
    {es : List (Event ι)}
    {s' : Mmu ι}
    (hs' : (loaderVirtual kernel s).run kernel reserved es = some s') :
    s'.view = es.foldl (Mirror.after kernel) (bootMirror kernel s.memory) ∧
      ∀ byUser va, ¬ reserved (offset va) → s'.load kernel byUser va =
        (es.foldl (Mirror.after kernel) (bootMirror kernel s.memory)).load kernel byUser va := by
  obtain ⟨hworks, hview⟩ := run_works h.works hs'
  rw [h.view] at hview
  rw [← hview]
  exact ⟨rfl, fun byUser va _ => load_mirror hworks byUser va⟩

end Start

/-! ## The memory of the kernel -/

/-- The kernel does not take back its own region. -/
def KeepsKernelRegion (e : Event ι) : Prop :=
  ∀ va, e = .call (.free kernel va) → pageIndex va ≠ kernelIndex

omit [DecidableEq ι] in
/-- The region is there for programs. -/
def Mirror.userRegion (v : Mirror ι) (i : Fin 1024) : Bool :=
  (v.regions kernel i).any Access.user

/-- The region of the kernel is there, and whoever may load may store. -/
structure Exposed (v : Mirror ι) : Prop where
  kernelRegion : (v.regions kernel kernelIndex).isSome
  writable : ∀ i a, v.regions kernel i = some a → a.write = true

section Shared

variable {kernel reserved} {s : Mmu ι} {v : Mirror ι}

omit [DecidableEq ι] in
theorem Mirror.store_regions
    (v : Mirror ι)
    (byUser : Bool)
    (va : UInt32)
    (b : UInt8) :
    (v.store kernel byUser va b).regions = v.regions := by
  rw [Mirror.store]
  split
  · rfl
  · split_ifs
    · rfl
    · rfl

theorem Mirror.setRegion_regions
    (v : Mirror ι)
    (d e : ι)
    (i j : Fin 1024)
    (a : Option Access) :
    (v.setRegion d i a).regions e j = if (e, j) = (d, i) then a else v.regions e j := by
  rw [Mirror.setRegion]
  by_cases he : e = d
  · subst he
    show Function.update v.regions e (Function.update (v.regions e) i a) e j = _
    rw [Function.update_self]
    by_cases hj : j = i
    · subst hj
      rw [if_pos rfl, Function.update_self]
    · rw [if_neg fun heq => hj (Prod.mk.inj heq).2, Function.update_of_ne hj]
  · show Function.update v.regions d (Function.update (v.regions d) i a) e j = _
    rw [if_neg fun heq => he (Prod.mk.inj heq).1, Function.update_of_ne he]

/-- A region is changed that is not the kernel's, or is there afterwards. -/
theorem Exposed.setRegion
    (h : Exposed kernel v)
    {d : ι}
    {i : Fin 1024}
    {a : Option Access}
    {n : Nat}
    (hkernel : d = kernel ∧ i = kernelIndex → a.isSome)
    (hwrite : ∀ x, a = some x → x.write = true) :
    Exposed kernel { v.setRegion d i a with free := n } := by
  refine ⟨?_, fun j x hx => ?_⟩
  · show ((v.setRegion d i a).regions kernel kernelIndex).isSome
    rw [Mirror.setRegion_regions]
    split_ifs with heq
    · exact hkernel ⟨(Prod.mk.inj heq).1.symm, (Prod.mk.inj heq).2.symm⟩
    · exact h.kernelRegion
  · have hregion : (v.setRegion d i a).regions kernel j = some x := hx
    rw [Mirror.setRegion_regions] at hregion
    split_ifs at hregion
    · exact hwrite x hregion
    · exact h.writable j x hregion

theorem Exposed.after
    (h : Exposed kernel v)
    {e : Event ι}
    (he : KeepsKernelRegion kernel e) :
    Exposed kernel (v.after kernel e) := by
  cases e with
  | fill i => exact h
  | evict i => exact h
  | mark i dirty => exact h
  | store byUser va b =>
      have hregions : (v.store kernel byUser va b).regions = v.regions :=
        Mirror.store_regions v byUser va b
      exact ⟨by rw [Mirror.after, hregions]; exact h.kernelRegion,
        by rw [Mirror.after, hregions]; exact h.writable⟩
  | call c =>
      cases c with
      | allocate d va =>
          rw [Mirror.after]
          split_ifs
          · exact h.setRegion (fun _ => rfl) fun a ha => by rw [← Option.some_inj.mp ha]
          · exact h
      | free d va =>
          rw [Mirror.after]
          split_ifs
          · refine h.setRegion (fun hboth => ?_) fun a ha => by cases ha
            rw [hboth.1] at he
            exact absurd hboth.2 (he va rfl)
          · exact h

theorem Exposed.foldl
    (h : Exposed kernel v)
    {es : List (Event ι)}
    (hes : ∀ e, e ∈ es → KeepsKernelRegion kernel e) :
    Exposed kernel (es.foldl (Mirror.after kernel) v) := by
  induction es generalizing v with
  | nil => exact h
  | cons e es ih =>
      exact ih (h.after (hes e (List.mem_cons_self ..)))
        fun e' he' => hes e' (List.mem_cons_of_mem _ he')

theorem exposed_boot (memory : Nat → UInt32 → UInt8) :
    Exposed kernel (bootMirror kernel memory) := by
  refine ⟨?_, fun i a ha => ?_⟩
  · have hboot : (bootMirror kernel memory).regions kernel kernelIndex = some ⟨false, true⟩ :=
      if_pos ⟨rfl, rfl⟩
    rw [hboot]
    rfl
  · rw [bootMirror] at ha
    dsimp only at ha
    split_ifs at ha
    rw [← Option.some_inj.mp ha]

omit [DecidableEq ι] in
/-- The kernel reads the page in its region. -/
theorem Exposed.load_kernel
    (h : Exposed kernel v)
    {ka : UInt32}
    (hka : pageIndex ka = kernelIndex) :
    v.load kernel false ka = some (v.page (offset ka)) := by
  obtain ⟨a, ha⟩ := Option.isSome_iff_exists.mp h.kernelRegion
  rw [Mirror.load, hka, ha]
  rfl

omit [DecidableEq ι] in
/-- Programs read it in theirs. -/
theorem load_program
    (v : Mirror ι)
    (va : UInt32) :
    v.load kernel true va =
      if v.userRegion kernel (pageIndex va) then some (v.page (offset va)) else none := by
  rw [Mirror.load, Mirror.userRegion]
  cases v.regions kernel (pageIndex va) with
  | none => rfl
  | some a =>
      obtain ⟨user, write⟩ := a
      cases user
      · rfl
      · rfl

omit [DecidableEq ι] in
theorem Exposed.store_program
    (h : Exposed kernel v)
    {va : UInt32}
    (huser : v.userRegion kernel (pageIndex va) = true)
    (b : UInt8) :
    v.store kernel true va b = { v with page := Function.update v.page (offset va) b } := by
  rw [Mirror.userRegion] at huser
  rw [Mirror.store]
  cases ha : v.regions kernel (pageIndex va) with
  | none => rw [ha] at huser; cases huser
  | some a =>
      rw [ha] at huser
      have hpermits : permits a.user a.write true true = true := by
        rw [h.writable _ a ha, show a.user = true from huser]
        rfl
      exact if_pos hpermits

/-- **A program that has been given a frame reads all memory of the kernel, and writes it.** -/
theorem kernel_exposed
    (h : Linked kernel s)
    {es : List (Event ι)}
    (hes : ∀ e, e ∈ es → KeepsKernelRegion kernel e)
    {s' : Mmu ι}
    (hs' : (loaderVirtual kernel s).run kernel reserved es = some s')
    {va ka : UInt32}
    (hka : pageIndex ka = kernelIndex)
    (hoffset : offset ka = offset va) :
    (∃ b, s'.load kernel false ka = some b ∧
        s'.load kernel true va =
          if s'.view.userRegion kernel (pageIndex va) then some b else none) ∧
      (s'.view.userRegion kernel (pageIndex va) = true → ¬ reserved (offset va) →
        ∀ b, ∃ s'', s'.store kernel reserved true va b = some s'' ∧
          s''.load kernel false ka = some b) := by
  obtain ⟨hworks, hview⟩ := run_works h.works hs'
  rw [h.view] at hview
  have hexposed : Exposed kernel s'.view := by
    rw [hview]
    exact (exposed_boot s.memory).foldl hes
  constructor
  · refine ⟨s'.view.page (offset ka), ?_, ?_⟩
    · rw [load_mirror hworks, hexposed.load_kernel hka]
    · rw [load_mirror hworks, load_program, hoffset]
  · intro huser hplace b
    obtain ⟨s'', hstored⟩ : ∃ s'', s'.store kernel reserved true va b = some s'' :=
      hworks.stores hplace
    refine ⟨s'', hstored, ?_⟩
    obtain ⟨hworks', hstep⟩ := step_mirror (e := .store true va b) hworks hstored
    have hmirror := hstep.trans (hexposed.store_program huser b)
    have hexposed' : Exposed kernel s''.view := by
      rw [hmirror]
      exact ⟨hexposed.kernelRegion, hexposed.writable⟩
    rw [load_mirror hworks', hexposed'.load_kernel hka, hmirror, hoffset]
    exact congrArg some (Function.update_self ..)

end Shared

end Translation

/-- The kernel has just been entered; the TLB holds the identity mapping. -/
def linkedMmu : Mmu Unit where
  paging := ⟨bootPageManagerState, fun _ => linkedDirectory⟩
  tlb := Function.update (fun _ => none) 0 kernelEntry.mapping
  memory _ _ := 0

theorem linkedMmu_linked : Linked () linkedMmu where
  manager := rfl
  directory := rfl
  absent d i hd := absurd rfl hd
  coherent := by
    intro j m hj
    by_cases hzero : j = 0
    · subst hzero
      exact hj
    · have hnone : Function.update (fun _ => none) 0 kernelEntry.mapping j = none :=
        Function.update_of_ne hzero _ _
      cases hj.symm.trans hnone

/-- The first page of the program is allocated and written, freed and allocated again. -/
def pageEvents : List (Event Unit) :=
  [.call (.allocate () 0), .fill 0, .store true 5 7, .mark 0 true, .call (.free () 0),
    .call (.allocate () 0x400000)]

/-- The devices and the kernel are behind the first 640 KiB. -/
def aboveBase (a : UInt32) : Prop := 0xA0000 ≤ a

instance : DecidablePred aboveBase := fun _ => inferInstanceAs (Decidable (_ ≤ _))

/-- The state at the end. -/
def pagedMmu : Mmu Unit :=
  ((loaderVirtual () linkedMmu).run () aboveBase pageEvents).get (by decide +kernel)

theorem run_pageEvents :
    (loaderVirtual () linkedMmu).run () aboveBase pageEvents = some pagedMmu :=
  (Option.some_get _).symm

theorem run_mirror_pageEvents :
    pagedMmu.view = pageEvents.foldl (Mirror.after ()) (bootMirror () linkedMmu.memory) ∧
      ∀ byUser va, ¬ aboveBase (offset va) → pagedMmu.load () byUser va =
        (pageEvents.foldl (Mirror.after ()) (bootMirror () linkedMmu.memory)).load () byUser va :=
  run_mirror linkedMmu_linked run_pageEvents

/-- What the program stored stands in the memory of the kernel. -/
example : pagedMmu.load () false 0xC0000005 = some 7 := by decide +kernel

theorem keepsKernelRegion_pageEvents :
    ∀ e, e ∈ pageEvents → KeepsKernelRegion () e := by
  intro e he va hva
  rw [hva] at he
  simp only [pageEvents, List.mem_cons, List.not_mem_nil, or_false, reduceCtorEq, false_or,
    Event.call.injEq, Call.free.injEq, true_and] at he
  rw [he]
  decide

theorem kernel_exposed_pageEvents :
    (∃ b, pagedMmu.load () false 0xC0000006 = some b ∧
        pagedMmu.load () true 0x400006 = some b) ∧
      ∀ b, ∃ s, pagedMmu.store () aboveBase true 0x400006 b = some s ∧
        s.load () false 0xC0000006 = some b := by
  have huser : pagedMmu.view.userRegion () (pageIndex 0x400006) = true := by decide +kernel
  have hka : pageIndex 0xC0000006 = kernelIndex := by decide
  have hoffset : offset 0xC0000006 = offset 0x400006 := by decide
  obtain ⟨⟨b, hkernel, hprogram⟩, hstore⟩ := kernel_exposed linkedMmu_linked
    keepsKernelRegion_pageEvents run_pageEvents hka hoffset
  rw [if_pos huser] at hprogram
  exact ⟨⟨b, hkernel, hprogram⟩, hstore huser (by decide)⟩

end Memory
end OS2024
