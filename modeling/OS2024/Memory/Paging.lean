import Mathlib.Data.Fin.Basic
import Mathlib.Tactic
import OS2024.Lib.Traced

/-!
# `paging.c`: page frames and page directories

A page directory maps each of its 1024 regions of 4 MiB to a page frame.  The page manager
knows the 32 frames of the memory: which of them are used, and how many are free.  The
directories are a family, because all of them share the one page manager.

Giving a directory a frame, or taking it back, flushes the address from the TLB, which is
recorded as an event.  An access outside `page_frame_map` is a fault.

**Results.**
* `allocate_frame`, `allocate_full`, `free_mapped`, `free_absent`: how the operations run.
-/

namespace OS2024
namespace Memory

open TracedState

/-- `struct PageDirectoryEntryFlag` -/
structure PageDirectoryEntryFlag where
  presentBit : Bool
  writeBit : Bool
  userBit : Bool
  writeThroughBit : Bool
  cacheDisabledBit : Bool
  accessedBit : Bool
  dirtyBit : Bool
  pageSizeBit : Bool
deriving DecidableEq

/-- `struct PageDirectoryEntry` -/
structure PageDirectoryEntry where
  flag : PageDirectoryEntryFlag
  lowerAddress : BitVec 10
  reserved1 : BitVec 1
  available : BitVec 3
  higherAddress : BitVec 8
deriving DecidableEq

/-- The flags that no initializer names. -/
def PageDirectoryEntryFlag.zero : PageDirectoryEntryFlag :=
  ⟨false, false, false, false, false, false, false, false⟩

/-- `(struct PageDirectoryEntry){0}` -/
def PageDirectoryEntry.zero : PageDirectoryEntry :=
  ⟨PageDirectoryEntryFlag.zero, 0, 0, 0, 0⟩

/-- `struct PageDirectory` -/
abbrev PageDirectory := Fin 1024 → PageDirectoryEntry

/-- `struct PageManagerState` -/
structure PageManagerState where
  pageFrameMap : Fin 32 → Bool
  freePageFrameCount : UInt32

/-- The page manager and the page directories it serves. -/
structure Paging (ι : Type) where
  pageManagerState : PageManagerState
  directory : ι → PageDirectory

/-- What ends a paging operation abnormally. -/
inductive PagingFault
  /-- `page_frame_map[i]` with `i` outside the 32 entries. -/
  | pageFrameMapIndex (i : UInt32)
deriving DecidableEq

/-- What the operations ask of the processor. -/
inductive TlbEvent
  | invlpg (virtualAddr : UInt32)
deriving DecidableEq

/-- Paging operations on the directories `ι`. -/
abbrev PagingM (ι : Type) := Traced PagingFault (Paging ι) TlbEvent

/-- `PAGE_FRAME_SIZE` -/
def pageFrameSize : UInt32 := 0x400000

/-- The `page_index` of a virtual address. -/
def pageIndex (virtualAddr : UInt32) : Fin 1024 :=
  ⟨(virtualAddr >>> 22 &&& 0x3FF).toNat, by
    rw [UInt32.toNat_and]
    exact Nat.lt_of_le_of_lt Nat.and_le_right (by decide)⟩

/-- The bits that `lower_address` takes from a physical address. -/
def lowerAddressOf (physicalAddr : UInt32) : BitVec 10 :=
  BitVec.ofNat 10 (physicalAddr >>> 22 &&& 0x3FF).toNat

/-! ## The operations -/

section Operations

variable {ι : Type} [DecidableEq ι]

/-- The state with one entry of one directory replaced. -/
def Paging.setEntry (s : Paging ι) (pageDir : ι) (i : Fin 1024) (entry : PageDirectoryEntry) :
    Paging ι :=
  { s with
    directory := Function.update s.directory pageDir
      (Function.update (s.directory pageDir) i entry) }

omit [DecidableEq ι] in
/-- The state with the mark and the count of the page manager changed. -/
def Paging.setFrame (s : Paging ι) (i : Fin 32) (isUsed : Bool) (count : UInt32) : Paging ι :=
  { s with
    pageManagerState :=
      { pageFrameMap := Function.update s.pageManagerState.pageFrameMap i isUsed
        freePageFrameCount := count } }

def flushSingleTlb (virtualAddr : UInt32) : PagingM ι Unit :=
  fun s => ⟨.ok (), s, [TlbEvent.invlpg virtualAddr]⟩

def updatePageDirectoryEntry (pageDir : ι) (physicalAddr virtualAddr : UInt32)
    (flag : PageDirectoryEntryFlag) : PagingM ι Unit := do
  modifyState fun s =>
    s.setEntry pageDir (pageIndex virtualAddr)
      { s.directory pageDir (pageIndex virtualAddr) with
        flag := flag
        lowerAddress := lowerAddressOf physicalAddr }
  flushSingleTlb virtualAddr

/-- The flags of `paging_allocate_user_page_frame`. -/
def userPageFlag : PageDirectoryEntryFlag :=
  { PageDirectoryEntryFlag.zero with
    presentBit := true
    writeBit := true
    userBit := true
    pageSizeBit := true }

def pagingAllocateUserPageFrame (pageDir : ι) (virtualAddr : UInt32) : PagingM ι Bool := do
  let s ← getState
  match Fin.find? fun i => !s.pageManagerState.pageFrameMap i with
  | none => return false
  | some i =>
      modifyState fun s => s.setFrame i true (s.pageManagerState.freePageFrameCount - 1)
      updatePageDirectoryEntry pageDir (UInt32.ofNat i * pageFrameSize) virtualAddr userPageFlag
      return true

/-- The physical address of an entry. -/
def PageDirectoryEntry.physicalAddr (entry : PageDirectoryEntry) : UInt32 :=
  UInt32.ofNat entry.lowerAddress.toNat <<< 22

def pagingFreeUserPageFrame (pageDir : ι) (virtualAddr : UInt32) : PagingM ι Bool := do
  let s ← getState
  let entry := s.directory pageDir (pageIndex virtualAddr)
  if entry.flag.presentBit then
    let frame := entry.physicalAddr / pageFrameSize
    if h : frame.toNat < 32 then
      if s.pageManagerState.pageFrameMap ⟨frame.toNat, h⟩ then
        modifyState fun s =>
          s.setFrame ⟨frame.toNat, h⟩ false (s.pageManagerState.freePageFrameCount + 1)
        modifyState fun s => s.setEntry pageDir (pageIndex virtualAddr) PageDirectoryEntry.zero
        flushSingleTlb virtualAddr
        return true
      else return false
    else fault (PagingFault.pageFrameMapIndex frame)
  else return false

end Operations

/-! ## The boot state -/

/-- The entry for the 4 MiB region of the kernel. -/
def kernelIndex : Fin 1024 := ⟨0x300, by decide⟩

/-- The frame that the kernel is loaded into. -/
def kernelFrame : Fin 32 := ⟨0, by decide⟩

/-- The entry `[0x300]` of `_paging_kernel_page_directory`. -/
def kernelEntry : PageDirectoryEntry :=
  { PageDirectoryEntry.zero with
    flag := { PageDirectoryEntryFlag.zero with
      presentBit := true
      writeBit := true
      pageSizeBit := true } }

/-- `_paging_kernel_page_directory` once the entry point has cleared entry 0. -/
def bootDirectory : PageDirectory :=
  Function.update (fun _ => PageDirectoryEntry.zero) kernelIndex kernelEntry

/-- The initial `page_manager_state`. -/
def bootPageManagerState : PageManagerState where
  pageFrameMap := fun i => decide (i.val = 0)
  freePageFrameCount := 31

/-! ## Running the operations -/

/-- The number of the page frame that an entry has for `paging.c`. -/
def PageDirectoryEntry.frame (entry : PageDirectoryEntry) : Nat := entry.lowerAddress.toNat

/-- The entry is present. -/
def PageDirectoryEntry.Present (entry : PageDirectoryEntry) : Prop :=
  entry.flag.presentBit = true

instance (entry : PageDirectoryEntry) : Decidable entry.Present :=
  inferInstanceAs (Decidable (_ = true))

section Arithmetic

theorem frame_lt
    (entry : PageDirectoryEntry) :
    entry.frame < 1024 :=
  entry.lowerAddress.isLt

/-- Freeing recovers the frame number from the physical address. -/
theorem physicalAddr_div
    (entry : PageDirectoryEntry) :
    (entry.physicalAddr / pageFrameSize).toNat = entry.frame := by
  have hlt := frame_lt entry
  have hframe : (UInt32.ofNat entry.lowerAddress.toNat).toNat = entry.frame := by
    rw [UInt32.toNat_ofNat']
    exact Nat.mod_eq_of_lt (by rw [← PageDirectoryEntry.frame]; omega)
  rw [UInt32.toNat_div, PageDirectoryEntry.physicalAddr, UInt32.toNat_shiftLeft, hframe,
    Nat.shiftLeft_eq]
  have hsize : pageFrameSize.toNat = 4194304 := rfl
  have hpow : 2 ^ ((22 : UInt32).toNat % 32) = 4194304 := rfl
  rw [hsize, hpow]
  omega

/-- The shift and the mask recover the number of a 4 MiB region from its address. -/
theorem shift_mask_mul
    {n : Nat}
    (hn : n < 1024) :
    ((UInt32.ofNat n * pageFrameSize) >>> 22 &&& 0x3FF).toNat = n := by
  have hmul : (UInt32.ofNat n * pageFrameSize).toNat = n * 4194304 := by
    rw [UInt32.toNat_mul, UInt32.toNat_ofNat']
    have hsize : pageFrameSize.toNat = 4194304 := rfl
    rw [hsize]
    omega
  have hshift : ((UInt32.ofNat n * pageFrameSize) >>> 22).toNat = n := by
    rw [UInt32.toNat_shiftRight, hmul, Nat.shiftRight_eq_div_pow]
    have hpow : 2 ^ ((22 : UInt32).toNat % 32) = 4194304 := rfl
    rw [hpow]
    omega
  rw [UInt32.toNat_and, hshift]
  have hones : (0x3FF : UInt32).toNat = 2 ^ 10 - 1 := rfl
  rw [hones, Nat.and_two_pow_sub_one_eq_mod]
  omega

/-- Allocating stores the number of the frame found. -/
theorem lowerAddressOf_frame
    (i : Fin 32) :
    (lowerAddressOf (UInt32.ofNat i * pageFrameSize)).toNat = i := by
  have hi := i.isLt
  rw [lowerAddressOf, shift_mask_mul (by omega), BitVec.toNat_ofNat]
  omega

/-- The lowest address of region `i`. -/
def regionAddr (i : Fin 1024) : UInt32 := UInt32.ofNat i * pageFrameSize

theorem pageIndex_regionAddr
    (i : Fin 1024) :
    pageIndex (regionAddr i) = i :=
  Fin.ext (shift_mask_mul i.isLt)

end Arithmetic

section Runs

variable {ι : Type} [DecidableEq ι] {s : Paging ι}

/-- Frame `i` is the first free one. -/
def FirstFree
    (s : Paging ι)
    (i : Fin 32) : Prop :=
  s.pageManagerState.pageFrameMap i = false ∧
    ∀ j, j < i → s.pageManagerState.pageFrameMap j = true

/-- Every frame is used. -/
def AllUsed
    (s : Paging ι) : Prop :=
  ∀ i, s.pageManagerState.pageFrameMap i = true

omit [DecidableEq ι] in
theorem find_free_eq_some
    {i : Fin 32} :
    (Fin.find? fun i => !s.pageManagerState.pageFrameMap i) = some i ↔ FirstFree s i := by
  rw [Fin.find?_eq_some_iff]
  simp [FirstFree]

omit [DecidableEq ι] in
theorem find_free_eq_none :
    (Fin.find? fun i => !s.pageManagerState.pageFrameMap i) = none ↔ AllUsed s := by
  rw [Fin.find?_eq_none_iff]
  simp [AllUsed]

omit [DecidableEq ι] in
theorem firstFree_or_allUsed
    (s : Paging ι) :
    (∃ i, FirstFree s i) ∨ AllUsed s := by
  cases hf : Fin.find? fun i => !s.pageManagerState.pageFrameMap i with
  | none => exact Or.inr (find_free_eq_none.mp hf)
  | some i => exact Or.inl ⟨i, find_free_eq_some.mp hf⟩

/-- The entry that an allocation of frame `i` leaves in the place of `entry`. -/
def userEntry
    (entry : PageDirectoryEntry)
    (i : Fin 32) :
    PageDirectoryEntry :=
  { entry with
    flag := userPageFlag
    lowerAddress := lowerAddressOf (UInt32.ofNat i * pageFrameSize) }

/-- The state after frame `i` was given to the region of an address. -/
def Paging.mapped
    (s : Paging ι)
    (d : ι)
    (va : UInt32)
    (i : Fin 32) :
    Paging ι :=
  (s.setFrame i true (s.pageManagerState.freePageFrameCount - 1)).setEntry d (pageIndex va)
    (userEntry (s.directory d (pageIndex va)) i)

/-- The state after frame `i` was taken from the region of an address. -/
def Paging.unmapped
    (s : Paging ι)
    (d : ι)
    (va : UInt32)
    (i : Fin 32) :
    Paging ι :=
  (s.setFrame i false (s.pageManagerState.freePageFrameCount + 1)).setEntry d (pageIndex va)
    PageDirectoryEntry.zero

theorem allocate_full
    (d : ι)
    (va : UInt32)
    (h : AllUsed s) :
    pagingAllocateUserPageFrame d va s = ⟨.ok false, s, []⟩ := by
  simp [pagingAllocateUserPageFrame, bind_apply, find_free_eq_none.mpr h, Outcome.prepend]

theorem allocate_frame
    (d : ι)
    (va : UInt32)
    {i : Fin 32}
    (h : FirstFree s i) :
    pagingAllocateUserPageFrame d va s =
      ⟨.ok true, s.mapped d va i, [TlbEvent.invlpg va]⟩ := by
  simp [pagingAllocateUserPageFrame, updatePageDirectoryEntry, flushSingleTlb, bind_apply,
    find_free_eq_some.mpr h, Outcome.prepend, Paging.mapped, userEntry, Paging.setFrame]

theorem free_absent
    {d : ι}
    {va : UInt32}
    (h : ¬ (s.directory d (pageIndex va)).Present) :
    pagingFreeUserPageFrame d va s = ⟨.ok false, s, []⟩ := by
  have hbit : ¬ (s.directory d (pageIndex va)).flag.presentBit = true := h
  simp [pagingFreeUserPageFrame, bind_apply, hbit, Outcome.prepend]

theorem free_mapped
    {d : ι}
    {va : UInt32}
    {i : Fin 32}
    (h : (s.directory d (pageIndex va)).Present)
    (hframe : (s.directory d (pageIndex va)).frame = i)
    (hmark : s.pageManagerState.pageFrameMap i = true) :
    pagingFreeUserPageFrame d va s =
      ⟨.ok true, s.unmapped d va i, [TlbEvent.invlpg va]⟩ := by
  have hbit : (s.directory d (pageIndex va)).flag.presentBit = true := h
  have hdiv := (physicalAddr_div (s.directory d (pageIndex va))).trans hframe
  have hi : (⟨_, hdiv ▸ i.isLt⟩ : Fin 32) = i := Fin.ext hdiv
  simp only [pagingFreeUserPageFrame, bind_apply, getState_apply, hbit, if_true,
    dif_pos (hdiv ▸ i.isLt), hi, hmark, modifyState_apply, flushSingleTlb, pure_apply,
    Outcome.prepend, List.nil_append, List.append_nil]
  rfl

end Runs

end Memory
end OS2024
