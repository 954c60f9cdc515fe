import OS2024.Memory.KernelMapping

/-!
# Frames that are never given back

An allocation overwrites the entry that its address selects.  When that entry was present,
its frame stays marked in the bitmap although no entry holds it any more, and no later call
gives it back.  Two addresses in the same 4 MiB region are enough.

**Results.**
* `ledger_freeAll`: a list of deallocations as releases in the ledger.
* `UserOnly.after`: once the kernel's frame is freed, all frames belong to users.
* `framesReturn_iff`: all frames come back exactly along the runs that never overwrite an
  entry nor free the kernel's.
-/

namespace OS2024
namespace Memory

open TracedState Ownership Runs

/-- The entry is a present one of a user. -/
def PageDirectoryEntry.UserPresent
    (entry : PageDirectoryEntry) : Prop :=
  entry.Present ∧ entry.flag.userBit = true

/-- The state after the addresses were freed one after another. -/
def freeAll
    (s : KernelPaging)
    (vas : List UInt32) :
    KernelPaging :=
  vas.foldl (fun u va => after u (Call.free () va)) s

/-- The addresses select present user pages, and all of them. -/
structure Covers
    (s : KernelPaging)
    (vas : List UInt32) : Prop where
  user : ∀ va, va ∈ vas → (s.directory () (pageIndex va)).UserPresent
  all : ∀ i, (s.directory () i).UserPresent → ∃ va, va ∈ vas ∧ pageIndex va = i

/-- Every used frame belongs to a present entry, and freeing all present user pages makes
all user frames free and brings the count back to its value at boot. -/
structure FramesReturn
    (s : KernelPaging) : Prop where
  held : ∀ f : Fin 32, s.pageManagerState.pageFrameMap f = true →
    ∃ i, (s.directory () i).Present ∧ (s.directory () i).frame = f
  free : ∀ vas, Covers s vas → ∀ f, f ≠ kernelFrame →
    (freeAll s vas).pageManagerState.pageFrameMap f = false
  count : ∀ vas, Covers s vas →
    (freeAll s vas).pageManagerState.freePageFrameCount =
      bootPageManagerState.freePageFrameCount

/-- The call does not put a frame over a present entry and does not free the kernel's. -/
def ReturnsFrames
    (s : KernelPaging) :
    Call Unit → Prop
  | Call.allocate _ va => (s.directory () (pageIndex va)).Present → AllUsed s
  | Call.free _ va => pageIndex va ≠ kernelIndex

section FreeAll

variable {s : KernelPaging}

theorem frames_freeAll
    (h : Frames s)
    (vas : List UInt32) :
    Frames (freeAll s vas) := by
  induction vas generalizing s with
  | nil => exact h
  | cons va vas ih => exact ih (frames_after h (Call.free () va))

/-- Freeing an address is a release, also when nothing is mapped there. -/
theorem ledger_free
    (h : Frames s)
    (va : UInt32) :
    ledger (after s (Call.free () va)) = (ledger s).release ((), pageIndex va) := by
  have heff := call_effect h (Call.free () va)
  generalize after s (Call.free () va) = s' at heff ⊢
  cases heff with
  | absent habsent =>
      have hnone : (ledger s).holds ((), pageIndex va) = none := if_neg habsent
      exact (Ledger.release_of_none hnone).symm
  | unmaps hpresent hframe _ => exact ledger_unmapped hpresent hframe

theorem ledger_freeAll
    (h : Frames s)
    (vas : List UInt32) :
    ledger (freeAll s vas) =
      (ledger s).releaseAll (vas.map fun va => ((), pageIndex va)) := by
  induction vas generalizing s with
  | nil => rfl
  | cons va vas ih =>
      rw [List.map_cons, Ledger.releaseAll, ← ledger_free h va]
      exact ih (frames_after h (Call.free () va))

/-- A frame is still used after the deallocations if none of them was for its holder. -/
theorem used_freeAll_iff
    (h : Frames s)
    (vas : List UInt32)
    (f : Fin 32) :
    (freeAll s vas).pageManagerState.pageFrameMap f = true ↔
      s.pageManagerState.pageFrameMap f = true ∧
        ∀ va, va ∈ vas → (s.directory () (pageIndex va)).Present →
          (s.directory () (pageIndex va)).frame ≠ f := by
  rw [← ledger_used_iff, ledger_freeAll h, used_releaseAll_iff, ledger_used_iff]
  simp only [List.forall_mem_map, ne_eq, ledger_holds_eq_some_iff, not_and]

/-- The lowest addresses of the regions that a user has mapped. -/
def userAddrs
    (s : KernelPaging) :
    List UInt32 :=
  ((List.finRange 1024).filter fun i =>
    (s.directory () i).flag.presentBit && (s.directory () i).flag.userBit).map regionAddr

theorem covers_userAddrs
    (s : KernelPaging) :
    Covers s (userAddrs s) := by
  have hmem : ∀ i, i ∈ (List.finRange 1024).filter (fun i =>
      (s.directory () i).flag.presentBit && (s.directory () i).flag.userBit) ↔
        (s.directory () i).UserPresent := by
    intro i
    rw [List.mem_filter, Bool.and_eq_true]
    exact ⟨fun h => h.2, fun h => ⟨List.mem_finRange i, h⟩⟩
  constructor
  · intro va hva
    obtain ⟨i, hi, rfl⟩ := List.mem_map.mp hva
    rw [pageIndex_regionAddr]
    exact (hmem i).mp hi
  · intro i hi
    exact ⟨regionAddr i, List.mem_map.mpr ⟨i, (hmem i).mpr hi, rfl⟩, pageIndex_regionAddr i⟩

end FreeAll

/-! ## Runs that keep the frames together -/

/-- No frame has leaked, and the kernel has its own, as the only one without the user bit. -/
structure Returning
    (s : KernelPaging) : Prop where
  frames : Frames s
  no_leak : ∀ n, ¬ (ledger s).Leaked n
  kernel : KernelKept (s.directory () kernelIndex)
  only : ∀ i, (s.directory () i).Present → (s.directory () i).flag.userBit = false →
    i = kernelIndex

/-- Every present entry is a user's. -/
def UserOnly
    (s : KernelPaging) : Prop :=
  ∀ i, (s.directory () i).Present → (s.directory () i).flag.userBit = true

/-- Some frame has leaked, or the kernel has lost its own. -/
structure Stranded
    (s : KernelPaging) : Prop where
  frames : Frames s
  lost : (∃ n, (ledger s).Leaked n) ∨ UserOnly s

section Steps

variable {s : KernelPaging}

/-- New entries have the user bit, and cleared ones are not present. -/
theorem only_after
    (h : Frames s)
    {P : Fin 1024 → Prop}
    (honly : ∀ i, (s.directory () i).Present → (s.directory () i).flag.userBit = false → P i)
    (c : Call Unit) :
    ∀ i, ((after s c).directory () i).Present →
      ((after s c).directory () i).flag.userBit = false → P i := by
  have heff := call_effect h c
  generalize after s c = s' at heff ⊢
  cases heff with
  | full _ => exact honly
  | @maps d va f _ =>
      intro i hpresent huser
      rw [mapped_entry] at hpresent huser
      split_ifs at hpresent huser with hi
      · cases huser
      · exact honly i hpresent huser
  | absent _ => exact honly
  | @unmaps d va f _ _ _ =>
      intro i hpresent huser
      rw [unmapped_entry] at hpresent huser
      split_ifs at hpresent huser with hi
      · exact absurd hpresent zero_not_present
      · exact honly i hpresent huser

theorem UserOnly.after
    (h : Frames s)
    (huser : UserOnly s)
    (c : Call Unit) :
    UserOnly (Memory.after s c) := by
  have hnone : ∀ i, (s.directory () i).Present →
      (s.directory () i).flag.userBit = false → False := by
    intro i hpresent hfalse
    rw [huser i hpresent] at hfalse
    cases hfalse
  intro i hpresent
  by_contra hfalse
  exact only_after h hnone c i hpresent (Bool.eq_false_of_not_eq_true hfalse)

theorem leaked_mapped_iff
    (h : Frames s)
    {va : UInt32}
    {f : Fin 32}
    (hf : FirstFree s f)
    (n : Nat) :
    (ledger (s.mapped () va f)).Leaked n ↔
      (ledger s).Leaked n ∨
        ((s.directory () (pageIndex va)).Present ∧ (s.directory () (pageIndex va)).frame = n) := by
  rw [ledger_mapped, leaked_take_iff h.sound hf.not_used, ledger_holds_eq_some_iff]

theorem leaked_unmapped_iff
    {va : UInt32}
    {f : Fin 32}
    (hpresent : (s.directory () (pageIndex va)).Present)
    (hframe : (s.directory () (pageIndex va)).frame = f)
    (n : Nat) :
    (ledger (s.unmapped () va f)).Leaked n ↔ (ledger s).Leaked n := by
  rw [ledger_unmapped hpresent hframe, leaked_release_iff]

/-- Such a call spares the kernel, whose entry is present. -/
theorem Returning.spares
    (h : Returning s)
    {c : Call Unit}
    (hc : ReturnsFrames s c) :
    SparesKernel s c := by
  cases c with
  | allocate d va =>
      intro he
      refine hc ?_
      rw [he]
      exact h.kernel.present
  | free d va => exact hc

theorem Returning.after
    (h : Returning s)
    {c : Call Unit}
    (hc : ReturnsFrames s c) :
    Returning (Memory.after s c) := by
  refine
    { frames := frames_after h.frames c
      no_leak := ?_
      kernel := by rw [after_kernel_entry h.frames (h.spares hc)]; exact h.kernel
      only := only_after h.frames h.only c }
  have heff := call_effect h.frames c
  generalize Memory.after s c = s' at heff ⊢
  cases heff with
  | full _ => exact h.no_leak
  | @maps d va f hf =>
      intro n hleak
      rcases (leaked_mapped_iff h.frames hf n).mp hleak with hleak | ⟨hpresent, -⟩
      · exact h.no_leak n hleak
      · exact absurd (hc hpresent f) (by rw [hf.1]; decide)
  | absent _ => exact h.no_leak
  | unmaps hpresent hframe _ =>
      intro n hleak
      exact h.no_leak n ((leaked_unmapped_iff hpresent hframe n).mp hleak)

theorem Returning.stranded
    (h : Returning s)
    {c : Call Unit}
    (hc : ¬ ReturnsFrames s c) :
    Stranded (Memory.after s c) := by
  refine ⟨frames_after h.frames c, ?_⟩
  have hframes := h.frames
  have honly := only_after h.frames h.only c
  have heff := call_effect h.frames c
  generalize Memory.after s c = s' at heff honly ⊢
  cases heff with
  | full hfull => exact absurd (fun _ => hfull) hc
  | @maps d va f hf =>
      -- the frame of the overwritten entry leaks
      have hpresent := (Classical.not_imp.mp hc).1
      exact Or.inl ⟨_, (leaked_mapped_iff h.frames hf _).mpr (Or.inr ⟨hpresent, rfl⟩)⟩
  | @absent d va habsent =>
      have he : pageIndex va = kernelIndex := not_not.mp hc
      rw [he] at habsent
      exact absurd h.kernel.present habsent
  | @unmaps d va f _ _ _ =>
      -- the only entry without the user bit is gone
      have he : pageIndex va = kernelIndex := not_not.mp hc
      refine Or.inr fun i hpresent => ?_
      by_contra hfalse
      have hi := honly i hpresent (Bool.eq_false_of_not_eq_true hfalse)
      rw [unmapped_entry, if_pos (hi.trans he.symm)] at hpresent
      exact zero_not_present hpresent

theorem Stranded.after
    (h : Stranded s)
    (c : Call Unit) :
    Stranded (Memory.after s c) := by
  refine ⟨frames_after h.frames c, ?_⟩
  rcases h.lost with ⟨n, hleak⟩ | huser
  · refine Or.inl ⟨n, ?_⟩
    have heff := call_effect h.frames c
    generalize Memory.after s c = s' at heff ⊢
    cases heff with
    | full _ => exact hleak
    | maps hf => exact (leaked_mapped_iff h.frames hf n).mpr (Or.inl hleak)
    | absent _ => exact hleak
    | unmaps hpresent hframe _ => exact (leaked_unmapped_iff hpresent hframe n).mpr hleak
  · exact Or.inr (huser.after h.frames c)

/-- Without leaks, a used frame has a present entry. -/
theorem Returning.held
    (h : Returning s)
    {f : Fin 32}
    (hf : s.pageManagerState.pageFrameMap f = true) :
    ∃ i, (s.directory () i).Present ∧ (s.directory () i).frame = f := by
  obtain ⟨k, hk⟩ := (h.frames.sound.used_iff_of_no_leak h.no_leak f).mp
    ((ledger_used_iff f).mpr hf)
  exact ⟨k.2, ledger_holds_eq_some_iff.mp hk⟩

/-- After all user pages were freed exactly the kernel's frame is used. -/
theorem Returning.freeAll_map
    (h : Returning s)
    {vas : List UInt32}
    (hvas : Covers s vas) :
    (freeAll s vas).pageManagerState.pageFrameMap = bootPageManagerState.pageFrameMap := by
  have hkernel := h.kernel.protected h.frames
  funext f
  rw [Bool.eq_iff_iff, used_freeAll_iff h.frames]
  have hboot : bootPageManagerState.pageFrameMap f = true ↔ f = kernelFrame :=
    ⟨fun h => Fin.ext (of_decide_eq_true h), fun h => decide_eq_true (congrArg Fin.val h)⟩
  rw [hboot]
  constructor
  · rintro ⟨hused, hfree⟩
    obtain ⟨i, hpresent, hframe⟩ := h.held hused
    cases huser : (s.directory () i).flag.userBit with
    | false =>
        have hi := h.only i hpresent huser
        rw [hi, h.kernel.frame] at hframe
        exact Fin.ext hframe.symm
    | true =>
        obtain ⟨va, hva, rfl⟩ := hvas.all i ⟨hpresent, huser⟩
        exact absurd hframe (hfree va hva hpresent)
  · rintro rfl
    exact ⟨hkernel.marked, fun va hva _ =>
      hkernel.no_user _ (hvas.user va hva).1 (hvas.user va hva).2⟩

theorem Returning.framesReturn
    (h : Returning s) :
    FramesReturn s where
  held := fun _ hf => h.held hf
  free := by
    intro vas hvas f hf
    rw [h.freeAll_map hvas]
    exact decide_eq_false fun h0 => hf (Fin.ext h0)
  count := by
    intro vas hvas
    have hcount := (frames_freeAll h.frames vas).counted
    rw [Counted, freeFrames, h.freeAll_map hvas, bootPageManagerState_free] at hcount
    exact UInt32.toNat_inj.mp hcount

theorem Stranded.not_framesReturn
    (h : Stranded s) :
    ¬ FramesReturn s := by
  intro hreturn
  rcases h.lost with ⟨n, ⟨hn, hmark⟩, hnone⟩ | huser
  · obtain ⟨i, hi⟩ := hreturn.held ⟨n, hn⟩ hmark
    exact hnone ((), i) (ledger_holds_eq_some_iff.mpr hi)
  · -- with the kernel's frame in the hands of users, freeing their pages frees all 32
    have hcovers := covers_userAddrs s
    have hfree : ∀ f, f ∈ freeFrames (freeAll s (userAddrs s)) := by
      intro f
      rw [mem_freeFrames]
      refine Bool.eq_false_of_not_eq_true fun hused => ?_
      obtain ⟨hmark, hkeep⟩ := (used_freeAll_iff h.frames _ f).mp hused
      obtain ⟨i, hpresent, hframe⟩ := hreturn.held f hmark
      obtain ⟨va, hva, rfl⟩ := hcovers.all i ⟨hpresent, huser i hpresent⟩
      exact hkeep va hva hpresent hframe
    have hcount := (frames_freeAll h.frames (userAddrs s)).counted
    rw [Counted, hreturn.count _ hcovers, Finset.eq_univ_of_forall hfree, Finset.card_univ,
      Fintype.card_fin] at hcount
    exact absurd hcount (by decide)

end Steps

theorem bootPaging_returning :
    Returning bootPaging := by
  have hframes := newPaging_bootPaging.frames
  have honly : ∀ i, (bootPaging.directory () i).Present → i = kernelIndex := by
    intro i hpresent
    by_contra hi
    exact newPaging_bootPaging.absent () i (fun he => hi he.2) hpresent
  refine ⟨hframes, ?_, bootPaging_kept, fun i hpresent _ => honly i hpresent⟩
  rintro n ⟨⟨hn, hmark⟩, hnone⟩
  -- at boot only frame 0 is used, and the kernel holds it
  have h0 : n = 0 := of_decide_eq_true hmark
  refine hnone ((), kernelIndex) (ledger_holds_eq_some_iff.mpr ⟨bootPaging_kept.present, ?_⟩)
  rw [h0]
  exact bootPaging_kept.frame

/-- **After calls on the kernel's directory, all frames can be given back exactly if no
call overwrote a present entry or freed the kernel's.** -/
theorem framesReturn_iff
    (cs : List (Call Unit)) :
    FramesReturn (cs.foldl after bootPaging) ↔
      Along ReturnsFrames after bootPaging cs :=
  foldl_iff_along (fun _ _ h hc => h.after hc) (fun _ _ h hc => h.stranded hc)
    (fun _ c h => h.after c) (fun _ h => h.framesReturn) (fun _ h => h.not_framesReturn)
    bootPaging_returning

/-- Two allocations for the same region leave frame 1 used without an entry. -/
theorem frame_leaked :
    ([Call.allocate () 0, Call.allocate () 0x1000].foldl after
      bootPaging).pageManagerState.pageFrameMap ⟨1, by decide⟩ = true ∧
      (([Call.allocate () 0, Call.allocate () 0x1000].foldl after bootPaging).directory ()
        (pageIndex 0)).frame = 2 ∧
      ¬ FramesReturn ([Call.allocate () 0, Call.allocate () 0x1000].foldl after bootPaging) := by
  refine ⟨by decide +kernel, by decide +kernel, fun h => ?_⟩
  obtain ⟨i, hpresent, hframe⟩ := h.held ⟨1, by decide⟩ (by decide +kernel)
  -- the two present entries have frames 0 and 2
  have hentries : ∀ i : Fin 1024,
      (([Call.allocate () 0, Call.allocate () 0x1000].foldl after bootPaging).directory ()
        i).Present →
      (([Call.allocate () 0, Call.allocate () 0x1000].foldl after bootPaging).directory ()
        i).frame ≠ 1 := by
    decide +kernel
  exact hentries i hpresent hframe

end Memory
end OS2024
