import OS2024.Memory.Isolation

/-!
# The mapping of the kernel

Nothing in the two operations tells the kernel's entry from a user's: `free` decides by the
present bit and the bitmap alone, and `allocate` overwrites whatever entry the address
selects.  Once the kernel's entry is gone it never comes back, because every new entry has
the user bit.

**Results.**
* `after_kernel_entry`: the entry of the kernel changes only if an address selects it.
* `kernelProtected_iff`: the kernel keeps its mapping exactly along the runs that spare it.
-/

namespace OS2024
namespace Memory

open TracedState Ownership Runs

/-- The directory of the kernel, on its own. -/
abbrev KernelPaging := Paging Unit

/-- The entry is present, leads to frame 0 and is no user's. -/
structure KernelKept
    (entry : PageDirectoryEntry) : Prop where
  present : entry.Present
  frame : entry.frame = 0
  not_user : entry.flag.userBit = false

/-- The kernel's region is mapped to frame 0, which is in use and no user's. -/
structure KernelProtected
    (s : KernelPaging) : Prop where
  kept : KernelKept (s.directory () kernelIndex)
  marked : s.pageManagerState.pageFrameMap kernelFrame = true
  no_user : ∀ i, (s.directory () i).Present → (s.directory () i).flag.userBit = true →
    (s.directory () i).frame ≠ 0

/-- The call leaves the kernel's region alone; an allocation also does so when it fails. -/
def SparesKernel
    (s : KernelPaging) :
    Call Unit → Prop
  | Call.allocate _ va => pageIndex va = kernelIndex → AllUsed s
  | Call.free _ va => pageIndex va ≠ kernelIndex

section Entries

variable {s : KernelPaging} {va : UInt32} {i : Fin 32}

theorem mapped_entry
    (j : Fin 1024) :
    (s.mapped () va i).directory () j =
      if j = pageIndex va then userEntry (s.directory () (pageIndex va)) i
      else s.directory () j := by
  rw [Paging.mapped, setEntry_directory _ ((), j)]
  simp only [Prod.mk.injEq, true_and]
  rfl

theorem unmapped_entry
    (j : Fin 1024) :
    (s.unmapped () va i).directory () j =
      if j = pageIndex va then PageDirectoryEntry.zero else s.directory () j := by
  rw [Paging.unmapped, setEntry_directory _ ((), j)]
  simp only [Prod.mk.injEq, true_and]
  rfl

/-- A call that spares the kernel does not change its entry. -/
theorem after_kernel_entry
    (h : Frames s)
    {c : Call Unit}
    (hc : SparesKernel s c) :
    (after s c).directory () kernelIndex = s.directory () kernelIndex := by
  have heff := call_effect h c
  generalize after s c = s' at heff ⊢
  cases heff with
  | full _ => rfl
  | @maps d va i hi =>
      have hne : kernelIndex ≠ pageIndex va := by
        intro he
        exact absurd (hc he.symm i) (by rw [hi.1]; decide)
      rw [mapped_entry, if_neg hne]
  | absent _ => rfl
  | @unmaps d va i _ _ _ => rw [unmapped_entry, if_neg (Ne.symm hc)]

end Entries

section Protection

variable {s : KernelPaging}

/-- Where frames have one owner, the entry decides about everything else. -/
theorem KernelKept.protected
    (h : KernelKept (s.directory () kernelIndex))
    (hframes : Frames s) :
    KernelProtected s := by
  refine ⟨h, ?_, fun i hpresent huser hframe => ?_⟩
  · obtain ⟨f, hf, hmark⟩ := hframes.marked h.present
    have hzero : f = kernelFrame := Fin.ext (hf.symm.trans h.frame)
    rw [← hzero]
    exact hmark
  · have hi := (hframes.isolated.exclusive () i () kernelIndex hpresent h.present
      (hframe.trans h.frame.symm)).2
    rw [hi, h.not_user] at huser
    cases huser

/-- The kernel's entry is absent or a user's. -/
def KernelLost
    (s : KernelPaging) : Prop :=
  (s.directory () kernelIndex).Present → (s.directory () kernelIndex).flag.userBit = true

/-- A call that does not spare the kernel loses its entry. -/
theorem kernelLost_of_not_spares
    (h : Frames s)
    (hkept : KernelKept (s.directory () kernelIndex))
    {c : Call Unit}
    (hc : ¬ SparesKernel s c) :
    KernelLost (after s c) := by
  have heff := call_effect h c
  generalize after s c = s' at heff ⊢
  cases heff with
  | full hfull => exact absurd (fun _ => hfull) hc
  | @maps d va i hi =>
      have he : pageIndex va = kernelIndex := (Classical.not_imp.mp hc).1
      intro _
      rw [mapped_entry, if_pos he.symm]
      rfl
  | @absent d va habsent =>
      have he : pageIndex va = kernelIndex := not_not.mp hc
      rw [he] at habsent
      exact absurd hkept.present habsent
  | @unmaps d va i _ _ _ =>
      have he : pageIndex va = kernelIndex := not_not.mp hc
      intro hpresent
      rw [unmapped_entry, if_pos he.symm] at hpresent
      exact absurd hpresent zero_not_present

/-- A lost entry does not come back. -/
theorem kernelLost_after
    (h : Frames s)
    (hlost : KernelLost s)
    (c : Call Unit) :
    KernelLost (after s c) := by
  have heff := call_effect h c
  generalize after s c = s' at heff ⊢
  cases heff with
  | full _ => exact hlost
  | @maps d va i _ =>
      intro hpresent
      rw [mapped_entry] at hpresent ⊢
      split_ifs at hpresent ⊢
      · rfl
      · exact hlost hpresent
  | absent _ => exact hlost
  | @unmaps d va i _ _ _ =>
      intro hpresent
      rw [unmapped_entry] at hpresent ⊢
      split_ifs at hpresent ⊢
      · exact absurd hpresent zero_not_present
      · exact hlost hpresent

end Protection

theorem bootPaging_kept :
    KernelKept (bootPaging.directory () kernelIndex) :=
  ⟨by decide, by decide, by decide⟩

/-- **After calls on the kernel's directory, the kernel still has its mapping exactly if no
call freed its region or gave it another frame.** -/
theorem kernelProtected_iff
    (cs : List (Call Unit)) :
    KernelProtected (cs.foldl after bootPaging) ↔
      Along SparesKernel after bootPaging cs := by
  refine foldl_iff_along
    (P := fun s => Frames s ∧ KernelKept (s.directory () kernelIndex))
    (B := fun s => Frames s ∧ KernelLost s) ?_ ?_ ?_ ?_ ?_
    ⟨newPaging_bootPaging.frames, bootPaging_kept⟩
  · rintro s c ⟨hframes, hkept⟩ hc
    refine ⟨frames_after hframes c, ?_⟩
    rw [after_kernel_entry hframes hc]
    exact hkept
  · rintro s c ⟨hframes, hkept⟩ hc
    exact ⟨frames_after hframes c, kernelLost_of_not_spares hframes hkept hc⟩
  · rintro s c ⟨hframes, hlost⟩
    exact ⟨frames_after hframes c, kernelLost_after hframes hlost c⟩
  · rintro s ⟨hframes, hkept⟩
    exact hkept.protected hframes
  · rintro s ⟨-, hlost⟩ hprotected
    have huser := hlost hprotected.kept.present
    rw [hprotected.kept.not_user] at huser
    cases huser

/-- Freeing an address of the kernel's region takes its frame away, and the next
allocation gives that frame to a user. -/
theorem kernel_freed :
    (pagingFreeUserPageFrame () 0xC0000000 bootPaging).result = .ok true ∧
      ¬ KernelProtected ([Call.free () 0xC0000000].foldl after bootPaging) ∧
      (([Call.free () 0xC0000000, Call.allocate () 0].foldl after bootPaging).directory ()
        (pageIndex 0)).frame = 0 ∧
      (([Call.free () 0xC0000000, Call.allocate () 0].foldl after bootPaging).directory ()
        (pageIndex 0)).flag.userBit = true := by
  refine ⟨by decide +kernel, fun h => ?_, by decide +kernel, by decide +kernel⟩
  have hpresent := h.kept.present
  revert hpresent
  decide +kernel

end Memory
end OS2024
