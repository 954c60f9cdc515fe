import OS2024.Fat32.Frame

/-!
# The reserved clusters

Clusters 0, 1 and 2 belong to the boot sector, the allocation table and the root.  Calls
on live directories leave them alone as long as no call acts on what is not an entry:
`read` and `delete` accept a cleared slot, whose cluster number is 0, when the requested
key is blank, `delete` accepts the records in slots 0 and 1, and `write` reads an empty
`slot_buf` when the number of clusters is a positive multiple of 256.

**Results.**
* `guarded_returns`: guarded calls come to their end.
* `guardedRun_reserved`: runs of guarded calls protect the reserved clusters.
* `delete_root_not_reserved`: deleting `root` in the root directory destroys the boot
  sector.
-/

namespace OS2024
namespace Fat32

open TracedState LinkedChain SlotTree Runs

/-- The boot sector, the first three entries of the table and the data area are intact. -/
structure Reserved (s : FileSystem) : Prop where
  boot : s.disk 0 = fsSignature
  cached : s.fat 0 = cluster0Value ∧ s.fat 1 = cluster1Value ∧ s.fat 2 = fat32FatEndOfFile
  stored : (mounted s.disk).fat 0 = cluster0Value ∧ (mounted s.disk).fat 1 = cluster1Value ∧
    (mounted s.disk).fat 2 = fat32FatEndOfFile
  entries : ∀ d i, Child s d i → 3 ≤ (s.table d i).cluster.toNat ∧
    ∀ cs, FatChain s (s.table d i).cluster cs → ∀ c, c ∈ cs → 3 ≤ c.toNat

theorem Sound.reserved {s : FileSystem} (hs : Sound s) : Reserved s where
  boot := hs.boot
  cached := ⟨hs.fat_zero, hs.fat_one, hs.fat_root⟩
  stored := by
    rw [hs.mounted_eq]
    exact ⟨hs.fat_zero, hs.fat_one, hs.fat_root⟩
  entries := fun _ _ hd => ⟨(hs.mem_bounds (hs.owns_cluster hd)).1,
    fun cs hcs _ hc => (hs.mem_bounds ⟨hd, cs, hcs, hc⟩).1⟩

/-- A call about a live directory, with any name and size. -/
def OnLiveDir (s : FileSystem) (c : Call) : Prop := LiveDir s c.request.parentClusterNumber

/-- A call about a live directory that acts on entries only: `read` does not match a
cleared slot, `delete` is safe, and `write` needs at least one cluster. -/
structure Guarded (s : FileSystem) (c : Call) : Prop where
  parent : LiveDir s c.request.parentClusterNumber
  read : ∀ r, c = Call.read r →
    ∀ k, FirstMatch (s.parentTable r) r.key k → (s.parentTable r k).Live
  write : ∀ r, c = Call.write r →
    NoMatch (s.parentTable r) r.key → ¬ Full (s.parentTable r) → required r ≠ 0
  delete : ∀ r, c = Call.delete r → SafeDelete s r

theorem Guarded.safe {s : FileSystem} {c : Call} (h : Guarded s c) : Safe s c :=
  ⟨h.parent, h.delete⟩

theorem guarded_write {s : FileSystem} {r : FAT32DriverRequest}
    (hp : LiveDir s r.parentClusterNumber) (hn : required r ≠ 0) :
    Guarded s (Call.write r) := by
  refine ⟨hp, ?_, fun r' hr => ?_, ?_⟩
  · rintro r' ⟨⟩
  · cases hr
    exact fun _ _ => hn
  · rintro r' ⟨⟩

theorem guarded_delete {s : FileSystem} {r : FAT32DriverRequest}
    (hp : LiveDir s r.parentClusterNumber) (hsafe : SafeDelete s r) :
    Guarded s (Call.delete r) := by
  refine ⟨hp, ?_, ?_, fun r' hr => ?_⟩
  · rintro r' ⟨⟩
  · rintro r' ⟨⟩
  · cases hr
    exact hsafe

/-! ## Guarded calls return -/

section Returns

variable {s : FileSystem} {r : FAT32DriverRequest}

theorem read_returns (hs : Sound s) (hp : LiveDir s r.parentClusterNumber)
    (hlive : ∀ k, FirstMatch (s.parentTable r) r.key k → (s.parentTable r k).Live) :
    ∃ reply, (read r s).result = .ok reply := by
  have hok := hs.parentOk hp
  rcases firstMatch_or_noMatch (s.parentTable r) r.key with ⟨k, hk⟩ | hm
  · by_cases hdir : (s.parentTable r k).IsDir
    · exact ⟨_, by rw [read_dir hok hk hdir]⟩
    · -- only children are files
      have h2 : 2 ≤ k := (hs.table _ hp).two_le_of_not_isDir hdir
      have hd : Child s r.parentClusterNumber k := ⟨hp, h2, hlive k hk⟩
      obtain ⟨-, cs, hcs, -⟩ := hs.chain _ k hd
      have hfile := read_file hs hd hk.1 hdir hcs
      by_cases hsmall : TooSmall s r k
      · exact ⟨_, hfile.1 hsmall⟩
      · exact ⟨_, hfile.2 hsmall⟩
  · exact ⟨_, by rw [read_notFound hok hm]⟩

/-- `read_directory` always returns. -/
theorem readDirectory_returns (r : FAT32DriverRequest) (s : FileSystem) :
    ∃ reply, (readDirectory r s).result = .ok reply := by
  rcases firstLiveMatch_or (s.parentTable r) r.key with ⟨k, hk⟩ | hm
  · by_cases hdir : (s.parentTable r k).IsDir
    · by_cases hsmall : r.bufferSize < 32
      · exact ⟨_, by rw [readDirectory_tooSmall hk hdir hsmall]⟩
      · exact ⟨_, by rw [readDirectory_dir hk hdir hsmall]⟩
    · exact ⟨_, by rw [readDirectory_file hk hdir]⟩
  · exact ⟨_, by rw [readDirectory_notFound hm]⟩

theorem write_returns (hs : Sound s) (hp : LiveDir s r.parentClusterNumber)
    (hreq : NoMatch (s.parentTable r) r.key → ¬ Full (s.parentTable r) → required r ≠ 0) :
    ∃ code, (write r s).result = .ok code := by
  cases write_cases hs hp with
  | taken _ run => exact ⟨_, by rw [run]⟩
  | full _ _ run => exact ⟨_, by rw [run]⟩
  | noSpace _ _ _ _ run => exact ⟨_, by rw [run]⟩
  | emptySlotBuf k hm hk hz _ =>
      exact absurd hz (hreq hm fun hfull => hk.2.1 (hfull k hk.1))
  | done _ _ _ _ _ _ _ run _ => exact ⟨_, by rw [run]⟩

theorem delete_returns (hs : Sound s) (hp : LiveDir s r.parentClusterNumber)
    (hsafe : SafeDelete s r) : ∃ code, (delete r s).result = .ok code := by
  cases delete_cases hs hp hsafe with
  | absent _ run => exact ⟨_, by rw [run]⟩
  | notEmpty _ _ _ _ run => exact ⟨_, by rw [run]⟩
  | removed _ _ _ _ _ run _ => exact ⟨_, by rw [run]⟩

end Returns

/-- Guarded calls leave no array and no loop runs on for ever. -/
theorem guarded_returns {s : FileSystem} {c : Call} (hs : Sound s) (hc : Guarded s c) :
    ∃ reply, (c.run s).result = .ok reply := by
  cases c with
  | read r => exact read_returns hs hc.parent (hc.read r rfl)
  | readDirectory r => exact readDirectory_returns r s
  | write r =>
      obtain ⟨code, hcode⟩ := write_returns (r := r) hs hc.parent (hc.write r rfl)
      exact ⟨_, map_result_ok hcode⟩
  | delete r =>
      obtain ⟨code, hcode⟩ := delete_returns (r := r) hs hc.parent (hc.delete r rfl)
      exact ⟨_, map_result_ok hcode⟩

/-! ## Protection -/

/-- Safe calls write nothing to cluster 0. -/
theorem Safe.cluster_zero {s : FileSystem} {c : Call} (hs : Sound s) (hc : Safe s c) :
    (after s c).disk.cluster 0 = s.disk.cluster 0 := by
  have hs' := (after_edited hs hc).sound hs
  by_contra hne
  rcases (confined_of_safe hs hc).clusters 0 hne with h1 | hp | ⟨x, hx, hfat⟩
  · exact absurd h1 (by decide)
  · have := (hs.liveDir_bounds hc.parent).1
    omega
  · obtain rfl : x = 0 := UInt32.toNat_inj.mp hx.symm
    rw [hs.fat_zero, hs'.fat_zero] at hfat
    revert hfat
    decide

/-- **Runs of guarded calls protect the reserved clusters, and every guarded call returns
without writing to cluster 0.** -/
theorem guardedRun_reserved {s : FileSystem} (h : Reached NewSystem Guarded after s) :
    Reserved s ∧ ∀ c, Guarded s c →
      (∃ reply, (c.run s).result = .ok reply) ∧
        (after s c).disk.cluster 0 = s.disk.cluster 0 := by
  have hs := safeRun_sound (h.mono fun _ _ _ hc => hc.safe)
  exact ⟨hs.reserved, fun c hc => ⟨guarded_returns hs hc, hc.safe.cluster_zero hs⟩⟩

theorem populatedSystem_guarded : Reached NewSystem Guarded after populatedSystem :=
  Reached.step
    (Reached.step
      (Reached.step (Reached.start newSystem_emptySystem)
        (guarded_write (liveDir_root _) (by decide +kernel)))
      (guarded_write (liveDir_root _) (by decide +kernel)))
    (guarded_write smallSystem_folder (by decide +kernel))

/-- Two files and a folder are written, a file is deleted, and another one is written into the
folder. -/
theorem guardedRun_reserved_delete :
    Reserved (after populatedSystem (Call.delete (requestFor ['a'] 2 0))) ∧
      (∃ reply, ((Call.write (requestFor ['d'] 5 6000)).run
        (after populatedSystem (Call.delete (requestFor ['a'] 2 0)))).result = .ok reply) ∧
      (after (after populatedSystem (Call.delete (requestFor ['a'] 2 0)))
          (Call.write (requestFor ['d'] 5 6000))).disk.cluster 0 =
        (after populatedSystem (Call.delete (requestFor ['a'] 2 0))).disk.cluster 0 := by
  have hedge : (after populatedSystem (Call.delete (requestFor ['a'] 2 0))).edge 2 3 = some 5 := by
    decide +kernel
  obtain ⟨hreserved, hnext⟩ := guardedRun_reserved
    (Reached.step populatedSystem_guarded
      (guarded_delete (liveDir_root _) populatedSystem_file.safeDelete))
  exact ⟨hreserved, hnext _ (guarded_write (r := requestFor ['d'] 5 6000)
    (Reach.child (liveDir_root _) hedge) (by decide +kernel))⟩

/-- The name of the root directory itself is found in its slot 0, whose cluster number is
0: deleting it zeroes the boot sector. -/
theorem delete_root_not_reserved :
    Reached NewSystem OnLiveDir after
        (after emptySystem (Call.delete (requestFor ['r', 'o', 'o', 't'] 2 0))) ∧
      ¬ Reserved (after emptySystem (Call.delete (requestFor ['r', 'o', 'o', 't'] 2 0))) := by
  constructor
  · exact Reached.step (Reached.start newSystem_emptySystem) (liveDir_root emptySystem)
  · intro h
    have hbyte := congrFun h.boot 0
    revert hbyte
    decide +kernel

end Fat32
end OS2024
