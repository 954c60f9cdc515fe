import OS2024.Fat32.Deletion

/-!
# The two records of a directory

Slots 0 and 1 of a directory are written once, by `init_directory_table` and its callers,
and no call changes them afterwards.  For a folder `write` fills in the cluster number of
slot 0; `create_fat32` does not do so for the root, whose slot 0 stays at cluster 0.

**Results.**
* `Recorded.parentOf`: slot 1 refers to the directory above.
* `root_self_cluster`: slot 0 of the root refers to cluster 0.
* `selfAndParent_iff`: the directories whose records are right.
* `safeRun_selfNamed`: slot 0 of a directory has the name under which it was created.
-/

namespace OS2024
namespace Fat32

open LinkedChain SlotTree Runs

/-- `p` is the directory above `d`; the root is above itself. -/
def ParentOf
    (s : FileSystem)
    (p d : UInt32) : Prop :=
  (d = rootClusterNumber ∧ p = rootClusterNumber) ∨
    ∃ i, Child s p i ∧ (s.table p i).IsDir ∧ (s.table p i).cluster = d

/-- Slot 0 of `d` is a record of `d` itself, slot 1 one of the directory above it. -/
structure SelfAndParent
    (s : FileSystem)
    (d : UInt32) : Prop where
  self_live : (s.table d 0).Live
  self_isDir : (s.table d 0).IsDir
  self_cluster : (s.table d 0).cluster = d
  parent_live : (s.table d 1).Live
  parent_isDir : (s.table d 1).IsDir
  parent_cluster : ParentOf s (s.table d 1).cluster d

section Above

variable {s : FileSystem} {d : UInt32}

/-- Every live directory has a directory above it. -/
theorem exists_parentOf
    (hd : LiveDir s d) :
    ∃ p, ParentOf s p d := by
  rcases liveDir_cases hd with rfl | ⟨p, i, hp, hdir, hcl⟩
  · exact ⟨rootClusterNumber, Or.inl ⟨rfl, rfl⟩⟩
  · exact ⟨p, Or.inr ⟨i, hp, hdir, hcl⟩⟩

/-- There is only one directory above a directory. -/
theorem ParentOf.unique
    (hs : Sound s)
    {p q : UInt32}
    (hp : ParentOf s p d)
    (hq : ParentOf s q d) :
    p = q := by
  rcases hp with ⟨rfl, rfl⟩ | ⟨i, hp, -, rfl⟩
  · rcases hq with ⟨-, rfl⟩ | ⟨j, hq, -, hcl⟩
    · rfl
    · exact absurd hcl (hs.cluster_ne_root hq)
  · rcases hq with ⟨hroot, -⟩ | ⟨j, hq, -, hcl⟩
    · exact absurd hroot (hs.cluster_ne_root hp)
    · exact (hs.only_parent hp hq hcl.symm).1

theorem ParentOf.liveDir
    {p : UInt32}
    (hp : ParentOf s p d) :
    LiveDir s p := by
  rcases hp with ⟨-, rfl⟩ | ⟨i, hp, -, -⟩
  · exact liveDir_root s
  · exact hp.1

/-- Slot 1 refers to the directory above. -/
theorem Recorded.parentOf
    (hr : Recorded s)
    (hd : LiveDir s d) :
    ParentOf s (s.table d 1).cluster d := by
  obtain ⟨p, hp⟩ := exists_parentOf hd
  rcases hp with ⟨rfl, rfl⟩ | ⟨i, hp, hdir, rfl⟩
  · rw [hr.root 1 (by decide)]
    exact Or.inl ⟨rfl, rfl⟩
  · rw [hr.parent p i hp hdir]
    exact Or.inr ⟨i, hp, hdir, rfl⟩

/-- Slot 0 of the root refers to cluster 0. -/
theorem root_self_cluster
    (hr : Recorded s) :
    (s.table rootClusterNumber 0).cluster = 0 := by
  rw [hr.root 0 (by decide)]
  rfl

/-- The records of a live directory are right up to the cluster number of slot 0. -/
theorem selfAndParent_iff_cluster
    (hs : Sound s)
    (hr : Recorded s)
    (hd : LiveDir s d) :
    SelfAndParent s d ↔ (s.table d 0).cluster = d := by
  have hself := (hs.table d hd).record 0 (by decide)
  have hparent := (hs.table d hd).record 1 (by decide)
  constructor
  · exact fun h => h.self_cluster
  · intro hcl
    exact ⟨hself.1, hself.2, hcl, hparent.1, hparent.2, hr.parentOf hd⟩

end Above

/-- **After any well-scoped calls, the records of a live directory are right unless it is
the root.** -/
theorem selfAndParent_iff
    {s : FileSystem}
    {d : UInt32}
    (h : Reached NewSystem WellScoped after s)
    (hd : LiveDir s d) :
    SelfAndParent s d ↔ d ≠ rootClusterNumber := by
  have hs := wellScopedRun_sound h
  have hr := safeRun_recorded (h.mono fun _ _ _ hc => hc.1.safe)
  rw [selfAndParent_iff_cluster hs hr hd]
  constructor
  · rintro hcl rfl
    rw [root_self_cluster hr] at hcl
    exact absurd hcl (by decide)
  · exact hr.self d hd

section Names

/-- Slot 0 of a directory has the name of its entry, up to the first NUL. -/
def SelfNamed (s : FileSystem) : Prop :=
  ∀ p i, Child s p i → (s.table p i).IsDir →
    (s.table (s.table p i).cluster 0).name = copyName (s.table p i).name

theorem after_selfNamed
    {s : FileSystem}
    {c : Call}
    (hs : Sound s)
    (hn : SelfNamed s)
    (hc : Safe s c) :
    SelfNamed (after s c) := by
  cases safe_effect hs hc with
  | reads state _ => rwa [state]
  | @inserts r k c rest hbuf hfree _ inserted =>
      have hk2 := inserted.two_le hs
      intro p i hp hdir
      rcases (inserted.child_iff hs p i).mp hp with hp | ⟨rfl, rfl⟩
      · rw [inserted.slot_child hs hp] at hdir ⊢
        rw [inserted.slot_eq hs (hp.liveDir hdir) fun he => absurd (he.2 ▸ hk2) (by decide)]
        exact hn p i hp hdir
      · rw [inserted.slot_self] at hdir ⊢
        have hf := (newEntry_isDir_iff c).mp hdir
        obtain rfl := slotBuf_folder hbuf hf
        have hblock := inserted.content
        rw [newBlocks, if_pos hf, List.map_singleton, List.singleton_inj] at hblock
        rw [newEntry_cluster, FileSystem.table, hblock, FAT32DirectoryTable.ofBytes_toBytes,
          newFolderTable, recordTable_zero]
        rfl
  | removes k cs _ _ removed =>
      have hk2 := removed.child.2.1
      intro p i hp hdir
      have hlive := hp.liveDir hdir
      rw [removed.slot_child hs hp] at hdir hlive ⊢
      obtain ⟨hlive₀, hne⟩ := (removed.liveDir_iff hs _).mp hlive
      rw [removed.slot_eq hs hlive₀ hne fun he => absurd (he.2 ▸ hk2) (by decide)]
      exact hn p i ((removed.child_iff hs p i).mp hp).1 hdir

/-- **Every directory knows the name under which it was created.** -/
theorem safeRun_selfNamed
    {s : FileSystem}
    (h : Reached NewSystem Safe after s) :
    SelfNamed s := by
  refine (h.invariant (P := fun s => Sound s ∧ SelfNamed s) ?_ ?_).2
  · exact fun s hs => ⟨hs.created.sound, fun p i hp => absurd hp (hs.created.not_child p i)⟩
  · exact fun s c hs hc =>
      ⟨(after_edited hs.1 hc).sound hs.1, after_selfNamed hs.1 hs.2 hc⟩

end Names

theorem liveDir_folderSystem :
    LiveDir folderSystem 3 :=
  Reach.child (liveDir_root _) (by decide +kernel : folderSystem.edge 2 2 = some 3)

theorem selfAndParent_folder :
    SelfAndParent folderSystem 3 :=
  (selfAndParent_iff folderSystem_reached liveDir_folderSystem).mpr (by decide)

/-- Slot 0 of a new root refers to the boot sector's cluster. -/
theorem root_record_wrong :
    Reached NewSystem WellScoped after emptySystem ∧
      LiveDir emptySystem rootClusterNumber ∧
      (emptySystem.table rootClusterNumber 0).cluster = 0 ∧
      ¬ SelfAndParent emptySystem rootClusterNumber := by
  have hcl := root_self_cluster newSystem_emptySystem.created.recorded
  refine ⟨Reached.start newSystem_emptySystem, liveDir_root _, hcl, fun h => ?_⟩
  have hself := h.self_cluster
  rw [hcl] at hself
  exact absurd hself (by decide)

end Fat32
end OS2024
