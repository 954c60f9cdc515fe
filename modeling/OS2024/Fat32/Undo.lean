import OS2024.Fat32.Calls
import OS2024.Fat32.RoundTrip

/-!
# `delete` undoes `write`

A `write` links free clusters, fills them and puts an entry into an empty slot.  The
`delete` of that entry finds the same slot and walks along the same chain, so it frees
what was linked.  The empty slots of a sound directory are zero, which is what `delete`
leaves behind.

**Results.**
* `Inserted.undone`: removing the entry that was added.
* `delete_undoes_write`: the two calls.
-/

namespace OS2024
namespace Fat32

open TracedState LinkedChain Runs

/-- Cluster `c` was free in `s` and is in use in `s₁`. -/
def Allocated (s s₁ : FileSystem) (c : UInt32) : Prop := s.fat c = 0 ∧ s₁.fat c ≠ 0

/-- The step from `s₁` to `s₂` undoes the one from `s` to `s₁`: both allocation tables and
all clusters are as they were, but those that the first step allocated are cleared. -/
structure Undone (s s₁ s₂ : FileSystem) : Prop where
  fatTable : s₂.fatTable = s.fatTable
  fatCluster : s₂.disk.cluster 1 = s.disk.cluster 1
  kept : ∀ n, (∀ c, Allocated s s₁ c → n ≠ c.toNat) →
    s₂.disk.cluster n = s.disk.cluster n
  cleared : ∀ c, Allocated s s₁ c → s₂.disk.cluster c.toNat = fun _ => 0

section Steps

variable {s s₁ s₂ : FileSystem} {p : UInt32} {k : Fin 64} {e : FAT32DirectoryEntry}
  {cs ds : List UInt32} {blocks : List ClusterBuffer}

/-- The clusters of the new chain are those that were allocated. -/
theorem Inserted.allocated_iff
    (h : Inserted s s₁ p k e cs blocks)
    (hs : Sound s)
    (c : UInt32) :
    Allocated s s₁ c ↔ c ∈ cs := by
  constructor
  · rintro ⟨hfree, hused⟩
    by_contra hmem
    rw [h.fat, link_of_not_mem hmem] at hused
    exact hused hfree
  · intro hmem
    exact ⟨(h.fresh c hmem).2, (h.sound hs).owns_fat_ne_zero ((h.owns_new_iff hs c).mpr hmem)⟩

/-- Removing the new entry frees the chain that was built for it. -/
theorem Inserted.removed_chain
    (h : Inserted s s₁ p k e cs blocks)
    (hrem : Removed s₁ s₂ p k ds) :
    ds = cs := by
  have hchain := hrem.chain
  rw [h.slot_self] at hchain
  exact hchain.unique h.chain_new

/-- Two states whose cached tables agree and are on the disk have the same cluster 1. -/
theorem cluster_one_eq
    (hs : Synced s)
    (hs₂ : Synced s₂)
    (hfat : s₂.fatTable = s.fatTable) :
    s₂.disk.cluster 1 = s.disk.cluster 1 := by
  have hdata : s₂.data fatClusterNumber = s.data fatClusterNumber := by
    rw [hs, hs₂, hfat]
  exact hdata

theorem Inserted.undone_fat
    (hins : Inserted s s₁ p k e cs blocks)
    (hrem : Removed s₁ s₂ p k cs) :
    s₂.fatTable = s.fatTable := by
  refine FAT32FileAllocationTable.ext_get fun c => ?_
  show s₂.fat c = s.fat c
  rw [hrem.fat, hins.fat]
  exact clear_link (fun x hx => (hins.fresh x hx).2) c

section Both

variable (hs : Sound s) (hins : Inserted s s₁ p k e cs blocks) (hrem : Removed s₁ s₂ p k cs)
include hs hins hrem

/-- The slot was zero and is zero again. -/
theorem Inserted.undone_parent : s₂.data p = s.data p := by
  have hzero : s.table p k = FAT32DirectoryEntry.zero :=
    (hs.table p hins.parent).dead k (hins.two_le hs) hins.slot.2.1
  have htable : s₂.table p = s.table p := by
    rw [hrem.table, hins.table, Function.update_idem, ← hzero, Function.update_eq_self]
  have hbytes := congrArg FAT32DirectoryTable.toBytes htable
  rwa [FileSystem.table, FileSystem.table, FAT32DirectoryTable.toBytes_ofBytes,
    FAT32DirectoryTable.toBytes_ofBytes] at hbytes

/-- **Removing the entry that was added undoes the step.** -/
theorem Inserted.undone : Undone s s₁ s₂ := by
  have hfat := hins.undone_fat hrem
  have hone := cluster_one_eq hs.synced hrem.synced hfat
  refine ⟨hfat, hone, fun n hn => ?_, fun c hc => ?_⟩
  · have hout : ∀ c, c ∈ cs → n ≠ c.toNat := fun c hc =>
      hn c ((hins.allocated_iff hs c).mpr hc)
    by_cases h1 : n = 1
    · rw [h1, hone]
    by_cases hp : n = p.toNat
    · have hplt := hs.liveDir_lt hins.parent
      have hdata := hins.undone_parent hs hrem
      rw [FileSystem.data_of_lt _ hplt, FileSystem.data_of_lt _ hplt] at hdata
      rw [hp, hdata]
    · rw [hrem.frame n h1 hp hout, hins.frame n h1 hp hout]
  · rw [hins.allocated_iff hs] at hc
    rw [← FileSystem.data_of_lt _ (hins.fresh c hc).1, hrem.cleared c hc]

end Both

/-- A new folder is empty. -/
theorem Inserted.folder_isEmpty
    (h : Inserted s s₁ p k e cs blocks)
    (hdir : e.IsDir) :
    isEmptyTable (s₁.table e.cluster) = true := by
  obtain ⟨-, self, parent, -, htab⟩ := h.folder hdir
  refine (isEmptyTable_iff _).mpr fun j hj => ?_
  rw [htab, recordTable_child self parent hj]
  exact FAT32DirectoryEntry.not_live_zero

end Steps

/-- **Deleting what a `write` has just added undoes the `write`.** -/
theorem delete_undoes_write
    {s : FileSystem}
    {r r' : FAT32DriverRequest}
    (h : Reached NewSystem WellScoped after s)
    (hp : LiveDir s r.parentClusterNumber)
    (hw : (write r s).result = .ok 0)
    (hsame : SameEntry r r') :
    (delete r' (write r s).state).result = .ok 0 ∧
      Undone s (write r s).state (delete r' (write r s).state).state := by
  have hs := wellScopedRun_sound h
  obtain ⟨k, c, rest, -, -, hins⟩ := write_inserted hs hp hw
  have hchild := hins.child_new hs
  have hfirst := hins.firstMatch hs
  rw [newEntry_key, ← hsame.key] at hfirst
  rw [← hsame.parent] at hchild hfirst hins
  have hslot : ((write r s).state.parentTable r' k) = newEntry r c := hins.slot_self
  obtain ⟨ds, s₂, w, hrun, hrem⟩ := delete_child (hins.sound hs) hchild hfirst (by
    rw [hslot]
    exact hins.folder_isEmpty)
  obtain rfl := hins.removed_chain hrem
  rw [hrun]
  exact ⟨rfl, hins.undone hs hrem⟩

/-- A file of two clusters and a folder, each written and deleted again. -/
theorem delete_undoes_firstWrite :
    Undone emptySystem (write (requestFor ['a'] 2 3000) emptySystem).state
        (delete (requestFor ['a'] 2 0)
          (write (requestFor ['a'] 2 3000) emptySystem).state).state ∧
      Undone emptySystem (write (requestFor ['b'] 2 0) emptySystem).state
        (delete (requestFor ['b'] 2 0)
          (write (requestFor ['b'] 2 0) emptySystem).state).state := by
  have hfile : SameEntry (requestFor ['a'] 2 3000) (requestFor ['a'] 2 0) := ⟨rfl, rfl⟩
  have hfolder : SameEntry (requestFor ['b'] 2 0) (requestFor ['b'] 2 0) := ⟨rfl, rfl⟩
  exact ⟨(delete_undoes_write (Reached.start newSystem_emptySystem) (liveDir_root _)
      (by decide +kernel) hfile).2,
    (delete_undoes_write (Reached.start newSystem_emptySystem) (liveDir_root _)
      (by decide +kernel) hfolder).2⟩

end Fat32
end OS2024
