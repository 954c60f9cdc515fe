import OS2024.Fat32.Frame

/-!
# What a deletion removes

`delete` looks a name up in all 64 slots, so it also finds the record of a directory about
itself.  In an empty directory below the root nothing keeps it from deleting that record:
the cluster of the directory is freed although its parent still points to it.

**Results.**
* `clearEntry_cluster_zero`: deleting what has cluster 0 runs off the table.
* `delete_exact_iff`: a deletion removes exactly the requested child, unless it is a
  directory deleting itself.
* `delete_self_dangles`: a directory that deletes itself.
-/

namespace OS2024
namespace Fat32

open TracedState LinkedChain SlotTree Runs

/-! ## Records and cleared slots -/

section Clearing

variable {s : FileSystem} {r : FAT32DriverRequest}

theorem freeChain_badIndex {c : UInt32} (hc : ¬ c.toNat < 512) (rounds : Nat)
    (s : FileSystem) :
    freeChain (rounds + 1) c s = ⟨.error (Fault.clusterMapIndex c), s, []⟩ := by
  simp only [freeChain, bind_apply, clusterMap_apply_of_not_lt hc]

/-- Cluster 0 is not on a chain: what its table entry holds is no index. -/
theorem freeChain_cluster_zero {u : FileSystem} (hu : u.fat 0 = cluster0Value) (rounds : Nat) :
    (freeChain (rounds + 2) 0 u).result = .error (Fault.clusterMapIndex cluster0Value) := by
  have hne : u.fat 0 ≠ fat32FatEndOfFile := by
    rw [hu]
    decide
  rw [freeChain_succ (rounds + 1) (by decide), if_neg hne, hu,
    freeChain_badIndex (by decide)]
  rfl

/-- Deleting an entry with cluster number 0 runs off the table. -/
theorem clearEntry_cluster_zero (hs : Sound s) {t : FAT32DirectoryTable} {k : Fin 64}
    (hk : (t k).cluster = 0) :
    (clearEntry t r k s).result = .error (Fault.clusterMapIndex cluster0Value) := by
  rw [clearEntry, bind_apply, writeTable_apply, Outcome.prepend_result, hk]
  exact bind_result_error (freeChain_cluster_zero (u := s.store _ _) hs.fat_zero 511)

/-- Deleting an entry whose chain is a single cluster succeeds. -/
theorem clearEntry_single {t : FAT32DirectoryTable} {k : Fin 64}
    (hlt : (t k).cluster.toNat < 512) (hend : s.fat (t k).cluster = fat32FatEndOfFile) :
    (clearEntry t r k s).result = .ok 0 := by
  have hrun : ∀ u : FileSystem, u.fat (t k).cluster = fat32FatEndOfFile →
      ∃ w, freeChain 513 (t k).cluster u = ⟨.ok (), freeRound u (t k).cluster, w⟩ := by
    intro u hu
    exact ⟨_, by rw [freeChain_succ 512 hlt, if_pos hu]; rfl⟩
  obtain ⟨w, hfree⟩ := hrun (s.store r.parentClusterNumber
    (FAT32DirectoryTable.toBytes (Function.update t k FAT32DirectoryEntry.zero))) hend
  simp only [clearEntry, bind_apply, writeTable_apply, hfree, pure_apply, flushFat_apply,
    Outcome.prepend]

end Clearing

/-! ## Exactness -/

/-- The deletion asked for by `r` removed the requested child and nothing else. -/
structure DeletesExactly (s s' : FileSystem) (r : FAT32DriverRequest) : Prop where
  gone : ∃ k, Child s r.parentClusterNumber k ∧ (s.parentTable r k).key = r.key ∧
    ∀ d i, Child s' d i ↔ Child s d i ∧ ¬(d = r.parentClusterNumber ∧ i = k)
  rest : ∀ d i, Child s' d i → Kept s s' d i ∧
    ∃ cs, FatChain s' (s'.table d i).cluster cs ∧ ∀ c, c ∈ cs → s'.fat c ≠ 0

/-- The request makes an empty directory below the root delete its own record. -/
def SelfDelete (s : FileSystem) (r : FAT32DriverRequest) : Prop :=
  r.parentClusterNumber ≠ rootClusterNumber ∧ (s.parentTable r 0).key = r.key ∧
    isEmptyTable (s.parentTable r) = true

theorem Removed.deletesExactly {s s' : FileSystem} {r : FAT32DriverRequest} {k : Fin 64}
    {cs : List UInt32} (h : Removed s s' r.parentClusterNumber k cs) (hs : Sound s)
    (hkey : (s.parentTable r k).key = r.key) : DeletesExactly s s' r where
  gone := ⟨k, h.child, hkey, h.child_iff hs⟩
  rest := by
    intro d i hd
    obtain ⟨hd₀, hslot⟩ := (h.child_iff hs d i).mp hd
    obtain ⟨-, ds, hds, -⟩ := (h.sound hs).chain d i hd
    exact ⟨h.kept hs hd₀ hslot, ds, hds,
      fun c hc => (h.sound hs).fat_ne_zero_of_mem hd hds hc⟩

section Exactness

variable {s : FileSystem} {r : FAT32DriverRequest}

theorem key_ne_blank (hname : r.name ≠ fun _ => 0) : r.key ≠ Key.blank :=
  fun he => hname (congrArg Prod.fst he)

/-- A match that is not blank is in use. -/
theorem FirstMatch.live (hs : Sound s) (hp : LiveDir s r.parentClusterNumber) {k : Fin 64}
    (hk : FirstMatch (s.parentTable r) r.key k) (hblank : r.key ≠ Key.blank) :
    (s.parentTable r k).Live := by
  by_contra hl
  exact hblank (hk.1.symm.trans ((hs.table _ hp).key_of_not_live hl))

/-- The parent of a directory is not empty. -/
theorem parent_not_empty {p : UInt32} {i : Fin 64} (hp : Child s p i) :
    ¬ isEmptyTable (s.table p) = true := by
  rw [isEmptyTable_iff]
  exact fun h => h i hp.2.1 hp.2.2

/-- A directory that deletes its own record reports success. -/
theorem delete_selfDelete (hs : Sound s) (hr : Recorded s)
    (hp : LiveDir s r.parentClusterNumber) (hself : SelfDelete s r) :
    (delete r s).result = .ok 0 := by
  obtain ⟨hroot, hkey, hempty⟩ := hself
  have hcl : (s.parentTable r 0).cluster = r.parentClusterNumber := hr.self _ hp hroot
  have hfirst : FirstMatch (s.parentTable r) r.key 0 :=
    ⟨hkey, fun j hj => absurd hj (Fin.not_lt_zero j)⟩
  rw [delete_clear (hs.parentOk hp) hfirst fun _ => by rw [hcl]; exact hempty,
    Outcome.prepend_result]
  refine clearEntry_single ?_ ?_ <;> rw [hcl]
  · exact hs.liveDir_lt hp
  · exact hs.liveDir_fat hp

/-- Apart from self-deletion, a deletion that reports success matched no record. -/
theorem two_le_of_deleted (hs : Sound s) (hr : Recorded s)
    (hp : LiveDir s r.parentClusterNumber) {k : Fin 64}
    (hk : FirstMatch (s.parentTable r) r.key k)
    (hempty : (s.parentTable r k).IsDir →
      isEmptyTable (s.table (s.parentTable r k).cluster) = true)
    (hself : ¬ SelfDelete s r) (hdel : (delete r s).result = .ok 0) : 2 ≤ k := by
  by_contra hlt
  have hdir := ((hs.table _ hp).record k (not_le.mp hlt)).2
  have hcase : k = 0 ∨ k = 1 := by omega
  by_cases hroot : r.parentClusterNumber = rootClusterNumber
  · -- both records of the root have the key of slot 0, whose cluster number is 0
    have hrec : ∀ i, i < 2 → s.parentTable r i = rootTable i := by
      intro i hi
      rw [FileSystem.parentTable, hroot]
      exact hr.root i hi
    rcases hcase with rfl | rfl
    · have hzero : (s.parentTable r 0).cluster = 0 := by
        rw [hrec 0 (by decide)]
        rfl
      rw [delete_clear (hs.parentOk hp) hk hempty, Outcome.prepend_result,
        clearEntry_cluster_zero hs hzero] at hdel
      cases hdel
    · refine hk.2 0 (by decide) ?_
      rw [← hk.1, hrec 0 (by decide), hrec 1 (by decide)]
      rfl
  · rcases hcase with rfl | rfl
    · have hcl := hr.self _ hp hroot
      refine hself ⟨hroot, hk.1, ?_⟩
      rw [← hempty hdir, FileSystem.parentTable, hcl]
    · -- the record of the parent leads to a directory that has a child
      obtain ⟨p, i, hp', hpdir, hcl⟩ := (liveDir_cases hp).resolve_left hroot
      have hup : (s.parentTable r 1).cluster = p := by
        rw [FileSystem.parentTable, ← hcl]
        exact hr.parent p i hp' hpdir
      exact parent_not_empty hp' (by rw [← hup]; exact hempty hdir)

/-- Apart from self-deletion, what `delete` removes is a child. -/
theorem delete_ok_child (hs : Sound s) (hr : Recorded s)
    (hp : LiveDir s r.parentClusterNumber) (hblank : r.key ≠ Key.blank)
    (hself : ¬ SelfDelete s r) (hdel : (delete r s).result = .ok 0) :
    ∃ k cs, FirstMatch (s.parentTable r) r.key k ∧
      Removed s (delete r s).state r.parentClusterNumber k cs := by
  have hok := hs.parentOk hp
  rcases firstMatch_or_noMatch (s.parentTable r) r.key with ⟨k, hk⟩ | hm
  · by_cases hempty : (s.parentTable r k).IsDir →
        isEmptyTable (s.table (s.parentTable r k).cluster) = true
    · have h2 := two_le_of_deleted hs hr hp hk hempty hself hdel
      obtain ⟨cs, s', w, hrun, hrem⟩ :=
        delete_child hs ⟨hp, h2, hk.live hs hp hblank⟩ hk hempty
      exact ⟨k, cs, hk, by rw [hrun]; exact hrem⟩
    · rw [Classical.not_imp] at hempty
      rw [delete_notEmpty hok hk hempty.1 hempty.2] at hdel
      cases hdel
  · rw [delete_notFound hok hm] at hdel
    cases hdel

end Exactness

/-- **A deletion that reports success removed exactly the requested child, unless an empty
directory deleted its own record.** -/
theorem delete_exact_iff {s : FileSystem} {r : FAT32DriverRequest}
    (h : Reached NewSystem Safe after s) (hp : LiveDir s r.parentClusterNumber)
    (hname : r.name ≠ fun _ => 0) :
    ((delete r s).result = .ok 0 → DeletesExactly s (delete r s).state r) ↔
      ¬ SelfDelete s r := by
  have hs := safeRun_sound h
  have hr := safeRun_recorded h
  constructor
  · intro hexact hself
    obtain ⟨k, hk, -, -⟩ := (hexact (delete_selfDelete hs hr hp hself)).gone
    exact parent_not_empty hk hself.2.2
  · intro hself hdel
    obtain ⟨k, cs, hk, hrem⟩ :=
      delete_ok_child hs hr hp (key_ne_blank hname) hself hdel
    exact hrem.deletesExactly hs hk.1

/-- The root with one folder `a`, in cluster 3. -/
def folderSystem : FileSystem := after emptySystem (Call.write (requestFor ['a'] 2 0))

theorem folderSystem_reached : Reached NewSystem WellScoped after folderSystem :=
  Reached.step (Reached.start newSystem_emptySystem)
    (wellScoped_write (liveDir_root _) (by decide))

theorem delete_exact_folder :
    (delete (requestFor ['a'] 2 0) folderSystem).result = .ok 0 ∧
      DeletesExactly folderSystem (delete (requestFor ['a'] 2 0) folderSystem).state
        (requestFor ['a'] 2 0) := by
  have hdel : (delete (requestFor ['a'] 2 0) folderSystem).result = .ok 0 := by
    decide +kernel
  have hname : (requestFor ['a'] 2 0).name ≠ fun _ => 0 := by decide
  exact ⟨hdel, (delete_exact_iff (folderSystem_reached.mono fun _ _ _ hc => hc.1.safe)
    (liveDir_root _) hname).mpr (fun hself => hself.1 rfl) hdel⟩

/-- Asked to delete `a` in the folder `a`, the driver frees the folder's cluster and
reports success, while the root still has a live entry that points to it. -/
theorem delete_self_dangles :
    Reached NewSystem WellScoped after folderSystem ∧ LiveDir folderSystem 3 ∧
      (requestFor ['a'] 3 0).name ≠ (fun _ => 0) ∧
      (delete (requestFor ['a'] 3 0) folderSystem).result = .ok 0 ∧
      Child (delete (requestFor ['a'] 3 0) folderSystem).state 2 2 ∧
      ((delete (requestFor ['a'] 3 0) folderSystem).state.table 2 2).cluster = 3 ∧
      (delete (requestFor ['a'] 3 0) folderSystem).state.fat 3 = 0 ∧
      ¬ DeletesExactly folderSystem (delete (requestFor ['a'] 3 0) folderSystem).state
        (requestFor ['a'] 3 0) := by
  have hcl : ((delete (requestFor ['a'] 3 0) folderSystem).state.table 2 2).cluster = 3 := by
    decide +kernel
  have hfree : (delete (requestFor ['a'] 3 0) folderSystem).state.fat 3 = 0 := by
    decide +kernel
  have hchild : Child (delete (requestFor ['a'] 3 0) folderSystem).state 2 2 :=
    ⟨liveDir_root _, by decide, by decide +kernel⟩
  have hedge : folderSystem.edge 2 2 = some 3 := by decide +kernel
  refine ⟨folderSystem_reached, Reach.child (liveDir_root _) hedge, by decide,
    by decide +kernel, hchild, hcl, hfree, fun hexact => ?_⟩
  obtain ⟨-, cs, hcs, hused⟩ := hexact.rest 2 2 hchild
  rw [hcl] at hcs
  exact hused 3 (hcs.head_mem (by decide)) hfree

end Fat32
end OS2024
