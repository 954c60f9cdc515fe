import OS2024.Fat32.Deletion

/-!
# Which requests find what they ask for

Every operation first checks its parent cluster and then scans the parent's table.  The
check only compares the table entry of the parent with the end marker, which is also the
entry of cluster 1 and of the last cluster of every file.  The scans of `read`, `write`
and `delete` ignore whether a slot is in use, so a blank key matches a cleared slot.

**Results.**
* `read_code_two_iff`, `readDirectory_code_two_iff`, `write_code_one_iff`,
  `delete_code_one_iff`: what each scan reports, in any state.
* `parentRejected_iff`: when a request is turned down for its parent.
* `fat_end_iff`: which clusters pass the check although they are no directories.
* `lookupAgrees_iff`: when the four scans agree on what exists.
-/

namespace OS2024
namespace Fat32

open TracedState LinkedChain SlotTree Runs

/-! ## What the scans report -/

section Codes

variable {s : FileSystem} {r : FAT32DriverRequest}

/-- The last part of `write` returns 0 or faults. -/
theorem storeEntry_result (t : FAT32DirectoryTable) (r : FAT32DriverRequest) (k : Fin 64)
    (c : UInt32) (rest : List UInt32) (s : FileSystem) :
    (storeEntry t r k c rest s).result = .ok 0 ∨
      ∃ e, (storeEntry t r k c rest s).result = .error e := by
  rw [storeEntry, bind_apply]
  rcases hrun : writeContent r c rest s with ⟨e | a, s', w⟩
  · exact Or.inr ⟨e, rfl⟩
  · refine Or.inl ?_
    simp only [bind_apply, writeTable_apply, pure_apply, Outcome.prepend]

/-- The last part of `delete` returns 0 or faults. -/
theorem clearEntry_result (t : FAT32DirectoryTable) (r : FAT32DriverRequest) (k : Fin 64)
    (s : FileSystem) :
    (clearEntry t r k s).result = .ok 0 ∨ ∃ e, (clearEntry t r k s).result = .error e := by
  rw [clearEntry, bind_apply, writeTable_apply, Outcome.prepend_result, bind_apply]
  rcases hrun : freeChain 513 (t k).cluster (s.store r.parentClusterNumber
    (FAT32DirectoryTable.toBytes (Function.update t k FAT32DirectoryEntry.zero)))
    with ⟨e | a, s', w⟩
  · exact Or.inr ⟨e, rfl⟩
  · refine Or.inl ?_
    simp only [bind_apply, flushFat_apply, pure_apply, Outcome.prepend]

/-- A `write` that passes the check and finds no such key returns 0 or -1 or faults. -/
theorem write_noMatch_result (hp : ParentOk s r) (hm : NoMatch (s.parentTable r) r.key) :
    (write r s).result = .ok 0 ∨ (write r s).result = .ok (-1) ∨
      ∃ e, (write r s).result = .error e := by
  rcases firstEmpty_or_full (s.parentTable r) with ⟨k, hk⟩ | hfull
  · by_cases hfree : (freeClusters s.fatTable).length < (required r).toNat
    · exact Or.inr (Or.inl (by rw [write_noSpace hp hm hk hfree]))
    · cases hbuf : slotBuf s r with
      | nil =>
          have hreq := required_of_slotBuf_nil hbuf (Nat.not_lt.mp hfree)
          exact Or.inr (Or.inr ⟨_, by rw [write_emptySlotBuf hp hm hk hreq]⟩)
      | cons c rest =>
          rw [write_slots hp hm hk hbuf (Nat.not_lt.mp hfree), Outcome.prepend_result]
          rcases storeEntry_result (s.parentTable r) r k c rest s with h | h
          · exact Or.inl h
          · exact Or.inr (Or.inr h)
  · exact Or.inr (Or.inl (by rw [write_full hp hm hfull]))

theorem write_code_one_iff (hp : ParentOk s r) :
    (write r s).result = .ok 1 ↔ ¬ NoMatch (s.parentTable r) r.key := by
  constructor
  · intro h hm
    rcases write_noMatch_result hp hm with h' | h' | ⟨e, h'⟩ <;> rw [h] at h' <;> cases h'
  · intro hm
    rw [write_exists hp hm]

/-- Code 2 of `write` stands for a bad parent only. -/
theorem write_code_ne_two (hp : ParentOk s r) : (write r s).result ≠ .ok 2 := by
  intro h
  by_cases hm : NoMatch (s.parentTable r) r.key
  · rcases write_noMatch_result hp hm with h' | h' | ⟨e, h'⟩ <;> rw [h] at h' <;> cases h'
  · rw [write_exists hp hm] at h
    cases h

theorem delete_code_one_iff (hp : ParentOk s r) :
    (delete r s).result = .ok 1 ↔ NoMatch (s.parentTable r) r.key := by
  constructor
  · intro h
    refine (firstMatch_or_noMatch _ _).resolve_left ?_
    rintro ⟨k, hk⟩
    by_cases hempty : (s.parentTable r k).IsDir →
        isEmptyTable (s.table (s.parentTable r k).cluster) = true
    · rw [delete_clear hp hk hempty, Outcome.prepend_result] at h
      rcases clearEntry_result (s.parentTable r) r k s with h' | ⟨e, h'⟩ <;>
        rw [h] at h' <;> cases h'
    · rw [Classical.not_imp] at hempty
      rw [delete_notEmpty hp hk hempty.1 hempty.2] at h
      cases h
  · intro hm
    rw [delete_notFound hp hm]

theorem read_code_two_iff (hp : ParentOk s r) :
    (∃ ds, (read r s).result = .ok (2, ds)) ↔ NoMatch (s.parentTable r) r.key := by
  constructor
  · rintro ⟨ds, h⟩
    refine (firstMatch_or_noMatch _ _).resolve_left ?_
    rintro ⟨k, hk⟩
    by_cases hdir : (s.parentTable r k).IsDir
    · rw [read_dir hp hk hdir] at h
      cases h
    · by_cases hsmall : TooSmall s r k
      · rw [read_tooSmall hp hk hdir hsmall] at h
        cases h
      · rw [read_walk hp hk hdir hsmall, Outcome.prepend_result, bind_apply] at h
        rcases hrun : readChain 512 0 (s.parentTable r k).cluster s with ⟨e | a, s', w⟩ <;>
          rw [hrun] at h <;> cases h
  · intro hm
    exact ⟨[], by rw [read_notFound hp hm]⟩

theorem readDirectory_code_two_iff :
    (∃ ds, (readDirectory r s).result = .ok (2, ds)) ↔
      ∀ i, ¬ ((s.parentTable r i).Live ∧ (s.parentTable r i).key = r.key) := by
  constructor
  · rintro ⟨ds, h⟩
    refine (firstLiveMatch_or _ _).resolve_left ?_
    rintro ⟨k, hk⟩
    by_cases hdir : (s.parentTable r k).IsDir
    · by_cases hsmall : r.bufferSize < 32
      · rw [readDirectory_tooSmall hk hdir hsmall] at h
        cases h
      · rw [readDirectory_dir hk hdir hsmall] at h
        cases h
    · rw [readDirectory_file hk hdir] at h
      cases h
  · intro hm
    exact ⟨[], by rw [readDirectory_notFound hm]⟩

end Codes

/-! ## The check of the parent -/

/-- The three operations turn the request down for its parent and change nothing. -/
structure ParentRejected (s : FileSystem) (r : FAT32DriverRequest) : Prop where
  read : ∃ ds, (Fat32.read r s).result = .ok (2, ds)
  write : (Fat32.write r s).result = .ok 2
  delete : (Fat32.delete r s).result = .ok 2
  read_state : (Fat32.read r s).state = s
  write_state : (Fat32.write r s).state = s
  delete_state : (Fat32.delete r s).state = s

/-- The cluster `c` is the last one of a file. -/
def LastOfFile (s : FileSystem) (c : UInt32) : Prop :=
  ∃ d i cs, Child s d i ∧ ¬ (s.table d i).IsDir ∧ FatChain s (s.table d i).cluster cs ∧
    cs.getLast? = some c

/-- In any state, a request is turned down for its parent if and only if the table entry
of the parent is not the end marker. -/
theorem parentRejected_iff_fat {s : FileSystem} {r : FAT32DriverRequest}
    (hlt : r.parentClusterNumber.toNat < 512) :
    ParentRejected s r ↔ s.fat r.parentClusterNumber ≠ fat32FatEndOfFile := by
  constructor
  · exact fun h hend => write_code_ne_two ⟨hlt, hend⟩ h.write
  · intro hend
    refine ⟨⟨[], ?_⟩, ?_, ?_, ?_, ?_, ?_⟩
    · rw [read_badParent hlt hend]
    · rw [write_badParent hlt hend]
    · rw [delete_badParent hlt hend]
    · rw [read_badParent hlt hend]
    · rw [write_badParent hlt hend]
    · rw [delete_badParent hlt hend]

/-- Besides live directories, cluster 1 and the last clusters of files carry the end
marker. -/
theorem Sound.fat_end_iff {s : FileSystem} (hs : Sound s) {c : UInt32} (hc : ¬ LiveDir s c) :
    s.fat c = fat32FatEndOfFile ↔ c = 1 ∨ LastOfFile s c := by
  constructor
  · intro hend
    by_cases hc3 : 3 ≤ c.toNat
    · have hused : s.fat c ≠ 0 := by
        rw [hend]
        decide
      obtain ⟨d, i, hd, cs, hcs, hmem⟩ := hs.noLeak c hc3 hused
      refine Or.inr ⟨d, i, cs, hd, fun hdir => hc ?_, hcs,
        (hcs.next_eq_stop_iff hmem).mp hend⟩
      rw [hs.dir_chain hd hdir hcs, List.mem_singleton] at hmem
      rw [hmem]
      exact hd.liveDir hdir
    · have hcase : c = 0 ∨ c = 1 ∨ c = 2 := by
        have : c.toNat = 0 ∨ c.toNat = 1 ∨ c.toNat = 2 := by omega
        simpa [← UInt32.toNat_inj] using this
      rcases hcase with rfl | rfl | rfl
      · rw [hs.fat_zero] at hend
        exact absurd hend (by decide)
      · exact Or.inl rfl
      · exact absurd (liveDir_root s) hc
  · rintro (rfl | ⟨d, i, cs, hd, -, hcs, hlast⟩)
    · exact hs.fat_one
    · exact (hcs.next_eq_stop_iff (List.mem_of_getLast? hlast)).mpr hlast

/-- **A request is turned down for its parent exactly when the table entry of the parent is
not the end marker.  After safe calls, the clusters that pass without being directories
are cluster 1 and the last clusters of files.** -/
theorem parentRejected_iff (s : FileSystem) (r : FAT32DriverRequest)
    (hlt : r.parentClusterNumber.toNat < 512) :
    (ParentRejected s r ↔ s.fat r.parentClusterNumber ≠ fat32FatEndOfFile) ∧
      (Reached NewSystem Safe after s → ¬ LiveDir s r.parentClusterNumber →
        (ParentRejected s r ↔
          ¬(r.parentClusterNumber = 1 ∨ LastOfFile s r.parentClusterNumber))) := by
  refine ⟨parentRejected_iff_fat hlt, fun h hdead => ?_⟩
  rw [parentRejected_iff_fat hlt, ne_eq, (safeRun_sound h).fat_end_iff hdead]

/-- The root with one file `a` of two clusters, 3 and 4. -/
def fileSystemWithFile : FileSystem :=
  after emptySystem (Call.write (requestFor ['a'] 2 3000))

theorem fileSystemWithFile_reached : Reached NewSystem WellScoped after fileSystemWithFile :=
  Reached.step (Reached.start newSystem_emptySystem) wellScoped_firstWrite

/-- The last cluster of the file is no directory. -/
theorem lastOfFile_four :
    LastOfFile fileSystemWithFile 4 ∧ ¬ LiveDir fileSystemWithFile 4 := by
  have hcl : (fileSystemWithFile.table 2 2).cluster = 3 := by decide +kernel
  have hnext : fileSystemWithFile.fat 3 = 4 := by decide +kernel
  have hend : fileSystemWithFile.fat 4 = fat32FatEndOfFile := by decide +kernel
  have hd : Child fileSystemWithFile 2 2 := ⟨liveDir_root _, by decide, by decide +kernel⟩
  have hfile : ¬ (fileSystemWithFile.table 2 2).IsDir := by decide +kernel
  have hcs : FatChain fileSystemWithFile (fileSystemWithFile.table 2 2).cluster [3, 4] := by
    rw [hcl]
    refine Linked.cons (by decide) ?_
    rw [hnext]
    refine Linked.cons (by decide) ?_
    rw [hend]
    exact Linked.nil
  exact ⟨⟨2, 2, [3, 4], hd, hfile, hcs, rfl⟩,
    (wellScopedRun_sound fileSystemWithFile_reached).not_liveDir_of_owns
      ⟨hd, [3, 4], hcs, by decide⟩ hfile⟩

/-- Requests in a free cluster and in the first cluster of a file are turned down. -/
theorem parentRejected_free_and_first :
    ParentRejected emptySystem (requestFor ['b'] 7 100) ∧
      ParentRejected fileSystemWithFile (requestFor ['b'] 3 100) := by
  have hsafe : Reached NewSystem Safe after emptySystem :=
    Reached.start newSystem_emptySystem
  have hdead : ¬ LiveDir emptySystem 7 := fun h =>
    absurd ((newSystem_emptySystem.created.liveDir_iff 7).mp h) (by decide)
  have hnot : ¬((7 : UInt32) = 1 ∨ LastOfFile emptySystem 7) := by
    rintro (h | ⟨d, i, -, hd, -⟩)
    · exact absurd h (by decide)
    · exact newSystem_emptySystem.created.not_child d i hd
  exact ⟨((parentRejected_iff emptySystem (requestFor ['b'] 7 100) (by decide)).2 hsafe
      hdead).mpr hnot,
    (parentRejected_iff fileSystemWithFile (requestFor ['b'] 3 100) (by decide)).1.mpr
      (by decide +kernel)⟩

/-- A `write` into the last cluster of a file passes the check and overwrites the file's
data with a directory entry. -/
theorem write_into_file :
    Reached NewSystem WellScoped after fileSystemWithFile ∧
      ¬ LiveDir fileSystemWithFile 4 ∧
      (write (requestFor ['b'] 4 100) fileSystemWithFile).result = .ok 0 ∧
      (write (requestFor ['b'] 4 100) fileSystemWithFile).state.data 4 ≠
        fileSystemWithFile.data 4 ∧
      ¬ ParentRejected fileSystemWithFile (requestFor ['b'] 4 100) := by
  have hcode : (write (requestFor ['b'] 4 100) fileSystemWithFile).result = .ok 0 := by
    decide +kernel
  refine ⟨fileSystemWithFile_reached, lastOfFile_four.2, hcode, fun hdata => ?_, fun h => ?_⟩
  · have hbyte := congrFun hdata 32
    revert hbyte
    decide +kernel
  · have htwo := h.write
    rw [hcode] at htwo
    cases htwo

/-! ## Agreement of the four scans -/

/-- Whether a slot in use holds the key decides all four operations alike. -/
structure LookupAgrees (s : FileSystem) (r : FAT32DriverRequest) : Prop where
  absent : (∀ i, ¬ ((s.parentTable r i).Live ∧ (s.parentTable r i).key = r.key)) →
    (∃ ds, (read r s).result = .ok (2, ds)) ∧
      (∃ ds, (readDirectory r s).result = .ok (2, ds)) ∧
      (delete r s).result = .ok 1 ∧ (write r s).result ≠ .ok 1
  present : (∃ i, (s.parentTable r i).Live ∧ (s.parentTable r i).key = r.key) →
    (∀ ds, (read r s).result ≠ .ok (2, ds)) ∧
      (∀ ds, (readDirectory r s).result ≠ .ok (2, ds)) ∧
      (delete r s).result ≠ .ok 1 ∧ (write r s).result = .ok 1

/-- The key is blank, no slot in use has it, but some slot is cleared. -/
def BlankHit (s : FileSystem) (r : FAT32DriverRequest) : Prop :=
  r.key = Key.blank ∧ (∀ i, (s.parentTable r i).Live → (s.parentTable r i).key ≠ Key.blank) ∧
    ∃ i, ¬ (s.parentTable r i).Live

section Agreement

variable {s : FileSystem} {r : FAT32DriverRequest}

theorem not_live_of_noMatch {t : FAT32DirectoryTable} {k : Key} (h : NoMatch t k) (i : Fin 64) :
    ¬ ((t i).Live ∧ (t i).key = k) :=
  fun hi => h i hi.2

/-- A key that only cleared slots have is the blank one. -/
theorem blankHit_of_match (hs : Sound s) (hp : LiveDir s r.parentClusterNumber)
    (hdead : ∀ i, ¬ ((s.parentTable r i).Live ∧ (s.parentTable r i).key = r.key))
    (hm : ¬ NoMatch (s.parentTable r) r.key) : BlankHit s r := by
  obtain ⟨k, hk⟩ := (firstMatch_or_noMatch (s.parentTable r) r.key).resolve_right hm
  have hl : ¬ (s.parentTable r k).Live := fun hl => hdead k ⟨hl, hk.1⟩
  have hblank : r.key = Key.blank := hk.1.symm.trans ((hs.table _ hp).key_of_not_live hl)
  exact ⟨hblank, fun i hi he => hdead i ⟨hi, by rw [he, hblank]⟩, k, hl⟩

theorem BlankHit.match (hs : Sound s) (hp : LiveDir s r.parentClusterNumber)
    (h : BlankHit s r) : ¬ NoMatch (s.parentTable r) r.key := by
  obtain ⟨hblank, -, i, hl⟩ := h
  exact fun hm => hm i (((hs.table _ hp).key_of_not_live hl).trans hblank.symm)

end Agreement

/-- **The four scans agree on what exists, unless a blank key only hits cleared slots.** -/
theorem lookupAgrees_iff {s : FileSystem} {r : FAT32DriverRequest}
    (h : Reached NewSystem WellScoped after s) (hp : LiveDir s r.parentClusterNumber) :
    LookupAgrees s r ↔ ¬ BlankHit s r := by
  have hs := wellScopedRun_sound h
  have hok := hs.parentOk hp
  constructor
  · intro hagree hblank
    have hdead : ∀ i, ¬ ((s.parentTable r i).Live ∧ (s.parentTable r i).key = r.key) := by
      rintro i ⟨hl, hkey⟩
      exact hblank.2.1 i hl (by rw [hkey, hblank.1])
    obtain ⟨-, -, hdelete, -⟩ := hagree.absent hdead
    exact hblank.match hs hp ((delete_code_one_iff hok).mp hdelete)
  · intro hblank
    constructor
    · intro hdead
      have hm : NoMatch (s.parentTable r) r.key :=
        by_contra fun hm => hblank (blankHit_of_match hs hp hdead hm)
      exact ⟨(read_code_two_iff hok).mpr hm, readDirectory_code_two_iff.mpr hdead,
        (delete_code_one_iff hok).mpr hm, fun h1 => (write_code_one_iff hok).mp h1 hm⟩
    · rintro ⟨i, hi⟩
      have hm : ¬ NoMatch (s.parentTable r) r.key := fun hm => not_live_of_noMatch hm i hi
      exact ⟨fun ds h2 => hm ((read_code_two_iff hok).mp ⟨ds, h2⟩),
        fun ds h2 => readDirectory_code_two_iff.mp ⟨ds, h2⟩ i hi,
        fun h1 => hm ((delete_code_one_iff hok).mp h1), (write_code_one_iff hok).mpr hm⟩

theorem lookupAgrees_file : LookupAgrees fileSystemWithFile (requestFor ['a'] 2 0) :=
  (lookupAgrees_iff fileSystemWithFile_reached (liveDir_root _)).mpr
    fun h => absurd h.1 (by decide)

/-- In a new root no slot in use has the blank key, but `write` finds it taken and
`delete` does not report it missing. -/
theorem blank_key_disagrees :
    Reached NewSystem WellScoped after emptySystem ∧
      (∀ i, ¬ ((emptySystem.parentTable (requestFor [] 2 0) i).Live ∧
        (emptySystem.parentTable (requestFor [] 2 0) i).key = (requestFor [] 2 0).key)) ∧
      (readDirectory (requestFor [] 2 0) emptySystem).result = .ok (2, []) ∧
      (write (requestFor [] 2 0) emptySystem).result = .ok 1 ∧
      (delete (requestFor [] 2 0) emptySystem).result ≠ .ok 1 ∧
      ¬ LookupAgrees emptySystem (requestFor [] 2 0) := by
  have hdead : ∀ i, ¬ ((emptySystem.parentTable (requestFor [] 2 0) i).Live ∧
      (emptySystem.parentTable (requestFor [] 2 0) i).key = (requestFor [] 2 0).key) := by
    decide +kernel
  have hdelete : (delete (requestFor [] 2 0) emptySystem).result ≠ .ok 1 := by
    decide +kernel
  exact ⟨Reached.start newSystem_emptySystem, hdead, by decide +kernel, by decide +kernel,
    hdelete, fun h => hdelete (h.absent hdead).2.2.1⟩

end Fat32
end OS2024
