import OS2024.Fat32.Insertion
import OS2024.Fat32.Removal

/-!
# The requests, case by case

How `read`, `read_directory`, `write` and `delete` run, one theorem for each way through
the code.  On a sound file system a `write` that goes through adds an entry to the tree
and a `delete` that goes through removes a child.

**Results.**
* `write_done`, `delete_child`: the successful runs as edits of the tree.
* `write_badParent`, `write_exists`, `write_full`, `write_noSpace`, `write_emptySlotBuf`,
  `delete_badParent`, `delete_notFound`, `delete_notEmpty`: the runs that change nothing.
* `read_file`, `readDirectory_dir` and the failing reads.
-/

namespace OS2024
namespace Fat32

open Stdlib TracedState LinkedChain

variable {s : FileSystem} {r : FAT32DriverRequest}

/-- The table of the directory a request is about. -/
abbrev FileSystem.parentTable (s : FileSystem) (r : FAT32DriverRequest) :
    FAT32DirectoryTable :=
  s.table r.parentClusterNumber

/-- The request passes the check of its parent cluster. -/
def ParentOk (s : FileSystem) (r : FAT32DriverRequest) : Prop :=
  r.parentClusterNumber.toNat < 512 ∧ s.fat r.parentClusterNumber = fat32FatEndOfFile

theorem Sound.parentOk (hs : Sound s) (hp : LiveDir s r.parentClusterNumber) :
    ParentOk s r :=
  ⟨hs.liveDir_lt hp, hs.liveDir_fat hp⟩

/-- The events of reading the parent's table. -/
abbrev parentReadEvents (r : FAT32DriverRequest) : List DiskEvent :=
  clusterReadEvents (physical r.parentClusterNumber)

/-! ## Writing -/

theorem write_badParent (hp : r.parentClusterNumber.toNat < 512)
    (hf : s.fat r.parentClusterNumber ≠ fat32FatEndOfFile) :
    write r s = ⟨.ok 2, s, []⟩ := by
  simp [write, bind_apply, clusterMap_apply hp, hf, Outcome.prepend]

theorem write_exists (hp : ParentOk s r) (hm : ¬ NoMatch (s.parentTable r) r.key) :
    write r s = ⟨.ok 1, s, parentReadEvents r⟩ := by
  simp [write, bind_apply, clusterMap_apply hp.1, hp.2, readTable_apply,
    (writeScan_eq_none_iff _ _).mpr hm, Outcome.prepend]

theorem write_full (hp : ParentOk s r) (hm : NoMatch (s.parentTable r) r.key)
    (hfull : Full (s.parentTable r)) :
    write r s = ⟨.ok (-1), s, parentReadEvents r⟩ := by
  simp [write, bind_apply, clusterMap_apply hp.1, hp.2, readTable_apply,
    writeScan_full hm hfull, Outcome.prepend]

/-- What `slot_buf` holds after `count_empty_fat_slots`. -/
abbrev slotBuf (s : FileSystem) (r : FAT32DriverRequest) : List UInt32 :=
  (freeClusters s.fatTable).take (required r).toNat

theorem length_slotBuf_lt_iff :
    (slotBuf s r).length < (required r).toNat ↔
      (freeClusters s.fatTable).length < (required r).toNat := by
  rw [List.length_take]
  omega

/-- Enough free entries and yet no slot: `slot_buf` has length 0. -/
theorem required_of_slotBuf_nil (hbuf : slotBuf s r = [])
    (hfree : (required r).toNat ≤ (freeClusters s.fatTable).length) : required r = 0 := by
  have hlen := congrArg List.length hbuf
  rw [List.length_take, List.length_nil] at hlen
  exact UInt8.toNat_inj.mp (by rw [UInt8.toNat_zero]; omega)

/-- The last part of `write`, once the slots `c :: rest` are found. -/
def storeEntry (dirTable : FAT32DirectoryTable) (r : FAT32DriverRequest) (k : Fin 64)
    (c : UInt32) (rest : List UInt32) : Driver Int8 := do
  writeContent r c rest
  writeTable (Function.update dirTable k (newEntry r c)) r.parentClusterNumber
  return 0

section Slot

variable {k : Fin 64} (hp : ParentOk s r) (hm : NoMatch (s.parentTable r) r.key)
  (hk : FirstEmpty (s.parentTable r) k)
include hp hm hk

theorem write_noSpace (hfree : (freeClusters s.fatTable).length < (required r).toNat) :
    write r s = ⟨.ok (-1), s, parentReadEvents r⟩ := by
  have hlen := length_slotBuf_lt_iff.mpr hfree
  simp only [write, bind_apply, clusterMap_apply hp.1, hp.2, readTable_apply,
    writeScan_firstEmpty hm hk, getState_apply, Outcome.prepend, ne_eq, not_true, if_false,
    if_neg hk.1, countEmptyFatSlots_eq, if_pos hlen, pure_apply, List.nil_append,
    List.append_nil]

theorem write_emptySlotBuf (hreq : required r = 0) :
    write r s = ⟨.error Fault.emptySlotBuf, s, parentReadEvents r⟩ := by
  have hbuf : slotBuf s r = [] := by rw [slotBuf, hreq]; rfl
  have hlen : ¬ ([] : List UInt32).length < (required r).toNat := by rw [hreq]; decide
  simp only [write, bind_apply, clusterMap_apply hp.1, hp.2, readTable_apply,
    writeScan_firstEmpty hm hk, getState_apply, Outcome.prepend, ne_eq, not_true, if_false,
    if_neg hk.1, countEmptyFatSlots_eq, hbuf, if_neg hlen, fault_apply, List.nil_append,
    List.append_nil]

/-- Once the slots are found, `write` stores the content and then the parent's table. -/
theorem write_slots {c : UInt32} {rest : List UInt32} (hbuf : slotBuf s r = c :: rest)
    (hfree : (required r).toNat ≤ (freeClusters s.fatTable).length) :
    write r s = (storeEntry (s.parentTable r) r k c rest s).prepend (parentReadEvents r) := by
  have hlen : ¬ (c :: rest).length < (required r).toNat := by
    rw [← hbuf, length_slotBuf_lt_iff]
    omega
  simp only [write, bind_apply, clusterMap_apply hp.1, hp.2, readTable_apply,
    writeScan_firstEmpty hm hk, getState_apply, ne_eq, not_true, if_false,
    if_neg hk.1, countEmptyFatSlots_eq, hbuf, if_neg hlen]
  rfl

end Slot

/-- Slot 0 of the folder that `write` creates in cluster `c`. -/
def folderSelf (r : FAT32DriverRequest) (c : UInt32) : FAT32DirectoryEntry :=
  { selfRecord r.name with
    clusterLow := (c &&& 0xFFFF).toUInt16
    clusterHigh := (c >>> 16 &&& 0xFFFF).toUInt16 }

/-- Slot 1 of the folder that `write` creates. -/
def folderParent (s : FileSystem) (r : FAT32DriverRequest) : FAT32DirectoryEntry :=
  parentRecord (s.parentTable r 0).name r.parentClusterNumber

theorem folder_records (s : FileSystem) (r : FAT32DriverRequest) (c : UInt32) :
    Records (folderSelf r c) (folderParent s r) c r.parentClusterNumber where
  self_live := rfl
  self_isDir := rfl
  self_cluster := LittleEndian.join_halves c
  parent_live := rfl
  parent_isDir := rfl
  parent_cluster := LittleEndian.join_halves r.parentClusterNumber

/-- The table of the folder that `write` creates in cluster `c`. -/
def newFolderTable (s : FileSystem) (r : FAT32DriverRequest) (c : UInt32) :
    FAT32DirectoryTable :=
  recordTable (folderSelf r c) (folderParent s r)

/-- The clusters of the new file or the table of the new folder. -/
def newBlocks (s : FileSystem) (r : FAT32DriverRequest) (c : UInt32) (m : Nat) :
    List ClusterBuffer :=
  if isFolder r then [(newFolderTable s r c).toBytes] else chunks r.buf 0 m

theorem update_recordTable (a b e : FAT32DirectoryEntry) :
    Function.update (recordTable a b) 0 e = recordTable e b := by
  rw [recordTable, Function.update_comm (by decide), Function.update_idem]
  rfl

theorem writeFolder_apply {c : UInt32} (hc : c.toNat < 512) :
    writeFolder r c s =
      ⟨.ok (), (((s.store c (newFolderTable s r c).toBytes).assign c fat32FatEndOfFile).store
          fatClusterNumber
          (FAT32FileAllocationTable.toBytes (s.assign c fat32FatEndOfFile).fatTable)),
        parentReadEvents r ++ (clusterWriteEvents (physical c) (newFolderTable s r c).toBytes ++
          clusterWriteEvents 1
            (FAT32FileAllocationTable.toBytes (s.assign c fat32FatEndOfFile).fatTable))⟩ := by
  simp only [writeFolder, bind_apply, initDirectoryTable_apply, writeTable_apply,
    setClusterMap_apply hc, flushFat_apply, recordTable_zero, update_recordTable,
    Outcome.prepend, List.nil_append]
  rfl

/-- Both branches of `write` turn the slots into a chain that holds the new blocks. -/
theorem writeContent_run {c : UInt32} {rest : List UInt32}
    (hlt : ∀ x, x ∈ c :: rest → x.toNat < 512) (h1 : fatClusterNumber ∉ c :: rest)
    (hnd : (c :: rest).Nodup) (hfolder : isFolder r = true → rest = [])
    (hsync : Synced s) :
    ∃ s' w, writeContent r c rest s = ⟨.ok (), s', w⟩ ∧
      WroteChain s s' (c :: rest) (newBlocks s r c (c :: rest).length) := by
  by_cases hf : isFolder r = true
  · obtain rfl := hfolder hf
    have hc := hlt c List.mem_cons_self
    have hc1 : c ≠ fatClusterNumber := fun he => h1 (by rw [he]; exact List.mem_cons_self)
    refine ⟨_, _, by rw [writeContent, if_pos hf, writeFolder_apply hc], ?_, ?_, ?_, ?_⟩
    · intro x
      rw [link]
      exact FileSystem.fat_assign s fat32FatEndOfFile x hc
    · rw [Synced, FileSystem.data_store_self]
      rfl
    · rw [newBlocks, if_pos hf, List.map_singleton,
        FileSystem.data_store_of_ne _ _ (by decide) hc hc1, FileSystem.assign_data,
        FileSystem.data_store_self]
    · intro n hn1 hn
      rw [FileSystem.cluster_store_of_ne _ _ _ (by exact hn1), FileSystem.assign_disk,
        FileSystem.cluster_store_of_ne _ _ _
          (by rw [physical_of_lt hc]; exact hn c List.mem_cons_self)]
  · obtain ⟨s', w, hrun, hw⟩ := writeLoop_run r.buf 0 s hlt h1 hnd hsync
    exact ⟨s', w, by rw [writeContent, if_neg hf, hrun], by rwa [newBlocks, if_neg hf]⟩

@[simp] theorem newEntry_cluster (c : UInt32) : (newEntry r c).cluster = c :=
  LittleEndian.join_halves c

@[simp] theorem newEntry_key (c : UInt32) : (newEntry r c).key = r.key := rfl

theorem newEntry_live (c : UInt32) : (newEntry r c).Live := rfl

theorem newEntry_isDir_iff (c : UInt32) : (newEntry r c).IsDir ↔ isFolder r = true := by
  by_cases hf : isFolder r = true
  · simp [FAT32DirectoryEntry.IsDir, newEntry, hf]
  · simp only [FAT32DirectoryEntry.IsDir, newEntry, hf]
    decide

theorem newEntry_kind (c : UInt32) : (newEntry r c).IsDir ∨ (newEntry r c).attr = 0 := by
  by_cases hf : isFolder r = true
  · exact Or.inl ((newEntry_isDir_iff c).mpr hf)
  · exact Or.inr (if_neg hf)

theorem isFolder_iff : isFolder r = true ↔ r.bufferSize = 0 := by
  simp [isFolder]

/-- A request with data is no folder. -/
theorem not_isFolder (hpos : 0 < r.bufferSize.toNat) : ¬ isFolder r = true := by
  intro hf
  rw [isFolder_iff.mp hf] at hpos
  exact absurd hpos (by decide)

/-- A folder takes one cluster. -/
theorem required_of_isFolder (hf : isFolder r = true) : required r = 1 := by
  rw [required, if_pos hf, isFolder_iff.mp hf, ceil_floatClusters (by decide)]
  rfl

section Slots

variable {c : UInt32} {rest : List UInt32} (hbuf : slotBuf s r = c :: rest)
include hbuf

/-- The slots are free clusters. -/
theorem slotBuf_fresh : ∀ x, x ∈ c :: rest → x.toNat < 512 ∧ s.fat x = 0 := by
  intro x hx
  rw [← hbuf] at hx
  exact mem_freeClusters.mp (List.mem_of_mem_take hx)

theorem slotBuf_nodup : (c :: rest).Nodup := by
  rw [← hbuf]
  exact (nodup_freeClusters s.fatTable).sublist (List.take_sublist _ _)

theorem slotBuf_folder (hf : isFolder r = true) : rest = [] := by
  have hlen : (slotBuf s r).length ≤ 1 := by
    rw [slotBuf, required_of_isFolder hf]
    exact List.length_take_le _ _
  rw [hbuf, List.length_cons] at hlen
  exact List.length_eq_zero_iff.mp (by omega)

theorem slotBuf_not_fatCluster (hs : Sound s) : fatClusterNumber ∉ c :: rest := by
  intro hmem
  have hz := (slotBuf_fresh hbuf _ hmem).2
  rw [show s.fat fatClusterNumber = _ from hs.fat_one] at hz
  exact absurd hz (by decide)

theorem slotBuf_not_liveDir (hs : Sound s) {d : UInt32} (hd : LiveDir s d) :
    d ∉ c :: rest :=
  fun hmem => hs.liveDir_fat_ne_zero hd (slotBuf_fresh hbuf _ hmem).2

end Slots

/-- The parent's table with the new entry. -/
abbrev insertedTable (s : FileSystem) (r : FAT32DriverRequest) (k : Fin 64) (c : UInt32) :
    FAT32DirectoryTable :=
  Function.update (s.parentTable r) k (newEntry r c)

/-- The stages of a `write` that finds its slots: the content, then the parent's table. -/
theorem write_stages (hs : Sound s) (hp : LiveDir s r.parentClusterNumber)
    (hm : NoMatch (s.parentTable r) r.key) {k : Fin 64}
    (hk : FirstEmpty (s.parentTable r) k) {c : UInt32} {rest : List UInt32}
    (hbuf : slotBuf s r = c :: rest)
    (hfree : (required r).toNat ≤ (freeClusters s.fatTable).length) :
    ∃ s₁ w, writeContent r c rest s = ⟨.ok (), s₁, w⟩ ∧
      WroteChain s s₁ (c :: rest) (newBlocks s r c (c :: rest).length) ∧
      write r s =
        ⟨.ok 0, s₁.store r.parentClusterNumber (insertedTable s r k c).toBytes,
          parentReadEvents r ++ (w ++ (clusterWriteEvents (physical r.parentClusterNumber)
            (insertedTable s r k c).toBytes ++ []))⟩ := by
  obtain ⟨s₁, w, hrun, hw⟩ :=
    writeContent_run (fun x hx => (slotBuf_fresh hbuf x hx).1)
      (slotBuf_not_fatCluster hbuf hs) (slotBuf_nodup hbuf) (slotBuf_folder hbuf) hs.synced
  refine ⟨s₁, w, hrun, hw, ?_⟩
  rw [write_slots (hs.parentOk hp) hm hk hbuf hfree, storeEntry]
  simp only [bind_apply, hrun, writeTable_apply, pure_apply, Outcome.prepend]

/-- **A `write` that finds its slots adds an entry to the tree.** -/
theorem write_done (hs : Sound s) (hp : LiveDir s r.parentClusterNumber)
    (hm : NoMatch (s.parentTable r) r.key) {k : Fin 64}
    (hk : FirstEmpty (s.parentTable r) k) {c : UInt32} {rest : List UInt32}
    (hbuf : slotBuf s r = c :: rest)
    (hfree : (required r).toNat ≤ (freeClusters s.fatTable).length) :
    ∃ s' w, write r s = ⟨.ok 0, s', w⟩ ∧
      Inserted s s' r.parentClusterNumber k (newEntry r c) (c :: rest)
        (newBlocks s r c (c :: rest).length) := by
  have hfresh := slotBuf_fresh hbuf
  have hplt := hs.liveDir_lt hp
  have hp1 := hs.liveDir_ne_one hp
  obtain ⟨s₁, w, -, hw, hwrite⟩ := write_stages hs hp hm hk hbuf hfree
  -- the last step overwrites the parent's table
  have hdata : ∀ x : UInt32, x.toNat < 512 → x ≠ r.parentClusterNumber →
      (s₁.store r.parentClusterNumber (insertedTable s r k c).toBytes).data x = s₁.data x :=
    fun x hx hne => FileSystem.data_store_of_ne _ _ hplt hx hne
  have hcontent :
      (c :: rest).map (s₁.store r.parentClusterNumber (insertedTable s r k c).toBytes).data =
        newBlocks s r c (c :: rest).length := by
    rw [← hw.content]
    exact List.map_congr_left fun x hx =>
      hdata x (hfresh x hx).1 fun he => slotBuf_not_liveDir hbuf hs hp (he ▸ hx)
  refine ⟨_, _, hwrite, ?_⟩
  refine
    { parent := hp, slot := hk, noMatch := hm, live := newEntry_live c,
      kind := newEntry_kind c, fresh := hfresh, nodup := slotBuf_nodup hbuf,
      first := by rw [newEntry_cluster]; rfl, fat := hw.fat, synced := ?_,
      content := hcontent, table := ?_, frame := ?_, folder := ?_ }
  · have hne : fatClusterNumber ≠ r.parentClusterNumber := fun he => hp1 (by rw [← he]; rfl)
    rw [Synced, hdata _ (by decide) hne]
    exact hw.synced
  · rw [FileSystem.table, FileSystem.data_store_self, FAT32DirectoryTable.ofBytes_toBytes]
  · intro n hn1 hnp hn
    rw [FileSystem.cluster_store_of_ne _ _ _ (by rw [physical_of_lt hplt]; exact hnp),
      hw.frame n hn1 hn]
  · intro hdir
    have hf := (newEntry_isDir_iff c).mp hdir
    obtain rfl := slotBuf_folder hbuf hf
    rw [newEntry_cluster]
    refine ⟨rfl, folderSelf r c, folderParent s r, folder_records s r c, ?_⟩
    have hblock := hcontent
    rw [newBlocks, if_pos hf, List.map_singleton, List.singleton_inj] at hblock
    rw [FileSystem.table, hblock, FAT32DirectoryTable.ofBytes_toBytes]
    rfl

/-! ## Deleting -/

theorem delete_badParent (hp : r.parentClusterNumber.toNat < 512)
    (hf : s.fat r.parentClusterNumber ≠ fat32FatEndOfFile) :
    delete r s = ⟨.ok 2, s, []⟩ := by
  simp [delete, bind_apply, clusterMap_apply hp, hf, Outcome.prepend]

theorem delete_notFound (hp : ParentOk s r) (hm : NoMatch (s.parentTable r) r.key) :
    delete r s = ⟨.ok 1, s, parentReadEvents r⟩ := by
  simp [delete, bind_apply, clusterMap_apply hp.1, hp.2, readTable_apply,
    find_keyMatches_eq_none.mpr hm, Outcome.prepend]

theorem isEmptyTable_iff (t : FAT32DirectoryTable) :
    isEmptyTable t = true ↔ ∀ j, 2 ≤ j → ¬ (t j).Live := by
  simp only [isEmptyTable, decide_eq_true_eq, FAT32DirectoryEntry.Live, ne_eq]

/-- The last part of `delete`, once slot `k` is found and may be deleted. -/
def clearEntry (dirTable : FAT32DirectoryTable) (r : FAT32DriverRequest) (k : Fin 64) :
    Driver Int8 := do
  writeTable (Function.update dirTable k FAT32DirectoryEntry.zero) r.parentClusterNumber
  freeChain 513 (dirTable k).cluster
  flushFat
  return 0

section Found

variable {k : Fin 64} (hp : ParentOk s r) (hk : FirstMatch (s.parentTable r) r.key k)
include hp hk

theorem delete_notEmpty (hdir : (s.parentTable r k).IsDir)
    (hfull : ¬ isEmptyTable (s.table (s.parentTable r k).cluster) = true) :
    delete r s = ⟨.ok 2, s,
      parentReadEvents r ++ clusterReadEvents (physical (s.parentTable r k).cluster)⟩ := by
  have hdir' : (s.parentTable r k).attr = attrSubdirectory := hdir
  simp [delete, bind_apply, map_apply, clusterMap_apply hp.1, hp.2, readTable_apply,
    find_keyMatches_eq_some.mpr hk, hdir', hfull, Outcome.prepend]

/-- The events of the reads before a successful `delete` changes anything. -/
def deleteReadEvents (s : FileSystem) (r : FAT32DriverRequest) (k : Fin 64) : List DiskEvent :=
  parentReadEvents r ++
    if (s.parentTable r k).IsDir then clusterReadEvents (physical (s.parentTable r k).cluster)
    else []

theorem delete_clear (hempty : (s.parentTable r k).IsDir →
      isEmptyTable (s.table (s.parentTable r k).cluster) = true) :
    delete r s = (clearEntry (s.parentTable r) r k s).prepend (deleteReadEvents s r k) := by
  by_cases hdir : (s.parentTable r k).IsDir
  · have hdir' : (s.parentTable r k).attr = attrSubdirectory := hdir
    have he := hempty hdir
    simp [delete, clearEntry, bind_apply, map_apply, clusterMap_apply hp.1, hp.2,
      readTable_apply, find_keyMatches_eq_some.mpr hk, hdir, hdir', he, deleteReadEvents,
      Outcome.prepend]
  · have hdir' : ¬ (s.parentTable r k).attr = attrSubdirectory := hdir
    simp [delete, clearEntry, bind_apply, clusterMap_apply hp.1, hp.2, readTable_apply,
      find_keyMatches_eq_some.mpr hk, hdir, hdir', deleteReadEvents, Outcome.prepend]

end Found

/-- A directory that may be deleted is not its own child, so its cluster stays. -/
theorem parent_not_mem_chain (hs : Sound s) {p : UInt32} {k : Fin 64} {cs : List UInt32}
    (hd : Child s p k) (hcs : FatChain s (s.table p k).cluster cs)
    (hempty : (s.table p k).IsDir → ∀ j, 2 ≤ j → ¬ (s.table (s.table p k).cluster j).Live) :
    p ∉ cs := by
  intro hmem
  have hown : Owns s p k p := ⟨hd, cs, hcs, hmem⟩
  by_cases hdir : (s.table p k).IsDir
  · have hp : p = (s.table p k).cluster := by
      simpa [hs.dir_chain hd hdir hcs] using hmem
    have hnone := hempty hdir k hd.2.1
    rw [← hp] at hnone
    exact hnone hd.2.2
  · exact hs.not_liveDir_of_owns hown hdir hd.1

/-- The parent's table with slot `k` cleared. -/
abbrev clearedTable (s : FileSystem) (r : FAT32DriverRequest) (k : Fin 64) :
    FAT32DirectoryTable :=
  Function.update (s.parentTable r) k FAT32DirectoryEntry.zero

/-- The state after the cached table was flushed. -/
def FileSystem.flush (s : FileSystem) : FileSystem :=
  s.store fatClusterNumber (FAT32FileAllocationTable.toBytes s.fatTable)

section RemoveChild

variable {k : Fin 64} (hs : Sound s) (hd : Child s r.parentClusterNumber k)
  (hk : FirstMatch (s.parentTable r) r.key k)
  (hempty : (s.parentTable r k).IsDir →
    isEmptyTable (s.table (s.parentTable r k).cluster) = true)
include hs hd hk hempty

/-- The stages of a `delete` of a child: the parent's table, the chain, the flush. -/
theorem delete_stages :
    ∃ cs s₂ w, FatChain s (s.parentTable r k).cluster cs ∧
      freeChain 513 (s.parentTable r k).cluster
        (s.store r.parentClusterNumber (clearedTable s r k).toBytes) = ⟨.ok (), s₂, w⟩ ∧
      FreedChain (s.store r.parentClusterNumber (clearedTable s r k).toBytes) s₂ cs ∧
      delete r s =
        ⟨.ok 0, s₂.flush, deleteReadEvents s r k ++
          (clusterWriteEvents (physical r.parentClusterNumber) (clearedTable s r k).toBytes ++
            (w ++
              (clusterWriteEvents 1 (FAT32FileAllocationTable.toBytes s₂.fatTable) ++ [])))⟩ := by
  obtain ⟨hne, cs, hcs, hlt⟩ := hs.chain _ _ hd
  have hcs₁ : FatChain (s.store r.parentClusterNumber (clearedTable s r k).toBytes)
      (s.parentTable r k).cluster cs := hcs
  have hlen : cs.length ≤ 513 := Nat.le_succ_of_le (hs.chain_length_le hd hcs)
  obtain ⟨s₂, w, hrun, hf⟩ := freeChain_run hcs₁ hne (fun x hx => (hlt x hx).2) hlen
  refine ⟨cs, s₂, w, hcs, hrun, hf, ?_⟩
  rw [delete_clear (hs.parentOk hd.1) hk hempty, clearEntry]
  simp only [bind_apply, writeTable_apply, hrun, flushFat_apply, pure_apply, Outcome.prepend]
  rfl

/-- **A `delete` of a child removes it from the tree.** -/
theorem delete_child :
    ∃ cs s' w, delete r s = ⟨.ok 0, s', w⟩ ∧
      Removed s s' r.parentClusterNumber k cs := by
  have hnone := fun hdir => (isEmptyTable_iff _).mp (hempty hdir)
  obtain ⟨cs, s₂, w, hcs, -, hf, hdelete⟩ := delete_stages hs hd hk hempty
  have hlt : ∀ c, c ∈ cs → 3 ≤ c.toNat ∧ c.toNat < 512 :=
    fun c hc => hs.mem_bounds ⟨hd, cs, hcs, hc⟩
  have hplt := hs.liveDir_lt hd.1
  have hp1 := hs.liveDir_ne_one hd.1
  have hpmem := parent_not_mem_chain hs hd hcs hnone
  -- the flush touches cluster 1 only, which is neither the parent nor on the chain
  have hdata : ∀ x : UInt32, x.toNat < 512 → x.toNat ≠ 1 → s₂.flush.data x = s₂.data x :=
    fun x hx h1 => FileSystem.data_store_of_ne _ _ (by decide) hx fun he => h1 (by rw [he]; rfl)
  refine ⟨cs, _, _, hdelete, ?_⟩
  refine
    { child := hd, chain := hcs, emptyDir := hnone, fat := hf.fat, synced := ?_,
      cleared := ?_, table := ?_, frame := ?_ }
  · rw [Synced, FileSystem.flush, FileSystem.data_store_self]
    rfl
  · intro c hc
    have := (hlt c hc).1
    rw [hdata c (hlt c hc).2 (by omega), hf.cleared c hc]
  · have hsame : s₂.data r.parentClusterNumber = (clearedTable s r k).toBytes := by
      have hkeep : ∀ c, c ∈ cs → r.parentClusterNumber.toNat ≠ c.toNat := by
        intro c hc he
        rw [← UInt32.toNat_inj.mp he] at hc
        exact hpmem hc
      rw [FileSystem.data_of_lt _ hplt, hf.frame _ hkeep, ← FileSystem.data_of_lt _ hplt]
      exact FileSystem.data_store_self _ _ _
    rw [FileSystem.table, hdata _ hplt hp1, hsame, FAT32DirectoryTable.ofBytes_toBytes]
  · intro n hn1 hnp hn
    rw [FileSystem.flush, FileSystem.cluster_store_of_ne _ _ _ (by exact hn1), hf.frame n hn]
    exact FileSystem.cluster_store_of_ne _ _ _ (by rw [physical_of_lt hplt]; exact hnp)

end RemoveChild

/-! ## Reading -/

theorem read_badIndex (hp : ¬ r.parentClusterNumber.toNat < 512) :
    read r s = ⟨.error (Fault.clusterMapIndex r.parentClusterNumber), s, []⟩ := by
  simp only [read, bind_apply, clusterMap_apply_of_not_lt hp]

theorem read_badParent (hp : r.parentClusterNumber.toNat < 512)
    (hf : s.fat r.parentClusterNumber ≠ fat32FatEndOfFile) :
    read r s = ⟨.ok (2, []), s, []⟩ := by
  simp [read, bind_apply, clusterMap_apply hp, hf, Outcome.prepend]

theorem read_notFound (hp : ParentOk s r) (hm : NoMatch (s.parentTable r) r.key) :
    read r s = ⟨.ok (2, []), s, parentReadEvents r⟩ := by
  simp [read, bind_apply, clusterMap_apply hp.1, hp.2, readTable_apply,
    find_keyMatches_eq_none.mpr hm, Outcome.prepend]

/-- The buffer offered by a `read` is too small for the file in slot `k`. -/
def TooSmall (s : FileSystem) (r : FAT32DriverRequest) (k : Fin 64) : Prop :=
  r.bufferSize / clusterSize < (ceil (floatClusters (s.parentTable r k).filesize)).toUInt32

section FoundByRead

variable {k : Fin 64} (hp : ParentOk s r) (hk : FirstMatch (s.parentTable r) r.key k)
include hp hk

theorem read_dir (hdir : (s.parentTable r k).IsDir) :
    read r s = ⟨.ok (1, []), s, parentReadEvents r⟩ := by
  have hdir' : (s.parentTable r k).attr = attrSubdirectory := hdir
  simp [read, bind_apply, clusterMap_apply hp.1, hp.2, readTable_apply,
    find_keyMatches_eq_some.mpr hk, hdir', Outcome.prepend]

theorem read_tooSmall (hdir : ¬ (s.parentTable r k).IsDir) (hsmall : TooSmall s r k) :
    read r s = ⟨.ok (-1, []), s, parentReadEvents r⟩ := by
  have hdir' : ¬ (s.parentTable r k).attr = attrSubdirectory := hdir
  have hsmall' : r.bufferSize / clusterSize <
    (ceil (floatClusters (s.parentTable r k).filesize)).toUInt32 := hsmall
  simp only [read, bind_apply, clusterMap_apply hp.1, hp.2, readTable_apply,
    find_keyMatches_eq_some.mpr hk, if_neg hdir', if_pos hsmall', ne_eq, not_true, if_false,
    pure_apply, Outcome.prepend, List.nil_append, List.append_nil]

/-- Past its checks, `read` walks along the chain. -/
theorem read_walk (hdir : ¬ (s.parentTable r k).IsDir) (hlarge : ¬ TooSmall s r k) :
    read r s =
      ((do return (0, ← readChain 512 0 (s.parentTable r k).cluster) :
          Driver (Int8 × List Delivery)) s).prepend (parentReadEvents r) := by
  have hdir' : ¬ (s.parentTable r k).attr = attrSubdirectory := hdir
  have hlarge' : ¬ r.bufferSize / clusterSize <
    (ceil (floatClusters (s.parentTable r k).filesize)).toUInt32 := hlarge
  simp only [read, bind_apply, clusterMap_apply hp.1, hp.2, readTable_apply,
    find_keyMatches_eq_some.mpr hk, if_neg hdir', if_neg hlarge', ne_eq, not_true, if_false]
  rfl

theorem read_chain (hdir : ¬ (s.parentTable r k).IsDir) (hlarge : ¬ TooSmall s r k)
    {cs : List UInt32} (hcs : FatChain s (s.parentTable r k).cluster cs)
    (hlt : ∀ x, x ∈ cs → x.toNat < 512) (hlen : cs.length ≤ 512) :
    read r s = ⟨.ok (0, deliveriesFrom 0 (cs.map s.data)), s,
      parentReadEvents r ++ chainReadEvents cs⟩ := by
  rw [read_walk hp hk hdir hlarge]
  simp only [bind_apply, readChain_run hcs hlt hlen, pure_apply, Outcome.prepend,
    List.append_nil]

end FoundByRead

/-! ## Reading a directory -/

/-- Slot `i` is the first one in use with key `k`. -/
def FirstLiveMatch (t : FAT32DirectoryTable) (k : Key) (i : Fin 64) : Prop :=
  ((t i).Live ∧ (t i).key = k) ∧ ∀ j, j < i → ¬ ((t j).Live ∧ (t j).key = k)

theorem liveMatch_iff (t : FAT32DirectoryTable) (r : FAT32DriverRequest) (i : Fin 64) :
    ((t i).userAttribute == uattrNotEmpty && keyMatches (t i) r) = true ↔
      (t i).Live ∧ (t i).key = r.key := by
  rw [Bool.and_eq_true, keyMatches_iff, beq_iff_eq]
  rfl

theorem find_liveMatch_eq_some {t : FAT32DirectoryTable} {i : Fin 64} :
    (Fin.find? fun i => (t i).userAttribute == uattrNotEmpty && keyMatches (t i) r) = some i ↔
      FirstLiveMatch t r.key i := by
  rw [Fin.find?_eq_some_iff]
  simp only [liveMatch_iff, ← Bool.not_eq_true, FirstLiveMatch]

theorem find_liveMatch_eq_none {t : FAT32DirectoryTable} :
    (Fin.find? fun i => (t i).userAttribute == uattrNotEmpty && keyMatches (t i) r) = none ↔
      ∀ i, ¬ ((t i).Live ∧ (t i).key = r.key) := by
  rw [Fin.find?_eq_none_iff]
  simp only [liveMatch_iff, ← Bool.not_eq_true]

/-- Some slot in use has the key, and then a first one, or none has. -/
theorem firstLiveMatch_or (t : FAT32DirectoryTable) (k : Key) :
    (∃ i, FirstLiveMatch t k i) ∨ ∀ i, ¬ ((t i).Live ∧ (t i).key = k) := by
  let r : FAT32DriverRequest := ⟨fun _ => 0, k.1, k.2, 0, 0⟩
  cases hf : Fin.find? fun i => (t i).userAttribute == uattrNotEmpty && keyMatches (t i) r with
  | none => exact Or.inr ((find_liveMatch_eq_none (r := r)).mp hf)
  | some i => exact Or.inl ⟨i, (find_liveMatch_eq_some (r := r)).mp hf⟩

theorem readDirectory_notFound
    (hm : ∀ i, ¬ ((s.parentTable r i).Live ∧ (s.parentTable r i).key = r.key)) :
    readDirectory r s = ⟨.ok (2, []), s, parentReadEvents r⟩ := by
  simp only [readDirectory, bind_apply, readTable_apply, find_liveMatch_eq_none.mpr hm,
    pure_apply, Outcome.prepend, List.append_nil]

section FoundLive

variable {k : Fin 64} (hk : FirstLiveMatch (s.parentTable r) r.key k)
include hk

theorem readDirectory_file (hdir : ¬ (s.parentTable r k).IsDir) :
    readDirectory r s = ⟨.ok (1, []), s, parentReadEvents r⟩ := by
  have hdir' : ¬ (s.parentTable r k).attr = attrSubdirectory := hdir
  simp only [readDirectory, bind_apply, readTable_apply, find_liveMatch_eq_some.mpr hk,
    if_neg hdir', pure_apply, Outcome.prepend, List.append_nil]

theorem readDirectory_tooSmall (hdir : (s.parentTable r k).IsDir)
    (hsmall : r.bufferSize < 32) :
    readDirectory r s = ⟨.ok (-1, []), s, parentReadEvents r⟩ := by
  have hdir' : (s.parentTable r k).attr = attrSubdirectory := hdir
  simp only [readDirectory, bind_apply, readTable_apply, find_liveMatch_eq_some.mpr hk,
    if_pos hdir', if_pos hsmall, pure_apply, Outcome.prepend, List.append_nil]

theorem readDirectory_dir (hdir : (s.parentTable r k).IsDir)
    (hlarge : ¬ r.bufferSize < 32) :
    readDirectory r s = ⟨.ok (0, [(0, s.data (s.parentTable r k).cluster)]), s,
      parentReadEvents r ++ clusterReadEvents (physical (s.parentTable r k).cluster)⟩ := by
  have hdir' : (s.parentTable r k).attr = attrSubdirectory := hdir
  simp only [readDirectory, bind_apply, readTable_apply, find_liveMatch_eq_some.mpr hk,
    if_pos hdir', if_neg hlarge, readCluster_apply, pure_apply, Outcome.prepend,
    List.append_nil]

end FoundLive

end Fat32
end OS2024
