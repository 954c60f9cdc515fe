import OS2024.Fat32.Requests

/-!
# Creating and mounting a file system

`create_fat32` on any disk and with any stale cache leaves the same small file system:
a signature, an allocation table with three entries and an empty root directory.

**Results.**
* `createFat32_apply`, `createFat32_created`, `Created.sound`: creation establishes the
  invariant.
* `initialize_of_unformatted`, `initialize_of_formatted`: the two branches of mounting.
* `initialize_of_sound`: mounting the disk of a sound file system brings back its state.
-/

namespace OS2024
namespace Fat32

open BlockStore Stdlib TracedState LinkedChain SlotTree

/-! ## Single blocks -/

/-- The state after block `a` was overwritten. -/
def FileSystem.storeBlock (s : FileSystem) (a : Nat) (b : BlockBuffer) : FileSystem :=
  { s with disk := applyWrite s.disk (a, b) }

theorem FileSystem.storeBlock_self (s : FileSystem) (a : Nat) (b : BlockBuffer) :
    (s.storeBlock a b).disk a = b :=
  if_pos rfl

theorem FileSystem.cluster_storeBlock_of_ne (s : FileSystem) {a n : Nat} (b : BlockBuffer)
    (h : a / 4 ≠ n) : (s.storeBlock a b).disk.cluster n = s.disk.cluster n :=
  Disk.cluster_applyWrite_of_ne s.disk h

theorem writeBlocks_one_apply (ptr : Memory) (lba : UInt32) (s : FileSystem) :
    writeBlocks ptr lba 1 s =
      ⟨.ok (), s.storeBlock (sectorOf lba) fun k => ptr k,
        [DiskEvent.write (sectorOf lba) fun k => ptr k]⟩ := by
  have hone : (1 : UInt8).toNat = 1 := rfl
  simp [writeBlocks, blocksWritten, hone, FileSystem.storeBlock]

/-! ## Creation -/

/-- The root directory of a new file system. -/
def rootTable : FAT32DirectoryTable :=
  recordTable (selfRecord rootName) (parentRecord rootName rootClusterNumber)

/-- The state once `create_fat32` has written the allocation table. -/
def afterFat (s : FileSystem) : FileSystem :=
  FileSystem.store ⟨(s.storeBlock 0 fsSignature).disk, createdFatTable⟩ fatClusterNumber
    (FAT32FileAllocationTable.toBytes createdFatTable)

/-- The state before `create_fat32` sets up the root directory. -/
def beforeRoot (s : FileSystem) : FileSystem :=
  (afterFat s).storeBlock 8 fun k => Memory.ofBuffer rootName k

/-- Slot 0 of cluster 2 carries the name that `create_fat32` wrote there as a block. -/
theorem beforeRoot_name (s : FileSystem) :
    ((beforeRoot s).table rootClusterNumber 0).name = rootName := by
  funext i
  have hdiv : (i : Nat) / 512 = 0 := by omega
  have hmod : (i : Nat) % 512 = i := by omega
  have hbyte := congrFun ((afterFat s).storeBlock_self 8 fun k => Memory.ofBuffer rootName k)
    ⟨i, by omega⟩
  rw [Memory.ofBuffer_of_lt rootName i.isLt] at hbyte
  have hroot : physical rootClusterNumber = 2 := rfl
  simpa [beforeRoot, FileSystem.table, FAT32DirectoryTable.ofBytes, group, hdiv, hmod,
    FAT32DirectoryEntry.ofBytes, FileSystem.data, Disk.cluster, hroot] using hbyte

/-- The state that `create_fat32` leaves. -/
def createdState (s : FileSystem) : FileSystem :=
  (beforeRoot s).store rootClusterNumber (FAT32DirectoryTable.toBytes rootTable)

theorem createFat32_apply (s : FileSystem) :
    createFat32 s =
      ⟨.ok (), createdState s,
        [DiskEvent.write 0 fsSignature] ++
          (clusterWriteEvents 1 (FAT32FileAllocationTable.toBytes createdFatTable) ++
            ([DiskEvent.write 8 fun k => Memory.ofBuffer rootName k] ++
              (clusterReadEvents 2 ++
                clusterWriteEvents 2 (FAT32DirectoryTable.toBytes rootTable))))⟩ := by
  have hsignature : (fun k : Fin 512 => Memory.ofBuffer fsSignature k) = fsSignature :=
    funext fun k => Memory.ofBuffer_of_lt fsSignature k.isLt
  have hroot : FileSystem.storeBlock
      (FileSystem.store ⟨(s.storeBlock (sectorOf 0) fsSignature).disk, createdFatTable⟩
        fatClusterNumber (FAT32FileAllocationTable.toBytes createdFatTable))
      (sectorOf (clusterToLba 2)) (fun k => Memory.ofBuffer rootName k) = beforeRoot s := rfl
  simp only [createFat32, bind_apply, writeBlocks_one_apply, hsignature, modifyState_apply,
    flushFat_apply, hroot, initDirectoryTable_apply, beforeRoot_name, writeTable_apply,
    Outcome.prepend, List.nil_append]
  rfl

/-- What a new file system looks like. -/
structure Created (s : FileSystem) : Prop where
  boot : s.disk 0 = fsSignature
  fatTable : s.fatTable = createdFatTable
  synced : Synced s
  root : s.table rootClusterNumber = rootTable

theorem createdState_created (s : FileSystem) : Created (createdState s) := by
  refine ⟨?_, rfl, ?_, ?_⟩
  · rw [← FileSystem.storeBlock_self s 0 fsSignature]
    refine Disk.boot_eq_of_cluster_zero ?_
    rw [createdState, FileSystem.cluster_store_of_ne _ _ _ (by decide), beforeRoot,
      FileSystem.cluster_storeBlock_of_ne _ _ (by decide), afterFat,
      FileSystem.cluster_store_of_ne _ _ _ (by decide)]
  · rw [Synced, createdState,
      FileSystem.data_store_of_ne _ _ (by decide) (by decide) (by decide), FileSystem.data,
      beforeRoot, FileSystem.cluster_storeBlock_of_ne _ _ (by decide)]
    exact FileSystem.data_store_self _ _ _
  · rw [FileSystem.table, createdState, FileSystem.data_store_self,
      FAT32DirectoryTable.ofBytes_toBytes]

/-- Creation forgets the disk and the cache it started from. -/
theorem createFat32_created (s : FileSystem) : Created (createFat32 s).state := by
  rw [createFat32_apply]
  exact createdState_created s

theorem tableSound_rootTable : TableSound rootTable :=
  Inserted.tableSound_folder ⟨rfl, rfl⟩ ⟨rfl, rfl⟩

namespace Created

variable {s : FileSystem}

theorem fat_eq (h : Created s) (c : UInt32) :
    s.fat c = FAT32FileAllocationTable.get createdFatTable c := by
  rw [FileSystem.fat, h.fatTable]

theorem liveDir_iff (h : Created s) (d : UInt32) : LiveDir s d ↔ d = rootClusterNumber := by
  constructor
  · intro hd
    induction hd with
    | root => rfl
    | @child d c i _ he ih =>
        obtain ⟨hi, hl, -, -⟩ := edge_eq_some_iff.mp he
        rw [ih, h.root, rootTable, recordTable_child _ _ hi] at hl
        exact absurd hl FAT32DirectoryEntry.not_live_zero
  · rintro rfl
    exact liveDir_root s

theorem not_child (h : Created s) (d : UInt32) (i : Fin 64) : ¬ Child s d i := by
  rintro ⟨hd, hi, hl⟩
  rw [(h.liveDir_iff d).mp hd, h.root, rootTable, recordTable_child _ _ hi] at hl
  exact FAT32DirectoryEntry.not_live_zero hl

/-- Beyond the reserved clusters every entry is free. -/
theorem fat_eq_zero (h : Created s) {c : UInt32} (hc : 3 ≤ c.toNat) : s.fat c = 0 := by
  rw [h.fat_eq]
  by_cases hlt : c.toNat < 512
  · rw [FAT32FileAllocationTable.get_of_lt _ hlt, createdFatTable]
    have h0 : ¬ c.toNat = 0 := by omega
    have h1 : ¬ c.toNat = 1 := by omega
    have h2 : ¬ c.toNat = 2 := by omega
    simp only [h0, h1, h2, if_false]
    rfl
  · exact FAT32FileAllocationTable.get_of_not_lt _ hlt

/-- **A new file system is sound.** -/
theorem sound (h : Created s) : Sound s where
  boot := h.boot
  synced := h.synced
  fat_zero := by rw [h.fat_eq]; rfl
  fat_one := by rw [h.fat_eq]; rfl
  fat_root := by rw [h.fat_eq]; rfl
  table := by
    intro d hd
    rw [(h.liveDir_iff d).mp hd, h.root]
    exact tableSound_rootTable
  kind := fun d i hd => absurd hd (h.not_child d i)
  chain := fun d i hd => absurd hd (h.not_child d i)
  dirEnd := fun d i hd => absurd hd (h.not_child d i)
  disjoint := fun d i _ _ _ hc => absurd hc.1 (h.not_child d i)
  noLeak := fun c hc3 hc => absurd (h.fat_eq_zero hc3) hc

end Created

/-! ## Mounting -/

theorem isEmptyStorage_apply (s : FileSystem) :
    isEmptyStorage s =
      ⟨.ok (memcmp (s.disk 0) fsSignature != 0), s, [DiskEvent.read 0]⟩ := by
  have hblock : (fun k : Fin 512 => blocksRead s.disk (fun _ => 0) 0 1 k) = s.disk 0 := by
    funext k
    have hk : (k : Nat) < 512 * (1 : UInt8).toNat := k.isLt
    rw [blocksRead, if_pos hk, Nat.div_eq_of_lt k.isLt]
    exact congrArg (s.disk 0) (Fin.ext (Nat.mod_eq_of_lt k.isLt))
  simp only [isEmptyStorage, readBlocks, bind_apply, pure_apply, Outcome.prepend, hblock]
  rfl

/-- Mounting a disk without the signature creates a file system. -/
theorem initialize_of_unformatted {s : FileSystem} (h : s.disk 0 ≠ fsSignature) :
    initializeFilesystemFat32 s = (createFat32 s).prepend [DiskEvent.read 0] := by
  have hne : (memcmp (s.disk 0) fsSignature != 0) = true := by
    rw [bne_iff_ne, ne_eq, memcmp_eq_zero_iff]
    exact h
  simp only [initializeFilesystemFat32, bind_apply, isEmptyStorage_apply, hne, if_true]

/-- The state in which a disk with a signature is mounted. -/
def mounted (d : Disk) : FileSystem :=
  ⟨d, FAT32FileAllocationTable.ofBytes (d.cluster 1)⟩

theorem Sound.mounted_eq {s : FileSystem} (hs : Sound s) : mounted s.disk = s := by
  have hsync : s.disk.cluster 1 = FAT32FileAllocationTable.toBytes s.fatTable := hs.synced
  rw [mounted, hsync, FAT32FileAllocationTable.ofBytes_toBytes]

/-- Mounting a disk with the signature loads the allocation table. -/
theorem initialize_of_formatted {s : FileSystem} (h : s.disk 0 = fsSignature) :
    initializeFilesystemFat32 s =
      ⟨.ok (), mounted s.disk, DiskEvent.read 0 :: clusterReadEvents 1⟩ := by
  have heq : (memcmp (s.disk 0) fsSignature != 0) = false := by
    rw [bne_eq_false_iff_eq, memcmp_eq_zero_iff]
    exact h
  have hfalse : ¬ false = true := Bool.false_ne_true
  simp only [initializeFilesystemFat32, bind_apply, isEmptyStorage_apply, heq,
    if_neg hfalse, readCluster_apply, modifyState_apply, Outcome.prepend, List.append_nil]
  rfl

/-- **Mounting the disk of a sound file system brings back its state, whatever the cache
holds.** -/
theorem initialize_of_sound {s : FileSystem} (hs : Sound s) (cache : FAT32FileAllocationTable) :
    initializeFilesystemFat32 ⟨s.disk, cache⟩ =
      ⟨.ok (), s, DiskEvent.read 0 :: clusterReadEvents 1⟩ := by
  have hboot : (⟨s.disk, cache⟩ : FileSystem).disk 0 = fsSignature := hs.boot
  rw [initialize_of_formatted hboot, hs.mounted_eq]

end Fat32
end OS2024
