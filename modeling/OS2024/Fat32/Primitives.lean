import OS2024.Fat32.Driver

/-!
# Running the driver's primitives

How reads and writes of one cluster and accesses to the cached table run, as equations
that `simp` evaluates.  `physical c` is the cluster on the drive that the cluster number
`c` addresses; below 512 it is `c` itself.

**Results.**
* `readCluster_apply`, `writeCluster_apply`, `clusterMap_apply`, `setClusterMap_apply`,
  `flushFat_apply`.
* `FileSystem.data_store`, `FileSystem.fat_assign`: reading back after a write.
-/

namespace OS2024
namespace Fat32

open BlockStore Stdlib TracedState

/-- The cluster of the drive that a cluster number addresses. -/
def physical (c : UInt32) : Nat := c.toNat % 2 ^ 26

theorem physical_of_lt {c : UInt32} (h : c.toNat < 512) : physical c = c.toNat :=
  Nat.mod_eq_of_lt (by omega)

theorem physical_inj {c c' : UInt32} (h : c.toNat < 512) (h' : c'.toNat < 512) :
    physical c = physical c' ↔ c = c' := by
  rw [physical_of_lt h, physical_of_lt h', UInt32.toNat_inj]

theorem sectorOf_clusterToLba (c : UInt32) :
    sectorOf (clusterToLba c) = 4 * physical c := by
  simp only [sectorOf, clusterToLba, physical, UInt32.toNat_mul, UInt32.reduceToNat]
  omega

namespace FAT32FileAllocationTable

/-- Entry `c` of the table, zero outside of it. -/
def get (f : FAT32FileAllocationTable) (c : UInt32) : UInt32 :=
  if h : c.toNat < 512 then f ⟨c.toNat, h⟩ else 0

theorem get_of_lt (f : FAT32FileAllocationTable) {c : UInt32} (h : c.toNat < 512) :
    get f c = f ⟨c.toNat, h⟩ := by
  rw [get, dif_pos h]

theorem get_of_not_lt (f : FAT32FileAllocationTable) {c : UInt32} (h : ¬ c.toNat < 512) :
    get f c = 0 := by
  rw [get, dif_neg h]

theorem lt_of_get_ne_zero {f : FAT32FileAllocationTable} {c : UInt32} (h : get f c ≠ 0) :
    c.toNat < 512 := by
  by_contra hc
  exact h (get_of_not_lt f hc)

theorem get_set (f : FAT32FileAllocationTable) {i : UInt32} (v c : UInt32)
    (hi : i.toNat < 512) :
    get (set f i v) c = if c = i then v else get f c := by
  by_cases hc : c.toNat < 512
  · rw [get_of_lt _ hc, get_of_lt _ hc, set]
    simp only [UInt32.toNat_inj]
  · have hne : c ≠ i := by
      rintro rfl
      exact hc hi
    rw [if_neg hne, get_of_not_lt _ hc, get_of_not_lt _ hc]

/-- A table is determined by its entries. -/
theorem ext_get {f g : FAT32FileAllocationTable} (h : ∀ c, get f c = get g c) : f = g := by
  funext k
  have hk : (UInt32.ofNat k).toNat = k := by
    rw [UInt32.toNat_ofNat']
    omega
  have hlt : (UInt32.ofNat k).toNat < 512 := by omega
  have := h (UInt32.ofNat k)
  rw [get_of_lt _ hlt, get_of_lt _ hlt] at this
  simpa [hk] using this

end FAT32FileAllocationTable

namespace FileSystem

/-- The bytes of the cluster that `c` addresses. -/
def data (s : FileSystem) (c : UInt32) : ClusterBuffer := s.disk.cluster (physical c)

/-- The cluster that `c` addresses, read as a directory table. -/
def table (s : FileSystem) (c : UInt32) : FAT32DirectoryTable :=
  FAT32DirectoryTable.ofBytes (s.data c)

/-- Entry `c` of the cached allocation table. -/
def fat (s : FileSystem) (c : UInt32) : UInt32 := FAT32FileAllocationTable.get s.fatTable c

/-- The state after cluster `c` was overwritten. -/
def store (s : FileSystem) (c : UInt32) (b : ClusterBuffer) : FileSystem :=
  { s with disk := applyWrites s.disk (Disk.clusterWrites (physical c) b) }

/-- The state after `cluster_map[c] = v`. -/
def assign (s : FileSystem) (c v : UInt32) : FileSystem :=
  { s with fatTable := FAT32FileAllocationTable.set s.fatTable c v }

@[simp] theorem store_fatTable (s : FileSystem) (c : UInt32) (b : ClusterBuffer) :
    (s.store c b).fatTable = s.fatTable := rfl

@[simp] theorem store_fat (s : FileSystem) (c x : UInt32) (b : ClusterBuffer) :
    (s.store c b).fat x = s.fat x := rfl

@[simp] theorem assign_disk (s : FileSystem) (c v : UInt32) :
    (s.assign c v).disk = s.disk := rfl

@[simp] theorem assign_data (s : FileSystem) (c v x : UInt32) :
    (s.assign c v).data x = s.data x := rfl

@[simp] theorem assign_table (s : FileSystem) (c v x : UInt32) :
    (s.assign c v).table x = s.table x := rfl

theorem cluster_store (s : FileSystem) (c : UInt32) (b : ClusterBuffer) (n : Nat) :
    (s.store c b).disk.cluster n = if n = physical c then b else s.disk.cluster n :=
  Disk.cluster_applyWrites_clusterWrites s.disk (physical c) n b

theorem cluster_store_of_ne (s : FileSystem) (c : UInt32) (b : ClusterBuffer) {n : Nat}
    (h : n ≠ physical c) : (s.store c b).disk.cluster n = s.disk.cluster n := by
  rw [cluster_store, if_neg h]

@[simp] theorem data_store_self (s : FileSystem) (c : UInt32) (b : ClusterBuffer) :
    (s.store c b).data c = b := by
  rw [data, cluster_store, if_pos rfl]

theorem data_store (s : FileSystem) {c x : UInt32} (b : ClusterBuffer)
    (hc : c.toNat < 512) (hx : x.toNat < 512) :
    (s.store c b).data x = if x = c then b else s.data x := by
  rw [data, cluster_store]
  simp only [physical_inj hx hc]
  rfl

theorem data_store_of_ne (s : FileSystem) {c x : UInt32} (b : ClusterBuffer)
    (hc : c.toNat < 512) (hx : x.toNat < 512) (hne : x ≠ c) :
    (s.store c b).data x = s.data x := by
  rw [data_store s b hc hx, if_neg hne]

theorem fat_assign (s : FileSystem) {c : UInt32} (v x : UInt32) (hc : c.toNat < 512) :
    (s.assign c v).fat x = if x = c then v else s.fat x :=
  FAT32FileAllocationTable.get_set s.fatTable v x hc

theorem lt_of_fat_ne_zero {s : FileSystem} {c : UInt32} (h : s.fat c ≠ 0) : c.toNat < 512 :=
  FAT32FileAllocationTable.lt_of_get_ne_zero h

theorem data_of_lt (s : FileSystem) {c : UInt32} (h : c.toNat < 512) :
    s.data c = s.disk.cluster c.toNat := by
  rw [data, physical_of_lt h]

end FileSystem

/-- The events of reading cluster `n` of the drive. -/
def clusterReadEvents (n : Nat) : List DiskEvent :=
  (List.range 4).map fun i => DiskEvent.read (4 * n + i)

/-- The events of overwriting cluster `n` of the drive. -/
def clusterWriteEvents (n : Nat) (b : ClusterBuffer) : List DiskEvent :=
  (Disk.clusterWrites n b).map fun w => DiskEvent.write w.1 w.2

/-- Writing one cluster issues the four writes of its aligned group of blocks. -/
theorem blocksWritten_clusterToLba (ptr : Memory) (c : UInt32) :
    blocksWritten ptr (clusterToLba c) (1 * 4) =
      Disk.clusterWrites (physical c) (fun k : Fin 2048 => ptr k) := by
  have hcount : ((1 : UInt8) * 4).toNat = 4 := rfl
  simp only [blocksWritten, hcount, sectorOf_clusterToLba, Disk.clusterWrites, groupWrites]
  rfl

theorem blocksRead_clusterToLba (d : Disk) (ptr : Memory) (c : UInt32) (k : Fin 2048) :
    blocksRead d ptr (clusterToLba c) (1 * 4) k = d.cluster (physical c) k := by
  have hk : (k : Nat) < 512 * ((1 : UInt8) * 4).toNat := k.isLt
  rw [blocksRead, if_pos hk, sectorOf_clusterToLba]
  rfl

theorem readCluster_apply (c : UInt32) (s : FileSystem) :
    readCluster c s = ⟨.ok (s.data c), s, clusterReadEvents (physical c)⟩ := by
  have hevents : (List.range ((1 : UInt8) * 4).toNat).map
      (fun i => DiskEvent.read (sectorOf (clusterToLba c) + i)) =
        clusterReadEvents (physical c) := by
    rw [sectorOf_clusterToLba]
    rfl
  simp only [readCluster, readClusters, readBlocks, bind_apply, pure_apply, hevents,
    Outcome.prepend, List.append_nil, blocksRead_clusterToLba]
  rfl

theorem readTable_apply (c : UInt32) (s : FileSystem) :
    readTable c s = ⟨.ok (s.table c), s, clusterReadEvents (physical c)⟩ := by
  simp [readTable, bind_apply, readCluster_apply, Outcome.prepend, FileSystem.table]

theorem writeClusters_apply (ptr : Memory) (c : UInt32) (s : FileSystem) :
    writeClusters ptr c 1 s =
      ⟨.ok (), s.store c (fun k => ptr k), clusterWriteEvents (physical c) (fun k => ptr k)⟩ := by
  simp only [writeClusters, writeBlocks, blocksWritten_clusterToLba]
  rfl

theorem writeCluster_apply (b : ClusterBuffer) (c : UInt32) (s : FileSystem) :
    writeCluster b c s = ⟨.ok (), s.store c b, clusterWriteEvents (physical c) b⟩ := by
  have hb : (fun k : Fin 2048 => Memory.ofBuffer b k) = b :=
    funext fun k => Memory.ofBuffer_of_lt b k.isLt
  rw [writeCluster, writeClusters_apply, hb]

theorem writeTable_apply (t : FAT32DirectoryTable) (c : UInt32) (s : FileSystem) :
    writeTable t c s = ⟨.ok (), s.store c t.toBytes, clusterWriteEvents (physical c) t.toBytes⟩ :=
  writeCluster_apply t.toBytes c s

theorem clusterMap_apply {i : UInt32} (h : i.toNat < 512) (s : FileSystem) :
    clusterMap i s = ⟨.ok (s.fat i), s, []⟩ := by
  simp [clusterMap, bind_apply, h, Outcome.prepend, FileSystem.fat,
    FAT32FileAllocationTable.get]

theorem clusterMap_apply_of_not_lt {i : UInt32} (h : ¬ i.toNat < 512) (s : FileSystem) :
    clusterMap i s = ⟨.error (Fault.clusterMapIndex i), s, []⟩ := by
  simp [clusterMap, bind_apply, h, Outcome.prepend]

theorem setClusterMap_apply {i : UInt32} (h : i.toNat < 512) (v : UInt32) (s : FileSystem) :
    setClusterMap i v s = ⟨.ok (), s.assign i v, []⟩ := by
  simp [setClusterMap, h, FileSystem.assign]

theorem flushFat_apply (s : FileSystem) :
    flushFat s =
      ⟨.ok (), s.store fatClusterNumber (FAT32FileAllocationTable.toBytes s.fatTable),
        clusterWriteEvents 1 (FAT32FileAllocationTable.toBytes s.fatTable)⟩ := by
  simp only [flushFat, bind_apply, getState_apply, writeCluster_apply, Outcome.prepend,
    List.nil_append]
  rfl

end Fat32
end OS2024
