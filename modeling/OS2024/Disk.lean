import OS2024.Lib.BlockStore
import OS2024.Stdlib.String

/-!
# `disk.c`: block transfers

The disk is a store of 512-byte blocks.  `read_blocks` and `write_blocks` program a
28-bit sector number and then transfer consecutive sectors, so a transfer starts at
`sectorOf lba`.

A cluster is an aligned group of four blocks.  `Disk.cluster d n` are the bytes of
cluster `n`.

**Results.**
* `Disk.cluster_applyWrites_clusterWrites`: writing a cluster replaces it and leaves all
  other clusters alone.
-/

namespace OS2024

open BlockStore Stdlib

/-- `struct BlockBuffer`: the bytes of one block. -/
abbrev BlockBuffer := Fin 512 → UInt8

/-- `struct ClusterBuffer`: the bytes of one cluster. -/
abbrev ClusterBuffer := Fin 2048 → UInt8

/-- The blocks of a disk by sector number. -/
abbrev Disk := Nat → BlockBuffer

/-- What the drive is asked to do, one event for each transferred block. -/
inductive DiskEvent
  | read (sector : Nat)
  | write (sector : Nat) (block : BlockBuffer)

def DiskEvent.IsRead : DiskEvent → Prop
  | DiskEvent.read _ => True
  | DiskEvent.write _ _ => False

/-- The sector addressed by the low 28 bits of a logical block address. -/
def sectorOf (lba : UInt32) : Nat := lba.toNat % 2 ^ 28

/-- The memory at `ptr` after `read_blocks(ptr, lba, block_count)`. -/
def blocksRead (d : Disk) (ptr : Memory) (lba : UInt32) (blockCount : UInt8) : Memory :=
  fun a =>
    if a < 512 * blockCount.toNat then
      d (sectorOf lba + a / 512) ⟨a % 512, Nat.mod_lt a (by decide)⟩
    else ptr a

/-- The sector writes issued by `write_blocks(ptr, lba, block_count)`, in order. -/
def blocksWritten (ptr : Memory) (lba : UInt32) (blockCount : UInt8) :
    List (Nat × BlockBuffer) :=
  (List.range blockCount.toNat).map fun i =>
    (sectorOf lba + i, fun k : Fin 512 => ptr (512 * i + k))

namespace Disk

/-- The bytes of cluster `n`. -/
def cluster (d : Disk) (n : Nat) : ClusterBuffer :=
  fun k => group 4 d n ⟨k / 512, by omega⟩ ⟨k % 512, by omega⟩

/-- The four blocks of a cluster buffer. -/
def blocksOf (b : ClusterBuffer) : Fin 4 → BlockBuffer :=
  fun i k => b ⟨512 * i + k, by omega⟩

/-- The sector writes that overwrite cluster `n`, in order. -/
def clusterWrites (n : Nat) (b : ClusterBuffer) : List (Nat × BlockBuffer) :=
  groupWrites n (blocksOf b)

theorem cluster_eq_iff {d d' : Disk} {n n' : Nat} :
    cluster d n = cluster d' n' ↔ group 4 d n = group 4 d' n' := by
  constructor
  · intro h
    funext i k
    have := congrFun h ⟨512 * i + k, by omega⟩
    have hdiv : (512 * (i : Nat) + k) / 512 = i := by omega
    have hmod : (512 * (i : Nat) + k) % 512 = k := by omega
    simpa [cluster, hdiv, hmod] using this
  · intro h
    funext k
    rw [cluster, h]
    rfl

theorem cluster_of_group {d : Disk} {n : Nat} {b : ClusterBuffer}
    (h : group 4 d n = blocksOf b) : cluster d n = b := by
  funext k
  rw [cluster, h]
  exact congrArg b (Fin.ext (Nat.div_add_mod k 512))

theorem blocksOf_cluster (d : Disk) (n : Nat) (i : Fin 4) :
    blocksOf (cluster d n) i = d (4 * n + i) := by
  funext k
  have hdiv : (512 * (i : Nat) + k) / 512 = i := by omega
  have hmod : (512 * (i : Nat) + k) % 512 = k := by omega
  simp only [blocksOf, cluster, group, hdiv, hmod]

/-- Writing cluster `n` replaces it and leaves every other cluster alone. -/
theorem cluster_applyWrites_clusterWrites (d : Disk) (n n' : Nat) (b : ClusterBuffer) :
    cluster (applyWrites d (clusterWrites n b)) n' =
      if n' = n then b else cluster d n' := by
  have h := group_applyWrites_groupWrites d n n' (blocksOf b)
  by_cases hn : n' = n
  · rw [if_pos hn] at h ⊢
    exact cluster_of_group h
  · rw [if_neg hn] at h ⊢
    exact cluster_eq_iff.mpr h

/-- A block outside of cluster `n` does not count for it. -/
theorem cluster_applyWrite_of_ne (d : Disk) {w : Nat × BlockBuffer} {n : Nat}
    (h : w.1 / 4 ≠ n) : cluster (applyWrite d w) n = cluster d n := by
  refine cluster_eq_iff.mpr (funext fun i => if_neg ?_)
  show 4 * n + (i : Nat) ≠ w.1
  omega

/-- The boot sector is the first block of cluster 0. -/
theorem boot_eq_of_cluster_zero {d d' : Disk} (h : cluster d 0 = cluster d' 0) :
    d 0 = d' 0 :=
  congrFun (cluster_eq_iff.mp h) 0

end Disk

end OS2024
