import Mathlib.Tactic
import OS2024.Disk
import OS2024.Lib.LittleEndian

/-!
# On-disk format of the FAT32 file system

The constants and packed records of `header/filesystem/fat32.h`: the file allocation
table, the 32-byte directory entry and the directory table of 64 entries.  A record is
a Lean structure; `toBytes` lays it out as the packed C struct does on a little-endian
machine and `ofBytes` reads it back.

**Results.**
* `FAT32DirectoryEntry.ofBytes_toBytes`, `FAT32DirectoryEntry.toBytes_ofBytes`: the
  layout of an entry is a bijection between entries and 32 bytes.
* the same for `FAT32DirectoryTable` and `FAT32FileAllocationTable` and the 2048 bytes
  of a cluster.
-/

namespace OS2024
namespace Fat32

open LittleEndian

/-- `CLUSTER_0_VALUE` -/
def cluster0Value : UInt32 := 0x0FFFFFF0

/-- `CLUSTER_1_VALUE` -/
def cluster1Value : UInt32 := 0x0FFFFFFF

/-- `FAT32_FAT_END_OF_FILE` -/
def fat32FatEndOfFile : UInt32 := 0x0FFFFFFF

/-- `FAT32_FAT_EMPTY_ENTRY` -/
def fat32FatEmptyEntry : UInt32 := 0x00000000

/-- `FAT_CLUSTER_NUMBER` -/
def fatClusterNumber : UInt32 := 1

/-- `ROOT_CLUSTER_NUMBER` -/
def rootClusterNumber : UInt32 := 2

/-- `ATTR_SUBDIRECTORY` -/
def attrSubdirectory : UInt8 := 0b00010000

/-- `UATTR_NOT_EMPTY` -/
def uattrNotEmpty : UInt8 := 0b10101010

/-- `CLUSTER_SIZE`, that is `BLOCK_SIZE * CLUSTER_BLOCK_COUNT` bytes. -/
def clusterSize : UInt32 := 2048

/-- `struct FAT32DirectoryEntry`, with `attribute` spelled `attr`; `undelete` holds the stored
byte of the C `bool`. -/
structure FAT32DirectoryEntry where
  name : Fin 8 → UInt8
  ext : Fin 3 → UInt8
  attr : UInt8
  userAttribute : UInt8
  undelete : UInt8
  createTime : UInt16
  createDate : UInt16
  accessDate : UInt16
  clusterHigh : UInt16
  modifiedTime : UInt16
  modifiedDate : UInt16
  clusterLow : UInt16
  filesize : UInt32
deriving DecidableEq

namespace FAT32DirectoryEntry

/-- The entry left by `memset(&entry, 0, sizeof entry)`. -/
def zero : FAT32DirectoryEntry where
  name := fun _ => 0
  ext := fun _ => 0
  attr := 0
  userAttribute := 0
  undelete := 0
  createTime := 0
  createDate := 0
  accessDate := 0
  clusterHigh := 0
  modifiedTime := 0
  modifiedDate := 0
  clusterLow := 0
  filesize := 0

/-- The cluster number of an entry, `(cluster_high << 16) | cluster_low`. -/
def cluster (e : FAT32DirectoryEntry) : UInt32 :=
  (e.clusterHigh.toUInt32 <<< 16) ||| e.clusterLow.toUInt32

/-- The 32 bytes of the packed struct. -/
def toBytes (e : FAT32DirectoryEntry) (k : Fin 32) : UInt8 :=
  if h : k.val < 8 then e.name ⟨k.val, h⟩
  else if h : k.val < 11 then e.ext ⟨k.val - 8, by omega⟩
  else if k.val < 12 then e.attr
  else if k.val < 13 then e.userAttribute
  else if k.val < 14 then e.undelete
  else if h : k.val < 16 then byte16 e.createTime ⟨k.val - 14, by omega⟩
  else if h : k.val < 18 then byte16 e.createDate ⟨k.val - 16, by omega⟩
  else if h : k.val < 20 then byte16 e.accessDate ⟨k.val - 18, by omega⟩
  else if h : k.val < 22 then byte16 e.clusterHigh ⟨k.val - 20, by omega⟩
  else if h : k.val < 24 then byte16 e.modifiedTime ⟨k.val - 22, by omega⟩
  else if h : k.val < 26 then byte16 e.modifiedDate ⟨k.val - 24, by omega⟩
  else if h : k.val < 28 then byte16 e.clusterLow ⟨k.val - 26, by omega⟩
  else byte32 e.filesize ⟨k.val - 28, by omega⟩

/-- The entry stored in 32 bytes. -/
def ofBytes (b : Fin 32 → UInt8) : FAT32DirectoryEntry where
  name := fun i => b ⟨i, by omega⟩
  ext := fun i => b ⟨8 + i, by omega⟩
  attr := b 11
  userAttribute := b 12
  undelete := b 13
  createTime := word16 fun i => b ⟨14 + i, by omega⟩
  createDate := word16 fun i => b ⟨16 + i, by omega⟩
  accessDate := word16 fun i => b ⟨18 + i, by omega⟩
  clusterHigh := word16 fun i => b ⟨20 + i, by omega⟩
  modifiedTime := word16 fun i => b ⟨22 + i, by omega⟩
  modifiedDate := word16 fun i => b ⟨24 + i, by omega⟩
  clusterLow := word16 fun i => b ⟨26 + i, by omega⟩
  filesize := word32 fun i => b ⟨28 + i, by omega⟩

@[simp] theorem toBytes_ofBytes (b : Fin 32 → UInt8) : toBytes (ofBytes b) = b := by
  funext k
  fin_cases k <;> simp [toBytes, ofBytes]

@[simp] theorem ofBytes_toBytes (e : FAT32DirectoryEntry) : ofBytes (toBytes e) = e := by
  have hname : (fun i : Fin 8 => toBytes e ⟨i, by omega⟩) = e.name := by
    funext i
    simp [toBytes]
  have hext : (fun i : Fin 3 => toBytes e ⟨8 + i, by omega⟩) = e.ext := by
    funext i
    fin_cases i <;> rfl
  have hct : (fun i : Fin 2 => toBytes e ⟨14 + i, by omega⟩) = byte16 e.createTime := by
    funext i
    fin_cases i <;> rfl
  have hcd : (fun i : Fin 2 => toBytes e ⟨16 + i, by omega⟩) = byte16 e.createDate := by
    funext i
    fin_cases i <;> rfl
  have had : (fun i : Fin 2 => toBytes e ⟨18 + i, by omega⟩) = byte16 e.accessDate := by
    funext i
    fin_cases i <;> rfl
  have hch : (fun i : Fin 2 => toBytes e ⟨20 + i, by omega⟩) = byte16 e.clusterHigh := by
    funext i
    fin_cases i <;> rfl
  have hmt : (fun i : Fin 2 => toBytes e ⟨22 + i, by omega⟩) = byte16 e.modifiedTime := by
    funext i
    fin_cases i <;> rfl
  have hmd : (fun i : Fin 2 => toBytes e ⟨24 + i, by omega⟩) = byte16 e.modifiedDate := by
    funext i
    fin_cases i <;> rfl
  have hcl : (fun i : Fin 2 => toBytes e ⟨26 + i, by omega⟩) = byte16 e.clusterLow := by
    funext i
    fin_cases i <;> rfl
  have hfs : (fun i : Fin 4 => toBytes e ⟨28 + i, by omega⟩) = byte32 e.filesize := by
    funext i
    fin_cases i <;> rfl
  simp only [ofBytes, hname, hext, hct, hcd, had, hch, hmt, hmd, hcl, hfs, word16_byte16,
    word32_byte32]
  rfl

/-- An entry is zero exactly when all its bytes are. -/
theorem eq_zero_iff (e : FAT32DirectoryEntry) : e = zero ↔ ∀ k, toBytes e k = 0 := by
  have hz : toBytes zero = fun _ => 0 := by
    funext k
    fin_cases k <;> rfl
  constructor
  · rintro rfl k
    rw [hz]
  · intro h
    rw [← ofBytes_toBytes e, ← ofBytes_toBytes zero, hz]
    exact congrArg ofBytes (funext h)

end FAT32DirectoryEntry

/-- Slots are written as numerals. -/
instance neZero_slots : NeZero 64 := ⟨by decide⟩

/-- The entries of `struct FAT32DirectoryTable`, which fill one cluster. -/
abbrev FAT32DirectoryTable := Fin 64 → FAT32DirectoryEntry

namespace FAT32DirectoryTable

/-- The table left by `memset(&dir_table, 0, CLUSTER_SIZE)`. -/
def zero : FAT32DirectoryTable := fun _ => FAT32DirectoryEntry.zero

/-- The cluster image of a directory table. -/
def toBytes (t : FAT32DirectoryTable) : ClusterBuffer :=
  fun k => (t ⟨k / 32, by omega⟩).toBytes ⟨k % 32, by omega⟩

/-- The directory table stored in a cluster. -/
def ofBytes (b : ClusterBuffer) : FAT32DirectoryTable :=
  fun i => FAT32DirectoryEntry.ofBytes fun k => b ⟨32 * i + k, by omega⟩

@[simp] theorem ofBytes_toBytes (t : FAT32DirectoryTable) : ofBytes (toBytes t) = t := by
  funext i
  rw [← FAT32DirectoryEntry.ofBytes_toBytes (t i)]
  refine congrArg FAT32DirectoryEntry.ofBytes (funext fun k => ?_)
  have hdiv : (32 * (i : Nat) + k) / 32 = i := by omega
  have hmod : (32 * (i : Nat) + k) % 32 = k := by omega
  simp [toBytes, hdiv, hmod]

@[simp] theorem toBytes_ofBytes (b : ClusterBuffer) : toBytes (ofBytes b) = b := by
  funext k
  simp only [toBytes, ofBytes, FAT32DirectoryEntry.toBytes_ofBytes]
  congr 1
  exact Fin.ext (Nat.div_add_mod k 32)

end FAT32DirectoryTable

/-- `struct FAT32FileAllocationTable`: the 512 entries of `cluster_map`. -/
abbrev FAT32FileAllocationTable := Fin 512 → UInt32

namespace FAT32FileAllocationTable

/-- The cluster image of the allocation table. -/
def toBytes (f : FAT32FileAllocationTable) : ClusterBuffer :=
  fun k => byte32 (f ⟨k / 4, by omega⟩) ⟨k % 4, by omega⟩

/-- The allocation table stored in a cluster. -/
def ofBytes (b : ClusterBuffer) : FAT32FileAllocationTable :=
  fun i => word32 fun k => b ⟨4 * i + k, by omega⟩

@[simp] theorem ofBytes_toBytes (f : FAT32FileAllocationTable) : ofBytes (toBytes f) = f := by
  funext i
  rw [← word32_byte32 (f i)]
  refine congrArg word32 (funext fun k => ?_)
  have hdiv : (4 * (i : Nat) + k) / 4 = i := by omega
  have hmod : (4 * (i : Nat) + k) % 4 = k := by omega
  simp [toBytes, hdiv, hmod]

@[simp] theorem toBytes_ofBytes (b : ClusterBuffer) : toBytes (ofBytes b) = b := by
  funext k
  simp only [toBytes, ofBytes, byte32_word32]
  congr 1
  exact Fin.ext (Nat.div_add_mod k 4)

end FAT32FileAllocationTable

end Fat32
end OS2024
