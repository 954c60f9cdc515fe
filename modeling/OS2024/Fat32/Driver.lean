import OS2024.Disk
import OS2024.Lib.Rounding
import OS2024.Lib.Traced
import OS2024.Fat32.Format

/-!
# The FAT32 driver of `fat32.c`

The driver operations as computations on the disk and the cached allocation table.
They fault where the C code would leave its arrays: an index outside `cluster_map`,
a read of the empty `slot_buf`, or a chain walk that never meets the end marker.
Every block transfer is recorded in the trace.
-/

namespace OS2024
namespace Fat32

open BlockStore Stdlib TracedState

/-- What ends a driver operation abnormally. -/
inductive Fault
  /-- `cluster_map[i]` with `i` outside the 512 entries. -/
  | clusterMapIndex (i : UInt32)
  /-- `slot_buf[0]` when `slot_buf` has length zero. -/
  | emptySlotBuf
  /-- A loop along the allocation table that never ends. -/
  | endlessLoop
deriving DecidableEq

/-- The disk and the part of `fat32_driverstate` that outlives an operation. -/
structure FileSystem where
  disk : Disk
  fatTable : FAT32FileAllocationTable

/-- Driver operations. -/
abbrev Driver := Traced Fault FileSystem DiskEvent

/-- `struct FAT32DriverRequest`; `buf` is the memory behind the pointer. -/
structure FAT32DriverRequest where
  buf : Memory
  name : Fin 8 → UInt8
  ext : Fin 3 → UInt8
  parentClusterNumber : UInt32
  bufferSize : UInt32

/-! ## Block and cluster transfers -/

def readBlocks (ptr : Memory) (lba : UInt32) (blockCount : UInt8) : Driver Memory :=
  fun s =>
    ⟨.ok (blocksRead s.disk ptr lba blockCount), s,
      (List.range blockCount.toNat).map fun i => DiskEvent.read (sectorOf lba + i)⟩

def writeBlocks (ptr : Memory) (lba : UInt32) (blockCount : UInt8) : Driver Unit :=
  fun s =>
    ⟨.ok (), { s with disk := applyWrites s.disk (blocksWritten ptr lba blockCount) },
      (blocksWritten ptr lba blockCount).map fun w => DiskEvent.write w.1 w.2⟩

/-- `CLUSTER_BLOCK_COUNT * cluster` in 32 bits. -/
def clusterToLba (cluster : UInt32) : UInt32 := 4 * cluster

def writeClusters (ptr : Memory) (clusterNumber : UInt32) (clusterCount : UInt8) :
    Driver Unit :=
  writeBlocks ptr (clusterToLba clusterNumber) (clusterCount * 4)

def readClusters (ptr : Memory) (clusterNumber : UInt32) (clusterCount : UInt8) :
    Driver Memory :=
  readBlocks ptr (clusterToLba clusterNumber) (clusterCount * 4)

/-- Read one cluster into a buffer cleared by `memset`. -/
def readCluster (clusterNumber : UInt32) : Driver ClusterBuffer := do
  let m ← readClusters (fun _ => 0) clusterNumber 1
  return fun k => m k

/-- Write one cluster from a buffer of `CLUSTER_SIZE` bytes. -/
def writeCluster (b : ClusterBuffer) (clusterNumber : UInt32) : Driver Unit :=
  writeClusters (Memory.ofBuffer b) clusterNumber 1

def readTable (clusterNumber : UInt32) : Driver FAT32DirectoryTable := do
  return FAT32DirectoryTable.ofBytes (← readCluster clusterNumber)

def writeTable (t : FAT32DirectoryTable) (clusterNumber : UInt32) : Driver Unit :=
  writeCluster t.toBytes clusterNumber

/-! ## The cached allocation table -/

/-- Read `fat_table.cluster_map[i]`. -/
def clusterMap (i : UInt32) : Driver UInt32 := do
  let s ← getState
  if h : i.toNat < 512 then return s.fatTable ⟨i.toNat, h⟩
  else fault (Fault.clusterMapIndex i)

/-- The table with entry `i` replaced. -/
def FAT32FileAllocationTable.set (f : FAT32FileAllocationTable) (i v : UInt32) :
    FAT32FileAllocationTable :=
  fun k => if k.val = i.toNat then v else f k

/-- Assign `fat_table.cluster_map[i] = v`. -/
def setClusterMap (i v : UInt32) : Driver Unit :=
  if i.toNat < 512 then
    modifyState fun s => { s with fatTable := FAT32FileAllocationTable.set s.fatTable i v }
  else fault (Fault.clusterMapIndex i)

/-- `write_clusters(&fat_table, FAT_CLUSTER_NUMBER, 1)` -/
def flushFat : Driver Unit := do
  let s ← getState
  writeCluster (FAT32FileAllocationTable.toBytes s.fatTable) fatClusterNumber

/-! ## Creating and mounting a file system -/

def fsSignatureText : List Char :=
  ['C', 'o', 'u', 'r', 's', 'e', ' ', ' ', ' ', ' ', ' ', ' ', ' ', ' ', ' ', ' ',
   'D', 'e', 's', 'i', 'g', 'n', 'e', 'd', ' ', 'b', 'y', ' ', ' ', ' ', ' ', ' ',
   'L', 'a', 'b', ' ', 'S', 'i', 's', 't', 'e', 'r', ' ', 'I', 'T', 'B', ' ', ' ',
   'M', 'a', 'd', 'e', ' ', 'w', 'i', 't', 'h', ' ', '<', '3', ' ', ' ', ' ', ' ',
   '-', '-', '-', '-', '-', '-', '-', '-', '-', '-', '-', '2', '0', '2', '4', '\n']

def byteOfChar (c : Char) : UInt8 := UInt8.ofNat c.toNat

/-- `fs_signature`: the text, zeros, and the bytes `O` and `k` at the end. -/
def fsSignature : BlockBuffer :=
  fun k =>
    if k.val = 510 then byteOfChar 'O'
    else if k.val = 511 then byteOfChar 'k'
    else (fsSignatureText.map byteOfChar).getD k 0

/-- The copy loop of `init_directory_table`: up to the first NUL, into zeroed bytes. -/
def copyName (name : Fin 8 → UInt8) : Fin 8 → UInt8 :=
  fun k => ((List.ofFn name).takeWhile (· ≠ 0)).getD k 0

def initDirectoryTable (dirTable : FAT32DirectoryTable) (name : Fin 8 → UInt8)
    (parentDirCluster : UInt32) : Driver FAT32DirectoryTable := do
  let currentDir : FAT32DirectoryEntry :=
    { dirTable 0 with
      name := copyName name
      attr := attrSubdirectory
      userAttribute := uattrNotEmpty }
  let t ← readTable parentDirCluster
  let parentDir : FAT32DirectoryEntry :=
    { dirTable 1 with
      name := (t 0).name
      attr := attrSubdirectory
      userAttribute := uattrNotEmpty
      clusterLow := (parentDirCluster &&& 0xFFFF).toUInt16
      clusterHigh := (parentDirCluster >>> 16 &&& 0xFFFF).toUInt16 }
  return Function.update (Function.update dirTable 0 currentDir) 1 parentDir

def isEmptyStorage : Driver Bool := do
  let m ← readBlocks (fun _ => 0) 0 1
  return memcmp (fun k : Fin 512 => m k) fsSignature != 0

/-- The name `root` padded with NULs. -/
def rootName : Fin 8 → UInt8 :=
  fun k => (['r', 'o', 'o', 't'].map byteOfChar).getD k 0

/-- The table of `create_fat32`: cleared, with its first three entries assigned. -/
def createdFatTable : FAT32FileAllocationTable :=
  fun k =>
    if k.val = 0 then cluster0Value
    else if k.val = 1 then cluster1Value
    else if k.val = 2 then fat32FatEndOfFile
    else fat32FatEmptyEntry

def createFat32 : Driver Unit := do
  writeBlocks (Memory.ofBuffer fsSignature) 0 1
  modifyState fun s => { s with fatTable := createdFatTable }
  flushFat
  writeBlocks (Memory.ofBuffer rootName) (clusterToLba 2) 1
  let dirTable ← initDirectoryTable FAT32DirectoryTable.zero rootName rootClusterNumber
  writeTable dirTable rootClusterNumber

def initializeFilesystemFat32 : Driver Unit := do
  if ← isEmptyStorage then createFat32
  else
    let b ← readCluster fatClusterNumber
    modifyState fun s => { s with fatTable := FAT32FileAllocationTable.ofBytes b }

/-! ## Helpers of the four requests -/

/-- The scan of `count_empty_fat_slots` over the indices `is`, with the entries of
`buf` written so far; `count` is the length of `buf`. -/
def countEmptyFatSlotsLoop (fatTable : FAT32FileAllocationTable) (required : UInt8) :
    List (Fin 512) → List UInt32 → List UInt32
  | [], buf => buf
  | i :: is, buf =>
      if buf.length < required.toNat then
        if fatTable i = fat32FatEmptyEntry then
          countEmptyFatSlotsLoop fatTable required is (buf ++ [UInt32.ofNat i])
        else countEmptyFatSlotsLoop fatTable required is buf
      else buf

/-- The entries `buf[0..count)` filled in by `count_empty_fat_slots(buf, required)`. -/
def countEmptyFatSlots (fatTable : FAT32FileAllocationTable) (required : UInt8) :
    List UInt32 :=
  countEmptyFatSlotsLoop fatTable required (List.finRange 512) []

/-- `n / (float) CLUSTER_SIZE`: the conversion of `n` to `float` rounds to 24 bits, the
division by a power of two is exact. -/
def floatClusters (n : UInt32) : ℚ := (Rounding.roundToEven 24 n.toNat : ℚ) / 2048

/-- `ceil`, with `(int) n` the truncation and the result cut to eight bits. -/
def ceil (n : ℚ) : UInt8 :=
  if (⌊n⌋ : ℚ) = n then UInt8.ofInt ⌊n⌋ else UInt8.ofInt (⌊n⌋ + 1)

/-- `!memcmp(&entry.name, &request.name, 8) && !memcmp(&entry.ext, &request.ext, 3)` -/
def keyMatches (e : FAT32DirectoryEntry) (request : FAT32DriverRequest) : Bool :=
  memcmp e.name request.name == 0 && memcmp e.ext request.ext == 0

/-! ## Reading -/

/-- What a request stores through `request.buf`: offset and bytes, in order. -/
abbrev Delivery := Nat × ClusterBuffer

def readDirectory (request : FAT32DriverRequest) : Driver (Int8 × List Delivery) := do
  let dirTable ← readTable request.parentClusterNumber
  match Fin.find? fun i =>
      (dirTable i).userAttribute == uattrNotEmpty && keyMatches (dirTable i) request with
  | none => return (2, [])
  | some i =>
      if (dirTable i).attr = attrSubdirectory then
        -- `sizeof(struct FAT32DirectoryEntry)`
        if request.bufferSize < 32 then return (-1, [])
        let b ← readCluster (dirTable i).cluster
        return (0, [(0, b)])
      else return (1, [])

/-- The copy loop of `read`.  A chain of more than 512 clusters repeats one of them, so
512 rounds decide whether the loop ends. -/
def readChain : Nat → Nat → UInt32 → Driver (List Delivery)
  | 0, _, currentCluster =>
      if currentCluster = fat32FatEndOfFile then return []
      else fault Fault.endlessLoop
  | rounds + 1, clustersRead, currentCluster =>
      if currentCluster = fat32FatEndOfFile then return []
      else do
        let b ← readCluster currentCluster
        let next ← clusterMap currentCluster
        let rest ← readChain rounds (clustersRead + 1) next
        return (clustersRead * 2048, b) :: rest

def read (request : FAT32DriverRequest) : Driver (Int8 × List Delivery) := do
  if (← clusterMap request.parentClusterNumber) ≠ fat32FatEndOfFile then return (2, [])
  let dirTable ← readTable request.parentClusterNumber
  match Fin.find? fun i => keyMatches (dirTable i) request with
  | none => return (2, [])
  | some i =>
      if (dirTable i).attr = attrSubdirectory then return (1, [])
      if request.bufferSize / clusterSize <
          (ceil (floatClusters (dirTable i).filesize)).toUInt32 then return (-1, [])
      let deliveries ← readChain 512 0 (dirTable i).cluster
      return (0, deliveries)

/-! ## Writing -/

/-- The scan of `write` over the slots `is`: `none` once a slot has the requested key,
else the first empty slot, where slot 0 stands for none found so far. -/
def writeScan (dirTable : FAT32DirectoryTable) (request : FAT32DriverRequest) :
    List (Fin 64) → Fin 64 → Option (Fin 64)
  | [], dirtableEmptySlot => some dirtableEmptySlot
  | i :: is, dirtableEmptySlot =>
      let dirtableEmptySlot :=
        if (dirTable i).userAttribute ≠ uattrNotEmpty ∧ dirtableEmptySlot = 0 then i
        else dirtableEmptySlot
      if keyMatches (dirTable i) request then none
      else writeScan dirTable request is dirtableEmptySlot

/-- The linking loop of `write` over the remaining slots of `slot_buf`; `j` counts the
clusters already written. -/
def writeLoop (buf : Memory) : Nat → List UInt32 → Driver Unit
  | _, [] => return ()
  | j, clusterNum :: rest => do
      setClusterMap clusterNum (rest.headD fat32FatEndOfFile)
      flushFat
      writeClusters (fun a => buf (j * 2048 + a)) clusterNum 1
      writeLoop buf (j + 1) rest

/-- The folder branch of `write`. -/
def writeFolder (request : FAT32DriverRequest) (clusterNum : UInt32) : Driver Unit := do
  let childDir ← initDirectoryTable FAT32DirectoryTable.zero request.name
    request.parentClusterNumber
  let child : FAT32DirectoryEntry :=
    { childDir 0 with
      clusterLow := (clusterNum &&& 0xFFFF).toUInt16
      clusterHigh := (clusterNum >>> 16 &&& 0xFFFF).toUInt16 }
  writeTable (Function.update childDir 0 child) clusterNum
  setClusterMap clusterNum fat32FatEndOfFile
  flushFat

/-- `isFolder` in `write` -/
def isFolder (request : FAT32DriverRequest) : Bool := request.bufferSize == 0

/-- The two branches of `write` that fill `slot_buf`, given as its first and other slots. -/
def writeContent (request : FAT32DriverRequest) (clusterNum : UInt32) (rest : List UInt32) :
    Driver Unit :=
  if isFolder request then writeFolder request clusterNum
  else writeLoop request.buf 0 (clusterNum :: rest)

/-- The directory entry that `write` puts into the parent's table. -/
def newEntry (request : FAT32DriverRequest) (clusterNum : UInt32) : FAT32DirectoryEntry :=
  { FAT32DirectoryEntry.zero with
    name := request.name
    ext := request.ext
    attr := if isFolder request then attrSubdirectory else 0
    userAttribute := uattrNotEmpty
    clusterLow := (clusterNum &&& 0xFFFF).toUInt16
    clusterHigh := (clusterNum >>> 16 &&& 0xFFFF).toUInt16
    filesize := request.bufferSize }

/-- The value of `required` in `write`: the clusters of the data, one for a folder. -/
def required (request : FAT32DriverRequest) : UInt8 :=
  ceil (floatClusters request.bufferSize) + (if isFolder request then 1 else 0)

def write (request : FAT32DriverRequest) : Driver Int8 := do
  if (← clusterMap request.parentClusterNumber) ≠ fat32FatEndOfFile then return 2
  let dirTable ← readTable request.parentClusterNumber
  match writeScan dirTable request (List.finRange 64) 0 with
  | none => return 1
  | some dirtableEmptySlot =>
      if dirtableEmptySlot = 0 then return -1
      let slotBuf := countEmptyFatSlots (← getState).fatTable (required request)
      if slotBuf.length < (required request).toNat then return -1
      match slotBuf with
      | [] => fault Fault.emptySlotBuf
      | clusterNum :: rest =>
          writeContent request clusterNum rest
          writeTable (Function.update dirTable dirtableEmptySlot
            (newEntry request clusterNum)) request.parentClusterNumber
          return 0

/-! ## Deleting -/

/-- The emptiness check of `delete`: no slot from 2 on is in use. -/
def isEmptyTable (t : FAT32DirectoryTable) : Bool :=
  decide (∀ j : Fin 64, 2 ≤ j → (t j).userAttribute ≠ uattrNotEmpty)

/-- The freeing loop of `delete`.  Every round but one clears an entry that was not
zero, so 513 rounds decide whether the loop ends. -/
def freeChain : Nat → UInt32 → Driver Unit
  | 0, _ => fault Fault.endlessLoop
  | rounds + 1, currentCluster => do
      let nextCluster ← clusterMap currentCluster
      setClusterMap currentCluster fat32FatEmptyEntry
      writeCluster (fun _ => 0) currentCluster
      if nextCluster = fat32FatEndOfFile then return ()
      else freeChain rounds nextCluster

def delete (request : FAT32DriverRequest) : Driver Int8 := do
  if (← clusterMap request.parentClusterNumber) ≠ fat32FatEndOfFile then return 2
  let dirTable ← readTable request.parentClusterNumber
  match Fin.find? fun i => keyMatches (dirTable i) request with
  | none => return 1
  | some i =>
      let isEmpty ←
        if (dirTable i).attr = attrSubdirectory then
          isEmptyTable <$> readTable (dirTable i).cluster
        else pure true
      if !isEmpty then return 2
      writeTable (Function.update dirTable i FAT32DirectoryEntry.zero)
        request.parentClusterNumber
      freeChain 513 (dirTable i).cluster
      flushFat
      return 0

end Fat32
end OS2024
