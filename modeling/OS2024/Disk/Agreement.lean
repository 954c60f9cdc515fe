import OS2024.Disk.Ata
import OS2024.Disk.Inserter
import OS2024.Fat32.Driver

/-!
# The two builds of the driver

The kernel and the inserter share `fat32.c`, and with it the image, but each has its own block
transfers.  The drive of the kernel has 28 bits for the number of a sector, which are 128 GiB; the
inserter computes addresses of 32 bits, which are 4 GiB.

**Results.**
* `kept_splice`: clusters that are written come back, and the others stay.
* `drivers_agree`: below 4 GiB both builds leave the same image and the same buffer.
* `driver_readBlocks`, `driver_writeBlocks`: the transfers of the driver's model are those at the
  ports.
* `drivers_differ`: the first block above 4 GiB.
-/

namespace OS2024

open Fat32 Stdlib TracedState Splices

def Ata.writeClusters (clusterNumber : UInt32) (clusterCount : UInt8) : Ata.AtaM Unit :=
  Ata.writeBlocks (clusterToLba clusterNumber) (clusterCount * 4)

def Ata.readClusters (clusterNumber : UInt32) (clusterCount : UInt8) : Ata.AtaM Unit :=
  Ata.readBlocks (clusterToLba clusterNumber) (clusterCount * 4)

def Inserter.writeClusters
    (size : Inserter.Object → Nat)
    (clusterNumber : UInt32)
    (clusterCount : UInt8) :
    MemoryM Inserter.Object Unit :=
  Inserter.writeBlocks size (clusterToLba clusterNumber) (clusterCount * 4)

def Inserter.readClusters
    (size : Inserter.Object → Nat)
    (clusterNumber : UInt32)
    (clusterCount : UInt8) :
    MemoryM Inserter.Object Unit :=
  Inserter.readBlocks size (clusterToLba clusterNumber) (clusterCount * 4)

namespace Builds

open Inserter

/-- Both builds have the same image and the same buffer. -/
structure Same (s : Ata.Machine) (m : Objects Object) : Prop where
  image : m Object.imageStorage = s.disk
  buffer : m Object.buffer = s.memory

/-- `ptr'` is what was read of the `k` clusters from `c` on, after they were written from `ptr`:
the same bytes, and no other cluster of the image has changed. -/
structure Kept (c k : Nat) (disk disk' ptr ptr' : Nat → UInt8) : Prop where
  returned : ∀ a, a < 2048 * k → ptr' a = ptr a
  others : ∀ a, ¬ (c ≤ a / 2048 ∧ a / 2048 < c + k) → disk' a = disk a

/-- **The property.**  In both builds the transfers leave the same image and the same buffer, and
clusters that are written and read again come back, all others staying as they were. -/
structure DriversAgree
    (size : Object → Nat)
    (s : Ata.Machine)
    (m : Objects Object) : Prop where
  reads : ∀ lba (blockCount : UInt8), lba.toNat + blockCount.toNat ≤ 2 ^ 23 →
    Fits size lba blockCount →
    ∃ s' m', Ata.readBlocks lba blockCount s = ⟨.ok (), s', []⟩ ∧
      Inserter.readBlocks size lba blockCount m = ⟨.ok (), m', []⟩ ∧ Same s' m'
  writes : ∀ lba (blockCount : UInt8), lba.toNat + blockCount.toNat ≤ 2 ^ 23 →
    Fits size lba blockCount →
    ∃ s' m', Ata.writeBlocks lba blockCount s = ⟨.ok (), s', []⟩ ∧
      Inserter.writeBlocks size lba blockCount m = ⟨.ok (), m', []⟩ ∧ Same s' m'
  clusters_kernel : ∀ (c : UInt32) (k : UInt8), 1 ≤ k.toNat → k.toNat ≤ 63 →
    4 * (c.toNat + k.toNat) ≤ 2 ^ 28 →
    ∃ s', Ata.writeClusters c k s = ⟨.ok (), s', []⟩ ∧
      ∀ ptr, ∃ s'', Ata.readClusters c k { s' with memory := ptr } = ⟨.ok (), s'', []⟩ ∧
        s''.disk = s'.disk ∧ Kept c.toNat k.toNat s.disk s'.disk s.memory s''.memory
  clusters_inserter : ∀ (c : UInt32) (k : UInt8), 1 ≤ k.toNat → k.toNat ≤ 63 →
    4 * (c.toNat + k.toNat) ≤ 2 ^ 23 → Fits size (clusterToLba c) (k * 4) →
    ∃ m', Inserter.writeClusters size c k m = ⟨.ok (), m', []⟩ ∧
      ∀ ptr, ∃ m'', Inserter.readClusters size c k (Function.update m' Object.buffer ptr) =
          ⟨.ok (), m'', []⟩ ∧
        m'' Object.imageStorage = m' Object.imageStorage ∧
        Kept c.toNat k.toNat (m Object.imageStorage) (m' Object.imageStorage) (m Object.buffer)
          (m'' Object.buffer)

/-! ## Clusters -/

section Clusters

variable {disk disk' ptr ptr' b : Nat → UInt8} {c k : Nat}

theorem kept_splice
    (hwrite : disk' = splice disk (2048 * c) (2048 * k) ptr)
    (hread : ptr' = splice b 0 (2048 * k) fun a => disk' (2048 * c + a)) :
    Kept c k disk disk' ptr ptr' := by
  refine ⟨fun a ha => ?_, fun a ha => ?_⟩
  · rw [hread, splice_from_zero_inside ha, hwrite, splice_inside ha]
  · have hout : a < 2048 * c ∨ 2048 * c + 2048 * k ≤ a := by
      by_contra hin
      exact ha ⟨by omega, by omega⟩
    rw [hwrite, splice_outside hout]

theorem clusterToLba_toNat
    {c : UInt32}
    (h : 4 * c.toNat < 2 ^ 32) :
    (clusterToLba c).toNat = 4 * c.toNat := by
  have hfour : (4 : UInt32).toNat = 4 := rfl
  rw [clusterToLba, UInt32.toNat_mul, hfour]
  exact Nat.mod_eq_of_lt h

/-- The first byte of a cluster. -/
theorem clusterStart
    {c : UInt32}
    (h : 4 * c.toNat < 2 ^ 32) :
    512 * (clusterToLba c).toNat = 2048 * c.toNat := by
  rw [clusterToLba_toNat h]
  omega

/-- Up to 63 clusters the number of blocks fits in its eight bits. -/
theorem blocks_toNat
    {k : UInt8}
    (h : k.toNat ≤ 63) :
    (k * 4).toNat = 4 * k.toNat := by
  have hfour : (4 : UInt8).toNat = 4 := rfl
  rw [UInt8.toNat_mul, hfour]
  omega

/-- The number of bytes in some clusters. -/
theorem clusterLength
    {k : UInt8}
    (h : k.toNat ≤ 63) :
    512 * (k * 4).toNat = 2048 * k.toNat := by
  rw [blocks_toNat h]
  omega

theorem sectorOf_eq
    {lba : UInt32}
    (h : lba.toNat < 2 ^ 28) :
    sectorOf lba = lba.toNat :=
  Nat.mod_eq_of_lt h

end Clusters

/-! ## Blocks -/

section Blocks

variable {size : Object → Nat} {s : Ata.Machine} {m : Objects Object}

theorem reads_agree
    (hready : s.Ready)
    (hsame : Same s m)
    {lba : UInt32}
    {blockCount : UInt8}
    (h : lba.toNat + blockCount.toNat ≤ 2 ^ 23)
    (hfits : Fits size lba blockCount) :
    ∃ s' m', Ata.readBlocks lba blockCount s = ⟨.ok (), s', []⟩ ∧
      Inserter.readBlocks size lba blockCount m = ⟨.ok (), m', []⟩ ∧ Same s' m' := by
  obtain ⟨s', hrun, -, hdisk, hmemory⟩ := Ata.readBlocks_run hready lba blockCount
  obtain ⟨m', hrun', himage, hbuffer⟩ := Inserter.readBlocks_run m h hfits
  refine ⟨s', m', hrun, hrun', ?_, ?_⟩
  · rw [hdisk, himage, hsame.image]
  · rw [hmemory, hbuffer, sectorOf_eq (by omega), hsame.image, hsame.buffer]

theorem writes_agree
    (hready : s.Ready)
    (hsame : Same s m)
    {lba : UInt32}
    {blockCount : UInt8}
    (h : lba.toNat + blockCount.toNat ≤ 2 ^ 23)
    (hfits : Fits size lba blockCount) :
    ∃ s' m', Ata.writeBlocks lba blockCount s = ⟨.ok (), s', []⟩ ∧
      Inserter.writeBlocks size lba blockCount m = ⟨.ok (), m', []⟩ ∧ Same s' m' := by
  obtain ⟨s', hrun, -, hmemory, hdisk⟩ := Ata.writeBlocks_run hready lba blockCount
  obtain ⟨m', hrun', hbuffer, himage⟩ := Inserter.writeBlocks_run m h hfits
  refine ⟨s', m', hrun, hrun', ?_, ?_⟩
  · rw [hdisk, himage, sectorOf_eq (by omega), hsame.image, hsame.buffer]
  · rw [hmemory, hbuffer, hsame.buffer]

theorem clusters_kernel
    (hready : s.Ready)
    {c : UInt32}
    {k : UInt8}
    (hpos : 1 ≤ k.toNat)
    (hk : k.toNat ≤ 63)
    (hc : 4 * (c.toNat + k.toNat) ≤ 2 ^ 28) :
    ∃ s', Ata.writeClusters c k s = ⟨.ok (), s', []⟩ ∧
      ∀ ptr, ∃ s'', Ata.readClusters c k { s' with memory := ptr } = ⟨.ok (), s'', []⟩ ∧
        s''.disk = s'.disk ∧ Kept c.toNat k.toNat s.disk s'.disk s.memory s''.memory := by
  have hlba : (clusterToLba c).toNat = 4 * c.toNat := clusterToLba_toNat (by omega)
  have hstart : 512 * sectorOf (clusterToLba c) = 2048 * c.toNat := by
    rw [sectorOf_eq (by omega), clusterStart (by omega)]
  obtain ⟨s', hwrite, hready', -, hdisk⟩ := Ata.writeBlocks_run hready (clusterToLba c) (k * 4)
  refine ⟨s', hwrite, fun ptr => ?_⟩
  obtain ⟨s'', hread, -, hdisk', hmemory⟩ :=
    Ata.readBlocks_run (s := { s' with memory := ptr }) ⟨hready'.notBusy, hready'.ready⟩
      (clusterToLba c) (k * 4)
  rw [hstart, clusterLength hk] at hdisk hmemory
  exact ⟨s'', hread, hdisk', kept_splice hdisk hmemory⟩

theorem clusters_inserter
    {c : UInt32}
    {k : UInt8}
    (hk : k.toNat ≤ 63)
    (hc : 4 * (c.toNat + k.toNat) ≤ 2 ^ 23)
    (hfits : Fits size (clusterToLba c) (k * 4)) :
    ∃ m', Inserter.writeClusters size c k m = ⟨.ok (), m', []⟩ ∧
      ∀ ptr, ∃ m'', Inserter.readClusters size c k (Function.update m' Object.buffer ptr) =
          ⟨.ok (), m'', []⟩ ∧
        m'' Object.imageStorage = m' Object.imageStorage ∧
        Kept c.toNat k.toNat (m Object.imageStorage) (m' Object.imageStorage) (m Object.buffer)
          (m'' Object.buffer) := by
  have hbelow : (clusterToLba c).toNat + (k * 4).toNat ≤ 2 ^ 23 := by
    rw [clusterToLba_toNat (by omega), blocks_toNat hk]
    omega
  obtain ⟨m', hwrite, -, himage⟩ := Inserter.writeBlocks_run m hbelow hfits
  refine ⟨m', hwrite, fun ptr => ?_⟩
  obtain ⟨m'', hread, himage', hbuffer⟩ :=
    Inserter.readBlocks_run (Function.update m' Object.buffer ptr) hbelow hfits
  have hkeep : Function.update m' Object.buffer ptr Object.imageStorage =
      m' Object.imageStorage := Function.update_of_ne Object.noConfusion _ _
  rw [clusterStart (by omega), clusterLength hk] at himage hbuffer
  rw [hkeep] at himage' hbuffer
  exact ⟨m'', hread, himage', kept_splice himage hbuffer⟩

/-- **The two builds agree on all blocks below 4 GiB.** -/
theorem drivers_agree
    (hready : s.Ready)
    (hsame : Same s m) :
    DriversAgree size s m where
  reads _ _ h hfits := reads_agree hready hsame h hfits
  writes _ _ h hfits := writes_agree hready hsame h hfits
  clusters_kernel _ _ hpos hk hc := clusters_kernel hready hpos hk hc
  clusters_inserter _ _ _ hk hc hfits := clusters_inserter hk hc hfits

end Blocks

/-! ## The model of the driver -/

section Driver

variable {s : Ata.Machine} {fs : FileSystem}

/-- The driver reads block by block what `read_blocks` reads at the ports. -/
theorem driver_readBlocks
    (hready : s.Ready)
    (hdisk : fs.disk = Ata.imageBlocks s.disk)
    (lba : UInt32)
    (blockCount : UInt8) :
    ∃ s', Ata.readBlocks lba blockCount s = ⟨.ok (), s', []⟩ ∧
      (Fat32.readBlocks s.memory lba blockCount fs).result = .ok s'.memory ∧
      (Fat32.readBlocks s.memory lba blockCount fs).state.disk = Ata.imageBlocks s'.disk := by
  obtain ⟨s', hrun, -, hdisk', hmemory⟩ := Ata.readBlocks_run hready lba blockCount
  refine ⟨s', hrun, ?_, ?_⟩
  · rw [Ata.readBlocks_blocks hmemory, ← hdisk]
    rfl
  · rw [hdisk', ← hdisk]
    rfl

/-- The driver writes block by block what `write_blocks` writes at the ports. -/
theorem driver_writeBlocks
    (hready : s.Ready)
    (hdisk : fs.disk = Ata.imageBlocks s.disk)
    (lba : UInt32)
    (blockCount : UInt8) :
    ∃ s', Ata.writeBlocks lba blockCount s = ⟨.ok (), s', []⟩ ∧ s'.memory = s.memory ∧
      (Fat32.writeBlocks s.memory lba blockCount fs).state.disk = Ata.imageBlocks s'.disk := by
  obtain ⟨s', hrun, -, hmemory, hdisk'⟩ := Ata.writeBlocks_run hready lba blockCount
  refine ⟨s', hrun, hmemory, ?_⟩
  rw [Ata.writeBlocks_blocks hdisk', ← hdisk]
  rfl

end Driver

/-- A drive that is ready. -/
def readyDevice : Ata.Device := ⟨0x50, 0, 0, 0, 0, 0, 0, 0, 0⟩

/-- An image and a buffer whose bytes differ from each other and from place to place. -/
def storedMachine : Ata.Machine :=
  ⟨readyDevice, fun a => UInt8.ofNat (a + a / 256), fun a => UInt8.ofNat (3 * a + 1)⟩

/-- The same for the inserter. -/
def storedObjects : Objects Object
  | Object.imageStorage => storedMachine.disk
  | Object.buffer => storedMachine.memory

/-- An image of 4 MiB and a buffer of 63 clusters. -/
def storedSize : Object → Nat
  | Object.imageStorage => 4 * 1024 * 1024
  | Object.buffer => 63 * 2048

/-- Both builds agree on this image. -/
theorem agree_storedMachine : DriversAgree storedSize storedMachine storedObjects :=
  drivers_agree ⟨by decide, by decide⟩ ⟨rfl, rfl⟩

/-! ## Above 4 GiB -/

/-- An image with a single byte that is not zero, at 4 GiB. -/
def farImage : Nat → UInt8 := fun a => if a = 2 ^ 32 then 1 else 0

/-- The image and an empty buffer, for the kernel. -/
def farMachine : Ata.Machine := ⟨readyDevice, farImage, fun _ => 0⟩

/-- The same for the inserter. -/
def farObjects : Objects Object
  | Object.imageStorage => farImage
  | Object.buffer => fun _ => 0

/-- The sizes of both, up to the block at 4 GiB. -/
def farSize : Object → Nat
  | Object.imageStorage => 2 ^ 32 + 512
  | Object.buffer => 512

theorem ready_farMachine : farMachine.Ready := ⟨by decide, by decide⟩

/-- The inserter takes the first block of the image for the one at 4 GiB. -/
theorem readBlocks_far :
    Inserter.readBlocks farSize 0x800000 1 farObjects =
      ⟨.ok (), moved farObjects bufferPointer ⟨Object.imageStorage, 0⟩ 512, []⟩ := by
  have hwrap : imageOffset 0x800000 0 = 0 := by decide
  have hfirst : ∀ i, i < 1 → (⟨Object.imageStorage, imageOffset 0x800000 i⟩ : Pointer Object) =
      (⟨Object.imageStorage, 0⟩ : Pointer Object).plus (512 * i) := by
    intro i hi
    obtain rfl : i = 0 := Nat.lt_one_iff.mp hi
    rw [hwrap]
    rfl
  exact copyBlocks_apply Object.noConfusion (fun i _ => bufferPointer_plus i) hfirst
    (by decide) (by decide)

/-- **At 4 GiB the two builds differ.** -/
theorem drivers_differ :
    ∃ size s m lba, ∃ blockCount : UInt8, s.Ready ∧ Same s m ∧
      lba.toNat + blockCount.toNat ≤ 2 ^ 28 ∧ Fits size lba blockCount ∧
      ¬ ∃ s' m', Ata.readBlocks lba blockCount s = ⟨.ok (), s', []⟩ ∧
        Inserter.readBlocks size lba blockCount m = ⟨.ok (), m', []⟩ ∧ Same s' m' := by
  refine ⟨farSize, farMachine, farObjects, 0x800000, 1, ready_farMachine, ⟨rfl, rfl⟩,
    by decide, ⟨by decide, by decide⟩, ?_⟩
  rintro ⟨s', m', hkernel, hinserter, hsame⟩
  obtain ⟨s'', hrun, -, -, hmemory⟩ := Ata.readBlocks_run ready_farMachine 0x800000 1
  rw [hkernel] at hrun
  rw [readBlocks_far] at hinserter
  cases hrun
  cases hinserter
  have hbyte := congrFun hsame.buffer 0
  rw [hmemory, splice_from_zero_inside (by decide), bufferPointer, moved, Function.update_self,
    splice_from_zero_inside (by decide)] at hbyte
  revert hbyte
  decide

end Builds
end OS2024
