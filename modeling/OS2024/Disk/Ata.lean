import OS2024.Disk
import OS2024.Lib.LittleEndian
import OS2024.Lib.Splices
import OS2024.Lib.Traced

/-!
# `disk.c` at the ports

The drive is programmed through its ports: the number of sectors, 28 bits for the first sector in
four parts, and the command.  Then the words of the sectors go through the data port, one after
another.  A read stores them through a pointer that it moves from sector to sector, a write
computes the index of each.

The image is a sequence of bytes here, of which sector `k` has the 512 bytes from `512 * k` on.

**Results.**
* `sector_program`: the number that the drive puts together from its ports.
* `readBlocks_run`, `writeBlocks_run`: what the transfers do, for every address and count.
* `readBlocks_blocks`, `writeBlocks_blocks`: they are the block transfers of the driver.
-/

namespace OS2024
namespace Ata

open BlockStore Stdlib TracedState LittleEndian Splices

/-- The registers of the drive, and the transfer under way. -/
structure Device where
  status : UInt8
  sectorCount : UInt8
  lbaLow : UInt8
  lbaMid : UInt8
  lbaHigh : UInt8
  driveHead : UInt8
  command : UInt8
  /-- The byte of the image that is transferred next. -/
  next : Nat
  /-- The number of words still to be transferred. -/
  left : Nat

/-- The drive, its image, and the memory at and after the pointer of the transfer. -/
structure Machine where
  device : Device
  disk : Nat → UInt8
  memory : Memory

/-- What ends a transfer abnormally. -/
inductive AtaFault
  /-- A loop that waits for a drive which is never ready. -/
  | endlessLoop
  /-- An access to the data port that the drive does not expect. -/
  | noTransfer

abbrev AtaM := Traced AtaFault Machine Empty

/-- The byte of a word that comes first, and the one behind it. -/
def lowByte (w : UInt16) : UInt8 := byte16 w ⟨0, Nat.two_pos⟩

def highByte (w : UInt16) : UInt8 := byte16 w ⟨1, Nat.one_lt_two⟩

/-- The word in two bytes. -/
def wordOf (low high : UInt8) : UInt16 := word16 ![low, high]

@[simp] theorem lowByte_wordOf (low high : UInt8) : lowByte (wordOf low high) = low := by
  rw [lowByte, wordOf, byte16_word16]
  rfl

@[simp] theorem highByte_wordOf (low high : UInt8) : highByte (wordOf low high) = high := by
  rw [highByte, wordOf, byte16_word16]
  rfl

/-! ## The drive -/

/-- The number of the sector in the ports `0x1F3` to `0x1F6`. -/
def Device.sector (d : Device) : Nat :=
  (d.driveHead &&& 0x0F).toNat * 2 ^ 24 + d.lbaHigh.toNat * 2 ^ 16 + d.lbaMid.toNat * 2 ^ 8 +
    d.lbaLow.toNat

/-- The drive takes a command.  A count of zero stands for 256 sectors. -/
def Device.start (d : Device) (command : UInt8) : Device :=
  { d with
    command := command
    next := 512 * d.sector
    left := 256 * (if d.sectorCount = 0 then 256 else d.sectorCount.toNat) }

/-- The drive after a word was transferred. -/
def Device.step (d : Device) : Device := { d with next := d.next + 2, left := d.left - 1 }

/-- The drive after a byte went to one of its ports. -/
def Device.take (d : Device) (port : UInt16) (data : UInt8) : Device :=
  if port = 0x1F2 then { d with sectorCount := data }
  else if port = 0x1F3 then { d with lbaLow := data }
  else if port = 0x1F4 then { d with lbaMid := data }
  else if port = 0x1F5 then { d with lbaHigh := data }
  else if port = 0x1F6 then { d with driveHead := data }
  else if port = 0x1F7 then d.start data
  else d

def out (port : UInt16) (data : UInt8) : AtaM Unit :=
  modifyState fun s => { s with device := s.device.take port data }

/-- `in` at the port of the status. -/
def inStatus : AtaM UInt8 := do
  return (← getState).device.status

/-- `in16` at the data port. -/
def in16 : AtaM UInt16 := do
  let s ← getState
  if s.device.command = 0x20 ∧ 0 < s.device.left then
    modifyState fun s => { s with device := s.device.step }
    return wordOf (s.disk s.device.next) (s.disk (s.device.next + 1))
  else fault AtaFault.noTransfer

/-- `out16` at the data port. -/
def out16 (data : UInt16) : AtaM Unit := do
  let s ← getState
  if s.device.command = 0x30 ∧ 0 < s.device.left then
    modifyState fun s =>
      { s with
        device := s.device.step
        disk := Function.update (Function.update s.disk s.device.next (lowByte data))
          (s.device.next + 1) (highByte data) }
  else fault AtaFault.noTransfer

/-! ## `disk.c` -/

/-- `while (in(0x1F7) & ATA_STATUS_BSY);`, where the status does not change by itself. -/
def ataBusyWait : AtaM Unit := do
  if (← inStatus) &&& 0x80 ≠ 0 then fault AtaFault.endlessLoop else return ()

/-- `while (!(in(0x1F7) & ATA_STATUS_RDY));` -/
def ataDrqWait : AtaM Unit := do
  if (← inStatus) &&& 0x40 = 0 then fault AtaFault.endlessLoop else return ()

/-- The part that `read_blocks` and `write_blocks` share. -/
def program (lba : UInt32) (blockCount command : UInt8) : AtaM Unit := do
  ataBusyWait
  out 0x1F6 ((0xE0 : UInt32) ||| (lba >>> 24 &&& 0xF)).toUInt8
  out 0x1F2 blockCount
  out 0x1F3 lba.toUInt8
  out 0x1F4 (lba >>> 8).toUInt8
  out 0x1F5 (lba >>> 16).toUInt8
  out 0x1F7 command

/-- `((uint16_t*) ptr)[k] = data` -/
def setWord (k : Nat) (data : UInt16) : AtaM Unit :=
  modifyState fun s =>
    { s with
      memory := Function.update (Function.update s.memory (2 * k) (lowByte data)) (2 * k + 1)
        (highByte data) }

/-- `((uint16_t*) ptr)[k]` -/
def getWord (k : Nat) : AtaM UInt16 := do
  let s ← getState
  return wordOf (s.memory (2 * k)) (s.memory (2 * k + 1))

/-- The rounds of `read_blocks`; `target` points to this word of the memory. -/
def readRounds : Nat → Nat → AtaM Unit
  | 0, _ => pure ()
  | rounds + 1, target => do
      ataBusyWait
      ataDrqWait
      each (fun j => do setWord (target + j) (← in16)) (List.range 256)
      readRounds rounds (target + 256)

def readBlocks (lba : UInt32) (blockCount : UInt8) : AtaM Unit := do
  program lba blockCount 0x20
  readRounds blockCount.toNat 0

/-- A round of `write_blocks`. -/
def writeRound (i : Nat) : AtaM Unit := do
  ataBusyWait
  ataDrqWait
  each (fun j => do out16 (← getWord (256 * i + j))) (List.range 256)

def writeBlocks (lba : UInt32) (blockCount : UInt8) : AtaM Unit := do
  program lba blockCount 0x30
  each writeRound (List.range blockCount.toNat)

/-! ## Programming the drive -/

section Program

variable {s : Machine} {lba : UInt32} {blockCount command : UInt8}

/-- The drive is not busy, and ready for data. -/
structure Machine.Ready (s : Machine) : Prop where
  notBusy : s.device.status &&& 0x80 = 0
  ready : s.device.status &&& 0x40 ≠ 0

theorem busyWait_apply
    (h : s.Ready) :
    ataBusyWait s = ⟨.ok (), s, []⟩ := by
  simp [ataBusyWait, inStatus, bind_apply, h.notBusy, Outcome.prepend]

theorem drqWait_apply
    (h : s.Ready) :
    ataDrqWait s = ⟨.ok (), s, []⟩ := by
  simp [ataDrqWait, inStatus, bind_apply, h.ready, Outcome.prepend]

/-- The drive with all ports programmed, before the command. -/
def Device.programmed (d : Device) (lba : UInt32) (blockCount : UInt8) : Device :=
  { d with
    driveHead := ((0xE0 : UInt32) ||| (lba >>> 24 &&& 0xF)).toUInt8
    sectorCount := blockCount
    lbaLow := lba.toUInt8
    lbaMid := (lba >>> 8).toUInt8
    lbaHigh := (lba >>> 16).toUInt8 }

theorem program_apply
    (h : s.Ready) :
    program lba blockCount command s =
      ⟨.ok (),
        { s with device := (s.device.programmed lba blockCount).start command }, []⟩ := by
  simp only [program, bind_apply, busyWait_apply h, out, modifyState_apply, Outcome.prepend,
    List.append_nil]
  rfl

/-- The upper bits of the port `0x1F6` do not count. -/
theorem driveHead_low
    (lba : UInt32) :
    ((0xE0 : UInt32) ||| (lba >>> 24 &&& 0xF)).toUInt8 &&& (0x0F : UInt8) =
      (lba >>> 24 &&& 0xF).toUInt8 := by
  apply UInt8.toBitVec_inj.mp
  ext i hi
  simp
  interval_cases i <;> simp

/-- **The drive puts the low 28 bits of the address together again.** -/
theorem sector_program
    (d : Device) :
    (d.programmed lba blockCount).sector = sectorOf lba := by
  have hlba := lba.toNat_lt
  have hhead : (lba >>> 24 &&& 0xF).toUInt8.toNat = lba.toNat / 2 ^ 24 % 2 ^ 4 := by
    have hmask : ∀ n : Nat, n &&& 15 = n % 2 ^ 4 :=
      fun n => Nat.and_two_pow_sub_one_eq_mod n 4
    simp only [UInt32.toNat_toUInt8, UInt32.toNat_and, UInt32.toNat_shiftRight,
      UInt32.reduceToNat, Nat.reduceMod, hmask, Nat.shiftRight_eq_div_pow]
    omega
  have hhigh : (lba >>> 16).toUInt8.toNat = lba.toNat / 2 ^ 16 % 2 ^ 8 := by
    simp only [UInt32.toNat_toUInt8, UInt32.toNat_shiftRight, UInt32.reduceToNat, Nat.reduceMod,
      Nat.shiftRight_eq_div_pow]
  have hmid : (lba >>> 8).toUInt8.toNat = lba.toNat / 2 ^ 8 % 2 ^ 8 := by
    simp only [UInt32.toNat_toUInt8, UInt32.toNat_shiftRight, UInt32.reduceToNat, Nat.reduceMod,
      Nat.shiftRight_eq_div_pow]
  have hlow : lba.toUInt8.toNat = lba.toNat % 2 ^ 8 := UInt32.toNat_toUInt8 lba
  simp only [Device.sector, Device.programmed, driveHead_low, hhead, hhigh, hmid, hlow, sectorOf]
  omega

end Program

/-! ## The words -/

section Words

variable {s : Machine} {t n : Nat}

/-- The machine after the first `t` words were read. -/
def Machine.read (s : Machine) (t : Nat) : Machine where
  device := { s.device with next := s.device.next + 2 * t, left := s.device.left - t }
  disk := s.disk
  memory := splice s.memory 0 (2 * t) fun a => s.disk (s.device.next + a)

/-- The machine after the first `t` words were written. -/
def Machine.wrote (s : Machine) (t : Nat) : Machine where
  device := { s.device with next := s.device.next + 2 * t, left := s.device.left - t }
  disk := splice s.disk s.device.next (2 * t) s.memory
  memory := s.memory

theorem Machine.read_zero : s.read 0 = s := by
  simp only [Machine.read, Nat.mul_zero, splice_zero, Nat.add_zero, Nat.sub_zero]

theorem Machine.wrote_zero : s.wrote 0 = s := by
  simp only [Machine.wrote, Nat.mul_zero, splice_zero, Nat.add_zero, Nat.sub_zero]

theorem in16_apply
    (hcommand : s.device.command = 0x20)
    (hleft : 0 < s.device.left) :
    in16 s =
      ⟨.ok (wordOf (s.disk s.device.next) (s.disk (s.device.next + 1))),
        { s with device := s.device.step }, []⟩ := by
  simp only [in16, bind_apply, getState_apply, if_pos (And.intro hcommand hleft),
    modifyState_apply, pure_apply, Outcome.prepend, List.append_nil]

theorem out16_apply
    {data : UInt16}
    (hcommand : s.device.command = 0x30)
    (hleft : 0 < s.device.left) :
    out16 data s =
      ⟨.ok (),
        { s with
          device := s.device.step
          disk := Function.update (Function.update s.disk s.device.next (lowByte data))
            (s.device.next + 1) (highByte data) }, []⟩ := by
  simp only [out16, bind_apply, getState_apply, if_pos (And.intro hcommand hleft),
    modifyState_apply, Outcome.prepend, List.append_nil]

/-- A word that is read goes to the next two bytes of the memory. -/
theorem readWord_apply
    (hcommand : s.device.command = 0x20)
    (ht : t < s.device.left) :
    (do setWord t (← in16) : AtaM Unit) (s.read t) = ⟨.ok (), s.read (t + 1), []⟩ := by
  have hbytes := update_update_splice s.memory 0 (2 * t) fun a => s.disk (s.device.next + a)
  have hmemory : Function.update
      (Function.update (s.read t).memory (2 * t) (s.disk (s.device.next + 2 * t))) (2 * t + 1)
        (s.disk (s.device.next + 2 * t + 1)) = (s.read (t + 1)).memory := by
    rw [Nat.zero_add] at hbytes
    exact hbytes
  rw [bind_apply, in16_apply (s := s.read t) hcommand (Nat.sub_pos_of_lt ht)]
  simp only [setWord, modifyState_apply, lowByte_wordOf, highByte_wordOf, Outcome.prepend,
    List.append_nil]
  exact congrArg (fun memory => Outcome.mk (Except.ok ())
    { s.read (t + 1) with memory := memory } []) hmemory

/-- The next two bytes of the memory are written as a word. -/
theorem writeWord_apply
    (hcommand : s.device.command = 0x30)
    (ht : t < s.device.left) :
    (do out16 (← getWord t) : AtaM Unit) (s.wrote t) = ⟨.ok (), s.wrote (t + 1), []⟩ := by
  have hdisk : Function.update
      (Function.update (s.wrote t).disk (s.device.next + 2 * t) (s.memory (2 * t)))
        (s.device.next + 2 * t + 1) (s.memory (2 * t + 1)) = (s.wrote (t + 1)).disk :=
    update_update_splice s.disk s.device.next (2 * t) s.memory
  have hget : getWord t (s.wrote t) =
      ⟨.ok (wordOf (s.memory (2 * t)) (s.memory (2 * t + 1))), s.wrote t, []⟩ := rfl
  rw [bind_apply, hget]
  simp only [out16_apply (s := s.wrote t) hcommand (Nat.sub_pos_of_lt ht), lowByte_wordOf,
    highByte_wordOf, Outcome.prepend, List.append_nil]
  exact congrArg (fun disk => Outcome.mk (Except.ok ())
    { s.wrote (t + 1) with disk := disk } []) hdisk

end Words

/-! ## The sectors -/

section Sectors

variable {s : Machine} {lba : UInt32} {blockCount : UInt8} {rounds target i : Nat}

theorem Machine.Ready.read
    (h : s.Ready)
    (t : Nat) :
    (s.read t).Ready :=
  ⟨h.notBusy, h.ready⟩

theorem Machine.Ready.wrote
    (h : s.Ready)
    (t : Nat) :
    (s.wrote t).Ready :=
  ⟨h.notBusy, h.ready⟩

theorem readWords_apply
    {n : Nat}
    (hcommand : s.device.command = 0x20)
    (hleft : target + n ≤ s.device.left) :
    each (fun j => do setWord (target + j) (← in16)) (List.range n) (s.read target) =
      ⟨.ok (), s.read (target + n), []⟩ :=
  each_range_states (S := fun j => s.read (target + j)) fun j hj =>
    readWord_apply hcommand (by omega)

theorem writeWords_apply
    {n : Nat}
    (hcommand : s.device.command = 0x30)
    (hleft : target + n ≤ s.device.left) :
    each (fun j => do out16 (← getWord (target + j))) (List.range n) (s.wrote target) =
      ⟨.ok (), s.wrote (target + n), []⟩ :=
  each_range_states (S := fun j => s.wrote (target + j)) fun j hj =>
    writeWord_apply hcommand (by omega)

/-- **The moving pointer is always at the word that comes next.** -/
theorem readRounds_apply
    (hready : s.Ready)
    (hcommand : s.device.command = 0x20)
    (hleft : target + 256 * rounds ≤ s.device.left) :
    readRounds rounds target (s.read target) =
      ⟨.ok (), s.read (target + 256 * rounds), []⟩ := by
  induction rounds generalizing target with
  | zero => rfl
  | succ rounds ih =>
      have hwords : target + 256 + 256 * rounds = target + 256 * (rounds + 1) := by omega
      have hnext : target + 256 ≤ s.device.left :=
        le_trans (Nat.add_le_add_left (Nat.le_mul_of_pos_right 256 rounds.succ_pos) target) hleft
      have hsector : each (fun j => do setWord (target + j) (← in16)) (List.range 256)
          (s.read target) = ⟨.ok (), s.read (target + 256), []⟩ :=
        readWords_apply hcommand hnext
      have hrest : readRounds rounds (target + 256) (s.read (target + 256)) =
          ⟨.ok (), s.read (target + 256 + 256 * rounds), []⟩ :=
        ih (by omega)
      rw [hwords] at hrest
      simp only [readRounds, bind_apply, busyWait_apply (hready.read target),
        drqWait_apply (hready.read target), hsector, hrest, Outcome.prepend, List.append_nil]

theorem writeRound_apply
    (hready : s.Ready)
    (hcommand : s.device.command = 0x30)
    (hleft : 256 * i + 256 ≤ s.device.left) :
    writeRound i (s.wrote (256 * i)) = ⟨.ok (), s.wrote (256 * (i + 1)), []⟩ := by
  have hsector : each (fun j => do out16 (← getWord (256 * i + j))) (List.range 256)
      (s.wrote (256 * i)) = ⟨.ok (), s.wrote (256 * i + 256), []⟩ :=
    writeWords_apply hcommand hleft
  simp only [writeRound, bind_apply, busyWait_apply (hready.wrote (256 * i)),
    drqWait_apply (hready.wrote (256 * i)), hsector, Outcome.prepend, List.append_nil]
  rfl

/-- The drive expects at least the words that the loop transfers. -/
theorem left_start
    (d : Device)
    (command : UInt8) :
    256 * blockCount.toNat ≤ ((d.programmed lba blockCount).start command).left := by
  refine Nat.mul_le_mul_left 256 ?_
  split_ifs with hzero
  · exact Nat.le_of_lt blockCount.toNat_lt
  · exact le_rfl

/-- The drive is where the transfer begins. -/
theorem next_start
    (d : Device)
    (command : UInt8) :
    ((d.programmed lba blockCount).start command).next = 512 * sectorOf lba :=
  congrArg (512 * ·) (sector_program d)

/-- **`read_blocks` of `disk.c`:** the bytes of the sectors, from the one with the low 28 bits of
the address on. -/
theorem readBlocks_run
    (h : s.Ready)
    (lba : UInt32)
    (blockCount : UInt8) :
    ∃ s', readBlocks lba blockCount s = ⟨.ok (), s', []⟩ ∧ s'.Ready ∧ s'.disk = s.disk ∧
      s'.memory = splice s.memory 0 (512 * blockCount.toNat)
        fun a => s.disk (512 * sectorOf lba + a) := by
  let s₁ : Machine := { s with device := (s.device.programmed lba blockCount).start 0x20 }
  have hready : s₁.Ready := ⟨h.notBusy, h.ready⟩
  have hleft : 0 + 256 * blockCount.toNat ≤ s₁.device.left := by
    rw [Nat.zero_add]
    exact left_start s.device 0x20
  have hrounds := readRounds_apply hready rfl hleft
  rw [Machine.read_zero, Nat.zero_add] at hrounds
  refine ⟨s₁.read (256 * blockCount.toNat), ?_, hready.read _, rfl, ?_⟩
  · rw [readBlocks, bind_apply, program_apply h]
    exact congrArg (Outcome.prepend []) hrounds
  · have hbytes : 2 * (256 * blockCount.toNat) = 512 * blockCount.toNat := by omega
    rw [Machine.read, hbytes, next_start]

/-- **`write_blocks` of `disk.c`.** -/
theorem writeBlocks_run
    (h : s.Ready)
    (lba : UInt32)
    (blockCount : UInt8) :
    ∃ s', writeBlocks lba blockCount s = ⟨.ok (), s', []⟩ ∧ s'.Ready ∧ s'.memory = s.memory ∧
      s'.disk = splice s.disk (512 * sectorOf lba) (512 * blockCount.toNat) s.memory := by
  let s₁ : Machine := { s with device := (s.device.programmed lba blockCount).start 0x30 }
  have hready : s₁.Ready := ⟨h.notBusy, h.ready⟩
  have hleft : 256 * blockCount.toNat ≤ s₁.device.left := left_start s.device 0x30
  have hrounds := each_range_states (S := fun i => s₁.wrote (256 * i)) (n := blockCount.toNat)
    fun i hi => writeRound_apply hready rfl (by omega)
  rw [Nat.mul_zero, Machine.wrote_zero] at hrounds
  refine ⟨s₁.wrote (256 * blockCount.toNat), ?_, hready.wrote _, rfl, ?_⟩
  · rw [writeBlocks, bind_apply, program_apply h]
    exact congrArg (Outcome.prepend []) hrounds
  · have hbytes : 2 * (256 * blockCount.toNat) = 512 * blockCount.toNat := by omega
    rw [Machine.wrote, hbytes, next_start]

end Sectors

/-! ## Blocks -/

section Blocks

/-- The blocks of an image. -/
def imageBlocks (disk : Nat → UInt8) : Disk := fun k j => disk (512 * k + j)

/-- Replaced bytes, block by block. -/
theorem imageBlocks_splice
    (disk f : Nat → UInt8)
    (k n : Nat) :
    imageBlocks (splice disk (512 * k) (512 * n) f) =
      applyWrites (imageBlocks disk)
        ((List.range n).map fun i => (k + i, fun j : Fin 512 => f (512 * i + j))) := by
  induction n with
  | zero => rw [Nat.mul_zero, splice_zero, List.range_zero, List.map_nil, applyWrites_nil]
  | succ n ih =>
      rw [List.range_succ, List.map_append, applyWrites_append, ← ih]
      funext b j
      have hj := j.isLt
      show splice disk (512 * k) (512 * (n + 1)) f (512 * b + j) =
        applyWrite (imageBlocks (splice disk (512 * k) (512 * n) f))
          (k + n, fun j : Fin 512 => f (512 * n + j)) b j
      by_cases hb : b = k + n
      · have haddr : 512 * b + (j : Nat) = 512 * k + (512 * n + j) := by omega
        rw [applyWrite, if_pos hb, haddr, splice_inside (by omega)]
      · rw [applyWrite, if_neg hb, imageBlocks, splice, splice]
        exact if_congr (by omega) rfl rfl

variable {s s' : Machine} {lba : UInt32} {blockCount : UInt8}

/-- What is read at the ports is what the driver's `read_blocks` reads. -/
theorem readBlocks_blocks
    (hmemory : s'.memory = splice s.memory 0 (512 * blockCount.toNat)
      fun a => s.disk (512 * sectorOf lba + a)) :
    s'.memory = blocksRead (imageBlocks s.disk) s.memory lba blockCount := by
  rw [hmemory, splice_from_zero]
  funext a
  have haddr : 512 * (sectorOf lba + a / 512) + a % 512 = 512 * sectorOf lba + a := by omega
  rw [blocksRead, imageBlocks, haddr]

/-- What is written at the ports is what the driver's `write_blocks` writes. -/
theorem writeBlocks_blocks
    (hdisk : s'.disk = splice s.disk (512 * sectorOf lba) (512 * blockCount.toNat) s.memory) :
    imageBlocks s'.disk =
      applyWrites (imageBlocks s.disk) (blocksWritten s.memory lba blockCount) := by
  rw [hdisk]
  exact imageBlocks_splice s.disk s.memory (sectorOf lba) blockCount.toNat

end Blocks

end Ata
end OS2024
