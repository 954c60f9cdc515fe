import OS2024.Stdlib.Copying

/-!
# `external-inserter.c`: block transfers in memory

The inserter keeps the image in memory.  Its `read_blocks` and `write_blocks` copy between the
image and the buffer, block by block.  The place of a block in the image is computed in 32 bits, so
that addresses from 4 GiB on wrap; the image of the inserter has 4 MiB.

**Results.**
* `copyBlocks_apply`: blocks next to each other are copied as a whole.
* `readBlocks_run`, `writeBlocks_run`: the transfers, for blocks below 4 GiB.
-/

namespace OS2024
namespace Inserter

open Stdlib TracedState Splices

/-- What the copies work on: `image_storage`, and the buffer of the caller. -/
inductive Object
  | imageStorage
  | buffer
deriving DecidableEq

/-- `BLOCK_SIZE*(logical_block_address+i)` -/
def imageOffset (lba : UInt32) (i : Nat) : Nat := (512 * (lba + UInt32.ofNat i)).toNat

section Copies

variable (size : Object → Nat)

/-- `memcpy(dest, src, BLOCK_SIZE)` -/
def copyBlock (dest src : Pointer Object) : MemoryM Object Unit := do
  let _ ← memcpy size dest src 512

def readBlocks (lba : UInt32) (blockCount : UInt8) : MemoryM Object Unit :=
  each
    (fun i => copyBlock size ⟨Object.buffer, 512 * i⟩ ⟨Object.imageStorage, imageOffset lba i⟩)
    (List.range blockCount.toNat)

def writeBlocks (lba : UInt32) (blockCount : UInt8) : MemoryM Object Unit :=
  each
    (fun i => copyBlock size ⟨Object.imageStorage, imageOffset lba i⟩ ⟨Object.buffer, 512 * i⟩)
    (List.range blockCount.toNat)

end Copies

/-! ## The copies -/

section Blocks

variable {size : Object → Nat} {m : Objects Object} {lba : UInt32} {blockCount : UInt8}

/-- The blocks are in the image, and there is room for them in the buffer. -/
structure Fits (size : Object → Nat) (lba : UInt32) (blockCount : UInt8) : Prop where
  image : 512 * (lba.toNat + blockCount.toNat) ≤ size Object.imageStorage
  buffer : 512 * blockCount.toNat ≤ size Object.buffer

/-- Below 4 GiB the place of a block does not wrap. -/
theorem imageOffset_eq
    {i : Nat}
    (h : lba.toNat + i < 2 ^ 23) :
    imageOffset lba i = 512 * lba.toNat + 512 * i := by
  have h512 : (512 : UInt32).toNat = 512 := rfl
  rw [imageOffset, UInt32.toNat_mul, UInt32.toNat_add, UInt32.toNat_ofNat', h512]
  omega

/-- Blocks that are next to each other, on both sides, are copied as a whole. -/
theorem copyBlocks_apply
    {dst src : Nat → Pointer Object}
    {d s : Pointer Object}
    {n : Nat}
    (ho : s.object ≠ d.object)
    (hdst : ∀ i, i < n → dst i = d.plus (512 * i))
    (hsrc : ∀ i, i < n → src i = s.plus (512 * i))
    (hd : Holds size d (512 * n))
    (hs : Holds size s (512 * n)) :
    each (fun i => copyBlock size (dst i) (src i)) (List.range n) m =
      ⟨.ok (), moved m d s (512 * n), []⟩ := by
  have hround : ∀ i, i < n →
      copyBlock size (dst i) (src i) (moved m d s (512 * i)) =
        ⟨.ok (), moved m d s (512 * (i + 1)), []⟩ := by
    intro i hi
    have hend : 512 * i + 512 ≤ 512 * n := Nat.mul_le_mul_left 512 hi
    have hd' : Holds size (d.plus (512 * i)) 512 := by
      rw [Holds, Pointer.plus, Nat.add_assoc]
      exact le_trans (Nat.add_le_add_left hend d.offset) hd
    have hs' : Holds size (s.plus (512 * i)) 512 := by
      rw [Holds, Pointer.plus, Nat.add_assoc]
      exact le_trans (Nat.add_le_add_left hend s.offset) hs
    have hcopy := memcpy_apply (m := moved m d s (512 * i)) hd' hs' fun h => absurd h.symm ho
    rw [moved_moved ho] at hcopy
    rw [hdst i hi, hsrc i hi, copyBlock, bind_apply, hcopy]
    rfl
  have hrounds := each_range_states (S := fun i => moved m d s (512 * i)) hround
  rwa [Nat.mul_zero, moved_zero] at hrounds

/-- The pointer to the first block in the image. -/
def imagePointer (lba : UInt32) : Pointer Object := ⟨Object.imageStorage, 512 * lba.toNat⟩

/-- The pointer of the caller. -/
def bufferPointer : Pointer Object := ⟨Object.buffer, 0⟩

theorem imagePointer_plus
    (h : lba.toNat + blockCount.toNat ≤ 2 ^ 23) :
    ∀ i, i < blockCount.toNat →
      (⟨Object.imageStorage, imageOffset lba i⟩ : Pointer Object) =
        (imagePointer lba).plus (512 * i) := by
  intro i hi
  rw [imageOffset_eq (lt_of_lt_of_le (Nat.add_lt_add_left hi _) h)]
  rfl

theorem bufferPointer_plus
    (i : Nat) :
    (⟨Object.buffer, 512 * i⟩ : Pointer Object) = bufferPointer.plus (512 * i) := by
  rw [bufferPointer, Pointer.plus, Nat.zero_add]

theorem Fits.image_holds
    (h : Fits size lba blockCount) :
    Holds size (imagePointer lba) (512 * blockCount.toNat) := by
  rw [Holds, imagePointer, ← Nat.mul_add]
  exact h.image

theorem Fits.buffer_holds
    (h : Fits size lba blockCount) :
    Holds size bufferPointer (512 * blockCount.toNat) := by
  rw [Holds, bufferPointer, Nat.zero_add]
  exact h.buffer

/-- **`read_blocks` of the inserter.** -/
theorem readBlocks_run
    (m : Objects Object)
    (h : lba.toNat + blockCount.toNat ≤ 2 ^ 23)
    (hfits : Fits size lba blockCount) :
    ∃ m', readBlocks size lba blockCount m = ⟨.ok (), m', []⟩ ∧
      m' Object.imageStorage = m Object.imageStorage ∧
      m' Object.buffer = splice (m Object.buffer) 0 (512 * blockCount.toNat)
        fun a => m Object.imageStorage (512 * lba.toNat + a) :=
  ⟨moved m bufferPointer (imagePointer lba) (512 * blockCount.toNat),
    copyBlocks_apply Object.noConfusion (fun i _ => bufferPointer_plus i) (imagePointer_plus h)
      hfits.buffer_holds hfits.image_holds,
    Function.update_of_ne Object.noConfusion _ _, Function.update_self _ _ _⟩

/-- **`write_blocks` of the inserter.** -/
theorem writeBlocks_run
    (m : Objects Object)
    (h : lba.toNat + blockCount.toNat ≤ 2 ^ 23)
    (hfits : Fits size lba blockCount) :
    ∃ m', writeBlocks size lba blockCount m = ⟨.ok (), m', []⟩ ∧
      m' Object.buffer = m Object.buffer ∧
      m' Object.imageStorage = splice (m Object.imageStorage) (512 * lba.toNat)
        (512 * blockCount.toNat) (m Object.buffer) := by
  refine ⟨moved m (imagePointer lba) bufferPointer (512 * blockCount.toNat),
    copyBlocks_apply Object.noConfusion (imagePointer_plus h) (fun i _ => bufferPointer_plus i)
      hfits.image_holds hfits.buffer_holds,
    Function.update_of_ne Object.noConfusion _ _, ?_⟩
  have hsource : (fun i => m Object.buffer (0 + i)) = m Object.buffer :=
    funext fun i => congrArg (m Object.buffer) (Nat.zero_add i)
  exact (Function.update_self _ _ _).trans (congrArg (splice _ _ _) hsource)

end Blocks

end Inserter
end OS2024
