import Mathlib.Tactic

/-!
# Little-endian words in byte memory

Sixteen- and thirty-two-bit words are stored least significant byte first.
`byte16 w i` and `byte32 w i` are the stored bytes, `word16` and `word32` read them
back.  Both directions are identities, so a record laid out in such words is
determined by its bytes and conversely.
-/

namespace OS2024
namespace LittleEndian

/-- Byte `i` of a stored sixteen-bit word. -/
def byte16 (w : UInt16) (i : Fin 2) : UInt8 :=
  UInt8.ofNat (w.toNat / 256 ^ (i : Nat))

/-- The sixteen-bit word stored in two bytes. -/
def word16 (b : Fin 2 → UInt8) : UInt16 :=
  UInt16.ofNat ((b 0).toNat + 256 * (b 1).toNat)

/-- Byte `i` of a stored thirty-two-bit word. -/
def byte32 (w : UInt32) (i : Fin 4) : UInt8 :=
  UInt8.ofNat (w.toNat / 256 ^ (i : Nat))

/-- The thirty-two-bit word stored in four bytes. -/
def word32 (b : Fin 4 → UInt8) : UInt32 :=
  UInt32.ofNat ((b 0).toNat + 256 * (b 1).toNat + 65536 * (b 2).toNat + 16777216 * (b 3).toNat)

@[simp] theorem word16_byte16 (w : UInt16) : word16 (byte16 w) = w := by
  have hw := w.toNat_lt
  apply UInt16.toNat_inj.mp
  simp [word16, byte16]
  omega

@[simp] theorem byte16_word16 (b : Fin 2 → UInt8) : byte16 (word16 b) = b := by
  have h0 := (b 0).toNat_lt
  have h1 := (b 1).toNat_lt
  funext i
  apply UInt8.toNat_inj.mp
  fin_cases i <;> simp [word16, byte16]
  omega

@[simp] theorem word32_byte32 (w : UInt32) : word32 (byte32 w) = w := by
  have hw := w.toNat_lt
  apply UInt32.toNat_inj.mp
  simp [word32, byte32]
  omega

@[simp] theorem byte32_word32 (b : Fin 4 → UInt8) : byte32 (word32 b) = b := by
  have h0 := (b 0).toNat_lt
  have h1 := (b 1).toNat_lt
  have h2 := (b 2).toNat_lt
  have h3 := (b 3).toNat_lt
  funext i
  apply UInt8.toNat_inj.mp
  fin_cases i <;> simp [word32, byte32] <;> omega

/-- Splitting a word into sixteen-bit halves and joining them again. -/
theorem join_halves (w : UInt32) :
    ((w >>> 16 &&& 0xFFFF).toUInt16.toUInt32 <<< 16) |||
      (w &&& 0xFFFF).toUInt16.toUInt32 = w := by
  apply UInt32.toNat_inj.mp
  have hw := w.toNat_lt
  have hmask : ∀ n : Nat, n &&& 65535 = n % 2 ^ 16 :=
    fun n => Nat.and_two_pow_sub_one_eq_mod n 16
  have hor := Nat.shiftLeft_add_eq_or_of_lt
    (Nat.mod_lt w.toNat (by decide : 0 < 2 ^ 16)) (w.toNat / 65536)
  have hshift : w.toNat >>> 16 = w.toNat / 65536 := Nat.shiftRight_eq_div_pow _ 16
  have hhigh : w.toNat / 65536 % 65536 = w.toNat / 65536 := by omega
  have hfit : (w.toNat / 65536) <<< 16 % 4294967296 = (w.toNat / 65536) <<< 16 := by
    rw [Nat.shiftLeft_eq]
    omega
  simp only [UInt32.toNat_or, UInt32.toNat_shiftLeft, UInt16.toNat_toUInt32,
    UInt32.toNat_toUInt16, UInt32.toNat_and, UInt32.toNat_shiftRight,
    UInt32.reduceToNat, hmask, Nat.reduceMod, Nat.reducePow, Nat.mod_mod,
    hshift, hhigh, hfit]
  rw [← hor, Nat.shiftLeft_eq]
  omega

end LittleEndian
end OS2024
