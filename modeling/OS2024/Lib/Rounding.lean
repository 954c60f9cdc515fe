import Mathlib.Tactic

/-!
# Rounding naturals to a fixed number of significant bits

Converting an unsigned integer to a binary floating-point format keeps its leading
`p` bits and rounds to nearest, ties to even.  The rounded value is again a natural
number, so no real arithmetic is needed.
-/

namespace OS2024
namespace Rounding

/-- `n` rounded to a significand of `p` bits, to nearest with ties to even. -/
def roundToEven (p n : Nat) : Nat :=
  let unit := 2 ^ (n.log2 + 1 - p)
  let q := n / unit
  let r := n % unit
  if unit < 2 * r ∨ (2 * r = unit ∧ q % 2 = 1) then (q + 1) * unit else q * unit

/-- Numbers of at most `p` bits are represented exactly. -/
theorem roundToEven_of_lt {p n : Nat} (h : n < 2 ^ p) : roundToEven p n = n := by
  rcases Nat.eq_zero_or_pos n with rfl | hn
  · simp [roundToEven]
  · have hlog := (Nat.log2_lt (by omega)).mpr h
    have hbits : n.log2 + 1 - p = 0 := by omega
    simp [roundToEven, hbits, Nat.mod_one]

end Rounding
end OS2024
