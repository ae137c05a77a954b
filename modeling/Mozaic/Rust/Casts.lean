import Mathlib

/-! Casts to floating point numbers. A whole number becomes a whole number again, so the value
of a cast is one. -/
namespace Mozaic.Rust

/-- The nearest number with at most `bits` significant bits, of two the even one. -/
def roundToBits (bits n : Nat) : Nat :=
  let ulp := 2 ^ (n.log2 + 1 - bits)
  let q := n / ulp
  let r := n % ulp
  if ulp < 2 * r ∨ 2 * r = ulp ∧ q % 2 = 1 then (q + 1) * ulp else q * ulp

/-- The value of `n as f32`. -/
def asF32 (n : Int) : Int := n.sign * roundToBits 24 n.natAbs

theorem roundToBits_of_lt {bits n : Nat} (h : n < 2 ^ bits) : roundToBits bits n = n := by
  rcases Nat.eq_zero_or_pos n with rfl | hn
  · simp [roundToBits]
  · have hlog : n.log2 < bits := (Nat.log2_lt (Nat.ne_of_gt hn)).mpr h
    have hulp : n.log2 + 1 - bits = 0 := by omega
    rw [roundToBits, hulp]
    simp [Nat.mod_one]

/-- Small numbers stay what they are. -/
theorem asF32_of_small {n : Int} (h : n.natAbs < 2 ^ 24) : asF32 n = n := by
  rw [asF32, roundToBits_of_lt h]
  exact Int.sign_mul_natAbs n

/-- The first two numbers that come together. -/
example : asF32 16777216 = asF32 16777217 := by decide

end Mozaic.Rust
