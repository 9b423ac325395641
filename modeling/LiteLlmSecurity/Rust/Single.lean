import LiteLlmSecurity.Number.Nearest

/-!
# Single precision floats

The modelled code computes with floats that are zero or positive and normal, and a
finite float is known by its value. Its operations round the exact result to the
nearest number of 24 significant bits. That the exponents stay in range is shown
where the operations are used.
-/

namespace Rust

open Nearest

/-- `n as f32`, of a count. -/
def asF32 (n : ℕ) : ℚ := roundTo 24 n

def mulF32 (a b : ℚ) : ℚ := roundTo 24 (a * b)

def divF32 (a b : ℚ) : ℚ := roundTo 24 (a / b)

/-- The values of positive normal floats, before the bits are counted. -/
def InF32Range (x : ℚ) : Prop := 2 ^ (-126 : ℤ) ≤ x ∧ x < 2 ^ (128 : ℤ)

theorem asF32_mono : Monotone asF32 := by
  intro m n hmn
  exact roundTo_mono (Nat.cast_nonneg m) (Nat.cast_le.mpr hmn)

theorem asF32_nonneg (n : ℕ) : 0 ≤ asF32 n := roundTo_nonneg (Nat.cast_nonneg n)

/-- Counts of 24 bits are exact. -/
theorem asF32_eq {n : ℕ} (h : n < 2 ^ 24) : asF32 n = n := roundTo_of_hasBits (.natCast h)

theorem one_le_asF32 {n : ℕ} (h : n ≠ 0) : 1 ≤ asF32 n :=
  le_roundTo zero_le_one ⟨1, 0, by decide, by simp⟩
    (Nat.one_le_cast.mpr (Nat.one_le_iff_ne_zero.mpr h))

theorem asF32_le_two_pow {n k : ℕ} (h : n ≤ 2 ^ k) : asF32 n ≤ 2 ^ k :=
  roundTo_le (Nat.cast_nonneg n) ⟨1, k, by decide, by simp⟩ (by exact_mod_cast h)

end Rust
