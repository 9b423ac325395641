import Mathlib.Algebra.Order.Field.Power
import Mathlib.Data.Int.ConditionallyCompleteOrder
import Mathlib.Data.Int.Log
import Mathlib.Data.Rat.Floor
import Mathlib.Tactic.FieldSimp
import Mathlib.Tactic.Linarith
import Mathlib.Tactic.NormNum
import Mathlib.Tactic.Positivity

/-!
# Rounding to a number of significant bits

A positive number is rounded to `p` significant bits by dividing it by the weight
of its last bit, taking the nearest integer, and multiplying again. The exponent is
not bounded, so this is binary floating point wherever nothing overflows and
nothing is subnormal.

Rounding keeps the order, leaves numbers of `p` bits alone, and raises no number by
more than half the weight of its last bit.
-/

namespace Nearest

/-! ## To an integer -/

/-- Halves go to the even neighbour. -/
def nearestInt (x : ℚ) : ℤ :=
  if Int.fract x < 1 / 2 ∨ Int.fract x = 1 / 2 ∧ Even ⌊x⌋ then ⌊x⌋ else ⌊x⌋ + 1

theorem floor_le_nearestInt (x : ℚ) : ⌊x⌋ ≤ nearestInt x := by
  unfold nearestInt
  split <;> omega

theorem nearestInt_le_floor_add_one (x : ℚ) : nearestInt x ≤ ⌊x⌋ + 1 := by
  unfold nearestInt
  split <;> omega

@[simp] theorem nearestInt_intCast (k : ℤ) : nearestInt k = k := by
  simp [nearestInt]

theorem nearestInt_mono : Monotone nearestInt := by
  intro x y hxy
  rcases (Int.floor_mono hxy).eq_or_lt with sameFloor | belowFloor
  · have hfract : Int.fract x ≤ Int.fract y := by
      rw [Int.fract, Int.fract, sameFloor]
      exact sub_le_sub_right hxy _
    unfold nearestInt
    rw [← sameFloor]
    split_ifs with hx hy
    · exact le_rfl
    · omega
    · -- Then the smaller of the two fractions would be the one past the half.
      exfalso
      rcases ‹Int.fract y < 1 / 2 ∨ _› with hlt | ⟨heq, heven⟩
      · exact hx (.inl (hfract.trans_lt hlt))
      · exact hx ((hfract.trans heq.le).lt_or_eq.imp_right fun h => ⟨h, heven⟩)
    · exact le_rfl
  · calc nearestInt x ≤ ⌊x⌋ + 1 := nearestInt_le_floor_add_one x
      _ ≤ ⌊y⌋ := belowFloor
      _ ≤ nearestInt y := floor_le_nearestInt y

theorem nearestInt_le_add_half (x : ℚ) : (nearestInt x : ℚ) ≤ x + 1 / 2 := by
  have hsplit := Int.floor_add_fract x
  unfold nearestInt
  split
  · have := Int.fract_nonneg x
    linarith
  · next hover =>
      have : 1 / 2 ≤ Int.fract x := not_lt.mp fun h => hover (.inl h)
      push_cast
      linarith

/-! ## To significant bits -/

/-- The weight of the last of `p` significant bits. -/
def lastBit (p : ℕ) (x : ℚ) : ℚ := 2 ^ (Int.log 2 x + 1 - p)

theorem lastBit_pos (p : ℕ) (x : ℚ) : 0 < lastBit p x := zpow_pos two_pos _

/-- The number of `p` significant bits nearest to a number. -/
def roundTo (p : ℕ) (x : ℚ) : ℚ := nearestInt (x / lastBit p x) * lastBit p x

@[simp] theorem roundTo_zero (p : ℕ) : roundTo p 0 = 0 := by
  simp [roundTo, nearestInt]

/-- The numbers of at most `p` significant bits. -/
def HasBits (p : ℕ) (x : ℚ) : Prop := ∃ (m : ℕ) (e : ℤ), m < 2 ^ p ∧ x = m * 2 ^ e

theorem HasBits.natCast {p n : ℕ} (h : n < 2 ^ p) : HasBits p n := ⟨n, 0, h, by simp⟩

theorem roundTo_of_hasBits {p : ℕ} {x : ℚ} (h : HasBits p x) : roundTo p x = x := by
  obtain ⟨m, e, hm, rfl⟩ := h
  rcases m.eq_zero_or_pos with rfl | hpos
  · simp
  have hx : (0 : ℚ) < m * 2 ^ e := by positivity
  have hlog : Int.log 2 ((m : ℚ) * 2 ^ e) < p + e := by
    have hupper : (m : ℚ) * 2 ^ e < 2 ^ ((p : ℤ) + e) := by
      rw [zpow_add₀ two_ne_zero, zpow_natCast]
      have : (m : ℚ) < 2 ^ p := by exact_mod_cast hm
      gcongr
    have hlower := Int.zpow_log_le_self (b := 2) one_lt_two hx
    exact (zpow_lt_zpow_iff_right₀ (one_lt_two (α := ℚ))).mp (hlower.trans_lt hupper)
  -- The last of the bits weighs no more than the last bit of the number itself.
  obtain ⟨d, hd⟩ : ∃ d : ℕ, e = Int.log 2 ((m : ℚ) * 2 ^ e) + 1 - p + d :=
    ⟨(p + e - (Int.log 2 ((m : ℚ) * 2 ^ e) + 1)).toNat, by omega⟩
  have hquot : (m : ℚ) * 2 ^ e / lastBit p (m * 2 ^ e) = ((m * 2 ^ d : ℕ) : ℤ) := by
    rw [div_eq_iff (lastBit_pos _ _).ne', lastBit]
    generalize Int.log 2 ((m : ℚ) * 2 ^ e) = log at hd
    rw [hd, zpow_add₀ two_ne_zero, zpow_natCast]
    push_cast
    ring
  rw [roundTo, hquot, nearestInt_intCast, ← hquot, div_mul_cancel₀ _ (lastBit_pos _ _).ne']

/-- A positive number is rounded within the powers of two around it. -/
theorem two_zpow_log_le_roundTo (p : ℕ) [NeZero p] {x : ℚ} (hx : 0 < x) :
    2 ^ Int.log 2 x ≤ roundTo p x := by
  have hp := NeZero.ne p
  have hlast := lastBit_pos p x
  have hscale : (2 : ℚ) ^ Int.log 2 x = ((2 ^ (p - 1) : ℕ) : ℤ) * lastBit p x := by
    rw [lastBit, Int.cast_natCast, Nat.cast_pow, Nat.cast_ofNat, ← zpow_natCast,
      ← zpow_add₀ two_ne_zero]
    congr 1
    omega
  have hquot : (((2 ^ (p - 1) : ℕ) : ℤ) : ℚ) ≤ x / lastBit p x := by
    rw [le_div_iff₀ hlast, ← hscale]
    exact Int.zpow_log_le_self one_lt_two hx
  have hround := nearestInt_mono hquot
  rw [nearestInt_intCast] at hround
  rw [hscale, roundTo]
  gcongr

theorem roundTo_le_two_zpow_log (p : ℕ) {x : ℚ} : roundTo p x ≤ 2 ^ (Int.log 2 x + 1) := by
  have hlast := lastBit_pos p x
  have hscale : (2 : ℚ) ^ (Int.log 2 x + 1) = ((2 ^ p : ℕ) : ℤ) * lastBit p x := by
    rw [lastBit, Int.cast_natCast, Nat.cast_pow, Nat.cast_ofNat, ← zpow_natCast,
      ← zpow_add₀ two_ne_zero]
    congr 1
    omega
  have hquot : x / lastBit p x ≤ (((2 ^ p : ℕ) : ℤ) : ℚ) := by
    rw [div_le_iff₀ hlast, ← hscale]
    exact (Int.lt_zpow_succ_log_self one_lt_two x).le
  have hround := nearestInt_mono hquot
  rw [nearestInt_intCast] at hround
  rw [hscale, roundTo]
  gcongr

variable {p : ℕ} [NeZero p]

theorem roundTo_nonneg {x : ℚ} (hx : 0 ≤ x) : 0 ≤ roundTo p x := by
  rcases hx.eq_or_lt with rfl | hpos
  · rw [roundTo_zero]
  · exact (zpow_pos two_pos _).le.trans (two_zpow_log_le_roundTo p hpos)

/-- Rounding keeps the order, across powers of two as well. -/
theorem roundTo_mono {x y : ℚ} (hx : 0 ≤ x) (hxy : x ≤ y) :
    roundTo p x ≤ roundTo p y := by
  rcases hx.eq_or_lt with rfl | hpos
  · rw [roundTo_zero]
    exact roundTo_nonneg hxy
  · rcases (Int.log_mono_right hpos hxy).eq_or_lt with sameLog | belowLog
    · have hlast := lastBit_pos p y
      rw [roundTo, roundTo, lastBit, sameLog, ← lastBit]
      have hround : nearestInt (x / lastBit p y) ≤ nearestInt (y / lastBit p y) :=
        nearestInt_mono (by gcongr)
      gcongr
    · calc roundTo p x ≤ 2 ^ (Int.log 2 x + 1) := roundTo_le_two_zpow_log p
        _ ≤ 2 ^ Int.log 2 y := zpow_le_zpow_right₀ one_le_two belowLog
        _ ≤ roundTo p y := two_zpow_log_le_roundTo p (hpos.trans_le hxy)

/-- A bound of `p` bits holds after rounding as well. -/
theorem roundTo_le {x bound : ℚ} (hx : 0 ≤ x) (hbits : HasBits p bound) (hle : x ≤ bound) :
    roundTo p x ≤ bound :=
  (roundTo_mono hx hle).trans_eq (roundTo_of_hasBits hbits)

theorem le_roundTo {x bound : ℚ} (hbound : 0 ≤ bound) (hbits : HasBits p bound)
    (hle : bound ≤ x) : bound ≤ roundTo p x :=
  (roundTo_of_hasBits hbits).symm.trans_le (roundTo_mono hbound hle)

/-- Rounding raises a number by at most one part in `2 ^ p`. -/
theorem roundTo_le_mul (p : ℕ) {x : ℚ} (hx : 0 < x) : roundTo p x ≤ x * (1 + 1 / 2 ^ p) := by
  have hlast := lastBit_pos p x
  have hweight : lastBit p x ≤ 2 * x / 2 ^ p := by
    have hlog : (2 : ℚ) ^ Int.log 2 x ≤ x := Int.zpow_log_le_self one_lt_two hx
    rw [lastBit, zpow_sub₀ two_ne_zero, zpow_add_one₀ two_ne_zero, zpow_natCast, mul_comm]
    gcongr
  calc roundTo p x ≤ (x / lastBit p x + 1 / 2) * lastBit p x := by
        rw [roundTo]
        gcongr
        exact nearestInt_le_add_half _
    _ = x + lastBit p x / 2 := by field_simp
    _ ≤ x + 2 * x / 2 ^ p / 2 := by gcongr
    _ = x * (1 + 1 / 2 ^ p) := by ring

end Nearest
