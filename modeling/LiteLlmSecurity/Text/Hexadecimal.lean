import Mathlib.Data.Nat.Digits.Defs
import Mathlib.Logic.Function.Basic

/-!
# Hexadecimal texts of a fixed width

A number below a power of 16, written in hexadecimal and padded with zeros, is
the list of its lowest digits. The text determines the number, and its length is
the width.
-/

namespace Hexadecimal

/-! ## The sixteen digits -/

/-- The codes of the lowercase digits. -/
theorem toNat_digitChar {n : Nat} (h : n < 16) :
    (Nat.digitChar n).toNat = if n < 10 then 48 + n else 87 + n := by
  have table : ∀ n : Fin 16,
      (Nat.digitChar n).toNat = if n.val < 10 then 48 + n.val else 87 + n.val := by decide
  exact table ⟨n, h⟩

theorem digitChar_inj {m n : Nat} (hm : m < 16) (hn : n < 16) :
    Nat.digitChar m = Nat.digitChar n ↔ m = n := by
  constructor
  · intro h
    have hcodes := congrArg Char.toNat h
    rw [toNat_digitChar hm, toNat_digitChar hn] at hcodes
    split at hcodes <;> split at hcodes <;> omega
  · exact fun h => congrArg Nat.digitChar h

/-! ## Texts of a fixed width -/

/-- The lowest digits of a number, most significant first. -/
def digits : Nat → Nat → List Char
  | 0, _ => []
  | width + 1, n => digits width (n / 16) ++ [Nat.digitChar (n % 16)]

@[simp] theorem length_digits (width n : Nat) : (digits width n).length = width := by
  induction width generalizing n with
  | zero => rfl
  | succ width ih => simp [digits, ih]

@[simp] theorem digits_zero (width : Nat) : digits width 0 = List.replicate width '0' := by
  induction width with
  | zero => rfl
  | succ width ih =>
      rw [List.replicate_succ', ← ih]
      rfl

theorem exists_of_mem_digits {width n : Nat} {c : Char} (h : c ∈ digits width n) :
    ∃ digit < 16, c = Nat.digitChar digit := by
  induction width generalizing n with
  | zero => simp [digits] at h
  | succ width ih =>
      rw [digits, List.mem_append, List.mem_singleton] at h
      rcases h with hfront | hlast
      · exact ih hfront
      · exact ⟨n % 16, Nat.mod_lt _ (by decide), hlast⟩

/-- Equal digits determine the number, cut to its lowest digits. -/
theorem mod_eq_of_digits_eq {width m n : Nat} (h : digits width m = digits width n) :
    m % 16 ^ width = n % 16 ^ width := by
  induction width generalizing m n with
  | zero => simp [Nat.mod_one]
  | succ width ih =>
      have hpow : 16 ^ (width + 1) = 16 * 16 ^ width := Nat.pow_succ'
      obtain ⟨hhigh, hlow⟩ := List.append_inj' h rfl
      have hdigit : m % 16 = n % 16 := by
        have hm : m % 16 < 16 := Nat.mod_lt _ (by decide)
        have hn : n % 16 < 16 := Nat.mod_lt _ (by decide)
        exact (digitChar_inj hm hn).mp (List.singleton_inj.mp hlow)
      rw [hpow, Nat.mod_mul, Nat.mod_mul, hdigit, ih hhigh]

/-- Padding the hexadecimal text of a small number gives its lowest digits. -/
theorem leftpad_toDigits {width n : Nat} (hn : n < 16 ^ (width + 1)) :
    (Nat.toDigits 16 n).leftpad (width + 1) '0' = digits (width + 1) n := by
  induction width generalizing n with
  | zero =>
      rw [Nat.toDigits_of_lt_base (by simpa using hn)]
      simp [digits, List.leftpad, Nat.mod_eq_of_lt (show n < 16 by simpa using hn)]
  | succ width ih =>
      by_cases hsmall : n < 16
      · rw [Nat.toDigits_of_lt_base hsmall, digits, Nat.div_eq_of_lt hsmall,
          Nat.mod_eq_of_lt hsmall, digits_zero]
        rfl
      · have hhigh : n / 16 < 16 ^ (width + 1) := by
          rw [Nat.div_lt_iff_lt_mul (by decide), ← Nat.pow_succ]
          exact hn
        have hpad : ∀ (front : List Char) (last : Char),
            (front ++ [last]).leftpad (width + 1 + 1) '0' =
              front.leftpad (width + 1) '0' ++ [last] := by
          intro front last
          simp [List.leftpad]
        rw [Nat.toDigits_of_base_le (by decide) (by omega), hpad, ih hhigh]
        rfl

end Hexadecimal
