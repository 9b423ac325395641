import Mathlib.Data.Nat.Digits.Defs
import Mathlib.Logic.Function.Basic

/-!
# Decimal texts of natural numbers

The decimal text of a number determines the number, is never empty, and consists
of digits. Any other character can therefore separate decimals from what follows
them without an escape.
-/

namespace Decimal

/-- Reading the digits back inverts `Nat.repr`. -/
theorem repr_injective : Function.Injective Nat.repr := by
  intro m n h
  have hdigits : Nat.toDigits 10 m = Nat.toDigits 10 n := by
    simpa using congrArg String.toList h
  rw [← @Nat.ofDigitChars_ten_toDigits m, hdigits, Nat.ofDigitChars_ten_toDigits]

/-- The same for decimals as lists of characters. -/
theorem repr_toList_injective : Function.Injective fun n : Nat => n.repr.toList :=
  fun _ _ h => repr_injective (String.toList_inj.mp h)

theorem isDigit_of_mem_repr {c : Char} {n : Nat} (h : c ∈ n.repr.toList) : c.isDigit = true :=
  Nat.isDigit_of_mem_toDigits (b := 10) (by decide) (by decide) (by simpa using h)

/-- A character that is not a digit does not occur in a decimal. -/
theorem notMem_repr {c : Char} (hc : c.isDigit = false) (n : Nat) : c ∉ n.repr.toList := by
  intro hmem
  rw [isDigit_of_mem_repr hmem] at hc
  exact Bool.noConfusion hc

theorem repr_toList_ne_nil (n : Nat) : n.repr.toList ≠ [] := by
  rw [Nat.toList_repr]
  exact Nat.toDigits_ne_nil

end Decimal
