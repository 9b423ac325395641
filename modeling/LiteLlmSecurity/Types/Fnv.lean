import LiteLlmSecurity.Crypto.StepHash
import LiteLlmSecurity.Types
import Mathlib.Algebra.Field.ZMod
import Mathlib.Data.Nat.Bitwise

/-!
# FNV hashes notice every change of one byte

Absorbing a byte permutes the 64-bit states, because the prime is odd, and sends
different bytes to different states. Two inputs that differ in one byte then end
in different states, and sixteen hexadecimal digits write all 64 bits.

The longer hash is four such words, one for each salt in front of the input, so
each of its words changes.
-/

namespace LiteLlmSecurity

open Rust StepHash

/-! ## The state of the hash -/

/-- The loop's body. -/
def fnvAbsorb (hash : UInt64) (byte : UInt8) : UInt64 := (hash ^^^ byte.toUInt64) * 0x100000001b3

def fnv64 (bytes : Bytes) : UInt64 := absorbAll fnvAbsorb 0xcbf29ce484222325 bytes

theorem fnv64Hex_eq (bytes : Bytes) : fnv64Hex bytes = lowerHex 16 (fnv64 bytes).toNat := rfl

/-- The prime has an inverse modulo `2 ^ 64`. -/
theorem mul_prime_injective : Function.Injective fun hash : UInt64 => hash * 0x100000001b3 := by
  have hinverse : (0x100000001b3 : UInt64) * 0xce965057aff6957b = 1 := by decide
  apply Function.LeftInverse.injective (g := fun hash : UInt64 => hash * 0xce965057aff6957b)
  intro hash
  show hash * 0x100000001b3 * 0xce965057aff6957b = hash
  rw [UInt64.mul_assoc, hinverse, UInt64.mul_one]

theorem separates_fnvAbsorb : Separates fnvAbsorb where
  state_injective byte _ _ h :=
    (UInt64.xor_left_inj byte.toUInt64).mp (mul_prime_injective h)
  symbol_injective hash _ _ h :=
    UInt8.toUInt64_inj.mp ((UInt64.xor_right_inj hash).mp (mul_prime_injective h))

/-! ## The text of the hash -/

theorem lowerHex_inj {width m n : Nat} (hm : m < 16 ^ (width + 1)) (hn : n < 16 ^ (width + 1)) :
    lowerHex (width + 1) m = lowerHex (width + 1) n ↔ m = n := by
  constructor
  · intro h
    have hdigits := congrArg String.toList h
    rw [toList_lowerHex hm, toList_lowerHex hn] at hdigits
    have hmod := Hexadecimal.mod_eq_of_digits_eq hdigits
    rwa [Nat.mod_eq_of_lt hm, Nat.mod_eq_of_lt hn] at hmod
  · exact fun h => congrArg _ h

theorem length_fnv64Hex (bytes : Bytes) : (fnv64Hex bytes).toList.length = 16 := by
  rw [fnv64Hex_eq, toList_lowerHex (fnv64 bytes).toNat_lt, Hexadecimal.length_digits]

/-- The text determines the state. -/
theorem fnv64Hex_inj {bytes bytes' : Bytes} :
    fnv64Hex bytes = fnv64Hex bytes' ↔ fnv64 bytes = fnv64 bytes' := by
  rw [fnv64Hex_eq, fnv64Hex_eq, lowerHex_inj (fnv64 bytes).toNat_lt (fnv64 bytes').toNat_lt,
    UInt64.toNat_inj]

/-- A change of one byte is noticed behind any front. -/
theorem fnv64Hex_append_ne (front : Bytes) {bytes bytes' : Bytes}
    (h : DiffersOnce bytes bytes') :
    fnv64Hex (front ++ bytes) ≠ fnv64Hex (front ++ bytes') := by
  rw [Ne, fnv64Hex_inj, fnv64, fnv64, absorbAll_append, absorbAll_append]
  exact separates_fnvAbsorb.absorbAll_ne h _

/-! ## The lowest bit -/

/-- The lowest bit of the state. -/
def lowestBit (hash : UInt64) : ZMod 2 := (hash.toNat : ZMod 2)

/-- Absorbing a byte adds its lowest bit, since the prime is odd. -/
theorem lowestBit_fnvAbsorb (hash : UInt64) (byte : UInt8) :
    lowestBit (fnvAbsorb hash byte) = lowestBit hash + (byte.toNat : ZMod 2) := by
  have hprime : (0x100000001b3 : UInt64).toNat % 2 = 1 := by decide
  rw [lowestBit, lowestBit, ← Nat.cast_add, ZMod.natCast_eq_natCast_iff']
  calc (fnvAbsorb hash byte).toNat % 2
      = (hash.toNat ^^^ byte.toNat) * (0x100000001b3 : UInt64).toNat % 2 ^ 64 % 2 := by
        rw [fnvAbsorb, UInt64.toNat_mul, UInt64.toNat_xor, UInt8.toNat_toUInt64]
    _ = (hash.toNat ^^^ byte.toNat) * (0x100000001b3 : UInt64).toNat % 2 :=
        Nat.mod_mod_of_dvd _ (by decide)
    _ = (hash.toNat ^^^ byte.toNat) % 2 := by rw [Nat.mul_mod, hprime, Nat.mul_one, Nat.mod_mod]
    _ = (hash.toNat + byte.toNat) % 2 := Nat.xor_mod_two_eq

/-- The hash tells apart inputs whose bytes have sums of different parity, whatever
stands in front of them. -/
theorem fnv64Hex_append_ne_of_parity (front : Bytes) {bytes bytes' : Bytes}
    (h : (bytes.map fun byte => (byte.toNat : ZMod 2)).sum ≠
      (bytes'.map fun byte => (byte.toNat : ZMod 2)).sum) :
    fnv64Hex (front ++ bytes) ≠ fnv64Hex (front ++ bytes') := by
  intro heq
  have hstate := congrArg lowestBit (fnv64Hex_inj.mp heq)
  simp only [fnv64, absorbAll_append] at hstate
  rw [observe_absorbAll lowestBit_fnvAbsorb _ bytes,
    observe_absorbAll lowestBit_fnvAbsorb _ bytes'] at hstate
  exact h (add_left_cancel hstate)

/-! ## The four words of the longer hash -/

def salts : List String := ["0", "1", "2", "3"]

theorem toList_pseudoSha256Hex (bytes : Bytes) : (pseudoSha256Hex bytes).toList =
    salts.flatMap fun salt => (fnv64Hex (asBytes salt ++ bytes)).toList := by
  simp [pseudoSha256Hex, salts]

theorem length_pseudoSha256Hex (bytes : Bytes) : (pseudoSha256Hex bytes).length = 64 := by
  rw [← String.length_toList, toList_pseudoSha256Hex]
  simp [salts, length_fnv64Hex]

/-- Pieces of one width are found again at multiples of the width. -/
theorem take_drop_flatMap {α β : Type*} {piece : α → List β} {width : Nat}
    (hwidth : ∀ a, (piece a).length = width) {xs : List α} {k : Nat} {a : α}
    (h : xs[k]? = some a) : ((xs.flatMap piece).drop (width * k)).take width = piece a := by
  induction xs generalizing k with
  | nil => simp at h
  | cons x xs ih =>
      rw [List.flatMap_cons]
      cases k with
      | zero =>
          obtain rfl : x = a := by simpa using h
          rw [Nat.mul_zero, List.drop_zero, List.take_left' (hwidth x)]
      | succ k =>
          rw [Nat.mul_succ, Nat.add_comm, ← List.drop_drop, List.drop_left' (hwidth x)]
          exact ih (by simpa using h)

/-- The word of the longer hash at an index. -/
def hashWord (k : Nat) (bytes : Bytes) : String :=
  String.ofList (((pseudoSha256Hex bytes).toList.drop (16 * k)).take 16)

theorem hashWord_eq {k : Nat} {salt : String} (h : salts[k]? = some salt) (bytes : Bytes) :
    hashWord k bytes = fnv64Hex (asBytes salt ++ bytes) := by
  rw [hashWord, toList_pseudoSha256Hex, take_drop_flatMap (fun _ => length_fnv64Hex _) h,
    String.ofList_toList]

theorem hashWord_ne {k : Nat} (hk : k < 4) {bytes bytes' : Bytes}
    (h : DiffersOnce bytes bytes') : hashWord k bytes ≠ hashWord k bytes' := by
  have hsalt : salts[k]? = some salts[k] := List.getElem?_eq_getElem hk
  rw [hashWord_eq hsalt, hashWord_eq hsalt]
  exact fnv64Hex_append_ne _ h

/-- Two algorithms are known, by names in any letter case. -/
theorem deterministicHashHex_eq_some_iff {algorithm digest : String} {bytes : Bytes} :
    deterministicHashHex algorithm bytes = some digest ↔
      (toAsciiLowercase algorithm = "fnv64" ∧ fnv64Hex bytes = digest) ∨
      (toAsciiLowercase algorithm = "sha256" ∧ pseudoSha256Hex bytes = digest) := by
  unfold deterministicHashHex
  split
  · next hname => simp [hname]
  · next hname => simp [hname]
  · next hfnv hsha =>
      constructor
      · exact nofun
      · rintro (⟨hname, -⟩ | ⟨hname, -⟩)
        · exact absurd hname hfnv
        · exact absurd hname hsha

/-- The hash under a name notices the change as well. -/
theorem deterministicHashHex_ne {algorithm digest : String} {bytes bytes' : Bytes}
    (hdigest : deterministicHashHex algorithm bytes = some digest)
    (h : DiffersOnce bytes bytes') : deterministicHashHex algorithm bytes' ≠ some digest := by
  intro hdigest'
  rcases deterministicHashHex_eq_some_iff.mp hdigest with ⟨hname, rfl⟩ | ⟨hname, rfl⟩
  · rcases deterministicHashHex_eq_some_iff.mp hdigest' with ⟨-, hsame⟩ | ⟨hname', -⟩
    · exact fnv64Hex_append_ne [] h hsame.symm
    · exact absurd (hname.symm.trans hname') (by decide)
  · rcases deterministicHashHex_eq_some_iff.mp hdigest' with ⟨hname', -⟩ | ⟨-, hsame⟩
    · exact absurd (hname.symm.trans hname') (by decide)
    · exact hashWord_ne (k := 0) (by decide) h (by rw [hashWord, hashWord, hsame])

/-- A change of one byte changes the hash, and every word of the longer one. -/
theorem hashes_notice_one_byte {bytes bytes' : Bytes} (h : DiffersOnce bytes bytes') :
    fnv64Hex bytes ≠ fnv64Hex bytes' ∧
      (pseudoSha256Hex bytes).length = 64 ∧ (pseudoSha256Hex bytes').length = 64 ∧
      ∀ k < 4, hashWord k bytes ≠ hashWord k bytes' :=
  ⟨fnv64Hex_append_ne [] h, length_pseudoSha256Hex bytes, length_pseudoSha256Hex bytes',
    fun _ hk => hashWord_ne hk h⟩

theorem hashes_notice_one_byte_of_three :
    DiffersOnce (asBytes "abc") (asBytes "abd") ∧
      fnv64Hex (asBytes "abc") ≠ fnv64Hex (asBytes "abd") ∧
      ∀ k < 4, hashWord k (asBytes "abc") ≠ hashWord k (asBytes "abd") := by
  have hdiffers : DiffersOnce (asBytes "abc") (asBytes "abd") :=
    differsOnce_append_cons [0x61, 0x62] (a := 0x63) (b := 0x64) (by decide) []
  obtain ⟨hword, -, -, hwords⟩ := hashes_notice_one_byte hdiffers
  exact ⟨hdiffers, hword, hwords⟩

end LiteLlmSecurity
