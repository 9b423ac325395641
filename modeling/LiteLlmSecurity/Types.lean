import LiteLlmSecurity.Rust.Ascii
import LiteLlmSecurity.Text.Hexadecimal

/-!
# Shared types: tier identifiers, FNV hashes and the hexadecimal codec

`None` results are `Outcome`s over `Unit`, so that the decoder's slice accesses
keep their panics and the codec can be shown free of them.
-/

namespace LiteLlmSecurity

open Rust

abbrev TierId := UInt16

/-- `format!("{n:0width$x}")`: lowercase hexadecimal, padded with zeros. -/
def lowerHex (width n : Nat) : String :=
  String.ofList ((Nat.toDigits 16 n).leftpad width '0')

def fnv64Hex (bytes : Bytes) : String :=
  let hash := bytes.foldl (fun hash byte => (hash ^^^ byte.toUInt64) * 0x100000001b3)
    (0xcbf29ce484222325 : UInt64)
  lowerHex 16 hash.toNat

def pseudoSha256Hex (bytes : Bytes) : String :=
  ["0", "1", "2", "3"].foldl (fun out salt => out ++ fnv64Hex (asBytes salt ++ bytes)) ""

def deterministicHashHex (algorithm : String) (bytes : Bytes) : Option String :=
  match toAsciiLowercase algorithm with
  | "fnv64" => some (fnv64Hex bytes)
  | "sha256" => some (pseudoSha256Hex bytes)
  | _ => none

def hexEncode (bytes : Bytes) : String :=
  bytes.foldl (fun out byte => out ++ lowerHex 2 byte.toNat) ""

/-- `char::to_digit(16)`. -/
def toDigit16 (c : Char) : Option UInt32 :=
  if '0' ≤ c ∧ c ≤ '9' then some (c.val - 48)
  else if 'a' ≤ c ∧ c ≤ 'f' then some (c.val - 87)
  else if 'A' ≤ c ∧ c ≤ 'F' then some (c.val - 55)
  else none

/-- The byte written by two digits, each a byte read as a Latin-1 character. -/
def hexByteOf (hi lo : UInt8) : Outcome Unit UInt8 := do
  let hi ← orNone (toDigit16 (Char.ofNat hi.toNat))
  let lo ← orNone (toDigit16 (Char.ofNat lo.toNat))
  return ((hi <<< 4) ||| lo).toUInt8

/-- The body of the decoder's loop at an even index. -/
def hexByteAt (chars : Bytes) (idx : Nat) : Outcome Unit UInt8 := do
  let hi ← index chars idx
  let hi ← orNone (toDigit16 (Char.ofNat hi.toNat))
  let lo ← index chars (idx + 1)
  let lo ← orNone (toDigit16 (Char.ofNat lo.toNat))
  return ((hi <<< 4) ||| lo).toUInt8

/-- The indices `(0..len).step_by(2)`. -/
def evenIndices (len : Nat) : List Nat := (List.range ((len + 1) / 2)).map (2 * ·)

def hexDecode (value : String) : Outcome Unit Bytes :=
  let chars := asBytes value
  if chars.length % 2 ≠ 0 then .error (.err ())
  else (evenIndices chars.length).mapM (hexByteAt chars)

/-! ## The codec's round trip -/

theorem evenIndices_add_two (len : Nat) :
    evenIndices (len + 2) = 0 :: (evenIndices len).map (· + 2) := by
  have hhalf : (len + 2 + 1) / 2 = (len + 1) / 2 + 1 := by omega
  simp only [evenIndices, hhalf, List.range_succ_eq_map, List.map_cons, List.map_map]
  rfl

/-- The loop decodes its first two bytes and then the rest. -/
theorem mapM_hexByteAt_cons_cons (hi lo : UInt8) (rest : Bytes) :
    (evenIndices (rest.length + 2)).mapM (hexByteAt (hi :: lo :: rest)) =
      (do
        let byte ← hexByteOf hi lo
        let bytes ← (evenIndices rest.length).mapM (hexByteAt rest)
        return byte :: bytes) := by
  rw [evenIndices_add_two, List.mapM_cons, List.mapM_map]
  rfl

/-- The ASCII byte of a lowercase hexadecimal digit. -/
def hexDigit (n : Nat) : UInt8 := UInt8.ofNat (Nat.digitChar n).toNat

/-- The two digits of a byte. -/
def hexDigits (byte : UInt8) : Bytes := [hexDigit (byte.toNat / 16), hexDigit (byte.toNat % 16)]

theorem toList_lowerHex {width n : Nat} (h : n < 16 ^ (width + 1)) :
    (lowerHex (width + 1) n).toList = Hexadecimal.digits (width + 1) n := by
  rw [lowerHex, String.toList_ofList, Hexadecimal.leftpad_toDigits h]

theorem toList_hexEncode (bytes : Bytes) :
    (hexEncode bytes).toList = bytes.flatMap fun byte => Hexadecimal.digits 2 byte.toNat := by
  suffices general : ∀ out : String,
      (bytes.foldl (fun out byte => out ++ lowerHex 2 byte.toNat) out).toList =
        out.toList ++ bytes.flatMap fun byte => Hexadecimal.digits 2 byte.toNat by
    simpa [hexEncode] using general ""
  induction bytes with
  | nil => simp
  | cons byte bytes ih =>
      intro out
      rw [List.foldl_cons, ih, String.toList_append, toList_lowerHex byte.toNat_lt,
        List.flatMap_cons, List.append_assoc]

theorem utf8EncodeChar_digitChar {n : Nat} (h : n < 16) :
    String.utf8EncodeChar (Nat.digitChar n) = [hexDigit n] := by
  have hcode := Hexadecimal.toNat_digitChar h
  apply utf8EncodeChar_of_ascii
  split at hcode <;> omega

/-- The UTF-8 text of a byte is its two digits. -/
theorem flatMap_digits_two (byte : UInt8) :
    (Hexadecimal.digits 2 byte.toNat).flatMap String.utf8EncodeChar = hexDigits byte := by
  have hlt : byte.toNat < 256 := byte.toNat_lt
  have hhigh : byte.toNat / 16 < 16 := by omega
  have hlow : byte.toNat % 16 < 16 := by omega
  show String.utf8EncodeChar (Nat.digitChar (byte.toNat / 16 % 16)) ++
    (String.utf8EncodeChar (Nat.digitChar (byte.toNat % 16)) ++ []) = hexDigits byte
  rw [Nat.mod_eq_of_lt hhigh, utf8EncodeChar_digitChar hhigh, utf8EncodeChar_digitChar hlow]
  rfl

theorem asBytes_hexEncode (bytes : Bytes) :
    asBytes (hexEncode bytes) = bytes.flatMap hexDigits := by
  rw [asBytes_eq_flatMap, toList_hexEncode, List.flatMap_assoc]
  exact List.flatMap_congr fun byte _ => flatMap_digits_two byte

/-- Two digit values put together. -/
theorem toUInt8_digits {high low : Nat} (hhigh : high < 16) (hlow : low < 16) :
    ((UInt32.ofNat high <<< 4) ||| UInt32.ofNat low).toUInt8 = UInt8.ofNat (16 * high + low) := by
  have table : ∀ high low : Fin 16,
      ((UInt32.ofNat high <<< 4) ||| UInt32.ofNat low).toUInt8 =
        UInt8.ofNat (16 * high.val + low.val) := by decide
  exact table ⟨high, hhigh⟩ ⟨low, hlow⟩

theorem toDigit16_hexDigit {n : Nat} (h : n < 16) :
    toDigit16 (Char.ofNat (hexDigit n).toNat) = some (UInt32.ofNat n) := by
  have table : ∀ n : Fin 16,
      toDigit16 (Char.ofNat (hexDigit n).toNat) = some (UInt32.ofNat n) := by decide
  exact table ⟨n, h⟩

/-- The two digits of a byte decode to it. -/
theorem hexByteOf_hexDigits (byte : UInt8) :
    hexByteOf (hexDigit (byte.toNat / 16)) (hexDigit (byte.toNat % 16)) = .ok byte := by
  have hlt : byte.toNat < 256 := byte.toNat_lt
  have hhigh : byte.toNat / 16 < 16 := by omega
  have hlow : byte.toNat % 16 < 16 := by omega
  simp only [hexByteOf, toDigit16_hexDigit hhigh, toDigit16_hexDigit hlow, orNone, ok_bind,
    pure_eq, toUInt8_digits hhigh hlow]
  rw [Nat.div_add_mod, UInt8.ofNat_toNat]

theorem hexDecode_hexEncode (bytes : Bytes) : hexDecode (hexEncode bytes) = .ok bytes := by
  suffices loop : (bytes.flatMap hexDigits).length % 2 = 0 ∧
      (evenIndices (bytes.flatMap hexDigits).length).mapM (hexByteAt (bytes.flatMap hexDigits)) =
        .ok bytes by
    simp only [hexDecode, asBytes_hexEncode]
    rw [if_neg (by simpa using loop.1), loop.2]
  induction bytes with
  | nil => exact ⟨rfl, rfl⟩
  | cons byte bytes ih =>
      have hcons : (byte :: bytes).flatMap hexDigits = hexDigit (byte.toNat / 16) ::
          hexDigit (byte.toNat % 16) :: bytes.flatMap hexDigits := rfl
      rw [hcons, List.length_cons, List.length_cons, mapM_hexByteAt_cons_cons,
        hexByteOf_hexDigits, ih.2]
      exact ⟨by omega, rfl⟩

end LiteLlmSecurity
