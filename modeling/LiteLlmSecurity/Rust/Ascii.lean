import LiteLlmSecurity.Rust.Basic

/-!
# ASCII letters in UTF-8 texts

Only an ASCII character has a byte below 128 in its encoding, and then that byte
is the whole encoding. Changing the case of the ASCII letters of a text is
therefore the same change made byte by byte.
-/

namespace Rust

/-- `str::to_ascii_lowercase`. -/
def toAsciiLowercase (s : String) : String := s.map Char.toLower

/-- `u8::to_ascii_lowercase`. -/
def asciiLowercase (byte : UInt8) : UInt8 :=
  if 0x41 ≤ byte ∧ byte ≤ 0x5A then byte + 0x20 else byte

theorem toNat_asciiLowercase (byte : UInt8) :
    (asciiLowercase byte).toNat =
      if 65 ≤ byte.toNat ∧ byte.toNat ≤ 90 then byte.toNat + 32 else byte.toNat := by
  have hupper : (0x41 ≤ byte ∧ byte ≤ 0x5A) ↔ (65 ≤ byte.toNat ∧ byte.toNat ≤ 90) := Iff.rfl
  simp only [asciiLowercase, hupper]
  split
  · next h =>
      have hsum : (byte + 0x20).toNat = (byte.toNat + 32) % 256 := UInt8.toNat_add byte 0x20
      omega
  · rfl

/-- `Char.toLower` changes the letters from `A` to `Z` only. -/
theorem toNat_toLower (c : Char) :
    c.toLower.toNat = if 65 ≤ c.toNat ∧ c.toNat ≤ 90 then c.toNat + 32 else c.toNat := by
  have hupper : (c.val ≥ 'A'.val ∧ c.val ≤ 'Z'.val) ↔ (65 ≤ c.toNat ∧ c.toNat ≤ 90) := Iff.rfl
  unfold Char.toLower
  split
  · next h =>
      have hsum : (c.val + ('a'.val - 'A'.val)).toNat = (c.toNat + 32) % 2 ^ 32 :=
        UInt32.toNat_add c.val ('a'.val - 'A'.val)
      rw [if_pos (hupper.mp h)]
      show (c.val + ('a'.val - 'A'.val)).toNat = c.toNat + 32
      have hle := (hupper.mp h).2
      omega
  · next h => rw [if_neg (fun hcodes => h (hupper.mpr hcodes))]

/-! ## The encoding of one character -/

theorem utf8EncodeChar_of_ascii {c : Char} (h : c.toNat < 128) :
    String.utf8EncodeChar c = [UInt8.ofNat c.toNat] :=
  if_pos (Nat.le_of_lt_succ h)

/-- All bytes of a character outside ASCII have their top bit set. -/
theorem le_of_mem_utf8EncodeChar {c : Char} (h : 128 ≤ c.toNat) {byte : UInt8}
    (hbyte : byte ∈ String.utf8EncodeChar c) : 128 ≤ byte.toNat := by
  have hlarge : ¬ c.val.toNat ≤ 0x7f := Nat.not_le_of_lt h
  simp only [String.utf8EncodeChar, if_neg hlarge] at hbyte
  -- Encodings of two, three and four bytes.
  split at hbyte
  · simp only [List.mem_cons, List.not_mem_nil, or_false] at hbyte
    rcases hbyte with rfl | rfl <;> rw [UInt8.toNat_ofNat'] <;> omega
  · split at hbyte
    · simp only [List.mem_cons, List.not_mem_nil, or_false] at hbyte
      rcases hbyte with rfl | rfl | rfl <;> rw [UInt8.toNat_ofNat'] <;> omega
    · simp only [List.mem_cons, List.not_mem_nil, or_false] at hbyte
      rcases hbyte with rfl | rfl | rfl | rfl <;> rw [UInt8.toNat_ofNat'] <;> omega

/-- Lowering a character lowers its bytes. -/
theorem utf8EncodeChar_toLower (c : Char) :
    String.utf8EncodeChar c.toLower = (String.utf8EncodeChar c).map asciiLowercase := by
  have hlower := toNat_toLower c
  rcases Nat.lt_or_ge c.toNat 128 with hascii | hhigh
  · have hascii' : c.toLower.toNat < 128 := by
      split at hlower <;> omega
    have hbyte : (UInt8.ofNat c.toNat).toNat = c.toNat := by
      rw [UInt8.toNat_ofNat']
      omega
    rw [utf8EncodeChar_of_ascii hascii, utf8EncodeChar_of_ascii hascii', List.map_singleton,
      List.singleton_inj, ← UInt8.toNat_inj, toNat_asciiLowercase, hbyte, UInt8.toNat_ofNat',
      ← hlower]
    omega
  · have hsame : c.toLower = c := by
      rw [if_neg (by omega)] at hlower
      exact Char.toNat_inj.mp hlower
    have hbytes : ∀ byte ∈ String.utf8EncodeChar c, asciiLowercase byte = byte := by
      intro byte hbyte
      have hle := le_of_mem_utf8EncodeChar hhigh hbyte
      rw [← UInt8.toNat_inj, toNat_asciiLowercase, if_neg (by omega)]
    rw [hsame, List.map_congr_left hbytes, List.map_id']

/-! ## The encoding of a text -/

theorem asBytes_eq_flatMap (s : String) :
    asBytes s = s.toList.flatMap String.utf8EncodeChar :=
  calc asBytes s = asBytes (String.ofList s.toList) := by rw [String.ofList_toList]
    _ = s.toList.flatMap String.utf8EncodeChar := List.toList_data_toByteArray

/-- Lowering a text is lowering its bytes. -/
theorem asBytes_toAsciiLowercase (s : String) :
    asBytes (toAsciiLowercase s) = (asBytes s).map asciiLowercase := by
  rw [asBytes_eq_flatMap, asBytes_eq_flatMap, toAsciiLowercase, String.toList_map,
    List.flatMap_map, List.map_flatMap]
  exact List.flatMap_congr fun c _ => utf8EncodeChar_toLower c

end Rust
