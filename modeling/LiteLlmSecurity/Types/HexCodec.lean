import LiteLlmSecurity.Types

/-!
# What the hexadecimal decoder accepts

The decoder accepts a text exactly when its bytes are an even number of
hexadecimal digits, in either case, and returns the bytes whose encoding is the
text in lowercase. Any other text is refused without a panic: the loop takes two
bytes a turn, and an even length leaves no turn with one.
-/

namespace LiteLlmSecurity

open Rust

/-! ## One digit -/

/-- `u8::is_ascii_hexdigit`. -/
def IsHexDigit (byte : UInt8) : Prop :=
  (0x30 ≤ byte ∧ byte ≤ 0x39) ∨ (0x61 ≤ byte ∧ byte ≤ 0x66) ∨ (0x41 ≤ byte ∧ byte ≤ 0x46)

instance (byte : UInt8) : Decidable (IsHexDigit byte) := inferInstanceAs (Decidable (_ ∨ _))

theorem isHexDigit_iff (byte : UInt8) : IsHexDigit byte ↔
    (48 ≤ byte.toNat ∧ byte.toNat ≤ 57) ∨ (97 ≤ byte.toNat ∧ byte.toNat ≤ 102) ∨
      (65 ≤ byte.toNat ∧ byte.toNat ≤ 70) := Iff.rfl

theorem toNat_hexDigit {n : Nat} (h : n < 16) :
    (hexDigit n).toNat = if n < 10 then 48 + n else 87 + n := by
  have hcode := Hexadecimal.toNat_digitChar h
  rw [hexDigit, UInt8.toNat_ofNat', hcode]
  split <;> omega

/-- The value of a digit is the distance of its code from the code of zero. -/
theorem val_sub_eq_ofNat {c : Char} (zero : UInt32) (h : zero.toNat ≤ c.toNat) :
    c.val - zero = UInt32.ofNat (c.toNat - zero.toNat) := by
  have hle : zero ≤ c.val := h
  have hcode : c.val.toNat = c.toNat := rfl
  have hlt : c.val.toNat < 2 ^ 32 := c.val.toNat_lt
  rw [← UInt32.toNat_inj, UInt32.toNat_sub_of_le c.val zero hle, UInt32.toNat_ofNat']
  omega

theorem toDigit16_eq (c : Char) : toDigit16 c =
    if 48 ≤ c.toNat ∧ c.toNat ≤ 57 then some (UInt32.ofNat (c.toNat - 48))
    else if 97 ≤ c.toNat ∧ c.toNat ≤ 102 then some (UInt32.ofNat (c.toNat - 87))
    else if 65 ≤ c.toNat ∧ c.toNat ≤ 70 then some (UInt32.ofNat (c.toNat - 55))
    else none := by
  have hdecimal : ('0' ≤ c ∧ c ≤ '9') ↔ (48 ≤ c.toNat ∧ c.toNat ≤ 57) := Iff.rfl
  have hlower : ('a' ≤ c ∧ c ≤ 'f') ↔ (97 ≤ c.toNat ∧ c.toNat ≤ 102) := Iff.rfl
  have hupper : ('A' ≤ c ∧ c ≤ 'F') ↔ (65 ≤ c.toNat ∧ c.toNat ≤ 70) := Iff.rfl
  simp only [toDigit16, hdecimal, hlower, hupper]
  refine ite_congr rfl (fun h => ?_) fun _ => ite_congr rfl (fun h => ?_) fun _ =>
    ite_congr rfl (fun h => ?_) fun _ => rfl
  · exact congrArg some (val_sub_eq_ofNat 48 h.1)
  · exact congrArg some (val_sub_eq_ofNat 87 (Nat.le_trans (by decide) h.1))
  · exact congrArg some (val_sub_eq_ofNat 55 (Nat.le_trans (by decide) h.1))

/-- A byte read as a character is a digit exactly if the byte is one, and its
value writes the byte in lowercase. -/
theorem toDigit16_cases (byte : UInt8) :
    (IsHexDigit byte ∧ ∃ n < 16, toDigit16 (Char.ofNat byte.toNat) = some (UInt32.ofNat n) ∧
      hexDigit n = asciiLowercase byte) ∨
    (¬ IsHexDigit byte ∧ toDigit16 (Char.ofNat byte.toNat) = none) := by
  have hlt : byte.toNat < 256 := byte.toNat_lt
  have hcode : (Char.ofNat byte.toNat).toNat = byte.toNat := by
    rw [Char.ofNat, dif_pos (.inl (by omega))]
    rfl
  -- A digit of one kind writes its own code, or that of the other letter case.
  have hwrites : ∀ n < 16, (byte.toNat = 48 + n ∧ n < 10) ∨ (byte.toNat = 87 + n ∧ 10 ≤ n) ∨
      (byte.toNat = 55 + n ∧ 10 ≤ n) → hexDigit n = asciiLowercase byte := by
    intro n hn hkind
    rw [← UInt8.toNat_inj, toNat_hexDigit hn, toNat_asciiLowercase]
    split <;> split <;> omega
  rw [toDigit16_eq, hcode, isHexDigit_iff]
  split_ifs with hdecimal hlower hupper
  · exact .inl ⟨.inl hdecimal, _, by omega, rfl, hwrites _ (by omega) (by omega)⟩
  · exact .inl ⟨.inr (.inl hlower), _, by omega, rfl, hwrites _ (by omega) (by omega)⟩
  · exact .inl ⟨.inr (.inr hupper), _, by omega, rfl, hwrites _ (by omega) (by omega)⟩
  · exact .inr ⟨by rintro (h | h | h) <;> contradiction, rfl⟩

/-! ## Two digits -/

theorem hexDigits_ofNat {high low : Nat} (hhigh : high < 16) (hlow : low < 16) :
    hexDigits (UInt8.ofNat (16 * high + low)) = [hexDigit high, hexDigit low] := by
  have hvalue : (UInt8.ofNat (16 * high + low)).toNat = 16 * high + low := by
    rw [UInt8.toNat_ofNat']
    omega
  have hdiv : (16 * high + low) / 16 = high := by omega
  have hmod : (16 * high + low) % 16 = low := by omega
  rw [hexDigits, hvalue, hdiv, hmod]

/-- One turn of the decoder's loop: two digits give the byte they write, anything
else ends the call. -/
theorem hexByteOf_cases (hi lo : UInt8) :
    ((IsHexDigit hi ∧ IsHexDigit lo) ∧ ∃ byte, hexByteOf hi lo = .ok byte ∧
      hexDigits byte = [asciiLowercase hi, asciiLowercase lo]) ∨
    (¬ (IsHexDigit hi ∧ IsHexDigit lo) ∧ hexByteOf hi lo = .error (.err ())) := by
  rcases toDigit16_cases hi with ⟨hhi, high, hhigh, hvalue, hwrites⟩ | ⟨hhi, hnone⟩
  · rcases toDigit16_cases lo with ⟨hlo, low, hlow, hvalue', hwrites'⟩ | ⟨hlo, hnone⟩
    · refine .inl ⟨⟨hhi, hlo⟩, UInt8.ofNat (16 * high + low), ?_, ?_⟩
      · simp only [hexByteOf, hvalue, hvalue', orNone, ok_bind, pure_eq,
          toUInt8_digits hhigh hlow]
      · rw [hexDigits_ofNat hhigh hlow, hwrites, hwrites']
    · exact .inr ⟨fun h => hlo h.2, by simp only [hexByteOf, hvalue, hnone, orNone, ok_bind,
        error_bind]⟩
  · exact .inr ⟨fun h => hhi h.1, by simp only [hexByteOf, hnone, orNone, error_bind]⟩

/-! ## A text -/

/-- The decoder's grammar: an even number of bytes, all of them digits. -/
def HexText (value : String) : Prop :=
  (asBytes value).length % 2 = 0 ∧ ∀ byte ∈ asBytes value, IsHexDigit byte

instance (value : String) : Decidable (HexText value) :=
  @instDecidableAnd _ _ _ (List.decidableBAll IsHexDigit (asBytes value))

/-- The loop over an even number of bytes reads digits, or ends in `None`. -/
theorem mapM_hexByteAt_cases (chars : Bytes) (heven : chars.length % 2 = 0) :
    ((∀ byte ∈ chars, IsHexDigit byte) ∧
      ∃ bytes, (evenIndices chars.length).mapM (hexByteAt chars) = .ok bytes ∧
        bytes.flatMap hexDigits = chars.map asciiLowercase) ∨
    ((¬ ∀ byte ∈ chars, IsHexDigit byte) ∧
      (evenIndices chars.length).mapM (hexByteAt chars) = .error (.err ())) := by
  induction chars using List.twoStepInduction with
  | nil => exact .inl ⟨by simp, [], rfl, rfl⟩
  | singleton byte => simp at heven
  | cons_cons hi lo rest ih _ =>
      have hrest : rest.length % 2 = 0 := by
        simp only [List.length_cons] at heven
        omega
      have hall : (∀ byte ∈ hi :: lo :: rest, IsHexDigit byte) ↔
          (IsHexDigit hi ∧ IsHexDigit lo) ∧ ∀ byte ∈ rest, IsHexDigit byte := by
        simp only [List.forall_mem_cons, and_assoc]
      rw [hall, List.length_cons, List.length_cons, mapM_hexByteAt_cons_cons]
      rcases hexByteOf_cases hi lo with ⟨hdigits, byte, hbyte, hwrites⟩ | ⟨hnot, herror⟩
      · rcases ih hrest with ⟨hdigits', bytes, hbytes, hwrites'⟩ | ⟨hnot, herror⟩
        · refine .inl ⟨⟨hdigits, hdigits'⟩, byte :: bytes, ?_, ?_⟩
          · rw [hbyte, ok_bind, hbytes, ok_bind, pure_eq]
          · rw [List.flatMap_cons, hwrites, hwrites']
            rfl
        · exact .inr ⟨fun h => hnot h.2, by rw [hbyte, ok_bind, herror, error_bind]⟩
      · exact .inr ⟨fun h => hnot h.1, by rw [herror, error_bind]⟩

/-- The decoder's two outcomes. -/
theorem hexDecode_cases (value : String) :
    (HexText value ∧ ∃ bytes, hexDecode value = .ok bytes ∧
      hexEncode bytes = toAsciiLowercase value) ∨
    (¬ HexText value ∧ hexDecode value = .error (.err ())) := by
  by_cases heven : (asBytes value).length % 2 = 0
  · have hloop : hexDecode value =
        (evenIndices (asBytes value).length).mapM (hexByteAt (asBytes value)) :=
      if_neg (by simpa using heven)
    rw [hloop]
    rcases mapM_hexByteAt_cases (asBytes value) heven with
      ⟨hdigits, bytes, hbytes, hwrites⟩ | ⟨hnot, herror⟩
    · refine .inl ⟨⟨heven, hdigits⟩, bytes, hbytes, ?_⟩
      rw [← asBytes_inj, asBytes_hexEncode, hwrites, asBytes_toAsciiLowercase]
    · exact .inr ⟨fun h => hnot h.2, herror⟩
  · exact .inr ⟨fun h => heven h.1, if_pos heven⟩

theorem hexEncode_injective : Function.Injective hexEncode := by
  intro bytes bytes' h
  have hdecoded := hexDecode_hexEncode bytes
  rw [h, hexDecode_hexEncode] at hdecoded
  exact (Except.ok.inj hdecoded).symm

/-- The codec accepts exactly its grammar, reads back what it writes, and never
indexes out of range. -/
theorem hexDecode_accepts_hexText :
    (∀ bytes, hexDecode (hexEncode bytes) = .ok bytes) ∧
    ∀ value,
      ((∃ bytes, hexDecode value = .ok bytes) ↔ HexText value) ∧
      (∀ bytes, hexDecode value = .ok bytes ↔
        HexText value ∧ hexEncode bytes = toAsciiLowercase value) ∧
      (hexDecode value = .error (.err ()) ↔ ¬ HexText value) ∧
      hexDecode value ≠ .error .panic := by
  refine ⟨hexDecode_hexEncode, fun value => ?_⟩
  rcases hexDecode_cases value with ⟨htext, bytes, hbytes, hwrites⟩ | ⟨hnot, herror⟩
  · refine ⟨⟨fun _ => htext, fun _ => ⟨bytes, hbytes⟩⟩, fun bytes' => ?_, ?_, ?_⟩
    · constructor
      · intro h
        rw [hbytes] at h
        cases h
        exact ⟨htext, hwrites⟩
      · rintro ⟨-, h⟩
        rw [hbytes, hexEncode_injective (h.trans hwrites.symm)]
    · simp [hbytes, htext]
    · simp [hbytes]
  · simp [herror, hnot]

/-- Both letter cases are digits; the two bytes of a character outside ASCII are not. -/
example : HexText "aF" ∧ ¬ HexText "é" := by decide

end LiteLlmSecurity
