import Mathlib.Data.List.Basic
import Mathlib.Data.Set.Function

/-!
# HMAC (RFC 2104) and HKDF (RFC 5869) over a hash function

The hash is an arbitrary function to 32-byte digests with 64-byte blocks. HMAC
does not use its key directly: a key of at most one block is filled up with zero
bytes, and a longer key is hashed first. Everything else depends only on this
prepared key, so keys with one preparation are interchangeable.
-/

namespace Hmac

variable (hash : List UInt8 → Vector UInt8 32)

def blockSize : Nat := 64

/-- The key as HMAC uses it: one block long. -/
def prepareKey (key : List UInt8) : List UInt8 :=
  let short := if key.length ≤ blockSize then key else (hash key).toList
  short ++ List.replicate (blockSize - short.length) 0

/-- HMAC with an already prepared key. -/
def macPrepared (prepared message : List UInt8) : Vector UInt8 32 :=
  hash (prepared.map (· ^^^ 0x5c) ++ (hash (prepared.map (· ^^^ 0x36) ++ message)).toList)

def mac (key message : List UInt8) : Vector UInt8 32 :=
  macPrepared hash (prepareKey hash key) message

/-- HKDF-Extract. The salt is the HMAC key, the input keying material the message. -/
def extract (salt ikm : List UInt8) : Vector UInt8 32 := mac hash salt ikm

/-- The first block of HKDF-Expand, which is all of a 32-byte output. -/
def expand (prk : Vector UInt8 32) (info : List UInt8) : Vector UInt8 32 :=
  mac hash prk.toList (info ++ [1])

/-- Zero bytes at the end of a short key do not reach HMAC. -/
theorem prepareKey_append_zeros {key : List UInt8} {n : Nat} (h : key.length + n ≤ blockSize) :
    prepareKey hash (key ++ List.replicate n 0) = prepareKey hash key := by
  have hshort : key.length ≤ blockSize := Nat.le_of_add_right_le h
  have hlong : (key ++ List.replicate n 0).length ≤ blockSize := by simpa using h
  have hlength : n + (blockSize - (key.length + n)) = blockSize - key.length := by omega
  simp only [prepareKey, if_pos hshort, if_pos hlong]
  rw [List.append_assoc, List.replicate_append_replicate, List.length_append,
    List.length_replicate, hlength]

/-- Short keys of one length are prepared differently. -/
theorem prepareKey_inj {key key' : List UInt8} (hlength : key.length = key'.length)
    (hshort : key.length ≤ blockSize) (h : prepareKey hash key = prepareKey hash key') :
    key = key' := by
  rw [hlength] at hshort
  simp only [prepareKey, hlength, if_pos hshort] at h
  exact List.append_cancel_right h

/-- Salts with one preparation extract the same pseudorandom key. -/
theorem extract_congr {salt salt' : List UInt8}
    (h : prepareKey hash salt = prepareKey hash salt') (ikm : List UInt8) :
    extract hash salt ikm = extract hash salt' ikm := by
  rw [extract, extract, mac, mac, h]

/-! ## What the results determine -/

/-- The texts that one computation hashes, the outer one first. -/
def macInputs (prepared message : List UInt8) : List (List UInt8) :=
  [prepared.map (· ^^^ 0x5c) ++ (hash (prepared.map (· ^^^ 0x36) ++ message)).toList,
    prepared.map (· ^^^ 0x36) ++ message]

/-- The hash does not collide on the texts. -/
def CollisionFreeOn (inputs : List (List UInt8)) : Prop := Set.InjOn hash {input | input ∈ inputs}

theorem CollisionFreeOn.mono {inputs inputs' : List (List UInt8)}
    (h : CollisionFreeOn hash inputs) (hsubset : inputs' ⊆ inputs) :
    CollisionFreeOn hash inputs' :=
  Set.InjOn.mono (fun _ hmem => hsubset hmem) h

theorem map_xor_injective (pad : UInt8) :
    Function.Injective fun bytes : List UInt8 => bytes.map (· ^^^ pad) :=
  List.map_injective_iff.mpr fun _ _ h => (UInt8.xor_left_inj pad).mp h

theorem macPrepared_inj {prepared prepared' message message' : List UInt8}
    (hlength : prepared.length = prepared'.length)
    (collisionFree : CollisionFreeOn hash
      (macInputs hash prepared message ++ macInputs hash prepared' message'))
    (h : macPrepared hash prepared message = macPrepared hash prepared' message') :
    prepared = prepared' ∧ message = message' := by
  have houter := collisionFree (by simp [macInputs]) (by simp [macInputs]) h
  obtain ⟨hpads, hdigests⟩ := List.append_inj houter (by simpa using hlength)
  have hinner := collisionFree (by simp [macInputs]) (by simp [macInputs])
    (Vector.toList_inj.mp hdigests)
  exact ⟨map_xor_injective _ hpads, (List.append_inj hinner (by simpa using hlength)).2⟩

theorem length_prepareKey (key : List UInt8) : (prepareKey hash key).length = blockSize := by
  have hdigest : (hash key).toList.length = 32 := Vector.length_toList
  unfold prepareKey blockSize
  split <;> simp only [List.length_append, List.length_replicate] <;> omega

/-- The texts that an extraction and an expansion of its result hash. -/
def hkdfInputs (salt ikm info : List UInt8) : List (List UInt8) :=
  macInputs hash (prepareKey hash salt) ikm ++
    macInputs hash (prepareKey hash (extract hash salt ikm).toList) (info ++ [1])

theorem expand_extract_inj {salt salt' ikm info info' : List UInt8}
    (hlength : salt.length = salt'.length) (hshort : salt.length ≤ blockSize)
    (collisionFree : CollisionFreeOn hash
      (hkdfInputs hash salt ikm info ++ hkdfInputs hash salt' ikm info'))
    (h : expand hash (extract hash salt ikm) info = expand hash (extract hash salt' ikm) info') :
    salt = salt' ∧ info = info' := by
  have sameLength : ∀ key key', (prepareKey hash key).length = (prepareKey hash key').length :=
    fun key key' => (length_prepareKey hash key).trans (length_prepareKey hash key').symm
  have hexpand := collisionFree.mono hash
    ((List.sublist_append_right _ _).append (List.sublist_append_right _ _)).subset
  obtain ⟨hprk, hinfo⟩ := macPrepared_inj hash (sameLength _ _) hexpand h
  have hextracted : extract hash salt ikm = extract hash salt' ikm := by
    have hdigests : (extract hash salt ikm).toList = (extract hash salt' ikm).toList :=
      prepareKey_inj hash (Vector.length_toList.trans Vector.length_toList.symm)
        (Vector.length_toList.trans_le (by decide)) hprk
    exact Vector.toList_inj.mp hdigests
  have hextract := collisionFree.mono hash
    ((List.sublist_append_left _ _).append (List.sublist_append_left _ _)).subset
  obtain ⟨hsalt, -⟩ := macPrepared_inj hash (sameLength _ _) hextract hextracted
  exact ⟨prepareKey_inj hash hlength hshort hsalt, List.append_cancel_right hinfo⟩

end Hmac
