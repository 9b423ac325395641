import LiteLlmSecurity.Error
import LiteLlmSecurity.Reference

/-!
# Zeroization at the end of a session

A session holds key bytes and a cache of floats. One call overwrites the buffers
that the policy names and records each overwriting in the tracker. Its three
mutable arguments are kept together as the memory it may write. Lengths are
natural numbers, since no slice has more than `isize::MAX` bytes.
-/

namespace LiteLlmSecurity

open Rust

structure ZeroizationPolicy where
  zeroizeKeysAfterUse : Bool
  zeroizeCacheOnEvict : Bool
  zeroizeSessionOnEnd : Bool
  deriving DecidableEq, Repr

structure ZeroizationEvent where
  resourceId : String
  bytesZeroized : Nat
  reason : String
  deriving DecidableEq, Repr

structure ZeroizationTracker where
  events : List ZeroizationEvent
  deriving DecidableEq, Repr

/-- `f32`, as its four bytes in memory. -/
abbrev F32 := Vector UInt8 4

/-- `0.0`. -/
def F32.zero : F32 := Vector.replicate 4 0

/-- The memory of a float slice, seen as bytes. -/
def f32Bytes (values : List F32) : Bytes := values.flatMap Vector.toList

/-- The same memory, seen as floats again. -/
def f32OfBytes : Bytes → List F32
  | a :: b :: c :: d :: rest => #v[a, b, c, d] :: f32OfBytes rest
  | _ => []

/-- What `zeroize_session_buffers` may write. -/
structure SessionMemory where
  tracker : ZeroizationTracker
  keyBuffer : Bytes
  kvBuffer : List F32
  deriving DecidableEq

section

variable (zeroize : Zeroize)

def secureZeroizeBytes (bytes : Bytes) : Bytes := zeroize.zeroize bytes

def secureZeroizeF32 (values : List F32) : List F32 :=
  f32OfBytes (zeroize.zeroize (f32Bytes values))

/-- The branch for the key buffer. -/
def SessionMemory.zeroizeKeys (memory : SessionMemory) (sessionId : String) : SessionMemory :=
  { memory with
    keyBuffer := secureZeroizeBytes zeroize memory.keyBuffer
    tracker.events := memory.tracker.events ++ [{
      resourceId := s!"session:{sessionId}:keys"
      bytesZeroized := memory.keyBuffer.length
      reason := "key-use-complete" }] }

/-- The branch for the cache, whose `size_of_val` is four bytes a float. -/
def SessionMemory.zeroizeKv (memory : SessionMemory) (sessionId : String) : SessionMemory :=
  { memory with
    kvBuffer := secureZeroizeF32 zeroize memory.kvBuffer
    tracker.events := memory.tracker.events ++ [{
      resourceId := s!"session:{sessionId}:kv"
      bytesZeroized := 4 * memory.kvBuffer.length
      reason := "session-end-or-evict" }] }

def zeroizeSessionBuffers (memory : SessionMemory) (sessionId : String)
    (policy : ZeroizationPolicy) : SecurityResult Unit × SessionMemory :=
  if trim sessionId = "" then (.error (.invalidInput "session_id must not be empty"), memory)
  else
    let memory :=
      if policy.zeroizeKeysAfterUse then memory.zeroizeKeys zeroize sessionId else memory
    let memory :=
      if policy.zeroizeCacheOnEvict || policy.zeroizeSessionOnEnd then
        memory.zeroizeKv zeroize sessionId
      else memory
    (.ok (), memory)

end

/-! ## The overwriting of one buffer -/

theorem length_f32Bytes (values : List F32) : (f32Bytes values).length = 4 * values.length := by
  induction values with
  | nil => rfl
  | cons value values ih =>
      rw [f32Bytes, List.flatMap_cons, List.length_append, Vector.length_toList,
        List.length_cons, ← f32Bytes, ih]
      omega

/-- The two views of a slice are of the same floats. -/
theorem f32OfBytes_f32Bytes (values : List F32) : f32OfBytes (f32Bytes values) = values := by
  induction values with
  | nil => rfl
  | cons value values ih =>
      obtain ⟨⟨bytes⟩, hsize⟩ := value
      obtain ⟨a, b, c, d, rfl⟩ := List.length_eq_four.mp hsize
      exact congrArg _ ih

theorem f32OfBytes_zeros (n : Nat) :
    f32OfBytes (List.replicate (4 * n) 0) = List.replicate n F32.zero := by
  induction n with
  | zero => rfl
  | succ n ih =>
      have hword : List.replicate (4 * (n + 1)) (0 : UInt8) =
          0 :: 0 :: 0 :: 0 :: List.replicate (4 * n) 0 := rfl
      rw [hword, f32OfBytes, ih, List.replicate_succ]
      rfl

theorem secureZeroizeBytes_eq (zeroize : Zeroize) (bytes : Bytes) :
    secureZeroizeBytes zeroize bytes = List.replicate bytes.length 0 :=
  zeroize.zeroize_eq bytes

/-- Overwriting the bytes of a float slice leaves as many zeros as it had floats. -/
theorem secureZeroizeF32_eq (zeroize : Zeroize) (values : List F32) :
    secureZeroizeF32 zeroize values = List.replicate values.length F32.zero := by
  rw [secureZeroizeF32, zeroize.zeroize_eq, length_f32Bytes, f32OfBytes_zeros]

/-! ## What the end of a session owes -/

/-- The policy names the key buffer: after use, or at the end of the session. -/
def ZeroizationPolicy.NamesKeys (policy : ZeroizationPolicy) : Prop :=
  policy.zeroizeKeysAfterUse = true ∨ policy.zeroizeSessionOnEnd = true

/-- The policy names the cache: on eviction, or at the end of the session. -/
def ZeroizationPolicy.NamesKv (policy : ZeroizationPolicy) : Prop :=
  policy.zeroizeCacheOnEvict = true ∨ policy.zeroizeSessionOnEnd = true

instance (policy : ZeroizationPolicy) : Decidable policy.NamesKeys :=
  inferInstanceAs (Decidable (_ ∨ _))

instance (policy : ZeroizationPolicy) : Decidable policy.NamesKv :=
  inferInstanceAs (Decidable (_ ∨ _))

/-- A buffer keeps its length, is all zero when it is named and as before when not. -/
structure ClearedWhen {α : Type} (named : Prop) (zero : α) (before buffer : List α) : Prop where
  length : buffer.length = before.length
  cleared : named → ∀ a ∈ buffer, a = zero
  kept : ¬ named → buffer = before

/-- The memory after a session end that clears the named buffers and no others, and
records one event for each of them, keys first. -/
structure SessionMemory.ClearedFor (before : SessionMemory) (sessionId : String)
    (policy : ZeroizationPolicy) (memory : SessionMemory) : Prop where
  keyBuffer : ClearedWhen policy.NamesKeys 0 before.keyBuffer memory.keyBuffer
  kvBuffer : ClearedWhen policy.NamesKv F32.zero before.kvBuffer memory.kvBuffer
  events : ∃ added, memory.tracker.events = before.tracker.events ++ added ∧
    added.map (fun event => (event.resourceId, event.bytesZeroized)) =
      (if policy.NamesKeys then [(s!"session:{sessionId}:keys", before.keyBuffer.length)]
        else []) ++
        if policy.NamesKv then [(s!"session:{sessionId}:kv", 4 * before.kvBuffer.length)] else []

/-- A successful call clears as above, and a failed one writes nothing. -/
def ClearsSession (before : SessionMemory) (sessionId : String) (policy : ZeroizationPolicy)
    (outcome : SecurityResult Unit × SessionMemory) : Prop :=
  (outcome.1 = .ok () → before.ClearedFor sessionId policy outcome.2) ∧
    ∀ error, outcome.1 = .error error → outcome.2 = before

/-! ## What it does -/

variable {zeroize : Zeroize}

/-- A buffer that is overwritten under a test is cleared when it is named, if the test
decides that. -/
theorem clearedWhen_ite {α : Type} {named test : Prop} [Decidable test] (zero : α)
    (before : List α) (h : named ↔ test) :
    ClearedWhen named zero before
      (if test then List.replicate before.length zero else before) := by
  by_cases holds : test
  · rw [if_pos holds]
    exact ⟨List.length_replicate, fun _ a hmem => List.eq_of_mem_replicate hmem,
      fun hnot => absurd (h.mpr holds) hnot⟩
  · rw [if_neg holds]
    exact ⟨rfl, fun hnamed => absurd (h.mp hnamed) holds, fun _ => rfl⟩

/-- The two branches of the call, one after the other. -/
theorem zeroizeSessionBuffers_of_named {sessionId : String} (hid : trim sessionId ≠ "")
    (before : SessionMemory) (policy : ZeroizationPolicy) :
    zeroizeSessionBuffers zeroize before sessionId policy =
      (.ok (),
        { keyBuffer :=
            if policy.zeroizeKeysAfterUse then List.replicate before.keyBuffer.length 0
            else before.keyBuffer
          kvBuffer :=
            if policy.NamesKv then List.replicate before.kvBuffer.length F32.zero
            else before.kvBuffer
          tracker.events := before.tracker.events ++
            ((if policy.zeroizeKeysAfterUse then
                [⟨s!"session:{sessionId}:keys", before.keyBuffer.length, "key-use-complete"⟩]
              else []) ++
              if policy.NamesKv then
                [⟨s!"session:{sessionId}:kv", 4 * before.kvBuffer.length, "session-end-or-evict"⟩]
              else []) }) := by
  have hkv : (policy.zeroizeCacheOnEvict || policy.zeroizeSessionOnEnd) = true ↔ policy.NamesKv :=
    Bool.or_eq_true_iff
  simp only [zeroizeSessionBuffers, if_neg hid, hkv]
  cases policy.zeroizeKeysAfterUse <;> by_cases named : policy.NamesKv <;>
    simp [named, SessionMemory.zeroizeKeys, SessionMemory.zeroizeKv, secureZeroizeBytes_eq,
      secureZeroizeF32_eq]

/-- A call does what a session end owes exactly when it is refused, or the policy
clears keys after use, or it does not clear at the end of the session: the key
buffer is looked at under the first flag alone. -/
theorem zeroizeSessionBuffers_clears_iff (before : SessionMemory) (sessionId : String)
    (policy : ZeroizationPolicy) :
    ClearsSession before sessionId policy
        (zeroizeSessionBuffers zeroize before sessionId policy) ↔
      trim sessionId = "" ∨ policy.zeroizeKeysAfterUse = true ∨
        policy.zeroizeSessionOnEnd = false := by
  by_cases hid : trim sessionId = ""
  · have refused : zeroizeSessionBuffers zeroize before sessionId policy =
        (.error (.invalidInput "session_id must not be empty"), before) := if_pos hid
    rw [refused]
    exact iff_of_true ⟨nofun, fun _ _ => rfl⟩ (.inl hid)
  · rw [zeroizeSessionBuffers_of_named hid before policy]
    constructor
    · intro clears
      obtain ⟨added, hadded, hevents⟩ := (clears.1 rfl).events
      rw [List.append_cancel_left_eq] at hadded
      have hcount := congrArg List.length hevents
      rw [← hadded] at hcount
      cases hkeys : policy.zeroizeKeysAfterUse with
      | true => exact .inr (.inl rfl)
      | false =>
          cases hend : policy.zeroizeSessionOnEnd with
          | false => exact .inr (.inr rfl)
          | true =>
              -- Two buffers are named and one event was recorded.
              simp [hkeys, hend, ZeroizationPolicy.NamesKeys, ZeroizationPolicy.NamesKv] at hcount
    · intro condition
      have hkeys : policy.NamesKeys ↔ policy.zeroizeKeysAfterUse = true := by
        refine ⟨fun named => named.elim id fun hend => ?_, .inl⟩
        rcases condition with hblank | hflag | hkept
        · exact absurd hblank hid
        · exact hflag
        · exact absurd hend (by simp [hkept])
      refine ⟨fun _ => ⟨clearedWhen_ite 0 _ hkeys, clearedWhen_ite F32.zero _ .rfl, _, rfl, ?_⟩,
        nofun⟩
      rw [List.map_append, apply_ite (List.map _), apply_ite (List.map _)]
      simp only [hkeys, List.map_cons, List.map_nil]

/-- Three key bytes and a cached `1.0`. -/
def openSession : SessionMemory := ⟨⟨[]⟩, [1, 2, 3], [#v[0x00, 0x00, 0x80, 0x3F]]⟩

/-- A policy that clears at the end of the session and not after use leaves the key
bytes. -/
theorem session_end_keeps_keys :
    ¬ ClearsSession openSession "s1" ⟨false, false, true⟩
      (zeroizeSessionBuffers Reference.zeroize openSession "s1" ⟨false, false, true⟩) := by
  intro clears
  have hkeys := (clears.1 rfl).keyBuffer.cleared (.inr rfl) 1 (by decide)
  exact absurd hkeys (by decide)

end LiteLlmSecurity
