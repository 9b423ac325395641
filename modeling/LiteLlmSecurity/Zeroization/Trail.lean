import LiteLlmSecurity.Machine.Run
import LiteLlmSecurity.Text.Separator
import LiteLlmSecurity.Zeroization.Session

/-!
# The trail of a tracker over many sessions

One tracker is handed to the session ends of many sessions, each with its own
buffers. It only grows, and it tells exactly what was overwritten: a buffer that a
call changed has an event under the session and the kind of the buffer, and an
event is of a call that left the buffer of that session and kind all zeros. Calls
that are refused leave no event.
-/

namespace LiteLlmSecurity

open Rust Machine

/-- The two buffers of a session. -/
inductive SessionBuffer where
  | keys
  | kv
  deriving DecidableEq, Repr

/-- The last part of the resource id of a buffer. -/
def SessionBuffer.label : SessionBuffer → String
  | .keys => "keys"
  | .kv => "kv"

def SessionBuffer.resourceId (buffer : SessionBuffer) (sessionId : String) : String :=
  s!"session:{sessionId}:{buffer.label}"

def SessionBuffer.reason : SessionBuffer → String
  | .keys => "key-use-complete"
  | .kv => "session-end-or-evict"

/-- The flags under which the code overwrites a buffer. -/
def ZeroizationPolicy.clears (policy : ZeroizationPolicy) : SessionBuffer → Bool
  | .keys => policy.zeroizeKeysAfterUse
  | .kv => policy.zeroizeCacheOnEvict || policy.zeroizeSessionOnEnd

/-- The arguments of a call but the tracker. -/
structure SessionCall where
  sessionId : String
  keyBuffer : Bytes
  kvBuffer : List F32
  policy : ZeroizationPolicy

/-- What a call returns, and what it left in the buffers. -/
structure SessionReply where
  result : SecurityResult Unit
  keyBuffer : Bytes
  kvBuffer : List F32

/-- The memory of a buffer before a call. -/
def SessionCall.memory (call : SessionCall) : SessionBuffer → Bytes
  | .keys => call.keyBuffer
  | .kv => f32Bytes call.kvBuffer

/-- The memory of a buffer after a call. -/
def SessionReply.memory (reply : SessionReply) : SessionBuffer → Bytes
  | .keys => reply.keyBuffer
  | .kv => f32Bytes reply.kvBuffer

/-- A call on the tracker that all calls share. -/
def ZeroizationTracker.step (zeroize : Zeroize) (tracker : ZeroizationTracker)
    (call : SessionCall) : SessionReply × ZeroizationTracker :=
  let (result, memory) := zeroizeSessionBuffers zeroize ⟨tracker, call.keyBuffer, call.kvBuffer⟩
    call.sessionId call.policy
  (⟨result, memory.keyBuffer, memory.kvBuffer⟩, memory.tracker)

namespace SessionCall

variable (call : SessionCall) (buffer : SessionBuffer)

/-- The call is not refused and its policy clears the buffer. -/
def overwrites : Bool := trim call.sessionId ≠ "" && call.policy.clears buffer

def event : ZeroizationEvent where
  resourceId := buffer.resourceId call.sessionId
  bytesZeroized := (call.memory buffer).length
  reason := buffer.reason

/-- The events of the buffers that are overwritten, keys first. -/
def events : List ZeroizationEvent :=
  ([SessionBuffer.keys, .kv].filter call.overwrites).map call.event

theorem mem_events {call : SessionCall} {event : ZeroizationEvent} :
    event ∈ call.events ↔ ∃ buffer, call.overwrites buffer = true ∧ call.event buffer = event := by
  rw [events, List.mem_map]
  refine exists_congr fun buffer => and_congr_left fun _ => ?_
  rw [List.mem_filter]
  exact and_iff_right (by cases buffer <;> simp)

end SessionCall

namespace ZeroizationTracker

variable {zeroize : Zeroize}

/-! ## One call -/

theorem f32Bytes_replicate_zero (n : Nat) :
    f32Bytes (List.replicate n F32.zero) = List.replicate (4 * n) 0 := by
  induction n with
  | zero => rfl
  | succ n ih =>
      rw [List.replicate_succ, f32Bytes, List.flatMap_cons, ← f32Bytes, ih, Nat.mul_succ,
        Nat.add_comm, List.replicate_add]
      rfl

theorem overwrites_keys {call : SessionCall} (hid : trim call.sessionId ≠ "") :
    call.overwrites .keys = call.policy.zeroizeKeysAfterUse := by
  simp [SessionCall.overwrites, hid, ZeroizationPolicy.clears]

theorem overwrites_kv {call : SessionCall} (hid : trim call.sessionId ≠ "") :
    call.overwrites .kv = true ↔ call.policy.NamesKv := by
  simp [SessionCall.overwrites, hid, ZeroizationPolicy.clears, ZeroizationPolicy.NamesKv]

theorem overwrites_of_refused {call : SessionCall} (hid : trim call.sessionId = "")
    (buffer : SessionBuffer) : call.overwrites buffer = false := by
  simp [SessionCall.overwrites, hid]

/-- What a call does to the tracker and to the two buffers. -/
theorem step_spec (tracker : ZeroizationTracker) (call : SessionCall) :
    (step zeroize tracker call).2.events = tracker.events ++ call.events ∧
      ∀ buffer, (step zeroize tracker call).1.memory buffer =
          (if call.overwrites buffer then List.replicate (call.memory buffer).length 0
            else call.memory buffer) ∧
        (call.overwrites buffer = true → (step zeroize tracker call).1.result = .ok ()) := by
  by_cases hid : trim call.sessionId = ""
  · have hnone := overwrites_of_refused hid
    rw [step, zeroizeSessionBuffers, if_pos hid]
    refine ⟨by simp [SessionCall.events, hnone], fun buffer => ⟨?_, ?_⟩⟩
    · rw [hnone, if_neg Bool.false_ne_true]
      cases buffer <;> rfl
    · intro h
      exact absurd h (by simp [hnone])
  · have hkeys := overwrites_keys hid
    have hkv := overwrites_kv hid
    rw [step, zeroizeSessionBuffers_of_named hid]
    refine ⟨?_, fun buffer => ⟨?_, fun _ => rfl⟩⟩
    · refine congrArg (tracker.events ++ ·) ?_
      simp only [SessionCall.events, List.filter_cons, List.filter_nil, hkeys, hkv]
      split <;> split <;>
        simp [SessionCall.event, SessionBuffer.resourceId, SessionBuffer.label,
          SessionBuffer.reason, SessionCall.memory, length_f32Bytes, String.append_assoc]
    · cases buffer with
      | keys => simp only [SessionReply.memory, SessionCall.memory, hkeys]
      | kv =>
          simp only [SessionReply.memory, SessionCall.memory, hkv, length_f32Bytes]
          split
          · exact f32Bytes_replicate_zero _
          · rfl

/-! ## Runs -/

/-- The label stands behind the last colon, and the session id in front of it. -/
theorem resourceId_inj {buffer buffer' : SessionBuffer} {sessionId sessionId' : String} :
    buffer.resourceId sessionId = buffer'.resourceId sessionId' ↔
      buffer = buffer' ∧ sessionId = sessionId' := by
  constructor
  · intro h
    have nocolon : ∀ buffer : SessionBuffer, ':' ∉ buffer.label.toList := by
      intro buffer
      cases buffer <;> decide
    have htext : ("session:".toList ++ sessionId.toList) ++ ':' :: buffer.label.toList =
        ("session:".toList ++ sessionId'.toList) ++ ':' :: buffer'.label.toList := by
      simpa [SessionBuffer.resourceId] using congrArg String.toList h
    obtain ⟨hfront, hlabel⟩ :=
      Separator.append_cons_inj_right htext (nocolon buffer) (nocolon buffer')
    refine ⟨?_, String.toList_inj.mp (List.append_cancel_left hfront)⟩
    cases buffer <;> cases buffer' <;> first | rfl | exact absurd hlabel (by decide)
  · rintro ⟨rfl, rfl⟩
    rfl

/-- The events of the calls are added in their order. -/
theorem events_after (tracker : ZeroizationTracker) (calls : List SessionCall) :
    (after (step zeroize) tracker calls).events =
      tracker.events ++ calls.flatMap SessionCall.events := by
  induction calls generalizing tracker with
  | nil => simp
  | cons call calls ih =>
      rw [after_cons, ih, (step_spec tracker call).1, List.flatMap_cons, List.append_assoc]

/-- The trail of a run. A buffer that a call changed has an event under the session
and the kind of the buffer, with its size. An event under a session and a kind is of a
call for that session, which succeeded and left that many zero bytes in the buffer. -/
theorem trail_of_session (zeroize : Zeroize) (tracker : ZeroizationTracker)
    (calls : List SessionCall) :
    ∃ added, (after (step zeroize) tracker calls).events = tracker.events ++ added ∧
      ∀ (buffer : SessionBuffer) (sessionId : String),
        (∀ entry ∈ history (step zeroize) tracker calls, entry.1.sessionId = sessionId →
          entry.2.memory buffer ≠ entry.1.memory buffer →
          ∃ event ∈ added, event.resourceId = buffer.resourceId sessionId ∧
            event.bytesZeroized = (entry.1.memory buffer).length) ∧
        ∀ event ∈ added, event.resourceId = buffer.resourceId sessionId →
          ∃ entry ∈ history (step zeroize) tracker calls, entry.1.sessionId = sessionId ∧
            entry.2.result = .ok () ∧
            entry.2.memory buffer = List.replicate event.bytesZeroized 0 := by
  refine ⟨_, events_after tracker calls, fun buffer sessionId => ⟨?_, ?_⟩⟩
  · rintro entry hentry rfl changed
    obtain ⟨t, hreply⟩ := exists_reply_of_mem_history _ hentry
    have overwrites : entry.1.overwrites buffer = true := by
      by_contra hkept
      rw [← hreply, ((step_spec t entry.1).2 buffer).1, if_neg hkept] at changed
      exact changed rfl
    exact ⟨entry.1.event buffer, List.mem_flatMap.mpr ⟨entry.1, mem_of_mem_history _ hentry,
      SessionCall.mem_events.mpr ⟨buffer, overwrites, rfl⟩⟩, rfl, rfl⟩
  · intro event hevent hresource
    obtain ⟨call, hcall, hmem⟩ := List.mem_flatMap.mp hevent
    obtain ⟨other, overwrites, rfl⟩ := SessionCall.mem_events.mp hmem
    obtain ⟨rfl, hsession⟩ := resourceId_inj.mp hresource
    rw [← map_fst_history (step zeroize) tracker calls, List.mem_map] at hcall
    obtain ⟨entry, hentry, rfl⟩ := hcall
    obtain ⟨t, hreply⟩ := exists_reply_of_mem_history _ hentry
    obtain ⟨hmemory, hresult⟩ := (step_spec t entry.1).2 other
    rw [hreply] at hmemory hresult
    rw [if_pos overwrites] at hmemory
    exact ⟨entry, hentry, hsession, hresult overwrites, hmemory⟩

end ZeroizationTracker

end LiteLlmSecurity
