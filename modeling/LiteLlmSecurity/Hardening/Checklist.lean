import LiteLlmSecurity.Collection.StableSort
import LiteLlmSecurity.Machine.Run
import LiteLlmSecurity.Rust.Single
import Mathlib.Data.String.Basic

/-!
# The hardening checklist

A checklist is a list of items that are marked as completed by their id, one call
at a time. A mark looks for the first item with the id, completed or not, and
leaves every other item alone.

After any calls, in any order and with repetitions, an item is completed if it was
from the start, or if its id was marked and no earlier item bears it. An item that
shares its id with an earlier one is therefore never completed by a call.
-/

namespace LiteLlmSecurity

open Rust Machine StableSort

inductive Threat where
  | supplyChainAttack
  | parameterTheft
  | sideChannel
  | privilegeEscalation
  | ddos
  | insiderThreat
  deriving DecidableEq, Repr

structure ChecklistItem where
  id : String
  threat : Threat
  description : String
  mitigation : String
  severity : UInt8
  completed : Bool
  deriving DecidableEq, Repr

structure HardeningChecklist where
  items : List ChecklistItem
  deriving DecidableEq, Repr

structure HardeningReport where
  totalItems : ℕ
  completedItems : ℕ
  coveragePercent : ℚ
  missingCritical : List String
  deriving DecidableEq, Repr

/-- The loop over the items, which returns at the first one with the id. -/
def markFirst (id : String) : List ChecklistItem → Bool × List ChecklistItem
  | [] => (false, [])
  | item :: items =>
      if item.id = id then (true, { item with completed := true } :: items)
      else
        let (found, items) := markFirst id items
        (found, item :: items)

namespace HardeningChecklist

def defaultItems : HardeningChecklist where
  items := [
    { id := "HC-001"
      threat := .supplyChainAttack
      description := "Verify model manifests and shard hashes"
      mitigation := "SPEC-052 integrity verification enabled"
      severity := 5
      completed := false },
    { id := "HC-002"
      threat := .parameterTheft
      description := "Encrypt persistent tiers and protect keys"
      mitigation := "SPEC-053 + SPEC-057 controls"
      severity := 5
      completed := false },
    { id := "HC-003"
      threat := .privilegeEscalation
      description := "Enforce RBAC and tier authorization"
      mitigation := "SPEC-055 access checks"
      severity := 4
      completed := false },
    { id := "HC-004"
      threat := .sideChannel
      description := "Minimize cross-tenant timing leakage"
      mitigation := "tenant quotas and sandbox isolation"
      severity := 4
      completed := false },
    { id := "HC-005"
      threat := .ddos
      description := "Apply request rate limiting and quotas"
      mitigation := "multi-tenant quota enforcement"
      severity := 3
      completed := false },
    { id := "HC-006"
      threat := .insiderThreat
      description := "Enable tamper-evident deterministic audit logs"
      mitigation := "SPEC-056 audit chain"
      severity := 4
      completed := false }]

def markCompleted (checklist : HardeningChecklist) (id : String) : Bool × HardeningChecklist :=
  let (found, items) := markFirst id checklist.items
  (found, { items })

/-- The share of completed items, in percent. -/
def coverage (completed total : ℕ) : ℚ :=
  if total = 0 then 100 else divF32 (mulF32 (asF32 completed) 100) (asF32 total)

def report (checklist : HardeningChecklist) : HardeningReport :=
  let total := checklist.items.length
  let completed := (checklist.items.filter (·.completed)).length
  let missingCritical := ((checklist.items.filter (¬ ·.completed)).filter (·.severity ≥ 4)).map
    (·.id)
  { totalItems := total
    completedItems := completed
    coveragePercent := coverage completed total
    missingCritical := sortByKey (fun id => id) missingCritical }

/-! ## Marking many ids -/

/-- The items after marks of some ids: the first item of each of them is completed. -/
def markAll (marks : String → Bool) : List ChecklistItem → List ChecklistItem
  | [] => []
  | item :: items =>
      { item with completed := item.completed || marks item.id } ::
        markAll (fun id => marks id && id ≠ item.id) items

theorem markAll_false (items : List ChecklistItem) : markAll (fun _ => false) items = items := by
  induction items with
  | nil => rfl
  | cons item items ih => simp [markAll, ih]

/-- One more mark after many, and what it answers. -/
theorem markFirst_markAll (id : String) (marks : String → Bool) (items : List ChecklistItem) :
    markFirst id (markAll marks items) =
      (decide (id ∈ items.map (·.id)), markAll (fun other => marks other || other = id) items) := by
  induction items generalizing marks with
  | nil => rfl
  | cons item items ih =>
      by_cases here : item.id = id
      · have others : (fun other => (marks other || other = id) && other ≠ item.id) =
            fun other => marks other && other ≠ item.id := by
          funext other
          by_cases heq : other = item.id <;> simp [heq, ← here]
        simp only [markAll, markFirst, here, if_true, List.map_cons, List.mem_cons, true_or,
          decide_true, Bool.or_true] at others ⊢
        rw [others]
      · have others : (fun other => (marks other || other = id) && !decide (other = item.id)) =
            fun other => (marks other && !decide (other = item.id)) || other = id := by
          funext other
          by_cases heq : other = id
          · subst heq
            simp [Ne.symm here]
          · simp [heq]
        simp [markAll, markFirst, here, Ne.symm here, ih, others]

/-- The item at an index, after the marks: completed if it was, or if its id is marked
and no earlier item bears it. -/
theorem getElem?_markAll (marks : String → Bool) (items : List ChecklistItem) (i : ℕ) :
    (markAll marks items)[i]? = items[i]?.map fun item =>
      { item with
        completed := item.completed ||
          (marks item.id && item.id ∉ (items.take i).map (·.id)) } := by
  induction items generalizing marks i with
  | nil => rfl
  | cons item items ih =>
      cases i with
      | zero => simp [markAll]
      | succ i => simp [markAll, ih, Bool.and_assoc]

/-! ## Runs -/

/-- One call on a checklist with marks. -/
theorem markCompleted_markAll (id : String) (marks : String → Bool) (items : List ChecklistItem) :
    markCompleted ⟨markAll marks items⟩ id =
      (decide (id ∈ items.map (·.id)),
        ⟨markAll (fun other => marks other || other = id) items⟩) := by
  rw [markCompleted, markFirst_markAll]

/-- A run marks its ids, whatever their order, and every call of it answers whether
the checklist has the id. -/
theorem run_markCompleted (checklist : HardeningChecklist) (ids : List String) :
    after markCompleted checklist ids = ⟨markAll (· ∈ ids) checklist.items⟩ ∧
      ∀ entry ∈ history markCompleted checklist ids,
        entry.2 = decide (entry.1 ∈ checklist.items.map (·.id)) := by
  suffices general : ∀ marks : String → Bool,
      after markCompleted ⟨markAll marks checklist.items⟩ ids =
          ⟨markAll (fun id => marks id || id ∈ ids) checklist.items⟩ ∧
        ∀ entry ∈ history markCompleted ⟨markAll marks checklist.items⟩ ids,
          entry.2 = decide (entry.1 ∈ checklist.items.map (·.id)) by
    simpa [markAll_false] using general fun _ => false
  induction ids with
  | nil => simp
  | cons id ids ih =>
      intro marks
      obtain ⟨hstate, hreplies⟩ := ih fun other => marks other || other = id
      rw [after_cons, history_cons, markCompleted_markAll, List.forall_mem_cons]
      refine ⟨?_, rfl, hreplies⟩
      simpa only [List.mem_cons, Bool.decide_or, Bool.or_assoc] using hstate

/-- After any calls the items are those from the start, at their indices and with
their data. One of them is completed if it was, or if its id was marked and no
earlier item bears it. The calls answered whether an item has the id. -/
theorem items_after_marks (checklist : HardeningChecklist) (ids : List String) :
    (∀ i : ℕ, (after markCompleted checklist ids).items[i]? =
      checklist.items[i]?.map fun item =>
        { item with
          completed := item.completed ||
            decide (item.id ∈ ids ∧ item.id ∉ (checklist.items.take i).map (·.id)) }) ∧
      ∀ entry ∈ history markCompleted checklist ids,
        entry.2 = decide (entry.1 ∈ checklist.items.map (·.id)) := by
  obtain ⟨hstate, hreplies⟩ := run_markCompleted checklist ids
  refine ⟨fun i => ?_, hreplies⟩
  rw [hstate, getElem?_markAll]
  simp only [Bool.decide_and]

/-- Without two items of one id the marks need not look at earlier items. -/
theorem markAll_of_nodup {items : List ChecklistItem} (nodup : (items.map (·.id)).Nodup)
    (marks : String → Bool) :
    markAll marks items =
      items.map fun item => { item with completed := item.completed || marks item.id } := by
  induction items generalizing marks with
  | nil => rfl
  | cons item items ih =>
      rw [List.map_cons, List.nodup_cons] at nodup
      rw [markAll, List.map_cons, ih nodup.2]
      congr 1
      refine List.map_congr_left fun later hmem => ?_
      have hne : later.id ≠ item.id := fun h => nodup.1 (h ▸ List.mem_map_of_mem hmem)
      simp [hne]

end HardeningChecklist

end LiteLlmSecurity
