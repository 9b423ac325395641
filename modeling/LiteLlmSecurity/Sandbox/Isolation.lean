import LiteLlmSecurity.Machine.Isolation
import LiteLlmSecurity.Sandbox.Soundness
import LiteLlmSecurity.Text.Separator

/-!
# Plugins that share a runtime

The tokens of all plugins are in one table, under hashes. What is stored under some ids
is changed only by grants that compute one of them and by revocations of them, so the
runs of two plugins can only meet where their grants share a hash. The hashed text
determines the grant: three decimals stand behind the last three bars. Unless FNV
collides on the texts of a run, the checks of a plugin are therefore those of a run in
which the other plugins never appeared.
-/

namespace LiteLlmSecurity

open Rust Machine

/-- The text whose hash is the id of a grant's token. -/
def grantText (pluginId : String) (nowStep ttlSteps seed : UInt64) : String :=
  s!"{pluginId}|{nowStep}|{ttlSteps}|{seed}"

/-- The last three bars stand before decimals. -/
theorem pluginId_eq_of_grantText_eq {pluginId pluginId' : String}
    {nowStep nowStep' ttlSteps ttlSteps' seed seed' : UInt64}
    (h : grantText pluginId nowStep ttlSteps seed = grantText pluginId' nowStep' ttlSteps' seed') :
    pluginId = pluginId' := by
  have nobar : ∀ n : Nat, '|' ∉ n.repr.toList := Decimal.notMem_repr (by decide)
  have htext := congrArg String.toList h
  simp only [grantText, toString_string, toString_uint64, String.toList_append] at htext
  have hseed : (pluginId.toList ++ '|' :: nowStep.toNat.repr.toList ++
        '|' :: ttlSteps.toNat.repr.toList) ++ '|' :: seed.toNat.repr.toList =
      (pluginId'.toList ++ '|' :: nowStep'.toNat.repr.toList ++
        '|' :: ttlSteps'.toNat.repr.toList) ++ '|' :: seed'.toNat.repr.toList := by
    simpa using htext
  obtain ⟨httl, -⟩ := Separator.append_cons_inj_right hseed (nobar _) (nobar _)
  obtain ⟨hnow, -⟩ := Separator.append_cons_inj_right httl (nobar _) (nobar _)
  obtain ⟨hplugin, -⟩ := Separator.append_cons_inj_right hnow (nobar _) (nobar _)
  exact String.toList_inj.mp hplugin

namespace SandboxOperation

/-- The text that a grant hashes. -/
def hashedText : SandboxOperation → Option String
  | .grantCapabilities pluginId _ nowStep ttlSteps seed =>
      some (grantText pluginId nowStep ttlSteps seed)
  | _ => none

/-- The id of the token that a grant to the plugin asks for. -/
def grantedId (pluginId : String) : SandboxOperation → Option String
  | .grantCapabilities other _ nowStep ttlSteps seed =>
      if other = pluginId then some (tokenIdOf other nowStep ttlSteps seed) else none
  | _ => none

/-- The operation computes or revokes one of the ids. -/
def Concerns (ids : List String) : SandboxOperation → Prop
  | .grantCapabilities pluginId _ nowStep ttlSteps seed =>
      tokenIdOf pluginId nowStep ttlSteps seed ∈ ids
  | .revokeToken tokenId => tokenId ∈ ids
  | _ => False

/-- The operation grants to the plugin, or revokes one of the ids. -/
def Serves (pluginId : String) (ids : List String) : SandboxOperation → Prop
  | .grantCapabilities other .. => other = pluginId
  | .revokeToken tokenId => tokenId ∈ ids
  | _ => False

instance (ids : List String) : DecidablePred (Concerns ids) := fun operation => by
  cases operation <;> unfold Concerns <;> infer_instance

instance (pluginId : String) (ids : List String) : DecidablePred (Serves pluginId ids) :=
  fun operation => by cases operation <;> unfold Serves <;> infer_instance

end SandboxOperation

namespace SandboxRuntime

open SandboxOperation

variable {checks : OverflowChecks}

/-! ## The tokens under some ids -/

/-- What an operation makes of an id, if anything: a token, or none. -/
def overwritten (checks : OverflowChecks) (tokenId : String) :
    SandboxOperation → Option (Option CapabilityToken)
  | .grantCapabilities pluginId capabilities nowStep ttlSteps seed =>
      if ¬ GrantFails checks pluginId nowStep ttlSteps ∧
          tokenIdOf pluginId nowStep ttlSteps seed = tokenId then
        some (some (grantedToken pluginId capabilities nowStep ttlSteps seed))
      else none
  | .revokeToken other => if other = tokenId then some none else none
  | _ => none

theorem table_step_apply (runtime : SandboxRuntime) (operation : SandboxOperation)
    (tokenId : String) :
    (step checks runtime operation).2.table tokenId =
      (overwritten checks tokenId operation).getD (runtime.table tokenId) := by
  cases operation with
  | configure config =>
      simp only [step, configure]
      split <;> rfl
  | grantCapabilities pluginId capabilities nowStep ttlSteps seed =>
      by_cases fails : GrantFails checks pluginId nowStep ttlSteps
      · obtain ⟨fault, hfault⟩ := grantCapabilities_of_fails checks fails runtime capabilities seed
        simp [step, hfault, overwritten, fails]
      · simp only [step, grantCapabilities_of_not_fails checks fails, overwritten, Prod.map_snd, id,
          table, Std.ExtTreeMap.getElem?_insert, fails, not_false_eq_true, true_and]
        by_cases here : tokenIdOf pluginId nowStep ttlSteps seed = tokenId <;> simp [here]
  | recordUsage pluginId usage =>
      simp only [step, recordUsage]
      split
      · rfl
      · split
        · rfl
        · split <;> rfl
  | revokeToken other =>
      simp only [step, revokeToken, overwritten, table, Std.ExtTreeMap.getElem?_erase]
      by_cases here : other = tokenId <;> simp [here]

theorem overwritten_of_not_concerns {ids : List String} {operation : SandboxOperation}
    (unconcerned : ¬ operation.Concerns ids) {tokenId : String} (hid : tokenId ∈ ids) :
    overwritten checks tokenId operation = none := by
  cases operation with
  | configure => rfl
  | recordUsage => rfl
  | grantCapabilities pluginId capabilities nowStep ttlSteps seed =>
      refine if_neg ?_
      rintro ⟨-, rfl⟩
      exact unconcerned hid
  | revokeToken other =>
      refine if_neg ?_
      rintro rfl
      exact unconcerned hid

/-- What is stored under some ids is isolated under the operations that concern them. -/
theorem tokens_isolated (checks : OverflowChecks) (ids : List String) :
    Isolated (step checks) (fun runtime => ids.map runtime.table) (Concerns ids) where
  frame runtime operation unconcerned := by
    refine List.map_congr_left fun tokenId hid => ?_
    rw [table_step_apply, overwritten_of_not_concerns unconcerned hid, Option.getD_none]
  reply_eq runtime other operation concerned _ := by
    cases operation with
    | configure => exact concerned.elim
    | recordUsage => exact concerned.elim
    | revokeToken => rfl
    | grantCapabilities pluginId capabilities nowStep ttlSteps seed =>
        have replies : (grantCapabilities checks runtime pluginId capabilities nowStep ttlSteps
            seed).1 =
            (grantCapabilities checks other pluginId capabilities nowStep ttlSteps seed).1 := by
          unfold grantCapabilities
          split
          · rfl
          · split
            · rfl
            · dsimp only
              cases addU64 (ε := SecurityError) checks nowStep ttlSteps <;> rfl
        simp only [step, Prod.map_fst, replies]
  view_eq runtime other operation _ same := by
    refine List.map_congr_left fun tokenId hid => ?_
    rw [table_step_apply, table_step_apply, List.map_inj_left.mp same tokenId hid]

/-! ## One plugin and the others -/

/-- The ids of the tokens that grants to the plugin ask for. -/
def idsOf (pluginId : String) (operations : List SandboxOperation) : List String :=
  operations.filterMap (grantedId pluginId)

theorem mem_idsOf_of_grant {pluginId : String} {operations : List SandboxOperation}
    {capabilities : Finset Capability} {nowStep ttlSteps seed : UInt64}
    (h : .grantCapabilities pluginId capabilities nowStep ttlSteps seed ∈ operations) :
    tokenIdOf pluginId nowStep ttlSteps seed ∈ idsOf pluginId operations :=
  List.mem_filterMap.mpr ⟨_, h, if_pos rfl⟩

theorem exists_grant_of_mem_idsOf {pluginId tokenId : String} {operations : List SandboxOperation}
    (h : tokenId ∈ idsOf pluginId operations) :
    ∃ capabilities nowStep ttlSteps seed,
      .grantCapabilities pluginId capabilities nowStep ttlSteps seed ∈ operations ∧
        tokenIdOf pluginId nowStep ttlSteps seed = tokenId := by
  obtain ⟨operation, hmem, hid⟩ := List.mem_filterMap.mp h
  cases operation with
  | configure => cases hid
  | recordUsage => cases hid
  | revokeToken => cases hid
  | grantCapabilities other capabilities nowStep ttlSteps seed =>
      obtain ⟨rfl, hsame⟩ := Option.ite_none_right_eq_some.mp hid
      exact ⟨capabilities, nowStep, ttlSteps, seed, hmem, Option.some.inj hsame⟩

/-- The texts that the grants of a run hash. -/
def hashedTexts (operations : List SandboxOperation) : Set String :=
  {text | ∃ operation ∈ operations, operation.hashedText = some text}

/-- Without collisions an operation concerns the ids of a plugin when it serves it. -/
theorem concerns_iff_serves {operations : List SandboxOperation}
    (collisionFree : Set.InjOn (fun text => fnv64Hex (asBytes text)) (hashedTexts operations))
    (pluginId : String) {operation : SandboxOperation} (hmem : operation ∈ operations) :
    operation.Concerns (idsOf pluginId operations) ↔
      operation.Serves pluginId (idsOf pluginId operations) := by
  cases operation with
  | configure => exact .rfl
  | recordUsage => exact .rfl
  | revokeToken => exact .rfl
  | grantCapabilities other capabilities nowStep ttlSteps seed =>
      constructor
      · intro hid
        obtain ⟨_, nowStep', ttlSteps', seed', hgrant, hsame⟩ := exists_grant_of_mem_idsOf hid
        exact (pluginId_eq_of_grantText_eq
          (collisionFree ⟨_, hgrant, rfl⟩ ⟨_, hmem, rfl⟩ hsame)).symm
      · rintro rfl
        exact mem_idsOf_of_grant hmem

/-- A check that succeeds is of an id that a grant to the plugin asked for. -/
theorem mem_idsOf_of_validateCapability {operations : List SandboxOperation}
    {tokenId pluginId : String} {capability : Capability} {nowStep : UInt64}
    (h : validateCapability (after (step checks) empty operations) tokenId pluginId capability
      nowStep = .ok ()) : tokenId ∈ idsOf pluginId operations := by
  obtain ⟨token, hstored, hpermitted⟩ := exists_stored_of_validateCapability h
  obtain ⟨earlier, later, owner, capabilities, grantStep, ttlSteps, seed, hhistory, rfl, rfl, -⟩ :=
    exists_last_grant hstored
  obtain ⟨rfl, -, -⟩ := toNat_le_of_mem_permissions hpermitted
  have hcall := mem_of_mem_history (step checks)
    (hhistory ▸ List.mem_append_right earlier List.mem_cons_self)
  exact mem_idsOf_of_grant hcall

/-- The checks of a plugin are those of the run without all configurations, usage, grants
to other plugins and revocations of ids that no grant to it asked for. On the ids of its
grants every answer is the same, errors included, and on other ids no check succeeds.
Assumed: FNV does not collide on the texts that the grants of the run hash. -/
theorem validateCapability_without_others (checks : OverflowChecks)
    (operations : List SandboxOperation)
    (collisionFree : Set.InjOn (fun text => fnv64Hex (asBytes text)) (hashedTexts operations))
    (pluginId : String) :
    let ids := idsOf pluginId operations
    let alone := operations.filter (Serves pluginId ids)
    ∀ tokenId capability nowStep,
      (tokenId ∈ ids →
        validateCapability (after (step checks) empty operations) tokenId pluginId capability
            nowStep =
          validateCapability (after (step checks) empty alone) tokenId pluginId capability
            nowStep) ∧
      (validateCapability (after (step checks) empty operations) tokenId pluginId capability
            nowStep = .ok () ↔
        validateCapability (after (step checks) empty alone) tokenId pluginId capability
            nowStep = .ok ()) := by
  intro ids alone tokenId capability nowStep
  have sameRun : operations.filter (Concerns ids) = alone :=
    List.filter_congr fun operation hmem =>
      decide_eq_decide.mpr (concerns_iff_serves collisionFree pluginId hmem)
  have sameTokens := ((tokens_isolated checks ids).purge (s := empty) rfl operations).1
  rw [sameRun] at sameTokens
  have onIds : tokenId ∈ ids →
      validateCapability (after (step checks) empty operations) tokenId pluginId capability
          nowStep =
        validateCapability (after (step checks) empty alone) tokenId pluginId capability
          nowStep := by
    intro hid
    have hstored : (after (step checks) empty operations).tokens[tokenId]? =
        (after (step checks) empty alone).tokens[tokenId]? :=
      List.map_inj_left.mp sameTokens tokenId hid
    rw [validateCapability, validateCapability, hstored]
  refine ⟨onIds, fun hok => ?_, fun hok => ?_⟩
  · rw [← onIds (mem_idsOf_of_validateCapability hok)]
    exact hok
  · have hid : tokenId ∈ ids :=
      (List.filter_sublist.filterMap _).subset (mem_idsOf_of_validateCapability hok)
    rw [onIds hid]
    exact hok

/-- Two plugins with a token each, and the revocation of one of them. -/
def sharedRun : List SandboxOperation := [
  .grantCapabilities "plugin-a" {.readTensor} 10 5 1,
  .grantCapabilities "plugin-b" {.network} 10 5 1,
  .revokeToken (tokenIdOf "plugin-b" 10 5 1)]

theorem validateCapability_without_pluginB :
    validateCapability (after (step .on) empty sharedRun) (tokenIdOf "plugin-a" 10 5 1)
        "plugin-a" .readTensor 15 =
      validateCapability (after (step .on) empty
          (sharedRun.filter (Serves "plugin-a" (idsOf "plugin-a" sharedRun))))
        (tokenIdOf "plugin-a" 10 5 1) "plugin-a" .readTensor 15 := by
  have htexts : hashedTexts sharedRun = {"plugin-a|10|5|1", "plugin-b|10|5|1"} := by
    ext text
    have ha : grantText "plugin-a" 10 5 1 = "plugin-a|10|5|1" := by decide
    have hb : grantText "plugin-b" 10 5 1 = "plugin-b|10|5|1" := by decide
    simp [hashedTexts, sharedRun, hashedText, ha, hb, eq_comm]
  have apart : fnv64Hex (asBytes "plugin-a|10|5|1") ≠ fnv64Hex (asBytes "plugin-b|10|5|1") := by
    decide
  have collisionFree :
      Set.InjOn (fun text => fnv64Hex (asBytes text)) (hashedTexts sharedRun) := by
    rw [htexts]
    exact Set.injOn_pair.mpr fun h => absurd h apart
  have hid : tokenIdOf "plugin-a" 10 5 1 ∈ idsOf "plugin-a" sharedRun :=
    mem_idsOf_of_grant (List.mem_cons_self (l := [_, _]))
  exact (validateCapability_without_others .on sharedRun collisionFree "plugin-a" _ _ _).1 hid

end SandboxRuntime

end LiteLlmSecurity
