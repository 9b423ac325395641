import LiteLlmSecurity.Hardening.Checklist

/-!
# Reports along a run

Marks only complete items, so the coverage of a report never goes down and critical
items only leave it. The coverage is computed in single precision. It never exceeds
100 by more than the last bit, and up to 671088 items it is 100 exactly when all
items are completed: there `completed * 100` has at most 24 bits before its trailing
zeros, and one item more or less is much more than the last bit of the quotient.
-/

namespace LiteLlmSecurity

open Rust Machine StableSort Nearest

namespace HardeningChecklist

/-! ## The quotient -/

variable {completed completed' total : ℕ}

theorem mulF32_hundred_nonneg (completed : ℕ) : 0 ≤ mulF32 (asF32 completed) 100 :=
  roundTo_nonneg (mul_nonneg (asF32_nonneg completed) (by norm_num))

theorem coverage_nonneg (completed total : ℕ) : 0 ≤ coverage completed total := by
  unfold coverage
  split
  · norm_num
  · exact roundTo_nonneg (div_nonneg (mulF32_hundred_nonneg completed) (asF32_nonneg total))

theorem coverage_mono (h : completed ≤ completed') :
    coverage completed total ≤ coverage completed' total := by
  unfold coverage
  split
  · exact le_rfl
  · have hcount := asF32_mono h
    have hproduct : mulF32 (asF32 completed) 100 ≤ mulF32 (asF32 completed') 100 :=
      roundTo_mono (mul_nonneg (asF32_nonneg completed) (by norm_num)) (by gcongr)
    have htotal := asF32_nonneg total
    exact roundTo_mono (div_nonneg (mulF32_hundred_nonneg completed) htotal) (by gcongr)

/-- The two roundings of a full list raise the quotient by less than its last bit. -/
theorem coverage_le (h : completed ≤ total) : coverage completed total ≤ 100 + 1 / 2 ^ 17 := by
  refine (coverage_mono h).trans ?_
  unfold coverage
  split
  · norm_num
  · next hne =>
      have hpos : 0 < asF32 total := zero_lt_one.trans_le (one_le_asF32 hne)
      have hproduct : mulF32 (asF32 total) 100 ≤ asF32 total * 100 * (1 + 1 / 2 ^ 24) :=
        roundTo_le_mul 24 (by positivity)
      refine roundTo_le (div_nonneg (mulF32_hundred_nonneg total) hpos.le)
        ⟨13107201, -17, by decide, by norm_num⟩ ?_
      rw [div_le_iff₀ hpos]
      linarith

/-! ## Lists on which it is exact -/

/-- A hundredfold of such a count has 24 bits and two zeros. -/
theorem mulF32_hundred (h : completed ≤ 671088) :
    mulF32 (asF32 completed) 100 = completed * 100 := by
  rw [asF32_eq (by omega)]
  refine roundTo_of_hasBits ⟨25 * completed, 2, by omega, ?_⟩
  push_cast
  ring

theorem coverage_self (hsize : total ≤ 671088) : coverage total total = 100 := by
  unfold coverage
  split
  · rfl
  · next hne =>
      have hpos : (0 : ℚ) < total := by exact_mod_cast Nat.pos_of_ne_zero hne
      rw [mulF32_hundred hsize, asF32_eq (by omega), divF32, mul_comm,
        mul_div_cancel_right₀ _ hpos.ne']
      exact roundTo_of_hasBits ⟨100, 0, by decide, by norm_num⟩

theorem coverage_lt (hsize : total ≤ 671088) (h : completed < total) :
    coverage completed total < 100 := by
  have hpos : (0 : ℚ) < total := by exact_mod_cast Nat.zero_lt_of_lt h
  have hone : (completed : ℚ) + 1 ≤ total := by exact_mod_cast h
  have hmany : (total : ℚ) ≤ 671088 := by exact_mod_cast hsize
  have hbound : (completed : ℚ) * 100 / total ≤ 100 - 1 / 2 ^ 17 := by
    rw [div_le_iff₀ hpos]
    linarith
  have hround : coverage completed total ≤ 100 - 1 / 2 ^ 17 := by
    rw [coverage, if_neg (by omega), mulF32_hundred (by omega), asF32_eq (by omega)]
    exact roundTo_le (by positivity) ⟨13107199, -17, by decide, by norm_num⟩ hbound
  exact hround.trans_lt (by norm_num)

theorem coverage_eq_hundred_iff (hsize : total ≤ 671088) (h : completed ≤ total) :
    coverage completed total = 100 ↔ completed = total := by
  constructor
  · intro hfull
    exact h.eq_of_not_lt fun hlt => (coverage_lt hsize hlt).ne hfull
  · rintro rfl
    exact coverage_self hsize

/-- One item more, and a completed list is reported at less than 100. -/
example : coverage 671089 671089 < 100 := by decide +kernel

/-! ## The range of the floats -/

/-- For counts of 64 bits no float on the way is subnormal or overflows. -/
theorem coverage_inF32Range (hpos : completed ≠ 0) (h : completed ≤ total)
    (htotal : total ≤ 2 ^ 64) :
    InF32Range (asF32 completed) ∧ InF32Range (mulF32 (asF32 completed) 100) ∧
      InF32Range (asF32 total) ∧ InF32Range (coverage completed total) := by
  have hleast := one_le_asF32 hpos
  have hcounts := asF32_mono h
  have hmost := asF32_le_two_pow htotal
  have hproduct : 64 ≤ mulF32 (asF32 completed) 100 :=
    le_roundTo (by norm_num) ⟨1, 6, by decide, by norm_num⟩ (by linarith)
  have hproduct' : mulF32 (asF32 completed) 100 ≤ 2 ^ 71 :=
    roundTo_le (by positivity) ⟨1, 71, by decide, by norm_num⟩ (by linarith)
  have hquotient : 1 / 2 ^ 58 ≤ coverage completed total := by
    rw [coverage, if_neg (by omega)]
    refine le_roundTo (by norm_num) ⟨1, -58, by decide, by norm_num⟩ ?_
    rw [le_div_iff₀ (by linarith)]
    linarith
  have hquotient' := coverage_le h
  refine ⟨⟨?_, ?_⟩, ⟨?_, ?_⟩, ⟨?_, ?_⟩, ?_, ?_⟩ <;> norm_num at * <;> linarith

/-! ## Reports of a run -/

theorem length_markAll (marks : String → Bool) (items : List ChecklistItem) :
    (markAll marks items).length = items.length := by
  induction items generalizing marks with
  | nil => rfl
  | cons item items ih => rw [markAll, List.length_cons, ih, List.length_cons]

theorem completed_le_markAll (marks : String → Bool) (items : List ChecklistItem) :
    (items.filter (·.completed)).length ≤ ((markAll marks items).filter (·.completed)).length := by
  induction items generalizing marks with
  | nil => exact le_rfl
  | cons item items ih =>
      have hrest := ih fun id => marks id && id ≠ item.id
      cases hcompleted : item.completed <;> cases hmarks : marks item.id <;>
        simp [markAll, hcompleted, hmarks] at hrest ⊢ <;> omega

/-- Marks never lower the coverage, and it is at most the float after 100. Up to
671088 items it is at most 100, and 100 exactly when all items are completed. -/
theorem coverage_after_marks (checklist : HardeningChecklist) (ids : List String) :
    let start := checklist.report
    let final := (after markCompleted checklist ids).report
    0 ≤ start.coveragePercent ∧ start.coveragePercent ≤ final.coveragePercent ∧
      final.coveragePercent ≤ 100 + 1 / 2 ^ 17 ∧
      (checklist.items.length ≤ 671088 → final.coveragePercent ≤ 100 ∧
        (final.coveragePercent = 100 ↔
          ∀ item ∈ (after markCompleted checklist ids).items, item.completed = true)) := by
  have hitems := (run_markCompleted checklist ids).1
  have hlength : (after markCompleted checklist ids).items.length = checklist.items.length := by
    rw [hitems, length_markAll]
  have hle := List.length_filter_le (·.completed) (after markCompleted checklist ids).items
  refine ⟨coverage_nonneg _ _, ?_, coverage_le hle, fun hsize => ?_⟩
  · show coverage _ _ ≤ coverage _ _
    rw [hlength, hitems]
    exact coverage_mono (completed_le_markAll _ _)
  · rw [← hlength] at hsize
    refine ⟨(coverage_mono hle).trans_eq (coverage_self hsize), ?_⟩
    rw [← List.length_filter_eq_length_iff]
    exact coverage_eq_hundred_iff hsize hle

theorem coverage_after_marks_default :
    (after markCompleted defaultItems
      ["HC-004", "HC-002", "HC-002", "HC-001", "HC-006", "HC-003", "HC-005"]).report.coveragePercent
      = 100 :=
  ((coverage_after_marks defaultItems _).2.2.2 (by decide)).2.mpr (by decide)

/-- The items with the marked ones completed. -/
def markIn (ids : List String) (items : List ChecklistItem) : List ChecklistItem :=
  items.map fun item => { item with completed := item.completed || item.id ∈ ids }

theorem completed_markIn (ids : List String) (items : List ChecklistItem) :
    ((markIn ids items).filter (·.completed)).length =
      (items.filter (·.completed)).length +
        ((items.filter (¬ ·.completed)).filter (·.id ∈ ids)).length := by
  induction items with
  | nil => rfl
  | cons item items ih =>
      rw [markIn, List.map_cons, ← markIn]
      cases hcompleted : item.completed <;> by_cases hmarked : item.id ∈ ids <;>
        simp [hcompleted, hmarked] at ih ⊢ <;> omega

theorem critical_markIn (ids : List String) (items : List ChecklistItem) :
    (((markIn ids items).filter (¬ ·.completed)).filter (·.severity ≥ 4)).map (·.id) =
      (((items.filter (¬ ·.completed)).filter (·.severity ≥ 4)).map (·.id)).filter (· ∉ ids) := by
  induction items with
  | nil => rfl
  | cons item items ih =>
      rw [markIn, List.map_cons, ← markIn]
      cases hcompleted : item.completed <;> by_cases hmarked : item.id ∈ ids <;>
        by_cases hcritical : item.severity ≥ 4 <;> simp [hcompleted, hmarked, hcritical] at ih ⊢ <;>
        exact ih

/-- With one item to an id, a run adds the open items whose ids it marks to the
completed ones, and takes exactly their ids out of the missing critical ones. -/
theorem report_after_marks (checklist : HardeningChecklist) (ids : List String)
    (nodup : (checklist.items.map (·.id)).Nodup) :
    let start := checklist.report
    let final := (after markCompleted checklist ids).report
    final.totalItems = start.totalItems ∧
      final.completedItems = start.completedItems +
        ((checklist.items.filter (¬ ·.completed)).filter (·.id ∈ ids)).length ∧
      final.missingCritical = start.missingCritical.filter (· ∉ ids) := by
  have hitems : after markCompleted checklist ids = ⟨markIn ids checklist.items⟩ := by
    rw [(run_markCompleted checklist ids).1, markAll_of_nodup nodup, markIn]
  rw [hitems]
  refine ⟨List.length_map _, completed_markIn ids _, ?_⟩
  show sortByKey _ _ = (sortByKey _ _).filter _
  rw [critical_markIn, sortByKey_filter]

theorem report_after_marks_default :
    (after markCompleted defaultItems
      ["HC-006", "HC-005", "HC-001", "HC-006"]).report.missingCritical =
        ["HC-002", "HC-003", "HC-004"] := by
  rw [(report_after_marks defaultItems _ (by decide)).2.2]
  decide

end HardeningChecklist

end LiteLlmSecurity
