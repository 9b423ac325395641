import LiteLlmSecurity.Machine.Run

/-!
# Parts of a state that only some inputs concern

A view is isolated under a set of inputs when all other inputs leave it alone, and
when it alone decides what the inputs of the set do to it and what they reply. Then
a run may be purged of all other inputs: the view and the replies stay as they are,
wherever the removed inputs stood. Two isolated views are together isolated under
the inputs that concern either.

A register is a view that some inputs overwrite, whatever it was before. It holds
after a run what the last of them wrote.
-/

namespace Machine

universe u v w

variable {σ : Type u} {ι : Type v} {ρ : Type w}

/-- A view that only the relevant inputs change, and that decides their effect on it
and their reply. -/
structure Isolated {τ : Type*} (step : σ → ι → ρ × σ) (view : σ → τ) (Relevant : ι → Prop) :
    Prop where
  frame : ∀ s i, ¬ Relevant i → view (step s i).2 = view s
  reply_eq : ∀ s t i, Relevant i → view s = view t → (step s i).1 = (step t i).1
  view_eq : ∀ s t i, Relevant i → view s = view t → view (step s i).2 = view (step t i).2

namespace Isolated

variable {τ τ' : Type*} {step : σ → ι → ρ × σ} {view : σ → τ} {view' : σ → τ'}
variable {Relevant Relevant' : ι → Prop}

/-- The purge rule: from states with one view, a run and its relevant part reach one
view, and the relevant inputs get the same replies. -/
theorem purge [DecidablePred Relevant] (isolated : Isolated step view Relevant) {s t : σ}
    (same : view s = view t) (is : List ι) :
    view (after step s is) = view (after step t (is.filter Relevant)) ∧
      (history step s is).filter (fun entry => Relevant entry.1) =
        history step t (is.filter Relevant) := by
  induction is generalizing s t with
  | nil => exact ⟨same, rfl⟩
  | cons i is ih =>
      by_cases relevant : Relevant i
      · obtain ⟨views, replies⟩ := ih (isolated.view_eq s t i relevant same)
        have reply := isolated.reply_eq s t i relevant same
        simp only [List.filter_cons, after_cons, history_cons, relevant, decide_true, if_true]
        exact ⟨views, by rw [replies, reply]⟩
      · obtain ⟨views, replies⟩ := ih ((isolated.frame s i relevant).trans same)
        simp only [List.filter_cons, after_cons, history_cons, relevant, decide_false,
          Bool.false_eq_true, if_false]
        exact ⟨views, replies⟩

/-- Views that are isolated side by side are isolated as a pair. -/
theorem prod (left : Isolated step view Relevant) (right : Isolated step view' Relevant') :
    Isolated step (fun s => (view s, view' s)) (fun i => Relevant i ∨ Relevant' i) where
  frame s i h := by
    obtain ⟨outside, outside'⟩ := not_or.mp h
    rw [left.frame s i outside, right.frame s i outside']
  reply_eq s t i h same := by
    obtain ⟨same, same'⟩ := Prod.mk.inj same
    rcases h with relevant | relevant
    · exact left.reply_eq s t i relevant same
    · exact right.reply_eq s t i relevant same'
  view_eq s t i _ same := by
    obtain ⟨same, same'⟩ := Prod.mk.inj same
    have first : view (step s i).2 = view (step t i).2 := by
      by_cases relevant : Relevant i
      · exact left.view_eq s t i relevant same
      · rw [left.frame s i relevant, left.frame t i relevant, same]
    have second : view' (step s i).2 = view' (step t i).2 := by
      by_cases relevant : Relevant' i
      · exact right.view_eq s t i relevant same'
      · rw [right.frame s i relevant, right.frame t i relevant, same']
    rw [first, second]

end Isolated

/-! ## Registers -/

/-- The last value that the entries of a history write, and the entry that wrote it. -/
theorem exists_last_write {α β : Type*} {written : α → Option β} {entries : List α} {value : β}
    (h : (entries.filterMap written).getLast? = some value) :
    ∃ earlier entry later, entries = earlier ++ entry :: later ∧ written entry = some value ∧
      ∀ next ∈ later, written next = none := by
  obtain ⟨values, hvalues⟩ := List.getLast?_eq_some_iff.mp h
  obtain ⟨front, back, rfl, -, hback⟩ := List.filterMap_eq_append_iff.mp hvalues
  obtain ⟨skipped, entry, later, rfl, -, hentry, hlater⟩ := List.filterMap_eq_cons_iff.mp hback
  exact ⟨front ++ skipped, entry, later, by simp, hentry, List.filterMap_eq_nil_iff.mp hlater⟩

/-- An entry of a history is the reply of the state that the earlier entries reach. -/
theorem history_eq_append_cons {step : σ → ι → ρ × σ} {s : σ} {is : List ι}
    {earlier later : List (ι × ρ)} {entry : ι × ρ}
    (h : history step s is = earlier ++ entry :: later) :
    ∃ before rest, is = before ++ entry.1 :: rest ∧ history step s before = earlier ∧
      (step (after step s before) entry.1).1 = entry.2 := by
  induction earlier generalizing s is with
  | nil =>
      cases is with
      | nil => cases h
      | cons i is =>
          obtain ⟨rfl, -⟩ := List.cons.inj h
          exact ⟨[], is, rfl, rfl, rfl⟩
  | cons first earlier ih =>
      cases is with
      | nil => cases h
      | cons i is =>
          obtain ⟨rfl, hrest⟩ := List.cons.inj h
          obtain ⟨before, rest, rfl, rfl, hreply⟩ := ih hrest
          exact ⟨i :: before, rest, rfl, rfl, hreply⟩

/-- The register rule: when a step either writes a register, by its input and reply, or
leaves it, a run leaves the last value that was written. -/
theorem register_after {τ : Type*} {step : σ → ι → ρ × σ} (register : σ → Option τ)
    (written : ι × ρ → Option τ)
    (writes : ∀ s i, register (step s i).2 = (written (i, (step s i).1)).or (register s))
    (s : σ) (is : List ι) :
    register (after step s is) =
      ((history step s is).filterMap written).getLast?.or (register s) := by
  induction is generalizing s with
  | nil => rfl
  | cons i is ih =>
      rw [after_cons, ih, writes, history_cons, List.filterMap_cons]
      cases written (i, (step s i).1) with
      | none => rfl
      | some value =>
          cases hlast : ((history step (step s i).2 is).filterMap written).getLast? <;>
            simp [List.getLast?_cons, hlast]

/-- The register rule where the input alone tells what is written. -/
theorem register_after_of_input {τ : Type*} {step : σ → ι → ρ × σ} (register : σ → Option τ)
    (written : ι → Option τ)
    (writes : ∀ s i, register (step s i).2 = (written i).or (register s)) (s : σ) (is : List ι) :
    register (after step s is) = (is.filterMap written).getLast?.or (register s) := by
  rw [register_after register (fun entry => written entry.1) writes, ← Function.comp_def,
    ← List.filterMap_map, map_fst_history]

end Machine
