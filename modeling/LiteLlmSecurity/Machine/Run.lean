import Mathlib.Data.List.Forall2

/-!
# Runs of a deterministic component

A component is given by one function from a state and an input to a reply and the
next state. A run feeds it a list of inputs. Its history pairs every input with
the reply it got, in order, so that a property may speak about what callers were
told and not only about the final state.

The two invariant rules reduce a property of all runs to one step. The second
lets the property mention the history, which is what read-your-writes and
revocation laws are about. The refinement rule does the same for an abstract state
on which every step acts by at most one event; when the events are visible in the
inputs, the projection rule drops the history. Two runs on related inputs keep a
relation that related steps keep. Runs whose inputs all meet a guard have rules of
their own, and on them two components may be compared.
-/

namespace Machine

universe u v w

variable {σ : Type u} {ι : Type v} {ρ : Type w} (step : σ → ι → ρ × σ)

/-- The state after a list of inputs. -/
def after (s : σ) : List ι → σ
  | [] => s
  | i :: is => after (step s i).2 is

/-- The inputs of a run with their replies, oldest first. -/
def history (s : σ) : List ι → List (ι × ρ)
  | [] => []
  | i :: is => (i, (step s i).1) :: history (step s i).2 is

@[simp] theorem after_nil (s : σ) : after step s [] = s := rfl

@[simp] theorem after_cons (s : σ) (i : ι) (is : List ι) :
    after step s (i :: is) = after step (step s i).2 is := rfl

@[simp] theorem history_nil (s : σ) : history step s [] = [] := rfl

@[simp] theorem history_cons (s : σ) (i : ι) (is : List ι) :
    history step s (i :: is) = (i, (step s i).1) :: history step (step s i).2 is := rfl

theorem after_append (s : σ) (is js : List ι) :
    after step s (is ++ js) = after step (after step s is) js := by
  induction is generalizing s with
  | nil => rfl
  | cons i is ih => exact ih _

theorem history_append (s : σ) (is js : List ι) :
    history step s (is ++ js) = history step s is ++ history step (after step s is) js := by
  induction is generalizing s with
  | nil => rfl
  | cons i is ih => simp [ih]

@[simp] theorem map_fst_history (s : σ) (is : List ι) : (history step s is).map Prod.fst = is := by
  induction is generalizing s with
  | nil => rfl
  | cons i is ih => rw [history_cons, List.map_cons, ih]

theorem mem_of_mem_history {s : σ} {is : List ι} {entry : ι × ρ}
    (h : entry ∈ history step s is) : entry.1 ∈ is := by
  induction is generalizing s with
  | nil => exact absurd h List.not_mem_nil
  | cons i is ih =>
      rcases List.mem_cons.mp h with rfl | hlater
      · exact List.mem_cons_self
      · exact List.mem_cons_of_mem _ (ih hlater)

/-- A reply in a history is the reply of some state. -/
theorem exists_reply_of_mem_history {s : σ} {is : List ι} {entry : ι × ρ}
    (h : entry ∈ history step s is) : ∃ t, (step t entry.1).1 = entry.2 := by
  induction is generalizing s with
  | nil => exact absurd h List.not_mem_nil
  | cons i is ih =>
      rcases List.mem_cons.mp h with rfl | hlater
      · exact ⟨s, rfl⟩
      · exact ih hlater

variable {step}

/-- What one step preserves, every run preserves. -/
theorem after_preserves {P : σ → Prop} (preserved : ∀ s i, P s → P (step s i).2)
    {s : σ} (holds : P s) (is : List ι) : P (after step s is) := by
  induction is generalizing s with
  | nil => exact holds
  | cons i is ih => exact ih (preserved s i holds)

/-- The invariant rule for properties of the history and the state together. -/
theorem history_preserves {P : List (ι × ρ) → σ → Prop}
    (preserved : ∀ past s i, P past s → P (past ++ [(i, (step s i).1)]) (step s i).2)
    {s : σ} (holds : P [] s) (is : List ι) : P (history step s is) (after step s is) := by
  suffices general : ∀ past t, P past t → P (past ++ history step t is) (after step t is) by
    simpa using general [] s holds
  induction is with
  | nil =>
      intro past t h
      simpa using h
  | cons i is ih =>
      intro past t h
      have next := ih _ _ (preserved past t i h)
      rwa [List.append_assoc] at next

/-- Every input of a run meets a guard in the state that it finds. -/
def Guarded (step : σ → ι → ρ × σ) (guard : σ → ι → Prop) : σ → List ι → Prop
  | _, [] => True
  | s, i :: is => guard s i ∧ Guarded step guard (step s i).2 is

/-- What guarded steps preserve, a guarded run preserves. -/
theorem after_preserves_of_guarded {P : σ → Prop} {guard : σ → ι → Prop}
    (preserved : ∀ s i, guard s i → P s → P (step s i).2) {s : σ} {is : List ι}
    (guarded : Guarded step guard s is) (holds : P s) : P (after step s is) := by
  induction is generalizing s with
  | nil => exact holds
  | cons i is ih => exact ih guarded.2 (preserved s i guarded.1 holds)

/-- What the reply of every guarded step satisfies, every reply of a guarded run does. -/
theorem history_forall_of_guarded {Q : ρ → Prop} {guard : σ → ι → Prop}
    (replies : ∀ s i, guard s i → Q (step s i).1) {s : σ} {is : List ι}
    (guarded : Guarded step guard s is) : ∀ entry ∈ history step s is, Q entry.2 := by
  induction is generalizing s with
  | nil => simp
  | cons i is ih =>
      rw [history_cons, List.forall_mem_cons]
      exact ⟨replies s i guarded.1, ih guarded.2⟩

/-- Components that agree on guarded steps agree on guarded runs. -/
theorem run_congr_of_guarded {other : σ → ι → ρ × σ} {guard : σ → ι → Prop}
    (agree : ∀ s i, guard s i → other s i = step s i) {s : σ} {is : List ι}
    (guarded : Guarded step guard s is) :
    history other s is = history step s is ∧ after other s is = after step s is := by
  induction is generalizing s with
  | nil => exact ⟨rfl, rfl⟩
  | cons i is ih =>
      obtain ⟨sameHistory, sameState⟩ := ih guarded.2
      simp only [history_cons, after_cons, agree s i guarded.1]
      exact ⟨by rw [sameHistory], sameState⟩

/-- Steps that keep a relation on related inputs keep it over related runs. -/
theorem after_rel {P : σ → σ → Prop} {R : ι → ι → Prop}
    (preserved : ∀ s t i j, R i j → P s t → P (step s i).2 (step t j).2) {s t : σ}
    {is js : List ι} (inputs : List.Forall₂ R is js) (holds : P s t) :
    P (after step s is) (after step t js) := by
  induction inputs generalizing s t with
  | nil => exact holds
  | cons head tail ih => exact ih (preserved s t _ _ head holds)

/-- The refinement rule: when each step has the effect of one event on an abstract
state, or of none, a run has the effect of its events. -/
theorem refines_after {τ ε : Type*} {P : σ → Prop} {abstract : σ → τ}
    {event : ι × ρ → Option ε} {apply : τ → ε → τ}
    (preserved : ∀ s i, P s → P (step s i).2)
    (refines : ∀ s i, P s →
      abstract (step s i).2 = (event (i, (step s i).1)).toList.foldl apply (abstract s))
    {s : σ} (holds : P s) (is : List ι) :
    abstract (after step s is) =
      ((history step s is).filterMap event).foldl apply (abstract s) := by
  induction is generalizing s with
  | nil => rfl
  | cons i is ih =>
      rw [after_cons, ih (preserved s i holds), refines s i holds, history_cons]
      cases hevent : event (i, (step s i).1) <;> simp [hevent]

/-- The projection rule: when each step moves an abstract state by what is visible of
its input, if anything, a run moves it by the visible inputs and nothing else. -/
theorem projects_after {τ ε : Type*} {abstract : σ → τ} {visible : ι → Option ε}
    {apply : τ → ε → τ}
    (projects : ∀ s i, abstract (step s i).2 = (visible i).toList.foldl apply (abstract s))
    (s : σ) (is : List ι) :
    abstract (after step s is) = (is.filterMap visible).foldl apply (abstract s) := by
  have run : abstract (after step s is) =
      ((history step s is).filterMap fun entry => visible entry.1).foldl apply (abstract s) :=
    refines_after (P := fun _ => True) (fun _ _ _ => trivial) (fun t i _ => projects t i) trivial is
  have inputs : (history step s is).filterMap (fun entry => visible entry.1) =
      is.filterMap visible := by
    rw [← map_fst_history step s is, List.filterMap_map, map_fst_history]
    rfl
  rw [run, inputs]

end Machine
