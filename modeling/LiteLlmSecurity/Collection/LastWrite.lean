import Mathlib.Data.List.Induction
import Mathlib.Logic.Function.Basic

/-!
# Registers where the last write wins

A write replaces what an address holds and a deletion empties it. An address
that was written stays occupied as long as it is not deleted, but nothing is
promised about what it holds after another write to it. What an address holds
comes from the last event on it.
-/

namespace LastWrite

variable {κ ε : Type*} [DecidableEq κ]

/-- The registers, by address. -/
abbrev Table (κ ε : Type*) := κ → Option ε

inductive Event (κ ε : Type*) where
  | put (address : κ) (value : ε)
  | delete (address : κ)

def Event.address : Event κ ε → κ
  | .put address _ => address
  | .delete address => address

/-- The effect of one event on the registers. -/
def apply (table : Table κ ε) : Event κ ε → Table κ ε
  | .put address value => Function.update table address (some value)
  | .delete address => Function.update table address none

/-- The effect of a history of events, oldest first. -/
def applyAll (table : Table κ ε) (events : List (Event κ ε)) : Table κ ε :=
  events.foldl apply table

@[simp] theorem applyAll_nil (table : Table κ ε) : applyAll table [] = table := rfl

@[simp] theorem applyAll_cons (table : Table κ ε) (event : Event κ ε)
    (events : List (Event κ ε)) :
    applyAll table (event :: events) = applyAll (apply table event) events := rfl

theorem isSome_apply {table : Table κ ε} {address : κ} (occupied : (table address).isSome)
    {event : Event κ ε} (kept : event ≠ .delete address) :
    (apply table event address).isSome := by
  cases event with
  | put other value =>
      by_cases same : address = other
      · subst same
        simp [apply]
      · simpa [apply, same] using occupied
  | delete other =>
      have different : address ≠ other := fun same => kept (same ▸ rfl)
      simpa [apply, different] using occupied

/-- An occupied address stays occupied until it is deleted. -/
theorem isSome_applyAll {table : Table κ ε} {address : κ} (occupied : (table address).isSome)
    {events : List (Event κ ε)} (kept : ∀ event ∈ events, event ≠ .delete address) :
    (applyAll table events address).isSome := by
  induction events generalizing table with
  | nil => exact occupied
  | cons event events ih =>
      exact ih (isSome_apply occupied (kept event List.mem_cons_self))
        fun later hlater => kept later (List.mem_cons_of_mem _ hlater)

theorem applyAll_concat (table : Table κ ε) (events : List (Event κ ε)) (event : Event κ ε) :
    applyAll table (events ++ [event]) = apply (applyAll table events) event := by
  simp [applyAll]

/-- An event leaves the other addresses alone. -/
theorem apply_of_ne {table : Table κ ε} {event : Event κ ε} {address : κ}
    (other : event.address ≠ address) : apply table event address = table address := by
  cases event with
  | put written value => exact Function.update_of_ne other.symm _ _
  | delete deleted => exact Function.update_of_ne other.symm _ _

theorem eq_put_of_apply_eq_some {table : Table κ ε} {event : Event κ ε} {value : ε}
    (h : apply table event event.address = some value) : event = .put event.address value := by
  cases event with
  | put address written => simpa [apply, Event.address] using h
  | delete address => simp [apply, Event.address] at h

/-- What an address holds was put there by the last event on it. -/
theorem exists_last_put {events : List (Event κ ε)} {address : κ} {value : ε}
    (h : applyAll (fun _ => none) events address = some value) :
    ∃ earlier later, events = earlier ++ .put address value :: later ∧
      ∀ event ∈ later, event.address ≠ address := by
  induction events using List.reverseRecOn with
  | nil => cases h
  | append_singleton events event ih =>
      rw [applyAll_concat] at h
      by_cases here : event.address = address
      · subst here
        refine ⟨events, [], ?_, by simp⟩
        rw [← eq_put_of_apply_eq_some h]
      · rw [apply_of_ne here] at h
        obtain ⟨earlier, later, rfl, hlater⟩ := ih h
        refine ⟨earlier, later ++ [event], by simp, ?_⟩
        intro change hchange
        rcases List.mem_append.mp hchange with hold | hnew
        · exact hlater change hold
        · rw [List.mem_singleton.mp hnew]
          exact here

end LastWrite
