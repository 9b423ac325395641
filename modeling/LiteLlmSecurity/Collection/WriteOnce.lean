import Mathlib.Logic.Function.Basic

/-!
# Write-once registers with retirement

Every address holds at most one value, the first one written to it. Later writes
to an occupied address are lost. A retired address keeps its value and stays
retired. These are the laws of a store that never replaces what it once issued:
occupied addresses are frozen except for the retirement mark, and the value at an
address is decided by the first write of the whole history.
-/

namespace WriteOnce

variable {κ ε : Type*} [DecidableEq κ]

/-- An occupied register. -/
structure Cell (ε : Type*) where
  value : ε
  retired : Bool

/-- The registers, by address. -/
abbrev Cells (κ ε : Type*) := κ → Option (Cell ε)

inductive Event (κ ε : Type*) where
  | write (address : κ) (value : ε)
  | retire (address : κ)

/-- The effect of one event on the registers. -/
def apply (cells : Cells κ ε) : Event κ ε → Cells κ ε
  | .write address value =>
      Function.update cells address (some ((cells address).getD ⟨value, false⟩))
  | .retire address =>
      Function.update cells address
        ((cells address).map fun cell => { cell with retired := true })

/-- The effect of a history of events, oldest first. -/
def applyAll (cells : Cells κ ε) (events : List (Event κ ε)) : Cells κ ε :=
  events.foldl apply cells

@[simp] theorem applyAll_nil (cells : Cells κ ε) : applyAll cells [] = cells := rfl

@[simp] theorem applyAll_cons (cells : Cells κ ε) (event : Event κ ε)
    (events : List (Event κ ε)) :
    applyAll cells (event :: events) = applyAll (apply cells event) events := rfl

/-- A write never changes an occupied register. -/
theorem apply_write_of_some {cells : Cells κ ε} {address other : κ} {value : ε} {cell : Cell ε}
    (occupied : cells other = some cell) :
    apply cells (.write address value) other = some cell := by
  by_cases same : other = address
  · subst same
    simp [apply, occupied]
  · simp [apply, same, occupied]

/-- An event keeps the value of an occupied register, and its retirement. -/
theorem exists_of_apply {cells : Cells κ ε} {address : κ} {cell : Cell ε}
    (occupied : cells address = some cell) (event : Event κ ε) :
    ∃ next, apply cells event address = some next ∧ next.value = cell.value ∧
      (cell.retired = true → next.retired = true) := by
  cases event with
  | write other value => exact ⟨cell, apply_write_of_some occupied, rfl, id⟩
  | retire other =>
      by_cases same : address = other
      · subst same
        exact ⟨{ cell with retired := true }, by simp [apply, occupied], rfl, fun _ => rfl⟩
      · exact ⟨cell, by simp [apply, same, occupied], rfl, id⟩

/-- Values and retirements persist through every history. -/
theorem exists_of_applyAll {cells : Cells κ ε} {address : κ} {cell : Cell ε}
    (occupied : cells address = some cell) (events : List (Event κ ε)) :
    ∃ last, applyAll cells events address = some last ∧ last.value = cell.value ∧
      (cell.retired = true → last.retired = true) := by
  induction events generalizing cells cell with
  | nil => exact ⟨cell, occupied, rfl, id⟩
  | cons event events ih =>
      obtain ⟨next, hnext, hvalue, hretired⟩ := exists_of_apply occupied event
      obtain ⟨last, hlast, hvalue', hretired'⟩ := ih hnext
      exact ⟨last, hlast, hvalue'.trans hvalue, hretired' ∘ hretired⟩

/-- The value an event writes to an address, if it writes there. -/
def Event.writesTo (address : κ) : Event κ ε → Option ε
  | .write other value => if other = address then some value else none
  | .retire _ => none

/-- From empty registers, an address holds the first value written to it. -/
theorem value_applyAll_empty (events : List (Event κ ε)) (address : κ) :
    (applyAll (fun _ => none) events address).map Cell.value =
      events.findSome? (Event.writesTo address) := by
  suffices general : ∀ cells : Cells κ ε,
      (applyAll cells events address).map Cell.value =
        ((cells address).map Cell.value).or (events.findSome? (Event.writesTo address)) by
    simpa using general fun _ => none
  induction events with
  | nil => intro cells; simp
  | cons event events ih =>
      intro cells
      rw [applyAll_cons, ih, List.findSome?_cons]
      cases event with
      | write other value =>
          by_cases same : address = other
          · subst same
            cases occupied : cells address <;> simp [apply, Event.writesTo, occupied]
          · simp [apply, Event.writesTo, same, Ne.symm same]
      | retire other =>
          by_cases same : address = other
          · subst same
            cases occupied : cells address <;> simp [apply, Event.writesTo, occupied]
          · simp [apply, Event.writesTo, same]

end WriteOnce
