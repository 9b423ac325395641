import Mathlib.Algebra.BigOperators.Group.List.Basic
import Mathlib.Data.List.Basic
import Mathlib.Logic.Function.Basic

/-!
# Hashes that absorb one symbol at a time

Such a hash keeps a state and absorbs the symbols of its input in order. If every
symbol permutes the states, what follows a change cannot undo it; if in every
state different symbols lead to different states, the change is seen when it is
absorbed. Inputs that differ at one position then never collide.

Inputs that differ elsewhere may collide. They do not when some view of the state
only adds up the weights of the symbols, and their sums differ.
-/

namespace StepHash

variable {σ α : Type*}

/-! ## Inputs that differ at one position -/

/-- Lists of one length with exactly one position where they differ. -/
def DiffersOnce (xs ys : List α) : Prop :=
  xs.length = ys.length ∧ ∃! i : Nat, xs[i]? ≠ ys[i]?

theorem differsOnce_append_cons (front : List α) {a b : α} (hne : a ≠ b) (back : List α) :
    DiffersOnce (front ++ a :: back) (front ++ b :: back) := by
  refine ⟨by simp, front.length, by simpa using hne, fun i hi => ?_⟩
  by_contra hother
  rcases Nat.lt_or_gt_of_ne hother with hlt | hgt
  · exact hi (by rw [List.getElem?_append_left hlt, List.getElem?_append_left hlt])
  · obtain ⟨k, rfl⟩ : ∃ k, i = front.length + (k + 1) := ⟨i - front.length - 1, by omega⟩
    rw [List.getElem?_append_right (by omega), List.getElem?_append_right (by omega),
      Nat.add_sub_cancel_left] at hi
    exact hi rfl

/-- The lists agree before the position and after it. -/
theorem DiffersOnce.exists_append_cons {xs ys : List α} (h : DiffersOnce xs ys) :
    ∃ front a b back, xs = front ++ a :: back ∧ ys = front ++ b :: back ∧ a ≠ b := by
  obtain ⟨hlength, i, hdiffer, hunique⟩ := h
  have hagree : ∀ j, j ≠ i → xs[j]? = ys[j]? := by
    intro j hj
    by_contra hne
    exact hj (hunique j hne)
  have hi : i < xs.length := by
    by_contra hout
    exact hdiffer (by
      rw [List.getElem?_eq_none (by omega), List.getElem?_eq_none (by omega)])
  have hi' : i < ys.length := by omega
  have hfront : xs.take i = ys.take i := by
    apply List.ext_getElem?
    intro j
    rw [List.getElem?_take, List.getElem?_take]
    split
    · next hj => exact hagree j (by omega)
    · rfl
  have hback : xs.drop (i + 1) = ys.drop (i + 1) := by
    apply List.ext_getElem?
    intro j
    rw [List.getElem?_drop, List.getElem?_drop]
    exact hagree (i + 1 + j) (by omega)
  refine ⟨xs.take i, xs[i], ys[i], xs.drop (i + 1), ?_, ?_, ?_⟩
  · rw [← List.drop_eq_getElem_cons hi, List.take_append_drop]
  · rw [hfront, hback, ← List.drop_eq_getElem_cons hi', List.take_append_drop]
  · intro heq
    exact hdiffer (by rw [List.getElem?_eq_getElem hi, List.getElem?_eq_getElem hi', heq])

/-! ## Absorbing an input -/

/-- The state after absorbing a list of symbols. -/
def absorbAll (absorb : σ → α → σ) (state : σ) (xs : List α) : σ := xs.foldl absorb state

variable {absorb : σ → α → σ}

@[simp] theorem absorbAll_cons (state : σ) (a : α) (xs : List α) :
    absorbAll absorb state (a :: xs) = absorbAll absorb (absorb state a) xs := rfl

@[simp] theorem absorbAll_append (state : σ) (xs ys : List α) :
    absorbAll absorb state (xs ++ ys) = absorbAll absorb (absorbAll absorb state xs) ys :=
  List.foldl_append

/-- One step loses neither the state nor the symbol, given the other. -/
structure Separates (absorb : σ → α → σ) : Prop where
  state_injective : ∀ a, Function.Injective fun state => absorb state a
  symbol_injective : ∀ state, Function.Injective (absorb state)

/-- A common rest of the input keeps different states apart. -/
theorem Separates.absorbAll_injective (h : Separates absorb) (xs : List α) :
    Function.Injective fun state => absorbAll absorb state xs := by
  induction xs with
  | nil => exact Function.injective_id
  | cons a xs ih => exact ih.comp (h.state_injective a)

/-- Inputs that differ at one position lead to different states. -/
theorem Separates.absorbAll_ne (h : Separates absorb) {xs ys : List α}
    (hdiffers : DiffersOnce xs ys) (state : σ) :
    absorbAll absorb state xs ≠ absorbAll absorb state ys := by
  obtain ⟨front, a, b, back, rfl, rfl, hne⟩ := hdiffers.exists_append_cons
  intro heq
  rw [absorbAll_append, absorbAll_append, absorbAll_cons, absorbAll_cons] at heq
  exact hne (h.symbol_injective _ (h.absorbAll_injective back heq))

/-- What one symbol adds to a view of the state, an input adds up. -/
theorem observe_absorbAll {M : Type*} [AddMonoid M] {observe : σ → M} {weight : α → M}
    (adds : ∀ state a, observe (absorb state a) = observe state + weight a) (state : σ)
    (xs : List α) : observe (absorbAll absorb state xs) = observe state + (xs.map weight).sum := by
  induction xs generalizing state with
  | nil => simp [absorbAll]
  | cons a xs ih => rw [absorbAll_cons, ih, adds, List.map_cons, List.sum_cons, add_assoc]

end StepHash
