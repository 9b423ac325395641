import LiteLlmSecurity.Collection.StableSort
import Mathlib.Algebra.BigOperators.Group.List.Basic
import Mathlib.Data.List.TakeWhile

/-!
# Products over a stable sort

A format that sorts its entries by a key and writes them one after the other is a
product in a monoid. It forgets the order in which the entries were listed exactly
when entries with one key commute: a stable sort leaves these in the listed order, and
separates all others.
-/

namespace StableSort

variable {α κ M : Type*} [LinearOrder κ] (key : α → κ)

/-- The product over the entries, sorted by the key. -/
def sortedProd [Monoid M] (factor : α → M) (entries : List α) : M :=
  ((sortByKey key entries).map factor).prod

section Monoid

variable [Monoid M] (factor : α → M)

/-- Two sorted listings of the same entries have one product, if entries with one key
commute. -/
theorem prod_eq_of_sorted {entries entries' : List α}
    (sorted : entries.Pairwise fun a b => key a ≤ key b)
    (sorted' : entries'.Pairwise fun a b => key a ≤ key b) (perm : entries.Perm entries')
    (ties : ∀ a ∈ entries, ∀ b ∈ entries, key a = key b → Commute (factor a) (factor b)) :
    (entries.map factor).prod = (entries'.map factor).prod := by
  induction entries generalizing entries' with
  | nil => rw [perm.nil_eq]
  | cons first rest ih =>
      -- The first entry stands behind entries with its key only, and is moved before them.
      obtain ⟨front, back, rfl⟩ := List.append_of_mem (perm.subset List.mem_cons_self)
      have tied : ∀ a ∈ front, a ∈ first :: rest ∧ key first = key a := by
        intro a ha
        have hmem : a ∈ first :: rest := perm.symm.subset (List.mem_append_left _ ha)
        refine ⟨hmem, le_antisymm ?_ ?_⟩
        · rcases List.mem_cons.mp hmem with rfl | hrest
          · exact le_rfl
          · exact (List.pairwise_cons.mp sorted).1 a hrest
        · exact (List.pairwise_append.mp sorted').2.2 a ha first List.mem_cons_self
      have hcommute : Commute (factor first) (front.map factor).prod := by
        refine Commute.list_prod_right _ _ fun x hx => ?_
        obtain ⟨a, ha, rfl⟩ := List.mem_map.mp hx
        exact ties first List.mem_cons_self a (tied a ha).1 (tied a ha).2
      have hrest : (rest.map factor).prod = ((front ++ back).map factor).prod := by
        refine ih (List.pairwise_cons.mp sorted).2 ?_ ?_ ?_
        · exact sorted'.sublist ((List.sublist_cons_self first back).append_left front)
        · exact (perm.trans List.perm_middle).cons_inv
        · exact fun a ha b hb => ties a (List.mem_cons_of_mem _ ha) b (List.mem_cons_of_mem _ hb)
      calc ((first :: rest).map factor).prod
          = factor first * ((front ++ back).map factor).prod := by
            rw [List.map_cons, List.prod_cons, hrest]
        _ = factor first * (front.map factor).prod * (back.map factor).prod := by
            rw [List.map_append, List.prod_append, mul_assoc]
        _ = (front.map factor).prod * factor first * (back.map factor).prod := by
            rw [hcommute.eq]
        _ = ((front ++ first :: back).map factor).prod := by
            rw [List.map_append, List.prod_append, List.map_cons, List.prod_cons, mul_assoc]

theorem sortedProd_eq_of_perm {entries entries' : List α} (perm : entries.Perm entries')
    (ties : ∀ a ∈ entries, ∀ b ∈ entries, key a = key b → Commute (factor a) (factor b)) :
    sortedProd key factor entries = sortedProd key factor entries' := by
  refine prod_eq_of_sorted key factor (sortByKey_pairwise key _) (sortByKey_pairwise key _)
    (((sortByKey_perm key entries).trans perm).trans (sortByKey_perm key entries').symm) ?_
  intro a ha b hb
  exact ties a ((mem_sortByKey key).mp ha) b ((mem_sortByKey key).mp hb)

omit [LinearOrder κ] in
/-- Two different entries may be listed first. -/
theorem exists_perm_cons_cons {entries : List α} {a b : α} (ha : a ∈ entries) (hb : b ∈ entries)
    (hne : a ≠ b) : ∃ rest, entries.Perm (a :: b :: rest) := by
  obtain ⟨front, back, rfl⟩ := List.append_of_mem ha
  have hrest : b ∈ front ++ back := by
    simpa [Ne.symm hne] using hb
  obtain ⟨left, right, hsplit⟩ := List.append_of_mem hrest
  refine ⟨left ++ right, List.perm_middle.trans (.cons a ?_)⟩
  rw [hsplit]
  exact List.perm_middle

omit [LinearOrder κ] in
/-- A front that passes a test ends where an entry fails it. -/
theorem takeWhile_append_cons {p : α → Bool} {b : α} (stop : p b = false) (front back : List α) :
    (front.takeWhile p ++ b :: back).takeWhile p = front.takeWhile p ∧
      (front.takeWhile p ++ b :: back).dropWhile p = b :: back := by
  have hfront : ∀ c ∈ front.takeWhile p, p c = true := fun c hc => List.mem_takeWhile_imp hc
  rw [List.takeWhile_append_of_pos hfront, List.dropWhile_append_of_pos hfront]
  simp [stop]

/-- Two entries with one key that are listed first stay together, in the listed order. -/
theorem sortByKey_cons_cons {a b : α} (same : key a = key b) (rest : List α) :
    sortByKey key (a :: b :: rest) =
      (sortByKey key rest).takeWhile (fun c => ¬ key a ≤ key c) ++
        a :: b :: (sortByKey key rest).dropWhile (fun c => ¬ key a ≤ key c) := by
  have hstop : decide (¬ key a ≤ key b) = false := by simp [same]
  have hinner : sortByKey key (b :: rest) =
      (sortByKey key rest).takeWhile (fun c => ¬ key a ≤ key c) ++
        b :: (sortByKey key rest).dropWhile (fun c => ¬ key a ≤ key c) := by
    rw [same]
    exact List.insertionSort_cons_eq_take_drop _ b rest
  have houter : sortByKey key (a :: b :: rest) =
      (sortByKey key (b :: rest)).takeWhile (fun c => ¬ key a ≤ key c) ++
        a :: (sortByKey key (b :: rest)).dropWhile (fun c => ¬ key a ≤ key c) :=
    List.insertionSort_cons_eq_take_drop _ a (b :: rest)
  obtain ⟨htake, hdrop⟩ := takeWhile_append_cons (p := fun c => decide (¬ key a ≤ key c)) hstop
    (sortByKey key rest) ((sortByKey key rest).dropWhile fun c => ¬ key a ≤ key c)
  rw [houter, hinner, htake, hdrop]

end Monoid

/-- In a cancellative monoid the product is the same for all listings exactly when entries
with one key commute. -/
theorem sortedProd_perm_iff [CancelMonoid M] (factor : α → M) (entries : List α) :
    (∀ entries', entries.Perm entries' →
      sortedProd key factor entries' = sortedProd key factor entries) ↔
      ∀ a ∈ entries, ∀ b ∈ entries, key a = key b → Commute (factor a) (factor b) := by
  constructor
  · intro invariant a ha b hb same
    by_cases hab : a = b
    · rw [hab]
    · obtain ⟨rest, hrest⟩ := exists_perm_cons_cons ha hb hab
      have hswapped := invariant _ (hrest.trans (List.Perm.swap b a rest))
      rw [← invariant _ hrest] at hswapped
      simp only [sortedProd, sortByKey_cons_cons key same, sortByKey_cons_cons key same.symm,
        same, List.map_append, List.prod_append, List.map_cons, List.prod_cons] at hswapped
      have hproduct := mul_left_cancel hswapped
      rw [← mul_assoc, ← mul_assoc] at hproduct
      exact (mul_right_cancel hproduct).symm
  · intro ties entries' perm
    exact (sortedProd_eq_of_perm key factor perm ties).symm

end StableSort
