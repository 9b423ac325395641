import Mathlib.Algebra.GroupWithZero.Nat
import Mathlib.Data.List.Basic
import Mathlib.Data.List.Count

/-!
# Texts joined at a separator

A text glued together as `front ++ sep :: rest` can be cut back into its two
pieces only when something says where to cut. Two conditions are enough: the
fronts contain the separator equally often, or (the special case used for
decimals and fixed labels) they do not contain it at all. The mirrored rules cut
a text at its last separator, or at a label that its last symbol tells apart.

Terminated lines are concatenations in which every item is followed by the
separator. Equal concatenations have equal items as soon as the items contain
the separator equally often, position by position. Nothing here assumes that an
item is free of separators, so the rules also describe unescaped formats.
-/

namespace Separator

variable {α : Type*} [DecidableEq α] {sep : α}

/-- Fronts that contain the separator equally often are cut at the same place. -/
theorem append_cons_inj_of_count {a b r s : List α} (h : a ++ sep :: r = b ++ sep :: s)
    (hcount : a.count sep = b.count sep) : a = b ∧ r = s := by
  induction a generalizing b with
  | nil =>
      cases b with
      | nil => exact ⟨rfl, (List.cons.inj h).2⟩
      | cons y b =>
          obtain ⟨rfl, -⟩ := List.cons.inj h
          simp at hcount
  | cons x a ih =>
      cases b with
      | nil =>
          obtain ⟨rfl, -⟩ := List.cons.inj h
          simp at hcount
      | cons y b =>
          obtain ⟨rfl, htail⟩ := List.cons.inj h
          have hrest : a.count sep = b.count sep := by
            simpa [List.count_cons] using hcount
          obtain ⟨rfl, rfl⟩ := ih htail hrest
          exact ⟨rfl, rfl⟩

/-- Fronts without the separator are cut at its first occurrence. -/
theorem append_cons_inj {a b r s : List α} (h : a ++ sep :: r = b ++ sep :: s)
    (ha : sep ∉ a) (hb : sep ∉ b) : a = b ∧ r = s :=
  append_cons_inj_of_count h (by
    rw [List.count_eq_zero_of_not_mem ha, List.count_eq_zero_of_not_mem hb])

/-- Backs without the separator are cut at its last occurrence. -/
theorem append_cons_inj_right {a b r s : List α} (h : r ++ sep :: a = s ++ sep :: b)
    (ha : sep ∉ a) (hb : sep ∉ b) : r = s ∧ a = b := by
  have hrev : a.reverse ++ sep :: r.reverse = b.reverse ++ sep :: s.reverse := by
    simpa using congrArg List.reverse h
  obtain ⟨hback, hfront⟩ := append_cons_inj hrev (by simpa using ha) (by simpa using hb)
  exact ⟨List.reverse_inj.mp hfront, List.reverse_inj.mp hback⟩

omit [DecidableEq α] in
/-- Labels that end in different symbols are cut off the end without a separator. -/
theorem append_label_inj {β : Type*} {label : β → List α} (nonempty : ∀ b, label b ≠ [])
    (lasts : Function.Injective fun b => (label b).getLast?) {r s : List α} {a b : β}
    (h : r ++ label a = s ++ label b) : r = s ∧ a = b := by
  have hlast := congrArg List.getLast? h
  rw [List.getLast?_append_of_ne_nil _ (nonempty a),
    List.getLast?_append_of_ne_nil _ (nonempty b)] at hlast
  obtain rfl : a = b := lasts hlast
  exact ⟨List.append_cancel_right h, rfl⟩

/-- Every item followed by one separator, as a format writes its lines. -/
def terminated (sep : α) (items : List (List α)) : List α :=
  items.flatMap (· ++ [sep])

omit [DecidableEq α] in
@[simp] theorem terminated_nil : terminated sep [] = [] := rfl

omit [DecidableEq α] in
@[simp] theorem terminated_cons (item : List α) (items : List (List α)) :
    terminated sep (item :: items) = item ++ sep :: terminated sep items := by
  simp [terminated]

/-- Separators end the items or stand inside them. -/
theorem count_terminated (items : List (List α)) :
    (terminated sep items).count sep = items.length + (items.map (List.count sep)).sum := by
  induction items with
  | nil => rfl
  | cons item items ih =>
      rw [terminated_cons, List.count_append, List.count_cons_self, ih, List.map_cons,
        List.sum_cons, List.length_cons]
      omega

/-- Terminated items are recovered from their concatenation once the number of
separators inside each of them is known. -/
theorem terminated_inj_of_count {xs ys : List (List α)}
    (h : terminated sep xs = terminated sep ys)
    (hcount : xs.map (List.count sep) = ys.map (List.count sep)) : xs = ys := by
  induction xs generalizing ys with
  | nil =>
      cases ys with
      | nil => rfl
      | cons y ys => simp at hcount
  | cons x xs ih =>
      cases ys with
      | nil => simp at hcount
      | cons y ys =>
          simp only [List.map_cons, List.cons.injEq] at hcount
          rw [terminated_cons, terminated_cons] at h
          obtain ⟨rfl, htail⟩ := append_cons_inj_of_count h hcount.1
          rw [ih htail hcount.2]

omit [DecidableEq α] in
/-- A joined list has no symbols but those of the tokens and the separator. -/
theorem mem_of_mem_intercalate {xs : List (List α)} {c : α} (h : c ∈ [sep].intercalate xs) :
    c = sep ∨ ∃ x ∈ xs, c ∈ x := by
  induction xs with
  | nil => simp at h
  | cons x xs ih =>
      by_cases hxs : xs = []
      · subst hxs
        exact .inr ⟨x, by simp, by simpa using h⟩
      · rw [List.intercalate_cons_of_ne_nil hxs, List.mem_append, List.mem_append,
          List.mem_singleton] at h
        rcases h with (hx | hsep) | hrest
        · exact .inr ⟨x, by simp, hx⟩
        · exact .inl hsep
        · exact (ih hrest).imp_right fun ⟨y, hy, hc⟩ => ⟨y, List.mem_cons_of_mem x hy, hc⟩

/-- Nonempty tokens are joined to the empty list only when there are none. -/
theorem eq_nil_of_intercalate_eq_nil {xs : List (List α)} (hx : ∀ x ∈ xs, x ≠ [] ∧ sep ∉ x)
    (h : [sep].intercalate xs = []) : xs = [] := by
  by_contra hne
  have hsplit := List.splitOn_intercalate sep (fun x hmem => (hx x hmem).2) hne
  rw [h, List.splitOn_nil] at hsplit
  have hempty : [] ∈ xs := by simp [← hsplit]
  exact (hx [] hempty).1 rfl

/-- Nonempty tokens without the separator are recovered from their list joined
at it. Emptiness matters: no token and one empty token are joined alike. -/
theorem intercalate_inj {xs ys : List (List α)}
    (hx : ∀ x ∈ xs, x ≠ [] ∧ sep ∉ x) (hy : ∀ y ∈ ys, y ≠ [] ∧ sep ∉ y)
    (h : [sep].intercalate xs = [sep].intercalate ys) : xs = ys := by
  by_cases hxs : xs = []
  · subst hxs
    exact (eq_nil_of_intercalate_eq_nil hy h.symm).symm
  · by_cases hys : ys = []
    · subst hys
      exact eq_nil_of_intercalate_eq_nil hx h
    · calc xs = ([sep].intercalate xs).splitOn sep :=
            (List.splitOn_intercalate sep (fun x hmem => (hx x hmem).2) hxs).symm
        _ = ([sep].intercalate ys).splitOn sep := by rw [h]
        _ = ys := List.splitOn_intercalate sep (fun y hmem => (hy y hmem).2) hys

end Separator
