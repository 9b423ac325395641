import Mathlib.Data.Finset.Sort
import Mathlib.Data.List.Sort

/-!
# Stable sorting by a key, and searching by that key

Sorting by a key is insertion sort for the order of the keys. It is stable, so it
keeps entries with one key in their old order, and every stable sort gives the
same list. Two consequences are used with buckets that are appended to, sorted,
and searched for the first entry with a key: sorting does not change what a
search finds, and the last entry of a sorted bucket has the largest key.
-/

namespace StableSort

variable {α κ : Type*} [LinearOrder κ] (key : α → κ)

/-- Sort by a key, keeping the order of entries with equal keys. -/
def sortByKey (entries : List α) : List α :=
  entries.insertionSort (fun a b => key a ≤ key b)

theorem sortByKey_perm (entries : List α) : (sortByKey key entries).Perm entries :=
  List.perm_insertionSort _ entries

@[simp] theorem mem_sortByKey {entries : List α} {a : α} :
    a ∈ sortByKey key entries ↔ a ∈ entries := (sortByKey_perm key entries).mem_iff

instance isTrans_key : IsTrans α (fun a b => key a ≤ key b) := ⟨fun _ _ _ => le_trans⟩

instance total_key : Std.Total (fun a b : α => key a ≤ key b) :=
  ⟨fun a b => le_total (key a) (key b)⟩

theorem sortByKey_pairwise (entries : List α) :
    (sortByKey key entries).Pairwise (fun a b => key a ≤ key b) :=
  List.pairwise_insertionSort _ entries

/-- Stability: the entries with one key keep their order. -/
theorem filter_sortByKey (k : κ) (entries : List α) :
    (sortByKey key entries).filter (fun a => key a = k) =
      entries.filter (fun a => key a = k) := by
  have equalKeys : (entries.filter (fun a => key a = k)).Pairwise
      (fun a b => key a ≤ key b) := by
    apply List.pairwise_of_forall_mem_list
    intro a ha b hb
    simp only [List.mem_filter, decide_eq_true_eq] at ha hb
    rw [ha.2, hb.2]
  have kept : (entries.filter (fun a => key a = k)).Sublist (sortByKey key entries) :=
    List.sublist_insertionSort equalKeys List.filter_sublist
  have inside : (entries.filter (fun a => key a = k)).Sublist
      ((sortByKey key entries).filter (fun a => key a = k)) := by
    simpa using kept.filter (fun a => key a = k)
  have sameLength := ((sortByKey_perm key entries).filter (fun a => key a = k)).length_eq
  exact (inside.eq_of_length sameLength.symm).symm

/-- An entry whose key is not below any other stays at the end of a sorted list. -/
theorem sortByKey_concat {entries : List α} {a : α}
    (sorted : entries.Pairwise (fun a b => key a ≤ key b)) (last : ∀ b ∈ entries, key b ≤ key a) :
    sortByKey key (entries ++ [a]) = entries ++ [a] := by
  apply List.Pairwise.insertionSort_eq
  refine List.pairwise_append.mpr ⟨sorted, List.pairwise_singleton _ _, fun b hb c hc => ?_⟩
  rw [List.mem_singleton.mp hc]
  exact last b hb

/-- Sorting does not change which entry a search by key finds first. -/
theorem find?_sortByKey (k : κ) (entries : List α) :
    (sortByKey key entries).find? (fun a => key a = k) = entries.find? (fun a => key a = k) := by
  rw [← List.head?_filter, ← List.head?_filter, filter_sortByKey]

/-- In a list sorted by key the last entry has the largest key. -/
theorem key_le_of_getLast? {entries : List α} {last a : α}
    (sorted : entries.Pairwise (fun a b => key a ≤ key b))
    (hlast : entries.getLast? = some last) (ha : a ∈ entries) : key a ≤ key last := by
  obtain ⟨front, rfl⟩ := List.getLast?_eq_some_iff.mp hlast
  rcases List.mem_append.mp ha with hfront | hend
  · exact (List.pairwise_append.mp sorted).2.2 a hfront last (by simp)
  · rw [List.mem_singleton.mp hend]

/-- The sorted keys depend only on which entries there are. -/
theorem map_sortByKey_of_perm {entries entries' : List α} (h : entries.Perm entries') :
    (sortByKey key entries).map key = (sortByKey key entries').map key := by
  have sortedKeys : ∀ list : List α, ((sortByKey key list).map key).Pairwise (· ≤ ·) :=
    fun list => List.pairwise_map.mpr (sortByKey_pairwise key list)
  have permKeys := (((sortByKey_perm key entries).trans h).trans
    (sortByKey_perm key entries').symm).map key
  exact List.Perm.eq_of_pairwise (fun _ _ _ _ => le_antisymm) (sortedKeys _) (sortedKeys _) permKeys

/-- Sorting by the entries themselves gives every order of them one list. -/
theorem sortByKey_of_perm {entries entries' : List κ} (h : entries.Perm entries') :
    sortByKey (fun a => a) entries = sortByKey (fun a => a) entries' := by
  simpa using map_sortByKey_of_perm (fun a => a) h

/-- Sorting a list without repetitions lists its set in ascending order. -/
theorem sortByKey_eq_sort {entries : List κ} {set : Finset κ} (nodup : entries.Nodup)
    (hset : entries.toFinset = set) : sortByKey (fun a => a) entries = set.sort := by
  have hperm := sortByKey_perm (fun a => a) entries
  have hsorted := (List.toFinset_sort (· ≤ ·) (hperm.nodup_iff.mpr nodup)).mpr
    (sortByKey_pairwise (fun a => a) entries)
  rw [← hsorted, List.toFinset_eq_of_perm _ _ hperm, hset]

/-- Sorting commutes with leaving entries out. -/
theorem sortByKey_filter (p : κ → Bool) (entries : List κ) :
    sortByKey (fun a => a) (entries.filter p) = (sortByKey (fun a => a) entries).filter p := by
  have hperm : (sortByKey (fun a => a) (entries.filter p)).Perm
      ((sortByKey (fun a => a) entries).filter p) :=
    (sortByKey_perm _ _).trans ((sortByKey_perm _ entries).filter p).symm
  exact List.Perm.eq_of_pairwise (fun _ _ _ _ => le_antisymm) (sortByKey_pairwise _ _)
    ((sortByKey_pairwise _ _).filter p) hperm

/-- Two sets with one ascending list are equal. -/
theorem sort_inj {set set' : Finset κ} : set.sort = set'.sort ↔ set = set' :=
  ⟨fun h => by simpa using congrArg List.toFinset h, fun h => by rw [h]⟩

end StableSort
