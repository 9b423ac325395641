import Mathlib.Data.List.Induction
import Mathlib.Data.Set.Function

/-!
# Hash chains

A chain folds a list of entries into one digest. Each step links the digest so
far to the next entry and hashes the link, and the first step starts from the
digest of a fixed text.

The last digest commits to all entries, and to how many there are. This needs no
injective hash, only one that does not collide on the texts of the chains that
are compared, links that can be taken apart, and a start text that is no link.
-/

namespace HashChain

variable {ε δ τ : Type*} (hash : τ → δ) (link : δ → ε → τ)

/-- The digest after a list of entries. -/
def root (previous : δ) (entries : List ε) : δ :=
  entries.foldl (fun digest entry => hash (link digest entry)) previous

@[simp] theorem root_nil (previous : δ) : root hash link previous [] = previous := rfl

@[simp] theorem root_concat (previous : δ) (entries : List ε) (entry : ε) :
    root hash link previous (entries ++ [entry]) =
      hash (link (root hash link previous entries) entry) := by
  simp [root]

/-- One step of a chain. -/
structure Block (ε δ : Type*) where
  previous : δ
  entry : ε
  digest : δ

/-- The steps of a chain. -/
def blocks (previous : δ) : List ε → List (Block ε δ)
  | [] => []
  | entry :: rest =>
      { previous, entry, digest := hash (link previous entry) } ::
        blocks (hash (link previous entry)) rest

@[simp] theorem blocks_nil (previous : δ) : blocks hash link previous [] = [] := rfl

theorem blocks_append (previous : δ) (front back : List ε) :
    blocks hash link previous (front ++ back) =
      blocks hash link previous front ++
        blocks hash link (root hash link previous front) back := by
  induction front generalizing previous with
  | nil => rfl
  | cons first rest ih =>
      simp only [List.cons_append, blocks, ih]
      rfl

theorem blocks_concat (previous : δ) (entries : List ε) (entry : ε) :
    blocks hash link previous (entries ++ [entry]) =
      blocks hash link previous entries ++ [{
        previous := root hash link previous entries
        entry
        digest := root hash link previous (entries ++ [entry]) }] := by
  rw [blocks_append, root_concat]
  rfl

/-- The root is the last digest of the chain. -/
theorem root_eq_getLast? (previous : δ) (entries : List ε) :
    (((blocks hash link previous entries).getLast?).map (·.digest)).getD previous =
      root hash link previous entries := by
  cases entries using List.reverseRecOn with
  | nil => rfl
  | append_singleton entries entry => simp [blocks_concat]

/-- The texts that are hashed along a chain. -/
def texts (previous : δ) (entries : List ε) : List τ :=
  (blocks hash link previous entries).map fun block => link block.previous block.entry

theorem texts_concat (previous : δ) (entries : List ε) (entry : ε) :
    texts hash link previous (entries ++ [entry]) =
      texts hash link previous entries ++ [link (root hash link previous entries) entry] := by
  simp [texts, blocks_concat]

/-- A front of a chain hashes no other texts. -/
theorem mem_texts_of_front {previous : δ} {front entries : List ε} (h : front <+: entries)
    {text : τ} (htext : text ∈ texts hash link previous front) :
    text ∈ texts hash link previous entries := by
  obtain ⟨back, rfl⟩ := h
  rw [texts, blocks_append, List.map_append]
  exact List.mem_append_left _ htext

/-- The digest of a step is the root of a non-empty front of the entries. -/
theorem exists_front_of_mem_blocks {previous : δ} {entries : List ε} {block : Block ε δ}
    (hblock : block ∈ blocks hash link previous entries) :
    ∃ front, front <+: entries ∧ block.digest = root hash link previous front := by
  induction entries using List.reverseRecOn with
  | nil => simp at hblock
  | append_singleton entries entry ih =>
      rw [blocks_concat, List.mem_append, List.mem_singleton] at hblock
      rcases hblock with hearlier | rfl
      · obtain ⟨front, hfront, hdigest⟩ := ih hearlier
        exact ⟨front, hfront.trans (List.prefix_append _ _), hdigest⟩
      · exact ⟨entries ++ [entry], List.prefix_rfl, rfl⟩

variable {hash link} {start : τ} {hashed : Set τ}

/-- Chains with one root have the same entries. -/
theorem eq_of_root_eq (collisionFree : Set.InjOn hash hashed) (hstart : start ∈ hashed)
    (start_ne : ∀ digest entry, link digest entry ≠ start) {xs ys : List ε}
    (hxs : ∀ text ∈ texts hash link (hash start) xs, text ∈ hashed)
    (hys : ∀ text ∈ texts hash link (hash start) ys, text ∈ hashed)
    (link_inj : ∀ digest digest', ∀ x ∈ xs, ∀ y ∈ ys,
      link digest x = link digest' y → digest = digest' ∧ x = y)
    (hroot : root hash link (hash start) xs = root hash link (hash start) ys) : xs = ys := by
  induction xs using List.reverseRecOn generalizing ys with
  | nil =>
      cases ys using List.reverseRecOn with
      | nil => rfl
      | append_singleton ys y =>
          rw [texts_concat] at hys
          rw [root_nil, root_concat] at hroot
          exact absurd (collisionFree hstart (hys _ (by simp)) hroot).symm (start_ne _ _)
  | append_singleton xs x ih =>
      rw [texts_concat] at hxs
      cases ys using List.reverseRecOn with
      | nil =>
          rw [root_nil, root_concat] at hroot
          exact absurd (collisionFree (hxs _ (by simp)) hstart hroot) (start_ne _ _)
      | append_singleton ys y =>
          rw [texts_concat] at hys
          rw [root_concat, root_concat] at hroot
          have hlink := collisionFree (hxs _ (by simp)) (hys _ (by simp)) hroot
          obtain ⟨hfronts, rfl⟩ := link_inj _ _ x (by simp) y (by simp) hlink
          have hsame : xs = ys := by
            refine ih (fun text htext => hxs text (List.mem_append_left _ htext))
              (fun text htext => hys text (List.mem_append_left _ htext)) ?_ hfronts
            intro digest digest' x hx y hy
            exact link_inj digest digest' x (List.mem_append_left _ hx) y
              (List.mem_append_left _ hy)
          rw [hsame]

/-- No digest occurs twice along a chain. -/
theorem blocks_digest_nodup (collisionFree : Set.InjOn hash hashed) (hstart : start ∈ hashed)
    (start_ne : ∀ digest entry, link digest entry ≠ start) {entries : List ε}
    (hentries : ∀ text ∈ texts hash link (hash start) entries, text ∈ hashed)
    (link_inj : ∀ digest digest', ∀ x ∈ entries, ∀ y ∈ entries,
      link digest x = link digest' y → digest = digest' ∧ x = y) :
    ((blocks hash link (hash start) entries).map (·.digest)).Nodup := by
  induction entries using List.reverseRecOn with
  | nil => simp
  | append_singleton entries entry ih =>
      rw [blocks_concat, List.map_append, List.map_singleton, List.nodup_append]
      refine ⟨ih ?_ ?_, List.pairwise_singleton _ _, ?_⟩
      · exact fun text htext => hentries text (mem_texts_of_front hash link
          (List.prefix_append _ _) htext)
      · intro digest digest' x hx y hy
        exact link_inj digest digest' x (List.mem_append_left _ hx) y (List.mem_append_left _ hy)
      · -- An earlier digest is the root of a shorter front.
        intro digest hdigest last hlast same
        obtain ⟨block, hblock, rfl⟩ := List.mem_map.mp hdigest
        obtain ⟨front, hfront, hroot⟩ := exists_front_of_mem_blocks hash link hblock
        have hlonger := hfront.trans (List.prefix_append entries [entry])
        have hequal : front = entries ++ [entry] := by
          refine eq_of_root_eq collisionFree hstart start_ne
            (fun text htext => hentries text (mem_texts_of_front hash link hlonger htext))
            hentries ?_ ?_
          · intro digest digest' x hx y hy
            exact link_inj digest digest' x (hlonger.subset hx) y hy
          · rw [← hroot, same, List.mem_singleton.mp hlast]
        have hlength := hfront.length_le
        rw [hequal, List.length_append, List.length_singleton] at hlength
        omega

end HashChain
