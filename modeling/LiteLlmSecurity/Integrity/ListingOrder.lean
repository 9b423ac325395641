import LiteLlmSecurity.Collection.SortedProduct
import LiteLlmSecurity.Integrity.Authentication
import Mathlib.Algebra.FreeMonoid.Basic

/-!
# The order in which a manifest lists its entries

The canonical text is written over sorted copies of the two lists, so that the order of
listing should not reach the hash. Tiers are sorted by value. Shards are sorted by path
with a stable sort, so entries with one path stay in the listed order, and the text
depends on it unless their lines may be exchanged.

A load that succeeds returns the paths sorted and the tiers as they are listed, so an
order that the hash does not cover reaches its result.
-/

namespace LiteLlmSecurity

open Rust StableSort Separator

/-- The line of a shard. -/
def ManifestShard.line (shard : ManifestShard) : String := shard.text ++ "\n"

/-- Whether two shards are written to the same text in either order. -/
def ManifestShard.Interchangeable (shard shard' : ManifestShard) : Prop :=
  shard.line ++ shard'.line = shard'.line ++ shard.line

/-- Whether two manifests differ in nothing but the order of their lists. -/
structure SecureModelManifest.Reordered (manifest manifest' : SecureModelManifest) : Prop where
  modelId : manifest'.modelId = manifest.modelId
  versionMajor : manifest'.versionMajor = manifest.versionMajor
  versionMinor : manifest'.versionMinor = manifest.versionMinor
  versionPatch : manifest'.versionPatch = manifest.versionPatch
  tiers : manifest.tiers.Perm manifest'.tiers
  shards : manifest.shards.Perm manifest'.shards
  manifestHashHex : manifest'.manifestHashHex = manifest.manifestHashHex
  signature : manifest'.signature = manifest.signature

/-! ## Lines as words -/

/-- The line of a shard as a word. -/
def ManifestShard.word (shard : ManifestShard) : FreeMonoid Char :=
  .ofList shard.line.toList

theorem ManifestShard.commute_word_iff (shard shard' : ManifestShard) :
    Commute shard.word shard'.word ↔ shard.Interchangeable shard' := by
  rw [Commute, SemiconjBy, word, word, ← FreeMonoid.ofList_append, ← FreeMonoid.ofList_append,
    FreeMonoid.ofList.injective.eq_iff, ← String.toList_append, ← String.toList_append,
    String.toList_inj, Interchangeable]

/-- When the digests are free of separators, as those of a loaded manifest are, shards
with one path are interchangeable only if they are the same. -/
theorem ManifestShard.interchangeable_iff_eq {shard shard' : ManifestShard}
    (plain : shard.digest.Plain) (plain' : shard'.digest.Plain)
    (samePath : shard.path = shard'.path) : shard.Interchangeable shard' ↔ shard = shard' := by
  constructor
  · intro h
    have hlist := congrArg String.toList h
    have hcount : shard.text.toList.count '\n' = shard'.text.toList.count '\n' := by
      rw [count_text plain, count_text plain', samePath]
    simp only [line, String.toList_append, List.append_assoc] at hlist
    have htext := (append_cons_inj_of_count hlist hcount).1
    exact text_inj plain plain' (String.toList_inj.mp htext)
  · rintro rfl
    rfl

namespace SecureModelManifest

theorem sortedTiers_eq_of_perm {manifest manifest' : SecureModelManifest}
    (h : manifest.tiers.Perm manifest'.tiers) : manifest.sortedTiers = manifest'.sortedTiers :=
  List.map_injective_iff.mpr (fun _ _ => UInt16.toNat_inj.mp)
    (map_sortByKey_of_perm UInt16.toNat h)

/-- The shard lines of the canonical text are a product over the sorted shards. -/
theorem toList_sortedProd (manifest : SecureModelManifest) :
    FreeMonoid.toList (sortedProd (·.path) ManifestShard.word manifest.shards) =
      terminated '\n' (manifest.sortedShards.map (·.text.toList)) := by
  rw [sortedProd, FreeMonoid.toList_prod, List.map_map, terminated, List.flatMap_map,
    List.flatMap_def]
  refine congrArg List.flatten (List.map_congr_left fun shard _ => ?_)
  simp [ManifestShard.word, ManifestShard.line]

/-- Reordered manifests have one canonical text when their shard lines make one text. -/
theorem Reordered.canonicalPayload_eq_iff {manifest manifest' : SecureModelManifest}
    (reordered : manifest.Reordered manifest') :
    manifest'.canonicalPayload = manifest.canonicalPayload ↔
      sortedProd (·.path) ManifestShard.word manifest'.shards =
        sortedProd (·.path) ManifestShard.word manifest.shards := by
  rw [← String.toList_inj, canonicalPayload_toList, canonicalPayload_toList, lines, lines,
    reordered.modelId, reordered.versionMajor, reordered.versionMinor, reordered.versionPatch,
    ← sortedTiers_eq_of_perm reordered.tiers]
  simp only [terminated_cons, ← toList_sortedProd, List.append_cancel_left_eq, List.cons.injEq,
    true_and, FreeMonoid.toList.injective.eq_iff]

/-! ## The canonical text and the hash -/

/-- Reordering keeps the canonical text and the hash of a manifest exactly when the lines of
shards with one path commute as words. -/
theorem reordered_same_iff_commute (sha256 : Bytes → Vector UInt8 32) (hex : Hex)
    (manifest : SecureModelManifest) :
    (∀ manifest', manifest.Reordered manifest' →
      manifest'.canonicalPayload = manifest.canonicalPayload ∧
        manifest'.recomputeHash sha256 hex = manifest.recomputeHash sha256 hex) ↔
      ∀ shard ∈ manifest.shards, ∀ shard' ∈ manifest.shards, shard.path = shard'.path →
        Commute shard.word shard'.word := by
  rw [← sortedProd_perm_iff]
  constructor
  · intro invariant shards hshards
    have reordered : manifest.Reordered { manifest with shards } :=
      ⟨rfl, rfl, rfl, rfl, .refl _, hshards, rfl, rfl⟩
    exact reordered.canonicalPayload_eq_iff.mp (invariant _ reordered).1
  · intro invariant manifest' reordered
    have hpayload := reordered.canonicalPayload_eq_iff.mpr (invariant _ reordered.shards)
    exact ⟨hpayload, by rw [recomputeHash, recomputeHash, hpayload]⟩

/-- Every reordering of a manifest has its canonical text and its hash exactly when
shards with one path are interchangeable. -/
theorem canonicalForm_reordered_iff (sha256 : Bytes → Vector UInt8 32) (hex : Hex)
    (manifest : SecureModelManifest) :
    (∀ manifest', manifest.Reordered manifest' →
      manifest'.canonicalPayload = manifest.canonicalPayload ∧
        manifest'.recomputeHash sha256 hex = manifest.recomputeHash sha256 hex) ↔
      ∀ shard ∈ manifest.shards, ∀ shard' ∈ manifest.shards, shard.path = shard'.path →
        shard.Interchangeable shard' := by
  simp only [← ManifestShard.commute_word_iff]
  exact reordered_same_iff_commute sha256 hex manifest

/-- When the digests are free of separators, every reordering has the canonical text and the
hash exactly when no two unequal shards share a path. -/
theorem reordered_same_iff_of_plain (sha256 : Bytes → Vector UInt8 32) (hex : Hex)
    {manifest : SecureModelManifest} (plain : manifest.PlainDigests) :
    (∀ manifest', manifest.Reordered manifest' →
      manifest'.canonicalPayload = manifest.canonicalPayload ∧
        manifest'.recomputeHash sha256 hex = manifest.recomputeHash sha256 hex) ↔
      ∀ shard ∈ manifest.shards, ∀ shard' ∈ manifest.shards, shard.path = shard'.path →
        shard = shard' := by
  rw [reordered_same_iff_commute]
  refine forall₂_congr fun shard hshard => forall₂_congr fun shard' hshard' =>
    forall_congr' fun samePath => ?_
  rw [shard.commute_word_iff, ManifestShard.interchangeable_iff_eq (plain shard hshard)
    (plain shard' hshard') samePath]

/-- A manifest that lists one path under two tiers. -/
def pathTwice : SecureModelManifest :=
  { SignedExample.manifest [SignedExample.shardA, { SignedExample.shardA with tier := 2 }] with
    tiers := [1, 2] }

/-- The same entries in the other order have another canonical text. -/
theorem pathTwice_reordered :
    ¬ ∀ manifest', pathTwice.Reordered manifest' →
      manifest'.canonicalPayload = pathTwice.canonicalPayload ∧
        manifest'.recomputeHash Sha256.hash Reference.hex =
          pathTwice.recomputeHash Sha256.hash Reference.hex := by
  intro claim
  have reordered : pathTwice.Reordered { pathTwice with shards := pathTwice.shards.reverse } :=
    ⟨rfl, rfl, rfl, rfl, .refl _, (List.reverse_perm _).symm, rfl, rfl⟩
  have same := (claim _ reordered).1
  revert same
  decide +kernel

end SecureModelManifest

/-! ## The result of a load -/

namespace SecureModelLoader

variable {ed25519 : Ed25519} {sha256 : Bytes → Vector UInt8 32}
  {sha512 : Bytes → Vector UInt8 64} {hex : Hex} {subtle : Subtle}

/-- Two reorderings of one manifest that a loader accepts give the same result exactly
when they list the tiers in the same order. -/
theorem load_reordered_eq_iff (loader : SecureModelLoader ed25519) (store : ArtifactStore)
    (manifest manifest' : SecureModelManifest) (loaded loaded' : LoadedModel)
    (reordered : manifest.Reordered manifest')
    (hload : loader.load sha256 sha512 hex subtle manifest store = .ok loaded)
    (hload' : loader.load sha256 sha512 hex subtle manifest' store = .ok loaded') :
    loaded' = loaded ↔ manifest'.tiers = manifest.tiers := by
  obtain ⟨-, -, -, -, -, -, rfl⟩ := (load_eq_ok_iff _ _ _ _).mp hload
  obtain ⟨-, -, -, -, -, -, rfl⟩ := (load_eq_ok_iff _ _ _ _).mp hload'
  have hpaths : sortByKey (fun path => path) (manifest'.shards.map (·.path)) =
      sortByKey (fun path => path) (manifest.shards.map (·.path)) :=
    sortByKey_of_perm (reordered.shards.symm.map (·.path))
  rw [LoadedModel.mk.injEq, reordered.modelId, hpaths]
  simp

end SecureModelLoader

namespace SignedExample

/-- The hash of the manifest of `shardA` with two tiers. -/
def tieredHashBytes : Bytes :=
  [0x1b, 0x0f, 0xea, 0x8a, 0x91, 0xa7, 0x64, 0xcb, 0x0e, 0x04, 0xd8, 0x17, 0xef, 0xac, 0xee, 0x15,
    0x89, 0x70, 0x53, 0x03, 0xb6, 0xc5, 0x62, 0xcf, 0xc6, 0xe8, 0x65, 0x3e, 0xd8, 0x7c, 0xfc, 0x44]

/-- Its signature under the same key. -/
def tieredSignature : Vector UInt8 64 :=
  #v[0x90, 0x2d, 0x95, 0xd1, 0x17, 0xe6, 0x06, 0x1f, 0x24, 0x48, 0xe4, 0xf3, 0x44, 0x9e, 0x53, 0x2d,
    0x71, 0x86, 0x90, 0x1e, 0xcb, 0x80, 0x4c, 0x9c, 0x9c, 0x25, 0xa7, 0x33, 0x28, 0xa2, 0xd4, 0x4b,
    0x13, 0xad, 0xfb, 0xda, 0x58, 0xa8, 0x21, 0xf9, 0x4a, 0xca, 0xeb, 0x8f, 0xcb, 0xc3, 0x7c, 0x9e,
    0x8a, 0xba, 0xc2, 0xf4, 0x6c, 0x4b, 0x99, 0xb1, 0x28, 0xfd, 0xf4, 0x03, 0x52, 0xd3, 0x7e, 0x0a]

/-- A manifest of `shardA` with the given tiers, under that hash and that signature. -/
def tieredManifest (tiers : List TierId) : SecureModelManifest :=
  { manifest [shardA] with
    tiers
    manifestHashHex := Reference.hex.encode tieredHashBytes
    signature := {
      signerId := "security-team"
      keyId := "k1"
      signatureHex := Reference.hex.encode tieredSignature.toList } }

def tieredLoader :
    SecureModelLoader (Reference.signing publicKey tieredHashBytes tieredSignature) where
  signatureVerifier := SignatureVerifier.empty.registerKey "k1" publicKey
  supportedMajorVersion := 1
  expectedTiers := [1, 2].toFinset

theorem tieredManifest_reordered {tiers : List TierId} (hperm : [1, 2].Perm tiers) :
    (tieredManifest [1, 2]).Reordered (tieredManifest tiers) :=
  ⟨rfl, rfl, rfl, rfl, hperm, .refl _, rfl, rfl⟩

theorem recomputeHash_tieredManifest :
    (tieredManifest [1, 2]).recomputeHash Sha256.hash Reference.hex =
      (tieredManifest [1, 2]).manifestHashHex := by
  have hhash : (Sha256.hash (asBytes (tieredManifest [1, 2]).canonicalPayload)).toList =
      tieredHashBytes := by decide +kernel
  exact congrArg Reference.hex.encode hhash

theorem load_tieredManifest {tiers : List TierId} (hperm : [1, 2].Perm tiers)
    (hshape : (tieredManifest tiers).validateShape = .ok ()) :
    tieredLoader.load Sha256.hash sha512 Reference.hex Reference.subtle (tieredManifest tiers)
      store = .ok {
        modelId := "m"
        loadedTiers := tiers
        verifiedShards := ["a"] } := by
  have hpayload := (tieredManifest_reordered hperm).canonicalPayload_eq_iff.mpr rfl
  have hhash : (tieredManifest tiers).recomputeHash Sha256.hash Reference.hex =
      (tieredManifest tiers).manifestHashHex := by
    rw [SecureModelManifest.recomputeHash, hpayload]
    exact recomputeHash_tieredManifest
  have hsigned : tieredLoader.signatureVerifier.verifySignature Reference.hex
      (tieredManifest tiers).manifestHashHex (tieredManifest tiers).signature = .ok () :=
    SignatureVerifier.verifySignature_encode Reference.hex_lawful
      Std.ExtTreeMap.getElem?_insert_self rfl (Reference.signing_verifyStrict _ _ _)
  refine (SecureModelLoader.load_eq_ok_iff _ _ _ _).mpr
    ⟨hshape, rfl, (List.toFinset_eq_of_perm _ _ hperm).symm, hhash, hsigned,
      fun shard hshard => ?_, rfl⟩
  rw [List.mem_singleton.mp hshard]
  refine ⟨[0x61], ?_, shardA_verified.read_eq, shardA_verified.bytes_eq, shardA_verified.digest_eq⟩
  exact List.mem_toFinset.mpr (hperm.subset List.mem_cons_self)

end SignedExample

open SignedExample in
/-- Two shards listed in either order load as the same model. -/
theorem SecureModelLoader.load_reordered_shards :
    ∃ loaded,
      loader.load Sha256.hash sha512 Reference.hex Reference.subtle (manifest [shardA, shardB])
          store = .ok loaded ∧
        loader.load Sha256.hash sha512 Reference.hex Reference.subtle (manifest [shardB, shardA])
          store = .ok loaded := by
  have hload := load_pair (.refl _) rfl rfl
  have hload' := load_pair (.swap _ _ _) rfl canonicalPayload_swapped
  have reordered : (manifest [shardA, shardB]).Reordered (manifest [shardB, shardA]) :=
    ⟨rfl, rfl, rfl, rfl, .refl _, .swap _ _ _, rfl, rfl⟩
  have same := (load_reordered_eq_iff loader store (manifest [shardA, shardB])
    (manifest [shardB, shardA]) _ _ reordered hload hload').mpr rfl
  rw [same] at hload'
  exact ⟨_, hload, hload'⟩

open SignedExample in
/-- The order of the tiers is returned, although neither hash nor signature covers it. -/
theorem SecureModelLoader.unsigned_order_returned :
    ¬ ∀ loaded loaded', (tieredManifest [1, 2]).Reordered (tieredManifest [2, 1]) →
      tieredLoader.load Sha256.hash sha512 Reference.hex Reference.subtle (tieredManifest [1, 2])
          store = .ok loaded →
        tieredLoader.load Sha256.hash sha512 Reference.hex Reference.subtle
            (tieredManifest [2, 1]) store = .ok loaded' →
          loaded' = loaded := by
  intro claim
  have same := claim _ _ (tieredManifest_reordered (.swap _ _ _))
    (load_tieredManifest (.refl _) rfl) (load_tieredManifest (.swap _ _ _) rfl)
  exact absurd same (by decide)

end LiteLlmSecurity
