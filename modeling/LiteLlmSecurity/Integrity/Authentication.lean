import LiteLlmSecurity.Integrity.Loader
import LiteLlmSecurity.Reference
import LiteLlmSecurity.Text.Separator

/-!
# What a manifest hash authenticates

The canonical text of a manifest is a sequence of lines, and every line but the
first and those of the shards has a fixed shape. A line is ended by a newline,
and newlines inside a model id or a path are not escaped. The text therefore
determines the content only together with the places of such newlines: one path
with a newline may read as two shards without.
-/

namespace LiteLlmSecurity

open Rust StableSort Separator

/-! ## The canonical text as lines -/

/-- The line of a shard, without its newline. -/
def ManifestShard.text (shard : ManifestShard) : String :=
  s!"shard|{shard.path}|{shard.tier}|{shard.digest.algorithm}|" ++
    s!"{shard.digest.hex}|{shard.bytes}"

theorem ManifestShard.text_toList (shard : ManifestShard) :
    shard.text.toList = "shard|".toList ++ (shard.path.toList ++ '|' ::
      shard.tier.toNat.repr.toList ++ '|' :: shard.digest.algorithm.toList ++ '|' ::
        shard.digest.hex.toList ++ '|' :: shard.bytes.toNat.repr.toList) := by
  delta text
  simp

/-- Whether the texts of a digest are free of both separators. -/
def ArtifactDigest.Plain (digest : ArtifactDigest) : Prop :=
  ∀ sep ∈ ['|', '\n'], sep ∉ digest.algorithm.toList ∧ sep ∉ digest.hex.toList

/-- The fields of a shard are recovered from its line. Only the path may contain the
separator, and it stands before the others. -/
theorem ManifestShard.text_inj {shard shard' : ManifestShard} (plain : shard.digest.Plain)
    (plain' : shard'.digest.Plain) (h : shard.text = shard'.text) : shard = shard' := by
  have nodigit : ∀ n : Nat, '|' ∉ n.repr.toList := Decimal.notMem_repr (by decide)
  obtain ⟨halgorithm, hhex⟩ := plain '|' (by simp)
  obtain ⟨halgorithm', hhex'⟩ := plain' '|' (by simp)
  have hlist := congrArg String.toList h
  rw [text_toList, text_toList] at hlist
  have hfields := List.append_cancel_left hlist
  obtain ⟨hfields, bytes⟩ := append_cons_inj_right hfields (nodigit _) (nodigit _)
  obtain ⟨hfields, hex⟩ := append_cons_inj_right hfields hhex hhex'
  obtain ⟨hfields, algorithm⟩ := append_cons_inj_right hfields halgorithm halgorithm'
  obtain ⟨path, tier⟩ := append_cons_inj_right hfields (nodigit _) (nodigit _)
  obtain ⟨_, _, ⟨_, _⟩, _⟩ := shard
  obtain ⟨_, _, ⟨_, _⟩, _⟩ := shard'
  simp only [ManifestShard.mk.injEq, ArtifactDigest.mk.injEq]
  exact ⟨String.toList_inj.mp path,
    UInt16.toNat_inj.mp (Decimal.repr_toList_injective tier),
    ⟨String.toList_inj.mp algorithm, String.toList_inj.mp hex⟩,
    UInt64.toNat_inj.mp (Decimal.repr_toList_injective bytes)⟩

/-- The newlines of a shard's line are those of its path. -/
theorem ManifestShard.count_text {shard : ManifestShard} (plain : shard.digest.Plain) :
    shard.text.toList.count '\n' = shard.path.toList.count '\n' := by
  have nodigit : ∀ n : Nat, n.repr.toList.count '\n' = 0 := fun n =>
    List.count_eq_zero_of_not_mem (Decimal.notMem_repr (by decide) n)
  obtain ⟨halgorithm, hhex⟩ := plain '\n' (by simp)
  have label : "shard|".toList.count '\n' = 0 := by decide
  rw [text_toList]
  simp only [List.count_append, List.count_cons, nodigit, label,
    List.count_eq_zero_of_not_mem halgorithm, List.count_eq_zero_of_not_mem hhex]
  simp

namespace SecureModelManifest

/-- The lines of the canonical text, without their newlines. -/
def lines (manifest : SecureModelManifest) : List (List Char) :=
  s!"model_id={manifest.modelId}".toList ::
    s!"version={manifest.versionMajor}.{manifest.versionMinor}.{manifest.versionPatch}".toList ::
    ("tiers=" ++ ",".intercalate (manifest.sortedTiers.map toString)).toList ::
    manifest.sortedShards.map (·.text.toList)

theorem canonicalPayload_toList (manifest : SecureModelManifest) :
    manifest.canonicalPayload.toList = terminated '\n' manifest.lines := by
  have shardLines : ∀ (shards : List ManifestShard) (out : String),
      (shards.foldl (fun out shard => out ++
        (s!"shard|{shard.path}|{shard.tier}|{shard.digest.algorithm}|" ++
          s!"{shard.digest.hex}|{shard.bytes}\n")) out).toList =
        out.toList ++ terminated '\n' (shards.map (·.text.toList)) := by
    intro shards
    induction shards with
    | nil => simp
    | cons shard shards ih =>
        intro out
        rw [List.foldl_cons, ih]
        simp [ManifestShard.text_toList]
  rw [canonicalPayload, shardLines]
  simp [lines]

/-! ## Reading the lines -/

theorem toString_tiers_toList (tiers : List TierId) :
    (",".intercalate (tiers.map toString)).toList =
      [','].intercalate (tiers.map fun tier => tier.toNat.repr.toList) := by
  simp [String.toList_intercalate, Function.comp_def]

theorem tiers_inj {tiers tiers' : List TierId}
    (h : ",".intercalate (tiers.map toString) = ",".intercalate (tiers'.map toString)) :
    tiers = tiers' := by
  have tokens : ∀ list : List TierId, ∀ token ∈ list.map fun tier => tier.toNat.repr.toList,
      token ≠ [] ∧ ',' ∉ token := by
    intro list token htoken
    obtain ⟨tier, -, rfl⟩ := List.mem_map.mp htoken
    exact ⟨Decimal.repr_toList_ne_nil _, Decimal.notMem_repr (by decide) _⟩
  have hlist := congrArg String.toList h
  rw [toString_tiers_toList, toString_tiers_toList] at hlist
  have hinj : Function.Injective fun tier : TierId => tier.toNat.repr.toList :=
    fun _ _ htext => UInt16.toNat_inj.mp (Decimal.repr_toList_injective htext)
  exact List.map_injective_iff.mpr hinj (intercalate_inj (tokens _) (tokens _) hlist)

theorem version_inj {a b c x y z : UInt32}
    (h : s!"version={a}.{b}.{c}" = s!"version={x}.{y}.{z}") : b = y ∧ c = z := by
  have nodigit : ∀ n : Nat, '.' ∉ n.repr.toList := Decimal.notMem_repr (by decide)
  have hlist : a.toNat.repr.toList ++ '.' :: (b.toNat.repr.toList ++ '.' :: c.toNat.repr.toList) =
      x.toNat.repr.toList ++ '.' :: (y.toNat.repr.toList ++ '.' :: z.toNat.repr.toList) := by
    simpa using congrArg String.toList h
  obtain ⟨-, hrest⟩ := append_cons_inj hlist (nodigit _) (nodigit _)
  obtain ⟨minor, patch⟩ := append_cons_inj hrest (nodigit _) (nodigit _)
  exact ⟨UInt32.toNat_inj.mp (Decimal.repr_toList_injective minor),
    UInt32.toNat_inj.mp (Decimal.repr_toList_injective patch)⟩

/-! ## Content and newlines -/

theorem map_inj_on {α β : Type*} {f : α → β} {xs ys : List α}
    (inj : ∀ x ∈ xs, ∀ y ∈ ys, f x = f y → x = y) (h : xs.map f = ys.map f) : xs = ys := by
  induction xs generalizing ys with
  | nil => exact (List.map_eq_nil_iff.mp h.symm).symm
  | cons x xs ih =>
      cases ys with
      | nil => cases h
      | cons y ys =>
          obtain ⟨hhead, htail⟩ := List.cons.inj h
          rw [inj x (by simp) y (by simp) hhead,
            ih (fun a ha b hb => inj a (by simp [ha]) b (by simp [hb])) htail]

/-- Whether two manifests have the same content, up to the order of the lists. -/
structure SameContent (manifest manifest' : SecureModelManifest) : Prop where
  modelId : manifest.modelId = manifest'.modelId
  versionMinor : manifest.versionMinor = manifest'.versionMinor
  versionPatch : manifest.versionPatch = manifest'.versionPatch
  tiers : manifest.tiers.Perm manifest'.tiers
  shards : manifest.shards.Perm manifest'.shards

/-- How many newlines the model id contains, and each path in sorted order. -/
def newlineShape (manifest : SecureModelManifest) : Nat × List Nat :=
  (manifest.modelId.toList.count '\n',
    (manifest.sortedShards.map (·.path)).map (·.toList.count '\n'))

/-- Whether every digest is free of separators. -/
def PlainDigests (manifest : SecureModelManifest) : Prop :=
  ∀ shard ∈ manifest.shards, shard.digest.Plain

theorem count_lines {manifest : SecureModelManifest} (plain : manifest.PlainDigests) :
    manifest.lines.map (List.count '\n') =
      manifest.newlineShape.1 :: 0 :: 0 :: manifest.newlineShape.2 := by
  have nodigit : ∀ n : Nat, n.repr.toList.count '\n' = 0 := fun n =>
    List.count_eq_zero_of_not_mem (Decimal.notMem_repr (by decide) n)
  have hmodel : "model_id=".toList.count '\n' = 0 := by decide
  have hversion : "version=".toList.count '\n' = 0 := by decide
  have hlabel : "tiers=".toList.count '\n' = 0 := by decide
  have htiers : (",".intercalate (manifest.sortedTiers.map toString)).toList.count '\n' = 0 := by
    rw [toString_tiers_toList]
    refine List.count_eq_zero_of_not_mem fun hmem => ?_
    rcases mem_of_mem_intercalate hmem with hcomma | ⟨token, htoken, hnewline⟩
    · exact absurd hcomma (by decide)
    · obtain ⟨tier, -, rfl⟩ := List.mem_map.mp htoken
      exact Decimal.notMem_repr (by decide) _ hnewline
  have hshards : (manifest.sortedShards.map (·.text.toList)).map (List.count '\n') =
      manifest.newlineShape.2 := by
    rw [newlineShape, List.map_map, List.map_map]
    refine List.map_congr_left fun shard hshard => ?_
    rw [Function.comp_apply, Function.comp_apply]
    exact ManifestShard.count_text (plain shard ((mem_sortByKey _).mp hshard))
  have hdot : ".".toList.count '\n' = 0 := by decide
  rw [lines, List.map_cons, List.map_cons, List.map_cons, hshards]
  simp only [newlineShape, toString_string, toString_uint32, String.toList_append,
    List.count_append, nodigit, hmodel, hversion, hlabel, hdot, htiers, Nat.zero_add]

/-- Manifests with the same content have newlines in the same places. -/
theorem SameContent.newlineShape_eq {manifest manifest' : SecureModelManifest}
    (same : manifest.SameContent manifest') : manifest.newlineShape = manifest'.newlineShape := by
  rw [newlineShape, newlineShape, same.modelId, sortedShards, sortedShards,
    map_sortByKey_of_perm (·.path) same.shards]

/-- Whether neither the model id nor a path contains a newline. -/
def NewlineFree (manifest : SecureModelManifest) : Prop :=
  '\n' ∉ manifest.modelId.toList ∧ ∀ shard ∈ manifest.shards, '\n' ∉ shard.path.toList

theorem NewlineFree.newlineShape_eq {manifest : SecureModelManifest}
    (free : manifest.NewlineFree) :
    manifest.newlineShape = (0, List.replicate manifest.shards.length 0) := by
  have hlength : manifest.sortedShards.length = manifest.shards.length :=
    (sortByKey_perm _ _).length_eq
  have hpaths : (manifest.sortedShards.map (·.path)).map (·.toList.count '\n') =
      List.replicate manifest.shards.length 0 := by
    refine List.eq_replicate_iff.mpr ⟨by simp [hlength], fun n hn => ?_⟩
    obtain ⟨path, hpath, rfl⟩ := List.mem_map.mp hn
    obtain ⟨shard, hshard, rfl⟩ := List.mem_map.mp hpath
    exact List.count_eq_zero_of_not_mem (free.2 shard ((mem_sortByKey _).mp hshard))
  rw [newlineShape, hpaths, List.count_eq_zero_of_not_mem free.1]

/-- Without newlines in ids and paths, one canonical text has one shape: the newlines
of the text count its shards. -/
theorem newlineShape_eq_of_newlineFree {manifest manifest' : SecureModelManifest}
    (plain : manifest.PlainDigests) (plain' : manifest'.PlainDigests)
    (free : manifest.NewlineFree) (free' : manifest'.NewlineFree)
    (hpayload : manifest.canonicalPayload = manifest'.canonicalPayload) :
    manifest.newlineShape = manifest'.newlineShape := by
  have counted : ∀ m : SecureModelManifest, m.PlainDigests → m.NewlineFree →
      m.canonicalPayload.toList.count '\n' = m.shards.length + 3 := by
    intro m hplain hfree
    have hlines : m.lines.length = m.shards.length + 3 := by
      simp [lines, sortedShards, (sortByKey_perm _ _).length_eq]
    rw [canonicalPayload_toList, count_terminated, hlines, count_lines hplain,
      hfree.newlineShape_eq]
    simp
  have hshards : manifest.shards.length + 3 = manifest'.shards.length + 3 := by
    rw [← counted _ plain free, ← counted _ plain' free', hpayload]
  rw [free.newlineShape_eq, free'.newlineShape_eq, Nat.add_right_cancel hshards]

/-- One canonical text with newlines in the same places has one content. -/
theorem sameContent_of_canonicalPayload_eq {manifest manifest' : SecureModelManifest}
    (plain : manifest.PlainDigests) (plain' : manifest'.PlainDigests)
    (hpayload : manifest.canonicalPayload = manifest'.canonicalPayload)
    (hshape : manifest.newlineShape = manifest'.newlineShape) :
    manifest.SameContent manifest' := by
  have htext := congrArg String.toList hpayload
  rw [canonicalPayload_toList, canonicalPayload_toList] at htext
  have hlines := terminated_inj_of_count htext (by
    rw [count_lines plain, count_lines plain', hshape])
  simp only [lines, List.cons.injEq, String.toList_inj] at hlines
  obtain ⟨hmodel, hversion, htiers, hshards⟩ := hlines
  obtain ⟨minor, patch⟩ := version_inj hversion
  have model : manifest.modelId = manifest'.modelId := by simpa using hmodel
  have tiers : manifest.sortedTiers = manifest'.sortedTiers := tiers_inj (by simpa using htiers)
  have shards : manifest.sortedShards = manifest'.sortedShards := by
    refine map_inj_on (fun shard hshard shard' hshard' htext => ?_) hshards
    exact ManifestShard.text_inj (plain shard ((mem_sortByKey _).mp hshard))
      (plain' shard' ((mem_sortByKey _).mp hshard')) (String.toList_inj.mp htext)
  refine ⟨model, minor, patch, ?_, ?_⟩
  · calc manifest.tiers.Perm manifest.sortedTiers := (sortByKey_perm _ _).symm
      _ = manifest'.sortedTiers := tiers
      List.Perm _ manifest'.tiers := sortByKey_perm _ _
  · calc manifest.shards.Perm manifest.sortedShards := (sortByKey_perm _ _).symm
      _ = manifest'.sortedShards := shards
      List.Perm _ manifest'.shards := sortByKey_perm _ _

end SecureModelManifest

/-! ## Accepted manifests -/

section

variable {ed25519 : Ed25519} {sha256 : Bytes → Vector UInt8 32}
  {sha512 : Bytes → Vector UInt8 64} {hex : Hex} {subtle : Subtle}

/-- A digest that some payload has is free of separators. -/
theorem ArtifactDigest.plain_of_fromPayload (lawful : hex.Lawful) {payload : Bytes}
    {algorithm : String} {digest : ArtifactDigest}
    (h : fromPayload sha256 sha512 hex payload algorithm = .ok digest) : digest.Plain := by
  have nodigit : ∀ sep ∈ ['|', '\n'], sep ∉ "0123456789abcdef".toList := by simp
  have label256 : ∀ sep ∈ ['|', '\n'], sep ∉ sha256Algorithm.toList := by simp [sha256Algorithm]
  have label512 : ∀ sep ∈ ['|', '\n'], sep ∉ sha512Algorithm.toList := by simp [sha512Algorithm]
  have encoded : ∀ bytes, ∀ sep ∈ ['|', '\n'], sep ∉ (hex.encode bytes).toList :=
    fun bytes sep hsep hmem => nodigit sep hsep (lawful.encode_digits bytes sep hmem)
  intro sep hsep
  by_cases is256 : algorithm = sha256Algorithm
  · simp only [fromPayload, if_pos is256, Except.ok.injEq] at h
    subst h
    exact ⟨label256 sep hsep, encoded _ sep hsep⟩
  · by_cases is512 : algorithm = sha512Algorithm
    · simp only [fromPayload, if_neg is256, if_pos is512, Except.ok.injEq] at h
      subst h
      exact ⟨label512 sep hsep, encoded _ sep hsep⟩
    · simp [fromPayload, is256, is512] at h

namespace SecureModelLoader

theorem plainDigests_of_load (lawful : hex.Lawful) {loader : SecureModelLoader ed25519}
    {manifest : SecureModelManifest} {store : ArtifactStore} {loaded : LoadedModel}
    (hload : loader.load sha256 sha512 hex subtle manifest store = .ok loaded) :
    manifest.PlainDigests := by
  obtain ⟨-, -, -, -, -, verified, -⟩ := (load_eq_ok_iff _ _ _ _).mp hload
  intro shard hshard
  obtain ⟨payload, hverified⟩ := verified shard hshard
  exact ArtifactDigest.plain_of_fromPayload lawful hverified.digest_eq

/-- A loader that accepts two manifests with one hash has hashed one canonical text,
unless the digests of the two texts collide. -/
theorem canonicalPayload_eq_of_load (lawful : hex.Lawful) {loader : SecureModelLoader ed25519}
    {manifest manifest' : SecureModelManifest} {store store' : ArtifactStore}
    {loaded loaded' : LoadedModel}
    (hload : loader.load sha256 sha512 hex subtle manifest store = .ok loaded)
    (hload' : loader.load sha256 sha512 hex subtle manifest' store' = .ok loaded')
    (hhash : manifest.manifestHashHex = manifest'.manifestHashHex)
    (hsha : Set.InjOn sha256
      {asBytes manifest.canonicalPayload, asBytes manifest'.canonicalPayload}) :
    manifest.canonicalPayload = manifest'.canonicalPayload := by
  obtain ⟨-, -, -, recomputed, -⟩ := (load_eq_ok_iff _ _ _ _).mp hload
  obtain ⟨-, -, -, recomputed', -⟩ := (load_eq_ok_iff _ _ _ _).mp hload'
  exact (sha256Hex_inj lawful.encode_injective hsha).mp
    (recomputed.trans (hhash.trans recomputed'.symm))

/-- Without newlines in ids and paths, a hash stands for one content. -/
theorem sameContent_of_load_newlineFree (lawful : hex.Lawful)
    {loader : SecureModelLoader ed25519} {manifest manifest' : SecureModelManifest}
    {store store' : ArtifactStore} {loaded loaded' : LoadedModel}
    (hload : loader.load sha256 sha512 hex subtle manifest store = .ok loaded)
    (hload' : loader.load sha256 sha512 hex subtle manifest' store' = .ok loaded')
    (hhash : manifest.manifestHashHex = manifest'.manifestHashHex)
    (hsha : Set.InjOn sha256
      {asBytes manifest.canonicalPayload, asBytes manifest'.canonicalPayload})
    (free : manifest.NewlineFree) (free' : manifest'.NewlineFree) :
    manifest.SameContent manifest' := by
  have plain := plainDigests_of_load lawful hload
  have plain' := plainDigests_of_load lawful hload'
  have hpayload := canonicalPayload_eq_of_load lawful hload hload' hhash hsha
  exact SecureModelManifest.sameContent_of_canonicalPayload_eq plain plain' hpayload
    (SecureModelManifest.newlineShape_eq_of_newlineFree plain plain' free free' hpayload)

/-- Two manifests with one hash that a loader accepts, each on a store of its own,
have the same content exactly when they have newlines in the same places: equally
many in the model ids, and equally many in the paths at each place of their
sorted order. The digests of the two canonical texts must not collide. -/
theorem load_sameContent_iff (lawful : hex.Lawful) (loader : SecureModelLoader ed25519)
    (manifest manifest' : SecureModelManifest) (store store' : ArtifactStore)
    (loaded loaded' : LoadedModel)
    (hload : loader.load sha256 sha512 hex subtle manifest store = .ok loaded)
    (hload' : loader.load sha256 sha512 hex subtle manifest' store' = .ok loaded')
    (hhash : manifest.manifestHashHex = manifest'.manifestHashHex)
    (hsha : Set.InjOn sha256
      {asBytes manifest.canonicalPayload, asBytes manifest'.canonicalPayload}) :
    manifest.SameContent manifest' ↔ manifest.newlineShape = manifest'.newlineShape := by
  constructor
  · exact SecureModelManifest.SameContent.newlineShape_eq
  · intro hshape
    exact SecureModelManifest.sameContent_of_canonicalPayload_eq
      (plainDigests_of_load lawful hload) (plainDigests_of_load lawful hload')
      (canonicalPayload_eq_of_load lawful hload hload' hhash hsha) hshape

end SecureModelLoader

end

/-! ## A signed manifest -/

namespace SignedExample

def shardA : ManifestShard where
  path := "a"
  tier := 1
  digest := {
    algorithm := sha256Algorithm
    hex := "ca978112ca1bbdcafac231b39a23dc4da786eff8147c4e72b9807785afee48bb" }
  bytes := 1

def shardB : ManifestShard where
  path := "b"
  tier := 1
  digest := {
    algorithm := sha256Algorithm
    hex := "3e23e8160039594a33894f6564e1b1348bbd7a0088d42c4acb73eeaed59c009d" }
  bytes := 1

/-- One shard whose path contains the line of `shardA` and the label of the next. -/
def joinedShard : ManifestShard :=
  { shardB with path := s!"a|1|sha256|{shardA.digest.hex}|1\nshard|b" }

/-- The hash of the manifest of `shardA` and `shardB`. -/
def hashBytes : Bytes :=
  [0x36, 0xf3, 0x2a, 0xfd, 0x5c, 0xdb, 0x93, 0x72, 0xd6, 0xd9, 0x03, 0x86, 0xdf, 0xf6, 0xa7, 0x9a,
    0x3b, 0x02, 0x7b, 0xf3, 0x84, 0x9b, 0x14, 0xdf, 0xed, 0x55, 0xad, 0x89, 0xce, 0xb8, 0xb4, 0xfe]

def publicKey : Vector UInt8 32 :=
  #v[0xd7, 0x5a, 0x98, 0x01, 0x82, 0xb1, 0x0a, 0xb7, 0xd5, 0x4b, 0xfe, 0xd3, 0xc9, 0x64, 0x07, 0x3a,
    0x0e, 0xe1, 0x72, 0xf3, 0xda, 0xa6, 0x23, 0x25, 0xaf, 0x02, 0x1a, 0x68, 0xf7, 0x07, 0x51, 0x1a]

/-- The Ed25519 signature of the hash. -/
def signature : Vector UInt8 64 :=
  #v[0x4f, 0x54, 0x42, 0xdb, 0x12, 0x2d, 0xc0, 0xe0, 0xcb, 0xe0, 0xea, 0xe5, 0x7d, 0xcf, 0x97, 0x81,
    0xf8, 0xed, 0xb2, 0xab, 0x28, 0xf4, 0x25, 0xc3, 0x26, 0x9b, 0x28, 0xc0, 0x02, 0x7b, 0x84, 0xbc,
    0x39, 0x8a, 0x8e, 0xbc, 0xd4, 0x49, 0xa7, 0x57, 0x1a, 0x70, 0xde, 0x66, 0xa5, 0xde, 0x83, 0x53,
    0x59, 0xb2, 0x43, 0x42, 0xf7, 0x9f, 0x39, 0x28, 0x43, 0xbf, 0xff, 0xde, 0xd8, 0x60, 0x80, 0x01]

/-- A manifest with the given shards, under that hash and that signature. -/
def manifest (shards : List ManifestShard) : SecureModelManifest where
  modelId := "m"
  versionMajor := 1
  versionMinor := 0
  versionPatch := 0
  tiers := [1]
  shards
  manifestHashHex := Reference.hex.encode hashBytes
  signature := {
    signerId := "security-team"
    keyId := "k1"
    signatureHex := Reference.hex.encode signature.toList }

def store : ArtifactStore :=
  ((InMemoryArtifactStore.empty.insert "a" [0x61]).insert "b" [0x62]).toArtifactStore

def joinedStore : ArtifactStore :=
  (InMemoryArtifactStore.empty.insert joinedShard.path [0x62]).toArtifactStore

def loader : SecureModelLoader (Reference.signing publicKey hashBytes signature) where
  signatureVerifier := SignatureVerifier.empty.registerKey "k1" publicKey
  supportedMajorVersion := 1
  expectedTiers := [1].toFinset

/-- No shard here has a SHA-512 digest, so any function may stand for it. -/
def sha512 (_ : Bytes) : Vector UInt8 64 := Vector.replicate 64 0

theorem recomputeHash_manifest :
    (manifest [shardA, shardB]).recomputeHash Sha256.hash Reference.hex =
      (manifest []).manifestHashHex := by
  have hhash : (Sha256.hash (asBytes (manifest [shardA, shardB]).canonicalPayload)).toList =
      hashBytes := by decide +kernel
  exact congrArg Reference.hex.encode hhash

theorem verifySignature_manifest :
    loader.signatureVerifier.verifySignature Reference.hex (manifest []).manifestHashHex
      (manifest []).signature = .ok () :=
  SignatureVerifier.verifySignature_encode Reference.hex_lawful
    Std.ExtTreeMap.getElem?_insert_self rfl (Reference.signing_verifyStrict _ _ _)

theorem shardA_verified :
    shardA.Verified Sha256.hash sha512 Reference.hex store [1].toFinset [0x61] where
  tier_mem := List.mem_toFinset.mpr List.mem_cons_self
  read_eq := by
    simp [store, shardA, InMemoryArtifactStore.toArtifactStore, InMemoryArtifactStore.insert,
      Std.ExtTreeMap.getElem?_insert]
  bytes_eq := rfl
  digest_eq := by decide +kernel

theorem shardB_verified :
    shardB.Verified Sha256.hash sha512 Reference.hex store [1].toFinset [0x62] where
  tier_mem := List.mem_toFinset.mpr List.mem_cons_self
  read_eq := Std.ExtTreeMap.getElem?_insert_self
  bytes_eq := rfl
  digest_eq := by decide +kernel

theorem joinedShard_verified :
    joinedShard.Verified Sha256.hash sha512 Reference.hex joinedStore [1].toFinset [0x62] where
  tier_mem := List.mem_toFinset.mpr List.mem_cons_self
  read_eq := Std.ExtTreeMap.getElem?_insert_self
  bytes_eq := rfl
  digest_eq := shardB_verified.digest_eq

theorem canonicalPayload_swapped : (manifest [shardB, shardA]).canonicalPayload =
    (manifest [shardA, shardB]).canonicalPayload := by
  have hsorted : (manifest [shardB, shardA]).sortedShards =
      (manifest [shardA, shardB]).sortedShards := by decide
  simp only [SecureModelManifest.canonicalPayload, hsorted]
  rfl

theorem canonicalPayload_joined : (manifest [joinedShard]).canonicalPayload =
    (manifest [shardA, shardB]).canonicalPayload := by decide +kernel

/-- Shards with the canonical text of `shardA` and `shardB` are loaded under their hash
and signature. -/
theorem load_manifest {shards : List ManifestShard} {store : ArtifactStore}
    (hshape : (manifest shards).validateShape = .ok ())
    (hpayload : (manifest shards).canonicalPayload = (manifest [shardA, shardB]).canonicalPayload)
    (hverified : ∀ shard ∈ shards, ∃ payload,
      shard.Verified Sha256.hash sha512 Reference.hex store [1].toFinset payload) :
    loader.load Sha256.hash sha512 Reference.hex Reference.subtle (manifest shards) store = .ok {
      modelId := "m"
      loadedTiers := [1]
      verifiedShards := sortByKey (fun path => path) (shards.map (·.path)) } := by
  have hhash : (manifest shards).recomputeHash Sha256.hash Reference.hex =
      (manifest shards).manifestHashHex := by
    rw [SecureModelManifest.recomputeHash, hpayload]
    exact recomputeHash_manifest
  exact (SecureModelLoader.load_eq_ok_iff _ _ _ _).mpr
    ⟨hshape, rfl, rfl, hhash, verifySignature_manifest, hverified, rfl⟩

theorem load_pair {shards : List ManifestShard} (hperm : [shardA, shardB].Perm shards)
    (hshape : (manifest shards).validateShape = .ok ())
    (hpayload : (manifest shards).canonicalPayload = (manifest [shardA, shardB]).canonicalPayload) :
    loader.load Sha256.hash sha512 Reference.hex Reference.subtle (manifest shards) store = .ok {
      modelId := "m"
      loadedTiers := [1]
      verifiedShards := sortByKey (fun path => path) (shards.map (·.path)) } := by
  refine load_manifest hshape hpayload fun shard hshard => ?_
  obtain rfl | rfl : shard = shardA ∨ shard = shardB := by simpa using hperm.mem_iff.mpr hshard
  · exact ⟨_, shardA_verified⟩
  · exact ⟨_, shardB_verified⟩

theorem load_joined :
    loader.load Sha256.hash sha512 Reference.hex Reference.subtle (manifest [joinedShard])
      joinedStore = .ok {
        modelId := "m"
        loadedTiers := [1]
        verifiedShards := [joinedShard.path] } := by
  refine load_manifest rfl canonicalPayload_joined fun shard hshard => ?_
  rw [List.mem_singleton.mp hshard]
  exact ⟨_, joinedShard_verified⟩

end SignedExample

open SignedExample in
theorem SecureModelLoader.load_sameContent_swapped :
    (manifest [shardA, shardB]).SameContent (manifest [shardB, shardA]) ↔
      (manifest [shardA, shardB]).newlineShape = (manifest [shardB, shardA]).newlineShape :=
  load_sameContent_iff Reference.hex_lawful loader (manifest [shardA, shardB])
    (manifest [shardB, shardA]) store store _ _ (load_pair (.refl _) rfl rfl)
    (load_pair (.swap _ _ _) rfl canonicalPayload_swapped) rfl
    (by simp [canonicalPayload_swapped])

open SignedExample in
/-- The loader accepts one shard with a newline in its path under the hash and the
signature of a manifest of two. -/
theorem SecureModelLoader.joined_shard_same_hash :
    ¬ (Reference.hex.Lawful → ∀ loaded loaded',
      loader.load Sha256.hash sha512 Reference.hex Reference.subtle (manifest [shardA, shardB])
          store = .ok loaded →
        loader.load Sha256.hash sha512 Reference.hex Reference.subtle (manifest [joinedShard])
            joinedStore = .ok loaded' →
          (manifest [shardA, shardB]).manifestHashHex = (manifest [joinedShard]).manifestHashHex →
            Set.InjOn Sha256.hash {asBytes (manifest [shardA, shardB]).canonicalPayload,
                asBytes (manifest [joinedShard]).canonicalPayload} →
              (manifest [shardA, shardB]).SameContent (manifest [joinedShard])) := by
  intro claim
  have hpair := load_pair (.refl _) rfl rfl
  have same := claim Reference.hex_lawful _ _ hpair load_joined rfl
    (by simp [canonicalPayload_joined])
  exact absurd same.shards.length_eq (by decide)

end LiteLlmSecurity
