import Remrun.Snapshot.Catchup

/-!
# What the builder and the readers accept

One specification for each function that checks a record: which entries the snapshot builder
takes, which of them the readers take back, and which tombstone lists are a history.
-/

namespace Remrun.Snapshot

open Keyed Reconcile
set_option autoImplicit false

theorem sha256Hex_ok {value label : String} : sha256Hex value label = .ok () ↔ isDigest value = true := by
  unfold sha256Hex
  split <;> simp_all

theorem sha256Hex_bind {α : Type} {value label : String} {next : Unit → Except String α} {out : α} :
    (sha256Hex value label >>= next) = .ok out ↔ isDigest value = true ∧ next () = .ok out := by
  unfold sha256Hex
  split
  · simp_all [Bind.bind, Except.bind]
  · simp_all [Bind.bind, Except.bind]

/-- Sorting a set of paths depends on its members only. -/
theorem sortPaths_congr {xs ys : List String} (h : ∀ path, path ∈ xs ↔ path ∈ ys) :
    sortPaths xs = sortPaths ys := by
  have hperm : xs.dedup.Perm ys.dedup := by
    rw [List.perm_ext_iff_of_nodup (List.nodup_dedup xs) (List.nodup_dedup ys)]
    intro path
    rw [List.mem_dedup, List.mem_dedup]
    exact h path
  have hsorted : (sortPaths xs).Perm (sortPaths ys) :=
    ((List.perm_insertionSort _ _).trans hperm).trans (List.perm_insertionSort _ _).symm
  exact hsorted.eq_of_pairwise' (List.pairwise_insertionSort _ _) (List.pairwise_insertionSort _ _)

/-! ## One entry -/

/-- The entries that a snapshot can hold. -/
structure Strong (path : String) (entry : FileEntry) : Prop where
  keyed : entry.path = path
  kind : entry.kind = "file"
  mode : entry.mode ≠ none
  sha256 : ∃ sha256, entry.sha256 = some sha256 ∧ isDigest sha256 = true

/-- The entries that `_validate_identity` takes. -/
structure Accepted (path : String) (entry : FileEntry) : Prop where
  canonical : canonicalPath path = true
  mtime : 0 ≤ entry.mtimeNs
  mode : ∀ mode, entry.mode = some mode → mode ≤ 0o7777

theorem contentIdentity_canonical (entry : FileEntry) :
    contentIdentity (canonicalIdentity entry) = entryIdentity entry := rfl

theorem pop_snapshotEntry (path : String) (entry : FileEntry) :
    (snapshotEntry path entry).pop "path" = canonicalIdentity entry := rfl

/-- The checks that are left for a regular file with a mode and a digest. -/
theorem validate_regular {path label sha256 : String} {entry : FileEntry} {mode : Nat}
    (hkind : entry.kind = "file") (hmode : entry.mode = some mode)
    (hsha : entry.sha256 = some sha256) :
    validateIdentity path (canonicalIdentity entry) label = .ok () ↔
      Accepted path entry ∧ isDigest sha256 = true := by
  have hkeys : hasIdentityKeys (canonicalIdentity entry) = true := rfl
  have hfile : (canonicalIdentity entry).field "kind" = .str "file" := by
    rw [← hkind]
    rfl
  have hsize : intWithin 0 none ((canonicalIdentity entry).field "size") = true := by
    show (decide ((0 : Int) ≤ (entry.size : Int)) && true) = true
    simp
  have hmtime : intWithin 0 none ((canonicalIdentity entry).field "mtime_ns") = true ↔
      0 ≤ entry.mtimeNs := by
    show (decide (0 ≤ entry.mtimeNs) && true) = true ↔ _
    simp
  have hbound : intWithin 0 (some 0o7777) ((canonicalIdentity entry).field "mode") = true ↔
      mode ≤ 0o7777 := by
    have hfield : (canonicalIdentity entry).field "mode" = .int mode := by
      show optionValue _ entry.mode = _
      rw [hmode]
      rfl
    rw [hfield]
    simp only [intWithin, Bool.and_eq_true, decide_eq_true_eq]
    omega
  have htext : ((canonicalIdentity entry).field "sha256").text = sha256 := by
    have hfield : (canonicalIdentity entry).field "sha256" = .str sha256 := by
      show optionValue _ entry.sha256 = _
      rw [hsha]
      rfl
    rw [hfield]
    rfl
  have haccepted : Accepted path entry ↔
      canonicalPath path = true ∧ 0 ≤ entry.mtimeNs ∧ mode ≤ 0o7777 := by
    constructor
    · rintro ⟨h1, h2, h3⟩
      exact ⟨h1, h2, h3 mode hmode⟩
    · rintro ⟨h1, h2, h3⟩
      refine ⟨h1, h2, fun mode' h => ?_⟩
      rw [hmode] at h
      exact (Option.some.inj h) ▸ h3
  rw [haccepted, ← hmtime, ← hbound]
  unfold validateIdentity
  rw [hkeys, hfile, hsize, htext]
  cases canonicalPath path <;>
    cases intWithin 0 none ((canonicalIdentity entry).field "mtime_ns") <;>
    cases intWithin 0 (some 0o7777) ((canonicalIdentity entry).field "mode") <;>
    simp [sha256Hex_ok]

theorem validate_canonical {path label : String} {entry : FileEntry} (hstrong : Strong path entry) :
    validateIdentity path (canonicalIdentity entry) label = .ok () ↔ Accepted path entry := by
  obtain ⟨sha256, hsha, hdigest⟩ := hstrong.sha256
  obtain ⟨mode, hmode⟩ := Option.ne_none_iff_exists'.mp hstrong.mode
  rw [validate_regular hstrong.kind hmode hsha]
  exact and_iff_left hdigest

theorem canonicalPath_ne_empty {path : String} (h : canonicalPath path = true) : path ≠ "" := by
  rintro rfl
  exact absurd h (by decide)

/-! ## The builder -/

theorem buildEntry_ok {path : String} {entry : FileEntry} {record : Record} :
    buildEntry path entry = .ok record ↔ Strong path entry ∧ record = snapshotEntry path entry := by
  unfold buildEntry
  constructor
  · intro h
    split at h
    · cases h
    · rename_i hpath
      split at h
      · cases h
      · rename_i sha256 hsha
        split at h
        · cases h
        · rename_i hweak
          obtain ⟨hdigest, hrecord⟩ := sha256Hex_bind.mp h
          refine ⟨⟨not_not.mp hpath, ?_, fun hmode => hweak (Or.inr hmode), sha256, hsha, hdigest⟩,
            (Except.ok.inj hrecord).symm⟩
          by_contra hkind
          exact hweak (Or.inl hkind)
  · rintro ⟨⟨hpath, hkind, hmode, sha256, hsha, hdigest⟩, rfl⟩
    rw [if_neg (not_not.mpr hpath), hsha]
    simp only [hkind, ne_eq, not_true_eq_false, false_or, if_neg hmode]
    exact sha256Hex_bind.mpr ⟨hdigest, rfl⟩

/-- The entries of a manifest for a list of paths. -/
def entriesAt (manifest : Manifest) (paths : List String) : List (String × FileEntry) :=
  paths.filterMap fun path => (manifest.get path).map (path, ·)

theorem mem_entriesAt {manifest : Manifest} {paths : List String} {path : String}
    {entry : FileEntry} :
    (path, entry) ∈ entriesAt manifest paths ↔ path ∈ paths ∧ manifest.get path = some entry := by
  simp only [entriesAt, List.mem_filterMap, Option.map_eq_some_iff, Prod.mk.injEq]
  constructor
  · rintro ⟨q, hq, entry', hget, rfl, rfl⟩
    exact ⟨hq, hget⟩
  · rintro ⟨hpath, hget⟩
    exact ⟨path, hpath, entry, hget, rfl, rfl⟩

theorem mapM_ok {α β ε : Type} {f : α → Except ε β} {g : α → β} {good : α → Prop}
    (hf : ∀ a b, f a = .ok b ↔ good a ∧ b = g a) : ∀ (xs : List α) (ys : List β),
    xs.mapM f = .ok ys ↔ (∀ a ∈ xs, good a) ∧ ys = xs.map g
  | [], ys => by
    simp only [List.mapM_nil, List.not_mem_nil, false_implies, implies_true, true_and, List.map_nil]
    exact ⟨fun h => (Except.ok.inj h).symm, fun h => congrArg _ h.symm⟩
  | a :: rest, ys => by
    rw [List.mapM_cons]
    constructor
    · intro h
      cases hhead : f a with
      | error e => rw [hhead] at h; cases h
      | ok b =>
        cases htail : rest.mapM f with
        | error e => rw [hhead, htail] at h; cases h
        | ok bs =>
          rw [hhead, htail] at h
          cases h
          obtain ⟨hgood, hb⟩ := (hf a b).mp hhead
          obtain ⟨hrest, hbs⟩ := (mapM_ok hf rest bs).mp htail
          exact ⟨List.forall_mem_cons.mpr ⟨hgood, hrest⟩, by rw [hb, hbs, List.map_cons]⟩
    · rintro ⟨hgood, rfl⟩
      obtain ⟨hhead, hrest⟩ := List.forall_mem_cons.mp hgood
      rw [(hf a (g a)).mpr ⟨hhead, rfl⟩, (mapM_ok hf rest _).mpr ⟨hrest, rfl⟩]
      rfl

/-- Every entry of the manifest is strong. -/
def StrongManifest (manifest : Manifest) : Prop :=
  ∀ path entry, manifest.get path = some entry → Strong path entry

/-- The generations for which a snapshot can be built. -/
def ValidGeneration (generation : Int) (parentGeneration : Option Int) : Prop :=
  (generation = 0 ∧ parentGeneration = none) ∨
    ∃ parent, parentGeneration = some parent ∧ 0 < generation ∧ parent < generation

theorem validGeneration_iff {generation : Int} {parentGeneration : Option Int} :
    ValidGeneration generation parentGeneration ↔ ¬ generation < 0 ∧
      ¬ (generation = 0 ∧ parentGeneration ≠ none) ∧
      ¬ lacksParent generation parentGeneration = true := by
  unfold ValidGeneration lacksParent
  cases parentGeneration with
  | none => simp; omega
  | some parent => simp; omega

/-- The record of a strong manifest. -/
def snapshotOf (P : Platform) (manifest : Manifest) (generation : Int)
    (parentGeneration : Option Int) (policySha256 : String) : CanonicalSnapshot where
  format := "remrun-canonical-snapshot-v1"
  generation := generation
  parentGeneration := parentGeneration
  policySha256 := policySha256
  manifestSha256 := strongManifestDigest P manifest
  entries := (entriesAt manifest (sortPaths manifest.keys)).map fun item => snapshotEntry item.1 item.2

theorem mem_entries_manifest {manifest : Manifest} {path : String} {entry : FileEntry} :
    (path, entry) ∈ entriesAt manifest (sortPaths manifest.keys) ↔ manifest.get path = some entry := by
  rw [mem_entriesAt, mem_sortPaths, mem_keys_iff]
  exact ⟨And.right, fun h => ⟨⟨entry, h⟩, h⟩⟩

theorem buildEntries_ok {manifest : Manifest} {entries : List Record} :
    buildEntries manifest (sortPaths manifest.keys) = .ok entries ↔ StrongManifest manifest ∧
      entries = (entriesAt manifest (sortPaths manifest.keys)).map fun item =>
        snapshotEntry item.1 item.2 := by
  have hloop := mapM_ok (f := fun item : String × FileEntry => buildEntry item.1 item.2)
    (g := fun item => snapshotEntry item.1 item.2)
    (fun item record => buildEntry_ok) (entriesAt manifest (sortPaths manifest.keys)) entries
  have hstrong : (∀ item ∈ entriesAt manifest (sortPaths manifest.keys), Strong item.1 item.2) ↔
      StrongManifest manifest := by
    constructor
    · intro h path entry hget
      exact h (path, entry) (mem_entries_manifest.mpr hget)
    · rintro h ⟨path, entry⟩ hmem
      exact h path entry (mem_entries_manifest.mp hmem)
  rw [← hstrong, ← hloop]
  rfl

/-- The builder returns a record for the strong manifests and the valid generations only. -/
theorem buildCanonicalSnapshot_ok {P : Platform} {manifest : Manifest} {generation : Int}
    {parentGeneration : Option Int} {policySha256 : String} {snapshot : CanonicalSnapshot} :
    buildCanonicalSnapshot P manifest generation parentGeneration policySha256 = .ok snapshot ↔
      ValidGeneration generation parentGeneration ∧ isDigest policySha256 = true ∧
        StrongManifest manifest ∧
        snapshot = snapshotOf P manifest generation parentGeneration policySha256 := by
  rw [validGeneration_iff]
  unfold buildCanonicalSnapshot
  split
  · simp_all
  · split
    · simp_all
    · split
      · simp_all
      · rename_i h1 h2 h3
        rw [sha256Hex_bind]
        constructor
        · rintro ⟨hpolicy, h⟩
          cases hentries : buildEntries manifest (sortPaths manifest.keys) with
          | error e => rw [hentries] at h; cases h
          | ok entries =>
            rw [hentries] at h
            obtain ⟨hstrong, hlist⟩ := buildEntries_ok.mp hentries
            refine ⟨⟨h1, h2, h3⟩, hpolicy, hstrong, ?_⟩
            rw [← Except.ok.inj h, hlist]
            rfl
        · rintro ⟨-, hpolicy, hstrong, rfl⟩
          rw [buildEntries_ok.mpr ⟨hstrong, rfl⟩]
          exact ⟨hpolicy, rfl⟩

/-! ## The snapshot reader -/

/-- The readers take every entry of the manifest. -/
def AcceptedManifest (manifest : Manifest) : Prop :=
  ∀ path entry, manifest.get path = some entry → Accepted path entry

theorem readEntry_ok {path : String} {entry : FileEntry} {raw out : Dict (id : String → String) Record}
    (hstrong : Strong path entry) (hfresh : raw.get path = none) :
    readEntry raw (snapshotEntry path entry) = .ok out ↔
      Accepted path entry ∧ out = raw.set path (canonicalIdentity entry) := by
  have hpath : (snapshotEntry path entry).get "path" = some (.str path) := rfl
  have hvalid : validateIdentity path (canonicalIdentity entry) "snapshot identity" = .ok () ↔
      Accepted path entry := validate_canonical hstrong
  unfold readEntry
  rw [hpath]
  simp only [pop_snapshotEntry, hfresh, ne_eq, not_true_eq_false, or_false]
  split
  · rename_i hempty
    constructor
    · rintro ⟨⟩
    · exact fun h => absurd hempty (canonicalPath_ne_empty h.1.canonical)
  · rw [← hvalid]
    cases validateIdentity path (canonicalIdentity entry) "snapshot identity" with
    | error e =>
      constructor
      · rintro ⟨⟩
      · rintro ⟨⟨⟩, -⟩
    | ok u =>
      refine ⟨fun h => ⟨rfl, (Except.ok.inj h).symm⟩, ?_⟩
      rintro ⟨-, rfl⟩
      rfl

/-- The loop takes a list of entries under distinct new paths if it takes each, and then stores
their identities. -/
theorem readEntries_ok : ∀ (items : List (String × FileEntry))
    (raw out : Dict (id : String → String) Record), (items.map Prod.fst).Nodup →
    (∀ item ∈ items, Strong item.1 item.2) → (∀ item ∈ items, raw.get item.1 = none) →
    ((items.map fun item => snapshotEntry item.1 item.2).foldlM readEntry raw = .ok out ↔
      (∀ item ∈ items, Accepted item.1 item.2) ∧
        out = items.foldl (fun raw item => raw.set item.1 (canonicalIdentity item.2)) raw)
  | [], raw, out, _, _, _ => by
    simp only [List.map_nil, List.foldlM_nil, List.not_mem_nil, false_implies, implies_true,
      true_and, List.foldl_nil]
    exact ⟨fun h => (Except.ok.inj h).symm, fun h => congrArg _ h.symm⟩
  | (path, entry) :: rest, raw, out, hnodup, hstrong, hfresh => by
    obtain ⟨hout, hnodup⟩ : path ∉ rest.map Prod.fst ∧ (rest.map Prod.fst).Nodup :=
      List.nodup_cons.mp hnodup
    obtain ⟨hhead, hstrong⟩ := List.forall_mem_cons.mp hstrong
    obtain ⟨hnew, hfresh⟩ := List.forall_mem_cons.mp hfresh
    have hfresh' : ∀ item ∈ rest, (raw.set path (canonicalIdentity entry)).get item.1 = none := by
      intro item hitem
      rw [Dict.get_set_other, hfresh item hitem]
      exact fun h : item.1 = path => hout (h ▸ List.mem_map_of_mem (f := Prod.fst) hitem)
    have ih := readEntries_ok rest (raw.set path (canonicalIdentity entry)) out hnodup hstrong hfresh'
    rw [List.map_cons, List.foldlM_cons, List.foldl_cons, List.forall_mem_cons, and_assoc, ← ih]
    constructor
    · intro h
      cases hstep : readEntry raw (snapshotEntry path entry) with
      | error e => rw [hstep] at h; cases h
      | ok next =>
        obtain ⟨haccepted, rfl⟩ := (readEntry_ok hhead hnew).mp hstep
        rw [hstep] at h
        exact ⟨haccepted, h⟩
    · rintro ⟨haccepted, h⟩
      rw [(readEntry_ok hhead hnew).mpr ⟨haccepted, rfl⟩]
      exact h

/-- A dictionary built from the items of a manifest, value by value. -/
theorem get_foldl_manifest {β : Type} (f : FileEntry → β) {manifest : Manifest}
    {items : List (String × FileEntry)} (hnodup : (items.map Prod.fst).Nodup)
    (hitems : ∀ path entry, (path, entry) ∈ items ↔ manifest.get path = some entry) (path : String) :
    (items.foldl (fun dict item => dict.set item.1 (f item.2))
      (Dict.empty : Dict (id : String → String) β)).get path = (manifest.get path).map f := by
  apply Option.ext
  intro w
  rw [get_foldl_set f items _ path w hnodup, Option.map_eq_some_iff]
  simp only [hitems, Dict.get_empty, reduceCtorEq, and_false, or_false]

theorem entriesAt_nodup {manifest : Manifest} {paths : List String} (hnodup : paths.Nodup) :
    ((entriesAt manifest paths).map Prod.fst).Nodup := by
  refine hnodup.sublist ?_
  induction paths with
  | nil => exact List.Sublist.refl _
  | cons path rest ih =>
    have ih := ih (List.nodup_cons.mp hnodup).2
    unfold entriesAt at ih ⊢
    rw [List.filterMap_cons]
    cases manifest.get path with
    | none => exact ih.cons _
    | some entry => exact ih.cons_cons _

theorem keys_of_get {α β : Type} {left : Dict (id : String → String) α}
    {right : Dict (id : String → String) β} {f : α → β}
    (h : ∀ path, right.get path = (left.get path).map f) (path : String) :
    path ∈ right.keys ↔ path ∈ left.keys := by
  have hin : ∀ {γ : Type} (d : Dict (id : String → String) γ),
      path ∈ d.keys ↔ ∃ v, d.get path = some v := by
    intro γ d
    refine ⟨Dict.get_of_mem_keys, ?_⟩
    rintro ⟨v, hv⟩
    obtain ⟨q, hq, hsame⟩ := Dict.mem_keys_of_get hv
    exact (show q = path from hsame) ▸ hq
  rw [hin, hin, h]
  cases left.get path <;> simp

/-- The digest over the records that were read back is the digest of the manifest. -/
theorem digest_eq {P : Platform} {manifest : Manifest} {raw : Dict (id : String → String) Record}
    (h : ∀ path, raw.get path = (manifest.get path).map canonicalIdentity) :
    identityManifestDigest P raw = strongManifestDigest P manifest := by
  unfold identityManifestDigest strongManifestDigest
  rw [sortPaths_congr (keys_of_get h)]
  congr 2
  funext path
  rw [h, Option.map_map]
  rfl

theorem snapshotIdentities_ok {P : Platform} {snapshot : CanonicalSnapshot} {identities : Identities} :
    snapshotIdentities P snapshot = .ok identities ↔
      (snapshot.format = "remrun-canonical-snapshot-v1" ∧
        ValidGeneration snapshot.generation snapshot.parentGeneration ∧
        isDigest snapshot.policySha256 = true ∧ isDigest snapshot.manifestSha256 = true) ∧
      ∃ raw, snapshot.entries.foldlM readEntry Dict.empty = .ok raw ∧
        identityManifestDigest P raw = snapshot.manifestSha256 ∧
        identities = raw.mapValues contentIdentity := by
  rw [validGeneration_iff]
  unfold snapshotIdentities
  split
  · simp_all
  · split
    · simp_all
    · split
      · simp_all
      · split
        · simp_all
        · rename_i hformat h1 h2 h3
          rw [sha256Hex_bind, sha256Hex_bind]
          constructor
          · rintro ⟨hpolicy, hdigest, h⟩
            refine ⟨⟨not_not.mp hformat, ⟨h1, h2, h3⟩, hpolicy, hdigest⟩, ?_⟩
            cases hloop : snapshot.entries.foldlM readEntry Dict.empty with
            | error e => rw [hloop] at h; cases h
            | ok raw =>
              rw [hloop] at h
              replace h : (if identityManifestDigest P raw ≠ snapshot.manifestSha256 then
                .error "snapshot entries do not match manifest_sha256"
                else .ok (raw.mapValues contentIdentity)) = Except.ok identities := h
              split at h
              · cases h
              · rename_i hsame
                exact ⟨raw, rfl, not_not.mp hsame, (Except.ok.inj h).symm⟩
          · rintro ⟨⟨-, -, hpolicy, hdigest⟩, raw, hloop, hsame, rfl⟩
            refine ⟨hpolicy, hdigest, ?_⟩
            rw [hloop]
            exact if_neg (not_not.mpr hsame)

/-- The content identity that a snapshot has for a path. -/
def CanonicalSnapshot.contentAt (snapshot : CanonicalSnapshot) (path : String) : Option ContentIdentity :=
  (snapshot.entries.find? fun raw => raw.get "path" = some (.str path)).map contentIdentity

theorem contentIdentity_pop (raw : Record) : contentIdentity (raw.pop "path") = contentIdentity raw := by
  have hfield : ∀ key, key ≠ "path" → Record.field (raw.pop "path") key = raw.field key := by
    intro key hkey
    unfold Record.field
    rw [Dict.get_pop_other _ (show id key ≠ id "path" from hkey)]
  unfold contentIdentity
  rw [hfield _ (by decide), hfield _ (by decide), hfield _ (by decide), hfield _ (by decide)]

/-- The loop stores the identity of every entry under its path. -/
theorem readEntries_content : ∀ (entries : List Record) (raw out : Dict (id : String → String) Record),
    entries.foldlM readEntry raw = .ok out → ∀ path, (out.get path).map contentIdentity =
      ((raw.get path).or (entries.find? fun raw => raw.get "path" = some (.str path))).map contentIdentity
  | [], raw, out, h, path => by
    rw [← Except.ok.inj h, List.find?_nil, Option.or_none]
  | entry :: rest, raw, out, h, path => by
    rw [List.foldlM_cons] at h
    unfold readEntry at h
    split at h
    · rename_i key hkey
      split at h
      · cases h
      · rename_i hnew
        obtain ⟨-, hfresh⟩ := not_or.mp hnew
        cases hvalid : validateIdentity key (entry.pop "path") "snapshot identity" with
        | error e => rw [hvalid] at h; cases h
        | ok u =>
          rw [hvalid] at h
          have ih := readEntries_content rest (raw.set key (entry.pop "path")) out h path
          rw [ih, Dict.get_set, List.find?_cons, hkey]
          by_cases hsame : path = key
          · subst hsame
            rw [not_not.mp hfresh]
            simp [contentIdentity_pop]
          · simp [hsame, Ne.symm hsame]
    · cases h

/-- What the reader returns is the content of the snapshot. -/
theorem snapshotIdentities_content {P : Platform} {snapshot : CanonicalSnapshot}
    {identities : Identities} (h : snapshotIdentities P snapshot = .ok identities) (path : String) :
    identities.get path = snapshot.contentAt path := by
  obtain ⟨-, raw, hread, -, rfl⟩ := snapshotIdentities_ok.mp h
  rw [Dict.get_mapValues, readEntries_content _ _ _ hread path]
  rfl

/-- The reader takes the record of a strong manifest if it takes every entry, and then returns the
content identities of the manifest. -/
theorem snapshotIdentities_snapshotOf {P : Platform} {manifest : Manifest} {generation : Int}
    {parentGeneration : Option Int} {policySha256 : String}
    (hgeneration : ValidGeneration generation parentGeneration)
    (hpolicy : isDigest policySha256 = true) (hstrong : StrongManifest manifest) :
    (AcceptedManifest manifest → ∃ identities,
      snapshotIdentities P (snapshotOf P manifest generation parentGeneration policySha256) =
        .ok identities ∧ ∀ path, identities.get path = (manifest.get path).map entryIdentity) ∧
    (∀ identities,
      snapshotIdentities P (snapshotOf P manifest generation parentGeneration policySha256) =
        .ok identities → AcceptedManifest manifest) := by
  have hnodup : ((entriesAt manifest (sortPaths manifest.keys)).map Prod.fst).Nodup :=
    entriesAt_nodup (sortPaths_nodup manifest.keys)
  have hloop := fun out => readEntries_ok (entriesAt manifest (sortPaths manifest.keys)) Dict.empty
    out hnodup (fun item hitem => hstrong _ _ (mem_entries_manifest.mp hitem)) (fun _ _ => rfl)
  have hraw := get_foldl_manifest canonicalIdentity hnodup fun path entry => mem_entries_manifest
  constructor
  · intro haccepted
    have hread := (hloop _).mpr
      ⟨fun item hitem => haccepted _ _ (mem_entries_manifest.mp hitem), rfl⟩
    refine ⟨_, snapshotIdentities_ok.mpr ⟨⟨rfl, hgeneration, hpolicy, P.sha256_digest _⟩, _, hread,
      digest_eq hraw, rfl⟩, fun path => ?_⟩
    rw [Dict.get_mapValues, hraw, Option.map_map]
    rfl
  · intro identities h path entry hget
    obtain ⟨-, raw, hread, -, -⟩ := snapshotIdentities_ok.mp h
    exact ((hloop raw).mp hread).1 (path, entry) (mem_entries_manifest.mpr hget)

/-! ## The reader of a replica -/

theorem readReplica_ok {result out : Identities} {item : String × FileEntry} :
    readReplica result item = .ok out ↔ (Strong item.1 item.2 ∧ Accepted item.1 item.2) ∧
      out = result.set item.1 (entryIdentity item.2) := by
  unfold readReplica
  constructor
  · intro h
    split at h
    · cases h
    · rename_i hkeyed
      split at h
      · cases h
      · rename_i hweak
        simp only [not_or, not_not] at hweak
        obtain ⟨hkind, hmode, hsha⟩ := hweak
        obtain ⟨mode, hmode'⟩ := Option.ne_none_iff_exists'.mp hmode
        obtain ⟨sha256, hsha'⟩ := Option.ne_none_iff_exists'.mp hsha
        cases hvalid : validateIdentity item.1 (canonicalIdentity item.2) "replica identity" with
        | error e => rw [hvalid] at h; cases h
        | ok u =>
          obtain ⟨haccepted, hdigest⟩ := (validate_regular hkind hmode' hsha').mp hvalid
          rw [hvalid] at h
          exact ⟨⟨⟨not_not.mp hkeyed, hkind, hmode, sha256, hsha', hdigest⟩, haccepted⟩,
            (Except.ok.inj h).symm⟩
  · rintro ⟨⟨hstrong, haccepted⟩, rfl⟩
    have hsha : item.2.sha256 ≠ none := by
      obtain ⟨sha256, hsha, -⟩ := hstrong.sha256
      rw [hsha]
      exact Option.some_ne_none _
    rw [if_neg (not_not.mpr hstrong.keyed), if_neg, (validate_canonical hstrong).mpr haccepted]
    · rfl
    · rintro (h | h | h)
      · exact h hstrong.kind
      · exact hstrong.mode h
      · exact hsha h

theorem readReplicas_ok : ∀ (items : List (String × FileEntry)) (result out : Identities),
    items.foldlM readReplica result = .ok out ↔
      (∀ item ∈ items, Strong item.1 item.2 ∧ Accepted item.1 item.2) ∧
        out = items.foldl (fun result item => result.set item.1 (entryIdentity item.2)) result
  | [], result, out => by
    simp only [List.foldlM_nil, List.not_mem_nil, false_implies, implies_true, true_and,
      List.foldl_nil]
    exact ⟨fun h => (Except.ok.inj h).symm, fun h => congrArg _ h.symm⟩
  | item :: rest, result, out => by
    have ih := readReplicas_ok rest (result.set item.1 (entryIdentity item.2)) out
    rw [List.foldlM_cons, List.foldl_cons, List.forall_mem_cons, and_assoc, ← ih]
    constructor
    · intro h
      cases hstep : readReplica result item with
      | error e => rw [hstep] at h; cases h
      | ok next =>
        obtain ⟨hgood, rfl⟩ := readReplica_ok.mp hstep
        rw [hstep] at h
        exact ⟨hgood, h⟩
    · rintro ⟨hgood, h⟩
      rw [readReplica_ok.mpr ⟨hgood, rfl⟩]
      exact h

theorem mem_rows_iff {manifest : Manifest} {path : String} {entry : FileEntry} :
    (path, entry) ∈ manifest.rows ↔ manifest.get path = some entry := by
  rw [Dict.get_eq_some]
  refine ⟨fun h => ⟨path, h, rfl⟩, ?_⟩
  rintro ⟨q, hmem, hsame⟩
  exact (show q = path from hsame) ▸ hmem

/-- The reader of a replica returns the content identities of a strong, accepted manifest. -/
theorem strongManifestIdentities_spec {manifest : Manifest} {identities : Identities} :
    strongManifestIdentities manifest = .ok identities →
      StrongManifest manifest ∧ AcceptedManifest manifest ∧
        ∀ path, identities.get path = (manifest.get path).map entryIdentity := by
  intro h
  obtain ⟨hgood, rfl⟩ := (readReplicas_ok manifest.rows Dict.empty identities).mp h
  refine ⟨fun path entry hget => (hgood _ (mem_rows_iff.mpr hget)).1,
    fun path entry hget => (hgood _ (mem_rows_iff.mpr hget)).2, ?_⟩
  exact get_foldl_manifest entryIdentity manifest.nodup fun path entry => mem_rows_iff

theorem strongManifestIdentities_ok {manifest : Manifest} (hstrong : StrongManifest manifest)
    (haccepted : AcceptedManifest manifest) :
    ∃ identities, strongManifestIdentities manifest = .ok identities := by
  refine ⟨_, (readReplicas_ok manifest.rows Dict.empty _).mpr ⟨?_, rfl⟩⟩
  rintro ⟨path, entry⟩ hmem
  exact ⟨hstrong _ _ (mem_rows_iff.mp hmem), haccepted _ _ (mem_rows_iff.mp hmem)⟩

/-! ## The tombstones -/

/-- What the loop asks of one tombstone. -/
structure ValidTombstone (headGeneration : Int) (event : TombstoneEvent) : Prop where
  txn : event.deletedByTxnId ≠ ""
  positive : 0 < event.deletedGeneration
  recorded : event.deletedGeneration ≤ headGeneration
  prior : validateIdentity event.path event.priorIdentity "tombstone prior identity" = .ok ()

/-- The lists of tombstones from which a plan is made. -/
structure ValidHistory (headGeneration : Int) (tombstones : List TombstoneEvent) : Prop where
  once : (tombstones.map eventKey).Nodup
  valid : ∀ event ∈ tombstones, ValidTombstone headGeneration event

theorem readTombstone_some {headGeneration : Int} {state next : EventsByPath × List (String × Int)}
    {event : TombstoneEvent} : readTombstone headGeneration state event = some next ↔
      eventKey event ∉ state.2 ∧ ValidTombstone headGeneration event ∧
        next = (state.1.set event.path ((state.1.get event.path).getD [] ++ [event]),
          eventKey event :: state.2) := by
  unfold readTombstone
  constructor
  · intro h
    split at h
    · cases h
    · rename_i hnew
      split at h
      · cases h
      · rename_i hrange
        split at h
        · cases h
        · rename_i u hvalid
          obtain ⟨hseen, htxn⟩ := not_or.mp hnew
          obtain ⟨hpositive, hrecorded⟩ := not_or.mp hrange
          exact ⟨hseen, ⟨htxn, not_le.mp hpositive, not_lt.mp hrecorded, hvalid⟩,
            (Option.some.inj h).symm⟩
  · rintro ⟨hseen, ⟨htxn, hpositive, hrecorded, hvalid⟩, rfl⟩
    rw [if_neg (not_or.mpr ⟨hseen, htxn⟩),
      if_neg (not_or.mpr ⟨not_le.mpr hpositive, not_lt.mpr hrecorded⟩), hvalid]

/-- The loop passes if each tombstone is valid and no two have one key. -/
theorem readTombstones_isSome {headGeneration : Int} : ∀ (tombstones : List TombstoneEvent)
    (state : EventsByPath × List (String × Int)),
    (∃ next, tombstones.foldlM (readTombstone headGeneration) state = some next) ↔
      ValidHistory headGeneration tombstones ∧ ∀ event ∈ tombstones, eventKey event ∉ state.2
  | [], state => by
    simp only [List.foldlM_nil, List.not_mem_nil, false_implies, implies_true, and_true]
    exact ⟨fun _ => ⟨List.nodup_nil, List.forall_mem_nil _⟩, fun _ => ⟨state, rfl⟩⟩
  | event :: rest, state => by
    rw [List.foldlM_cons]
    constructor
    · rintro ⟨out, h⟩
      obtain ⟨next, hstep, hrest⟩ := Option.bind_eq_some_iff.mp h
      obtain ⟨hnew, hvalid, rfl⟩ := readTombstone_some.mp hstep
      obtain ⟨hhistory, hseen⟩ := (readTombstones_isSome rest _).mp ⟨out, hrest⟩
      refine ⟨⟨?_, List.forall_mem_cons.mpr ⟨hvalid, hhistory.valid⟩⟩, List.forall_mem_cons.mpr
        ⟨hnew, fun other hother hold => hseen other hother (List.mem_cons_of_mem _ hold)⟩⟩
      rw [List.map_cons, List.nodup_cons]
      refine ⟨fun hmem => ?_, hhistory.once⟩
      obtain ⟨other, hother, hsame⟩ := List.mem_map.mp hmem
      exact hseen other hother (hsame ▸ List.mem_cons_self)
    · rintro ⟨⟨honce, hvalid⟩, hseen⟩
      obtain ⟨hhead, hvalid⟩ := List.forall_mem_cons.mp hvalid
      obtain ⟨hnew, hseen⟩ := List.forall_mem_cons.mp hseen
      rw [List.map_cons, List.nodup_cons] at honce
      obtain ⟨out, hout⟩ := (readTombstones_isSome rest
        (state.1.set event.path ((state.1.get event.path).getD [] ++ [event]),
          eventKey event :: state.2)).mpr ⟨⟨honce.2, hvalid⟩, fun other hother hmem => by
        rcases List.mem_cons.mp hmem with hsame | hold
        · exact honce.1 (hsame ▸ List.mem_map_of_mem hother)
        · exact hseen other hother hold⟩
      refine ⟨out, Option.bind_eq_some_iff.mpr ⟨_, readTombstone_some.mpr ⟨hnew, hhead, rfl⟩, hout⟩⟩

/-- Each path collects its tombstones in the order of the list. -/
theorem readTombstones_get {headGeneration : Int} : ∀ (tombstones : List TombstoneEvent)
    (state out : EventsByPath × List (String × Int)),
    tombstones.foldlM (readTombstone headGeneration) state = some out → ∀ path,
    (out.1.get path).getD [] =
      (state.1.get path).getD [] ++ tombstones.filter fun event => event.path = path
  | [], state, out, h, path => by
    rw [← Option.some.inj h, List.filter_nil, List.append_nil]
  | event :: rest, state, out, h, path => by
    obtain ⟨next, hstep, hrest⟩ := Option.bind_eq_some_iff.mp h
    obtain ⟨-, -, rfl⟩ := readTombstone_some.mp hstep
    rw [readTombstones_get rest _ out hrest path, List.filter_cons, Dict.get_set]
    by_cases hpath : path = event.path
    · subst hpath
      simp
    · simp [hpath, Ne.symm hpath]

/-- The tombstones of one path, by generation. -/
def eventsAt (tombstones : List TombstoneEvent) (path : String) : List TombstoneEvent :=
  (tombstones.filter fun event => event.path = path).insertionSort
    fun a b => a.deletedGeneration ≤ b.deletedGeneration

theorem mem_eventsAt {tombstones : List TombstoneEvent} {path : String} {event : TombstoneEvent} :
    event ∈ eventsAt tombstones path ↔ event ∈ tombstones ∧ event.path = path := by
  rw [eventsAt, List.mem_insertionSort, List.mem_filter, decide_eq_true_eq]

theorem tombstoneHistory_some {headGeneration : Int} {tombstones : List TombstoneEvent}
    {byPath : EventsByPath} : tombstoneHistory headGeneration tombstones = some byPath ↔
      ∃ out, tombstones.foldlM (readTombstone headGeneration) (Dict.empty, []) = some out ∧
        byPath = out.1.mapValues fun events =>
          events.insertionSort fun a b => a.deletedGeneration ≤ b.deletedGeneration := by
  unfold tombstoneHistory
  cases tombstones.foldlM (readTombstone headGeneration) (Dict.empty, []) with
  | none => simp
  | some out => simp [eq_comm]

theorem tombstoneHistory_isSome {headGeneration : Int} {tombstones : List TombstoneEvent} :
    (∃ byPath, tombstoneHistory headGeneration tombstones = some byPath) ↔
      ValidHistory headGeneration tombstones := by
  have hloop : (∃ next, tombstones.foldlM (readTombstone headGeneration) (Dict.empty, []) = some next) ↔
      ValidHistory headGeneration tombstones :=
    (readTombstones_isSome tombstones _).trans (and_iff_left fun _ _ => List.not_mem_nil)
  rw [← hloop]
  constructor
  · rintro ⟨byPath, h⟩
    obtain ⟨out, hout, -⟩ := tombstoneHistory_some.mp h
    exact ⟨out, hout⟩
  · rintro ⟨out, hout⟩
    exact ⟨_, tombstoneHistory_some.mpr ⟨out, hout, rfl⟩⟩

theorem tombstoneHistory_get {headGeneration : Int} {tombstones : List TombstoneEvent}
    {byPath : EventsByPath} (h : tombstoneHistory headGeneration tombstones = some byPath)
    (path : String) : (byPath.get path).getD [] = eventsAt tombstones path := by
  obtain ⟨out, hout, rfl⟩ := tombstoneHistory_some.mp h
  have hget := readTombstones_get tombstones _ out hout path
  rw [Dict.get_empty, Option.getD_none, List.nil_append] at hget
  rw [Dict.get_mapValues, eventsAt, ← hget]
  cases out.1.get path <;> rfl

/-- A history is the same one in every order of its tombstones. -/
theorem ValidHistory.perm {headGeneration : Int} {tombstones tombstones' : List TombstoneEvent}
    (hperm : tombstones.Perm tombstones') (h : ValidHistory headGeneration tombstones) :
    ValidHistory headGeneration tombstones' where
  once := (hperm.map eventKey).nodup_iff.mp h.once
  valid := fun event hevent => h.valid event (hperm.mem_iff.mpr hevent)

theorem eventsAt_perm {headGeneration : Int} {tombstones tombstones' : List TombstoneEvent}
    (hperm : tombstones.Perm tombstones') (h : ValidHistory headGeneration tombstones)
    (path : String) : eventsAt tombstones path = eventsAt tombstones' path := by
  have hsorted : (eventsAt tombstones path).Perm (eventsAt tombstones' path) :=
    ((List.perm_insertionSort _ _).trans (hperm.filter _)).trans (List.perm_insertionSort _ _).symm
  have hle : ∀ xs : List TombstoneEvent, (xs.insertionSort
      fun a b => a.deletedGeneration ≤ b.deletedGeneration).Pairwise
      fun a b => a.deletedGeneration ≤ b.deletedGeneration := by
    intro xs
    have : Std.Total fun a b : TombstoneEvent => a.deletedGeneration ≤ b.deletedGeneration :=
      ⟨fun a b => le_total _ _⟩
    have : IsTrans TombstoneEvent fun a b => a.deletedGeneration ≤ b.deletedGeneration :=
      ⟨fun _ _ _ => le_trans⟩
    exact List.pairwise_insertionSort _ xs
  refine hsorted.eq_of_pairwise ?_ (hle _) (hle _)
  intro a b ha hb hab hba
  have ha' := mem_eventsAt.mp ha
  have hb' := mem_eventsAt.mp (hsorted.mem_iff.mpr hb)
  refine List.inj_on_of_nodup_map h.once ha'.1 hb'.1 ?_
  exact Prod.ext (ha'.2.trans hb'.2.symm) (le_antisymm hab hba)

end Remrun.Snapshot
