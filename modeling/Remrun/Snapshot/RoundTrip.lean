import Remrun.Snapshot.Planning
import Remrun.Snapshot.Walk

/-!
# From a tree to a snapshot and back

Every manifest that the controller's walk makes of a POSIX tree, with all files hashed, has a
snapshot. The readers take that snapshot back unless a name holds a backslash or a file is older
than the epoch.
-/

namespace Remrun.Snapshot

open Keyed Reconcile
set_option autoImplicit false

/-! ## POSIX names and paths -/

/-- A name of a directory entry. -/
structure PosixName (name : String) : Prop where
  nonempty : name ≠ ""
  slash : '/' ∉ name.toList
  nul : '\x00' ∉ name.toList
  dot : name ≠ "."
  dots : name ≠ ".."

mutual
def Tree.Posix : Tree → Prop
  | .directory _ _ children => children.Posix
  | .file _ _ _ _ => True
  | .link => True
  | .special => True
def Forest.Posix : Forest → Prop
  | .nil => True
  | .cons name node rest => PosixName name ∧ node.Posix ∧ rest.Posix
end

def WalkRoot.Posix : WalkRoot → Prop
  | .directory _ children => children.Posix
  | .missing => True
  | .other => True

/-- A relative path whose parts are names. -/
structure PosixPath (path : String) : Prop where
  nul : '\x00' ∉ path.toList
  parts : ∀ part ∈ pathParts path, part ≠ [] ∧ part ≠ ['.'] ∧ part ≠ ['.', '.']

theorem PosixName.path {name : String} (h : PosixName name) : PosixPath name := by
  refine ⟨h.nul, fun part hpart => ?_⟩
  have hone : pathParts name = [name.toList] := by
    refine List.splitOnP_eq_singleton fun c hc => ?_
    simp only [beq_eq_false_iff_ne, ne_eq]
    rintro rfl
    exact h.slash hc
  rw [hone, List.mem_singleton] at hpart
  subst hpart
  refine ⟨fun hnil => h.nonempty (String.toList_inj.mp hnil), fun hdot => h.dot ?_,
    fun hdots => h.dots ?_⟩
  · exact String.toList_inj.mp hdot
  · exact String.toList_inj.mp hdots

/-- Descending keeps the parts names. -/
theorem posixPath_join {relDir name : String} (hdir : relDir = "" ∨ PosixPath relDir)
    (hname : PosixName name) : PosixPath (joinRel relDir name) := by
  unfold joinRel
  split
  · exact hname.path
  · rename_i hne
    have hdir := hdir.resolve_left hne
    have htext : (relDir ++ "/" ++ name).toList = relDir.toList ++ '/' :: name.toList := by simp
    have hparts : pathParts (relDir ++ "/" ++ name) = pathParts relDir ++ pathParts name := by
      rw [pathParts, htext]
      exact List.splitOnP_append_cons _ _ (by simp)
    refine ⟨?_, ?_⟩
    · rw [htext]
      intro h
      rcases List.mem_append.mp h with h | h
      · exact hdir.nul h
      · rcases List.mem_cons.mp h with h | h
        · exact absurd h (by decide)
        · exact hname.nul h
    · rw [hparts]
      intro part hpart
      rcases List.mem_append.mp hpart with h | h
      · exact hdir.parts part h
      · exact hname.path.parts part h

theorem PosixPath.canonical_iff {path : String} (h : PosixPath path) :
    canonicalPath path = true ↔ '\\' ∉ path.toList := by
  have hhead : path.toList.head? ≠ some '/' := by
    intro hslash
    obtain ⟨rest, hrest⟩ := List.head?_eq_some_iff.mp hslash
    have hparts : pathParts path = [] :: pathParts (String.ofList rest) := by
      rw [pathParts, pathParts, hrest, String.toList_ofList]
      exact List.splitOnP_append_cons [] rest (by simp)
    exact (h.parts [] (hparts ▸ List.mem_cons_self)).1 rfl
  have hall : ((pathParts path).all fun part =>
      decide (part ≠ []) && decide (part ≠ ['.']) && decide (part ≠ ['.', '.'])) = true := by
    rw [List.all_eq_true]
    intro part hpart
    obtain ⟨h1, h2, h3⟩ := h.parts part hpart
    simp [h1, h2, h3]
  have hnul := h.nul
  unfold canonicalPath
  rw [hall]
  simp [hhead, hnul]

/-! ## The manifest of a tree -/

section Tree
variable {P : Platform} {a : WalkArgs}

theorem reachedFile_rel {rel : String} : ∀ {node : Tree} {f : Reached},
    f ∈ reachedFile P a rel node → f.rel = rel
  | .link, _, hf => nomatch hf
  | .special, _, hf => nomatch hf
  | .directory _ _ _, _, hf => nomatch hf
  | .file _ _ _ _, f, hf => by
    rw [reachedFile] at hf
    by_cases hexcluded : a.excluded P rel = true
    · rw [if_pos hexcluded] at hf
      cases hf
    · rw [if_neg hexcluded] at hf
      rw [List.mem_singleton.mp hf]

theorem reachedFiles_posix {relDir : String} (hdir : relDir = "" ∨ PosixPath relDir) :
    ∀ {forest : Forest}, forest.Posix → ∀ f ∈ reachedFiles P a relDir forest, PosixPath f.rel
  | .nil, _, _, hf => nomatch hf
  | .cons name node rest, ⟨hname, _, hrest⟩, f, hf => by
    rcases List.mem_append.mp hf with hf | hf
    · rw [reachedFile_rel hf]
      exact posixPath_join hdir hname
    · exact reachedFiles_posix hdir hrest f hf

mutual
theorem reachedDir_posix {rel : String} (hrel : PosixPath rel) :
    ∀ {node : Tree}, node.Posix → ∀ f ∈ reachedDir P a rel node, PosixPath f.rel
  | .file _ _ _ _, _, _, hf => nomatch hf
  | .link, _, _, hf => nomatch hf
  | .special, _, _, hf => nomatch hf
  | .directory _ _ children, hnode, f, hf => by
    unfold reachedDir at hf
    split at hf
    · cases hf
    · rcases List.mem_append.mp hf with hf | hf
      · exact reachedFiles_posix (Or.inr hrel) hnode f hf
      · exact reachedDirs_posix (Or.inr hrel) hnode f hf
theorem reachedDirs_posix {relDir : String} (hdir : relDir = "" ∨ PosixPath relDir) :
    ∀ {forest : Forest}, forest.Posix → ∀ f ∈ reachedDirs P a relDir forest, PosixPath f.rel
  | .nil, _, _, hf => nomatch hf
  | .cons name node rest, ⟨hname, hnode, hrest⟩, f, hf => by
    rcases List.mem_append.mp hf with hf | hf
    · exact reachedDir_posix (posixPath_join hdir hname) hnode f hf
    · exact reachedDirs_posix hdir hrest f hf
end

theorem reached_posix {root : WalkRoot} (hroot : root.Posix) {f : Reached}
    (hf : f ∈ reached P a root) : PosixPath f.rel := by
  cases root with
  | missing => cases hf
  | other => cases hf
  | directory readable children =>
    rcases List.mem_append.mp hf with hf | hf
    · exact reachedFiles_posix (Or.inl rfl) hroot f hf
    · exact reachedDirs_posix (Or.inl rfl) hroot f hf

/-- An entry of the manifest is one of the items. -/
theorem mem_of_foldl_set : ∀ (items : Items) (start : Manifest) {path : String}
    {entry : FileEntry},
    (items.foldl (fun manifest item => manifest.set item.1 item.2) start).get path = some entry →
    (path, entry) ∈ items ∨ start.get path = some entry
  | [], _, _, _, h => Or.inr h
  | (key, value) :: rest, start, path, entry, h => by
    rcases mem_of_foldl_set rest _ h with h | h
    · exact Or.inl (List.mem_cons_of_mem _ h)
    · rw [Dict.get_set] at h
      split at h
      · rename_i hkey
        rw [← Option.some.inj h, show path = key from hkey]
        exact Or.inl List.mem_cons_self
      · exact Or.inr h

/-- What the walk with all files hashed records of a POSIX tree. -/
structure HashedEntry (path : String) (entry : FileEntry) : Prop where
  strong : Strong path entry
  posix : PosixPath path
  mode : ∀ mode, entry.mode = some mode → mode ≤ 0o777

theorem controllerItem_hashed (hhash : a.alwaysHash = true) {f : Reached} (hf : PosixPath f.rel) :
    HashedEntry (controllerItem P a f).1 (controllerItem P a f).2 := by
  have hhashes : a.controllerHashes f.bytes.length = true := by
    unfold WalkArgs.controllerHashes
    rw [hhash, Bool.true_or]
  refine ⟨⟨rfl, rfl, Option.some_ne_none _, P.sha256 f.bytes, ?_, P.sha256_digest _⟩, hf, ?_⟩
  · unfold controllerItem
    rw [hhashes, if_pos rfl]
  · intro mode hmode
    rw [← Option.some.inj hmode]
    exact Nat.le_of_lt_succ (Nat.mod_lt _ (by decide))

/-- The manifests that `build_manifest(always_hash=True)` makes of POSIX trees. -/
def BuiltManifest (P : Platform) (manifest : Manifest) : Prop :=
  ∃ (a : WalkArgs) (root : WalkRoot) (items : Items), a.alwaysHash = true ∧ root.Posix ∧
    controllerManifest P a root = .ok items ∧ manifest = manifestOfItems items

theorem BuiltManifest.hashed {manifest : Manifest} (h : BuiltManifest P manifest) {path : String}
    {entry : FileEntry} (hget : manifest.get path = some entry) : HashedEntry path entry := by
  obtain ⟨a, root, items, hhash, hroot, hitems, rfl⟩ := h
  have hother : root ≠ .other := by
    rintro rfl
    cases hitems
  rcases mem_of_foldl_set items Dict.empty hget with hmem | hempty
  · rw [(walks_root hother).controller items hitems] at hmem
    obtain ⟨f, hf, hsame⟩ := List.mem_map.mp hmem
    have hentry := controllerItem_hashed (P := P) hhash (reached_posix hroot hf)
    rw [hsame] at hentry
    exact hentry
  · cases hempty

end Tree

/-! ## The round trip -/

/-- No name holds a backslash, and no file is older than the epoch. -/
def Portable (manifest : Manifest) : Prop :=
  ∀ path entry, manifest.get path = some entry → '\\' ∉ path.toList ∧ 0 ≤ entry.mtimeNs

section RoundTrip
variable {P : Platform} {manifest : Manifest}

theorem BuiltManifest.strong (h : BuiltManifest P manifest) : StrongManifest manifest :=
  fun _ _ hget => (h.hashed hget).strong

theorem BuiltManifest.accepted_iff (h : BuiltManifest P manifest) :
    AcceptedManifest manifest ↔ Portable manifest := by
  constructor
  · intro haccepted path entry hget
    have hentry := haccepted path entry hget
    exact ⟨(h.hashed hget).posix.canonical_iff.mp hentry.canonical, hentry.mtime⟩
  · intro hportable path entry hget
    obtain ⟨hbackslash, hmtime⟩ := hportable path entry hget
    refine ⟨(h.hashed hget).posix.canonical_iff.mpr hbackslash, hmtime, fun mode hmode => ?_⟩
    exact ((h.hashed hget).mode mode hmode).trans (by decide)

/-- The reader returns the content identities of the manifest. -/
def ReadsBack (P : Platform) (manifest : Manifest) (snapshot : CanonicalSnapshot) : Prop :=
  ∃ identities, snapshotIdentities P snapshot = .ok identities ∧
    ∀ path, identities.get path = (manifest.get path).map entryIdentity

theorem readsBack_iff {generation : Int} {parentGeneration : Option Int} {policySha256 : String}
    {snapshot : CanonicalSnapshot} (h : BuiltManifest P manifest)
    (hsnapshot : buildCanonicalSnapshot P manifest generation parentGeneration policySha256 =
      .ok snapshot) :
    (ReadsBack P manifest snapshot ↔ Portable manifest) ∧
      (∀ identities, snapshotIdentities P snapshot = .ok identities → Portable manifest) := by
  obtain ⟨hgeneration, hpolicy, hstrong, rfl⟩ := buildCanonicalSnapshot_ok.mp hsnapshot
  obtain ⟨hread, honly⟩ := snapshotIdentities_snapshotOf (P := P) hgeneration hpolicy hstrong
  rw [h.accepted_iff] at hread
  refine ⟨⟨?_, hread⟩, fun identities hidentities =>
    h.accepted_iff.mp (honly identities hidentities)⟩
  rintro ⟨identities, hidentities, -⟩
  exact h.accepted_iff.mp (honly identities hidentities)

theorem strongManifestIdentities_built (h : BuiltManifest P manifest) :
    (∃ identities, strongManifestIdentities manifest = .ok identities) ↔ Portable manifest := by
  rw [← h.accepted_iff]
  constructor
  · rintro ⟨identities, hidentities⟩
    exact (strongManifestIdentities_spec hidentities).2.1
  · exact strongManifestIdentities_ok h.strong

end RoundTrip

/-- A built manifest always has a snapshot; the reader returns its content identities exactly if
the manifest is portable, and rejects the snapshot else. -/
def SnapshotsReadBack (P : Platform) : Prop :=
  ∀ manifest, BuiltManifest P manifest → ∀ generation parentGeneration policySha256,
    ValidGeneration generation parentGeneration → isDigest policySha256 = true →
    ∃ snapshot, buildCanonicalSnapshot P manifest generation parentGeneration policySha256 =
      .ok snapshot ∧ (ReadsBack P manifest snapshot ↔ Portable manifest) ∧
      (¬ Portable manifest → ∃ error, snapshotIdentities P snapshot = .error error)

/-- Over built manifests, a plan is blocked for an invalid identity exactly if the checks before
the reading pass and one of the three manifests is not portable. -/
def BlocksUnportable (P : Platform) : Prop :=
  ∀ baseManifest headManifest current, BuiltManifest P baseManifest → BuiltManifest P headManifest →
    BuiltManifest P current → ∀ g₀ p₀ s₀ base g₁ p₁ s₁ head,
    buildCanonicalSnapshot P baseManifest g₀ p₀ s₀ = .ok base →
    buildCanonicalSnapshot P headManifest g₁ p₁ s₁ = .ok head →
    ∀ cursor tombstones expected plan,
    planReplicaCatchup P cursor base head current tombstones expected = .ok plan →
    (plan.reason = some .invalidIdentity ↔ (∃ ack, checkAdmission cursor base head expected = .ok ack) ∧
      ¬ (Portable baseManifest ∧ Portable headManifest ∧ Portable current))

theorem snapshots_readBack (P : Platform) : SnapshotsReadBack P := by
  intro manifest hbuilt generation parentGeneration policySha256 hgeneration hpolicy
  have hsnapshot : buildCanonicalSnapshot P manifest generation parentGeneration policySha256 =
      .ok (snapshotOf P manifest generation parentGeneration policySha256) :=
    buildCanonicalSnapshot_ok.mpr ⟨hgeneration, hpolicy, hbuilt.strong, rfl⟩
  obtain ⟨hread, honly⟩ := readsBack_iff hbuilt hsnapshot
  refine ⟨_, hsnapshot, hread, fun hnot => ?_⟩
  cases hidentities : snapshotIdentities P
      (snapshotOf P manifest generation parentGeneration policySha256) with
  | error error => exact ⟨error, rfl⟩
  | ok identities => exact absurd (honly identities hidentities) hnot

/-- The refusals before the reading have other reasons. -/
theorem checkAdmission_ne_invalidIdentity {cursor : ReplicaCursor} {base head : CanonicalSnapshot}
    {expected : String} : checkAdmission cursor base head expected ≠ .error .invalidIdentity := by
  intro h
  unfold checkAdmission at h
  split at h
  · cases h
  · split at h
    · cases h
    · split at h
      · cases h
      · split at h
        · split at h
          · cases h
          · split at h
            · cases h
            · cases h
        · cases h

theorem blocks_unportable (P : Platform) : BlocksUnportable P := by
  intro baseManifest headManifest current hbaseBuilt hheadBuilt hcurrentBuilt g₀ p₀ s₀ base g₁ p₁ s₁
    head hbase hhead cursor tombstones expected plan hplan
  obtain ⟨hbaseRead, hbaseOnly⟩ := readsBack_iff hbaseBuilt hbase
  obtain ⟨hheadRead, hheadOnly⟩ := readsBack_iff hheadBuilt hhead
  have hsides : (∃ sides, readSides P base head current = .ok sides) ↔
      Portable baseManifest ∧ Portable headManifest ∧ Portable current := by
    constructor
    · rintro ⟨⟨baseIds, headIds, replicaIds⟩, hsides⟩
      obtain ⟨h1, h2, h3⟩ := readSides_ok.mp hsides
      exact ⟨hbaseOnly _ h1, hheadOnly _ h2,
        (strongManifestIdentities_built hcurrentBuilt).mp ⟨_, h3⟩⟩
    · rintro ⟨h1, h2, h3⟩
      obtain ⟨baseIds, hbaseIds, -⟩ := hbaseRead.mpr h1
      obtain ⟨headIds, hheadIds, -⟩ := hheadRead.mpr h2
      obtain ⟨replicaIds, hreplicaIds⟩ := (strongManifestIdentities_built hcurrentBuilt).mpr h3
      exact ⟨_, readSides_ok.mpr ⟨hbaseIds, hheadIds, hreplicaIds⟩⟩
  rw [← hsides]
  cases (planReplicaCatchup_ok.mp hplan).2 with
  | refused reason hadmitted =>
    constructor
    · intro hreason
      rw [Option.some.inj hreason] at hadmitted
      exact absurd hadmitted checkAdmission_ne_invalidIdentity
    · rintro ⟨⟨ack, hack⟩, -⟩
      rw [hadmitted] at hack
      cases hack
  | unreadable ack error hadmitted herror =>
    refine ⟨fun _ => ⟨⟨ack, hadmitted⟩, ?_⟩, fun _ => rfl⟩
    rintro ⟨sides, hok⟩
    rw [herror] at hok
    cases hok
  | disputed ack sides hadmitted hok hhistory =>
    refine ⟨fun h => ?_, fun h => absurd ⟨sides, hok⟩ h.2⟩
    cases Option.some.inj h
  | decided ack baseIds headIds replicaIds byPath hadmitted hok hhistory =>
    exact ⟨nofun, fun h => absurd ⟨_, hok⟩ h.2⟩

/-- The builder and the readers agree on the portable manifests, and on no others. -/
theorem snapshots_roundTrip (P : Platform) : SnapshotsReadBack P ∧ BlocksUnportable P :=
  ⟨snapshots_readBack P, blocks_unportable P⟩

/-- A tree with one file, its snapshot and what is read back. -/
theorem snapshots_roundTrip_oneFile : ∃ manifest snapshot,
    BuiltManifest snapshotPlatform manifest ∧ manifest ≠ Dict.empty ∧
    buildCanonicalSnapshot snapshotPlatform manifest 0 none samplePolicy = .ok snapshot ∧
    ReadsBack snapshotPlatform manifest snapshot := by
  have hitems : controllerManifest snapshotPlatform ⟨[], [], none, true⟩
      (.directory true (.cons "p" (.file [97] 1 0o100644 true) .nil)) =
      .ok [("p", sampleEntry "p" 97)] := by decide +kernel
  have hbuilt : BuiltManifest snapshotPlatform (sampleManifest "p" 97) := by
    refine ⟨⟨[], [], none, true⟩, .directory true (.cons "p" (.file [97] 1 0o100644 true) .nil),
      _, rfl, ⟨⟨?_, ?_, ?_, ?_, ?_⟩, trivial, trivial⟩, hitems, rfl⟩ <;> decide +kernel
  have hportable : Portable (sampleManifest "p" 97) := by
    intro path entry hget
    rcases mem_of_foldl_set [("p", sampleEntry "p" 97)] Dict.empty hget with hmem | hempty
    · obtain ⟨rfl, rfl⟩ := Prod.mk.inj (List.mem_singleton.mp hmem)
      exact ⟨by decide, by decide⟩
    · cases hempty
  obtain ⟨snapshot, hsnapshot, hread, -⟩ := (snapshots_roundTrip snapshotPlatform).1 _ hbuilt 0 none
    samplePolicy (Or.inl ⟨rfl, rfl⟩) (snapshotPlatform.sha256_digest [])
  exact ⟨_, snapshot, hbuilt, by decide +kernel, hsnapshot, hread.mpr hportable⟩

/-- A backslash in a name: the builder returns a snapshot that the reader rejects. -/
theorem snapshots_not_readBack : ∃ (P : Platform) (manifest : Manifest), BuiltManifest P manifest ∧
    ∃ snapshot, buildCanonicalSnapshot P manifest 0 none samplePolicy = .ok snapshot ∧
      ¬ ReadsBack P manifest snapshot := by
  have hitems : controllerManifest snapshotPlatform ⟨[], [], none, true⟩
      (.directory true (.cons "a\\b" (.file [97] 1 0o100644 true) .nil)) =
      .ok [("a\\b", sampleEntry "a\\b" 97)] := by decide +kernel
  have hbuilt : BuiltManifest snapshotPlatform (sampleManifest "a\\b" 97) := by
    refine ⟨⟨[], [], none, true⟩, .directory true (.cons "a\\b" (.file [97] 1 0o100644 true) .nil),
      _, rfl, ⟨⟨?_, ?_, ?_, ?_, ?_⟩, trivial, trivial⟩, hitems, rfl⟩ <;> decide +kernel
  have hrejected : (snapshotIdentities snapshotPlatform
      (snapshotOf snapshotPlatform (sampleManifest "a\\b" 97) 0 none samplePolicy)).toOption =
      none := by decide +kernel
  refine ⟨snapshotPlatform, sampleManifest "a\\b" 97, hbuilt, _, buildCanonicalSnapshot_ok.mpr
    ⟨Or.inl ⟨rfl, rfl⟩, snapshotPlatform.sha256_digest [], hbuilt.strong, rfl⟩, ?_⟩
  rintro ⟨identities, hidentities, -⟩
  rw [hidentities] at hrejected
  cases hrejected

end Remrun.Snapshot
