import Remrun.Reconcile.World
import Remrun.Snapshot.Identity

/-!
# The two walkers of a tree

`build_manifest` of the controller and its copy in the runner, over a directory tree that
nobody writes. Each lists the regular files it reaches, in the order of the walk. They differ
in the mode bits they keep, in the threshold zero, and on a root that is not a directory.
-/

namespace Remrun.Snapshot

open Keyed Reconcile
set_option autoImplicit false

/-! ## Trees -/

mutual
/-- What a name of a directory stands for. -/
inductive Tree where
  /-- a regular file; `perm` is `st_mode` -/
  | file (bytes : Bytes) (mtimeNs : Int) (perm : Nat) (readable : Bool)
  | link
  | special
  /-- a directory; a junction redirects the walk without being a symbolic link -/
  | directory (junction readable : Bool) (children : Forest)
inductive Forest where
  | nil
  | cons (name : String) (node : Tree) (rest : Forest)
end

inductive WalkRoot where
  | missing
  /-- a file, or a link to one -/
  | other
  | directory (readable : Bool) (children : Forest)

structure WalkArgs where
  excludes : List String
  includePaths : List String
  hashBelowBytes : Option Int
  alwaysHash : Bool

inductive WalkFault where
  | manifestError (message : String)
  | runnerError (message : String)
  deriving DecidableEq, Repr

/-- The items of a manifest, in the order in which they are stored. -/
abbrev Items := List (String × FileEntry)

/-- `f"{rel_dir}/{name}" if rel_dir else name`. -/
def joinRel (relDir name : String) : String := if relDir = "" then name else relDir ++ "/" ++ name

/-- `stat.S_IMODE`. -/
def sImode (perm : Nat) : Nat := perm % 0o10000

/-- The visit of one directory: its files, then what is below it. -/
def visitDir (readable : Bool) (fault : WalkFault) (files below : Except WalkFault Items) :
    Except WalkFault Items :=
  if readable then do
    let files ← files
    let below ← below
    return files ++ below
  else .error fault

section Walk
variable (P : Platform) (a : WalkArgs)

/-- `excluded(rel)`, in both copies. -/
def WalkArgs.excluded (rel : String) : Bool :=
  Surface.excluded P ⟨a.excludes, a.includePaths, 0⟩ rel

/-! ## The controller's walk -/

def WalkArgs.controllerHashes (a : WalkArgs) (size : Nat) : Bool :=
  a.alwaysHash || match a.hashBelowBytes with
    | none => false
    | some bound => (size : Int) ≤ bound

/-- The loop body over `filenames`. -/
def controllerFile (rel : String) : Tree → Except WalkFault Items
  | .file bytes mtimeNs perm readable =>
    if a.excluded P rel then .ok []
    else if a.controllerHashes bytes.length && !readable then
      .error (.manifestError ("cannot hash " ++ rel))
    else .ok [(rel, {
      path := rel, kind := "file", size := bytes.length, mtimeNs := mtimeNs
      sha256 := if a.controllerHashes bytes.length then some (P.sha256 bytes) else none
      mode := some (sImode perm % 0o1000) })]
  | .link => .ok []
  | .special => .ok []
  | .directory _ _ _ => .ok []

def controllerFiles (relDir : String) : Forest → Except WalkFault Items
  | .nil => .ok []
  | .cons name node rest => do
    let here ← controllerFile P a (joinRel relDir name) node
    let others ← controllerFiles relDir rest
    return here ++ others

def controllerScanFault : WalkFault := .manifestError "cannot scan a directory"

mutual
/-- A name of `dirnames`: pruned, or visited. -/
def controllerDir (rel : String) : Tree → Except WalkFault Items
  | .directory junction readable children =>
    if a.excluded P rel then .ok []
    else if junction then .ok []
    else visitDir readable controllerScanFault (controllerFiles P a rel children)
      (controllerDirs rel children)
  | .file _ _ _ _ => .ok []
  | .link => .ok []
  | .special => .ok []
def controllerDirs (relDir : String) : Forest → Except WalkFault Items
  | .nil => .ok []
  | .cons name node rest => do
    let here ← controllerDir (joinRel relDir name) node
    let others ← controllerDirs relDir rest
    return here ++ others
end

/-- `manifest.build_manifest`. -/
def controllerManifest : WalkRoot → Except WalkFault Items
  | .missing => .ok []
  | .other => .error controllerScanFault
  | .directory readable children => visitDir readable controllerScanFault
      (controllerFiles P a "" children) (controllerDirs P a "" children)

/-! ## The runner's walk -/

def WalkArgs.runnerHashes (a : WalkArgs) (size : Nat) : Bool :=
  a.alwaysHash || match a.hashBelowBytes with
    | none => false
    | some bound => bound ≠ 0 && (size : Int) ≤ bound

def isLink : Tree → Bool
  | .link => true
  | _ => false

/-- The loop body over `filenames`. -/
def runnerFile (rel : String) (node : Tree) : Except WalkFault Items :=
  if a.excluded P rel || isLink node then .ok []
  else match node with
    | .file bytes mtimeNs perm readable =>
      if a.runnerHashes bytes.length && !readable then
        .error (.runnerError ("manifest hash failed for " ++ rel))
      else .ok [(rel, {
        path := rel, kind := "file", size := bytes.length, mtimeNs := mtimeNs
        sha256 := if a.runnerHashes bytes.length then some (P.sha256 bytes) else none
        mode := some (sImode perm) })]
    | _ => .ok []

def runnerFiles (relDir : String) : Forest → Except WalkFault Items
  | .nil => .ok []
  | .cons name node rest => do
    let here ← runnerFile P a (joinRel relDir name) node
    let others ← runnerFiles relDir rest
    return here ++ others

def runnerScanFault : WalkFault := .runnerError "manifest walk failed"

mutual
/-- A name of `dirnames`: pruned, or visited. -/
def runnerDir (rel : String) : Tree → Except WalkFault Items
  | .directory junction readable children =>
    if a.excluded P rel then .ok []
    else if junction then .ok []
    else visitDir readable runnerScanFault (runnerFiles P a rel children) (runnerDirs rel children)
  | .file _ _ _ _ => .ok []
  | .link => .ok []
  | .special => .ok []
def runnerDirs (relDir : String) : Forest → Except WalkFault Items
  | .nil => .ok []
  | .cons name node rest => do
    let here ← runnerDir (joinRel relDir name) node
    let others ← runnerDirs relDir rest
    return here ++ others
end

/-- `build_manifest` of the runner. -/
def runnerManifest : WalkRoot → Except WalkFault Items
  | .missing => .ok []
  | .other => .ok []
  | .directory readable children => visitDir readable runnerScanFault
      (runnerFiles P a "" children) (runnerDirs P a "" children)

/-! ## The files that a walk reaches -/

/-- A regular file that is reached. -/
structure Reached where
  rel : String
  bytes : Bytes
  mtimeNs : Int
  perm : Nat
  readable : Bool
  deriving DecidableEq

def reachedFile (rel : String) : Tree → List Reached
  | .file bytes mtimeNs perm readable =>
    if a.excluded P rel then [] else [⟨rel, bytes, mtimeNs, perm, readable⟩]
  | _ => []

def reachedFiles (relDir : String) : Forest → List Reached
  | .nil => []
  | .cons name node rest =>
    reachedFile P a (joinRel relDir name) node ++ reachedFiles relDir rest

mutual
def reachedDir (rel : String) : Tree → List Reached
  | .directory junction _ children =>
    if a.excluded P rel || junction then []
    else reachedFiles P a rel children ++ reachedDirs rel children
  | .file _ _ _ _ => []
  | .link => []
  | .special => []
def reachedDirs (relDir : String) : Forest → List Reached
  | .nil => []
  | .cons name node rest => reachedDir (joinRel relDir name) node ++ reachedDirs relDir rest
end

/-- The regular files below the root that no exclusion and no link keeps out. -/
def reached : WalkRoot → List Reached
  | .directory _ children => reachedFiles P a "" children ++ reachedDirs P a "" children
  | _ => []

def controllerItem (f : Reached) : String × FileEntry :=
  (f.rel, {
    path := f.rel, kind := "file", size := f.bytes.length, mtimeNs := f.mtimeNs
    sha256 := if a.controllerHashes f.bytes.length then some (P.sha256 f.bytes) else none
    mode := some (sImode f.perm % 0o1000) })

def runnerItem (f : Reached) : String × FileEntry :=
  (f.rel, {
    path := f.rel, kind := "file", size := f.bytes.length, mtimeNs := f.mtimeNs
    sha256 := if a.runnerHashes f.bytes.length then some (P.sha256 f.bytes) else none
    mode := some (sImode f.perm) })

end Walk

/-! ## Where the walkers agree -/

/-- The two walkers record a file alike: it has no set-id or sticky bit, and it is not an empty
file under the threshold zero. -/
structure Reached.Plain (a : WalkArgs) (f : Reached) : Prop where
  mode : sImode f.perm < 0o1000
  threshold : a.alwaysHash = false → a.hashBelowBytes = some 0 → f.bytes ≠ []

/-- Whether a walk returns. -/
def returns : Except WalkFault Items → Bool
  | .ok _ => true
  | .error _ => false

theorem visitDir_ok {readable : Bool} {fault : WalkFault} {files below : Except WalkFault Items}
    {items : Items} (h : visitDir readable fault files below = .ok items) :
    ∃ xs ys, files = .ok xs ∧ below = .ok ys ∧ items = xs ++ ys := by
  unfold visitDir at h
  split at h
  · cases files with
    | error fault => cases h
    | ok xs =>
      cases below with
      | error fault => cases h
      | ok ys =>
        cases h
        exact ⟨xs, ys, rfl, rfl, rfl⟩
  · cases h

theorem returns_visitDir (readable : Bool) (fault : WalkFault)
    (files below : Except WalkFault Items) :
    returns (visitDir readable fault files below) = (readable && returns files && returns below) := by
  unfold visitDir
  cases readable <;> cases files <;> cases below <;> rfl

section Agree
variable {P : Platform} {a : WalkArgs}

theorem hashes_eq_iff {size : Nat} : a.controllerHashes size = a.runnerHashes size ↔
    (a.alwaysHash = false → a.hashBelowBytes = some 0 → size ≠ 0) := by
  unfold WalkArgs.controllerHashes WalkArgs.runnerHashes
  cases a.alwaysHash with
  | true => simp
  | false =>
    cases a.hashBelowBytes with
    | none => simp
    | some bound =>
      by_cases hbound : bound = 0
      · subst hbound
        simp
      · simp [hbound]

theorem mode_eq_iff {perm : Nat} : sImode perm % 0o1000 = sImode perm ↔ sImode perm < 0o1000 :=
  ⟨fun h => h ▸ Nat.mod_lt _ (by decide), Nat.mod_eq_of_lt⟩

/-- The threshold decides whether a digest is recorded, so it shows in the record. -/
theorem items_eq_iff {f : Reached} : controllerItem P a f = runnerItem P a f ↔ f.Plain a := by
  have hdigest : (if a.controllerHashes f.bytes.length then some (P.sha256 f.bytes) else none) =
      (if a.runnerHashes f.bytes.length then some (P.sha256 f.bytes) else none) ↔
      a.controllerHashes f.bytes.length = a.runnerHashes f.bytes.length := by
    cases a.controllerHashes f.bytes.length <;> cases a.runnerHashes f.bytes.length <;> simp
  simp only [controllerItem, runnerItem, Prod.mk.injEq, FileEntry.mk.injEq, true_and, hdigest,
    hashes_eq_iff, Option.some.injEq, mode_eq_iff]
  constructor
  · rintro ⟨hthreshold, hmode⟩
    exact ⟨hmode, fun halways hzero hnil => hthreshold halways hzero (by rw [hnil]; rfl)⟩
  · rintro ⟨hmode, hthreshold⟩
    refine ⟨fun halways hzero hlength => hthreshold halways hzero ?_, hmode⟩
    exact List.eq_nil_of_length_eq_zero hlength

/-- Both walkers list the reached files, each in its own way, and where these are plain they
return together. -/
structure Walks (P : Platform) (a : WalkArgs) (ours theirs : Except WalkFault Items)
    (files : List Reached) : Prop where
  controller : ∀ items, ours = .ok items → items = files.map (controllerItem P a)
  runner : ∀ items, theirs = .ok items → items = files.map (runnerItem P a)
  together : (∀ f ∈ files, f.Plain a) → returns ours = returns theirs

theorem Walks.nil : Walks P a (.ok []) (.ok []) [] where
  controller := fun _ h => (Except.ok.inj h).symm
  runner := fun _ h => (Except.ok.inj h).symm
  together := fun _ => rfl

/-- A directory: its files, then what is below it. -/
theorem Walks.visit {ours theirs ours' theirs' : Except WalkFault Items}
    {files files' : List Reached} (h : Walks P a ours theirs files)
    (h' : Walks P a ours' theirs' files') (readable : Bool) (fault fault' : WalkFault) :
    Walks P a (visitDir readable fault ours ours') (visitDir readable fault' theirs theirs')
      (files ++ files') where
  controller := by
    intro items hitems
    obtain ⟨xs, ys, hxs, hys, rfl⟩ := visitDir_ok hitems
    rw [List.map_append, ← h.controller xs hxs, ← h'.controller ys hys]
  runner := by
    intro items hitems
    obtain ⟨xs, ys, hxs, hys, rfl⟩ := visitDir_ok hitems
    rw [List.map_append, ← h.runner xs hxs, ← h'.runner ys hys]
  together := by
    intro hplain
    rw [returns_visitDir, returns_visitDir,
      h.together fun f hf => hplain f (List.mem_append_left _ hf),
      h'.together fun f hf => hplain f (List.mem_append_right _ hf)]

/-- Two parts that are listed one after the other. -/
theorem Walks.append {ours theirs ours' theirs' : Except WalkFault Items}
    {files files' : List Reached} (h : Walks P a ours theirs files)
    (h' : Walks P a ours' theirs' files') :
    Walks P a (do let here ← ours; let others ← ours'; return here ++ others)
      (do let here ← theirs; let others ← theirs'; return here ++ others) (files ++ files') :=
  h.visit h' true controllerScanFault runnerScanFault

theorem walks_file (rel : String) (node : Tree) :
    Walks P a (controllerFile P a rel node) (runnerFile P a rel node) (reachedFile P a rel node) := by
  unfold runnerFile
  cases node with
  | link =>
    rw [isLink, Bool.or_true]
    exact Walks.nil
  | special =>
    simp only [ite_self]
    exact Walks.nil
  | directory junction readable children =>
    simp only [ite_self]
    exact Walks.nil
  | file bytes mtimeNs perm readable =>
    simp only [controllerFile, reachedFile, isLink, Bool.or_false]
    split
    · exact Walks.nil
    · refine ⟨fun items hitems => ?_, fun items hitems => ?_, fun hplain => ?_⟩
      · split at hitems
        · cases hitems
        · exact (Except.ok.inj hitems).symm
      · split at hitems
        · cases hitems
        · exact (Except.ok.inj hitems).symm
      · have hsame := (items_eq_iff (P := P)).mpr (hplain _ List.mem_cons_self)
        have hhash : a.controllerHashes bytes.length = a.runnerHashes bytes.length := by
          refine hashes_eq_iff.mpr fun halways hzero hlength => ?_
          exact (hplain _ List.mem_cons_self).threshold halways hzero
            (List.eq_nil_of_length_eq_zero hlength)
        rw [hhash]
        split <;> rfl

theorem walks_files (relDir : String) : ∀ forest : Forest,
    Walks P a (controllerFiles P a relDir forest) (runnerFiles P a relDir forest)
      (reachedFiles P a relDir forest)
  | .nil => Walks.nil
  | .cons _ node rest => (walks_file _ node).append (walks_files relDir rest)

mutual
theorem walks_dir (rel : String) : ∀ node : Tree,
    Walks P a (controllerDir P a rel node) (runnerDir P a rel node) (reachedDir P a rel node)
  | .file _ _ _ _ => Walks.nil
  | .link => Walks.nil
  | .special => Walks.nil
  | .directory junction readable children => by
    simp only [controllerDir, runnerDir, reachedDir]
    cases a.excluded P rel with
    | true => exact Walks.nil
    | false =>
      cases junction with
      | true => exact Walks.nil
      | false => exact (walks_files rel children).visit (walks_dirs rel children) _ _ _
theorem walks_dirs (relDir : String) : ∀ forest : Forest,
    Walks P a (controllerDirs P a relDir forest) (runnerDirs P a relDir forest)
      (reachedDirs P a relDir forest)
  | .nil => Walks.nil
  | .cons _ node rest => (walks_dir _ node).append (walks_dirs relDir rest)
end

theorem walks_root {root : WalkRoot} (hroot : root ≠ .other) :
    Walks P a (controllerManifest P a root) (runnerManifest P a root) (reached P a root) := by
  cases root with
  | missing => exact Walks.nil
  | other => exact absurd rfl hroot
  | directory readable children =>
    exact (walks_files "" children).visit (walks_dirs "" children) readable controllerScanFault
      runnerScanFault

end Agree

/-- The manifest that the items make. -/
def manifestOfItems (items : Items) : Manifest :=
  items.foldl (fun manifest item => manifest.set item.1 item.2) Dict.empty

/-- The two outcomes describe one tree: the same entries under the same paths, so the same
strong digest; or neither walker could read it. -/
def SameTree (P : Platform) : Except WalkFault Items → Except WalkFault Items → Prop
  | .ok ours, .ok theirs => ours = theirs ∧
      strongManifestDigest P (manifestOfItems ours) = strongManifestDigest P (manifestOfItems theirs)
  | .error _, .error _ => True
  | _, _ => False

/-- The root is a directory or missing, and every reached file is plain. -/
structure PlainTree (P : Platform) (a : WalkArgs) (root : WalkRoot) : Prop where
  directory : root ≠ .other
  files : ∀ f ∈ reached P a root, f.Plain a

/-- On a plain tree the walkers agree; and where the controller's returns they agree on no other. -/
theorem manifests_agree_iff (P : Platform) (a : WalkArgs) (root : WalkRoot) :
    (PlainTree P a root → SameTree P (controllerManifest P a root) (runnerManifest P a root)) ∧
    ∀ items, controllerManifest P a root = .ok items →
      SameTree P (controllerManifest P a root) (runnerManifest P a root) → PlainTree P a root := by
  constructor
  · intro hplain
    have hwalks := walks_root (P := P) (a := a) hplain.directory
    have htogether := hwalks.together hplain.files
    cases hours : controllerManifest P a root with
    | error fault =>
      cases htheirs : runnerManifest P a root with
      | error fault' => trivial
      | ok theirs =>
        rw [hours, htheirs] at htogether
        cases htogether
    | ok ours =>
      cases htheirs : runnerManifest P a root with
      | error fault' =>
        rw [hours, htheirs] at htogether
        cases htogether
      | ok theirs =>
        have hsame : ours = theirs := by
          rw [hwalks.controller ours hours, hwalks.runner theirs htheirs]
          exact List.map_congr_left fun f hf => items_eq_iff.mpr (hplain.files f hf)
        exact ⟨hsame, by rw [hsame]⟩
  · intro ours hours hagree
    have hroot : root ≠ .other := by
      rintro rfl
      cases hours
    have hwalks := walks_root (P := P) (a := a) hroot
    rw [hours] at hagree
    cases htheirs : runnerManifest P a root with
    | error fault =>
      rw [htheirs] at hagree
      exact hagree.elim
    | ok theirs =>
      rw [htheirs] at hagree
      have hsame := hagree.1
      rw [hwalks.controller ours hours, hwalks.runner theirs htheirs] at hsame
      exact ⟨hroot, fun f hf => items_eq_iff.mp (List.map_inj_left.mp hsame f hf)⟩

/-- The walkers agree on a plain file below a directory, and skip the link beside it. -/
theorem manifests_agree_iff_plain :
    PlainTree (samplePlatform false) ⟨[], [], some 8, false⟩
      (.directory true (.cons "f" (.file [97] 1 0o100644 true) (.cons "l" .link .nil))) ∧
    SameTree (samplePlatform false)
      (controllerManifest (samplePlatform false) ⟨[], [], some 8, false⟩
        (.directory true (.cons "f" (.file [97] 1 0o100644 true) (.cons "l" .link .nil))))
      (runnerManifest (samplePlatform false) ⟨[], [], some 8, false⟩
        (.directory true (.cons "f" (.file [97] 1 0o100644 true) (.cons "l" .link .nil)))) := by
  have hreached : reached (samplePlatform false) ⟨[], [], some 8, false⟩
      (.directory true (.cons "f" (.file [97] 1 0o100644 true) (.cons "l" .link .nil))) =
      [⟨"f", [97], 1, 0o100644, true⟩] := by decide +kernel
  have hplain : PlainTree (samplePlatform false) ⟨[], [], some 8, false⟩
      (.directory true (.cons "f" (.file [97] 1 0o100644 true) (.cons "l" .link .nil))) := by
    refine ⟨nofun, fun f hf => ?_⟩
    rw [hreached] at hf
    obtain rfl := List.mem_singleton.mp hf
    exact ⟨by decide, nofun⟩
  exact ⟨hplain, (manifests_agree_iff _ _ _).1 hplain⟩

/-- A file with the set-user-id bit is recorded with two different modes. -/
theorem manifests_differ : ∃ (P : Platform) (a : WalkArgs) (root : WalkRoot),
    ¬ SameTree P (controllerManifest P a root) (runnerManifest P a root) := by
  refine ⟨samplePlatform false, ⟨[], [], none, true⟩,
    .directory true (.cons "f" (.file [97] 1 0o104755 true) .nil), ?_⟩
  have hours : controllerManifest (samplePlatform false) ⟨[], [], none, true⟩
      (.directory true (.cons "f" (.file [97] 1 0o104755 true) .nil)) =
      .ok [controllerItem (samplePlatform false) ⟨[], [], none, true⟩
        ⟨"f", [97], 1, 0o104755, true⟩] := by decide +kernel
  have htheirs : runnerManifest (samplePlatform false) ⟨[], [], none, true⟩
      (.directory true (.cons "f" (.file [97] 1 0o104755 true) .nil)) =
      .ok [runnerItem (samplePlatform false) ⟨[], [], none, true⟩
        ⟨"f", [97], 1, 0o104755, true⟩] := by decide +kernel
  rw [hours, htheirs]
  rintro ⟨hsame, -⟩
  have hplain := items_eq_iff.mp (List.cons.inj hsame).1
  exact absurd hplain.mode (by decide)

end Remrun.Snapshot
