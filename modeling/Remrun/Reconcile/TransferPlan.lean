import Remrun.Reconcile.Manifest

/-!
# Transfer plans

Classification of the differences of two manifests against their baselines, and the changes
a command made to the remote tree.
-/

namespace Remrun.Reconcile

open Keyed
set_option autoImplicit false

inductive Action where
  | none
  | push
  | pull
  | deleteRemote
  | deleteLocal
  | abortConflict
  deriving DecidableEq, Repr

/-- The text of an action, as it stands in a reason. -/
def Action.text : Action → String
  | .none => "none"
  | .push => "push"
  | .pull => "pull"
  | .deleteRemote => "delete-remote"
  | .deleteLocal => "delete-local"
  | .abortConflict => "abort-conflict"

inductive PathState where
  | same
  | bothChanged
  | localNewer
  | remoteNewer
  | unknownDeletion
  | remoteDeletedKnown
  | localDeletedKnown
  | localOnly
  | remoteOnly
  | bothPresentDiffer
  | differs
  | bothPresentUnverified
  | bootstrapInputRemoteMissing
  | bootstrapInputDiverged
  | fallbackLocalMutation
  | casefoldCollision
  | remoteVanished
  | localVanished
  | preflightChanged
  deriving DecidableEq, Repr

structure ClassifiedPath where
  path : String
  state : PathState
  action : Action
  reason : String
  deriving DecidableEq, Repr

/-- `entries_same`. -/
def entriesSame : Option FileEntry → Option FileEntry → Bool
  | some a, some b =>
    if a.kind ≠ b.kind ∨ a.size ≠ b.size then false
    else match a.sha256, b.sha256 with
      | some x, some y => x = y
      | _, _ => a.mtimeNs = b.mtimeNs
  | none, none => true
  | _, _ => false

/-- `_entries_content_same`. -/
def entriesContentSame (a b : FileEntry) : Bool :=
  a.kind = b.kind && a.size = b.size && a.sha256.isSome && a.sha256 = b.sha256

/-- `_changed_since`. -/
def changedSince (prev cur : Option FileEntry) : Bool := !entriesSame prev cur

/-- `_heuristic_diff`. -/
def heuristicDiff (path : String) (le re : FileEntry) : ClassifiedPath :=
  match le.sha256, re.sha256 with
  | some x, some y =>
    if x = y then ⟨path, .same, .none, "identical content (no baseline yet)"⟩
    else ⟨path, .bothPresentDiffer, .abortConflict,
      "differs with no sync history — resolve manually"⟩
  | _, _ => ⟨path, .bothPresentUnverified, .abortConflict,
      "present on both sides, unhashed, no history — resolve manually"⟩

/-- Both sides hold the path, and there is a baseline. -/
def classifyBoth (path : String) (le re : FileEntry) (pl pr : Option FileEntry) :
    ClassifiedPath :=
  let localChanged := changedSince pl (some le)
  let remoteChanged := changedSince pr (some re)
  if localChanged && remoteChanged then
    if entriesContentSame le re then
      ⟨path, .same, .none, "both changed to identical content"⟩
    else ⟨path, .bothChanged, .abortConflict, "both sides changed since last run"⟩
  else if localChanged then ⟨path, .localNewer, .push, "local changed since last run"⟩
  else if remoteChanged then ⟨path, .remoteNewer, .pull, "remote changed since last run"⟩
  else ⟨path, .same, .none, "neither side changed since last run"⟩

/-- Only the controller holds the path. -/
def classifyLocal (path : String) (le : FileEntry) (havePrev : Bool)
    (pl pr : Option FileEntry) : ClassifiedPath :=
  if havePrev && pr.isSome then
    if changedSince pl (some le) then
      ⟨path, .unknownDeletion, .abortConflict, "remote deleted a file modified locally"⟩
    else ⟨path, .remoteDeletedKnown, .deleteLocal,
      "remote deleted file; local unchanged (backup first)"⟩
  else ⟨path, .localOnly, .push, "file exists only locally"⟩

/-- Only the target holds the path. -/
def classifyRemote (path : String) (re : FileEntry) (havePrev : Bool)
    (pl pr : Option FileEntry) : ClassifiedPath :=
  if havePrev && pl.isSome then
    if changedSince pr (some re) then
      ⟨path, .unknownDeletion, .abortConflict, "local deleted a file modified remotely"⟩
    else ⟨path, .localDeletedKnown, .deleteRemote, "local deleted file; remote unchanged"⟩
  else ⟨path, .remoteOnly, .pull, "file exists only remotely and is included"⟩

/-- The loop body of `compare_manifests`. -/
def classify (path : String) (le re : Option FileEntry) (havePrev : Bool)
    (pl pr : Option FileEntry) : Option ClassifiedPath :=
  match le, re with
  | some le, some re =>
    if havePrev then some (classifyBoth path le re pl pr) else some (heuristicDiff path le re)
  | some le, none => some (classifyLocal path le havePrev pl pr)
  | none, some re => some (classifyRemote path re havePrev pl pr)
  | none, none => none

/-- `prev.get(path) if prev else None`. -/
def prevEntry (prev : Option Manifest) (path : String) : Option FileEntry :=
  prev.bind fun manifest => manifest.get path

/-- `compare_manifests`. -/
def compareManifests (localManifest remoteManifest : Manifest)
    (prevLocal prevRemote : Option Manifest) : List ClassifiedPath :=
  let havePrev := prevLocal.isSome && prevRemote.isSome
  (unionPaths localManifest remoteManifest).filterMap fun path =>
    classify path (localManifest.get path) (remoteManifest.get path) havePrev
      (prevEntry prevLocal path) (prevEntry prevRemote path)

/-- The created and modified paths of `diff_remote_changes`. -/
def changedPaths (pre post : Manifest) : List String :=
  (unionPaths pre post).filter fun path =>
    (post.get path).isSome && !entriesSame (pre.get path) (post.get path)

/-- The deleted paths of `diff_remote_changes`. -/
def deletedPaths (pre post : Manifest) : List String :=
  (unionPaths pre post).filter fun path => (pre.get path).isSome && (post.get path).isNone

/-- `diff_remote_changes`. -/
def diffRemoteChanges (pre post : Manifest) : List String × List String :=
  (changedPaths pre post, deletedPaths pre post)

/-! ## Facts about entries -/

theorem entriesSame_none_left {entry : Option FileEntry} :
    entriesSame none entry = true ↔ entry = none := by
  cases entry <;> simp [entriesSame]

theorem entriesSame_none_right {entry : Option FileEntry} :
    entriesSame entry none = true ↔ entry = none := by
  cases entry <;> simp [entriesSame]

/-- Equal entries agree in kind and size, and in the digest where both have one. -/
theorem entriesSame_some {a b : FileEntry} :
    entriesSame (some a) (some b) = true ↔ a.kind = b.kind ∧ a.size = b.size ∧
      ((∃ x, a.sha256 = some x ∧ b.sha256 = some x) ∨
        ((a.sha256 = none ∨ b.sha256 = none) ∧ a.mtimeNs = b.mtimeNs)) := by
  simp only [entriesSame]
  split
  · rename_i h
    simp only [Bool.false_eq_true, false_iff]
    rintro ⟨hkind, hsize, _⟩
    rcases h with h | h
    · exact h hkind
    · exact h hsize
  · rename_i h
    rw [not_or, not_not, not_not] at h
    cases ha : a.sha256 <;> cases hb : b.sha256 <;> simp [h.1, h.2, eq_comm]

theorem classify_path {path : String} {le re pl pr : Option FileEntry} {havePrev : Bool}
    {item : ClassifiedPath} (h : classify path le re havePrev pl pr = some item) :
    item.path = path := by
  unfold classify at h
  split at h
  · split at h
    · rw [← Option.some.inj h]
      unfold classifyBoth
      dsimp only
      split_ifs <;> rfl
    · rw [← Option.some.inj h]
      unfold heuristicDiff
      split
      · split <;> rfl
      · rfl
  · rw [← Option.some.inj h]
    unfold classifyLocal
    split_ifs <;> rfl
  · rw [← Option.some.inj h]
    unfold classifyRemote
    split_ifs <;> rfl
  · simp at h

/-- A plan has one item for each path it names. -/
theorem mem_compareManifests {localManifest remoteManifest : Manifest}
    {prevLocal prevRemote : Option Manifest} {item : ClassifiedPath} :
    item ∈ compareManifests localManifest remoteManifest prevLocal prevRemote ↔
      classify item.path (localManifest.get item.path) (remoteManifest.get item.path)
        (prevLocal.isSome && prevRemote.isSome) (prevEntry prevLocal item.path)
        (prevEntry prevRemote item.path) = some item := by
  unfold compareManifests
  rw [List.mem_filterMap]
  constructor
  · rintro ⟨path, _, h⟩
    rw [classify_path h]
    exact h
  · intro h
    refine ⟨item.path, mem_unionPaths.mpr ?_, h⟩
    cases hl : localManifest.get item.path with
    | some entry => exact Or.inl ⟨entry, rfl⟩
    | none =>
      cases hr : remoteManifest.get item.path with
      | some entry => exact Or.inr ⟨entry, rfl⟩
      | none => simp [hl, hr, classify] at h

/-- Items that keep the path they are made from. -/
theorem paths_filterMap_sublist {item? : String → Option ClassifiedPath}
    (h : ∀ path item, item? path = some item → item.path = path) (paths : List String) :
    ((paths.filterMap item?).map ClassifiedPath.path).Sublist paths := by
  induction paths with
  | nil => exact List.Sublist.refl _
  | cons path rest ih =>
    rw [List.filterMap_cons]
    split
    · exact ih.cons _
    · rename_i item hitem
      rw [List.map_cons, h path item hitem]
      exact ih.cons_cons _

theorem compareManifests_nodup (localManifest remoteManifest : Manifest)
    (prevLocal prevRemote : Option Manifest) :
    ((compareManifests localManifest remoteManifest prevLocal prevRemote).map
      ClassifiedPath.path).Nodup :=
  (sortPaths_nodup _).sublist (paths_filterMap_sublist (fun _ _ => classify_path) _)

end Remrun.Reconcile
