import Remrun.Snapshot.Identity

/-!
# Snapshots, tombstones and the catch-up of a replica

`coordination.py`: the canonical record of a full manifest, the deletions between two
manifests, the readers of both, and the three-way plan that brings one replica to the head.
Identities arrive as JSON records and are checked before they are compared.
-/

namespace Remrun.Snapshot

open Keyed Reconcile
set_option autoImplicit false

/-- A JSON object of scalars. -/
abbrev Record := Dict (id : String → String) Value

def Record.field (record : Record) (key : String) : Value := (record.get key).getD .null

/-- `_sha256_hex`. -/
def sha256Hex (value label : String) : Except String Unit :=
  if isDigest value then .ok () else .error (label ++ " must be a lowercase SHA-256 hex digest")

/-! ## Records of a manifest -/

/-- `canonical_identity`. -/
def canonicalIdentity (entry : FileEntry) : Record where
  rows := [("kind", .str entry.kind), ("size", .int entry.size), ("mtime_ns", .int entry.mtimeNs),
    ("sha256", optionValue .str entry.sha256), ("mode", optionValue (fun mode : Nat => .int mode) entry.mode)]
  nodup := by simp

/-- An entry of a snapshot: the path, then the identity. -/
def snapshotEntry (path : String) (entry : FileEntry) : Record where
  rows := [("path", .str path), ("kind", .str entry.kind), ("size", .int entry.size),
    ("mtime_ns", .int entry.mtimeNs), ("sha256", optionValue .str entry.sha256),
    ("mode", optionValue (fun mode : Nat => .int mode) entry.mode)]
  nodup := by simp

structure CanonicalSnapshot where
  format : String
  generation : Int
  parentGeneration : Option Int
  policySha256 : String
  manifestSha256 : String
  entries : List Record
  deriving DecidableEq

structure TombstoneEvent where
  path : String
  deletedGeneration : Int
  priorIdentity : Record
  deletedByTxnId : String
  deriving DecidableEq

/-- A later generation without an earlier parent. -/
def lacksParent (generation : Int) (parentGeneration : Option Int) : Bool :=
  0 < generation && match parentGeneration with
    | none => true
    | some parent => generation ≤ parent

/-- The checks of one entry of the manifest. -/
def buildEntry (path : String) (entry : FileEntry) : Except String Record :=
  if entry.path ≠ path then .error ("snapshot key/path mismatch: " ++ path)
  else match entry.sha256 with
    | none => .error ("snapshot entry is not a strong regular-file identity: " ++ path)
    | some sha256 =>
      if entry.kind ≠ "file" ∨ entry.mode = none then
        .error ("snapshot entry is not a strong regular-file identity: " ++ path)
      else do
        sha256Hex sha256 ("sha256 for " ++ path)
        return snapshotEntry path entry

/-- The loop over the sorted paths. -/
def buildEntries (manifest : Manifest) (paths : List String) : Except String (List Record) :=
  (paths.filterMap fun path => (manifest.get path).map (path, ·)).mapM fun (path, entry) =>
    buildEntry path entry

/-- `build_canonical_snapshot`. -/
def buildCanonicalSnapshot (P : Platform) (manifest : Manifest) (generation : Int)
    (parentGeneration : Option Int) (policySha256 : String) : Except String CanonicalSnapshot :=
  if generation < 0 then .error "generation must be nonnegative"
  else if generation = 0 ∧ parentGeneration ≠ none then
    .error "generation zero cannot have a parent"
  else if lacksParent generation parentGeneration then
    .error "a later generation requires an earlier parent"
  else do
    sha256Hex policySha256 "policy_sha256"
    let entries ← buildEntries manifest (sortPaths manifest.keys)
    return {
      format := "remrun-canonical-snapshot-v1", generation, parentGeneration, policySha256
      manifestSha256 := strongManifestDigest P manifest, entries }

/-- The deletion of one path. -/
def tombstoneOf (deletedGeneration : Int) (deletedByTxnId path : String) (entry : FileEntry) :
    Except String TombstoneEvent :=
  if entry.sha256 = none ∨ entry.mode = none then
    .error ("prior identity is not strong enough to tombstone: " ++ path)
  else .ok ⟨path, deletedGeneration, canonicalIdentity entry, deletedByTxnId⟩

/-- `deletion_tombstones`. -/
def deletionTombstones (parent current : Manifest) (deletedGeneration : Int)
    (deletedByTxnId : String) : Except String (List TombstoneEvent) :=
  if deletedGeneration ≤ 0 then .error "deleted_generation must be positive"
  else if deletedByTxnId = "" then .error "deleted_by_txn_id is required"
  else
    let gone := sortPaths (parent.keys.filter fun path => current.get path = none)
    (gone.filterMap fun path => (parent.get path).map (path, ·)).mapM fun (path, entry) =>
      tombstoneOf deletedGeneration deletedByTxnId path entry

/-! ## Readers -/

/-- `path.split("/")`. -/
def pathParts (path : String) : List (List Char) := path.toList.splitOn '/'

def canonicalPath (path : String) : Bool :=
  path.toList.head? ≠ some '/' && !path.toList.contains '\\' && !path.toList.contains '\x00' &&
    (pathParts path).all fun part => part ≠ [] && part ≠ ['.'] && part ≠ ['.', '.']

def identityKeys : List String := ["kind", "size", "mtime_ns", "sha256", "mode"]

/-- `set(identity) == {…}`. -/
def hasIdentityKeys (identity : Record) : Bool :=
  identity.keys.all (· ∈ identityKeys) && identityKeys.all (· ∈ identity.keys)

/-- `type(value) is int` and the bounds; a Boolean is no `int` here. -/
def intWithin (low : Int) (high : Option Int) : Value → Bool
  | .int n => low ≤ n && match high with
    | none => true
    | some high => n ≤ high
  | _ => false

/-- `_validate_identity`. -/
def validateIdentity (path : String) (identity : Record) (label : String) : Except String Unit :=
  if !canonicalPath path then .error (label ++ " has a noncanonical path: " ++ path)
  else if !hasIdentityKeys identity then
    .error (label ++ " has an invalid identity schema: " ++ path)
  else if identity.field "kind" ≠ .str "file" then
    .error (label ++ " is not a regular file: " ++ path)
  else if !intWithin 0 none (identity.field "size") then
    .error (label ++ " has an invalid size: " ++ path)
  else if !intWithin 0 none (identity.field "mtime_ns") then
    .error (label ++ " has an invalid mtime_ns: " ++ path)
  else if !intWithin 0 (some 0o7777) (identity.field "mode") then
    .error (label ++ " has an invalid mode: " ++ path)
  else sha256Hex (identity.field "sha256").text (label ++ " sha256 for " ++ path)

/-- `_content_identity`, of a record that has the four fields. -/
def contentIdentity (identity : Record) : ContentIdentity where
  kind := identity.field "kind"
  size := identity.field "size"
  sha256 := identity.field "sha256"
  mode := identity.field "mode"

abbrev Identities := Dict (id : String → String) ContentIdentity

/-- `_identity_manifest_digest`. -/
def identityManifestDigest (P : Platform) (identities : Dict (id : String → String) Record) : String :=
  P.sha256 (identityText (fun path => (identities.get path).map contentIdentity)
    (sortPaths identities.keys))

/-- The loop body over the entries of a snapshot. -/
def readEntry (rawResult : Dict (id : String → String) Record) (raw : Record) :
    Except String (Dict (id : String → String) Record) :=
  match raw.get "path" with
  | some (.str path) =>
    if path = "" ∨ rawResult.get path ≠ none then
      .error "snapshot entries require unique nonempty paths"
    else do
      validateIdentity path (raw.pop "path") "snapshot identity"
      return rawResult.set path (raw.pop "path")
  | _ => .error "snapshot entries require unique nonempty paths"

/-- `_snapshot_identities`. -/
def snapshotIdentities (P : Platform) (snapshot : CanonicalSnapshot) : Except String Identities :=
  if snapshot.format ≠ "remrun-canonical-snapshot-v1" then
    .error "unsupported canonical snapshot format"
  else if snapshot.generation < 0 then .error "snapshot generation must be nonnegative"
  else if snapshot.generation = 0 ∧ snapshot.parentGeneration ≠ none then
    .error "generation zero snapshot cannot have a parent"
  else if lacksParent snapshot.generation snapshot.parentGeneration then
    .error "later snapshot requires an earlier parent"
  else do
    sha256Hex snapshot.policySha256 "snapshot policy_sha256"
    sha256Hex snapshot.manifestSha256 "snapshot manifest_sha256"
    let rawResult ← snapshot.entries.foldlM readEntry Dict.empty
    if identityManifestDigest P rawResult ≠ snapshot.manifestSha256 then
      .error "snapshot entries do not match manifest_sha256"
    else return rawResult.mapValues contentIdentity

/-- The loop body over the items of a replica's manifest. -/
def readReplica (result : Identities) (item : String × FileEntry) : Except String Identities :=
  if item.2.path ≠ item.1 then .error ("replica key/path mismatch: " ++ item.1)
  else if item.2.kind ≠ "file" ∨ item.2.mode = none ∨ item.2.sha256 = none then
    .error ("replica entry is not a strong regular-file identity: " ++ item.1)
  else do
    validateIdentity item.1 (canonicalIdentity item.2) "replica identity"
    return result.set item.1 (contentIdentity (canonicalIdentity item.2))

/-- `_strong_manifest_identities`. -/
def strongManifestIdentities (manifest : Manifest) : Except String Identities :=
  manifest.rows.foldlM readReplica Dict.empty

/-! ## The cursor of a replica -/

inductive ReplicaState where
  | active
  | dirty
  | unverified
  | retired
  deriving DecidableEq, Repr

/-- `ReplicaCursor`, as far as a plan reads it, with the checks of `__post_init__`. -/
structure ReplicaCursor where
  replicaId : String
  state : ReplicaState
  ackGeneration : Option Int
  ackManifestSha256 : Option String
  together : ackGeneration = none ↔ ackManifestSha256 = none
  nonneg : ∀ ack, ackGeneration = some ack → 0 ≤ ack
  digest : ∀ sha256, ackManifestSha256 = some sha256 → isDigest sha256 = true
  verified : state = .active → ackGeneration ≠ none
  unclaimed : state = .unverified → ackGeneration = none

/-! ## The plan -/

inductive CatchUpAction where
  | noop
  | applyHead
  | adoptReplica
  | conflict
  deriving DecidableEq, Repr

inductive CatchUpReason where
  | stalePreDelete
  | deleteModify
  | clean
  | convergedChange
  | missingTombstone
  | canonicalChange
  | postDeleteRecreation
  | replicaEdit
  | divergentEdit
  deriving DecidableEq, Repr

structure CatchUpDecision where
  path : String
  action : CatchUpAction
  reason : CatchUpReason
  baseIdentity : Option ContentIdentity
  headIdentity : Option ContentIdentity
  replicaIdentity : Option ContentIdentity
  tombstoneGeneration : Option Int
  deriving DecidableEq, Repr

inductive PlanState where
  | blocked
  | conflict
  | ready
  deriving DecidableEq, Repr

inductive BlockReason where
  | policyMismatch
  | unverifiedReplica
  | retiredReplica
  | missingAcknowledgement
  | cursorBaseMismatch
  | headPrecedesCursor
  | invalidIdentity
  | invalidTombstoneHistory
  deriving DecidableEq, Repr

structure CatchUpPlan where
  state : PlanState
  reason : Option BlockReason
  replicaId : String
  ackGeneration : Option Int
  headGeneration : Int
  decisions : List CatchUpDecision
  deriving DecidableEq, Repr

/-- `_blocked_catchup`. -/
def blockedCatchup (cursor : ReplicaCursor) (head : CanonicalSnapshot) (reason : BlockReason) :
    CatchUpPlan where
  state := .blocked
  reason := some reason
  replicaId := cursor.replicaId
  ackGeneration := cursor.ackGeneration
  headGeneration := head.generation
  decisions := []

/-- `event_key`. -/
def eventKey (event : TombstoneEvent) : String × Int := (event.path, event.deletedGeneration)

abbrev EventsByPath := Dict (id : String → String) (List TombstoneEvent)

/-- The loop body over the tombstones; `none` blocks the plan. -/
def readTombstone (headGeneration : Int) (state : EventsByPath × List (String × Int))
    (event : TombstoneEvent) : Option (EventsByPath × List (String × Int)) :=
  if eventKey event ∈ state.2 ∨ event.deletedByTxnId = "" then none
  else if event.deletedGeneration ≤ 0 ∨ headGeneration < event.deletedGeneration then none
  else match validateIdentity event.path event.priorIdentity "tombstone prior identity" with
    | .error _ => none
    | .ok _ => some (state.1.set event.path ((state.1.get event.path).getD [] ++ [event]),
        eventKey event :: state.2)

/-- The tombstones of each path, sorted by generation. -/
def tombstoneHistory (headGeneration : Int) (tombstones : List TombstoneEvent) :
    Option EventsByPath := do
  let (byPath, _) ← tombstones.foldlM (readTombstone headGeneration) (Dict.empty, [])
  return byPath.mapValues fun events =>
    events.insertionSort fun a b => a.deletedGeneration ≤ b.deletedGeneration

/-- The decision for one path. -/
def decidePath (ack headGeneration : Int) (path : String)
    (base head replica : Option ContentIdentity) (events : List TombstoneEvent) : CatchUpDecision :=
  let decision action reason tombstone : CatchUpDecision :=
    ⟨path, action, reason, base, head, replica, tombstone⟩
  let unseen := events.filter fun event =>
    ack < event.deletedGeneration && event.deletedGeneration ≤ headGeneration
  let matching := unseen.filter fun event => some (contentIdentity event.priorIdentity) = replica
  match unseen.getLast? with
  | some latest =>
    if head = none ∧ replica ≠ none then
      match matching.getLast? with
      | some event =>
        decision .applyHead .stalePreDelete (some event.deletedGeneration)
      | none => decision .conflict .deleteModify (some latest.deletedGeneration)
    else compare decision
  | none => compare decision
where
  compare (decision : CatchUpAction → CatchUpReason → Option Int → CatchUpDecision) :
      CatchUpDecision :=
    if replica = base ∧ head = base then decision .noop .clean none
    else if replica = head then decision .noop .convergedChange none
    else if replica = base then
      if base ≠ none ∧ head = none then decision .conflict .missingTombstone none
      else decision .applyHead .canonicalChange none
    else if head = base then
      if head = none ∧ events.any fun event => event.deletedGeneration ≤ ack then
        decision .adoptReplica .postDeleteRecreation none
      else decision .adoptReplica .replicaEdit none
    else if (head = none) ≠ (replica = none) then decision .conflict .deleteModify none
    else decision .conflict .divergentEdit none

/-- The decisions over all paths that one of the three sides has. -/
def decideAll (ack headGeneration : Int) (base head replica : Identities)
    (byPath : EventsByPath) : List CatchUpDecision :=
  (sortPaths (base.keys ++ head.keys ++ replica.keys)).map fun path =>
    decidePath ack headGeneration path (base.get path) (head.get path) (replica.get path)
      ((byPath.get path).getD [])

/-- The three identity maps, unless one cannot be read. -/
def readSides (P : Platform) (base head : CanonicalSnapshot) (current : Manifest) :
    Except String (Identities × Identities × Identities) := do
  let baseIdentities ← snapshotIdentities P base
  let headIdentities ← snapshotIdentities P head
  let replicaIdentities ← strongManifestIdentities current
  return (baseIdentities, headIdentities, replicaIdentities)

/-- The checks before anything is read, in order; the acknowledged generation if they pass. -/
def checkAdmission (cursor : ReplicaCursor) (base head : CanonicalSnapshot)
    (expectedPolicySha256 : String) : Except BlockReason Int :=
  if base.policySha256 ≠ expectedPolicySha256 ∨ head.policySha256 ≠ expectedPolicySha256 then
    .error .policyMismatch
  else if cursor.state = .unverified then .error .unverifiedReplica
  else if cursor.state = .retired then .error .retiredReplica
  else match cursor.ackGeneration, cursor.ackManifestSha256 with
    | some ack, some sha256 =>
      if ack ≠ base.generation ∨ sha256 ≠ base.manifestSha256 then .error .cursorBaseMismatch
      else if head.generation < base.generation then .error .headPrecedesCursor
      else .ok ack
    | _, _ => .error .missingAcknowledgement

/-- The plan over the decisions. -/
def planOf (cursor : ReplicaCursor) (head : CanonicalSnapshot) (decisions : List CatchUpDecision) :
    CatchUpPlan where
  state := if decisions.any fun item => item.action = .conflict then .conflict else .ready
  reason := none
  replicaId := cursor.replicaId
  ackGeneration := cursor.ackGeneration
  headGeneration := head.generation
  decisions := decisions

/-- `plan_replica_catchup`. -/
def planReplicaCatchup (P : Platform) (cursor : ReplicaCursor) (base head : CanonicalSnapshot)
    (current : Manifest) (tombstones : List TombstoneEvent) (expectedPolicySha256 : String) :
    Except String CatchUpPlan := do
  sha256Hex expectedPolicySha256 "expected_policy_sha256"
  match checkAdmission cursor base head expectedPolicySha256 with
  | .error reason => return blockedCatchup cursor head reason
  | .ok ack =>
    match readSides P base head current with
    | .error _ => return blockedCatchup cursor head .invalidIdentity
    | .ok (baseIdentities, headIdentities, replicaIdentities) =>
      match tombstoneHistory head.generation tombstones with
      | none => return blockedCatchup cursor head .invalidTombstoneHistory
      | some byPath =>
        return planOf cursor head
          (decideAll ack head.generation baseIdentities headIdentities replicaIdentities byPath)

end Remrun.Snapshot
