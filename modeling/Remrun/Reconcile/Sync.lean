import Remrun.Reconcile.Preflight

/-!
# Folder synchronization

`run_sync_result` from the mapped roots on: the probe of the remote root, the two planning
manifests, the plan, the apply loop with the batch transfers and the verification of the
pushed files, and the baseline that is computed from the applied actions.
-/

namespace Remrun.Reconcile

open Keyed Effect
set_option autoImplicit false

/-- `DIRECTIONS`. -/
inductive Direction where
  | both
  | pull
  | push
  deriving DecidableEq, Repr

/-- `AUTHORITIES`. -/
inductive SyncAuthority where
  | remote
  | controller
  | conflict
  deriving DecidableEq, Repr

/-- `EXIT_OK`, `EXIT_CONFLICT`, `EXIT_TRANSFER` and `EXIT_INFRA`. -/
inductive ExitCode where
  | ok
  | conflict
  | transfer
  | infra
  deriving DecidableEq, Repr

structure SyncArgs where
  direction : Direction
  /-- the authority of the mapped tree -/
  authority : SyncAuthority
  excludes : List String
  /-- what `read_baseline` returns -/
  prev : Option (Manifest × Manifest)
  backupBelowBytes : Nat
  dryRun : Bool

/-- `_HASH_ALL`. -/
def hashAll : Nat := 2 ^ 62

def SyncArgs.surface (a : SyncArgs) : Surface := ⟨a.excludes, [], hashAll⟩

/-- The authority that the direction leaves to the tree. -/
def SyncArgs.winner (a : SyncArgs) : SyncAuthority :=
  match a.direction with
  | .pull => .remote
  | .push => .controller
  | .both => a.authority

/-- The baseline is read for `both` only. -/
def SyncArgs.baseline (a : SyncArgs) : Option (Manifest × Manifest) :=
  if a.direction = .both then a.prev else none

structure SyncResult where
  pulled : List String
  pushed : List String
  verifiedPushed : List String
  deletedLocal : List String
  deletedRemote : List String
  conflicts : List String
  skipped : List String
  usedBaseline : Bool
  remotePaths : List String
  exitCode : ExitCode
  /-- what `write_baseline` stored -/
  written : Option (Manifest × Manifest)

/-- `len(remote_m)`, as it is reported. -/
def SyncResult.remoteFiles (result : SyncResult) : Nat := result.remotePaths.length

def SyncResult.start : SyncResult := ⟨[], [], [], [], [], [], [], false, [], .ok, none⟩

def SyncResult.exit (result : SyncResult) (code : ExitCode) : SyncResult :=
  { result with exitCode := code }

/-! ## Classification -/

/-- `_same_content`. -/
def sameContent (le re : FileEntry) : Bool :=
  if le.size ≠ re.size then false
  else match le.sha256, re.sha256 with
    | some x, some y => x = y
    | _, _ => false

/-- The loop body of `classify_sync`. -/
def classifySyncPath (authority : SyncAuthority) (path : String) :
    Option FileEntry → Option FileEntry → Option ClassifiedPath
  | some le, some re =>
    if sameContent le re then some ⟨path, .same, .none, "identical content"⟩
    else match authority with
      | .controller => some ⟨path, .differs, .push, "differs; local authoritative"⟩
      | .conflict => some ⟨path, .differs, .abortConflict,
          "differs; no authority (clocks not comparable)"⟩
      | .remote => some ⟨path, .differs, .pull, "differs; remote authoritative"⟩
  | none, some _ => some ⟨path, .remoteOnly, .pull, "only on remote"⟩
  | some _, none => some ⟨path, .localOnly, .push, "only on local"⟩
  | none, none => none

/-- `classify_sync`. -/
def classifySync (authority : SyncAuthority) (localManifest remoteManifest : Manifest) :
    List ClassifiedPath :=
  (unionPaths localManifest remoteManifest).filterMap fun path =>
    classifySyncPath authority path (localManifest.get path) (remoteManifest.get path)

def SyncArgs.classified (a : SyncArgs) (localManifest remoteManifest : Manifest) :
    List ClassifiedPath :=
  match a.baseline with
  | some prev => compareManifests localManifest remoteManifest (some prev.1) (some prev.2)
  | none => classifySync a.winner localManifest remoteManifest

/-- An action that the direction leaves out. -/
def Direction.skips : Direction → Action → Bool
  | .pull, action => action = .push || action = .deleteRemote
  | .push, action => action = .pull || action = .deleteLocal
  | .both, _ => false

/-- `_filter_actions`: what is applied. -/
def SyncArgs.toApply (a : SyncArgs) (localManifest remoteManifest : Manifest) :
    List ClassifiedPath :=
  (a.classified localManifest remoteManifest).filter fun item =>
    item.action ≠ .none && !a.direction.skips item.action

/-- `_filter_actions`: what is skipped. -/
def SyncArgs.skipped (a : SyncArgs) (localManifest remoteManifest : Manifest) :
    List ClassifiedPath :=
  (a.classified localManifest remoteManifest).filter fun item => a.direction.skips item.action

/-- `_converged`; the error is the key of a `KeyError`. -/
def convergedStep (localManifest remoteManifest : Manifest) (pair : Manifest × Manifest)
    (item : ClassifiedPath) : Except String (Manifest × Manifest) :=
  match item.action with
  | .pull =>
    match remoteManifest.get item.path with
    | some entry => .ok (pair.1.set item.path entry, pair.2)
    | none => .error item.path
  | .push =>
    match localManifest.get item.path with
    | some entry => .ok (pair.1, pair.2.set item.path entry)
    | none => .error item.path
  | .deleteLocal => .ok (pair.1.pop item.path, pair.2)
  | .deleteRemote => .ok (pair.1, pair.2.pop item.path)
  | .none | .abortConflict => .ok pair

def converged (localManifest remoteManifest : Manifest) (applied : List ClassifiedPath) :
    Except String (Manifest × Manifest) :=
  applied.foldlM (convergedStep localManifest remoteManifest) (localManifest, remoteManifest)

section Sync
variable {P : Platform} (env : Env P) (a : SyncArgs)

/-! ## Planning -/

/-- The probe of the remote root: whether the call goes on. -/
def syncProbe : M P Bool :=
  if a.direction = .push then return true
  else tryCatch (remoteRootExists env) fun
    | .transportError _ | .notImplemented => return true
    | fault => throw fault

/-- A value, or `none` where a `TransportError` is raised. -/
def transported {α : Type} (m : M P α) : M P (Option α) :=
  tryCatch (some <$> m) fun
    | .transportError _ => return none
    | fault => throw fault

/-- The vanished-local guard. -/
def localVanished (localManifest : Manifest) : M P Bool :=
  match a.baseline with
  | some prev => probeGone (prev.1.rows ≠ [] ∧ localManifest.rows = []) (localRootExists env)
  | none => return false

/-- The manifests of the two sides, as they were observed for planning. -/
abbrev Observed := Manifest × Manifest

/-- What is reported before anything is applied. -/
def SyncArgs.opened (a : SyncArgs) (seen : Observed) : SyncResult :=
  { SyncResult.start with
    skipped := (a.skipped seen.1 seen.2).map ClassifiedPath.path
    usedBaseline := a.baseline.isSome
    remotePaths := seen.2.keys }

/-- What planning comes to: an exit, or the pair of manifests to apply. -/
def planSync : M P (Except SyncResult Observed) := do
  if ← syncProbe env a then
    let localManifest ← buildManifest env a.surface .controller
    match ← transported (buildManifest env a.surface .target) with
    | none => return .error (SyncResult.start.exit .transfer)
    | some remoteManifest =>
      if ← localVanished env a localManifest then
        return .error ({ SyncResult.start with remotePaths := remoteManifest.keys }.exit .infra)
      else if (plannedCollisions P localManifest remoteManifest
          (a.toApply localManifest remoteManifest)).rows ≠ [] then
        return .error ((a.opened (localManifest, remoteManifest)).exit .conflict)
      else return .ok (localManifest, remoteManifest)
  else return .error (SyncResult.start.exit .infra)

/-! ## Applying -/

/-- The step, with the `except TransportError` of the apply phase. -/
def attempt (m : M P Unit) (before after : SyncResult) : M P (Except SyncResult SyncResult) := do
  match ← transported m with
  | some () => return .ok after
  | none => return .error (before.exit .transfer)

/-- What the apply loop does for an item; pulls and pushes are collected. -/
def itemEffect (remoteManifest : Manifest) (item : ClassifiedPath) : M P Unit :=
  match item.action with
  | .pull => discard (backupLocal env item.path a.backupBelowBytes)
  | .deleteLocal => do
    let _ ← backupLocal env item.path a.backupBelowBytes
    deleteLocal env item.path
  | .deleteRemote => deleteRemote env item.path
  | .abortConflict =>
    if (remoteManifest.get item.path).isSome then saveRemote env item.path else return ()
  | .push | .none => return ()

/-- What the apply loop reports for an item. -/
def SyncResult.applied (result : SyncResult) (item : ClassifiedPath) : SyncResult :=
  match item.action with
  | .deleteLocal => { result with deletedLocal := result.deletedLocal ++ [item.path] }
  | .deleteRemote => { result with deletedRemote := result.deletedRemote ++ [item.path] }
  | .abortConflict => { result with conflicts := result.conflicts ++ [item.path] }
  | .pull | .push | .none => result

/-- The loop body of the apply loop. -/
def syncItem (remoteManifest : Manifest) (result : SyncResult) (item : ClassifiedPath) :
    M P (Except SyncResult SyncResult) :=
  attempt (itemEffect env a remoteManifest item) result (result.applied item)

/-- Goes on where no exit was taken. -/
def continuing {α β : Type} (f : α → M P (Except SyncResult β)) :
    Except SyncResult α → M P (Except SyncResult β)
  | .ok x => f x
  | .error result => return .error result

def syncItems (remoteManifest : Manifest) (result : SyncResult) (plan : List ClassifiedPath) :
    M P (Except SyncResult SyncResult) :=
  plan.foldlM (fun acc item =>
    continuing (fun result => syncItem env a remoteManifest result item) acc) (.ok result)

/-- `pull_files`. -/
def pullFiles (paths : List String) : M P Unit :=
  paths.foldlM (fun _ rel => pullFile env rel) ()

/-- `push_files`. -/
def pushFiles (paths : List String) : M P Unit :=
  paths.foldlM (fun _ rel => pushFile env rel) ()

def syncPulls (paths : List String) (result : SyncResult) : M P (Except SyncResult SyncResult) :=
  if paths = [] then return .ok result
  else attempt (pullFiles env paths) result { result with pulled := result.pulled ++ paths }

/-- A pushed file that is not remotely visible with its size and digest. -/
def mismatched (localManifest verified : Manifest) (rel : String) : Bool :=
  match localManifest.get rel, verified.get rel with
  | some le, some re => !sameContent le re
  | _, _ => true

/-- The manifest after the pushes, where it shows all pushed files. -/
def verifiedRemote (localManifest : Manifest) (pushes : List String) : M P (Option Manifest) :=
  tryCatch (do
    let verified ← buildManifest env a.surface .target
    if pushes.any (mismatched localManifest verified) then
      throw (.transportError ("pushed files not remotely visible with expected size/hash: " ++
        ", ".intercalate (pushes.filter (mismatched localManifest verified))))
    else return some verified) fun
    | .transportError _ | .notImplemented | .valueError => return none
    | fault => throw fault

/-- The pushes and their verification; the manifest is the one the baseline starts from. -/
def syncPushes (seen : Observed) (pushes : List String) (result : SyncResult) :
    M P (Except SyncResult (SyncResult × Manifest)) :=
  if pushes = [] then return .ok (result, seen.2)
  else do
    match ← attempt (do ensureRemoteDir env; pushFiles env pushes) result result with
    | .error result => return .error result
    | .ok result =>
      match ← verifiedRemote env a seen.1 pushes with
      | none => return .error (result.exit .transfer)
      | some verified => return .ok ({ result with
          pushed := result.pushed ++ pushes
          verifiedPushed := result.verifiedPushed ++ pushes
          remotePaths := verified.keys }, verified)

/-- The apply phase. -/
def applySync (seen : Observed) : M P (Except SyncResult (SyncResult × Manifest)) := do
  let plan := a.toApply seen.1 seen.2
  let result ← syncItems env a seen.2 (a.opened seen) plan
  let result ← continuing (syncPulls env (pathsFor .pull plan)) result
  continuing (syncPushes env a seen (pathsFor .push plan)) result

/-- The baseline, and the exit. -/
def finishSync (seen : Observed) (result : SyncResult) (remoteManifest : Manifest) :
    Except String SyncResult :=
  if a.direction = .both ∧ result.conflicts = [] then
    match converged seen.1 remoteManifest (a.toApply seen.1 seen.2) with
    | .ok pair => .ok { result with written := some pair }
    | .error path => .error path
  else .ok (result.exit (if result.conflicts ≠ [] then .conflict else .ok))

/-- What follows planning. -/
def carryOut (seen : Observed) : M P (Except String SyncResult) :=
  if a.dryRun then return .ok (a.opened seen)
  else do
    match ← applySync env a seen with
    | .error result => return .ok result
    | .ok (result, remoteManifest) => return finishSync a seen result remoteManifest

/-- `run_sync_result`. The error is the key of a `KeyError` that the call raises. -/
def runSyncResult : M P (Except String SyncResult) := do
  match ← planSync env a with
  | .error result => return .ok result
  | .ok seen => carryOut env a seen

end Sync

end Remrun.Reconcile
