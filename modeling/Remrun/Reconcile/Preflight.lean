import Remrun.Reconcile.TransferPlan
import Remrun.Reconcile.World

/-!
# Preflight reconciliation

`preflight_reconcile` in three phases: planning with its refusals, the apply loop, and the
verification of the final pair of manifests.
-/

namespace Remrun.Reconcile

open Keyed Effect
set_option autoImplicit false

structure ReconcileResult where
  pulled : List String
  pushed : List String
  deletedLocal : List String
  deletedRemote : List String
  conflicts : List ClassifiedPath
  skippedIdentical : List String
  convergedConflicts : List String
  localManifest : Manifest
  remoteManifest : Manifest

/-- The result before anything is applied. -/
def ReconcileResult.ofManifests (localManifest remoteManifest : Manifest) : ReconcileResult :=
  ⟨[], [], [], [], [], [], [], localManifest, remoteManifest⟩

structure PreflightArgs where
  surface : Surface
  prevLocal : Option Manifest
  prevRemote : Option Manifest
  backupBelowBytes : Nat
  isFallback : Bool

def PreflightArgs.havePrev (a : PreflightArgs) : Bool := a.prevLocal.isSome && a.prevRemote.isSome

section Preflight
variable {P : Platform} (env : Env P) (a : PreflightArgs)

/-! ## Planning -/

/-- The root is probed only where its manifest came back empty. -/
def probeGone (suspect : Bool) (present : M P Bool) : M P Bool :=
  if suspect then (! ·) <$> present else return false

/-- The vanished-root guard. -/
def vanishedRoot (localManifest remoteManifest : Manifest) : M P (Option ClassifiedPath) :=
  match a.prevLocal, a.prevRemote with
  | some prevLocal, some prevRemote => do
    let remoteGone ← probeGone (prevRemote.rows ≠ [] ∧ remoteManifest.rows = [])
      (remoteRootPresent env)
    if remoteGone then
      return some ⟨"<remote root>", .remoteVanished, .abortConflict,
        "remote root missing/unreachable but the prior baseline had files — refusing to mirror wholesale deletions"⟩
    else do
      let localGone ← probeGone (prevLocal.rows ≠ [] ∧ localManifest.rows = [])
        (localRootExists env)
      if localGone then
        return some ⟨"<local root>", .localVanished, .abortConflict,
          "local project root missing but the prior baseline had files (wrong cwd?) — refusing to mirror wholesale deletions"⟩
      else return none
  | _, _ => return none

/-- `known or compute()`. -/
def orHash (known : Option String) (compute : M P String) : M P String :=
  match known with
  | some digest => if digest ≠ "" then return digest else compute
  | none => compute

/-- `sha256_file(local_root / path)`. -/
def sha256Local (rel : String) : M P String := do
  match ← look env fun w => (w.node .controller rel).bind Node.contents with
  | none => throw .osError
  | some bytes => return P.sha256 bytes

/-- A value, or `none` where the handled exceptions are raised. -/
def expected {α : Type} (m : M P α) : M P (Option α) :=
  tryCatch (some <$> m) fun fault => if fault.isExpected then return none else throw fault

def normalDigest (text : String) : List Char := (strip isSpace text.toList).map Char.toLower

/-- Whether a conflict stays after the contents are compared. -/
def survives (localManifest remoteManifest : Manifest) (item : ClassifiedPath) : M P Bool :=
  if item.state ≠ .bothChanged ∧ item.state ≠ .bothPresentUnverified then return true
  else match localManifest.get item.path, remoteManifest.get item.path with
    | some le, some re =>
      if le.kind ≠ "file" ∨ re.kind ≠ "file" ∨ le.size ≠ re.size then return true
      else do
        let hashes ← expected (do
          let localHash ← orHash le.sha256 (sha256Local env item.path)
          let remoteHash ← orHash re.sha256 (hashFile env item.path)
          return (localHash, remoteHash))
        match hashes with
        | none => return true
        | some (localHash, remoteHash) =>
          return localHash = "" || remoteHash = "" || (normalDigest remoteHash).length ≠ 64 ||
            normalDigest localHash ≠ normalDigest remoteHash
    | _, _ => return true

/-- `_drop_identical_conflicts`. -/
def dropIdenticalConflicts (localManifest remoteManifest : Manifest)
    (conflicts : List ClassifiedPath) : M P (List ClassifiedPath) :=
  conflicts.foldlM (fun survivors item => do
    if ← survives env localManifest remoteManifest item then return survivors ++ [item]
    else return survivors) []

/-- What becomes of a planned item of an exact bootstrap input; the error is a refusal. -/
def bootstrapItem (localManifest remoteManifest : Manifest) (item : ClassifiedPath) :
    Except ClassifiedPath ClassifiedPath :=
  if item.path ∉ a.surface.includePaths then .ok item
  else if (localManifest.get item.path).isSome ∧ (remoteManifest.get item.path).isNone then
    .ok ⟨item.path, .bootstrapInputRemoteMissing, .push,
      "declared bootstrap input is controller-authoritative"⟩
  else if item.action = .pull ∨ item.action = .deleteLocal ∨ item.action = .deleteRemote then
    .error ⟨item.path, .bootstrapInputDiverged, .abortConflict,
      "target divergence cannot mutate a controller-authoritative bootstrap input"⟩
  else .ok item

def okItems (items : List (Except ClassifiedPath ClassifiedPath)) : List ClassifiedPath :=
  items.filterMap fun
    | .ok item => some item
    | .error _ => none

def refusedItems (items : List (Except ClassifiedPath ClassifiedPath)) : List ClassifiedPath :=
  items.filterMap fun
    | .ok _ => none
    | .error item => some item

/-- The items that write the controller's tree, on a fallback attempt. -/
def localMutations (plan : List ClassifiedPath) : List ClassifiedPath :=
  plan.filter fun item => a.isFallback && (item.action = .pull || item.action = .deleteLocal)

def fallbackConflict (item : ClassifiedPath) : ClassifiedPath :=
  ⟨item.path, .fallbackLocalMutation, .abortConflict,
    "fallback plan would " ++ item.action.text ++ " the local tree"⟩

def pathsFor (action : Action) (plan : List ClassifiedPath) : List String :=
  (plan.filter fun item => item.action = action).map ClassifiedPath.path

/-- The case-fold collisions of the pulls and of the pushes. -/
def plannedCollisions (P : Platform) (localManifest remoteManifest : Manifest)
    (plan : List ClassifiedPath) : Dict (id : String → String) (List String) :=
  let onLocal := if P.localInsensitive then
      casefoldCollisions P (localManifest.keys ++ pathsFor .pull plan)
    else []
  let onRemote := if P.remoteInsensitive then
      casefoldCollisions P (remoteManifest.keys ++ pathsFor .push plan)
    else []
  (onLocal ++ onRemote).foldl (fun groups group => groups.set group.1 group.2) Dict.empty

def collisionConflict (paths : List String) : ClassifiedPath :=
  ⟨" | ".intercalate paths, .casefoldCollision, .abortConflict,
    "would collapse on a case-insensitive target: " ++ ", ".intercalate paths⟩

/-- `plan.conflicts()`. -/
def planConflicts (plan : List ClassifiedPath) : List ClassifiedPath :=
  plan.filter fun item => item.action = .abortConflict

/-- The outcome of planning: a refusal, or a plan to apply with the manifests it is from. -/
inductive Planned where
  | refused (result : ReconcileResult)
  | ready (result : ReconcileResult) (plan : List ClassifiedPath)

/-- The refusals after the conflicts are settled. `result` carries the planning manifests. -/
def settlePlan (P : Platform) (result : ReconcileResult) (plan : List ClassifiedPath) : Planned :=
  let items := plan.map (bootstrapItem a result.localManifest result.remoteManifest)
  if refusedItems items ≠ [] then .refused { result with conflicts := refusedItems items }
  else
    let plan := okItems items
    if localMutations a plan ≠ [] then
      .refused { result with conflicts := (localMutations a plan).map fallbackConflict }
    else
      let collisions := plannedCollisions P result.localManifest result.remoteManifest plan
      if collisions.rows ≠ [] then
        .refused { result with
          conflicts := collisions.rows.map fun group => collisionConflict group.2 }
      else .ready result plan

/-- Before refusing, the disputed paths are compared by content. -/
def resolvePlan (result : ReconcileResult) (plan : List ClassifiedPath) : M P Planned :=
  if planConflicts plan = [] then return settlePlan a P result plan
  else do
    let resolved ← dropIdenticalConflicts env result.localManifest result.remoteManifest
      (planConflicts plan)
    if resolved ≠ [] then return .refused { result with conflicts := resolved }
    else
      return settlePlan a P
        { result with convergedConflicts := (planConflicts plan).map ClassifiedPath.path }
        (plan.filter fun item => item.action ≠ .abortConflict)

/-- `preflight_reconcile` up to `ensure_remote_dir`. -/
def planReconcile : M P Planned := do
  let localManifest ← buildManifest env a.surface .controller
  let remoteManifest ← buildManifest env a.surface .target
  match ← vanishedRoot env a localManifest remoteManifest with
  | some conflict =>
    return .refused { ReconcileResult.ofManifests localManifest remoteManifest with
      conflicts := [conflict] }
  | none =>
    resolvePlan env a (ReconcileResult.ofManifests localManifest remoteManifest)
      (compareManifests localManifest remoteManifest a.prevLocal a.prevRemote)

/-! ## Applying -/

/-- `_already_converged`. -/
def alreadyConverged (rel : String) (remoteEntry : Option FileEntry) : M P Bool :=
  match remoteEntry with
  | none => return false
  | some entry =>
    match entry.sha256 with
    | none => return false
    | some digest =>
      if entry.kind ≠ "file" then return false
      else do
        match ← freshLocalEntry env rel (some entry.size) with
        | none => return false
        | some localNow => return localNow.sha256 = some digest

/-- The loop body of the apply loop; the manifests are those of planning. -/
def applyItem (remoteManifest : Manifest) (result : ReconcileResult) (item : ClassifiedPath) :
    M P ReconcileResult := do
  match item.action with
  | .pull =>
    if ← alreadyConverged env item.path (remoteManifest.get item.path) then
      return { result with skippedIdentical := result.skippedIdentical ++ [item.path] }
    else do
      let _ ← backupLocal env item.path a.backupBelowBytes
      pullFile env item.path
      return { result with pulled := result.pulled ++ [item.path] }
  | .push =>
    if ← alreadyConverged env item.path (remoteManifest.get item.path) then
      return { result with skippedIdentical := result.skippedIdentical ++ [item.path] }
    else do
      pushFile env item.path
      return { result with pushed := result.pushed ++ [item.path] }
  | .deleteRemote => do
    deleteRemote env item.path
    return { result with deletedRemote := result.deletedRemote ++ [item.path] }
  | .deleteLocal => do
    let _ ← backupLocal env item.path a.backupBelowBytes
    deleteLocal env item.path
    return { result with deletedLocal := result.deletedLocal ++ [item.path] }
  | .none | .abortConflict => return result

def applyPlan (remoteManifest : Manifest) (result : ReconcileResult)
    (plan : List ClassifiedPath) : M P ReconcileResult :=
  (plan.filter fun item => item.action ≠ .none).foldlM (applyItem env a remoteManifest) result

/-! ## Final verification -/

/-- The two entries carry equal digests. -/
def hashesAgree (left right : FileEntry) : Bool :=
  left.sha256.isSome && right.sha256.isSome && left.kind = right.kind &&
    left.size = right.size && left.sha256 = right.sha256

/-- The path was left alone and each side still is the generation of its baseline: `planned`
and `now` are the entries at planning and at the end, of the controller and of the target. -/
def keptGeneration (rel : String) (touched : List String)
    (planned now : Option FileEntry × Option FileEntry) : Bool :=
  rel ∉ touched && a.havePrev && (prevEntry a.prevLocal rel).isSome &&
    (prevEntry a.prevRemote rel).isSome &&
    entriesSame (prevEntry a.prevLocal rel) planned.1 &&
    entriesSame (prevEntry a.prevRemote rel) planned.2 &&
    entriesSame planned.1 now.1 && entriesSame planned.2 now.2

/-- The rehash of a pair: the fresh local entry and the hashed remote entry, if they agree. -/
def rehash (rel : String) (right : FileEntry) : M P (Option (FileEntry × FileEntry)) := do
  let fresh ← freshLocalEntry env rel (some right.size)
  let remoteHash ← orHash right.sha256 (hashFile env rel)
  match fresh with
  | none => return none
  | some entry =>
    if entry.kind = right.kind ∧ entry.size = right.size ∧ entry.sha256 = some remoteHash then
      return some (entry, { right with sha256 := some remoteHash })
    else return none

def changedConflict (rel : String) : ClassifiedPath :=
  ⟨rel, .preflightChanged, .abortConflict,
    "the final preflight file pair is divergent or could not be verified; retry reconciliation"⟩

def rootConflict : ClassifiedPath :=
  ⟨"<project root>", .preflightChanged, .abortConflict,
    "a project root disappeared during preflight reconciliation"⟩

def ReconcileResult.conflict (result : ReconcileResult) (item : ClassifiedPath) :
    ReconcileResult :=
  { result with conflicts := result.conflicts ++ [item] }

/-- The loop body of the final verification. `planned` are the manifests of planning. -/
def verifyPath (planned : Manifest × Manifest) (touched : List String)
    (result : ReconcileResult) (rel : String) : M P ReconcileResult :=
  match result.localManifest.get rel, result.remoteManifest.get rel with
  | some left, some right =>
    if hashesAgree left right then return result
    else if ¬ (left.sha256.isSome ∧ right.sha256.isSome) ∧
        keptGeneration a rel touched (planned.1.get rel, planned.2.get rel)
          (some left, some right) = true then return result
    else do
      match ← expected (rehash env rel right) with
      | some (some (fresh, hashed)) => return { result with
          localManifest := result.localManifest.set rel fresh
          remoteManifest := result.remoteManifest.set rel hashed }
      | _ => return result.conflict (changedConflict rel)
  | _, _ => return result.conflict (changedConflict rel)

/-- Whether a project root is gone at the end. -/
def rootGone (remoteManifest finalRemote : Manifest) : M P Bool := do
  if ← localRootIsDir env then
    probeGone (remoteManifest.rows ≠ [] ∧ finalRemote.rows = []) (remoteRootPresent env)
  else return true

/-- The paths that were transferred, skipped or re-examined. -/
def ReconcileResult.touched (result : ReconcileResult) : List String :=
  result.pushed ++ result.pulled ++ result.skippedIdentical ++ result.convergedConflicts

/-- The result with the final manifests, before the pairs are compared. -/
def ReconcileResult.rebased (result : ReconcileResult) (localManifest remoteManifest : Manifest)
    (gone : Bool) : ReconcileResult :=
  { result with
    localManifest := localManifest, remoteManifest := remoteManifest
    conflicts := if gone then result.conflicts ++ [rootConflict] else result.conflicts }

def verifyFinal (planned : Manifest × Manifest) (result : ReconcileResult) :
    M P ReconcileResult := do
  let localManifest ← buildManifest env a.surface .controller
  let remoteManifest ← buildManifest env a.surface .target
  let gone ← rootGone env planned.2 remoteManifest
  (unionPaths localManifest remoteManifest).foldlM (verifyPath env a planned result.touched)
    (result.rebased localManifest remoteManifest gone)

/-- `preflight_reconcile`. -/
def preflightReconcile : M P ReconcileResult := do
  match ← planReconcile env a with
  | .refused result => return result
  | .ready result plan => do
    ensureRemoteDir env
    let applied ← applyPlan env a result.remoteManifest result plan
    verifyFinal env a (result.localManifest, result.remoteManifest) applied

end Preflight

end Remrun.Reconcile
