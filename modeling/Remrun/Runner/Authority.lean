import Remrun.Runner.Store
import Mathlib.Data.List.Sort
import Mathlib.Data.String.Basic

/-!
# The authority's RPC operations

`authority_rpc` and the operations it dispatches to, on the authority store. The
metadata an operation works with is a snapshot: `open_authority_store` reads it in a
transaction of its own, before the operation's transaction begins.
-/

namespace Remrun.Runner

open Relational
set_option autoImplicit false

/-! ## Requests and responses -/

structure RegisterBody where
  projectKey : String
  projectId : String
  policySha256 : String
  deriving DecidableEq, Repr

structure AcquireBody where
  clusterId : String
  projectKey : String
  policySha256 : String
  acquireId : String
  ownerToken : Option String
  controllerId : String
  controllerReplicaId : String
  ownerHost : Option String
  ownerPid : Option Int
  deriving DecidableEq, Repr

/-- The lease credential every owner operation carries. -/
structure Credential where
  projectKey : String
  leaseId : String
  fence : Int
  ownerToken : Option String
  deriving DecidableEq, Repr

structure GrantIssueBody where
  credential : Credential
  grantRequestId : String
  targetDeviceId : String
  grantOperation : String
  operationId : String
  requestSha256 : String
  deriving DecidableEq, Repr

structure GrantImportBody where
  credential : Credential
  receipt : Option Envelope
  deriving DecidableEq, Repr

inductive AuthorityRequest where
  | projectRegister (body : RegisterBody)
  | acquire (body : AcquireBody)
  | heartbeat (body : Credential)
  | release (body : Credential)
  | targetKeyCreate (targetDeviceId : String)
  | targetKeyFinalize (receipt : Option Envelope)
  | epochRotate (expectedAuthorityEpoch : Int)
  | grantIssue (body : GrantIssueBody)
  | grantImport (body : GrantImportBody)
  | recoveryComplete (body : Credential)
  | recoveryWorklist (body : Credential)
  deriving DecidableEq, Repr

/-- The `operation` text of a request, as the replay record keeps it. -/
def AuthorityRequest.operation : AuthorityRequest → String
  | .projectRegister _ => "authority_project_register"
  | .acquire _ => "authority_acquire"
  | .heartbeat _ => "authority_heartbeat"
  | .release _ => "authority_release"
  | .targetKeyCreate _ => "authority_target_key_create"
  | .targetKeyFinalize _ => "authority_target_key_finalize"
  | .epochRotate _ => "authority_epoch_rotate"
  | .grantIssue _ => "authority_grant_issue"
  | .grantImport _ => "authority_grant_import"
  | .recoveryComplete _ => "authority_recovery_complete"
  | .recoveryWorklist _ => "authority_recovery_worklist"

inductive LeaseStatus where
  | acquired
  | superseded
  | released
  | lost
  deriving DecidableEq, Repr

inductive Response where
  | registered (projectKey : String)
  | lease (status : LeaseStatus) (idempotent : Bool) (lease : Lease)
  | busy (holder : Lease)
  | owned (lease : Lease)
  | lost
  | released
  | recoveryRequired (operations : List Grant)
  | targetKey (status : TargetState) (targetDeviceId : String) (authorityEpoch : Int)
      (keyId keySha256 : String) (idempotent : Bool)
  | notQuiescent
  | rotated (authorityEpoch previousAuthorityEpoch : Int)
  | grant (status : GrantState) (idempotent : Bool) (capability : Envelope)
  | notRecovering
  | imported (status : GrantState) (idempotent : Bool) (grantId : String)
  | normal (idempotent : Bool) (restoredProjectState : Option ProjectState)
  | worklist (grants : List Grant)
  deriving DecidableEq, Repr

/-- A row of `authority_rpc_requests`. -/
structure RpcRecord (ρ : Type) where
  rpcId : String
  operation : String
  requestSha256 : String
  response : ρ

def RpcRecord.Clash {ρ : Type} (a b : RpcRecord ρ) : Prop := a.rpcId = b.rpcId

instance {ρ : Type} : DecidableRel (RpcRecord.Clash (ρ := ρ)) := fun a b => by
  unfold RpcRecord.Clash; infer_instance

/-- `authority.sqlite3` with the coordinator's key files. `signed` is a ghost record of
every body this store's code has put a signature on, with the secret it used. -/
structure Authority where
  info : Meta
  projects : Table Project Project.Clash
  leases : Table Lease Lease.Clash
  targets : Table AuthorityTarget AuthorityTarget.Clash
  grants : Table Grant Grant.Clash
  rpcRequests : Table (RpcRecord Response) RpcRecord.Clash
  keys : KeyFiles
  signed : List (Bytes × Body)

/-- The store `open_authority_store` creates. -/
def Authority.init (clusterId coordinatorDeviceId : String) (leaseSeconds : Int) : Authority where
  info := ⟨clusterId, coordinatorDeviceId, 1, false, leaseSeconds⟩
  projects := .empty
  leases := .empty
  targets := .empty
  grants := .empty
  rpcRequests := .empty
  keys := fun _ => none
  signed := []

/-- The readings of one RPC: `time.time_ns()`, `uuid.uuid4()`, `os.urandom(32)`. -/
structure Readings where
  now : Int
  uuid : String
  urandom : Bytes
  uuid_ne : uuid ≠ ""

/-! ## Shared lookups -/

section Operations
variable (P : Prims)

/-- `_token_sha256`. -/
def tokenSha256 (token : Option String) : Except Error String := do
  require (truthy token = true) "owner_token is required"
  match P.urlsafeB64decode (token.getD "") with
  | none => raise "owner_token is not valid base64url"
  | some raw => do
    require (raw.length = 32) "owner_token must contain 32 random bytes"
    return P.sha256 raw

def optionScalar : Option String → Scalar
  | none => .null
  | some s => .str s

/-- `_acquire_request_digest`. -/
def acquireRequestDigest (body : AcquireBody) (tokenHash : String) : String :=
  P.requestDigest [
    ("cluster_id", .str body.clusterId), ("project_key", .str body.projectKey),
    ("policy_sha256", .str body.policySha256), ("acquire_id", .str body.acquireId),
    ("owner_token_sha256", .str tokenHash), ("controller_id", .str body.controllerId),
    ("controller_replica_id", .str body.controllerReplicaId),
    ("owner_host", optionScalar body.ownerHost),
    ("owner_pid", (body.ownerPid.map Scalar.int).getD .null)]

def Authority.project (db : Authority) (projectKey : String) : Option Project :=
  db.projects.lookup fun p => p.projectKey = projectKey

/-- `SELECT current_lease_id FROM projects WHERE project_key=?`. -/
def Authority.currentLeaseId (db : Authority) (projectKey : String) : Option String :=
  (db.project projectKey).bind Project.currentLeaseId

/-- `ORDER BY fence,grant_id`. -/
def Grant.before (a b : Grant) : Prop :=
  a.fence < b.fence ∨ (a.fence = b.fence ∧ a.grantId ≤ b.grantId)

instance : DecidableRel Grant.before := fun a b => by unfold Grant.before; infer_instance

/-- `_unresolved_grants`. -/
def unresolvedGrants (db : Authority) (projectKey : String) : List Grant :=
  (db.grants.select fun g => g.projectKey = projectKey ∧ g.state.unresolved).insertionSort
    Grant.before

/-- The lease a credential names, provided it is its project's current one. -/
def credentialed (db : Authority) (c : Credential) (tokenHash : String) (l : Lease) : Bool :=
  l.leaseId = c.leaseId ∧ l.projectKey = c.projectKey ∧ l.fence = c.fence ∧
    l.ownerTokenSha256 = tokenHash ∧ db.currentLeaseId c.projectKey = some l.leaseId

/-- The credential's lease while it is `ACTIVE` and unexpired. -/
def liveLease (db : Authority) (c : Credential) (tokenHash : String) (now : Int) :
    Option Lease :=
  (db.leases.lookup (credentialed db c tokenHash)).filter fun l =>
    l.state = .active ∧ now < l.leaseUntilNs

/-! ## Leases -/

/-- The `projects` row of a registration, with the schema's defaults. -/
def freshProject (body : RegisterBody) : Project where
  projectKey := body.projectKey
  projectId := body.projectId
  policySha256 := body.policySha256
  state := .bootstrap
  nextFence := 0
  currentLeaseId := none
  activeRunId := none
  pendingTxnId := none
  recoveryPriorState := none

/-- `authority_project_register`. -/
def authorityProjectRegister (body : RegisterBody) (db : Authority) :
    Except Error (Authority × Response) := do
  require (body.projectKey.length = 64 ∧ body.policySha256.length = 64 ∧ body.projectId ≠ "")
    "project_key, project_id, and policy_sha256 are required"
  match db.project body.projectKey with
  | some prior => do
    require (prior.projectId = body.projectId ∧ prior.policySha256 = body.policySha256)
      "project registration mismatch"
    return (db, .registered body.projectKey)
  | none => do
    let projects ← inserted (db.projects.insert (freshProject body))
    return ({ db with projects := projects }, .registered body.projectKey)

/-- The status an idempotent `authority_acquire` reports for its earlier lease. -/
def priorStatus (db : Authority) (prior : Lease) (now : Int) : LeaseStatus :=
  if prior.state = .active ∧ db.currentLeaseId prior.projectKey = some prior.leaseId ∧
      now < prior.leaseUntilNs then .acquired
  else match prior.state with
    | .superseded => .superseded
    | .released => .released
    | .active => .lost

/-- The current lease row of a project, if its pointer is set. -/
def currentLease (db : Authority) (project : Project) : Option Lease :=
  if truthy project.currentLeaseId then
    db.leases.lookup fun l => some l.leaseId = project.currentLeaseId
  else none

/-- The phase a new lease of the project starts in. -/
def acquirePhase (db : Authority) (project : Project) : LeasePhase :=
  if project.state = .recovery ∨ truthy project.activeRunId ∨ truthy project.pendingTxnId ∨
      unresolvedGrants db project.projectKey ≠ [] then .recovery else .normal

/-- The `projects` row after a lease of phase `phase` was inserted. -/
def Project.granted (project : Project) (lease : Lease) : Project :=
  { project with
    nextFence := lease.fence
    currentLeaseId := some lease.leaseId
    state := if lease.phase = .recovery then .recovery else project.state
    recoveryPriorState :=
      if lease.phase = .recovery ∧ project.state ≠ .recovery then some project.state
      else project.recoveryPriorState }

/-- The lease row `_authority_acquire` inserts. -/
def freshLease (body : AcquireBody) (tokenHash : String) (info : Meta) (r : Readings)
    (db : Authority) (project : Project) : Lease where
  leaseId := r.uuid
  projectKey := project.projectKey
  acquireId := body.acquireId
  requestSha256 := acquireRequestDigest P body tokenHash
  fence := project.nextFence + 1
  ownerTokenSha256 := tokenHash
  controllerId := body.controllerId
  controllerReplicaId := body.controllerReplicaId
  ownerHost := body.ownerHost
  ownerPid := body.ownerPid
  phase := acquirePhase db project
  state := .active
  recoveryOfLeaseId := (currentLease db project).map Lease.leaseId
  heartbeatSeq := 0
  acquiredAtNs := r.now
  heartbeatAtNs := r.now
  leaseUntilNs := r.now + info.leaseSeconds * 1000000000
  releasedAtNs := none

theorem lease_keeps_state (s : LeaseState) :
    Table.Keeps Lease.Clash fun l => { l with state := s } := fun _ _ => ⟨id, id⟩

theorem project_keeps_granted (lease : Lease) :
    Table.Keeps Project.Clash fun p => p.granted lease := fun _ _ => ⟨id, id⟩

/-- The writes of a granted acquire: insert the lease, supersede the current one and move
the project pointer. -/
def grantLease (db : Authority) (project : Project) (lease : Lease) :
    Except Error Authority := do
  let leases ← inserted (db.leases.insert lease)
  let leases := match currentLease db project with
    | none => leases
    | some current => leases.update (fun l => l.leaseId = current.leaseId)
        (fun l => { l with state := .superseded }) (lease_keeps_state _)
  if (project.granted lease).recoveryPriorState = some .sealed then
    .error .integrityError
  else
    return { db with
      leases := leases
      projects := db.projects.update (fun p => p.projectKey = project.projectKey)
        (fun p => p.granted lease) (project_keeps_granted lease) }

/-- `_authority_acquire`. -/
def authorityAcquire (body : AcquireBody) (info : Meta) (r : Readings) (db : Authority) :
    Except Error (Authority × Response) := do
  let tokenHash ← tokenSha256 P body.ownerToken
  require (body.acquireId ≠ "") "acquire_id is required"
  match db.leases.lookup fun l => l.acquireId = body.acquireId with
  | some prior => do
    require (prior.ownerTokenSha256 = tokenHash ∧
        prior.requestSha256 = acquireRequestDigest P body tokenHash)
      "acquire_id reused with a different request"
    return (db, .lease (priorStatus db prior r.now) true prior)
  | none =>
    match db.project body.projectKey with
    | none => raise "project is not registered"
    | some project => do
      require (body.policySha256 = project.policySha256) "project surface policy mismatch"
      match (currentLease db project).filter fun l =>
          l.state = .active ∧ r.now < l.leaseUntilNs with
      | some current => return (db, .busy current)
      | none => do
        let lease := freshLease P body tokenHash info r db project
        let db' ← grantLease db project lease
        return (db', .lease .acquired false lease)

/-- The row `_authority_heartbeat` writes. -/
def Lease.beat (now until_ : Int) (l : Lease) : Lease :=
  { l with
    heartbeatSeq := l.heartbeatSeq + 1
    heartbeatAtNs := now
    leaseUntilNs := max l.leaseUntilNs until_ }

/-- `_authority_heartbeat`. -/
def authorityHeartbeat (c : Credential) (info : Meta) (now : Int) (db : Authority) :
    Except Error (Authority × Response) := do
  let tokenHash ← tokenSha256 P c.ownerToken
  let until_ := now + info.leaseSeconds * 1000000000
  let owned := fun l : Lease => credentialed db c tokenHash l && l.state = .active
  match db.leases.lookup owned with
  | none => return (db, .lost)
  | some lease => return (
      { db with leases := db.leases.update owned (Lease.beat now until_) fun _ _ => ⟨id, id⟩ },
      .owned (lease.beat now until_))

/-- The rows `_authority_release` writes. -/
def Lease.release (now : Int) (l : Lease) : Lease :=
  { l with state := .released, releasedAtNs := some now }

def Project.unheld (p : Project) : Project := { p with currentLeaseId := none }

/-- `_authority_release`. -/
def authorityRelease (c : Credential) (now : Int) (db : Authority) :
    Except Error (Authority × Response) := do
  let tokenHash ← tokenSha256 P c.ownerToken
  match (db.project c.projectKey).filter fun p => p.currentLeaseId = some c.leaseId with
  | none => return (db, .lost)
  | some project =>
    let phase := (db.leases.lookup fun l => l.leaseId = c.leaseId).map Lease.phase
    if project.state = .recovery ∨ phase ≠ some .normal ∨ truthy project.activeRunId ∨
        truthy project.pendingTxnId ∨ unresolvedGrants db c.projectKey ≠ [] then
      return (db, .recoveryRequired [])
    else
      let owned := fun l : Lease => l.leaseId = c.leaseId ∧ l.projectKey = c.projectKey ∧
        l.fence = c.fence ∧ l.ownerTokenSha256 = tokenHash ∧ l.state = .active
      match db.leases.lookup owned with
      | none => return (db, .lost)
      | some _ => return (
          { db with
            leases := db.leases.update owned (Lease.release now) fun _ _ => ⟨id, id⟩
            projects := db.projects.update
              (fun p => p.projectKey = c.projectKey ∧ p.currentLeaseId = some c.leaseId)
              Project.unheld fun _ _ => ⟨id, id⟩ },
          .released)

/-! ## Target keys and the epoch -/

def Authority.target (db : Authority) (targetDeviceId : String) (epoch : Int) :
    Option AuthorityTarget :=
  db.targets.lookup fun t => t.targetDeviceId = targetDeviceId ∧ t.authorityEpoch = epoch

/-- `_authority_target_key_create`. -/
def authorityTargetKeyCreate (targetDeviceId : String) (info : Meta) (r : Readings)
    (db : Authority) : Except Error (Authority × Response) := do
  require (targetDeviceId ≠ "") "target_device_id is required"
  match db.target targetDeviceId info.authorityEpoch with
  | some prior => return (db, .targetKey prior.state targetDeviceId info.authorityEpoch
      prior.keyId prior.keySha256 true)
  | none => do
    let digest := P.sha256 r.urandom
    let path ← secretPath P info.clusterId targetDeviceId info.authorityEpoch r.uuid
    let keys ← writeSecret db.keys path r.urandom
    let targets ← inserted (db.targets.insert
      ⟨targetDeviceId, info.authorityEpoch, r.uuid, digest, .pending⟩)
    return ({ db with keys := keys, targets := targets },
      .targetKey .pending targetDeviceId info.authorityEpoch r.uuid digest false)

/-- `hmac.compare_digest` of a body's digest with the signature an envelope carries. -/
def signatureMatches (secret : Bytes) (e : Envelope) : Except Error Bool :=
  match P.urlsafeB64decode e.sig with
  | none => raise "invalid base64url value"
  | some actual => .ok (P.hmac secret e.body = actual)

theorem target_keeps_state (s : TargetState) :
    Table.Keeps AuthorityTarget.Clash fun t => { t with state := s } := fun _ _ => ⟨id, id⟩

/-- `_authority_target_key_finalize`. -/
def authorityTargetKeyFinalize (receipt : Option Envelope) (info : Meta) (db : Authority) :
    Except Error (Authority × Response) := do
  match receipt.filter fun e => e.sigAlg = "hmac-sha256" with
  | none => raise "invalid target enrollment receipt"
  | some receipt => do
    let body := receipt.body
    require (body.kind = some .keyEnrollment ∧ body.v = 1)
      "invalid target enrollment receipt body"
    let target := body.targetDeviceId.getD ""
    let epoch := body.authorityEpoch.getD 0
    let keyId := body.keyId.getD ""
    let digest := body.keySha256.getD ""
    require (body.clusterId.getD "" = info.clusterId ∧ epoch = info.authorityEpoch)
      "target enrollment receipt identity or epoch mismatch"
    match (db.target target epoch).filter fun t => t.keyId = keyId ∧ t.keySha256 = digest with
    | none => raise "target enrollment receipt does not match the prepared key"
    | some row => do
      let path ← secretPath P info.clusterId target epoch keyId
      let secret ← readKey db.keys path
      let valid ← signatureMatches P secret receipt
      require (valid = true) "target enrollment receipt signature mismatch"
      match row.state with
      | .enrolled => return (db, .targetKey .enrolled target epoch keyId digest true)
      | .retired => raise "target enrollment is not pending"
      | .pending => return (
          { db with
            targets := db.targets.update
              (fun t => t.targetDeviceId = target ∧ t.authorityEpoch = epoch ∧
                t.keyId = keyId ∧ t.state = .pending)
              (fun t => { t with state := .enrolled }) (target_keeps_state _) },
          .targetKey .enrolled target epoch keyId digest false)

/-- No lease, run, transaction, unresolved grant or pending enrollment is left. -/
def Authority.quiescent (db : Authority) : Bool :=
  (db.projects.select fun p => p.currentLeaseId.isSome ∨ p.activeRunId.isSome ∨
    p.pendingTxnId.isSome).isEmpty &&
  (db.grants.select fun g => g.state.unresolved).isEmpty &&
  (db.targets.select fun t => t.state = .pending).isEmpty

/-- `_authority_epoch_rotate`: the expectation is compared with the snapshot. -/
def authorityEpochRotate (expected : Int) (info : Meta) (db : Authority) :
    Except Error (Authority × Response) := do
  require (expected = info.authorityEpoch) "authority epoch rotation expectation mismatch"
  if db.quiescent then
    return (
      { db with
        targets := db.targets.update
          (fun t => t.authorityEpoch = expected ∧ t.state = .enrolled)
          (fun t => { t with state := .retired }) (target_keeps_state _)
        info := { db.info with authorityEpoch := expected + 1 } },
      .rotated (expected + 1) expected)
  else
    return (db, .notQuiescent)

/-! ## Grants -/

/-- `_authority_grant_issue`'s identity of a request. -/
def issueDigest (body : GrantIssueBody) (tokenHash : String) : String :=
  P.requestDigest [
    ("project_key", .str body.credential.projectKey),
    ("lease_id", .str body.credential.leaseId), ("fence", .int body.credential.fence),
    ("owner_token_sha256", .str tokenHash), ("grant_request_id", .str body.grantRequestId),
    ("target_device_id", .str body.targetDeviceId), ("operation", .str body.grantOperation),
    ("operation_id", .str body.operationId), ("request_sha256", .str body.requestSha256)]

/-- The capability body `_authority_grant_issue` signs. -/
def capabilityBody (body : GrantIssueBody) (info : Meta) (grantId : String) : Body where
  v := 1
  kind := none
  observedAtNs := none
  clusterId := some info.clusterId
  authorityEpoch := some info.authorityEpoch
  grantId := some grantId
  projectKey := some body.credential.projectKey
  leaseId := some body.credential.leaseId
  fence := some body.credential.fence
  targetDeviceId := some body.targetDeviceId
  operation := some body.grantOperation
  operationId := some body.operationId
  requestSha256 := some body.requestSha256
  keyId := none
  keySha256 := none
  status := none
  result := none

/-- An envelope around a freshly signed body. -/
def sign (secret : Bytes) (keyId : String) (body : Body) : Envelope :=
  ⟨body, "hmac-sha256", keyId, P.b64url (P.hmac secret body)⟩

/-- The `grants` row of a new capability. -/
def freshGrant (body : GrantIssueBody) (tokenHash : String) (info : Meta) (grantId : String)
    (capability : Envelope) : Grant where
  grantId := grantId
  grantRequestId := body.grantRequestId
  projectKey := body.credential.projectKey
  leaseId := body.credential.leaseId
  authorityEpoch := info.authorityEpoch
  fence := body.credential.fence
  targetDeviceId := body.targetDeviceId
  operation := body.grantOperation
  operationId := body.operationId
  requestSha256 := body.requestSha256
  issueSha256 := issueDigest P body tokenHash
  capability := capability
  state := .issued
  result := none
  lastReceiptSha256 := none

/-- `_authority_grant_issue`. -/
def authorityGrantIssue (body : GrantIssueBody) (info : Meta) (r : Readings) (db : Authority) :
    Except Error (Authority × Response) := do
  let c := body.credential
  let tokenHash ← tokenSha256 P c.ownerToken
  require (body.grantRequestId ≠ "") "grant_request_id is required"
  require (body.grantOperation ≠ "" ∧ body.operationId ≠ "" ∧ body.requestSha256.length = 64)
    "grant operation, operation_id, and request_sha256 are required"
  match db.grants.lookup fun g => g.grantRequestId = body.grantRequestId with
  | some prior => do
    require (prior.issueSha256 = issueDigest P body tokenHash)
      "grant_request_id reused with a different request"
    return (db, .grant prior.state true prior.capability)
  | none =>
    match liveLease db c tokenHash r.now with
    | none => return (db, .lost)
    | some lease =>
      if body.grantOperation ≠ "fence_barrier" ∧
          (lease.phase = .recovery ∨
            (db.project c.projectKey).map Project.state = some .recovery ∨
            unresolvedGrants db c.projectKey ≠ []) then
        return (db, .recoveryRequired [])
      else
        match (db.target body.targetDeviceId info.authorityEpoch).filter fun t =>
            t.state = .enrolled with
        | none => raise "target is not enrolled"
        | some target => do
          let path ← secretPath P info.clusterId body.targetDeviceId info.authorityEpoch
            target.keyId
          let secret ← readKey db.keys path
          let capBody := capabilityBody body info r.uuid
          let capability := sign P secret target.keyId capBody
          let grants ← inserted (db.grants.insert
            (freshGrant P body tokenHash info r.uuid capability))
          return ({ db with grants := grants, signed := (secret, capBody) :: db.signed },
            .grant .issued false capability)

/-- `_verify_status_receipt`. -/
def verifyStatusReceipt (receipt : Option Envelope) (info : Meta) (db : Authority) :
    Except Error (Body × String) := do
  match receipt.filter fun e => e.sigAlg = "hmac-sha256" with
  | none => raise "invalid grant status receipt envelope"
  | some receipt => do
    let body := receipt.body
    require (body.v = 1 ∧ body.kind = some .grantStatus) "invalid grant status receipt body"
    let target := body.targetDeviceId.getD ""
    let epoch := body.authorityEpoch.getD 0
    require (body.clusterId.getD "" = info.clusterId ∧ epoch = info.authorityEpoch)
      "grant status receipt authority mismatch"
    match (db.target target epoch).filter fun t =>
        t.state = .enrolled ∧ t.keyId = receipt.keyId with
    | none => raise "grant status receipt key is not enrolled"
    | some row => do
      let path ← secretPath P info.clusterId target epoch receipt.keyId
      match db.keys path with
      | none => raise "grant status receipt key is unavailable"
      | some secret => do
        require (P.sha256 secret = row.keySha256) "grant status receipt key fingerprint mismatch"
        let valid ← signatureMatches P secret receipt
        require (valid = true) "grant status receipt signature mismatch"
        return (body, P.envelopeDigest receipt)

/-- The checks of one item of a barrier's `lower_fence_operations`. -/
def checkObservation (db : Authority) (projectKey : String) (epoch barrierFence : Int)
    (target : String) (observed : List Observation) (item : Observation) :
    Except Error Unit := do
  require (item.grantId ≠ "" ∧ ∀ o ∈ observed, o.grantId ≠ item.grantId)
    "duplicate or empty barrier lower-fence grant"
  match db.grants.lookup fun g => g.grantId = item.grantId with
  | none => raise "barrier lower-fence observation is inconsistent"
  | some row => do
    require (row.projectKey = projectKey ∧ row.authorityEpoch = epoch ∧
        row.fence = item.fence ∧ row.targetDeviceId = target ∧
        row.operation = item.operation ∧ row.operationId = item.operationId ∧
        row.requestSha256 = item.requestSha256 ∧ row.fence < barrierFence ∧
        (item.state = .accepted ∨ item.state = .terminal) ∧ row.state ≠ .fenced)
      "barrier lower-fence observation is inconsistent"
    require (row.state = .terminal → item.state = .terminal ∧ row.result = item.result)
      "barrier terminal observation conflicts with authority state"

/-- The loop that fills `observed`. -/
def checkObservations (db : Authority) (projectKey : String) (epoch barrierFence : Int)
    (target : String) (observed : List Observation) :
    List Observation → Except Error (List Observation)
  | [] => .ok observed
  | item :: rest => do
    checkObservation db projectKey epoch barrierFence target observed item
    checkObservations db projectKey epoch barrierFence target (observed ++ [item]) rest

/-- What the barrier receipt says about one unresolved lower grant. -/
def resolveLower (observed : List Observation) (g : Grant) : Grant :=
  match observed.find? fun o => o.grantId = g.grantId with
  | some item =>
    if item.state = .terminal then { g with state := .terminal, result := item.result }
    else { g with state := .accepted }
  | none => { g with state := .fenced }

theorem grant_keeps_resolveLower (observed : List Observation) :
    Table.Keeps Grant.Clash (resolveLower observed) := by
  have hId : ∀ g, (resolveLower observed g).grantId = g.grantId := by
    intro g
    unfold resolveLower
    split
    · split <;> rfl
    · rfl
  have hReq : ∀ g, (resolveLower observed g).grantRequestId = g.grantRequestId := by
    intro g
    unfold resolveLower
    split
    · split <;> rfl
    · rfl
  intro a b
  unfold Grant.Clash
  rw [hId, hReq, hId, hReq]
  exact ⟨id, id⟩

/-- The unresolved grants a barrier at `barrierFence` speaks for. -/
def barrierLower (projectKey : String) (epoch barrierFence : Int) (target : String)
    (g : Grant) : Bool :=
  g.projectKey = projectKey ∧ g.authorityEpoch = epoch ∧ g.targetDeviceId = target ∧
    g.fence < barrierFence ∧ g.state.unresolved

/-- `_reconcile_barrier_receipt`. -/
def reconcileBarrierReceipt (db : Authority) (projectKey : String) (epoch barrierFence : Int)
    (target : String) (result : GrantResult) : Except Error Authority := do
  match result with
  | none => raise "barrier receipt is missing lower-fence observations"
  | some items => do
    let observed ← checkObservations db projectKey epoch barrierFence target [] items
    let lower := barrierLower projectKey epoch barrierFence target
    require (∀ g ∈ db.grants.select lower, g.state = .accepted →
        ∃ o ∈ observed, o.grantId = g.grantId)
      "barrier omitted a grant already known accepted"
    return { db with
      grants := db.grants.update lower (resolveLower observed)
        (grant_keeps_resolveLower observed) }

/-- The grant state a receipt moves an unresolved grant to. -/
def receiptState : AcceptedState → GrantState
  | .accepted => .accepted
  | .terminal => .terminal
  | .fenced => .fenced

/-- The last `UPDATE grants` of `_authority_grant_import`. -/
def Grant.receive (state : GrantState) (result : GrantResult) (receiptSha : String)
    (g : Grant) : Grant :=
  { g with state := state, result := result, lastReceiptSha256 := some receiptSha }

/-- The `UPDATE grants` of a receipt that repeats a terminal state. -/
def Grant.acknowledge (receiptSha : String) (g : Grant) : Grant :=
  { g with lastReceiptSha256 := some receiptSha }

/-- A terminal barrier first settles the lower grants it fenced. -/
def settleBarrier (db : Authority) (projectKey : String) (grant : Grant) (next : GrantState)
    (result : GrantResult) : Except Error Authority :=
  if next = .terminal ∧ grant.operation = "fence_barrier" then
    reconcileBarrierReceipt db projectKey grant.authorityEpoch grant.fence
      grant.targetDeviceId result
  else .ok db

/-- Moving an unresolved grant to the state of its receipt. -/
def applyReceipt (db : Authority) (projectKey : String) (grant : Grant) (next : GrantState)
    (result : GrantResult) (receiptSha : String) : Except Error (Authority × Response) := do
  let db' ← settleBarrier db projectKey grant next result
  return (
    { db' with
      grants := db'.grants.update (fun g => g.grantId = grant.grantId)
        (Grant.receive next result receiptSha) fun _ _ => ⟨id, id⟩ },
    .imported next false grant.grantId)

/-- A receipt names exactly the immutable columns of the grant. -/
def Grant.matchesBody (g : Grant) (body : Body) : Prop :=
  g.projectKey = body.projectKey.getD "" ∧ g.leaseId = body.leaseId.getD "" ∧
    g.authorityEpoch = body.authorityEpoch.getD 0 ∧ g.fence = body.fence.getD (-1) ∧
    g.targetDeviceId = body.targetDeviceId.getD "" ∧ g.operation = body.operation.getD "" ∧
    g.operationId = body.operationId.getD "" ∧ g.requestSha256 = body.requestSha256.getD ""

instance (g : Grant) (body : Body) : Decidable (g.matchesBody body) := by
  unfold Grant.matchesBody; infer_instance

/-- The branches of `_authority_grant_import` after the receipt was verified. -/
def importReceipt (db : Authority) (projectKey : String) (body : Body) (receiptSha : String) :
    Except Error (Authority × Response) := do
  match db.grants.lookup fun g => g.grantId = body.grantId.getD "" with
  | none => raise "grant status receipt names an unknown grant"
  | some grant => do
    require (grant.matchesBody body ∧ grant.projectKey = projectKey)
      "grant status receipt does not match the authority grant"
    if grant.lastReceiptSha256 = some receiptSha then
      return (db, .imported grant.state true grant.grantId)
    else match body.status with
    | none | some (.row .fenced) => raise "unsupported grant status receipt state"
    | some status =>
      if grant.state = .terminal ∨ grant.state = .fenced then do
        require (status = .row .terminal ∧ grant.state = .terminal)
          "grant status receipt would regress a terminal grant"
        require (grant.result = body.result) "terminal grant receipt result mismatch"
        return (
          { db with
            grants := db.grants.update (fun g => g.grantId = grant.grantId)
              (Grant.acknowledge receiptSha) fun _ _ => ⟨id, id⟩ },
          .imported grant.state true grant.grantId)
      else match status with
        | .absent => do
          require (grant.state ≠ .accepted) "grant status receipt would regress an accepted grant"
          applyReceipt db projectKey grant .unknown none receiptSha
        | .row state => applyReceipt db projectKey grant (receiptState state) body.result receiptSha

/-- `_authority_grant_import`. -/
def authorityGrantImport (body : GrantImportBody) (info : Meta) (now : Int) (db : Authority) :
    Except Error (Authority × Response) := do
  let c := body.credential
  let tokenHash ← tokenSha256 P c.ownerToken
  match liveLease db c tokenHash now with
  | none => return (db, .lost)
  | some lease =>
    if lease.phase ≠ .recovery then return (db, .notRecovering)
    else do
      let (receiptBody, receiptSha) ← verifyStatusReceipt P body.receipt info db
      importReceipt db c.projectKey receiptBody receiptSha

/-! ## Recovery -/

/-- The rows `_authority_recovery_complete` writes. -/
def Lease.normalised (l : Lease) : Lease := { l with phase := .normal }

def Project.restored (p : Project) : Project :=
  { p with state := p.recoveryPriorState.getD .bootstrap, recoveryPriorState := none }

/-- `_authority_recovery_complete`. -/
def authorityRecoveryComplete (c : Credential) (now : Int) (db : Authority) :
    Except Error (Authority × Response) := do
  let tokenHash ← tokenSha256 P c.ownerToken
  match liveLease db c tokenHash now with
  | none => return (db, .lost)
  | some lease =>
    match db.project c.projectKey with
    | none => return (db, .recoveryRequired (unresolvedGrants db c.projectKey))
    | some project =>
      if lease.phase ≠ .recovery ∧ project.state ≠ .recovery then
        return (db, .normal true none)
      else if truthy project.activeRunId ∨ truthy project.pendingTxnId ∨
          unresolvedGrants db c.projectKey ≠ [] then
        return (db, .recoveryRequired (unresolvedGrants db c.projectKey))
      else
        return (
          { db with
            leases := db.leases.update (fun l => l.leaseId = c.leaseId)
              Lease.normalised fun _ _ => ⟨id, id⟩
            projects := db.projects.update
              (fun p => p.projectKey = c.projectKey ∧ p.currentLeaseId = some c.leaseId)
              Project.restored fun _ _ => ⟨id, id⟩ },
          .normal false (some (project.recoveryPriorState.getD .bootstrap)))

/-- `_authority_recovery_worklist`. -/
def authorityRecoveryWorklist (c : Credential) (now : Int) (db : Authority) :
    Except Error (Authority × Response) := do
  let tokenHash ← tokenSha256 P c.ownerToken
  match liveLease db c tokenHash now with
  | none => return (db, .lost)
  | some lease =>
    if lease.phase ≠ .recovery ∨ (db.project c.projectKey).map Project.state ≠ some .recovery then
      return (db, .notRecovering)
    else return (db, .worklist (unresolvedGrants db c.projectKey))

/-! ## The RPC -/

/-- The operation a request names, inside its transaction. -/
def authorityOperation (request : AuthorityRequest) (info : Meta) (r : Readings)
    (db : Authority) : Except Error (Authority × Response) :=
  match request with
  | .projectRegister body => authorityProjectRegister body db
  | .acquire body => authorityAcquire P body info r db
  | .heartbeat c => authorityHeartbeat P c info r.now db
  | .release c => authorityRelease P c r.now db
  | .targetKeyCreate target => authorityTargetKeyCreate P target info r db
  | .targetKeyFinalize receipt => authorityTargetKeyFinalize P receipt info db
  | .epochRotate expected => authorityEpochRotate expected info db
  | .grantIssue body => authorityGrantIssue P body info r db
  | .grantImport body => authorityGrantImport P body info r.now db
  | .recoveryComplete c => authorityRecoveryComplete P c r.now db
  | .recoveryWorklist c => authorityRecoveryWorklist P c r.now db

/-- One call: its replay identity, the identities it addresses and its request. -/
structure AuthorityCall where
  rpcId : String
  requestSha256 : String
  clusterId : String
  deviceId : String
  request : AuthorityRequest

/-- `open_authority_store` on an existing store. -/
def openAuthorityStore (call : AuthorityCall) (db : Authority) : Except Error Meta := do
  require (db.info.clusterId = call.clusterId) "authority cluster identity mismatch"
  require (db.info.coordinatorDeviceId = call.deviceId)
    "authority coordinator device identity mismatch"
  return db.info

/-- The `BEGIN IMMEDIATE` transaction of `authority_rpc`, on a snapshot of the metadata. -/
def authorityTransaction (call : AuthorityCall) (info : Meta) (r : Readings)
    (db : Authority) : Except Error (Authority × Response) := do
  require (info.sealed = false) "authority is sealed"
  match db.rpcRequests.lookup fun q => q.rpcId = call.rpcId with
  | some existing => do
    require (existing.operation = call.request.operation ∧
        existing.requestSha256 = call.requestSha256)
      "authority rpc_id reused with a different request"
    return (db, existing.response)
  | none => do
    let (db', response) ← authorityOperation P call.request info r db
    let rpcRequests ← inserted (db'.rpcRequests.insert
      ⟨call.rpcId, call.request.operation, call.requestSha256, response⟩)
    return ({ db' with rpcRequests := rpcRequests }, response)

/-- `authority_rpc` with nothing between the metadata read and the transaction. -/
def authorityRpc (call : AuthorityCall) (r : Readings) (db : Authority) :
    Except Error (Authority × Response) := do
  let info ← openAuthorityStore call db
  authorityTransaction P call info r db

end Operations

/-- The store a call leaves behind: a raised error rolls back. -/
def committed {σ ρ : Type} (db : σ) (result : Except Error (σ × ρ)) : σ :=
  match result with
  | .ok (db', _) => db'
  | .error _ => db

end Remrun.Runner
