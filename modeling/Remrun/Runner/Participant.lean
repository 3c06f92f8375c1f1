import Remrun.Runner.Authority

/-!
# The participant's grant operations

`_verify_capability`, `_accept_capability` and `_grant_status_receipt` on the target's
store, the replay wrapper of `participant_rpc`, and the key import that enrolls an
authority. All three messages a target key signs go through `sign`.
-/

namespace Remrun.Runner

open Relational
set_option autoImplicit false

inductive ParticipantResponse where
  | prior (state : AcceptedState) (result : GrantResult)
  | fenced (reason : String)
  | recoveryRequired (operations : List Observation)
  | accepted (result : GrantResult)
  | barrier (result : GrantResult)
  | grantStatus (status : ReceiptStatus) (receipt : Envelope)
  deriving DecidableEq, Repr

/-- `runner.sqlite3` with the target's key files; `signed` is the ghost record of the
bodies this store's code has put a signature on. -/
structure Participant where
  deviceId : String
  fences : Table ProjectFence ProjectFence.Clash
  accepted : Table AcceptedGrant AcceptedGrant.Clash
  enrolled : Table EnrolledAuthority EnrolledAuthority.Clash
  rpcRequests : Table (RpcRecord ParticipantResponse) RpcRecord.Clash
  keys : KeyFiles
  signed : List (Bytes × Body)

def Participant.init (deviceId : String) : Participant where
  deviceId := deviceId
  fences := .empty
  accepted := .empty
  enrolled := .empty
  rpcRequests := .empty
  keys := fun _ => none
  signed := []

section Operations
variable (P : Prims)

/-- `_verify_capability`: the verified body, its key id and the secret. -/
def verifyCapability (capability : Option Envelope) (p : Participant) :
    Except Error (Body × String × Bytes) := do
  match capability.filter fun e => e.sigAlg = "hmac-sha256" with
  | none => raise "invalid capability envelope"
  | some capability => do
    let body := capability.body
    require (body.v = 1) "invalid capability body"
    let target := body.targetDeviceId.getD ""
    require (target = p.deviceId) "capability target mismatch"
    let cluster := body.clusterId.getD ""
    let epoch := body.authorityEpoch.getD 0
    match (p.enrolled.lookup fun e => e.clusterId = cluster ∧ e.authorityEpoch = epoch ∧
        e.keyId = capability.keyId).filter fun e => e.state = .enrolled with
    | none => raise "capability key is not enrolled for this authority epoch"
    | some enrollment => do
      let path ← secretPath P cluster target epoch capability.keyId
      match p.keys path with
      | none => raise "capability key is not enrolled"
      | some secret => do
        require (P.sha256 secret = enrollment.keySha256) "capability key fingerprint mismatch"
        let valid ← signatureMatches P secret capability
        require (valid = true) "capability signature mismatch"
        return (body, capability.keyId, secret)

/-- `_accepted_grant_observation`. -/
def AcceptedGrant.observation (g : AcceptedGrant) : Observation :=
  .mk g.grantId g.operation g.operationId g.fence g.requestSha256 g.state g.result

/-- The row a capability body describes, with the columns the target decides. -/
def acceptedRow (body : Body) (state : AcceptedState) (result : GrantResult) :
    AcceptedGrant where
  grantId := body.grantId.getD ""
  clusterId := body.clusterId.getD ""
  projectKey := body.projectKey.getD ""
  authorityEpoch := body.authorityEpoch.getD 0
  fence := body.fence.getD (-1)
  operation := body.operation.getD ""
  operationId := body.operationId.getD ""
  requestSha256 := body.requestSha256.getD ""
  state := state
  result := result

/-- The seven columns compared with a stored row of the same grant id. -/
def AcceptedGrant.immutable (g : AcceptedGrant) :
    String × String × Int × Int × String × String × String :=
  (g.clusterId, g.projectKey, g.authorityEpoch, g.fence, g.operation, g.operationId,
    g.requestSha256)

def AcceptedGrant.before (a b : AcceptedGrant) : Prop :=
  a.fence < b.fence ∨ (a.fence = b.fence ∧ a.grantId ≤ b.grantId)

instance : DecidableRel AcceptedGrant.before := fun a b => by
  unfold AcceptedGrant.before; infer_instance

/-- Accepted grants of the same project and epoch below a fence. -/
def lowerGrants (p : Participant) (row : AcceptedGrant) : List AcceptedGrant :=
  (p.accepted.select fun g => g.clusterId = row.clusterId ∧ g.projectKey = row.projectKey ∧
    g.authorityEpoch = row.authorityEpoch ∧ g.fence < row.fence ∧
    g.state ≠ .fenced).insertionSort AcceptedGrant.before

/-- `INSERT … ON CONFLICT(cluster_id,project_key) DO UPDATE`. -/
def upsertFence (fences : Table ProjectFence ProjectFence.Clash) (row : ProjectFence) :
    Table ProjectFence ProjectFence.Clash :=
  match fences.insert row with
  | some fences => fences
  | none => fences.update
      (fun f => f.clusterId = row.clusterId ∧ f.projectKey = row.projectKey)
      (fun f => { f with authorityEpoch := row.authorityEpoch, maxFence := row.maxFence })
      fun _ _ => ⟨id, id⟩

def Participant.projectFence (p : Participant) (clusterId projectKey : String) :
    Option ProjectFence :=
  p.fences.lookup fun f => f.clusterId = clusterId ∧ f.projectKey = projectKey

/-- The fence floor that applies to a capability of the given epoch. -/
def Participant.maxFence (p : Participant) (row : AcceptedGrant) : Int :=
  match p.projectFence row.clusterId row.projectKey with
  | some stored => if row.authorityEpoch = stored.authorityEpoch then stored.maxFence else -1
  | none => -1

/-- The writes of an accepted capability. -/
def insertAccepted (p : Participant) (row : AcceptedGrant) : Except Error Participant := do
  let fences := upsertFence p.fences
    ⟨row.clusterId, row.projectKey, row.authorityEpoch, max (p.maxFence row) row.fence⟩
  let accepted ← inserted (p.accepted.insert row)
  return { p with fences := fences, accepted := accepted }

/-- `_accept_capability` after verification. -/
def acceptVerified (body : Body) (p : Participant) :
    Except Error (Participant × ParticipantResponse) := do
  let row := acceptedRow body .accepted none
  match p.accepted.lookup fun g => g.grantId = row.grantId with
  | some prior => do
    require (prior.immutable = row.immutable) "grant_id reused with different capability fields"
    return (p, .prior prior.state prior.result)
  | none =>
    if (p.projectFence row.clusterId row.projectKey).any fun f =>
        row.authorityEpoch < f.authorityEpoch then
      return (p, .fenced "older authority epoch")
    else if row.fence < p.maxFence row then
      return (p, .fenced "stale fence")
    else
      let lower := lowerGrants p row
      let blocking := lower.filter fun g => g.state ≠ .terminal
      if row.operation = "fence_barrier" then do
        let result := some (lower.map AcceptedGrant.observation)
        let p' ← insertAccepted p { row with state := .terminal, result := result }
        return (p', .barrier result)
      else if blocking ≠ [] then
        return (p, .recoveryRequired (blocking.map AcceptedGrant.observation))
      else do
        let p' ← insertAccepted p row
        return (p', .accepted none)

/-- `_accept_capability`. -/
def acceptCapability (capability : Option Envelope) (p : Participant) :
    Except Error (Participant × ParticipantResponse) := do
  let (body, _, _) ← verifyCapability P capability p
  acceptVerified body p

/-- The receipt body: the fields of the verified body win over `kind` and
`observed_at_ns`, and `status` and `result` win over them. -/
def receiptBody (body : Body) (now : Int) (status : ReceiptStatus) (result : GrantResult) :
    Body :=
  { body with
    kind := body.kind <|> some .grantStatus
    observedAtNs := body.observedAtNs <|> some now
    status := some status
    result := result }

/-- `_grant_status_receipt` after verification. -/
def signStatus (body : Body) (keyId : String) (secret : Bytes) (now : Int)
    (status : ReceiptStatus) (result : GrantResult) (p : Participant) :
    Participant × ParticipantResponse :=
  let receipt := receiptBody body now status result
  ({ p with signed := (secret, receipt) :: p.signed },
    .grantStatus status (sign P secret keyId receipt))

/-- `_grant_status_receipt`. -/
def grantStatusReceipt (capability : Option Envelope) (now : Int) (p : Participant) :
    Except Error (Participant × ParticipantResponse) := do
  let (body, keyId, secret) ← verifyCapability P capability p
  let row := acceptedRow body .accepted none
  match p.accepted.lookup fun g => g.grantId = row.grantId with
  | none => return signStatus P body keyId secret now .absent none p
  | some prior => do
    require (prior.immutable = row.immutable) "grant_id reused with different capability fields"
    return signStatus P body keyId secret now (.row prior.state) prior.result p

inductive ParticipantRequest where
  | grantAccept (capability : Option Envelope)
  | grantStatus (capability : Option Envelope)
  deriving DecidableEq, Repr

def ParticipantRequest.operation : ParticipantRequest → String
  | .grantAccept _ => "participant_grant_accept"
  | .grantStatus _ => "participant_grant_status"

def ParticipantRequest.capability : ParticipantRequest → Option Envelope
  | .grantAccept e => e
  | .grantStatus e => e

def participantOperation (request : ParticipantRequest) (now : Int) (p : Participant) :
    Except Error (Participant × ParticipantResponse) :=
  match request with
  | .grantAccept capability => acceptCapability P capability p
  | .grantStatus capability => grantStatusReceipt P capability now p

structure ParticipantCall where
  rpcId : String
  requestSha256 : String
  request : ParticipantRequest

/-- `participant_rpc`: one transaction with its replay record. -/
def participantRpc (call : ParticipantCall) (now : Int) (p : Participant) :
    Except Error (Participant × ParticipantResponse) := do
  match p.rpcRequests.lookup fun q => q.rpcId = call.rpcId with
  | some existing => do
    require (existing.operation = call.request.operation ∧
        existing.requestSha256 = call.requestSha256)
      "rpc_id reused with a different request"
    return (p, existing.response)
  | none => do
    let (p', response) ← participantOperation P call.request now p
    let rpcRequests ← inserted (p'.rpcRequests.insert
      ⟨call.rpcId, call.request.operation, call.requestSha256, response⟩)
    return ({ p' with rpcRequests := rpcRequests }, response)

/-! ## Enrollment -/

/-- The payload of a key enrollment frame. -/
structure Enrollment where
  clusterId : String
  targetDeviceId : String
  authorityEpoch : Int
  keyId : String
  keySha256 : String
  secret : Bytes

/-- `_record_enrollment`; the flag says that the key was enrolled before. -/
def recordEnrollment (e : Enrollment) (p : Participant) : Except Error (Participant × Bool) := do
  require (e.targetDeviceId = p.deviceId ∧ e.clusterId ≠ "" ∧ 1 ≤ e.authorityEpoch ∧ e.keyId ≠ "")
    "key enrollment target or identity is invalid"
  require (e.secret.length = 32 ∧ P.sha256 e.secret = e.keySha256)
    "key enrollment secret fingerprint mismatch"
  require (∀ a ∈ p.enrolled.select (fun a => a.clusterId = e.clusterId ∧ a.state = .enrolled),
      a.authorityEpoch ≤ e.authorityEpoch)
    "key enrollment authority epoch is stale"
  match p.enrolled.lookup fun a =>
      a.clusterId = e.clusterId ∧ a.authorityEpoch = e.authorityEpoch with
  | some same => do
    require (same.keyId = e.keyId ∧ same.keySha256 = e.keySha256)
      "authority epoch already has a different enrolled key"
    return (
      { p with
        enrolled := p.enrolled.update
          (fun a => a.clusterId = e.clusterId ∧ a.authorityEpoch = e.authorityEpoch ∧
            a.keyId = e.keyId)
          (fun a => { a with state := .enrolled }) fun _ _ => ⟨id, id⟩ }, true)
  | none => do
    let retired := p.enrolled.update
      (fun a => a.clusterId = e.clusterId ∧ a.authorityEpoch < e.authorityEpoch ∧
        a.state = .enrolled)
      (fun a => { a with state := .retired }) fun _ _ => ⟨id, id⟩
    let enrolled ← inserted (retired.insert
      ⟨e.clusterId, e.authorityEpoch, e.keyId, e.keySha256, .enrolled⟩)
    return ({ p with enrolled := enrolled }, false)

/-- The key file after `key_import_main` published it: a file of an uncommitted
enrollment may be replaced, a committed one may not. -/
def publishKey (e : Enrollment) (path : KeyPath) (p : Participant) : Except Error KeyFiles :=
  match p.keys path with
  | none => .ok (Function.update p.keys path (some e.secret))
  | some existing =>
    if existing = e.secret then .ok p.keys
    else if (p.enrolled.lookup fun a => a.clusterId = e.clusterId ∧
        a.authorityEpoch = e.authorityEpoch ∧ a.keyId = e.keyId).isSome then
      raise "committed enrollment key has a different fingerprint"
    else .ok (Function.update p.keys path (some e.secret))

/-- The enrollment receipt body `key_import_main` signs. -/
def enrollmentBody (e : Enrollment) (p : Participant) : Body where
  v := 1
  kind := some .keyEnrollment
  observedAtNs := none
  clusterId := some e.clusterId
  authorityEpoch := some e.authorityEpoch
  grantId := none
  projectKey := none
  leaseId := none
  fence := none
  targetDeviceId := some p.deviceId
  operation := none
  operationId := none
  requestSha256 := none
  keyId := some e.keyId
  keySha256 := some e.keySha256
  status := none
  result := none

/-- `key_import_main`. The key file is written outside the database transaction, so it
survives a rejected enrollment. -/
def keyImport (e : Enrollment) (p : Participant) : Participant × Except Error Envelope :=
  match secretPath P e.clusterId p.deviceId e.authorityEpoch e.keyId with
  | .error err => (p, .error err)
  | .ok path =>
    match publishKey e path p with
    | .error err => (p, .error err)
    | .ok keys =>
      let published := { p with keys := keys }
      match recordEnrollment P e published with
      | .error err => (published, .error err)
      | .ok (enrolled, _) =>
        let body := enrollmentBody e p
        ({ enrolled with signed := (e.secret, body) :: enrolled.signed },
          .ok (sign P e.secret "" body))

end Operations

end Remrun.Runner
