import Remrun.Lib.Table

/-!
# The stores of the runner-v1 coordination protocol

Rows of `authority.sqlite3` and `runner.sqlite3`, the signed envelopes that travel
between them, and the interpreter primitives the runner calls. Columns that no
modelled function reads back (creation and update times, snapshots, replicas) are
left out. Every uniqueness constraint of the two schemas is a `Clash`.
-/

namespace Remrun.Runner

open Relational
set_option autoImplicit false

abbrev Bytes := List UInt8

/-- What an RPC raises; the transaction is rolled back whichever it is. -/
inductive Error where
  | runnerError (message : String)
  | integrityError
  | osError
  | assertionError
  deriving DecidableEq, Repr

def raise {α : Type} (message : String) : Except Error α := .error (.runnerError message)

/-- `if not condition: raise RunnerError(message)`. -/
def require (condition : Prop) [Decidable condition] (message : String) : Except Error Unit :=
  if condition then .ok () else raise message

/-- The outcome of an `INSERT` statement. -/
def inserted {α : Type} (t : Option α) : Except Error α :=
  match t with
  | some t => .ok t
  | none => .error .integrityError

/-- Python truthiness of an optional text column. -/
def truthy : Option String → Bool
  | some s => s ≠ ""
  | none => false

section ExceptLemmas
variable {α β : Type}

theorem bind_eq_ok {x : Except Error α} {f : α → Except Error β} {b : β} :
    (x >>= f) = .ok b ↔ ∃ a, x = .ok a ∧ f a = .ok b := by
  cases x with
  | error e => simp [Bind.bind, Except.bind]
  | ok a => simp [Bind.bind, Except.bind]

/-- A sequence succeeds with `Q` if its first action succeeds and the rest then does so. -/
theorem exists_bind_ok_and {x : Except Error α} {f : α → Except Error β} {a : α} {Q : β → Prop}
    (hx : x = .ok a) (hf : ∃ b, f a = .ok b ∧ Q b) : ∃ b, (x >>= f) = .ok b ∧ Q b := by
  obtain ⟨b, hb, hq⟩ := hf
  exact ⟨b, bind_eq_ok.mpr ⟨a, hx, hb⟩, hq⟩

theorem exists_bind_ok {x : Except Error α} {f : α → Except Error β} {a : α} (hx : x = .ok a)
    (hf : ∃ b, f a = .ok b) : ∃ b, (x >>= f) = .ok b := by
  obtain ⟨b, hb⟩ := hf
  exact ⟨b, bind_eq_ok.mpr ⟨a, hx, hb⟩⟩

@[simp] theorem require_eq_ok {condition : Prop} [Decidable condition] {message : String}
    {u : Unit} : require condition message = .ok u ↔ condition := by
  unfold require raise
  split <;> simp_all

theorem require_of {condition : Prop} [Decidable condition] {message : String}
    (h : condition) : require condition message = .ok () := require_eq_ok.mpr h

@[simp] theorem raise_ne_ok {message : String} {a : α} : raise message ≠ .ok a := by
  simp [raise]

@[simp] theorem inserted_eq_ok {o : Option α} {a : α} : inserted o = .ok a ↔ o = some a := by
  cases o <;> simp [inserted]

theorem pure_eq_ok {a b : α} : (pure a : Except Error α) = .ok b ↔ a = b := by
  simp [pure, Except.pure]

end ExceptLemmas

/-! ## Signed envelopes -/

/-- The states `accepted_grants.state` is compared with. -/
inductive AcceptedState where
  | accepted
  | terminal
  | fenced
  deriving DecidableEq, Repr

/-- One item of `lower_fence_operations`; a lower barrier carries its own list. -/
inductive Observation where
  | mk (grantId operation operationId : String) (fence : Int) (requestSha256 : String)
      (state : AcceptedState) (result : Option (List Observation))
  deriving Repr

namespace Observation

def grantId : Observation → String | mk g _ _ _ _ _ _ => g
def operation : Observation → String | mk _ o _ _ _ _ _ => o
def operationId : Observation → String | mk _ _ o _ _ _ _ => o
def fence : Observation → Int | mk _ _ _ f _ _ _ => f
def requestSha256 : Observation → String | mk _ _ _ _ r _ _ => r
def state : Observation → AcceptedState | mk _ _ _ _ _ s _ => s
def result : Observation → Option (List Observation) | mk _ _ _ _ _ _ r => r

mutual
def decEq : (a b : Observation) → Decidable (a = b)
  | mk g o i f r s res, mk g' o' i' f' r' s' res' =>
    match decEqResult res res' with
    | isTrue h => decidable_of_iff (g = g' ∧ o = o' ∧ i = i' ∧ f = f' ∧ r = r' ∧ s = s')
        (by rw [h]; simp)
    | isFalse h => isFalse fun hEq => h (by injection hEq)
def decEqResult : (a b : Option (List Observation)) → Decidable (a = b)
  | none, none => isTrue rfl
  | none, some _ => isFalse (by simp)
  | some _, none => isFalse (by simp)
  | some xs, some ys =>
    match decEqList xs ys with
    | isTrue h => isTrue (by rw [h])
    | isFalse h => isFalse fun hEq => h (Option.some.inj hEq)
def decEqList : (a b : List Observation) → Decidable (a = b)
  | [], [] => isTrue rfl
  | [], _ :: _ => isFalse (by simp)
  | _ :: _, [] => isFalse (by simp)
  | x :: xs, y :: ys =>
    match decEq x y, decEqList xs ys with
    | isTrue h, isTrue h' => isTrue (by rw [h, h'])
    | isFalse h, _ => isFalse fun hEq => h (List.cons.inj hEq).1
    | _, isFalse h => isFalse fun hEq => h (List.cons.inj hEq).2
end

instance : DecidableEq Observation := decEq

end Observation

/-- The value under `result`: a barrier's `lower_fence_operations`, or JSON null. -/
abbrev GrantResult := Option (List Observation)

inductive ReceiptStatus where
  | absent
  | row (state : AcceptedState)
  deriving DecidableEq, Repr

inductive BodyKind where
  | grantStatus
  | keyEnrollment
  deriving DecidableEq, Repr

/-- The JSON object under `body` of an envelope. The three messages the runner signs
use different keys of it; a key that is absent is `none`. -/
structure Body where
  v : Int
  kind : Option BodyKind
  observedAtNs : Option Int
  clusterId : Option String
  authorityEpoch : Option Int
  grantId : Option String
  projectKey : Option String
  leaseId : Option String
  fence : Option Int
  targetDeviceId : Option String
  operation : Option String
  operationId : Option String
  requestSha256 : Option String
  keyId : Option String
  keySha256 : Option String
  status : Option ReceiptStatus
  result : GrantResult
  deriving DecidableEq, Repr

structure Envelope where
  body : Body
  sigAlg : String
  keyId : String
  sig : String
  deriving DecidableEq, Repr

/-- A JSON scalar of a digested request. -/
inductive Scalar where
  | null
  | int (value : Int)
  | str (value : String)
  deriving DecidableEq, Repr

/-- The interpreter's hashing and encoding primitives, as the runner calls them. -/
structure Prims where
  /-- `hashlib.sha256(data).hexdigest()` -/
  sha256 : Bytes → String
  /-- `hmac.new(secret, canonical_json(body), hashlib.sha256).digest()` -/
  hmac : Bytes → Body → Bytes
  b64url : Bytes → String
  urlsafeB64decode : String → Option Bytes
  /-- `hashlib.sha256(canonical_json(fields)).hexdigest()` -/
  requestDigest : List (String × Scalar) → String
  /-- `hashlib.sha256(canonical_json(receipt)).hexdigest()` -/
  envelopeDigest : Envelope → String
  isalnum : String → Bool

/-! ## The authority store -/

inductive ProjectState where
  | bootstrap
  | ready
  | recovery
  | sealed
  deriving DecidableEq, Repr

inductive LeasePhase where
  | normal
  | recovery
  deriving DecidableEq, Repr

inductive LeaseState where
  | active
  | superseded
  | released
  deriving DecidableEq, Repr

inductive TargetState where
  | pending
  | enrolled
  | retired
  deriving DecidableEq, Repr

inductive GrantState where
  | issued
  | accepted
  | terminal
  | fenced
  | unknown
  deriving DecidableEq, Repr

/-- The row of `authority_meta`. -/
structure Meta where
  clusterId : String
  coordinatorDeviceId : String
  authorityEpoch : Int
  sealed : Bool
  leaseSeconds : Int
  deriving DecidableEq, Repr

structure Project where
  projectKey : String
  projectId : String
  policySha256 : String
  state : ProjectState
  nextFence : Int
  currentLeaseId : Option String
  activeRunId : Option String
  pendingTxnId : Option String
  recoveryPriorState : Option ProjectState
  deriving DecidableEq, Repr

structure Lease where
  leaseId : String
  projectKey : String
  acquireId : String
  requestSha256 : String
  fence : Int
  ownerTokenSha256 : String
  controllerId : String
  controllerReplicaId : String
  ownerHost : Option String
  ownerPid : Option Int
  phase : LeasePhase
  state : LeaseState
  recoveryOfLeaseId : Option String
  heartbeatSeq : Nat
  acquiredAtNs : Int
  heartbeatAtNs : Int
  leaseUntilNs : Int
  releasedAtNs : Option Int
  deriving DecidableEq, Repr

structure AuthorityTarget where
  targetDeviceId : String
  authorityEpoch : Int
  keyId : String
  keySha256 : String
  state : TargetState
  deriving DecidableEq, Repr

structure Grant where
  grantId : String
  grantRequestId : String
  projectKey : String
  leaseId : String
  authorityEpoch : Int
  fence : Int
  targetDeviceId : String
  operation : String
  operationId : String
  requestSha256 : String
  issueSha256 : String
  capability : Envelope
  state : GrantState
  result : GrantResult
  lastReceiptSha256 : Option String
  deriving DecidableEq, Repr

/-- `ISSUED`, `UNKNOWN` or `ACCEPTED`: the target may still have to answer for it. -/
def GrantState.unresolved : GrantState → Bool
  | .issued | .unknown | .accepted => true
  | .terminal | .fenced => false

def Project.Clash (a b : Project) : Prop :=
  a.projectKey = b.projectKey ∨ a.projectId = b.projectId

def Lease.Clash (a b : Lease) : Prop :=
  a.leaseId = b.leaseId ∨ a.acquireId = b.acquireId ∨
    (a.projectKey = b.projectKey ∧ a.fence = b.fence)

def AuthorityTarget.Clash (a b : AuthorityTarget) : Prop :=
  a.targetDeviceId = b.targetDeviceId ∧ a.authorityEpoch = b.authorityEpoch

def Grant.Clash (a b : Grant) : Prop :=
  a.grantId = b.grantId ∨ a.grantRequestId = b.grantRequestId

instance : DecidableRel Project.Clash := fun a b => by unfold Project.Clash; infer_instance
instance : DecidableRel Lease.Clash := fun a b => by unfold Lease.Clash; infer_instance
instance : DecidableRel AuthorityTarget.Clash := fun a b => by
  unfold AuthorityTarget.Clash; infer_instance
instance : DecidableRel Grant.Clash := fun a b => by unfold Grant.Clash; infer_instance

/-- The path `_secret_path` names, relative to the `keys` directory. -/
structure KeyPath where
  clusterId : String
  targetDeviceId : String
  authorityEpoch : Int
  keyId : String
  deriving DecidableEq, Repr

abbrev KeyFiles := KeyPath → Option Bytes

/-- `_secret_path`. -/
def secretPath (P : Prims) (clusterId target : String) (epoch : Int) (keyId : String) :
    Except Error KeyPath := do
  let safe := (clusterId ++ target ++ toString epoch ++ keyId).toList.filter (· ≠ '-')
  require (P.isalnum (String.ofList safe) = true) "invalid key identity"
  return ⟨clusterId, target, epoch, keyId⟩

/-- Opening a key file for reading. -/
def readKey (keys : KeyFiles) (path : KeyPath) : Except Error Bytes :=
  match keys path with
  | some secret => .ok secret
  | none => .error .osError

/-- `os.link` of a finished temporary file: an existing path is an error. -/
def writeSecret (keys : KeyFiles) (path : KeyPath) (secret : Bytes) : Except Error KeyFiles :=
  match keys path with
  | some _ => .error .osError
  | none => .ok (Function.update keys path (some secret))

/-! ## The participant store -/

inductive EnrollmentState where
  | enrolled
  | retired
  deriving DecidableEq, Repr

structure EnrolledAuthority where
  clusterId : String
  authorityEpoch : Int
  keyId : String
  keySha256 : String
  state : EnrollmentState
  deriving DecidableEq, Repr

structure ProjectFence where
  clusterId : String
  projectKey : String
  authorityEpoch : Int
  maxFence : Int
  deriving DecidableEq, Repr

structure AcceptedGrant where
  grantId : String
  clusterId : String
  projectKey : String
  authorityEpoch : Int
  fence : Int
  operation : String
  operationId : String
  requestSha256 : String
  state : AcceptedState
  result : GrantResult
  deriving DecidableEq, Repr

def EnrolledAuthority.Clash (a b : EnrolledAuthority) : Prop :=
  a.clusterId = b.clusterId ∧ a.authorityEpoch = b.authorityEpoch

def ProjectFence.Clash (a b : ProjectFence) : Prop :=
  a.clusterId = b.clusterId ∧ a.projectKey = b.projectKey

def AcceptedGrant.Clash (a b : AcceptedGrant) : Prop :=
  a.grantId = b.grantId ∨ (a.projectKey = b.projectKey ∧ a.operationId = b.operationId)

instance : DecidableRel EnrolledAuthority.Clash := fun a b => by
  unfold EnrolledAuthority.Clash; infer_instance
instance : DecidableRel ProjectFence.Clash := fun a b => by
  unfold ProjectFence.Clash; infer_instance
instance : DecidableRel AcceptedGrant.Clash := fun a b => by
  unfold AcceptedGrant.Clash; infer_instance

end Remrun.Runner
