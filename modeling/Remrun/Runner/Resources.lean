import Remrun.Runner.Authority

/-!
# The target resource ledger

Policy, fence counter, allocations and holds of a target, with the RPCs of the controller
and the transitions of the owner process. Every operation is one transaction. Readings of
the boot id, the clock and the process table are inputs.
-/

namespace Remrun.Runner

open Relational
set_option autoImplicit false

/-! ## Values -/

/-- A decoded JSON value, as the validators inspect it. -/
inductive Json where
  | null
  | bool (value : Bool)
  | int (value : Int)
  | float (value : Rat)
  | str (value : String)
  | arr (items : List Json)
  | obj (fields : List (String × Json))

/-- `value == n`: in Python `True` and `1.0` equal `1`. -/
def Json.equals (n : Int) : Json → Bool
  | .bool value => (if value then 1 else 0) = n
  | .int value => value = n
  | .float value => value = n
  | _ => false

/-- `value.get(name)` of an object. -/
def Json.get (name : String) : Json → Json
  | .obj fields => (fields.lookup name).getD .null
  | _ => .null

/-- `isinstance(value, dict) and set(value) == names`. -/
def Json.hasFields (names : List String) : Json → Bool
  | .obj fields => names.all (fun n => fields.any fun f => f.1 = n) &&
      fields.all fun f => names.contains f.1
  | _ => false

inductive AllocationState where
  | reserved
  | claimed
  | quarantined
  | released
  | expired
  | cancelled
  | rebooted
  deriving DecidableEq, Repr

/-- `RESERVED`, `CLAIMED` or `QUARANTINED`: the states that hold keys. -/
def AllocationState.live : AllocationState → Bool
  | .reserved | .claimed | .quarantined => true
  | .released | .expired | .cancelled | .rebooted => false

inductive StartState where
  | no
  | maybe
  | yes
  deriving DecidableEq, Repr

def StartState.text : StartState → String
  | .no => "NO"
  | .maybe => "MAYBE"
  | .yes => "YES"

/-- The identity of the process tree that claimed an allocation. -/
structure Owner where
  kind : String
  key : String
  pid : Int
  startId : String
  rootPid : Int
  rootStartId : String
  deriving DecidableEq, Repr

structure Allocation where
  allocationId : String
  operationId : String
  requestSha256 : String
  allocationSpecSha256 : String
  resourceKeys : List String
  policyGeneration : Int
  policyDigest : String
  fence : Int
  tokenSha256 : String
  state : AllocationState
  reservationBootId : String
  reservedMonoNs : Int
  expiresMonoNs : Int
  claimBootId : Option String
  claimedMonoNs : Option Int
  owner : Option Owner
  userPid : Option Int
  userStartId : Option String
  commandStartState : StartState
  terminalReason : Option String
  deriving DecidableEq, Repr

structure Hold where
  resourceKey : String
  allocationId : String
  fence : Int
  deriving DecidableEq, Repr

/-- The installed policy: every resource has capacity 1, so its document is its keys. -/
structure ResourcePolicy where
  generation : Int
  digest : String
  resources : List String
  deriving DecidableEq, Repr

def Allocation.Clash (a b : Allocation) : Prop :=
  a.allocationId = b.allocationId ∨ a.fence = b.fence ∨ a.tokenSha256 = b.tokenSha256

def Hold.Clash (a b : Hold) : Prop := a.resourceKey = b.resourceKey

instance : DecidableRel Allocation.Clash := fun a b => by
  unfold Allocation.Clash; infer_instance
instance : DecidableRel Hold.Clash := fun a b => by unfold Hold.Clash; infer_instance

/-- The receipt `_resource_receipt` makes out for an allocation. -/
structure ResourceReceipt where
  row : Allocation
  targetBootId : String
  deriving DecidableEq, Repr

inductive LedgerResponse where
  | policyAbsent
  | policy (policy : ResourcePolicy) (holdsActive : Bool)
  | installed (generation : Int) (digest : String) (idempotent : Bool)
  | allocationExists (receipt : ResourceReceipt)
  | resourceBusy (busyKeys : List String)
  | reserved (token : String) (receipt : ResourceReceipt)
  | status (receipt : ResourceReceipt)
  | found (receipt : ResourceReceipt)
  | receipt (receipt : ResourceReceipt)
  | couldNotStop (receipt : ResourceReceipt)
  deriving DecidableEq, Repr

structure Ledger where
  policy : Option ResourcePolicy
  lastFence : Option Int
  allocations : Table Allocation Allocation.Clash
  holds : Table Hold Hold.Clash
  rpcRequests : Table (RpcRecord LedgerResponse) RpcRecord.Clash

def Ledger.init : Ledger := ⟨none, none, .empty, .empty, .empty⟩

def reservationNs : Int := 30000000000
def maxResourceFence : Int := 2 ^ 63 - 1
def emptyResourcePolicyDigest : String := String.ofList (List.replicate 64 '0')

/-- The digests the ledger stores. -/
structure LedgerPrims where
  /-- `sha256(token)`, over the UTF-8 bytes -/
  tokenSha256 : String → String
  /-- the digest of the canonical policy document -/
  policySha256 : Int → List String → String
  /-- the digest of an allocation's immutable fields: ids, request digest, keys, policy -/
  specSha256 : String → String → String → List String → Int → String → String

/-! ## Readings of the target -/

inductive Cleanup where
  | live
  | gone
  | unknown
  deriving DecidableEq, Repr

/-- How the kill of a live process tree went. -/
inductive KillOutcome where
  /-- the group or job could not be opened, or is not the allocation's -/
  | refused
  /-- the job object no longer exists; the tree is probed again -/
  | noJob (again : Cleanup)
  /-- `TerminateJobObject` failed; its member list, unless reading that failed too -/
  | jobFailed (pids : Option (List Int))
  /-- the signal was sent; the probes until the deadline, then one more -/
  | sent (polls : List Cleanup) (last : Cleanup)
  deriving DecidableEq, Repr

/-- The readings of one operation: `_strict_boot_id`, `_strict_monotonic_ns`,
`secrets.token_urlsafe`, and the probes of process trees. `_resource_owner_cleanup_state`
looks at the owner columns only, once in an operation for each allocation id. -/
structure LedgerReadings where
  bootId : String
  monoNs : Int
  token : String
  cleanup : String → Option Owner → Cleanup
  probe : Cleanup
  kill : KillOutcome

/-- The wait loop after the signal. -/
def waitGone : List Cleanup → Cleanup → Bool
  | [], last => last = .gone
  | .gone :: _, _ => true
  | .unknown :: _, _ => false
  | .live :: rest, last => waitGone rest last

/-- `_terminate_resource_owner`. -/
def terminateResourceOwner (r : LedgerReadings) : Bool :=
  match r.probe with
  | .gone => true
  | .unknown => false
  | .live =>
    match r.kill with
    | .refused => false
    | .noJob again => again = .gone
    | .jobFailed pids => pids = some []
    | .sent polls last => waitGone polls last

/-- One of the readings of `_terminate_resource_owner` found the tree gone. -/
def LedgerReadings.sawGone (r : LedgerReadings) : Prop :=
  r.probe = .gone ∨ r.kill = .noJob .gone ∨ r.kill = .jobFailed (some []) ∨
    ∃ polls last, r.kill = .sent polls last ∧ (.gone ∈ polls ∨ last = .gone)

/-! ## Validators -/

section Operations
variable (P : LedgerPrims)

/-- `_bounded_resource_text`. -/
def boundedResourceText (value : Json) (label : String) (limit : Nat) : Except Error String :=
  match value with
  | .str text => do
    require (text ≠ "" ∧ text.length ≤ limit ∧ ¬ '\x00' ∈ text.toList) (label ++ " is invalid")
    return text
  | _ => raise (label ++ " is invalid")

/-- `SHA256_RE.fullmatch`. -/
def isSha256 (text : String) : Bool :=
  text.length = 64 &&
    text.toList.all fun c => ('0' ≤ c && c ≤ '9') || ('a' ≤ c && c ≤ 'f')

/-- `_resource_sha256`. -/
def resourceSha256 (value : Json) (label : String) : Except Error String :=
  match value with
  | .str text => do
    require (isSha256 text = true) (label ++ " must be a lowercase SHA-256")
    return text
  | _ => raise (label ++ " must be a lowercase SHA-256")

def isAlnumAscii (c : Char) : Bool :=
  ('A' ≤ c && c ≤ 'Z') || ('a' ≤ c && c ≤ 'z') || ('0' ≤ c && c ≤ '9')

/-- `RESOURCE_KEY_RE.fullmatch`. -/
def isResourceKey (text : String) : Bool :=
  match text.toList with
  | [] => false
  | c :: rest => isAlnumAscii c && rest.length ≤ 127 &&
      rest.all fun c => isAlnumAscii c || c = '.' || c = '_' || c = ':' || c = '/' || c = '-'

/-- The keys of a list of JSON strings, in order. -/
def collectKeys (message : String) : List Json → Except Error (List String)
  | [] => .ok []
  | .str key :: rest => do
    require (isResourceKey key = true) message
    let keys ← collectKeys message rest
    return key :: keys
  | _ :: _ => raise message

def sortKeys (keys : List String) : List String := keys.insertionSort (· ≤ ·)

/-- `_resource_keys`. -/
def resourceKeys (value : Json) : Except Error (List String) :=
  match value with
  | .arr items => do
    require (items.length ≤ 64) "resource_keys must be a bounded array"
    let keys ← collectKeys "resource key is invalid" items
    require keys.Nodup "duplicate resource key"
    return sortKeys keys
  | _ => raise "resource_keys must be a bounded array"

/-- The loop over the resources of a policy; `seen` are the keys before. -/
def policyKeys (seen : List String) : List Json → Except Error (List String)
  | [] => .ok seen
  | resource :: rest => do
    require (resource.hasFields ["key", "capacity"] = true)
      "target resource policy resource is malformed"
    match resource.get "key" with
    | .str key => do
      require (isResourceKey key = true) "target resource policy key is invalid"
      require (key ∉ seen) "duplicate target resource policy key"
      let capacity := resource.get "capacity"
      require ((match capacity with | .bool _ => false | c => c.equals 1) = true)
        "target resource policy capacity must be exactly 1"
      policyKeys (seen ++ [key]) rest
    | _ => raise "target resource policy key is invalid"

/-- `_canonical_resource_policy`. -/
def canonicalResourcePolicy (value : Json) : Except Error ResourcePolicy := do
  require (value.hasFields ["schema", "version", "generation", "resources"] = true)
    "target resource policy has unknown or missing fields"
  require ((match value.get "schema" with
      | .str s => s = "remrun.target-resource-policy"
      | _ => false) = true ∧ (value.get "version").equals 1 = true)
    "target resource policy schema/version is unsupported"
  match value.get "generation" with
  | .int generation => do
    require (1 ≤ generation) "target resource policy generation is invalid"
    match value.get "resources" with
    | .arr resources => do
      require (resources ≠ [] ∧ resources.length ≤ 256)
        "target resource policy resources are invalid"
      let keys ← policyKeys [] resources
      let sorted := sortKeys keys
      return ⟨generation, P.policySha256 generation sorted, sorted⟩
    | _ => raise "target resource policy resources are invalid"
  | _ => raise "target resource policy generation is invalid"

/-! ## Policy -/

/-- `_resource_policy_get`. -/
def resourcePolicyGet (db : Ledger) : LedgerResponse :=
  match db.policy with
  | none => .policyAbsent
  | some policy => .policy policy (db.holds.rows ≠ [])

structure InstallBody where
  policyDocument : Json
  suppliedDigest : Json
  expectedGeneration : Json
  expectedDigest : Json

def Json.isNull : Json → Bool
  | .null => true
  | _ => false

def Json.isText (text : String) : Json → Bool
  | .str value => value = text
  | _ => false

/-- `_resource_policy_install`. -/
def resourcePolicyInstall (body : InstallBody) (db : Ledger) :
    Except Error (Ledger × LedgerResponse) := do
  let document ← canonicalResourcePolicy P body.policyDocument
  let supplied ← resourceSha256 body.suppliedDigest "supplied policy digest"
  require (supplied = document.digest) "supplied target resource policy digest mismatch"
  match db.policy with
  | none => do
    require (body.expectedGeneration.isNull = true ∧ body.expectedDigest.isNull = true)
      "first target resource policy install must expect no policy"
    require (document.generation = 1)
      "first target resource policy generation must be generation 1"
    return ({ db with policy := some document },
      .installed document.generation document.digest false)
  | some current =>
    if document = current then
      return (db, .installed document.generation document.digest true)
    else do
      require (document.generation ≠ current.generation)
        "target resource policy generation has conflicting content"
      require (body.expectedGeneration.equals current.generation = true ∧
          body.expectedDigest.isText current.digest = true)
        "target resource policy expected head mismatch"
      require (document.generation = current.generation + 1)
        "target resource policy generation must advance by exactly one"
      require (db.holds.rows = [])
        "target resource policy cannot change while holds are active"
      return ({ db with policy := some document },
        .installed document.generation document.digest false)

/-- `_require_resource_policy`: the keys of the policy the caller names. -/
def requireResourcePolicy (db : Ledger) (generation : Json) (digest : String) :
    Except Error (List String) :=
  match db.policy with
  | none => raise "target resource policy is not installed"
  | some policy => do
    require (generation.equals policy.generation = true ∧ digest = policy.digest)
      "target resource policy identity mismatch"
    return policy.resources

/-! ## The reconciliation sweep -/

/-- `_allocation`. -/
def Ledger.allocation (db : Ledger) (allocationId : String) : Option Allocation :=
  db.allocations.lookup fun a => a.allocationId = allocationId

/-- `_allocation` followed by `assert row is not None`. -/
def Ledger.reread (db : Ledger) (allocationId : String) : Except Error Allocation :=
  match db.allocation allocationId with
  | some row => .ok row
  | none => .error .assertionError

def Allocation.terminal (state : AllocationState) (reason : String) (a : Allocation) :
    Allocation :=
  { a with state := state, terminalReason := some reason }

/-- `_terminalize_resource`. -/
def terminalizeResource (db : Ledger) (allocationId : String) (state : AllocationState)
    (reason : String) : Ledger :=
  { db with
    holds := db.holds.delete fun h => h.allocationId = allocationId
    allocations := db.allocations.update (fun a => a.allocationId = allocationId)
      (Allocation.terminal state reason) fun _ _ => ⟨id, id⟩ }

/-- `UPDATE … SET state='QUARANTINED' … WHERE allocation_id=? AND state='CLAIMED'`. -/
def quarantineResource (db : Ledger) (allocationId reason : String) : Ledger :=
  { db with
    allocations := db.allocations.update
      (fun a => a.allocationId = allocationId ∧ a.state = .claimed)
      (Allocation.terminal .quarantined reason) fun _ _ => ⟨id, id⟩ }

/-- The boot an allocation in its current state belongs to. -/
def Allocation.activeBoot (a : Allocation) : Option String :=
  if a.state = .claimed ∨ a.state = .quarantined then a.claimBootId else some a.reservationBootId

/-- The loop body of `_reconcile_resources`, on a row read before the loop. -/
def reconcileRow (r : LedgerReadings) (db : Ledger) (row : Allocation) : Except Error Ledger :=
  if row.activeBoot ≠ some r.bootId then
    return terminalizeResource db row.allocationId .rebooted "target_rebooted"
  else if row.state = .reserved ∧ row.expiresMonoNs ≤ r.monoNs then
    return terminalizeResource db row.allocationId .expired "reservation_expired"
  else if row.state = .claimed ∨ row.state = .quarantined then do
    let allocation ← db.reread row.allocationId
    match r.cleanup allocation.allocationId allocation.owner with
    | .gone => return terminalizeResource db row.allocationId .released "process_tree_exited"
    | .unknown =>
      if row.state = .claimed then
        return quarantineResource db row.allocationId "process_cleanup_unverified"
      else return db
    | .live => return db
  else return db

/-- `_reconcile_resources`. -/
def reconcileResources (r : LedgerReadings) (db : Ledger) : Except Error Ledger :=
  (db.allocations.select fun a => a.state.live).foldlM (reconcileRow r) db

/-! ## Controller RPCs -/

structure ReserveBody where
  allocationId : Json
  operationId : Json
  requestSha256 : Json
  resourceKeys : Json
  expectedPolicyGeneration : Json
  expectedPolicyDigest : Json

/-- Inserting one hold for each key. -/
def insertHolds (allocationId : String) (fence : Int) :
    List String → Table Hold Hold.Clash → Except Error (Table Hold Hold.Clash)
  | [], holds => .ok holds
  | key :: rest, holds => do
    let holds ← inserted (holds.insert ⟨key, allocationId, fence⟩)
    insertHolds allocationId fence rest holds

/-- `isinstance(value, int) and not isinstance(value, bool)`. -/
def requireInt (value : Json) (message : String) : Except Error Int :=
  match value with
  | .int n => .ok n
  | _ => raise message

/-- The policy check of a reservation. -/
def reservePolicy (db : Ledger) (keys : List String) (generation : Int) (digest : String) :
    Except Error Unit :=
  if keys ≠ [] then do
    let known ← requireResourcePolicy db (.int generation) digest
    let unknown := keys.filter fun key => ¬ known.contains key
    require (unknown = []) ("resource key is absent from target policy: " ++
      ", ".intercalate unknown)
  else
    require (generation = 0 ∧ digest = emptyResourcePolicyDigest)
      "resource-free operation must use the empty policy identity"

/-- `_resource_reserve`. -/
def resourceReserve (body : ReserveBody) (r : LedgerReadings) (db : Ledger) :
    Except Error (Ledger × LedgerResponse) := do
  let allocationId ← boundedResourceText body.allocationId "allocation_id" 200
  let operationId ← boundedResourceText body.operationId "operation_id" 200
  let requestSha ← resourceSha256 body.requestSha256 "request_sha256"
  let keys ← resourceKeys body.resourceKeys
  let generation ← requireInt body.expectedPolicyGeneration "expected policy generation is invalid"
  let digest ← resourceSha256 body.expectedPolicyDigest "expected policy digest"
  let db ← reconcileResources r db
  reservePolicy db keys generation digest
  let specSha := P.specSha256 allocationId operationId requestSha keys generation digest
  match db.allocation allocationId with
  | some prior => do
    require (prior.allocationSpecSha256 = specSha)
      "allocation_id reused with different immutable fields"
    return (db, .allocationExists ⟨prior, r.bootId⟩)
  | none => do
    let busy := sortKeys ((db.holds.select fun h => keys.contains h.resourceKey).map
      Hold.resourceKey)
    if busy ≠ [] then
      return (db, .resourceBusy busy)
    else do
      let lastFence := db.lastFence.getD 0
      require (lastFence < maxResourceFence) "target resource fence exhausted"
      let fence := lastFence + 1
      let row : Allocation := {
        allocationId := allocationId, operationId := operationId, requestSha256 := requestSha,
        allocationSpecSha256 := specSha, resourceKeys := keys, policyGeneration := generation,
        policyDigest := digest, fence := fence, tokenSha256 := P.tokenSha256 r.token,
        state := .reserved, reservationBootId := r.bootId, reservedMonoNs := r.monoNs,
        expiresMonoNs := r.monoNs + reservationNs, claimBootId := none, claimedMonoNs := none,
        owner := none, userPid := none, userStartId := none, commandStartState := .no,
        terminalReason := none }
      let allocations ← inserted (db.allocations.insert row)
      let holds ← insertHolds allocationId fence keys db.holds
      return ({ db with lastFence := some fence, allocations := allocations, holds := holds },
        .reserved r.token ⟨row, r.bootId⟩)

/-- The credential of every operation on an existing allocation. -/
structure ResourceAuth where
  allocationId : Json
  token : Json
  fence : Json

/-- `_resource_auth`. -/
def resourceAuth (body : ResourceAuth) (requireFence : Bool) (db : Ledger) :
    Except Error Allocation := do
  let allocationId ← boundedResourceText body.allocationId "allocation_id" 200
  match db.allocation allocationId with
  | none => raise "target resource allocation is absent"
  | some row =>
    match body.token with
    | .str token => do
      require (token ≠ "" ∧ token.length ≤ 256) "target resource token is invalid"
      require (P.tokenSha256 token = row.tokenSha256) "target resource token mismatch"
      if requireFence then do
        let fence ← requireInt body.fence "target resource fence mismatch"
        require (fence = row.fence) "target resource fence mismatch"
        return row
      else return row
    | _ => raise "target resource token is invalid"

/-- The policy check of a renewal and of a claim: the identity the caller names is the empty
one of a resource-free allocation, or the installed one. -/
def heldPolicy (db : Ledger) (row : Allocation) (generation : Json) (digest message : String) :
    Except Error Unit :=
  if generation.equals 0 ∧ digest = emptyResourcePolicyDigest then
    require (row.resourceKeys = []) message
  else do
    let _ ← requireResourcePolicy db generation digest
    return ()

structure RenewBody where
  auth : ResourceAuth
  expectedPolicyGeneration : Json
  expectedPolicyDigest : Json

def Allocation.renewed (expires : Int) (a : Allocation) : Allocation :=
  { a with expiresMonoNs := expires }

/-- `_resource_renew`. -/
def resourceRenew (body : RenewBody) (r : LedgerReadings) (db : Ledger) :
    Except Error (Ledger × LedgerResponse) := do
  let row ← resourceAuth P body.auth true db
  let db ← reconcileResources r db
  let row ← db.reread row.allocationId
  let digest ← resourceSha256 body.expectedPolicyDigest "expected policy digest"
  heldPolicy db row body.expectedPolicyGeneration digest
    "resource-free renewal has a non-empty key set"
  if row.state ≠ .reserved then
    return (db, .status ⟨row, r.bootId⟩)
  else do
    let db : Ledger := { db with
      allocations := db.allocations.update
        (fun a => a.allocationId = row.allocationId ∧ a.state = .reserved)
        (Allocation.renewed (r.monoNs + reservationNs)) fun _ _ => ⟨id, id⟩ }
    let row ← db.reread row.allocationId
    return (db, .status ⟨row, r.bootId⟩)

/-- The last statements of `_resource_cancel`. -/
def cancelRow (row : Allocation) (r : LedgerReadings) (db : Ledger) :
    Except Error (Ledger × LedgerResponse) := do
  let db := terminalizeResource db row.allocationId .cancelled "controller_cancelled"
  let row ← db.reread row.allocationId
  return (db, .status ⟨row, r.bootId⟩)

/-- `_resource_cancel`. -/
def resourceCancel (body : ResourceAuth) (r : LedgerReadings) (db : Ledger) :
    Except Error (Ledger × LedgerResponse) := do
  let row ← resourceAuth P body true db
  let db ← reconcileResources r db
  let row ← db.reread row.allocationId
  match row.state with
  | .cancelled | .released | .expired | .rebooted => return (db, .status ⟨row, r.bootId⟩)
  | .claimed =>
    if terminateResourceOwner r then cancelRow row r db
    else do
      let db := quarantineResource db row.allocationId "cancel_cleanup_unverified"
      let blocked ← db.reread row.allocationId
      return (db, .couldNotStop ⟨blocked, r.bootId⟩)
  | .quarantined =>
    if terminateResourceOwner r then cancelRow row r db
    else do
      let blocked ← db.reread row.allocationId
      return (db, .couldNotStop ⟨blocked, r.bootId⟩)
  | .reserved => cancelRow row r db

/-- `_resource_status`. -/
def resourceStatus (body : ResourceAuth) (r : LedgerReadings) (db : Ledger) :
    Except Error (Ledger × LedgerResponse) := do
  let row ← resourceAuth P body false db
  let db ← reconcileResources r db
  let current ← db.reread row.allocationId
  return (db, .found ⟨current, r.bootId⟩)

/-! ## Owner transitions -/

structure ClaimBody where
  auth : ResourceAuth
  policyGeneration : Json
  policyDigest : Json

def Allocation.claimed (r : LedgerReadings) (owner : Owner) (a : Allocation) : Allocation :=
  { a with
    state := .claimed, claimBootId := some r.bootId, claimedMonoNs := some r.monoNs,
    owner := some owner, commandStartState := .no }

def ownerKinds : List String :=
  ["posix_pgid_v1", "posix_pgid", "windows_job_v1", "windows_job_v2"]

/-- The checks of an owner identity. -/
def checkOwner (owner : Owner) : Except Error Unit := do
  require (owner.kind ∈ ownerKinds) "target owner kind is unsupported"
  require (1 ≤ owner.pid ∧ 1 ≤ owner.rootPid) "target owner PID identity is invalid"
  let _ ← boundedResourceText (.str owner.key) "target owner key" 512
  let _ ← boundedResourceText (.str owner.startId) "target owner start_id" 512
  let _ ← boundedResourceText (.str owner.rootStartId) "target owner root_start_id" 512
  return ()

/-- `_resource_owner_claim`; an expired reservation is terminalized and rolled back by the
error that follows. -/
def resourceOwnerClaim (body : ClaimBody) (owner : Owner) (r : LedgerReadings) (db : Ledger) :
    Except Error (Ledger × LedgerResponse) := do
  let row ← resourceAuth P body.auth true db
  let db ← reconcileResources r db
  let row ← db.reread row.allocationId
  require (row.state = .reserved) "target owner requires a live reserved allocation"
  let digest ← resourceSha256 body.policyDigest "owner policy digest"
  require (body.policyGeneration.equals row.policyGeneration = true ∧ digest = row.policyDigest)
    "target owner policy identity mismatch"
  heldPolicy db row body.policyGeneration digest
    "resource-free target owner has a non-empty key set"
  require (r.monoNs < row.expiresMonoNs)
    "target resource reservation expired before owner claim"
  checkOwner owner
  let db : Ledger := { db with
    allocations := db.allocations.update
      (fun a => a.allocationId = row.allocationId ∧ a.state = .reserved)
      (Allocation.claimed r owner) fun _ _ => ⟨id, id⟩ }
  let claimed ← db.reread row.allocationId
  return (db, .receipt ⟨claimed, r.bootId⟩)

def Allocation.started (state : StartState) (a : Allocation) : Allocation :=
  { a with commandStartState := state }

/-- `_resource_owner_start_state`. -/
def resourceOwnerStartState (body : ResourceAuth) (state : StartState) (explicitNoStart : Bool)
    (r : LedgerReadings) (db : Ledger) : Except Error (Ledger × LedgerResponse) := do
  let row ← resourceAuth P body true db
  require (row.state = .claimed ∧ row.claimBootId = some r.bootId)
    "target resource claim is not current"
  let current := row.commandStartState
  require ((current = .no ∧ state = .maybe) ∨
      (current = .maybe ∧ state = .no ∧ explicitNoStart = true) ∨ current = state)
    ("invalid target owner start transition: " ++ current.text ++ " -> " ++ state.text)
  let db : Ledger := { db with
    allocations := db.allocations.update
      (fun a => a.allocationId = row.allocationId ∧ a.state = .claimed)
      (Allocation.started state) fun _ _ => ⟨id, id⟩ }
  let updated ← db.reread row.allocationId
  return (db, .receipt ⟨updated, r.bootId⟩)

def Allocation.confirmed (userPid : Int) (userStartId : String) (a : Allocation) : Allocation :=
  { a with commandStartState := .yes, userPid := some userPid, userStartId := some userStartId }

/-- `_resource_owner_exec_confirm`. -/
def resourceOwnerExecConfirm (body : ResourceAuth) (userPid : Int) (userStartId : String)
    (r : LedgerReadings) (db : Ledger) : Except Error (Ledger × LedgerResponse) := do
  let row ← resourceAuth P body true db
  require (row.state = .claimed ∧ row.claimBootId = some r.bootId)
    "target resource claim is not current"
  require (row.commandStartState = .maybe) "target resource exec confirmation requires MAYBE"
  require (1 ≤ userPid) "target resource user PID is invalid"
  let _ ← boundedResourceText (.str userStartId) "target resource user start identity" 512
  let db : Ledger := { db with
    allocations := db.allocations.update
      (fun a => a.allocationId = row.allocationId ∧ a.state = .claimed ∧
        a.commandStartState = .maybe)
      (Allocation.confirmed userPid userStartId) fun _ _ => ⟨id, id⟩ }
  let updated ← db.reread row.allocationId
  return (db, .receipt ⟨updated, r.bootId⟩)

/-- `_resource_owner_release`. -/
def resourceOwnerRelease (body : ResourceAuth) (reason : String) (r : LedgerReadings)
    (db : Ledger) : Except Error (Ledger × LedgerResponse) := do
  let row ← resourceAuth P body true db
  require (row.claimBootId = some r.bootId) "target resource claim boot identity mismatch"
  if row.state = .released ∨ row.state = .cancelled then
    return (db, .receipt ⟨row, r.bootId⟩)
  else do
    require (row.state = .claimed ∨ row.state = .quarantined)
      "only a target-owned claim may be released"
    let db := terminalizeResource db row.allocationId .released reason
    let released ← db.reread row.allocationId
    return (db, .receipt ⟨released, r.bootId⟩)

/-- `_resource_owner_quarantine`. -/
def resourceOwnerQuarantine (body : ResourceAuth) (reason : String) (r : LedgerReadings)
    (db : Ledger) : Except Error (Ledger × LedgerResponse) := do
  let row ← resourceAuth P body true db
  require (row.claimBootId = some r.bootId) "target resource claim boot identity mismatch"
  if row.state = .quarantined then
    return (db, .receipt ⟨row, r.bootId⟩)
  else do
    require (row.state = .claimed) "only a current target-owned claim may be quarantined"
    let db := quarantineResource db row.allocationId reason
    let quarantined ← db.reread row.allocationId
    return (db, .receipt ⟨quarantined, r.bootId⟩)

/-- `_resource_owner_finish`. -/
def resourceOwnerFinish (body : ResourceAuth) (r : LedgerReadings) (db : Ledger) :
    Except Error (Ledger × LedgerResponse) := do
  let row ← resourceAuth P body true db
  require (row.claimBootId = some r.bootId) "target resource claim boot identity mismatch"
  if row.state = .released ∨ row.state = .quarantined ∨ row.state = .cancelled then
    return (db, .receipt ⟨row, r.bootId⟩)
  else do
    require (row.state = .claimed) "only a current target-owned claim may finish"
    match r.cleanup row.allocationId row.owner with
    | .gone => resourceOwnerRelease P body "process_tree_exited" r db
    | .live => resourceOwnerQuarantine P body "process_tree_live_after_wrapper_exit" r db
    | .unknown => resourceOwnerQuarantine P body "process_cleanup_unverified" r db

/-! ## Transactions -/

/-- The controller's RPCs and the owner's mutations. -/
inductive LedgerRequest where
  | policyGet
  | policyInstall (body : InstallBody)
  | reserve (body : ReserveBody)
  | renew (body : RenewBody)
  | cancel (body : ResourceAuth)
  | status (body : ResourceAuth)
  | ownerClaim (body : ClaimBody) (owner : Owner)
  | ownerStart (body : ResourceAuth) (state : StartState) (explicitNoStart : Bool)
  | ownerExecConfirm (body : ResourceAuth) (userPid : Int) (userStartId : String)
  | ownerRelease (body : ResourceAuth) (reason : String)
  | ownerQuarantine (body : ResourceAuth) (reason : String)
  | ownerFinish (body : ResourceAuth)
  | ownerStatus (body : ResourceAuth)

def ledgerOperation (request : LedgerRequest) (r : LedgerReadings) (db : Ledger) :
    Except Error (Ledger × LedgerResponse) :=
  match request with
  | .policyGet => .ok (db, resourcePolicyGet db)
  | .policyInstall body => resourcePolicyInstall P body db
  | .reserve body => resourceReserve P body r db
  | .renew body => resourceRenew P body r db
  | .cancel body => resourceCancel P body r db
  | .status body => resourceStatus P body r db
  | .ownerClaim body owner => resourceOwnerClaim P body owner r db
  | .ownerStart body state explicit => resourceOwnerStartState P body state explicit r db
  | .ownerExecConfirm body pid startId => resourceOwnerExecConfirm P body pid startId r db
  | .ownerRelease body reason => resourceOwnerRelease P body reason r db
  | .ownerQuarantine body reason => resourceOwnerQuarantine P body reason r db
  | .ownerFinish body => resourceOwnerFinish P body r db
  | .ownerStatus body => resourceStatus P body r db

/-- The `operation` text of a controller RPC; an owner mutation keeps no replay record. -/
def LedgerRequest.rpcOperation : LedgerRequest → Option String
  | .policyGet => some "target_resource_policy_get"
  | .policyInstall _ => some "target_resource_policy_install"
  | .reserve _ => some "target_resource_reserve"
  | .renew _ => some "target_resource_renew"
  | .cancel _ => some "target_resource_cancel"
  | .status _ => some "target_resource_status"
  | _ => none

structure LedgerCall where
  rpcId : String
  requestSha256 : String
  request : LedgerRequest

/-- `participant_rpc` for the controller's requests, `_resource_owner_mutation` for the
owner's. -/
def ledgerRpc (call : LedgerCall) (r : LedgerReadings) (db : Ledger) :
    Except Error (Ledger × LedgerResponse) :=
  match call.request.rpcOperation with
  | none => ledgerOperation P call.request r db
  | some operation =>
    match db.rpcRequests.lookup fun q => q.rpcId = call.rpcId with
    | some existing => do
      require (existing.operation = operation ∧ existing.requestSha256 = call.requestSha256)
        "rpc_id reused with a different request"
      return (db, existing.response)
    | none => do
      let (db, response) ← ledgerOperation P call.request r db
      let rpcRequests ← inserted (db.rpcRequests.insert
        ⟨call.rpcId, operation, call.requestSha256, response⟩)
      return ({ db with rpcRequests := rpcRequests }, response)

/-- One transaction: an error of any kind rolls it back. -/
def ledgerStep (db : Ledger) (event : LedgerCall × LedgerReadings) : Ledger :=
  committed db (ledgerRpc P event.1 event.2 db)

end Operations

end Remrun.Runner
