import Remrun.Lib.JsonText
import Remrun.Lib.Transition
import Remrun.Runner.Participant
import Remrun.Runner.Resources

/-!
# The RPCs of one state root

`runner_rpc` on the controller, `participant_rpc` on the target, and behind it the two
replay tables: `authority_rpc_requests` of the authority store and `rpc_requests` of the
participant store, which the grant operations and the resource ledger share.
-/

namespace Remrun.Runner

open Relational JsonText
set_option autoImplicit false

universe u

/-! ## Requests -/

/-- The store whose replay table records an operation. -/
inductive Side where
  | authority
  | target
  deriving DecidableEq, Repr

/-- What a request asks for, as the handler of its operation reads the body. -/
inductive Operation where
  | authorityInit (clusterId : String) (leaseSeconds : Int)
  | authorityProbe (clusterId : String)
  | authority (clusterId : String) (request : AuthorityRequest)
  | probe
  | touch
  | grant (request : ParticipantRequest)
  | resource (request : LedgerRequest) (name : String) (rpc : request.rpcOperation = some name)

def Operation.name : Operation → String
  | .authorityInit _ _ => "authority_init"
  | .authorityProbe _ => "authority_probe"
  | .authority _ request => request.operation
  | .probe => "participant_probe"
  | .touch => "participant_touch"
  | .grant request => request.operation
  | .resource _ name _ => name

/-- `participant_rpc` hands an operation named `authority_…` to `authority_rpc`. -/
def Operation.side : Operation → Side
  | .authorityInit _ _ | .authorityProbe _ | .authority _ _ => .authority
  | .probe | .touch | .grant _ | .resource _ _ _ => .target

/-- The header of a request frame. -/
structure Header where
  v : Int
  kind : String
  protocol : Int
  rpcId : String
  operation : String
  requestSha256 : String
  deriving DecidableEq, Repr

def runnerProtocols : List Int := [1]

/-- The response of a recorded target operation; the echo is kept as its text. -/
inductive TargetResponse where
  | probe (deviceId runnerSourceSha256 : String)
  | touched (rpcId : String) (echo : List Char)
  | grant (response : ParticipantResponse)
  | resource (response : LedgerResponse)
  deriving DecidableEq, Repr

section Values
variable {F : Type u}

/-- `value.get(name)`. -/
def member (name : String) : Value F → Option (Value F)
  | .obj members => members.lookup name
  | _ => none

def textMember (name : String) (value : Value F) : Option String :=
  match member name value with
  | some (.str text) => some text
  | _ => none

end Values

/-- How requests and responses travel: JSON texts, the digest of a text, the handlers'
reading of a request and the document made out for a response. -/
structure Wire (F : Type u) where
  floats : FloatText F
  faithful : floats.Faithful
  /-- `hashlib.sha256(text).hexdigest()` -/
  sha256 : List Char → String
  decode : Value F → Option Operation
  named : ∀ request operation, decode request = some operation →
    textMember "operation" request = some operation.name
  authorityDocument : Response → Value F
  authorityProper : ∀ response, (authorityDocument response).Proper
  targetDocument : TargetResponse → Value F
  targetProper : ∀ response, (targetDocument response).Proper

/-- A wire whose one number is NaN and whose one operation is `participant_touch`. -/
example : Nonempty (Wire Unit) :=
  ⟨{ floats := ⟨fun _ => nanName, fun _ => ()⟩
     faithful := ⟨fun _ => Or.inl List.mem_cons_self, fun _ => rfl⟩
     sha256 := String.ofList
     decode := fun request =>
       if textMember "operation" request = some "participant_touch" then some .touch else none
     named := by
       intro request operation h
       split at h
       · rename_i htouch
         cases h
         exact htouch
       · cases h
     authorityDocument := fun _ => .null
     authorityProper := fun _ => .null
     targetDocument := fun _ => .null
     targetProper := fun _ => .null }⟩

section Wires
variable {F : Type u} (W : Wire F)

/-- `hashlib.sha256(canonical_json(request)).hexdigest()`. -/
def Wire.digest (request : Value F) : String := W.sha256 (dumps W.floats request)

/-- `{"operation": operation, "body": body or {}}`. -/
def clientRequest (operation : String) (body : Option (List (String × Value F))) : Value F :=
  .obj [("operation", .str operation), ("body", .obj (body.getD []))]

/-- The request text of `runner_rpc`. -/
def Wire.clientText (operation : String) (body : Option (List (String × Value F))) : List Char :=
  dumps W.floats (clientRequest operation body)

/-- The header of `runner_rpc`. -/
def Wire.clientHeader (operation : String) (body : Option (List (String × Value F)))
    (rpcId : String) : Header where
  v := 2
  kind := "rpc-request"
  protocol := 1
  rpcId := rpcId
  operation := operation
  requestSha256 := W.sha256 (W.clientText operation body)

/-- The checks of `participant_rpc` before it opens a store. -/
def Wire.checkHeader (header : Header) (request : Value F) : Except Error Unit := do
  require (header.v = 2 ∧ header.kind = "rpc-request") "not a versioned RPC request"
  require (header.protocol ∈ runnerProtocols)
    ("unsupported runner protocol: " ++ toString header.protocol)
  require (header.rpcId ≠ "" ∧ W.digest request = header.requestSha256)
    "RPC identity/digest mismatch"
  require (textMember "operation" request = some header.operation) "RPC operation mismatch"

/-- The operation of a request that passes the checks. -/
def Wire.receive (header : Header) (request : Value F) : Option Operation :=
  match W.checkHeader header request with
  | .ok _ => W.decode request
  | .error _ => none

/-- The target operation of a request that passes the checks. -/
def Wire.receiveTarget (header : Header) (request : Value F) : Option Operation :=
  (W.receive header request).filter fun operation => operation.side = .target

/-- The text of a reply: a replayed document is read back from its row before it is written. -/
def Wire.reply (document : Value F) (replayed : Bool) : Option (List Char) :=
  if replayed then (loads W.floats (dumps W.floats document)).map (dumps W.floats)
  else some (dumps W.floats document)

end Wires

/-! ## The state root -/

/-- The stores of a state root, and the authority calls that have read `authority_meta` and
not yet begun their transaction. The target's operations share `records`; the record columns
of its two halves stay empty. -/
structure StateRoot where
  authority : Option Authority
  participant : Participant
  ledger : Ledger
  records : Table (RpcRecord TargetResponse) RpcRecord.Clash
  inFlight : List (AuthorityCall × Meta)

def StateRoot.init (deviceId : String) : StateRoot where
  authority := none
  participant := Participant.init deviceId
  ledger := Ledger.init
  records := .empty
  inFlight := []

structure TargetReadings where
  now : Int
  runnerSourceSha256 : String
  ledger : LedgerReadings

/-- `open_authority_store` with `create`. -/
def createAuthority (clusterId deviceId : String) (leaseSeconds : Int) :
    Option Authority → Option Authority
  | some db => some db
  | none =>
    if clusterId ≠ "" ∧ deviceId ≠ "" ∧ 1 ≤ leaseSeconds ∧ leaseSeconds ≤ 86400 then
      some (Authority.init clusterId deviceId leaseSeconds)
    else none

/-- A successful reply of a recorded operation. -/
structure Answer where
  side : Side
  rpcId : String
  operation : String
  requestSha256 : String
  text : List Char
  deriving DecidableEq, Repr

/-- The identity of a call: its table, its id, and what it asks for. -/
structure Attempt where
  side : Side
  rpcId : String
  operation : String
  requestSha256 : String
  deriving DecidableEq, Repr

def Answer.attempt (a : Answer) : Attempt := ⟨a.side, a.rpcId, a.operation, a.requestSha256⟩

inductive RpcEvent (F : Type u) where
  /-- A frame reaches the target; a call to the authority opens its store. -/
  | deliver (header : Header) (request : Value F)
  /-- The authority call at this position runs its transaction. -/
  | commit (position : Nat) (r : Readings)
  /-- It fails before the commit; a key file it wrote stays. -/
  | dies (position : Nat) (r : Readings) (wrote : Bool)
  /-- A frame for a target operation runs its transaction; a crash rolls it back. -/
  | target (header : Header) (request : Value F) (r : TargetReadings)
  /-- A mutation of the detached owner process. -/
  | owner (request : LedgerRequest) (r : LedgerReadings)
  | keyImport (enrollment : Enrollment)

section Transactions
variable {F : Type u} (W : Wire F) (P : Prims) (L : LedgerPrims)

/-- The reply of an authority transaction. -/
def Wire.authorityAnswer (call : AuthorityCall) (info : Meta) (r : Readings) (db : Authority) :
    Option Answer :=
  match authorityTransaction P call info r db with
  | .ok (_, response) =>
    (W.reply (W.authorityDocument response)
      (db.rpcRequests.lookup fun q => q.rpcId = call.rpcId).isSome).map fun text =>
        ⟨.authority, call.rpcId, call.request.operation, call.requestSha256, text⟩
  | .error _ => none

/-- The operation of a target request, inside its transaction. -/
def StateRoot.perform (s : StateRoot) (operation : Operation) (rpcId : String)
    (request : Value F) (r : TargetReadings) : Except Error (StateRoot × TargetResponse) :=
  match operation with
  | .probe => .ok (s, .probe s.participant.deviceId r.runnerSourceSha256)
  | .touch =>
    .ok (s, .touched rpcId (dumps W.floats ((member "body" request).getD (.obj []))))
  | .grant q => do
    let (participant, response) ← participantOperation P q r.now s.participant
    return ({ s with participant := participant }, .grant response)
  | .resource q _ _ => do
    let (ledger, response) ← ledgerOperation L q r.ledger s.ledger
    return ({ s with ledger := ledger }, .resource response)
  | _ => raise "unknown participant RPC operation"

/-- The `BEGIN IMMEDIATE` transaction of `participant_rpc`. -/
def StateRoot.transaction (s : StateRoot) (header : Header) (operation : Operation)
    (request : Value F) (r : TargetReadings) : Except Error (StateRoot × TargetResponse) :=
  match s.records.lookup fun q => q.rpcId = header.rpcId with
  | some existing => do
    require (existing.operation = header.operation ∧
        existing.requestSha256 = header.requestSha256)
      "rpc_id reused with a different request"
    return (s, existing.response)
  | none => do
    let (s', response) ← s.perform W P L operation header.rpcId request r
    let records ← inserted (s'.records.insert
      ⟨header.rpcId, header.operation, header.requestSha256, response⟩)
    return ({ s' with records := records }, response)

/-- The reply of a target transaction. -/
def StateRoot.targetAnswer (s : StateRoot) (header : Header) (operation : Operation)
    (request : Value F) (r : TargetReadings) : Option Answer :=
  match s.transaction W P L header operation request r with
  | .ok (_, response) =>
    (W.reply (W.targetDocument response)
      (s.records.lookup fun q => q.rpcId = header.rpcId).isSome).map fun text =>
        ⟨.target, header.rpcId, header.operation, header.requestSha256, text⟩
  | .error _ => none

/-- A frame arrives: `authority_init` creates the store, any other authority operation opens
it and reads its metadata. -/
def StateRoot.open (s : StateRoot) (header : Header) : Operation → StateRoot
  | .authorityInit clusterId leaseSeconds =>
    { s with
      authority := createAuthority clusterId s.participant.deviceId leaseSeconds s.authority }
  | .authority clusterId request =>
    let call : AuthorityCall :=
      ⟨header.rpcId, header.requestSha256, clusterId, s.participant.deviceId, request⟩
    match s.authority.map (openAuthorityStore call) with
    | some (.ok info) => { s with inFlight := s.inFlight ++ [(call, info)] }
    | _ => s
  | _ => s

/-- The state after an event. -/
def StateRoot.step (s : StateRoot) : RpcEvent F → StateRoot
  | .deliver header request =>
    match W.receive header request with
    | some operation => s.open header operation
    | none => s
  | .commit position r =>
    match s.inFlight[position]?, s.authority with
    | some (call, info), some db =>
      { s with
        authority := some (committed db (authorityTransaction P call info r db))
        inFlight := s.inFlight.eraseIdx position }
    | _, _ => s
  | .dies position r wrote =>
    match s.inFlight[position]?, s.authority with
    | some (call, info), some db =>
      let keys := if wrote then (committed db (authorityTransaction P call info r db)).keys
        else db.keys
      { s with
        authority := some { db with keys := keys }
        inFlight := s.inFlight.eraseIdx position }
    | _, _ => s
  | .target header request r =>
    match W.receiveTarget header request with
    | some operation => committed s (s.transaction W P L header operation request r)
    | none => s
  | .owner request r =>
    if request.rpcOperation = none then
      { s with ledger := committed s.ledger (ledgerOperation L request r s.ledger) }
    else s
  | .keyImport enrollment =>
    { s with participant := (keyImport P enrollment s.participant).1 }

/-- The successful reply an event sends. -/
def StateRoot.answer (s : StateRoot) : RpcEvent F → Option Answer
  | .commit position r =>
    match s.inFlight[position]?, s.authority with
    | some (call, info), some db => W.authorityAnswer P call info r db
    | _, _ => none
  | .target header request r =>
    match W.receiveTarget header request with
    | some operation => s.targetAnswer W P L header operation request r
    | none => none
  | _ => none

/-- The call an event is an attempt of, successful or not. -/
def StateRoot.attempt (s : StateRoot) : RpcEvent F → Option Attempt
  | .commit position _ | .dies position _ _ =>
    (s.inFlight[position]?).map fun waiting =>
      ⟨.authority, waiting.1.rpcId, waiting.1.request.operation, waiting.1.requestSha256⟩
  | .target header request _ =>
    (W.receiveTarget header request).map fun _ =>
      ⟨.target, header.rpcId, header.operation, header.requestSha256⟩
  | _ => none

/-- The state after a list of events. -/
def StateRoot.run (s : StateRoot) (events : List (RpcEvent F)) : StateRoot :=
  Transition.run (StateRoot.step W P L) s events

end Transactions

end Remrun.Runner
