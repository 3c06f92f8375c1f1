import Mathlib.Logic.Function.Basic
import Remrun.Fleet.Transitions

/-!
# Submissions of the fleet queue

`enqueue_submission`, `save_submission_plan` and `enqueue_saved_plan`, with the tables of
receipts, plans and refusals. What the contract modules compute of a record, a spec or a plan is
a parameter: checks, content ids and canonical texts.
-/

namespace Remrun.Fleet.Submissions

open Keyed Relational
set_option autoImplicit false

/-! ## Prepared work -/

inductive Kind where
  | task
  | command
  deriving DecidableEq, Repr

/-- The part of a prepared record that the queue reads. -/
structure Prepared where
  kind : Kind
  preparedId : String
  specId : String
  workId : String
  stems : List String
  forceDevice : Option String
  allowFallback : Bool
  rootOverride : Option String
  deriving DecidableEq

structure Plan (Spec : Type) where
  spec : Spec
  prepared : List Prepared
  priority : Int

/-- What `json.loads` and the check of the shape make of `plan_json`. -/
inductive Loaded (Spec : Type) where
  | malformed
  | unsupported
  | plan (plan : Plan Spec)

/-- `prepared.py` and `task_contract.py`; a check returns the message that it raises. -/
structure Contract (Spec : Type) where
  validatePreparedJob : Prepared → Option String
  validatePreparedAgainstSpec : Prepared → Spec → Option String
  /-- `spec.get("spec_id")`, and the id of the remaining fields -/
  specId : Spec → Option String
  contentId : Spec → String
  canonicalSpec : Spec → PreparedSpec
  rawCommandSpec : PreparedSpec
  /-- of the spec id, the prepared ids, the priority and the resolved keys -/
  fingerprint : String → List String → Int → List String → String
  refusalKey : String → Option String → String → String
  canonicalPlan : Plan Spec → String
  planDigest : Plan Spec → String
  loads : String → Loaded Spec

/-! ## Rows -/

section Rows
variable {τ : Type}

structure Submission (τ : Type) where
  submissionId : String
  requestId : Option String
  planId : Option String
  fingerprint : String
  createdAt : τ
  deriving DecidableEq

/-- The primary key and the two unique columns; NULL equals nothing. -/
def Submission.Clash (a b : Submission τ) : Prop :=
  a.submissionId = b.submissionId ∨ (a.requestId = b.requestId ∧ a.requestId ≠ none) ∨
    (a.planId = b.planId ∧ a.planId ≠ none)

instance : DecidableRel (Submission.Clash (τ := τ)) := fun a b => by
  unfold Submission.Clash; infer_instance

structure SubmissionJob where
  submissionId : String
  itemIndex : Nat
  jobId : String
  preparedId : String
  deriving DecidableEq

def SubmissionJob.Clash (a b : SubmissionJob) : Prop :=
  a.submissionId = b.submissionId ∧ a.itemIndex = b.itemIndex

instance : DecidableRel SubmissionJob.Clash := fun a b => by
  unfold SubmissionJob.Clash; infer_instance

structure SubmissionPlan (τ : Type) where
  planId : String
  planDigest : String
  planJson : String
  createdAt : τ
  consumedSubmissionId : Option String
  deriving DecidableEq

def SubmissionPlan.Clash (a b : SubmissionPlan τ) : Prop := a.planId = b.planId

instance : DecidableRel (SubmissionPlan.Clash (τ := τ)) := fun a b => by
  unfold SubmissionPlan.Clash; infer_instance

structure SubmissionRefusal (τ : Type) where
  refusalId : String
  planId : String
  requestId : Option String
  fingerprint : String
  reasonCode : String
  createdAt : τ
  deriving DecidableEq

def SubmissionRefusal.Clash (a b : SubmissionRefusal τ) : Prop :=
  a.refusalId = b.refusalId ∨ (a.requestId = b.requestId ∧ a.requestId ≠ none)

instance : DecidableRel (SubmissionRefusal.Clash (τ := τ)) := fun a b => by
  unfold SubmissionRefusal.Clash; infer_instance

/-- The queue with its submission tables; `reservations` takes a stem to the work that owns it. -/
structure Ledger (τ : Type) where
  queue : Database τ
  reservations : Dict (id : String → String) String
  submissions : Table (Submission τ) Submission.Clash
  submissionJobs : Table SubmissionJob SubmissionJob.Clash
  plans : Table (SubmissionPlan τ) SubmissionPlan.Clash
  refusals : Table (SubmissionRefusal τ) SubmissionRefusal.Clash

def Ledger.empty : Ledger τ := ⟨.empty, .empty, .empty, .empty, .empty, .empty⟩

/-! ## Receipts -/

structure Receipt (τ : Type) where
  submissionId : String
  requestId : Option String
  planId : Option String
  jobIds : List String
  preparedIds : List String
  createdAt : τ
  replayed : Bool
  deriving DecidableEq

/-- `SELECT … FROM submission_jobs WHERE submission_id=? ORDER BY item_index`. -/
def Ledger.membership (l : Ledger τ) (submissionId : String) : List SubmissionJob :=
  (l.submissionJobs.select fun m => m.submissionId = submissionId).insertionSort
    fun a b => a.itemIndex ≤ b.itemIndex

/-- The member's job row is there and holds other prepared work. -/
def Ledger.disagrees (l : Ledger τ) (m : SubmissionJob) : Bool :=
  (l.queue.jobs.lookup fun j => j.jobId = m.jobId).any fun j => j.preparedId ≠ some m.preparedId

/-- `_submission_receipt`. -/
def submissionReceipt (row : Submission τ) (replayed : Bool) (l : Ledger τ) :
    Except Fault (Receipt τ) :=
  let jobs := l.membership row.submissionId
  if jobs = [] ∨ jobs.map SubmissionJob.itemIndex ≠ List.range jobs.length then
    .error (.queueMigrationError
      ("submission " ++ row.submissionId ++ " has incomplete durable membership"))
  else if jobs.any l.disagrees then
    .error (.queueMigrationError ("submission " ++ row.submissionId ++
      " membership identity disagrees with its job row"))
  else .ok
    { submissionId := row.submissionId
      requestId := row.requestId
      planId := row.planId
      jobIds := jobs.map SubmissionJob.jobId
      preparedIds := jobs.map SubmissionJob.preparedId
      createdAt := row.createdAt
      replayed }

/-! ## Refusals -/

/-- The closed refusal document. -/
structure Refusal where
  schema : String
  version : Nat
  status : String
  reason : String
  planId : String
  requestId : Option String
  fingerprint : String
  deriving DecidableEq, Repr

/-- `_TASK_SPEC_DRIFT`. -/
def taskSpecDrift : String := "task_spec_drift"

/-- The document of a refusal under this identity. -/
def Refusal.of (planId : String) (requestId : Option String) (fingerprint : String) : Refusal :=
  ⟨"remrun.fleet.submission-refusal", 1, "refused", taskSpecDrift, planId, requestId, fingerprint⟩

/-- `_refusal_document`. -/
def SubmissionRefusal.document (row : SubmissionRefusal τ) : Except Fault Refusal :=
  if row.reasonCode ≠ taskSpecDrift then
    .error (.queueMigrationError "durable submission refusal has an unknown reason")
  else .ok (.of row.planId row.requestId row.fingerprint)

/-- The row carries the identity. -/
def SubmissionRefusal.names (row : SubmissionRefusal τ) (planId requestId : Option String)
    (fingerprint : String) : Bool :=
  some row.planId = planId && row.requestId = requestId && row.fingerprint = fingerprint

def identityDisagrees : Fault :=
  .queueMigrationError "durable submission refusal identity disagrees"

def requestRebound : Fault :=
  .queueMigrationError "request identity already names a different durable refusal"

section Refusals
variable {Spec : Type} (c : Contract Spec)

/-- `_find_submission_refusal`. -/
def findSubmissionRefusal (planId : String) (requestId : Option String) (fingerprint : String)
    (l : Ledger τ) : Except Fault (Option Refusal) :=
  match l.refusals.lookup fun r => r.refusalId = c.refusalKey planId requestId fingerprint with
  | none => .ok none
  | some row =>
    if !row.names (some planId) requestId fingerprint then .error identityDisagrees
    else row.document.map some

/-- `_find_submission_refusal_by_request`. -/
def findSubmissionRefusalByRequest (planId : Option String) (requestId fingerprint : String)
    (l : Ledger τ) : Except Fault (Option Refusal) :=
  match l.refusals.lookup fun r => r.requestId = some requestId with
  | none => .ok none
  | some row =>
    if !row.names planId (some requestId) fingerprint then .error requestRebound
    else if row.refusalId ≠ c.refusalKey row.planId (some requestId) fingerprint then
      .error identityDisagrees
    else row.document.map some

/-- `_record_submission_refusal`. What the lookups miss, the insertion does not find either: the
transaction holds the write lock, and an integrity error is raised again. -/
def recordSubmissionRefusal (planId : String) (requestId : Option String) (fingerprint : String)
    (now : τ) (l : Ledger τ) : Except Fault (Refusal × Ledger τ) :=
  let refusalId := c.refusalKey planId requestId fingerprint
  match l.refusals.lookup fun r => r.refusalId = refusalId with
  | some row =>
    if !row.names (some planId) requestId fingerprint then .error identityDisagrees
    else row.document.map (·, l)
  | none =>
    match requestId.bind fun requestId => l.refusals.lookup fun r => r.requestId = some requestId with
    | some row =>
      if row.names (some planId) requestId fingerprint then row.document.map (·, l)
      else .error requestRebound
    | none => do
      let row := ⟨refusalId, planId, requestId, fingerprint, taskSpecDrift, now⟩
      let refusals ← checked (l.refusals.insert row)
      let document ← row.document
      return (document, { l with refusals })

end Refusals

/-! ## The checks before the transaction -/

/-- The ids that `uuid4` gives to one call. -/
structure Fresh where
  jobId : Nat → String
  submissionId : String

/-- The arguments of `enqueue_submission`. -/
structure SubmissionCall (Spec τ : Type) where
  preparedRecords : List Prepared
  spec : Option Spec
  priority : Int
  idempotencyKeys : Option (List (Option String))
  now : τ
  jobIds : Option (List (Option String))
  /-- `callable(current_spec_id)` -/
  callable : Bool
  requestId : Option String
  planId : Option String
  submissionId : Option String
  fresh : Fresh

/-- A record with its resolved idempotency key and its job id. -/
structure Item where
  prepared : Prepared
  key : String
  jobId : String

/-- What `enqueue_submission` takes into its transaction. -/
structure Admission (τ : Type) where
  kind : Kind
  specId : String
  spec : PreparedSpec
  items : List Item
  requestId : Option String
  planId : Option String
  submissionId : String
  fingerprint : String
  now : τ

def resolvedKey (kind : Kind) (prepared : Prepared) : Option String → String
  | some requested => requested
  | none => match kind with
    | .task => prepared.preparedId
    | .command => ""

/-- A character that `str.strip` removes. -/
def isSpace (char : Char) : Bool :=
  (9 ≤ char.toNat && char.toNat ≤ 13) || (28 ≤ char.toNat && char.toNat ≤ 32) ||
    (0x2000 ≤ char.toNat && char.toNat ≤ 0x200A) ||
    char.toNat ∈ [0x85, 0xA0, 0x1680, 0x2028, 0x2029, 0x202F, 0x205F, 0x3000]

/-- A request id that `enqueue_submission` takes. -/
def requestToken (requestId : String) : Bool :=
  let chars := requestId.toList
  chars ≠ [] && !chars.head?.any isSpace && !chars.getLast?.any isSpace && Char.ofNat 0 ∉ chars &&
    chars.length ≤ 200

/-- The text of the value error, if there is one. -/
def refuse : Option String → Except Fault Unit
  | some message => .error (.valueError message)
  | none => .ok ()

/-- A value error under a condition. -/
def refuseIf (condition : Prop) [Decidable condition] (message : String) : Except Fault Unit :=
  if condition then .error (.valueError message) else .ok ()

section Checks
variable {Spec : Type} (c : Contract Spec)

/-- `_submission_fingerprint`. -/
def submissionFingerprint (kind : Kind) (preparedRecords : List Prepared) (specId : String)
    (priority : Int) (idempotencyKeys : List (Option String)) : String :=
  c.fingerprint specId (preparedRecords.map Prepared.preparedId) priority
    (preparedRecords.zipWith (resolvedKey kind) idempotencyKeys)

/-- The canonical spec of a submission of this kind. -/
def specBlob (call : SubmissionCall Spec τ) (kind : Kind) (specId : String) :
    Except Fault PreparedSpec :=
  match kind, call.spec with
  | .task, spec =>
    if !call.callable then .error (.valueError
      "configured prepared enqueue requires a live definition authority callable")
    else match spec with
      | none => .error (.valueError "prepared task requires its exact resolved spec")
      | some spec => do
        refuseIf (c.specId spec ≠ some specId) "prepared task requires its exact resolved spec"
        refuse (call.preparedRecords.findSome? fun prepared =>
          c.validatePreparedAgainstSpec prepared spec)
        refuseIf (c.contentId spec ≠ specId) "resolved spec_id does not match canonical spec bytes"
        return c.canonicalSpec spec
  | .command, some _ =>
    .error (.valueError "raw command does not accept a configured task spec")
  | .command, none => .ok c.rawCommandSpec

/-- `enqueue_submission` up to `BEGIN IMMEDIATE`. -/
def prepareSubmission (call : SubmissionCall Spec τ) : Except Fault (Admission τ) := do
  match call.preparedRecords with
  | [] => throw (.valueError "prepared enqueue requires at least one record")
  | first :: rest =>
    refuseIf (call.requestId.any fun requestId => !requestToken requestId)
      "request_id must be 1-200 non-whitespace-surrounded characters"
    refuseIf (call.planId.any fun planId => planId = "" || 200 < planId.length)
      "plan_id must be a non-empty token"
    refuse ((first :: rest).findSome? c.validatePreparedJob)
    refuseIf (rest.any fun prepared =>
        prepared.kind ≠ first.kind || prepared.specId ≠ first.specId)
      "one prepared enqueue must share one kind and spec_id"
    let spec ← specBlob c call first.kind first.specId
    let records := first :: rest
    let keys := call.idempotencyKeys.getD (List.replicate records.length none)
    let jobIds := call.jobIds.getD (List.replicate records.length none)
    refuseIf (keys.length ≠ records.length ∨ jobIds.length ≠ records.length)
      "prepared enqueue metadata length mismatch"
    let allocated := jobIds.zipIdx.map fun (jobId, index) =>
      if truthy jobId then jobId.getD "" else call.fresh.jobId index
    return {
      kind := first.kind
      specId := first.specId
      spec
      items := (records.zip ((records.zipWith (resolvedKey first.kind) keys).zip allocated)).map
        fun (prepared, key, jobId) => ⟨prepared, key, jobId⟩
      requestId := call.requestId
      planId := call.planId
      submissionId := if truthy call.submissionId then call.submissionId.getD "" else
        call.fresh.submissionId
      fingerprint := submissionFingerprint c first.kind records first.specId call.priority keys
      now := call.now }

end Checks

/-! ## The transaction -/

/-- What `current_spec_id()` does. -/
inductive Live where
  | answers (specId : Option String)
  | raises (fault : Fault)

def Live.read : Live → Except Fault (Option String)
  | .answers specId => .ok specId
  | .raises fault => .error fault

/-- The row of `prepared_specs`, which is stored once. -/
def storeSpec (specId : String) (spec : PreparedSpec) (queue : Database τ) :
    Except Fault (Database τ) :=
  match queue.specs.get specId with
  | some stored =>
    if stored.canonicalJson ≠ spec.canonicalJson then
      .error (.queueMigrationError
        ("prepared spec " ++ specId ++ " exists with different canonical bytes"))
    else .ok queue
  | none => .ok { queue with specs := queue.specs.set specId spec }

/-- Reserves one output stem for the work. -/
def reserveStem (workId stem : String) (reservations : Dict (id : String → String) String) :
    Except Fault (Dict (id : String → String) String) :=
  match reservations.get stem with
  | some owner =>
    if owner ≠ workId then .error (.valueError
      ("output reservation collision for '" ++ stem ++ "' with different work"))
    else .ok reservations
  | none => .ok (reservations.set stem workId)

def reserveStems (workId : String) : List String → Dict (id : String → String) String →
    Except Fault (Dict (id : String → String) String)
  | [], reservations => .ok reservations
  | stem :: rest, reservations => do
    let reservations ← reserveStem workId stem reservations
    reserveStems workId rest reservations

/-- The stems and the job of one record. -/
def enqueueItem (specId : String) (now : τ) (item : Item) (l : Ledger τ) :
    Except Fault (String × Ledger τ) := do
  let reservations ← reserveStems item.prepared.workId item.prepared.stems l.reservations
  let (jobId, queue) ← enqueueRecord specId now
    ⟨item.jobId, item.prepared.preparedId, item.prepared.forceDevice, item.key⟩ l.queue
  return (jobId, { l with queue, reservations })

/-- The accepted jobs, each with its record. -/
def enqueueItems (specId : String) (now : τ) :
    List Item → Ledger τ → Except Fault (List (String × Prepared) × Ledger τ)
  | [], l => .ok ([], l)
  | item :: rest, l => do
    let (jobId, l) ← enqueueItem specId now item l
    let (jobs, l) ← enqueueItems specId now rest l
    return ((jobId, item.prepared) :: jobs, l)

def insertMembers (submissionId : String) : Nat → List (String × Prepared) →
    Table SubmissionJob SubmissionJob.Clash → Except Fault (Table SubmissionJob SubmissionJob.Clash)
  | _, [], members => .ok members
  | index, (jobId, prepared) :: rest, members => do
    let members ← checked (members.insert ⟨submissionId, index, jobId, prepared.preparedId⟩)
    insertMembers submissionId (index + 1) rest members

/-- A plan that no submission has consumed. -/
def SubmissionPlan.unconsumed (planId : String) (plan : SubmissionPlan τ) : Bool :=
  plan.planId = planId && plan.consumedSubmissionId.isNone

def SubmissionPlan.consume (submissionId : String) (plan : SubmissionPlan τ) : SubmissionPlan τ :=
  { plan with consumedSubmissionId := some submissionId }

theorem keeps_consume (submissionId : String) :
    Table.Keeps SubmissionPlan.Clash (SubmissionPlan.consume (τ := τ) submissionId) :=
  fun _ _ => ⟨id, id⟩

/-- `UPDATE submission_plans SET consumed_submission_id=? …`. -/
def consumePlan (submissionId planId : String) (l : Ledger τ) : Except Fault (Ledger τ) :=
  if (l.plans.select (SubmissionPlan.unconsumed planId)).length ≠ 1 then
    .error (.valueError "saved plan is missing or already consumed inconsistently")
  else .ok { l with
    plans := l.plans.update (SubmissionPlan.unconsumed planId) (SubmissionPlan.consume submissionId)
      (keeps_consume submissionId) }

def Admission.row (a : Admission τ) : Submission τ :=
  ⟨a.submissionId, a.requestId, a.planId, a.fingerprint, a.now⟩

/-- The plan of the submission, if it has one, is consumed. -/
def Admission.consume (a : Admission τ) (l : Ledger τ) : Except Fault (Ledger τ) :=
  match a.planId with
  | none => .ok l
  | some planId => consumePlan a.submissionId planId l

/-- The rows of a new submission. -/
def acceptSubmission (a : Admission τ) (l : Ledger τ) :
    Except Fault (Receipt τ × List (String × Prepared) × Ledger τ) := do
  let queue ← storeSpec a.specId a.spec l.queue
  let (jobs, l) ← enqueueItems a.specId a.now a.items { l with queue }
  let submissions ← checked (l.submissions.insert a.row)
  let submissionJobs ← insertMembers a.submissionId 0 jobs l.submissionJobs
  let l ← a.consume { l with submissions, submissionJobs }
  let receipt ← submissionReceipt a.row false l
  return (receipt, jobs, l)

/-- The submission that the plan names, or else the request. -/
def Admission.existing (a : Admission τ) (l : Ledger τ) : Option (Submission τ) :=
  (a.planId.bind fun planId => l.submissions.lookup fun s => s.planId = some planId).or
    (a.requestId.bind fun requestId => l.submissions.lookup fun s => s.requestId = some requestId)

/-- The receipt of an existing submission. -/
def replaySubmission (a : Admission τ) (refusal : Option Refusal) (row : Submission τ)
    (l : Ledger τ) : Except Fault (Receipt τ) :=
  if refusal.isSome then .error (.queueMigrationError
    "request identity exists as both accepted submission and durable refusal")
  else if a.planId.isSome && row.planId ≠ a.planId then
    .error (.valueError "request and plan identities do not name the same submission")
  else if a.requestId.isSome && row.requestId ≠ a.requestId then
    .error (.valueError "request and plan identities do not name the same submission")
  else if row.fingerprint ≠ a.fingerprint then .error (.valueError
    "request or plan identity already names a different prepared submission")
  else submissionReceipt row true l

/-- What the transaction comes to: a receipt with the jobs that it accepts, or a refusal. -/
inductive Verdict (τ : Type) where
  | receipt (receipt : Receipt τ) (accepted : List (String × Prepared))
  | refused (document : Refusal)

section Transaction
variable {Spec : Type} (c : Contract Spec)

/-- The refusal under the request id of the call. -/
def refusalByRequest (a : Admission τ) (l : Ledger τ) : Except Fault (Option Refusal) :=
  match a.requestId with
  | none => .ok none
  | some requestId => findSubmissionRefusalByRequest c a.planId requestId a.fingerprint l

/-- The refusal that is stored under the exact identity of the call. -/
def storedRefusal (a : Admission τ) (refusal : Option Refusal) (l : Ledger τ) :
    Except Fault (Option Refusal) :=
  match refusal, a.planId with
  | none, some planId => findSubmissionRefusal c planId a.requestId a.fingerprint l
  | refusal, _ => .ok refusal

/-- The live definition fence; a refused plan is recorded. -/
def consultDefinition (a : Admission τ) (live : Live) (l : Ledger τ) :
    Except Fault (Option Refusal × Ledger τ) :=
  match a.kind with
  | .command => .ok (none, l)
  | .task => do
    let liveId ← live.read
    if liveId = some a.specId then return (none, l)
    match a.planId with
    | none => throw (.valueError
        "task definition changed before atomic enqueue; no job was enqueued")
    | some planId => do
      let (document, l) ← recordSubmissionRefusal c planId a.requestId a.fingerprint a.now l
      return (some document, l)

/-- The transaction of `enqueue_submission`. -/
def enqueueSubmission (a : Admission τ) (live : Live) (l : Ledger τ) :
    Except Fault (Verdict τ × Ledger τ) := do
  let refusal ← refusalByRequest c a l
  match a.existing l with
  | some row =>
    let receipt ← replaySubmission a refusal row l
    return (.receipt receipt [], l)
  | none =>
    let stored ← storedRefusal c a refusal l
    match stored with
    | some document => return (.refused document, l)
    | none =>
      let (refusal, l) ← consultDefinition c a live l
      match refusal with
      | some document => return (.refused document, l)
      | none =>
        let (receipt, accepted, l) ← acceptSubmission a l
        return (.receipt receipt accepted, l)

end Transaction

/-! ## Saved plans -/

section Plans
variable {Spec : Type} (c : Contract Spec)

/-- Why a record may not stand in a saved plan; `none` if it may. -/
def pinnedError (spec : Spec) (prepared : Prepared) : Option String :=
  (c.validatePreparedJob prepared).or <|
    if prepared.kind ≠ .task || !truthy prepared.forceDevice then
      some "saved plan requires every prepared job to have a pinned device"
    else if prepared.allowFallback then some "saved plan may not permit placement fallback"
    else c.validatePreparedAgainstSpec prepared spec

/-- `save_submission_plan` up to `BEGIN IMMEDIATE`, with the id that `uuid4` gives. -/
def preparePlan (planId : String) (plan : Plan Spec) (now : τ) :
    Except Fault (SubmissionPlan τ) := do
  refuseIf (plan.prepared = []) "saved plan requires at least one prepared record"
  refuse (plan.prepared.findSome? (pinnedError c plan.spec))
  refuseIf (1 < (plan.prepared.map Prepared.forceDevice).dedup.length ∧
      plan.prepared.any fun prepared => prepared.rootOverride.isSome)
    ("a multi-device saved plan cannot carry one controller-supplied " ++
      "output-root; use each adapter's configured root and verified return-root instead")
  return ⟨planId, c.planDigest plan, c.canonicalPlan plan, now, none⟩

/-- The transaction of `save_submission_plan`; `live` is `none` if `current_spec_id` is no
callable. -/
def saveSubmissionPlan (specId : Option String) (row : SubmissionPlan τ) (live : Option Live)
    (l : Ledger τ) : Except Fault (Ledger τ) := do
  let changed := Fault.valueError
    "task definition changed before atomic plan save; no plan was saved"
  match live with
  | none => throw changed
  | some live => do
    let liveId ← live.read
    if liveId = specId then
      let plans ← checked (l.plans.insert row)
      return { l with plans }
    else throw changed

structure SavedPlan (Spec τ : Type) where
  planId : String
  planDigest : String
  createdAt : τ
  consumedSubmissionId : Option String
  plan : Plan Spec

/-- Why a record of a stored plan is invalid. -/
def storedError (spec : Spec) (prepared : Prepared) : Option String :=
  (c.validatePreparedJob prepared).or <|
    if prepared.kind ≠ .task || !truthy prepared.forceDevice || prepared.allowFallback then
      some "prepared record is not pinned"
    else c.validatePreparedAgainstSpec prepared spec

/-- `get_submission_plan`. -/
def getSubmissionPlan (planId : String) (l : Ledger τ) : Except Fault (Option (SavedPlan Spec τ)) :=
  let broken := fun problem => Fault.queueMigrationError ("saved plan " ++ planId ++ problem)
  match l.plans.lookup fun plan => plan.planId = planId with
  | none => .ok none
  | some row =>
    match c.loads row.planJson with
    | .malformed => .error (broken " has malformed bytes")
    | .unsupported => .error (broken " has an unsupported shape")
    | .plan plan =>
      if c.planDigest plan ≠ row.planDigest then
        .error (broken " fails its content identity")
      else match plan.prepared.findSome? (storedError c plan.spec) with
        | some message => .error (broken (" is invalid: " ++ message))
        | none => .ok (some ⟨planId, row.planDigest, row.createdAt, row.consumedSubmissionId, plan⟩)

/-- The arguments of `enqueue_saved_plan`. -/
structure SavedPlanCall (τ : Type) where
  planId : String
  requestId : Option String
  callable : Bool
  now : τ
  fresh : Fresh

/-- The call of `enqueue_submission` in `enqueue_saved_plan`. -/
def SavedPlanCall.submission (call : SavedPlanCall τ) (plan : Plan Spec) : SubmissionCall Spec τ where
  preparedRecords := plan.prepared
  spec := some plan.spec
  priority := plan.priority
  idempotencyKeys := none
  now := call.now
  jobIds := none
  callable := call.callable
  requestId := call.requestId
  planId := some call.planId
  submissionId := none
  fresh := call.fresh

/-- The fingerprint of the submission of a saved plan. -/
def planFingerprint (plan : Plan Spec) : String :=
  match plan.prepared with
  | [] => submissionFingerprint c .task [] "" plan.priority []
  | first :: rest => submissionFingerprint c first.kind (first :: rest) first.specId plan.priority
      (List.replicate (first :: rest).length none)

end Plans

/-! ## Calls of several controllers -/

/-- Under which a caller repeats a call. -/
structure Identity where
  planId : Option String
  requestId : Option String
  fingerprint : String
  deriving DecidableEq

def Admission.identity (a : Admission τ) : Identity := ⟨a.planId, a.requestId, a.fingerprint⟩

/-- How a call ends. -/
inductive Reply (τ : Type) where
  | receipt (identity : Identity) (receipt : Receipt τ)
  | refusal (identity : Identity) (document : Refusal)
  | raised (fault : Fault)
  | saved (planId : String)
  deriving DecidableEq

/-- The call raised. -/
def Reply.fails : Reply τ → Bool
  | .refusal _ _ => true
  | .raised _ => true
  | _ => false

inductive Call (Spec τ : Type) where
  | enqueueSubmission (call : SubmissionCall Spec τ)
  | enqueueSavedPlan (call : SavedPlanCall τ)
  | saveSubmissionPlan (planId : String) (plan : Plan Spec) (callable : Bool) (now : τ)

/-- A call between two accesses to the database. -/
inductive Stage (τ : Type) where
  /-- before `BEGIN IMMEDIATE` -/
  | submitting (a : Admission τ)
  | saving (specId : Option String) (row : SubmissionPlan τ) (callable : Bool)
  /-- before the two reads of `get_submission` -/
  | findingSubmission (call : SavedPlanCall τ)
  | readingReceipt (call : SavedPlanCall τ) (row : Submission τ)
  /-- before the read of `get_submission_plan` -/
  | readingPlan (call : SavedPlanCall τ) (existing : Option (Receipt τ))

/-- Where an access leaves a call. -/
inductive Outcome (τ : Type) where
  | next (stage : Stage τ)
  | ended (reply : Reply τ) (accepted : List (String × Prepared)) (l : Ledger τ)

section Calls
variable {Spec : Type} (c : Contract Spec)

/-- The checks of a call before its first access. -/
def Call.start : Call Spec τ → Except Fault (Stage τ)
  | .enqueueSubmission call => (prepareSubmission c call).map .submitting
  | .enqueueSavedPlan call => .ok (.findingSubmission call)
  | .saveSubmissionPlan planId plan callable now =>
    (preparePlan c planId plan now).map (.saving (c.specId plan.spec) · callable)

/-- `enqueue_saved_plan` from the plan it has read. -/
def enqueueSavedPlan (call : SavedPlanCall τ) (existing : Option (Receipt τ))
    (saved : Option (SavedPlan Spec τ)) (l : Ledger τ) : Except Fault (Outcome τ) :=
  match saved with
  | none => .error (.valueError ("unknown saved plan '" ++ call.planId ++ "'"))
  | some saved =>
    match existing with
    | none => (prepareSubmission c (call.submission saved.plan)).map fun a => .next (.submitting a)
    | some receipt =>
      if saved.consumedSubmissionId ≠ some receipt.submissionId then
        .error (.queueMigrationError
          ("saved plan " ++ call.planId ++ " disagrees with its accepted submission"))
      else if call.requestId.isSome && call.requestId ≠ receipt.requestId then
        .error (.valueError "saved plan replay cannot change its caller request identity")
      else .ok (.ended
        (.receipt ⟨some call.planId, call.requestId, planFingerprint c saved.plan⟩ receipt) [] l)

/-- One access of a call; `live` is what the task definition is just then. -/
def Stage.access (stage : Stage τ) (live : Live) (l : Ledger τ) : Except Fault (Outcome τ) :=
  match stage with
  | .submitting a => do
    let (verdict, l) ← Submissions.enqueueSubmission c a live l
    match verdict with
    | .receipt receipt accepted => return .ended (.receipt a.identity receipt) accepted l
    | .refused document => return .ended (.refusal a.identity document) [] l
  | .saving specId row callable => do
    let l ← Submissions.saveSubmissionPlan specId row (if callable then some live else none) l
    return .ended (.saved row.planId) [] l
  | .findingSubmission call =>
    match l.submissions.lookup fun s => s.planId = some call.planId with
    | none => .ok (.next (.readingPlan call none))
    | some row => .ok (.next (.readingReceipt call row))
  | .readingReceipt call row => do
    let receipt ← submissionReceipt row true l
    return .next (.readingPlan call (some receipt))
  | .readingPlan call existing => do
    let saved ← getSubmissionPlan c call.planId l
    Submissions.enqueueSavedPlan c call existing saved l

end Calls

/-- The ledger, the calls under way, and what all calls so far have replied and accepted. -/
structure System (ι τ : Type) where
  ledger : Ledger τ
  pending : ι → Option (Stage τ)
  log : List (Reply τ)
  accepted : List (String × Prepared)

/-- An empty queue without calls. -/
def System.initial {ι : Type} : System ι τ := ⟨.empty, fun _ => none, [], []⟩

inductive Action (ι Spec τ : Type) where
  | start (p : ι) (call : Call Spec τ)
  | access (p : ι) (live : Live)
  /-- the controller crashes, or the call gets no lock on the database -/
  | abort (p : ι)
  /-- what the dispatchers, owners and operators make of the other tables -/
  | dispatch (queue : Database τ)

section Step
variable {ι Spec : Type} [DecidableEq ι] (c : Contract Spec)

def System.setPending (s : System ι τ) (p : ι) (stage : Option (Stage τ)) : System ι τ :=
  { s with pending := Function.update s.pending p stage }

def System.reply (s : System ι τ) (p : ι) (reply : Reply τ) : System ι τ :=
  { s.setPending p none with log := s.log ++ [reply] }

/-- One step of the controllers. A reply stands in the log also if the response is lost. -/
def step (s : System ι τ) : Action ι Spec τ → System ι τ
  | .start p call =>
    match s.pending p, call.start c with
    | none, .ok stage => s.setPending p (some stage)
    | none, .error fault => s.reply p (.raised fault)
    | some _, _ => s
  | .access p live =>
    match s.pending p with
    | none => s
    | some stage =>
      match stage.access c live s.ledger with
      | .ok (.next stage) => s.setPending p (some stage)
      | .ok (.ended reply accepted ledger) =>
        { s.reply p reply with ledger, accepted := s.accepted ++ accepted }
      | .error fault => s.reply p (.raised fault)
  | .abort p => s.setPending p none
  | .dispatch queue =>
    { s with ledger := { s.ledger with queue := { queue with specs := s.ledger.queue.specs } } }

end Step

end Rows

end Remrun.Fleet.Submissions
