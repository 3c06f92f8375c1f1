import Mathlib.Data.List.Dedup
import Mathlib.Data.List.Sort
import Mathlib.Data.String.Basic
import Remrun.Fleet.Database

/-!
# The transitions of the fleet queue

One definition for each transaction of `FleetQueue` on the jobs, batches and resource leases.
A transaction returns what the method returns and the new tables, or raises and is rolled back.
-/

namespace Remrun.Fleet

open Keyed Relational
set_option autoImplicit false

variable {τ : Type} [LinearOrder τ]

/-! ## Enqueue -/

/-- What `enqueue_submission` stores of one prepared record, under its resolved key. -/
structure PreparedRecord where
  jobId : String
  preparedId : String
  forceDevice : Option String
  key : String
  deriving DecidableEq

/-- The job of one record: an active one with its key, or a new one. -/
def enqueueRecord (specId : String) (now : τ) (record : PreparedRecord) (db : Database τ) :
    Except Fault (String × Database τ) :=
  match db.jobs.lookup fun j => record.key ≠ "" && j.idempotencyKey = some record.key &&
      !j.state.final with
  | some row =>
    if row.preparedId ≠ some record.preparedId then
      .error (.valueError "idempotency_key collision with different prepared work")
    else .ok (row.jobId, db)
  | none => do
    let jobs ← checked (db.jobs.insert
      { jobId := record.jobId
        preparedId := some record.preparedId
        specId := some specId
        forceDevice := record.forceDevice
        idempotencyKey := some record.key
        state := .queued
        attempts := 0
        leasedUntil := none
        assignedDevice := none
        batchId := none
        updatedAt := now
        lastError := none
        outputManifest := none
        excludeDevices := none
        lastResult := none })
    return (record.jobId, { db with jobs })

def enqueueRecords (specId : String) (now : τ) :
    List PreparedRecord → Database τ → Except Fault (List String × Database τ)
  | [], db => .ok ([], db)
  | record :: rest, db => do
    let (jobId, db) ← enqueueRecord specId now record db
    let (jobIds, db) ← enqueueRecords specId now rest db
    return (jobId :: jobIds, db)

/-- The insertion of the spec and the jobs in `enqueue_submission`. -/
def enqueue (specId : String) (spec : PreparedSpec) (records : List PreparedRecord) (now : τ)
    (db : Database τ) : Except Fault (List String × Database τ) :=
  match db.specs.get specId with
  | some stored =>
    if stored.canonicalJson ≠ spec.canonicalJson then
      .error (.queueMigrationError
        ("prepared spec " ++ specId ++ " exists with different canonical bytes"))
    else enqueueRecords specId now records db
  | none => enqueueRecords specId now records { db with specs := db.specs.set specId spec }

/-! ## Queued jobs -/

/-- `UPDATE jobs … WHERE job_id=? AND state='queued'`. -/
def finishQueued (jobId : String) (state : State) (error : String) (now : τ) (db : Database τ) :
    Except Fault (Bool × Database τ) := do
  let queued := fun j : Job τ => j.jobId = jobId && j.state = .queued
  let db' ← db.updateJobs queued fun j =>
    { j with state, lastError := some error, updatedAt := now }
  return (!(db.jobs.select queued).isEmpty, db')

def finalizeQueued (jobId error : String) (now : τ) (db : Database τ) :
    Except Fault (Bool × Database τ) := finishQueued jobId .failedFinal error now db

def reviewQueued (jobId error : String) (now : τ) (db : Database τ) :
    Except Fault (Bool × Database τ) := finishQueued jobId .needsReview error now db

def cancelQueued (jobId : String) (now : τ) (db : Database τ) :
    Except Fault (Bool × Database τ) := finishQueued jobId .cancelled "cancelled by operator" now db

/-! ## Claims -/

/-- What `current_spec_ids` is: no callable, one that raises or returns no dict, or the live ids. -/
inductive Authority where
  | notCallable
  | unreadable
  | live (specIds : Dict (id : String → String) (Option String))

def Authority.specId : Authority → String → Option String
  | .live specIds, jobId => (specIds.get jobId).join
  | _, _ => none

/-- The arguments of `claim_many`. `integrity` is the error that the checks of the prepared record
and its spec raise, `isTask` says whether its kind is a configured task, and `ownerToken` is the
fresh token. -/
structure Claim (τ : Type) where
  jobIds : List String
  device : String
  batchId : String
  leaseUntil : τ
  pool : Option String
  targetProtocolVersion : Option Int
  integrity : Job τ → Option String
  isTask : Job τ → Bool
  currentSpecIds : Authority
  ownerToken : String

/-- The pool, if it is truthy. -/
def Claim.heldPool (c : Claim τ) : Option String := if truthy c.pool then c.pool else none

/-- The expired lease of the slot is freed; `none` if a live one blocks the claim. -/
def freeSlot (c : Claim τ) (now : τ) (db : Database τ) : Option (Database τ) :=
  match c.heldPool with
  | none => some db
  | some pool =>
    let leases := db.leases.delete fun l =>
      l.device = c.device && l.pool = pool && l.leaseUntil < now
    if (leases.select fun l => l.device = c.device && l.pool = pool).isEmpty then
      some { db with leases }
    else none

/-- Queued rows that do not pass are set aside for review, each with its reason. -/
def reviewRows (now : τ) : List (Job τ × String) → Database τ → Option (Database τ)
  | [], db => some db
  | (row, reason) :: rest, db => do
    let jobs ← db.jobs.updateChecked (fun j => j.jobId = row.jobId && j.state = .queued)
      fun j => { j with state := .needsReview, lastError := some reason, updatedAt := now }
    reviewRows now rest { db with jobs }

/-- The rows that the integrity checks or the live definitions turn down. -/
def Claim.refusals (c : Claim τ) (rows : List (Job τ)) : List (Job τ × String) :=
  let prepared := rows.filter fun j => truthy j.preparedId
  match prepared.findSome? fun j => (c.integrity j).map (j, ·) with
  | some (row, message) => [(row, "prepared_integrity: " ++ message)]
  | none =>
    let configured := prepared.filter c.isTask
    match c.currentSpecIds with
    | .notCallable => configured.map (·, "definition_authority_not_live")
    | .unreadable => (configured.filter fun j => none ≠ j.specId).map
        (·, "definition_authority_unreadable")
    | .live specIds =>
      (configured.filter fun j => (Authority.live specIds).specId j.jobId ≠ j.specId).map fun j =>
        (j, if (Authority.live specIds).specId j.jobId = none then "definition_missing"
          else "definition_changed")

/-- The new batch, its resource lease, and its jobs. -/
def insertClaim (c : Claim τ) (now : τ) (db : Database τ) : Option (Database τ) := do
  let batches ← db.batches.insert
    { batchId := c.batchId
      ownerToken := some c.ownerToken
      state := .leased
      device := c.device
      leaseUntil := c.leaseUntil
      heartbeatAt := some now
      updatedAt := now
      error := none
      targetProtocolVersion := c.targetProtocolVersion
      targetOperationId := none
      targetRequestSha256 := none
      targetResumeToken := none
      targetReservedAt := none
      targetAcceptedAt := none
      targetCleanupState := none
      targetCleanupAt := none
      targetStageCleanedAt := none
      targetDurableCleanedAt := none
      targetFinalizedAt := none
      targetFinalizationDisposition := none
      targetReleaseAuthorizedAt := none
      targetReleaseEffectsAcknowledgedAt := none
      pool := c.heldPool }
  let leases ← match c.heldPool with
    | none => some db.leases
    | some pool => db.leases.insert ⟨c.device, pool, c.batchId, c.leaseUntil⟩
  let jobs ← db.jobs.updateChecked (fun j => j.jobId ∈ c.jobIds) fun j =>
    { j with
      state := .leased
      assignedDevice := some c.device
      batchId := some c.batchId
      leasedUntil := some c.leaseUntil
      attempts := j.attempts + 1
      updatedAt := now }
  return { db with batches, leases, jobs }

/-- The transaction of `claim_many`; `none` is `ROLLBACK`. -/
def claimBody (c : Claim τ) (now : τ) (db : Database τ) : Option (Option String × Database τ) := do
  let db ← freeSlot c now db
  let rows := db.jobs.select fun j => j.jobId ∈ c.jobIds
  if rows.length ≠ c.jobIds.length || rows.any fun j => j.state ≠ .queued then none
  else match c.refusals rows with
    | [] => do
      let db ← insertClaim c now db
      return (some c.ownerToken, db)
    | refused => do
      let db ← reviewRows now refused db
      return (none, db)

def claimMany (c : Claim τ) (now : τ) (db : Database τ) : Option String × Database τ :=
  if c.jobIds = [] || c.leaseUntil ≤ now then (none, db)
  else match claimBody c now db with
    | some result => result
    | none => (none, db)

/-! ## Owner transitions -/

/-- `batch_id=? AND state=? AND owner_token=? AND lease_until>?`. -/
def Batch.owned (batchId : String) (expectedState : State) (ownerToken : String) (now : τ)
    (b : Batch τ) : Bool :=
  b.batchId = batchId && b.state = expectedState && b.ownerToken = some ownerToken &&
    now < b.leaseUntil

/-- `batch_id=? AND state=?`, of a job. -/
def Job.inBatch (batchId : String) (state : State) (j : Job τ) : Bool :=
  j.batchId = some batchId && j.state = state

def setBatchState (batchId : String) (state expectedState : State) (ownerToken : String) (now : τ)
    (db : Database τ) : Except Fault (Bool × Database τ) :=
  if (db.batches.select (Batch.owned batchId expectedState ownerToken now)).isEmpty then
    .ok (false, db)
  else do
    let db := db.updateBatches (Batch.owned batchId expectedState ownerToken now)
      (fun b => { b with state, updatedAt := now }) fun _ => rfl
    let db ← db.updateJobs (Job.inBatch batchId expectedState) fun j =>
      { j with state, updatedAt := now }
    return (true, db)

def heartbeat (batchId : String) (leaseUntil : τ) (expectedState : State) (ownerToken : String)
    (now : τ) (db : Database τ) : Except Fault (Bool × Database τ) :=
  if leaseUntil ≤ now then .ok (false, db)
  else if (db.batches.select (Batch.owned batchId expectedState ownerToken now)).isEmpty then
    .ok (false, db)
  else do
    let db := db.updateBatches (Batch.owned batchId expectedState ownerToken now)
      (fun b => { b with leaseUntil, heartbeatAt := some now, updatedAt := now }) fun _ => rfl
    let leases := db.leases.update (fun l => l.batchId = batchId) (fun l => { l with leaseUntil })
      (keeps_lease fun _ => ⟨rfl, rfl⟩)
    let db ← { db with leases }.updateJobs (Job.inBatch batchId expectedState) fun j =>
      { j with leasedUntil := some leaseUntil }
    return (true, db)

/-- A disposition argument, if it is truthy. -/
def supplied : Option Disposition → Option Disposition
  | some (.unsupported "") => none
  | disposition => disposition

/-- `_terminal_disposition`. -/
def terminalDisposition (db : Database τ) (batchId : String) (argument : Option Disposition)
    (otherwise : Disposition) : Except Fault (Option Disposition) :=
  match db.batch batchId with
  | none => .ok none
  | some row =>
    if row.targetProtocolVersion ≠ some 1 then .ok none
    else
      let disposition := ((supplied argument).or row.targetFinalizationDisposition).getD otherwise
      if !disposition.supported then
        .error (.valueError "unsupported target finalization disposition")
      else if row.targetFinalizationDisposition = some .finalized then .ok (some .finalized)
      else if argument = none ∧ row.targetOperationId = none then .ok (some .finalized)
      else .ok (some disposition)

/-- `_insert_profile_observation`; an observation passes its checks or not. -/
def insertObservation (batchId : String) (observation : Option Bool) (db : Database τ) :
    Except Fault (Database τ) :=
  match observation with
  | none => .ok db
  | some false => .error (.valueError "profile observation has unknown or missing fields")
  | some true => do
    let observations ← checked (db.observations.insert batchId)
    return { db with observations }

/-- What the owner reports with the end of a batch. -/
structure Report where
  resultRecord : Option String
  observation : Option Bool
  finalizationDisposition : Option Disposition

def completeBatch (batchId : String) (expectedState : State) (ownerToken : String)
    (report : Report) (now : τ) (db : Database τ) : Except Fault (Bool × Database τ) := do
  let disposition ← terminalDisposition db batchId report.finalizationDisposition .pending
  if (db.batches.select (Batch.owned batchId expectedState ownerToken now)).isEmpty then
    return (false, db)
  else
    let db := db.updateBatches (Batch.owned batchId expectedState ownerToken now)
      (fun b => { b with
        state := .done
        targetFinalizationDisposition := disposition
        updatedAt := now }) fun _ => rfl
    let db ← db.updateJobs (Job.inBatch batchId expectedState) fun j =>
      { j with
        state := .done
        leasedUntil := none
        lastError := none
        lastResult := report.resultRecord
        updatedAt := now }
    let db ← insertObservation batchId report.observation db
    return (true, db.releaseLeases batchId)

/-! ## Failures -/

/-- The dispositions of a failed item. -/
inductive ItemDisposition where
  | retry
  | elsewhere
  | onceElsewhere
  | review
  | final
  | other (name : String)
  deriving DecidableEq, Repr

def ItemDisposition.isElsewhere : ItemDisposition → Bool
  | .elsewhere => true
  | .onceElsewhere => true
  | _ => false

/-- The names in `exclude_devices`. -/
def excludedDevices (text : Option String) : List String :=
  ((text.getD "").splitOn ",").filter (· ≠ "")

/-- The arguments that all failed items of a call share. -/
structure FailureRules where
  maxAttempts : Int
  clearForceDevice : Bool

/-- The state after a failed item. -/
def failedItemState (row : Job τ) (disposition : ItemDisposition) (rules : FailureRules) : State :=
  let cap := if disposition = .onceElsewhere then min rules.maxAttempts 2 else rules.maxAttempts
  if disposition = .review then .needsReview
  else if disposition = .final ∨ (row.attempts : Int) ≥ cap then .failedFinal
  else if disposition.isElsewhere ∧ truthy row.forceDevice ∧ row.forceDevice = row.assignedDevice ∧
      ¬ rules.clearForceDevice then .failedFinal
  else .queued

/-- `exclude_devices` after a failed item. -/
def failedItemExcludes (row : Job τ) (disposition : ItemDisposition) : Option String :=
  let exclude := excludedDevices row.excludeDevices
  let exclude := match row.assignedDevice with
    | some device =>
      if disposition.isElsewhere && device ≠ "" && device ∉ exclude then exclude ++ [device]
      else exclude
    | none => exclude
  if exclude = [] then none else some (",".intercalate exclude)

/-- `_finish_failed_item`. -/
def finishFailedItem (row : Job τ) (batchId error : String) (disposition : ItemDisposition)
    (record : Option String) (now : τ) (rules : FailureRules) (db : Database τ) :
    Except Fault (Database τ) :=
  let state := failedItemState row disposition rules
  db.updateJobs (fun j => j.jobId = row.jobId && j.batchId = some batchId && j.state.active)
    fun j => { j with
      state
      assignedDevice := if state = .queued then none else row.assignedDevice
      batchId := if state = .queued then none else some batchId
      forceDevice := if state = .queued ∧ rules.clearForceDevice then none else j.forceDevice
      excludeDevices := failedItemExcludes row disposition
      leasedUntil := none
      lastError := some error
      lastResult := record
      updatedAt := now }

/-- The worker results of `complete_batch_items`. -/
structure ItemResults where
  succeeded : Dict (id : String → String) (Option String)
  failed : Dict (id : String → String) String
  dispositions : Dict (id : String → String) ItemDisposition
  results : Dict (id : String → String) String

/-- `failed.get(jid) or "missing item result"`. -/
def ItemResults.error (items : ItemResults) (jobId : String) : String :=
  match items.failed.get jobId with
  | none => "missing item result"
  | some error => if error = "" then "missing item result" else error

/-- Not reported as succeeded, or reported as failed. -/
def ItemResults.fails (items : ItemResults) (jobId : String) : Bool :=
  (items.failed.get jobId).isSome || (items.succeeded.get jobId).isNone

def finishDoneItems (items : ItemResults) (batchId : String) (expectedState : State)
    (resultRecord : Option String) (now : τ) :
    List (Job τ) → Database τ → Except Fault (Database τ)
  | [], db => .ok db
  | row :: rest, db => do
    let db ← db.updateJobs (fun j => j.jobId = row.jobId && j.inBatch batchId expectedState)
      fun j => { j with
        state := .done
        leasedUntil := none
        outputManifest := (items.succeeded.get row.jobId).join
        lastError := none
        lastResult := resultRecord
        updatedAt := now }
    finishDoneItems items batchId expectedState resultRecord now rest db

def finishFailedItems (items : ItemResults) (batchId : String) (now : τ) (rules : FailureRules) :
    List (Job τ) → Database τ → Except Fault (Database τ)
  | [], db => .ok db
  | row :: rest, db => do
    let db ← finishFailedItem row batchId (items.error row.jobId)
      ((items.dispositions.get row.jobId).getD .retry) (items.results.get row.jobId) now rules db
    finishFailedItems items batchId now rules rest db

/-- The error of a batch: its first five failed items. -/
def ItemResults.batchError (items : ItemResults) (failedIds : List String) : Option String :=
  let lines := ((failedIds.insertionSort (· ≤ ·)).take 5).map fun jobId =>
    jobId ++ ": " ++ items.error jobId
  if "; ".intercalate lines = "" then none else some ("; ".intercalate lines)

def completeBatchItems (batchId : String) (items : ItemResults) (expectedState : State)
    (ownerToken : String) (rules : FailureRules) (report : Report) (now : τ) (db : Database τ) :
    Except Fault (Bool × Database τ) := do
  let disposition ← terminalDisposition db batchId report.finalizationDisposition .pending
  if (db.batches.select (Batch.owned batchId expectedState ownerToken now)).isEmpty then
    return (false, db)
  else
    let rows := db.jobs.select (Job.inBatch batchId expectedState)
    if rows.isEmpty then return (false, db)
    else
      let failedRows := rows.filter fun j => items.fails j.jobId
      let db := db.updateBatches (Batch.owned batchId expectedState ownerToken now)
        (fun b => { b with
          state := if failedRows.isEmpty then .done else .failed
          error := items.batchError (failedRows.map Job.jobId)
          targetFinalizationDisposition := disposition
          updatedAt := now }) fun _ => rfl
      let db ← finishDoneItems items batchId expectedState report.resultRecord now
        (rows.filter fun j => !items.fails j.jobId) db
      let db ← finishFailedItems items batchId now rules failedRows db
      let db ← insertObservation batchId report.observation db
      return (true, db.releaseLeases batchId)

/-- `_finish_batch_failure`. -/
def finishBatchFailure (batchId error : String) (now : τ) (rules : FailureRules)
    (resultRecord : Option String) (db : Database τ) : Except Fault (Database τ) := do
  let db ← db.updateJobs (fun j => j.batchId = some batchId && !j.state.final) fun j =>
    let retried := decide ((j.attempts : Int) < rules.maxAttempts)
    { j with
      state := if retried then .queued else .failedFinal
      assignedDevice := if retried then none else j.assignedDevice
      batchId := if retried then none else j.batchId
      forceDevice := if retried && rules.clearForceDevice then none else j.forceDevice
      leasedUntil := none
      lastError := some error
      lastResult := resultRecord
      updatedAt := now }
  return db.releaseLeases batchId

def failBatch (batchId error : String) (expectedState : State) (ownerToken : String)
    (rules : FailureRules) (report : Report) (now : τ) (db : Database τ) :
    Except Fault (Bool × Database τ) := do
  let disposition ← terminalDisposition db batchId report.finalizationDisposition .pending
  if (db.batches.select (Batch.owned batchId expectedState ownerToken now)).isEmpty then
    return (false, db)
  else
    let db := db.updateBatches (Batch.owned batchId expectedState ownerToken now)
      (fun b => { b with
        state := .failed
        error := some error
        targetFinalizationDisposition := disposition
        updatedAt := now }) fun _ => rfl
    let db ← finishBatchFailure batchId error now rules report.resultRecord db
    let db ← insertObservation batchId report.observation db
    return (true, db)

/-- The disposition is an argument of its own here; `None` is not one of the texts. -/
def markCompletionUnknown (batchId error : String) (expectedState : State) (ownerToken : String)
    (resultRecord : Option String) (observation : Option Bool) (disposition : Disposition) (now : τ)
    (db : Database τ) : Except Fault (Bool × Database τ) :=
  if expectedState ≠ .running ∧ expectedState ≠ .fetching then .ok (false, db)
  else if !disposition.supported then .ok (false, db)
  else if (db.batches.select (Batch.owned batchId expectedState ownerToken now)).isEmpty then
    .ok (false, db)
  else do
    let db := db.updateBatches (Batch.owned batchId expectedState ownerToken now)
      (fun b => { b with
        state := .failed
        error := some error
        targetFinalizationDisposition := some disposition
        updatedAt := now }) fun _ => rfl
    let db ← db.updateJobs (Job.inBatch batchId expectedState) fun j =>
      { j with
        state := .completionUnknown
        leasedUntil := none
        lastError := some error
        lastResult := resultRecord
        updatedAt := now }
    let db ← insertObservation batchId observation db
    return (true, db.releaseLeases batchId)

/-- `state IN ('leased','staging','running')`. -/
def State.prelaunch : State → Bool
  | .leased => true
  | .staging => true
  | .running => true
  | _ => false

def revokePrelaunchBatch (batchId ownerToken reason : String)
    (finalizationDisposition : Option Disposition) (now : τ) (db : Database τ) :
    Except Fault (Bool × Database τ) := do
  let disposition ← terminalDisposition db batchId finalizationDisposition .pending
  let revoked := fun b : Batch τ => b.batchId = batchId && b.state.prelaunch &&
    b.ownerToken = some ownerToken && now < b.leaseUntil
  if (db.batches.select revoked).isEmpty then return (false, db)
  else
    let db := db.updateBatches revoked
      (fun b => { b with
        state := .failed
        error := some reason
        targetFinalizationDisposition := disposition
        updatedAt := now }) fun _ => rfl
    let db ← db.updateJobs (fun j => j.batchId = some batchId && j.state.prelaunch) fun j =>
      { j with
        state := .needsReview
        lastError := some reason
        leasedUntil := none
        assignedDevice := none
        updatedAt := now }
    return (true, db.releaseLeases batchId)

def recordRevokedPrelaunchResult (batchId ownerToken resultRecord : String) (now : τ)
    (db : Database τ) : Except Fault (Bool × Database τ) :=
  if (db.batches.select fun b => b.batchId = batchId && b.state = .failed &&
      b.ownerToken = some ownerToken).isEmpty then .ok (false, db)
  else do
    let db' ← db.updateJobs (Job.inBatch batchId .needsReview) fun j =>
      { j with lastResult := some resultRecord, updatedAt := now }
    return (!(db.jobs.select (Job.inBatch batchId .needsReview)).isEmpty, db')

/-! ## Cancellation -/

/-- Two collections of ids have the same members. -/
def sameIds (xs ys : List String) : Bool := xs.all (· ∈ ys) && ys.all (· ∈ xs)

/-- The ids of the executing jobs of a batch. -/
def Database.activeIds (db : Database τ) (batchId : String) : List String :=
  (db.jobs.select fun j => j.batchId = some batchId && j.state.executing).map Job.jobId

def beginActiveCancellation (batchId : String) (jobIds : List String) (now : τ) (db : Database τ) :
    Except Fault (Bool × Database τ) :=
  if jobIds.isEmpty then .ok (false, db)
  else match db.batch batchId with
    | none => .ok (false, db)
    | some batch =>
      if batch.targetProtocolVersion ≠ some 1 ∨ batch.targetCleanupState ≠ none ∨
          batch.targetCleanupAt ≠ none ∨ batch.targetStageCleanedAt ≠ none ∨
          batch.targetDurableCleanedAt ≠ none ∨ batch.targetFinalizedAt ≠ none ∨
          batch.targetFinalizationDisposition = some .finalized then .ok (false, db)
      else if (db.activeIds batchId).isEmpty || !sameIds (db.activeIds batchId) jobIds then
        .ok (false, db)
      else if batch.state = .cancelling then
        .ok (batch.targetFinalizationDisposition = some .fenced, db)
      else if !batch.state.executing then .ok (false, db)
      else
        .ok (true, db.updateBatches (fun b => b.batchId = batchId && b.state = batch.state &&
            b.targetProtocolVersion = some 1)
          (fun b => { b with
            state := .cancelling
            error := some "cancellation requested by operator"
            targetFinalizationDisposition := some .fenced
            updatedAt := now }) fun _ => rfl)

/-- The selected jobs of a cancelled batch come to rest, and its resource lease is released. -/
def closeSelected (batchId : String) (jobIds : List String) (state : State) (error : String)
    (now : τ) (db : Database τ) : Except Fault (Database τ) := do
  let selected := fun j : Job τ =>
    j.batchId = some batchId && j.jobId ∈ jobIds && j.state.executing
  let db' ← db.updateJobs selected fun j =>
    { j with state, leasedUntil := none, lastError := some error, updatedAt := now }
  if (db.jobs.select selected).length ≠ jobIds.dedup.length then
    .error (.queueMigrationError
      ("batch " ++ batchId ++ " cancellation changed incomplete job membership"))
  else return db'.releaseLeases batchId

def markActiveCancellationUnknown (batchId : String) (jobIds : List String) (reason : String)
    (now : τ) (db : Database τ) : Except Fault (Bool × Database τ) :=
  if jobIds.isEmpty || reason = "" then .ok (false, db)
  else match db.batch batchId with
    | none => .ok (false, db)
    | some batch =>
      if batch.state ≠ .cancelling ∨ batch.targetProtocolVersion ≠ some 1 ∨
          batch.targetFinalizationDisposition ≠ some .fenced then .ok (false, db)
      else if !sameIds (db.activeIds batchId) jobIds then .ok (false, db)
      else do
        let db := db.updateBatches (fun b => b.batchId = batchId && b.state = .cancelling)
          (fun b => { b with state := .failed, error := some reason, updatedAt := now }) fun _ => rfl
        let db ← closeSelected batchId jobIds .completionUnknown reason now db
        return (true, db)

def cancelActiveBatch (batchId : String) (jobIds : List String) (cleanupState : String) (now : τ)
    (db : Database τ) : Except Fault (Bool × Database τ) :=
  if jobIds.isEmpty || cleanupState = "" then .ok (false, db)
  else match db.batch batchId with
    | none => .ok (false, db)
    | some batch =>
      if batch.state ≠ .cancelling ∨ batch.targetProtocolVersion ≠ some 1 ∨
          batch.targetFinalizedAt ≠ none ∨
          batch.targetFinalizationDisposition ≠ some .fenced then .ok (false, db)
      else if (db.activeIds batchId).isEmpty || !sameIds (db.activeIds batchId) jobIds then
        .ok (false, db)
      else do
        let db := db.updateBatches (fun b => b.batchId = batchId && b.state = batch.state)
          (fun b => { b with
            state := .failed
            error := some "cancelled by operator"
            targetCleanupState := some cleanupState
            targetCleanupAt := some now
            targetFinalizationDisposition := some .fenced
            updatedAt := now }) fun _ => rfl
        let db ← closeSelected batchId jobIds .cancelled "cancelled by operator" now db
        return (true, db)

def recordFencedCancellation (batchId cleanupState : String) (now : τ) (db : Database τ) :
    Except Fault (Bool × Database τ) :=
  let fenced := fun b : Batch τ => b.batchId = batchId && b.state = .failed &&
    b.targetProtocolVersion = some 1 && b.targetFinalizationDisposition = some .fenced &&
    b.targetFinalizedAt = none
  if cleanupState = "" then .ok (false, db)
  else .ok (!(db.batches.select fenced).isEmpty, db.updateBatches fenced
    (fun b => { b with
      targetCleanupState := some cleanupState
      targetCleanupAt := some now
      updatedAt := now }) fun _ => rfl)

/-! ## Stale recovery -/

/-- `_batch_replay_policy`. -/
def Database.replayPolicy (db : Database τ) (batchId : String) : ReplayPolicy :=
  match db.jobs.lookup fun j => j.batchId = some batchId with
  | none => .atMostOnce
  | some j => match j.specId.bind db.specs.get with
    | none => .atMostOnce
    | some spec => spec.replay

/-- `UPDATE jobs SET state='completion_unknown' …` after an expired lease. -/
def markUnknown (p : Job τ → Bool) (batchId : String) (now : τ) (db : Database τ) :
    Except Fault (Database τ) := do
  let db ← db.updateJobs p fun j =>
    { j with
      state := .completionUnknown
      leasedUntil := none
      lastError := some "completion unknown after lease expiry"
      updatedAt := now }
  return db.releaseLeases batchId

/-- The jobs of a batch that `_expire_batch` has failed. -/
def expireJobs (batchId : String) (state : State) (replaySafe : Option Bool) (maxAttempts : Int)
    (now : τ) (db : Database τ) : Except Fault (Database τ) :=
  let retry := finishBatchFailure batchId "lease expired (stale recovery)" now
    ⟨maxAttempts, false⟩ none db
  match replaySafe with
  | some true => retry
  | some false =>
    markUnknown (fun j => j.batchId = some batchId && !j.state.final) batchId now db
  | none =>
    if state = .leased ∨ state = .staging then retry
    else if db.replayPolicy batchId = .idempotent then retry
    else markUnknown (fun j => j.batchId = some batchId &&
      (j.state = .running || j.state = .fetching)) batchId now db

/-- `_expire_batch`. -/
def expireBatch (batchId : String) (maxAttempts : Int) (replaySafe : Option Bool) (now : τ)
    (db : Database τ) : Except Fault (Bool × Database τ) :=
  match db.batches.lookup fun b => b.batchId = batchId && b.leaseUntil < now with
  | none => .ok (false, db)
  | some row =>
    if !row.state.active then .ok (false, db)
    else if replaySafe = some true ∧ row.targetProtocolVersion = some 1 ∧
        row.targetOperationId ≠ none ∧ row.targetFinalizedAt = none then .ok (false, db)
    else do
      let disposition : Option Disposition :=
        if row.targetProtocolVersion ≠ some 1 then none
        else match replaySafe with
          | some true => some .finalized
          | some false => some .fenced
          | none => some .pending
      let db := db.updateBatches (fun b => b.batchId = batchId && b.state = row.state &&
          b.leaseUntil < now)
        (fun b => { b with
          state := .failed
          error := some "lease expired (stale recovery)"
          targetFinalizationDisposition := disposition.or b.targetFinalizationDisposition
          updatedAt := now }) fun _ => rfl
      let db ← expireJobs batchId row.state replaySafe maxAttempts now db
      return (true, db)

/-- The first statement of `recover_stale`: the expired batches without a target protocol. -/
def staleBatches (jobIds : Option (List String)) (now : τ) (db : Database τ) : List String :=
  (db.batches.select fun b => !b.state.terminal && b.leaseUntil < now &&
    b.targetProtocolVersion = none &&
    match jobIds with
    | none => true
    | some jobIds => !(db.jobs.select fun j => j.jobId ∈ jobIds && j.batchId = some b.batchId).isEmpty)
    |>.map Batch.batchId

/-- The last statement of `recover_stale`. -/
def sweepLeases (now : τ) (db : Database τ) : Database τ :=
  { db with leases := db.leases.delete fun l => l.leaseUntil < now }

/-! ## Removal -/

/-- `protected_target`. -/
def Batch.protectedTarget (b : Batch τ) : Truth :=
  ((Truth.equals b.targetProtocolVersion 1).and
      (some (b.targetFinalizationDisposition ≠ some .finalized))).or
    ((Truth.isNotNull b.targetOperationId).or ((Truth.isNotNull b.targetRequestSha256).or
      ((Truth.isNotNull b.targetResumeToken).or ((Truth.isNotNull b.targetReservedAt).or
        (Truth.isNotNull b.targetAcceptedAt)))))

/-- `protected_target AND target_finalized_at IS NULL`. -/
def Batch.unfinalized (b : Batch τ) : Bool :=
  (b.protectedTarget.and (some b.targetFinalizedAt.isNone)).holds

/-- `NOT protected_target OR target_finalized_at IS NOT NULL`. -/
def Batch.removable (b : Batch τ) : Bool :=
  (b.protectedTarget.not.or (Truth.isNotNull b.targetFinalizedAt)).holds

structure Cleared where
  jobs : Nat
  leases : Nat
  protectedUnfinalized : Nat
  deriving DecidableEq, Repr

def clear (includeFinal : Bool) (db : Database τ) : Cleared × Database τ :=
  let kept := (db.batches.select Batch.unfinalized).map Batch.batchId
  let jobGone := fun j : Job τ => (includeFinal || !j.state.final) &&
    match j.batchId with
    | none => true
    | some batchId => batchId ∉ kept
  let batchGone := fun b : Batch τ => (includeFinal || !b.state.terminal) && b.removable
  let leaseGone := fun l : ResourceLease τ => decide (l.batchId ∉ kept)
  (⟨(db.jobs.select jobGone).length, (db.leases.select leaseGone).length, kept.length⟩,
    { db with
      jobs := db.jobs.delete jobGone
      batches := db.batches.delete batchGone
      leases := db.leases.delete leaseGone })

/-- `rows[keep:]`. -/
def sliceFrom {α : Type} (rows : List α) (keep : Int) : List α :=
  if 0 ≤ keep then rows.drop keep.toNat else rows.drop (rows.length - (-keep).toNat)

/-- The jobs that `prune_final` selects to be removed. -/
def finalVictims (keep : Int) (db : Database τ) : List String :=
  let rows := db.jobs.select fun j => j.state.prunable &&
    match j.batchId with
    | none => true
    | some batchId => match db.batch batchId with
      | none => false
      | some b => b.removable
  (sliceFrom (rows.insertionSort fun a b => b.updatedAt ≤ a.updatedAt) keep).map Job.jobId

/-- The transaction of `prune_final`. -/
def pruneVictims (victims : List String) (db : Database τ) : Database τ :=
  let jobs := db.jobs.delete fun j => j.jobId ∈ victims
  { db with
    jobs
    batches := db.batches.delete fun b => b.state.terminal &&
      (jobs.select fun j => j.batchId = some b.batchId).isEmpty &&
      (db.leases.select fun l => l.batchId = b.batchId).isEmpty && b.removable }

end Remrun.Fleet
