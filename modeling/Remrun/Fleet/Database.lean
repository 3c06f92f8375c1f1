import Remrun.Lib.Dict
import Remrun.Lib.Table

/-!
# The tables of the fleet queue

The rows of `queue.py` that decide which worker runs which job: jobs, batches and resource
leases. A timestamp is an element of a linear order; the queue only compares the texts.
-/

namespace Remrun.Fleet

open Keyed Relational
set_option autoImplicit false

/-! ## States -/

/-- The texts under `state`, of a job or of a batch. -/
inductive State where
  | queued
  | leased
  | staging
  | running
  | fetching
  | cancelling
  | done
  | failed
  | failedFinal
  | needsReview
  | cancelled
  | completionUnknown
  | other (name : String)
  deriving DecidableEq, Repr

namespace State

/-- `_FINAL`. -/
def final : State → Bool
  | .done => true
  | .failedFinal => true
  | .needsReview => true
  | .cancelled => true
  | _ => false

/-- `_PRUNABLE`. -/
def prunable : State → Bool
  | .done => true
  | .failedFinal => true
  | _ => false

/-- `_BATCH_EXECUTING`. -/
def executing : State → Bool
  | .leased => true
  | .staging => true
  | .running => true
  | .fetching => true
  | _ => false

/-- `_BATCH_ACTIVE`. -/
def active (state : State) : Bool := state.executing || state = .cancelling

/-- `IN ('done','failed')`. -/
def terminal : State → Bool
  | .done => true
  | .failed => true
  | _ => false

end State

/-- `_FINALIZATION_DISPOSITIONS`, and any other text. -/
inductive Disposition where
  | pending
  | replayable
  | fenced
  | finalized
  | malformed
  | reconcile
  | unsupported (name : String)
  deriving DecidableEq, Repr

def Disposition.supported : Disposition → Bool
  | .unsupported _ => false
  | _ => true

/-- The replay policy that `_batch_replay_policy` finds in a frozen spec. -/
inductive ReplayPolicy where
  | atMostOnce
  | idempotent
  deriving DecidableEq, Repr

/-- Python truthiness of an optional text. -/
def truthy : Option String → Bool
  | some text => text ≠ ""
  | none => false

/-! ## Rows -/

section Rows
variable {τ : Type}

structure Job (τ : Type) where
  jobId : String
  preparedId : Option String
  specId : Option String
  forceDevice : Option String
  idempotencyKey : Option String
  state : State
  attempts : Nat
  leasedUntil : Option τ
  assignedDevice : Option String
  batchId : Option String
  updatedAt : τ
  lastError : Option String
  outputManifest : Option String
  excludeDevices : Option String
  lastResult : Option String
  deriving DecidableEq

/-- The key of a row in `ux_jobs_active_idem`. -/
def Job.activeKey (j : Job τ) : Option String :=
  if truthy j.idempotencyKey && !j.state.final then j.idempotencyKey else none

/-- The primary key, and the unique index of the active idempotency keys. -/
def Job.Clash (a b : Job τ) : Prop :=
  a.jobId = b.jobId ∨ (a.activeKey = b.activeKey ∧ a.activeKey ≠ none)

instance : DecidableRel (Job.Clash (τ := τ)) := fun a b => by
  unfold Job.Clash; infer_instance

/-- One worker invocation. No statement reads `pool`, the resource pool it was claimed with. -/
structure Batch (τ : Type) where
  batchId : String
  ownerToken : Option String
  state : State
  device : String
  leaseUntil : τ
  heartbeatAt : Option τ
  updatedAt : τ
  error : Option String
  targetProtocolVersion : Option Int
  targetOperationId : Option String
  targetRequestSha256 : Option String
  targetResumeToken : Option String
  targetReservedAt : Option τ
  targetAcceptedAt : Option τ
  targetCleanupState : Option String
  targetCleanupAt : Option τ
  targetStageCleanedAt : Option τ
  targetDurableCleanedAt : Option τ
  targetFinalizedAt : Option τ
  targetFinalizationDisposition : Option Disposition
  targetReleaseAuthorizedAt : Option τ
  targetReleaseEffectsAcknowledgedAt : Option τ
  pool : Option String
  deriving DecidableEq

def Batch.Clash (a b : Batch τ) : Prop := a.batchId = b.batchId

instance : DecidableRel (Batch.Clash (τ := τ)) := fun a b => by
  unfold Batch.Clash; infer_instance

structure ResourceLease (τ : Type) where
  device : String
  pool : String
  batchId : String
  leaseUntil : τ
  deriving DecidableEq

def ResourceLease.Clash (a b : ResourceLease τ) : Prop := a.device = b.device ∧ a.pool = b.pool

instance : DecidableRel (ResourceLease.Clash (τ := τ)) := fun a b => by
  unfold ResourceLease.Clash; infer_instance

structure PreparedSpec where
  canonicalJson : String
  replay : ReplayPolicy
  deriving DecidableEq

/-- The queue. `observations` are the batches with a profile observation. -/
structure Database (τ : Type) where
  jobs : Table (Job τ) Job.Clash
  batches : Table (Batch τ) Batch.Clash
  leases : Table (ResourceLease τ) ResourceLease.Clash
  observations : Table String Eq
  specs : Dict (id : String → String) PreparedSpec

/-- A queue without rows. -/
def Database.empty : Database τ := ⟨.empty, .empty, .empty, .empty, .empty⟩

/-! ## Statements -/

/-- What a transaction raises; it is rolled back whichever it is. -/
inductive Fault where
  | integrityError
  | valueError (message : String)
  | queueMigrationError (message : String)
  deriving DecidableEq, Repr

/-- The outcome of a statement that a constraint may refuse. -/
def checked {α : Type} (t : Option α) : Except Fault α :=
  match t with
  | some t => .ok t
  | none => .error .integrityError

theorem checked_eq_ok {α : Type} {o : Option α} {a : α} : checked o = .ok a ↔ o = some a := by
  cases o <;> simp [checked]

theorem keeps_batch {f : Batch τ → Batch τ} (hf : ∀ b, (f b).batchId = b.batchId) :
    Table.Keeps Batch.Clash f := by
  intro a b
  unfold Batch.Clash
  rw [hf a, hf b]
  exact ⟨id, id⟩

theorem keeps_lease {f : ResourceLease τ → ResourceLease τ}
    (hf : ∀ l, (f l).device = l.device ∧ (f l).pool = l.pool) :
    Table.Keeps ResourceLease.Clash f := by
  intro a b
  unfold ResourceLease.Clash
  rw [(hf a).1, (hf a).2, (hf b).1, (hf b).2]
  exact ⟨id, id⟩

namespace Database

variable (db : Database τ)

def updateBatches (p : Batch τ → Bool) (f : Batch τ → Batch τ)
    (hf : ∀ b, (f b).batchId = b.batchId) : Database τ :=
  { db with batches := db.batches.update p f (keeps_batch hf) }

def updateJobs (p : Job τ → Bool) (f : Job τ → Job τ) : Except Fault (Database τ) := do
  let jobs ← checked (db.jobs.updateChecked p f)
  return { db with jobs }

/-- `DELETE FROM resource_leases WHERE batch_id=?`. -/
def releaseLeases (batchId : String) : Database τ :=
  { db with leases := db.leases.delete fun l => l.batchId = batchId }

/-- The row of a batch. -/
def batch (batchId : String) : Option (Batch τ) := db.batches.lookup fun b => b.batchId = batchId

end Database

end Rows

end Remrun.Fleet
