import Remrun.Fleet.Transitions

/-!
# Target operations of a batch

The transactions that bind a batch to one operation on its target: the identity that the owner
reserves, the acceptance, the proofs of the cleanup, and the owner's release of a fenced row.
A stored time is never empty, so the checks of a stored text come down to its presence.
-/

namespace Remrun.Fleet

open Keyed Relational
set_option autoImplicit false

variable {τ : Type} [LinearOrder τ]

/-! ## Identity -/

/-- `_valid_target_digest`. -/
def validTargetDigest (text : String) : Bool :=
  text.length = 64 && text.toList.all fun c => c ∈ "0123456789abcdef".toList

/-- The cleanup states that end an operation. -/
def terminalCleanup (cleanupState : String) : Bool :=
  cleanupState ∈ ["RELEASED", "CANCELLED", "EXPIRED", "REBOOTED"]

/-- The operation that a call names. -/
structure Operation where
  operationId : String
  requestSha256 : String
  deriving DecidableEq, Repr

/-- The row carries exactly this operation. -/
def Batch.hasOperation (operation : Operation) (b : Batch τ) : Bool :=
  b.targetOperationId = some operation.operationId &&
    b.targetRequestSha256 = some operation.requestSha256

/-- The live owner's row. -/
def Database.ownedBatch (db : Database τ) (batchId : String) (expectedState : State)
    (ownerToken : String) (now : τ) : Option (Batch τ) :=
  db.batches.lookup (Batch.owned batchId expectedState ownerToken now)

/-- No part of a target identity is recorded. -/
def Batch.unreserved (b : Batch τ) : Bool :=
  b.targetOperationId.isNone && b.targetRequestSha256.isNone && b.targetResumeToken.isNone &&
    b.targetReservedAt.isNone && b.targetAcceptedAt.isNone

def recordTargetReservation (batchId : String) (operation : Operation) (resumeToken : String)
    (expectedState : State) (ownerToken : String) (now : τ) (db : Database τ) :
    Bool × Database τ :=
  if operation.operationId = "" || resumeToken = "" ||
      !validTargetDigest operation.requestSha256 then (false, db)
  else match db.ownedBatch batchId expectedState ownerToken now with
    | none => (false, db)
    | some row =>
      if row.targetOperationId.isSome then
        (row.hasOperation operation && row.targetResumeToken = some resumeToken &&
          row.targetReservedAt.isSome, db)
      else if !row.unreserved then (false, db)
      else (true, db.updateBatches
        (fun b => b.owned batchId expectedState ownerToken now && b.unreserved)
        (fun b => { b with
          targetOperationId := some operation.operationId
          targetRequestSha256 := some operation.requestSha256
          targetResumeToken := some resumeToken
          targetReservedAt := some now
          updatedAt := now }) fun _ => rfl)

def recordTargetAcceptance (batchId : String) (operation : Operation) (expectedState : State)
    (ownerToken : String) (now : τ) (db : Database τ) : Bool × Database τ :=
  match db.ownedBatch batchId expectedState ownerToken now with
  | none => (false, db)
  | some row =>
    if !row.hasOperation operation || row.targetReservedAt.isNone then (false, db)
    else if row.targetAcceptedAt.isSome then (true, db)
    else (true, db.updateBatches
      (fun b => b.owned batchId expectedState ownerToken now && b.hasOperation operation &&
        b.targetReservedAt.isSome && b.targetAcceptedAt.isNone)
      (fun b => { b with targetAcceptedAt := some now, updatedAt := now }) fun _ => rfl)

/-! ## Cleanup -/

/-- No cleanup of the target is recorded. -/
def Batch.uncleaned (b : Batch τ) : Bool :=
  b.targetCleanupState.isNone && b.targetCleanupAt.isNone && b.targetStageCleanedAt.isNone &&
    b.targetDurableCleanedAt.isNone && b.targetFinalizedAt.isNone

def authorizeTargetCleanup (batchId : String) (operation : Operation) (cleanupState : String)
    (expectedState : State) (ownerToken : String) (now : τ) (db : Database τ) :
    Bool × Database τ :=
  if operation.operationId = "" || !validTargetDigest operation.requestSha256 ||
      !terminalCleanup cleanupState then (false, db)
  else match db.ownedBatch batchId expectedState ownerToken now with
    | none => (false, db)
    | some row =>
      if row.targetProtocolVersion ≠ some 1 || !row.hasOperation operation ||
          row.targetReservedAt.isNone || row.targetFinalizedAt.isSome ||
          row.targetFinalizationDisposition = some .fenced ||
          row.targetFinalizationDisposition = some .malformed ||
          row.targetFinalizationDisposition = some .finalized then (false, db)
      else if row.targetCleanupState.isSome || row.targetCleanupAt.isSome then
        (row.targetCleanupState = some cleanupState && row.targetCleanupAt.isSome &&
          row.targetStageCleanedAt.isNone && row.targetDurableCleanedAt.isNone &&
          row.targetFinalizationDisposition = some .pending, db)
      else if row.targetStageCleanedAt.isSome || row.targetDurableCleanedAt.isSome ||
          row.targetFinalizationDisposition.isSome then (false, db)
      else (true, db.updateBatches
        (fun b => b.owned batchId expectedState ownerToken now &&
          b.targetProtocolVersion = some 1 && b.hasOperation operation &&
          b.targetReservedAt.isSome && b.uncleaned && b.targetFinalizationDisposition.isNone)
        (fun b => { b with
          targetCleanupState := some cleanupState
          targetCleanupAt := some now
          targetFinalizationDisposition := some .pending
          updatedAt := now }) fun _ => rfl)

def recordTargetFinalization (batchId : String) (operation : Operation) (cleanupState : String)
    (stageCleaned durableCleaned : Bool) (expectedState : State) (ownerToken : String) (now : τ)
    (db : Database τ) : Bool × Database τ :=
  if !terminalCleanup cleanupState || !stageCleaned || !durableCleaned then (false, db)
  else match db.ownedBatch batchId expectedState ownerToken now with
    | none => (false, db)
    | some row =>
      if !row.hasOperation operation then (false, db)
      else if row.targetCleanupState.isSome && row.targetCleanupState ≠ some cleanupState then
        (false, db)
      else if row.targetFinalizedAt.isSome then
        (row.targetCleanupAt.isSome && row.targetStageCleanedAt.isSome &&
          row.targetDurableCleanedAt.isSome, db)
      else (true, db.updateBatches
        (fun b => b.owned batchId expectedState ownerToken now && b.hasOperation operation &&
          b.targetFinalizedAt.isNone)
        (fun b => { b with
          targetCleanupState := some cleanupState
          targetCleanupAt := b.targetCleanupAt.or (some now)
          targetStageCleanedAt := some now
          targetDurableCleanedAt := some now
          targetFinalizedAt := some now
          targetFinalizationDisposition := some .finalized
          updatedAt := now }) fun _ => rfl)

/-- The proofs that one call of `record_target_cleanup_progress` carries. -/
structure Progress where
  cleanupState : Option String
  stageCleaned : Bool
  durableCleaned : Bool
  replayable : Bool
  ownerRelease : Bool
  deriving DecidableEq, Repr

def recordTargetCleanupProgress (batchId : String) (operation : Operation) (progress : Progress)
    (now : τ) (db : Database τ) : Bool × Database τ :=
  if progress.cleanupState.any (!terminalCleanup ·) then (false, db)
  else if !progress.stageCleaned && !progress.durableCleaned && progress.cleanupState.isNone then
    (false, db)
  else match db.batch batchId with
    | none => (false, db)
    | some row =>
      if row.targetProtocolVersion ≠ some 1 || !row.hasOperation operation then (false, db)
      else if row.targetCleanupState.isSome && progress.cleanupState.isSome &&
          row.targetCleanupState ≠ progress.cleanupState then (false, db)
      else if row.targetFinalizationDisposition = some .malformed then (false, db)
      else if row.targetFinalizationDisposition = some .fenced &&
          (!progress.ownerRelease || row.targetReleaseAuthorizedAt.isNone) then (false, db)
      else
        let disposition := if progress.replayable then some .replayable
          else row.targetFinalizationDisposition.or (some .pending)
        (true, db.updateBatches
          (fun b => b.batchId = batchId && b.targetProtocolVersion = some 1 &&
            b.hasOperation operation)
          (fun b => { b with
            targetCleanupState := progress.cleanupState.or b.targetCleanupState
            targetCleanupAt := if progress.cleanupState.isSome then b.targetCleanupAt.or (some now)
              else b.targetCleanupAt
            targetStageCleanedAt := if progress.stageCleaned then
              b.targetStageCleanedAt.or (some now) else b.targetStageCleanedAt
            targetDurableCleanedAt := if progress.durableCleaned then
              b.targetDurableCleanedAt.or (some now) else b.targetDurableCleanedAt
            targetFinalizationDisposition := disposition
            updatedAt := now }) fun _ => rfl)

/-- The rows that `record_expired_target_finalization` finalizes. -/
def Batch.finalizable (batchId : String) (operation : Operation) (cleanupState : String)
    (ownerRelease : Bool) (now : τ) (b : Batch τ) : Bool :=
  b.batchId = batchId && b.targetProtocolVersion = some 1 &&
    (if ownerRelease then b.targetReleaseAuthorizedAt.isSome &&
        b.targetFinalizationDisposition = some .fenced
      else b.leaseUntil < now) &&
    b.hasOperation operation &&
    (b.targetCleanupState.isNone || b.targetCleanupState = some cleanupState)

def recordExpiredTargetFinalization (batchId : String) (operation : Operation)
    (cleanupState : String) (ownerRelease : Bool) (now : τ) (db : Database τ) :
    Bool × Database τ :=
  let finalizable := Batch.finalizable batchId operation cleanupState ownerRelease now
  if !terminalCleanup cleanupState then (false, db)
  else (!(db.batches.select finalizable).isEmpty, db.updateBatches finalizable
    (fun b => { b with
      targetCleanupState := some cleanupState
      targetCleanupAt := b.targetCleanupAt.or (some now)
      targetStageCleanedAt := b.targetStageCleanedAt.or (some now)
      targetDurableCleanedAt := b.targetDurableCleanedAt.or (some now)
      targetFinalizedAt := b.targetFinalizedAt.or (some now)
      targetFinalizationDisposition := some .finalized
      updatedAt := now }) fun _ => rfl)

/-! ## Release by the owner -/

/-- `_authorize_target_release`. -/
def authorizeTargetRelease (operation : Operation) (acknowledgeEffects : Bool) (now : τ)
    (db : Database τ) : Bool × Database τ :=
  if operation.operationId = "" || !validTargetDigest operation.requestSha256 then (false, db)
  else match db.batches.select (Batch.hasOperation operation) with
    | [row] =>
      let jobs := db.jobs.select fun j => j.batchId = some row.batchId
      if row.state ≠ .failed || row.targetProtocolVersion ≠ some 1 ||
          row.targetFinalizedAt.isSome || row.targetFinalizationDisposition ≠ some .fenced then
        (false, db)
      else if jobs.isEmpty ||
          jobs.any (fun j => j.state ≠ .cancelled && j.state ≠ .completionUnknown) then (false, db)
      else (true, db.updateBatches
        (fun b => b.batchId = row.batchId && b.hasOperation operation &&
          b.targetFinalizedAt.isNone && b.targetFinalizationDisposition = some .fenced)
        (fun b => { b with
          targetReleaseAuthorizedAt := b.targetReleaseAuthorizedAt.or (some now)
          targetReleaseEffectsAcknowledgedAt := if acknowledgeEffects then
            b.targetReleaseEffectsAcknowledgedAt.or (some now)
            else b.targetReleaseEffectsAcknowledgedAt
          updatedAt := now }) fun _ => rfl)
    | _ => (false, db)

def authorizeTargetReleaseNoStart (operation : Operation) (now : τ) (db : Database τ) :
    Bool × Database τ := authorizeTargetRelease operation false now db

def acknowledgeTargetReleaseEffects (operation : Operation) (now : τ) (db : Database τ) :
    Bool × Database τ := authorizeTargetRelease operation true now db

end Remrun.Fleet
