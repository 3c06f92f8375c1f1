import Mathlib.Logic.Function.Basic
import Remrun.Fleet.Targets

/-!
# Calls on the fleet queue

A call takes its timestamp and then runs its transactions: one, or for `recover_stale` and
`prune_final` a selection and what follows from it. Calls of several controllers interleave
between transactions; between the timestamp and the first transaction others may run too.
-/

namespace Remrun.Fleet

open Keyed Relational
set_option autoImplicit false

/-! ## Calls -/

/-- `MAX_ATTEMPTS`. -/
def maxAttempts : Int := 3

inductive Call (τ : Type) where
  | enqueue (specId : String) (spec : PreparedSpec) (records : List PreparedRecord)
  | finalizeQueued (jobId error : String)
  | reviewQueued (jobId error : String)
  | cancelQueued (jobId : String)
  | claimMany (claim : Claim τ)
  | setBatchState (batchId : String) (state expectedState : State) (ownerToken : String)
  | heartbeat (batchId : String) (leaseUntil : τ) (expectedState : State) (ownerToken : String)
  | completeBatch (batchId : String) (expectedState : State) (ownerToken : String) (report : Report)
  | completeBatchItems (batchId : String) (items : ItemResults) (expectedState : State)
      (ownerToken : String) (rules : FailureRules) (report : Report)
  | failBatch (batchId error : String) (expectedState : State) (ownerToken : String)
      (rules : FailureRules) (report : Report)
  | markCompletionUnknown (batchId error : String) (expectedState : State) (ownerToken : String)
      (resultRecord : Option String) (observation : Option Bool) (disposition : Disposition)
  | revokePrelaunchBatch (batchId ownerToken reason : String)
      (finalizationDisposition : Option Disposition)
  | recordRevokedPrelaunchResult (batchId ownerToken resultRecord : String)
  | beginActiveCancellation (batchId : String) (jobIds : List String)
  | markActiveCancellationUnknown (batchId : String) (jobIds : List String) (reason : String)
  | cancelActiveBatch (batchId : String) (jobIds : List String) (cleanupState : String)
  | recordFencedCancellation (batchId cleanupState : String)
  | recordTargetReservation (batchId : String) (operation : Operation) (resumeToken : String)
      (expectedState : State) (ownerToken : String)
  | recordTargetAcceptance (batchId : String) (operation : Operation) (expectedState : State)
      (ownerToken : String)
  | authorizeTargetCleanup (batchId : String) (operation : Operation) (cleanupState : String)
      (expectedState : State) (ownerToken : String)
  | recordTargetFinalization (batchId : String) (operation : Operation) (cleanupState : String)
      (stageCleaned durableCleaned : Bool) (expectedState : State) (ownerToken : String)
  | recordTargetCleanupProgress (batchId : String) (operation : Operation) (progress : Progress)
  | recordExpiredTargetFinalization (batchId : String) (operation : Operation)
      (cleanupState : String) (ownerRelease : Bool)
  | authorizeTargetReleaseNoStart (operation : Operation)
  | acknowledgeTargetReleaseEffects (operation : Operation)
  | expireStaleBatch (batchId : String) (replaySafe : Bool) (maxAttempts : Int)
  | recoverStale (jobIds : Option (List String))
  | clear (includeFinal : Bool)
  | pruneFinal (keep : Int)

/-- A transaction that follows from a selection. -/
inductive Part where
  | expireBatch (batchId : String)
  | sweepLeases
  | pruneVictims (victims : List String)

section Exec
variable {τ : Type} [LinearOrder τ]

/-- The tables after a transaction; one that raises is rolled back. -/
def Database.after {α : Type} (db : Database τ) (outcome : Except Fault (α × Database τ)) :
    Database τ :=
  match outcome with
  | .ok (_, db') => db'
  | .error _ => db

/-- The first transaction of a call, and the parts that are left. -/
def Call.exec (now : τ) (db : Database τ) : Call τ → Database τ × List Part
  | .enqueue specId spec records => (db.after (Fleet.enqueue specId spec records now db), [])
  | .finalizeQueued jobId error => (db.after (Fleet.finalizeQueued jobId error now db), [])
  | .reviewQueued jobId error => (db.after (Fleet.reviewQueued jobId error now db), [])
  | .cancelQueued jobId => (db.after (Fleet.cancelQueued jobId now db), [])
  | .claimMany claim => ((Fleet.claimMany claim now db).2, [])
  | .setBatchState batchId state expectedState ownerToken =>
    (db.after (Fleet.setBatchState batchId state expectedState ownerToken now db), [])
  | .heartbeat batchId leaseUntil expectedState ownerToken =>
    (db.after (Fleet.heartbeat batchId leaseUntil expectedState ownerToken now db), [])
  | .completeBatch batchId expectedState ownerToken report =>
    (db.after (Fleet.completeBatch batchId expectedState ownerToken report now db), [])
  | .completeBatchItems batchId items expectedState ownerToken rules report =>
    (db.after (Fleet.completeBatchItems batchId items expectedState ownerToken rules report now db), [])
  | .failBatch batchId error expectedState ownerToken rules report =>
    (db.after (Fleet.failBatch batchId error expectedState ownerToken rules report now db), [])
  | .markCompletionUnknown batchId error expectedState ownerToken resultRecord observation
      disposition =>
    (db.after (Fleet.markCompletionUnknown batchId error expectedState ownerToken resultRecord
      observation disposition now db), [])
  | .revokePrelaunchBatch batchId ownerToken reason finalizationDisposition =>
    (db.after (Fleet.revokePrelaunchBatch batchId ownerToken reason finalizationDisposition now db), [])
  | .recordRevokedPrelaunchResult batchId ownerToken resultRecord =>
    (db.after (Fleet.recordRevokedPrelaunchResult batchId ownerToken resultRecord now db), [])
  | .beginActiveCancellation batchId jobIds =>
    (db.after (Fleet.beginActiveCancellation batchId jobIds now db), [])
  | .markActiveCancellationUnknown batchId jobIds reason =>
    (db.after (Fleet.markActiveCancellationUnknown batchId jobIds reason now db), [])
  | .cancelActiveBatch batchId jobIds cleanupState =>
    (db.after (Fleet.cancelActiveBatch batchId jobIds cleanupState now db), [])
  | .recordFencedCancellation batchId cleanupState =>
    (db.after (Fleet.recordFencedCancellation batchId cleanupState now db), [])
  | .recordTargetReservation batchId operation resumeToken expectedState ownerToken =>
    ((Fleet.recordTargetReservation batchId operation resumeToken expectedState ownerToken now db).2,
      [])
  | .recordTargetAcceptance batchId operation expectedState ownerToken =>
    ((Fleet.recordTargetAcceptance batchId operation expectedState ownerToken now db).2, [])
  | .authorizeTargetCleanup batchId operation cleanupState expectedState ownerToken =>
    ((Fleet.authorizeTargetCleanup batchId operation cleanupState expectedState ownerToken now db).2,
      [])
  | .recordTargetFinalization batchId operation cleanupState stageCleaned durableCleaned
      expectedState ownerToken =>
    ((Fleet.recordTargetFinalization batchId operation cleanupState stageCleaned durableCleaned
      expectedState ownerToken now db).2, [])
  | .recordTargetCleanupProgress batchId operation progress =>
    ((Fleet.recordTargetCleanupProgress batchId operation progress now db).2, [])
  | .recordExpiredTargetFinalization batchId operation cleanupState ownerRelease =>
    ((Fleet.recordExpiredTargetFinalization batchId operation cleanupState ownerRelease now db).2, [])
  | .authorizeTargetReleaseNoStart operation =>
    ((Fleet.authorizeTargetReleaseNoStart operation now db).2, [])
  | .acknowledgeTargetReleaseEffects operation =>
    ((Fleet.acknowledgeTargetReleaseEffects operation now db).2, [])
  | .expireStaleBatch batchId replaySafe maxAttempts =>
    (db.after (Fleet.expireBatch batchId maxAttempts (some replaySafe) now db), [])
  | .recoverStale jobIds =>
    (db, (staleBatches jobIds now db).map .expireBatch ++
      if jobIds.isNone then [.sweepLeases] else [])
  | .clear includeFinal => ((Fleet.clear includeFinal db).2, [])
  | .pruneFinal keep => (db, [.pruneVictims (finalVictims keep db)])

def Part.exec (now : τ) (db : Database τ) : Part → Database τ
  | .expireBatch batchId => db.after (Fleet.expireBatch batchId maxAttempts none now db)
  | .sweepLeases => Fleet.sweepLeases now db
  | .pruneVictims victims => Fleet.pruneVictims victims db

/-- A call that no other call interrupts. -/
def Call.run (db : Database τ) (call : τ × Call τ) : Database τ :=
  (call.2.exec call.1 db).2.foldl (Part.exec call.1) (call.2.exec call.1 db).1

end Exec

/-! ## Interleaved calls -/

/-- A call between its timestamp and its end. -/
inductive Pending (τ : Type) where
  | called (call : Call τ) (now : τ)
  | left (parts : List Part) (now : τ)

/-- The queue, the clock that all controllers read, and the calls under way. -/
structure System (ι τ : Type) where
  db : Database τ
  clock : τ
  pending : ι → Option (Pending τ)

inductive Action (ι τ : Type) where
  | tick (clock : τ)
  /-- without a timestamp argument the call reads the clock -/
  | start (p : ι) (call : Call τ) (now : Option τ)
  /-- the next transaction of the call -/
  | serialize (p : ι)
  /-- the controller crashes, or the call gets no lock on the database -/
  | abort (p : ι)

section Step
variable {ι τ : Type} [DecidableEq ι] [LinearOrder τ]

def Pending.of (now : τ) : List Part → Option (Pending τ)
  | [] => none
  | part :: rest => some (.left (part :: rest) now)

def System.setPending (s : System ι τ) (p : ι) (pending : Option (Pending τ)) : System ι τ :=
  { s with pending := Function.update s.pending p pending }

/-- One step of the fleet; the clock never goes back. -/
def step (s : System ι τ) : Action ι τ → System ι τ
  | .tick clock => { s with clock := max s.clock clock }
  | .start p call now =>
    match s.pending p with
    | none => s.setPending p (some (.called call (now.getD s.clock)))
    | some _ => s
  | .serialize p =>
    match s.pending p with
    | some (.called call now) =>
      { s.setPending p (Pending.of now (call.exec now s.db).2) with db := (call.exec now s.db).1 }
    | some (.left (part :: rest) now) =>
      { s.setPending p (Pending.of now rest) with db := part.exec now s.db }
    | _ => s
  | .abort p => s.setPending p none

end Step

end Remrun.Fleet
