import Remrun.Lib.Effect

/-!
# The executor

`_run_prepared_batch`: from the checks before anything is staged over the target reservation, the
staging of the inputs, the memory admission and the launch to the exception arms. What every call
on the transport, the target resources and the memory guard comes to is left to an oracle that knows
everything that happened before.
-/

namespace Remrun.Fleet.Executor

set_option autoImplicit false

/-- The exceptions the calls raise. `GuardFinalizationError` is a `TransportError`,
`SourceChangedError` a `ValueError`. -/
inductive Raised where
  | osError
  | transportError
  | targetResourceError
  | guardFinalizationError (commandStarted : Option Bool)
  | valueError
  | sourceChanged
  | notImplemented
  | ownershipLost
  deriving DecidableEq, Repr

def Raised.isTransport : Raised → Bool
  | .transportError | .guardFinalizationError _ => true
  | _ => false

def Raised.isValue : Raised → Bool
  | .valueError | .sourceChanged => true
  | _ => false

/-- `(OSError, TargetResourceError, TransportError, ValueError)`. -/
def Raised.isDeclared (e : Raised) : Bool :=
  e = .osError || e = .targetResourceError || e.isTransport || e.isValue

/-- `(OSError, TransportError, NotImplementedError)`. -/
def Raised.isDeletion (e : Raised) : Bool := e = .osError || e.isTransport || e = .notImplemented

/-! ## Calls and their replies -/

inductive CancelPlace where
  | ownerLoss
  | prelaunch
  deriving DecidableEq, Repr

inductive Call where
  | loadRegistry
  | makeTransport
  | stateRoot
  | tempDir
  | expandRoot
  | renderCommand
  | connect
  | policyGet
  | reserve
  | cancel (place : CancelPlace)
  | ensureDir (index : Nat)
  | pushText (task : Nat)
  | deviceCandidate (task item : Nat)
  | materializeShared (task item : Nat)
  | materialize (task item : Nat)
  | pushManifest
  | predictResources
  | reserveMemory
  | releaseMemory
  | removeTree
  | durableCleanup
  | launchDurable
  | waitTerminal
  | finalizeResult
  | exec
  | durableStatus
  | targetStatus
  | readMetrics
  | fetchOutput (row output : Nat)
  deriving DecidableEq, Repr

inductive PolicyReply where
  | notInstalled
  | malformed
  | installed
  deriving DecidableEq, Repr

/-- `admitted` says whether there is a reservation to give back. -/
inductive Admission where
  | refused
  | admitted (reservation : Bool)
  deriving DecidableEq, Repr

structure LaunchReply where
  acknowledged : Bool
  hasReceipt : Bool
  commandStarted : Option Bool
  deriving DecidableEq, Repr

/-- A terminal status of a target operation. -/
structure Terminal where
  complete : Bool
  commandStarted : Option Bool
  cleanupState : Option String
  deriving DecidableEq, Repr

/-- A durable status; `matching` says whether it is the acknowledged record of this operation. -/
structure DurableReply where
  matching : Bool
  commandStarted : Option Bool
  cleanupState : Option String
  deriving DecidableEq, Repr

structure ResourceReceipt where
  state : String
  startState : Option String
  deriving DecidableEq, Repr

/-- What the result envelope says: the number of outputs to return of each row, or that it is no
envelope of this batch. -/
inductive Envelope where
  | invalid
  | rows (outputs : List Nat)
  deriving DecidableEq, Repr

def Reply : Call → Type
  | .policyGet => PolicyReply
  | .reserve => Bool
  | .cancel _ => Option String
  | .deviceCandidate _ _ => Bool
  | .finalizeResult | .exec => Int
  | .reserveMemory => Admission
  | .launchDurable => LaunchReply
  | .waitTerminal => Terminal
  | .durableStatus => DurableReply
  | .targetStatus => Option ResourceReceipt
  | .readMetrics => Envelope
  | _ => Unit

inductive LivePlace where
  | staging
  | launch
  deriving DecidableEq, Repr

/-- Questions that are answered without an exception: the caller's callbacks, and whether the
renewal of the reservation has failed. -/
inductive Question where
  | reservationRecorded
  | acceptanceRecorded
  | cleanupAuthorized
  | finalizationRecorded
  | gateOpen
  | outputReturnOwned
  | renewalFailed (place : LivePlace)
  deriving DecidableEq, Repr

inductive Event where
  | called (call : Call) (outcome : Except Raised (Reply call))
  | asked (question : Question) (answer : Bool)

/-- Every call raises declared errors only; a deletion may be one the transport does not have. -/
def Call.mayRaise (c : Call) (e : Raised) : Bool :=
  e.isDeclared || c = .removeTree && e = .notImplemented

structure Oracle where
  reply : List Event → (call : Call) → Except Raised (Reply call)
  answer : List Event → Question → Bool
  declared : ∀ log call e, reply log call = .error e → call.mayRaise e = true

/-! ## The batch and the state of the function -/

structure TaskShape where
  text : Bool
  /-- For each input item whether it has a storage reference. -/
  items : List Bool
  deriving DecidableEq, Repr

structure Batch where
  adapterMissing : Bool
  outputRootRefused : Bool
  usesStorageRef : Bool
  /-- `_target_acceptance_supported(device)` -/
  supported : Bool
  configuredRoot : Bool
  hasPool : Bool
  tasks : List TaskShape
  cleanup : Bool
  explicitLimit : Bool
  guarded : Bool
  hasPrelaunchGate : Bool
  onTargetReservation : Bool
  onTargetAcceptance : Bool
  beforeTargetCleanup : Bool
  onTargetFinalization : Bool
  beforeOutputReturn : Bool
  itemResults : Bool
  deriving DecidableEq, Repr

/-- `target_operation`. -/
structure Operation where
  commandStarted : Option Bool
  cleanupState : Option String
  deriving DecidableEq, Repr

/-- `heartbeat` says whether `target_heartbeat` is set and its thread runs. -/
structure Local where
  log : List Event
  heartbeat : Bool
  operation : Option Operation
  durableContext : Bool

def Local.start : Local := ⟨[], false, none, false⟩

abbrev Prog := EStateM Raised Local

inductive Completion where
  | notStarted
  | unknown
  deriving DecidableEq, Repr

/-- What the cleanup adds to the response. -/
structure CleanupResult where
  cleanupDeferred : Bool := false
  targetCleanupDeferred : Option String := none
  targetFinalizationDeferred : Bool := false
  deriving DecidableEq, Repr

structure Response where
  ok : Bool := false
  error : String := ""
  completionState : Option Completion := none
  /-- `none` where the key is missing. -/
  commandStarted : Option (Option Bool) := none
  ownershipLost : Bool := false
  definitionDrift : Bool := false
  acceptanceUnknown : Bool := false
  cleanup : CleanupResult := {}
  deriving DecidableEq, Repr

/-- A part of the function returns from it or goes on. -/
inductive Step (α : Type) where
  | done (response : Response)
  | next (value : α)

section Programs
variable (o : Oracle) (b : Batch)

def call (c : Call) : Prog (Reply c) := fun s =>
  match o.reply s.log c with
  | .ok r => .ok r { s with log := s.log ++ [.called c (.ok r)] }
  | .error e => .error e { s with log := s.log ++ [.called c (.error e)] }

def ask (q : Question) : Prog Bool := fun s =>
  .ok (o.answer s.log q) { s with log := s.log ++ [.asked q (o.answer s.log q)] }

/-- `callback is None or callback(...)`. -/
def consult (given : Bool) (q : Question) : Prog Bool := if given then ask o q else pure true

/-- A `try` whose handler decides on what was raised. -/
def attempt {α : Type} (m : Prog α) : Prog (Except Raised α) :=
  tryCatch ((fun a => Except.ok a) <$> m) fun e => pure (.error e)

/-- A call whose exceptions of one kind are passed over. -/
def attemptPassing (caught : Raised → Bool) (c : Call) : Prog Unit :=
  attempt (call o c) >>= fun
    | .ok _ => pure ()
    | .error e => if caught e then pure () else throw e

/-! ## The heartbeat -/

def stopTargetHeartbeat : Prog Unit := modify fun s => { s with heartbeat := false }

def startTargetHeartbeat : Prog Unit := modify fun s => { s with heartbeat := true }

/-- `target_heartbeat.require_live()`, where there is one. -/
def requireLive (place : LivePlace) : Prog Unit :=
  get >>= fun s =>
    if s.heartbeat then
      ask o (.renewalFailed place) >>= fun failed =>
        if failed then throw .targetResourceError else pure ()
    else pure ()

/-! ## Cleaning up -/

def terminalStates : List String := ["RELEASED", "CANCELLED", "EXPIRED", "REBOOTED"]

/-- The receipt of an incomplete cleanup, which an attached controller rejects. -/
def deferCleanup : Prog CleanupResult :=
  consult o b.onTargetFinalization .finalizationRecorded >>= fun recorded =>
    pure { cleanupDeferred := true
           targetCleanupDeferred := some "controller queue rejected target cleanup authorization"
           targetFinalizationDeferred := !recorded }

def proveCleanup : Prog CleanupResult :=
  consult o b.onTargetFinalization .finalizationRecorded >>= fun recorded =>
    if recorded then pure {}
    else pure { cleanupDeferred := true, targetFinalizationDeferred := true }

def deleteDurable : Prog CleanupResult :=
  attempt (call o .durableCleanup) >>= fun
    | .ok _ => proveCleanup o b
    | .error e =>
      if e.isTransport then
        pure { cleanupDeferred := true
               targetCleanupDeferred := some "durable evidence cleanup failed" }
      else throw e

def cleanupTerminalTarget : Prog CleanupResult :=
  (if b.beforeTargetCleanup then ask o .cleanupAuthorized else pure false) >>= fun authorized =>
    if !authorized then deferCleanup o b
    else
      attempt (call o .removeTree) >>= fun
        | .ok _ => deleteDurable o b
        | .error e =>
          if e.isDeletion then
            pure { cleanupDeferred := true
                   targetCleanupDeferred := some "target stage deletion failed" }
          else throw e

def finalizeState (state : Option String) : Prog CleanupResult :=
  if !(state.any fun text => text ∈ terminalStates) then
    pure { cleanupDeferred := true
           targetCleanupDeferred := some "target reservation cleanup is not terminal" }
  else if !b.cleanup then pure {}
  else cleanupTerminalTarget o b

/-- `reserved` says whether `target_reservation` is set. -/
def finalizePrelaunchTarget (reserved : Bool) (known : Option String) : Prog CleanupResult :=
  stopTargetHeartbeat >>= fun _ =>
    if !reserved then pure {}
    else
      match known with
      | some state => finalizeState o b (some state)
      | none =>
        attempt (call o (.cancel .prelaunch)) >>= fun
          | .ok state => finalizeState o b state
          | .error e =>
            if e.isDeclared then
              pure { cleanupDeferred := true
                     targetCleanupDeferred := some "target reservation cancellation failed" }
            else throw e

def safeDelete : Prog Unit := attemptPassing o Raised.isDeletion .removeTree

/-- The cleanup of a return that never reached the launch. -/
def abandon (reserved : Bool) : Prog CleanupResult :=
  finalizePrelaunchTarget o b reserved none >>= fun extra =>
    (if b.cleanup && !reserved then safeDelete o else pure ()) >>= fun _ => pure extra

/-! ## Planning the stage -/

def preflight : Prog (Step Unit) :=
  if b.adapterMissing then
    pure (.done { error := "frozen spec has no adapter for the selected device" })
  else if b.outputRootRefused then pure (.done { error := "output root refused" })
  else if b.usesStorageRef then
    attempt (call o .loadRegistry) >>= fun
      | .ok _ => pure (.next ())
      | .error e => if e.isValue then pure (.done { error := "storage registry invalid" }) else throw e
  else pure (.next ())

def planCalls : List Call :=
  [.makeTransport, if b.supported then .stateRoot else .tempDir] ++
    (if b.configuredRoot then [.expandRoot] else []) ++ [.renderCommand]

def callAll (calls : List Call) : Prog Unit :=
  calls.forM fun c => (fun _ => ()) <$> call o c

def plan : Prog (Step Unit) :=
  attempt (callAll o (planCalls b)) >>= fun
    | .ok _ => pure (.next ())
    | .error e =>
      if e.isTransport || e.isValue then pure (.done { error := "stage plan failed" }) else throw e

/-! ## The target reservation -/

def checkPolicy : Prog Unit :=
  if b.hasPool then
    (call o .policyGet : Prog PolicyReply) >>= fun
      | .installed => pure ()
      | _ => throw .targetResourceError
  else pure ()

/-- The controller's queue no longer owns the batch. -/
def ownerLoss : Prog (Step Unit) :=
  attemptPassing o (fun e => e = .targetResourceError) (.cancel .ownerLoss) >>= fun _ =>
    pure (.done { error := "lost batch ownership before target staging"
                  completionState := some .notStarted
                  commandStarted := some (some false)
                  ownershipLost := true })

def reserveTarget : Prog (Step Unit) :=
  call o .connect >>= fun _ =>
    checkPolicy o b >>= fun _ =>
      (call o .reserve : Prog Bool) >>= fun granted =>
        if !granted then throw .targetResourceError
        else
          consult o b.onTargetReservation .reservationRecorded >>= fun recorded =>
            if !recorded then ownerLoss o
            else startTargetHeartbeat >>= fun _ => pure (.next ())

def accept : Prog (Step Unit) :=
  if b.supported then
    attempt (reserveTarget o b) >>= fun
      | .ok step => pure step
      | .error e =>
        if e = .targetResourceError then
          pure (.done { error := "target acceptance failed before staging"
                        completionState := some .notStarted
                        commandStarted := some (some false) })
        else throw e
  else pure (.next ())

/-! ## Staging -/

def materializeShared (task item : Nat) : Prog Unit :=
  attempt (call o (.materializeShared task item)) >>= fun
    | .ok _ => pure ()
    | .error e =>
      if e = .osError || e.isTransport then call o (.materialize task item) else throw e

def materializeItem (task item : Nat) (storageRef : Bool) : Prog Unit :=
  if storageRef then
    (call o (.deviceCandidate task item) : Prog Bool) >>= fun (found : Bool) =>
      if found then materializeShared o task item else call o (.materialize task item)
  else call o (.materialize task item)

def stageItem (task : Nat) (item : Bool × Nat) : Prog Unit :=
  materializeItem o task item.2 item.1 >>= fun _ => requireLive o .staging

def stageText (task : Nat) (text : Bool) : Prog Unit :=
  if text then call o (.pushText task) >>= fun _ => requireLive o .staging else pure ()

def stageTask (task : TaskShape × Nat) : Prog Unit :=
  stageText o task.2 task.1.text >>= fun _ => task.1.items.zipIdx.forM (stageItem o task.2)

def stageInputs : Prog Unit :=
  callAll o [.ensureDir 0, .ensureDir 1, .ensureDir 2] >>= fun _ =>
    requireLive o .staging >>= fun _ =>
      b.tasks.zipIdx.forM (stageTask o) >>= fun _ =>
        call o .pushManifest >>= fun _ => requireLive o .staging

def stage : Prog (Step Unit) :=
  attempt (stageInputs o b) >>= fun
    | .ok _ => pure (.next ())
    | .error e =>
      if e = .sourceChanged then
        abandon o b b.supported >>= fun extra =>
          pure (.done { error := "source_changed", cleanup := extra })
      else if e.isDeclared then
        abandon o b b.supported >>= fun extra =>
          pure (.done { error := "stage failed", cleanup := extra })
      else throw e

/-! ## The memory admission and the gate -/

def admitMemory : Prog (Step Bool) :=
  (if b.explicitLimit then pure () else call o .predictResources) >>= fun _ =>
    (call o .reserveMemory : Prog Admission) >>= fun
      | .refused =>
        abandon o b b.supported >>= fun extra =>
          pure (.done { error := "memory admission refused", cleanup := extra })
      | .admitted reservation => pure (.next reservation)

def admitUnderGuard : Prog (Step Bool) :=
  if b.explicitLimit || b.guarded then admitMemory o b else pure (.next false)

/-- A release whose failure is only reported. -/
def releaseGuard (reservation : Bool) : Prog Unit :=
  if reservation then attemptPassing o (fun _ => true) .releaseMemory else pure ()

def prelaunchGate (reservation : Bool) : Prog (Step Unit) :=
  consult o b.hasPrelaunchGate .gateOpen >>= fun isOpen =>
    if isOpen then pure (.next ())
    else
      releaseGuard o reservation >>= fun _ =>
        abandon o b b.supported >>= fun extra =>
          pure (.done { error := "task definition changed before process launch"
                        definitionDrift := true
                        cleanup := extra })

/-- The last look at the heartbeat. -/
def lastLive : Prog (Step Unit) :=
  attempt (requireLive o .launch) >>= fun
    | .ok _ => stopTargetHeartbeat >>= fun _ => pure (.next ())
    | .error e =>
      if e = .targetResourceError then
        finalizePrelaunchTarget o b b.supported none >>= fun extra =>
          pure (.done { error := "target reservation renewal failed during staging"
                        completionState := some .notStarted
                        commandStarted := some (some false)
                        cleanup := extra })
      else throw e

/-! ## The launch -/

def operationFailed (t : Terminal) : Prog (Step Int) :=
  (if b.cleanup && t.commandStarted = some false &&
      t.cleanupState.any fun text => text ∈ terminalStates then cleanupTerminalTarget o b
    else pure { cleanupDeferred := b.cleanup }) >>= fun extra =>
    pure (.done { error := "target supervisor failed"
                  completionState :=
                    some (if t.commandStarted = some false then .notStarted else .unknown)
                  commandStarted := some t.commandStarted
                  cleanup := extra })

/-- `_wait_target_operation` polls until the status is terminal; its polls are one call here. -/
def awaitTarget : Prog (Step Int) :=
  (call o .waitTerminal : Prog Terminal) >>= fun t =>
    modify (fun s => { s with
      operation := some ⟨t.commandStarted, t.cleanupState⟩, durableContext := true }) >>= fun _ =>
      if !t.complete then operationFailed o b t
      else .next <$> (call o .finalizeResult : Prog Int)

def launchTarget : Prog (Step Int) :=
  (call o .launchDurable : Prog LaunchReply) >>= fun reply =>
    if !reply.acknowledged || !reply.hasReceipt then throw .transportError
    else
      modify (fun s => { s with operation := some ⟨reply.commandStarted, none⟩ }) >>= fun _ =>
        consult o b.onTargetAcceptance .acceptanceRecorded >>= fun recorded =>
          if !recorded then
            pure (.done { error := "lost batch ownership after target acceptance"
                          completionState := some .unknown
                          commandStarted := some reply.commandStarted
                          ownershipLost := true
                          cleanup := { cleanupDeferred := true } })
          else awaitTarget o b

def launch : Prog (Step Int) :=
  if b.supported then launchTarget o b else .next <$> (call o .exec : Prog Int)

/-! ## The exception arms of the launch -/

def targetRefused (reservation : Bool) : Prog Response :=
  releaseGuard o reservation >>= fun _ =>
    abandon o b b.supported >>= fun extra =>
      pure { error := "target acceptance failed before launch"
             completionState := some .notStarted
             commandStarted := some (some false)
             cleanup := extra }

def guardCleanup (s : Local) (prestart : Bool) : Prog CleanupResult :=
  if b.cleanup && prestart && s.durableContext &&
      (s.operation.bind Operation.cleanupState).any fun text => text ∈ terminalStates then
    cleanupTerminalTarget o b
  else if b.cleanup && prestart && s.operation.isNone then
    safeDelete o >>= fun _ => pure {}
  else if b.cleanup then pure { cleanupDeferred := true }
  else pure {}

def guardUnfinalized (commandStarted : Option Bool) : Prog Response :=
  get >>= fun s =>
    guardCleanup o b s (commandStarted = some false) >>= fun extra =>
      pure { error := "memory guard"
             completionState := some (if commandStarted = some false then .notStarted else .unknown)
             commandStarted := some commandStarted
             cleanup := extra }

/-- What is known after a lost launch response. -/
structure Evidence where
  accepted : Bool
  acceptanceUnknown : Bool
  ownershipLost : Bool
  prestartState : Option String
  deriving DecidableEq, Repr

def unreserved : Evidence := ⟨false, false, false, none⟩

/-- The durable record, where it can be read and is the one of this operation. -/
def readDurable : Prog (Option DurableReply) :=
  attempt (call o .durableStatus : Prog DurableReply) >>= fun
    | .ok reply => pure (if reply.matching then some reply else none)
    | .error e => if e = .osError || e.isTransport || e.isValue then pure none else throw e

def startOf : Option String → Option Bool
  | some "YES" => some true
  | some "NO" => some false
  | _ => none

def judgeReceipt : Option ResourceReceipt → Prog Evidence
  | none => throw .targetResourceError
  | some receipt =>
    if receipt.state = "RESERVED" then pure unreserved
    else if receipt.state ∈ ["CANCELLED", "EXPIRED", "REBOOTED"] then
      pure { unreserved with prestartState := some receipt.state }
    else if receipt.state ∈ ["CLAIMED", "QUARANTINED", "RELEASED"] then
      modify (fun s => { s with operation := some (.mk (startOf receipt.startState) none) }) >>=
        fun _ => pure { unreserved with acceptanceUnknown := true }
    else pure { unreserved with acceptanceUnknown := true }

def readReceipt : Prog Evidence :=
  attempt ((call o .targetStatus : Prog (Option ResourceReceipt)) >>= judgeReceipt) >>= fun
    | .ok evidence => pure evidence
    | .error e =>
      if e = .targetResourceError then pure { unreserved with acceptanceUnknown := true } else throw e

/-- A lost launch response is reconciled with the durable record first. -/
def reconcileLaunch : Prog Evidence :=
  readDurable o >>= fun
    | some reply =>
      modify (fun s => { s with operation := some ⟨reply.commandStarted, reply.cleanupState⟩ }) >>=
        fun _ => consult o b.onTargetAcceptance .acceptanceRecorded >>= fun recorded =>
          pure { unreserved with accepted := true, ownershipLost := !recorded }
    | none => readReceipt o

def gatherEvidence (s : Local) : Prog Evidence :=
  if s.operation.isSome then pure { unreserved with accepted := true }
  else if b.supported then reconcileLaunch o b
  else pure unreserved

/-- The return after a lost launch response; a start that may have happened is left alone. -/
def settleLaunch (reservation : Bool) (evidence : Evidence) : Prog CleanupResult :=
  if !evidence.accepted && !evidence.acceptanceUnknown then
    releaseGuard o reservation >>= fun _ =>
      finalizePrelaunchTarget o b b.supported evidence.prestartState >>= fun extra =>
        (if b.cleanup && !b.supported then safeDelete o else pure ()) >>= fun _ => pure extra
  else pure { cleanupDeferred := b.cleanup }

def launchLost (reservation : Bool) : Prog Response :=
  get >>= fun s =>
    gatherEvidence o b s >>= fun evidence =>
      settleLaunch o b reservation evidence >>= fun extra =>
        get >>= fun s' =>
          pure { error := "exec failed"
                 completionState := some
                   (if evidence.accepted || evidence.acceptanceUnknown then .unknown
                    else .notStarted)
                 commandStarted := some (match s'.operation with
                   | some operation => operation.commandStarted
                   | none => if evidence.acceptanceUnknown then none else some false)
                 ownershipLost := evidence.ownershipLost
                 acceptanceUnknown := evidence.acceptanceUnknown
                 cleanup := extra }

/-- The arms in their order; what none of them catches goes on. -/
def launchFailed (reservation : Bool) : Raised → Prog Response
  | .targetResourceError => targetRefused o b reservation
  | .guardFinalizationError commandStarted => guardUnfinalized o b commandStarted
  | .transportError => launchLost o b reservation
  | e => throw e

/-! ## The results -/

/-- `_return_outputs` of one row: ownership is asked for before every output. -/
def returnRow (row : Nat × Nat) : Prog Unit :=
  (List.range row.1).forM fun output =>
    consult o b.beforeOutputReturn .outputReturnOwned >>= fun owned =>
      if owned then call o (.fetchOutput row.2 output) else throw .ownershipLost

def deliverRow (delivered : Bool) (row : Nat × Nat) : Prog Bool :=
  attempt (returnRow o b row) >>= fun
    | .ok _ => pure delivered
    | .error e => if e = .osError || e.isTransport then pure false else throw e

def returnOutputs (rows : List Nat) : Prog Bool :=
  rows.zipIdx.foldlM (deliverRow o b) true >>= fun delivered =>
    if rows.any fun outputs => 0 < outputs then
      consult o b.beforeOutputReturn .outputReturnOwned >>= fun owned =>
        if owned then pure delivered else throw .ownershipLost
    else pure delivered

/-- What cannot be read is no result. -/
def readMetrics : Prog Envelope :=
  attempt (call o .readMetrics : Prog Envelope) >>= fun
    | .ok envelope => pure envelope
    | .error e => if e = .osError || e.isTransport || e.isValue then throw .valueError else throw e

/-- Whether the evidence of completion is there, and whether every output was delivered. -/
def collectResults : Prog (Bool × Bool) :=
  if b.itemResults then
    readMetrics o >>= fun
      | .invalid => pure (false, true)
      | .rows outputs => (fun delivered => (true, delivered)) <$> returnOutputs o b outputs
  else pure (true, true)

/-- `target_operation["cleanup"]["state"]` is terminal. -/
def Local.cleanupIsTerminal (s : Local) : Bool :=
  (s.operation.bind Operation.cleanupState).any fun text => text ∈ terminalStates

def finalCleanup (s : Local) : Prog CleanupResult :=
  if b.cleanup && s.durableContext && s.cleanupIsTerminal then cleanupTerminalTarget o b
  else if b.cleanup && s.operation.isNone then
    attempt (call o .removeTree) >>= fun
      | .ok _ => pure {}
      | .error e =>
        if e.isDeletion then
          pure { cleanupDeferred := true
                 targetCleanupDeferred := some "target stage deletion failed" }
        else throw e
  else if s.operation.isSome && !s.cleanupIsTerminal then
    pure { cleanupDeferred := true
           targetCleanupDeferred := some "target process cleanup is not terminal" }
  else pure {}

def report (exitCode : Int) : Prog Response :=
  collectResults o b >>= fun results =>
    get >>= fun s =>
      finalCleanup o b s >>= fun extra =>
        pure { ok := exitCode = 0 && results.1 && results.2
               error := if results.1 then "" else "result evidence missing"
               cleanup := extra }

/-! ## The whole function -/

def Step.orElse {α : Type} (step : Step α) (rest : α → Prog Response) : Prog Response :=
  match step with
  | .done response => pure response
  | .next a => rest a

def launchAndReport (reservation : Bool) : Prog Response :=
  attempt (launch o b) >>= fun
    | .error e => launchFailed o b reservation e
    | .ok step => step.orElse fun exitCode => report o b exitCode

def afterAdmission (reservation : Bool) : Prog Response :=
  prelaunchGate o b reservation >>= fun step => step.orElse fun _ =>
    lastLive o b >>= fun step => step.orElse fun _ => launchAndReport o b reservation

def afterPlan : Prog Response :=
  accept o b >>= fun step => step.orElse fun _ =>
    stage o b >>= fun step => step.orElse fun _ =>
      admitUnderGuard o b >>= fun step => step.orElse fun reservation => afterAdmission o b reservation

def runPreparedBatch : Prog Response :=
  preflight o b >>= fun step => step.orElse fun _ =>
    plan o b >>= fun step => step.orElse fun _ => afterPlan o b

end Programs

end Remrun.Fleet.Executor
