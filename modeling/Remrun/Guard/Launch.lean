import Mathlib.Data.List.Basic
import Remrun.Lib.Transition

/-!
# The guarded launch

`_guarded_run` starts a gate process behind a closed pipe, claims the memory lease of the launch
and opens the gate. The gate starts the command and reports on a status pipe how its exec went,
and what the helper knows goes to the controller as a private record on the error stream. A signal
may end an action with an exception before or after its effect, and any process may die.
-/

namespace Remrun.Guard

set_option autoImplicit false

/-! ## Records -/

/-- `_GUARD_STATUSES`. -/
inductive Status where
  | ok
  | terminated
  | failedSafe
  | refused
  deriving DecidableEq, Repr

/-- The fields of a result that the controller decides by. -/
structure Record where
  status : Status
  reason : String
  detail : String
  commandStarted : Bool
  commandExitCode : Option Int
  helperExitCode : Int
  maxCommandBytes : Option Int
  minAvailableBytes : Int
  cleanupComplete : Option Bool
  deriving DecidableEq, Repr

/-- What the helper writes to the error stream; an interrupted write may end inside a result. -/
inductive Output where
  | ready
  | result (record : Record)
  | torn
  deriving DecidableEq, Repr

/-- The exit code of the helper where it is not that of the command. -/
def helperExit : Int := 125

def mib : Int := 1024 * 1024

/-- The arguments of `_guarded_run`. -/
structure Args where
  /-- the token is 32 lowercase hexadecimal digits -/
  validToken : Bool
  maxCommandBytes : Option Int
  minAvailableBytes : Int

/-- The exception that ends an action: `_GuardInterrupted`, or another. -/
inductive Fault where
  | interrupted (detail : String)
  | error (detail : String)
  deriving DecidableEq, Repr

def Fault.detail : Fault → String
  | .interrupted detail => "_GuardInterrupted: " ++ detail
  | .error detail => detail

structure Verdict where
  status : Status
  reason : String
  detail : String
  deriving DecidableEq, Repr

/-- What the helper does once it has signalled the process tree. -/
inductive After where
  | declined (reason detail : String)
  | launchFailed (detail : String)
  | enforced (verdict : Verdict)
  /-- the command has ended, with descendants left or a verdict on them -/
  | drained (code : Int) (verdict : Option Verdict)
  | recovered (fault : Fault)
  deriving DecidableEq, Repr

inductive Phase where
  | initializing
  | spawning
  /-- waits for the gate's `R` -/
  | greeting
  | identifying
  | claiming
  /-- closes the gate after a refused claim -/
  | declining (reason detail : String)
  /-- `lease_claimed = True` -/
  | owning
  | announcing
  /-- `gate_release_attempted = True` -/
  | committing
  | writing
  | closing
  | confirming
  | monitoring
  | draining (code : Int)
  /-- the first lines of the handler -/
  | recovering (fault : Fault)
  /-- `_terminate_guarded_tree` -/
  | felling (after : After)
  /-- release of the lease, or its quarantine -/
  | settling (cleanup : Bool) (record : Option Record)
  | holding (record : Option Record)
  | printing (record : Option Record)
  | returning
  deriving DecidableEq, Repr

inductive Scope where
  /-- the first `try`, before the signal handlers -/
  | early
  | body
  /-- `except BaseException` of the second `try` -/
  | handler
  deriving DecidableEq, Repr

/-- The helper and its variables. -/
structure Helper where
  phase : Phase
  scope : Scope
  hostTotal : Int
  /-- `child is not None` -/
  child : Bool
  /-- `gate_write is not None` -/
  gateWrite : Bool
  /-- `lease_claimed` -/
  claimed : Bool
  /-- `gate_release_attempted` -/
  released : Bool
  /-- `exec_confirmed` -/
  confirmed : Bool
  deriving DecidableEq, Repr

section Records
variable (a : Args)

/-- `_guard_base`, with the helper's exit code. -/
def Args.record (status : Status) (reason detail : String) (started : Bool)
    (cleanup : Option Bool) : Record where
  status := status
  reason := reason
  detail := detail
  commandStarted := started
  commandExitCode := none
  helperExitCode := helperExit
  maxCommandBytes := a.maxCommandBytes
  minAvailableBytes := a.minAvailableBytes
  cleanupComplete := cleanup

/-- `_shell_exit_code`. -/
def shellExitCode (returncode : Int) : Int := if returncode < 0 then 128 - returncode else returncode

def Args.completed (code : Int) : Record :=
  { a.record .ok "completed" "command completed without crossing the memory guard" true (some true)
    with commandExitCode := some (shellExitCode code), helperExitCode := shellExitCode code }

/-- The result of a verdict; a tree that was not seen to end makes it a failure. -/
def Args.stopped (v : Verdict) (cleanup : Bool) : Record :=
  if cleanup then a.record v.status v.reason v.detail true (some true)
  else a.record .failedSafe "termination_cleanup_failed"
    (v.detail ++ "; bounded process-tree termination did not verify a drain") true (some false)

/-- The result of the handler, if one may be given. -/
def Args.recovered (h : Helper) (fault : Fault) (cleanup : Option Bool) : Option Record :=
  if h.released && !h.confirmed then none
  else some (a.record (if h.confirmed then .failedSafe else .refused)
    (match fault with
      | .interrupted _ => "guard_interrupted"
      | .error _ => if h.confirmed then "guard_runtime_failed" else "command_launch_failed")
    fault.detail h.confirmed cleanup)

/-- The result after the process tree has been signalled. -/
def After.record (h : Helper) (cleanup : Bool) : After → Option Record
  | .declined reason detail => some (a.record .refused reason detail false (some cleanup))
  | .launchFailed detail =>
    some (a.record .refused "command_launch_failed" detail false (some cleanup))
  | .enforced verdict => some (a.stopped verdict cleanup)
  | .drained code none =>
    if cleanup then some (a.completed code)
    else some (a.record .failedSafe "descendant_cleanup_failed"
      "known descendants remained after bounded SIGKILL cleanup" true (some false))
  | .drained _ (some verdict) => some (a.stopped verdict cleanup)
  | .recovered fault => a.recovered h fault (some cleanup)

end Records

/-! ## Readings -/

/-- What the first `try` reads. -/
structure Setup where
  /-- the checks of the lease request or the process table raise -/
  fault : Option String
  hostTotal : Int
  available : Int
  deriving DecidableEq, Repr

/-- The first `try`; an error is the reason and the detail of a refusal. -/
def Args.checkSetup (a : Args) (o : Setup) : Except (String × String) Unit :=
  if !a.validToken then .error ("guard_initialization_failed",
    "ValueError: guard token must be 32 lowercase hexadecimal characters")
  else if a.maxCommandBytes.any (fun limit => limit ≤ 0 || limit % mib ≠ 0) ∨
      a.minAvailableBytes ≤ 0 then
    .error ("guard_initialization_failed", "ValueError: guard thresholds must be positive")
  else match o.fault with
  | some detail => .error ("guard_initialization_failed", detail)
  | none =>
    if o.hostTotal ≤ 0 ∨ o.available < 0 ∨ o.hostTotal < o.available then
      .error ("guard_initialization_failed", "RuntimeError: invalid initial host-memory counters")
    else if a.maxCommandBytes.any fun limit => o.hostTotal < limit + a.minAvailableBytes then
      .error ("thresholds_exceed_host",
        "configured command ceiling plus reserve exceeds measured physical memory")
    else if o.available ≤ a.minAvailableBytes then
      .error ("host_memory_reserve",
        "initial host available memory is at or below the configured reserve")
    else .ok ()

/-- One sample of the process tree and the host memory. -/
structure Sample where
  fault : Option String
  rss : Int
  hostTotal : Int
  available : Int
  deriving DecidableEq, Repr

/-- The verdict on a sample; `ceiling` is the detail for the hard ceiling. -/
def Args.verdict (a : Args) (hostTotal : Int) (ceiling : String) (x : Sample) : Option Verdict :=
  match x.fault with
  | some detail => some ⟨.failedSafe, "enforcement_sampling_failed", detail⟩
  | none =>
    if x.hostTotal ≤ 0 ∨ x.available < 0 ∨ x.hostTotal < x.available ∨ x.hostTotal ≠ hostTotal then
      some ⟨.failedSafe, "enforcement_sampling_failed",
        "RuntimeError: invalid or changed host-memory counters"⟩
    else if a.maxCommandBytes.any (· ≤ x.rss) then
      some ⟨.terminated, "command_memory_limit", ceiling⟩
    else if x.available ≤ a.minAvailableBytes then
      some ⟨.terminated, "host_memory_reserve", "host available memory reached the hard reserve"⟩
    else none

/-- `_group_alive` and the known processes that are still there. -/
structure Sight where
  group : Bool
  known : List Nat
  deriving DecidableEq, Repr

def Sight.gone (x : Sight) : Bool := !x.group && x.known.isEmpty

inductive Claim where
  | admitted
  /-- `dropped`: the reservation is deleted with the refusal -/
  | refused (reason detail : String) (dropped : Bool)
  deriving DecidableEq, Repr

/-- What one action of the helper meets. -/
structure Observed where
  /-- an exception ends the action: a signal, a pipe error, a timeout -/
  fault : Option Fault
  /-- the action has taken effect before the exception -/
  landed : Bool
  /-- the exception is raised where a best-effort function catches it -/
  caught : Bool
  setup : Setup
  /-- `_identity_for_pid(child.pid)` is not `None` -/
  identified : Bool
  claim : Claim
  /-- the sample, if one is due -/
  sample : Option Sample
  waited : Option Int
  /-- the sample of a drain -/
  residue : Sample
  sight : Sight
  /-- the grace period is over -/
  expired : Bool
  /-- `_group_alive` after the grace period -/
  groupAfter : Bool
  deriving DecidableEq, Repr

/-! ## Processes -/

/-- What the gate reports on the status pipe. -/
inductive Report where
  | confirmed
  | failed (detail : String)
  deriving DecidableEq, Repr

/-- `_gate_exec_child`. -/
inductive Gate where
  | absent
  | starting
  /-- waits for the byte of the gate pipe -/
  | reading
  /-- inside `Popen`, before the fork -/
  | launching
  /-- inside `Popen`, waits on its error pipe -/
  | forked
  | reporting (report : Report)
  | supervising
  | exited
  deriving DecidableEq, Repr

/-- The process that executes the user's argv. -/
inductive Command where
  | absent
  | forked
  | execFailed
  | running
  | ended
  deriving DecidableEq, Repr

inductive Lease where
  | reserved
  | running
  | quarantined
  | absent
  deriving DecidableEq, Repr

inductive GateFault where
  | osError
  /-- `KeyboardInterrupt`, or another exception that is no `OSError` -/
  | interrupt
  deriving DecidableEq, Repr

structure GateObserved where
  fault : Option GateFault
  landed : Bool
  /-- the text of an exception of `Popen` -/
  detail : String
  deriving DecidableEq, Repr

/-- The processes, the lease and the pipes between helper and gate, and what has happened. -/
structure Launch where
  helper : Option Helper
  gate : Gate
  command : Command
  lease : Lease
  /-- a `G` waits in the gate pipe -/
  opened : Bool
  /-- the write end of the gate pipe is open -/
  gateOpen : Bool
  /-- an `R` waits in the ready pipe -/
  readied : Bool
  readyOpen : Bool
  /-- the report that waits in the status pipe -/
  report : Option Report
  statusOpen : Bool
  stderr : List Output
  /-- `_claim_memory_lease` has admitted the launch -/
  admitted : Bool
  /-- the user's argv has been executed -/
  executed : Bool
  /-- the release of the gate has begun and no report has been read -/
  pending : Bool
  /-- the process group and every known process were seen gone -/
  seenGone : Bool
  /-- the helper has released a claimed lease -/
  freed : Bool
  deriving DecidableEq, Repr

def Launch.start : Launch where
  helper := some ⟨.initializing, .early, 0, false, false, false, false, false⟩
  gate := .absent
  command := .absent
  lease := .reserved
  opened := false
  gateOpen := false
  readied := false
  readyOpen := false
  report := none
  statusOpen := false
  stderr := []
  admitted := false
  executed := false
  pending := false
  seenGone := false
  freed := false

namespace Launch
variable (s : Launch)

def become (h : Helper) : Launch := { s with helper := some h }

/-- The helper ends, and its pipe ends with it. -/
def exit : Launch := { s with helper := none, gateOpen := false }

/-- An exception leaves the first `try` and the handler, and enters the handler from the body. -/
def raise (h : Helper) (fault : Fault) : Launch :=
  match h.scope with
  | .body => s.become { h with scope := .handler, phase := .recovering fault }
  | _ => s.exit

/-- An action with an effect. -/
def act (h : Helper) (o : Observed) (change : Launch → Launch) (next : Helper) : Launch :=
  match o.fault with
  | none => (change s).become next
  | some fault => (if o.landed then change s else s).raise h fault

/-- An action whose own exceptions are swallowed. -/
def tryAct (h : Helper) (o : Observed) (change : Launch → Launch) (next : Helper) : Launch :=
  match o.fault with
  | none => (change s).become next
  | some fault =>
    let s := if o.landed then change s else s
    if o.caught then s.become next else s.raise h fault

def print (output : Output) : Launch := { s with stderr := s.stderr ++ [output] }

/-- `Popen` of the gate, with its three pipes. -/
def spawnGate : Launch :=
  { s with gate := .starting, gateOpen := true, readyOpen := true, statusOpen := true }

def closeGate : Launch := { s with gateOpen := false }

/-- An admitted `_claim_memory_lease`. -/
def grant : Launch := { s with lease := .running, admitted := true }

def seeGone : Launch := { s with seenGone := true }

/-- `_release_memory_lease` with `reserved_only`. -/
def freeReserved : Launch := if s.lease = .reserved then { s with lease := .absent } else s

/-- `_release_memory_lease` with `cleanup_complete`. -/
def freeClaimed : Launch :=
  match s.lease with
  | .reserved => { s with lease := .absent }
  | .running => { s with lease := .absent, freed := true }
  | _ => s

/-- The answer of `_claim_memory_lease`: only a live reservation is admitted. -/
def answer (claim : Claim) : Claim :=
  match claim, s.lease with
  | .admitted, .running => .refused "reservation_mismatch"
      "helper claim does not match the reserved capacity/state" false
  | .admitted, .quarantined => .refused "reservation_mismatch"
      "helper claim does not match the reserved capacity/state" false
  | .admitted, .absent => .refused "reservation_missing"
      "helper cannot prove ownership of a live reservation" false
  | claim, _ => claim

end Launch

/-! ## Actions of the helper -/

section Actions
variable (a : Args) (s : Launch) (h : Helper) (o : Observed)

def initializeStep : Launch :=
  match o.fault with
  | some fault => s.raise h fault
  | none =>
    match a.checkSetup o.setup with
    | .error (reason, detail) =>
      s.become { h with phase := .settling true (some (a.record .refused reason detail false none)) }
    | .ok () => s.become { h with scope := .body, hostTotal := o.setup.hostTotal, phase := .spawning }

/-- The wait for the gate's `R`; where it does not come, the gate keeps waiting. -/
def greetStep : Launch :=
  match o.fault with
  | some fault => s.raise h fault
  | none =>
    if s.readied then
      { s with readied := false }.become
        { h with child := true, gateWrite := true, phase := .identifying }
    else if s.readyOpen then s
    else s.closeGate.raise h
      (.error "RuntimeError: guarded launch process did not reach the closed gate")

def identifyStep : Launch :=
  match o.fault with
  | some fault => s.raise h fault
  | none =>
    if o.identified then s.become { h with phase := .claiming }
    else s.raise h (.error "RuntimeError: cannot identify the guarded launch process")

def claimStep : Launch :=
  match s.answer o.claim with
  | .admitted => s.act h o Launch.grant { h with phase := .owning }
  | .refused reason detail dropped =>
    s.act h o (fun s => if dropped then s.freeReserved else s)
      { h with phase := .declining reason detail }

/-- `_confirm_gated_exec`. -/
def confirmStep : Launch :=
  match o.fault with
  | some fault => s.raise h fault
  | none =>
    match s.report with
    | some .confirmed =>
      { s with report := none, pending := false }.become
        { h with confirmed := true, phase := .monitoring }
    | some (.failed detail) =>
      { s with report := none, pending := false }.become
        { h with phase := .felling (.launchFailed detail) }
    | none =>
      if s.statusOpen then s
      else s.raise h (.error
        "guard control process closed its status pipe without launch proof")

/-- One round of the loop over the running command. -/
def monitorStep : Launch :=
  match o.fault with
  | some fault => s.raise h fault
  | none =>
    match o.sample.bind (a.verdict h.hostTotal "sampled command-tree RSS reached the hard ceiling") with
    | some verdict => s.become { h with phase := .felling (.enforced verdict) }
    | none =>
      match o.waited with
      | some code => s.become { h with phase := .draining code }
      | none => s

/-- One round of the loop over the descendants. -/
def drainStep (code : Int) : Launch :=
  match o.fault with
  | some fault => s.raise h fault
  | none =>
    match a.verdict h.hostTotal "sampled descendant RSS reached the hard ceiling" o.residue with
    | some verdict => s.become { h with phase := .felling (.drained code (some verdict)) }
    | none =>
      if o.sight.gone then
        s.seeGone.become { h with phase := .settling true (some (a.completed code)) }
      else if !o.expired then s
      else if !o.sight.known.isEmpty || o.groupAfter then
        s.become { h with phase := .felling (.drained code none) }
      else s.seeGone.become { h with phase := .settling true (some (a.completed code)) }

def recoverStep (fault : Fault) : Launch :=
  match o.fault with
  | some fault' => s.raise h fault'
  | none =>
    (if h.gateWrite then s.closeGate else s).become { h with
      gateWrite := false
      phase := if h.child then .felling (.recovered fault)
        else .settling true (a.recovered h fault none) }

def fellStep (after : After) : Launch :=
  match o.fault with
  | some fault => s.raise h fault
  | none =>
    (if o.sight.gone then s.seeGone else s).become
      { h with phase := .settling o.sight.gone (after.record a h o.sight.gone) }

/-- `finalize_claimed_lease`, or `release_lease(reserved_only=True)`. -/
def settleStep (cleanup : Bool) (record : Option Record) : Launch :=
  if h.claimed then
    if cleanup then s.tryAct h o Launch.freeClaimed { h with phase := .printing record }
    else if h.child then s.become { h with phase := .holding record }
    else s.become { h with phase := .printing record }
  else s.tryAct h o Launch.freeReserved { h with phase := .printing record }

/-- One round of `_quarantine_or_hold_guard_lease`. -/
def holdStep (record : Option Record) : Launch :=
  match o.fault with
  | some fault => if o.caught then s else s.raise h fault
  | none =>
    if o.sight.gone then s.seeGone.become { h with phase := .settling true record }
    else if s.lease = .running ∨ s.lease = .quarantined then
      { s with lease := .quarantined }.become { h with phase := .printing record }
    else s

/-- `emit_guard_result`, or the message that replaces it. -/
def printStep (record : Option Record) : Launch :=
  let next := { h with phase := .returning }
  match record with
  | none => s.tryAct h o id next
  | some record =>
    match o.fault with
    | none => (s.print (.result record)).become next
    | some fault =>
      let s := if o.landed then s.print (.result record) else s.print .torn
      if o.caught then s.become next else s.raise h fault

/-- The next action of `_guarded_run`. -/
def helperStep : Launch :=
  match h.phase with
  | .initializing => initializeStep a s h o
  | .spawning => s.act h o Launch.spawnGate { h with phase := .greeting }
  | .greeting => greetStep s h o
  | .identifying => identifyStep s h o
  | .claiming => claimStep s h o
  | .declining reason detail => s.act h o Launch.closeGate
      { h with gateWrite := false, phase := .felling (.declined reason detail) }
  | .owning => s.act h o id { h with claimed := true, phase := .announcing }
  | .announcing => s.act h o (·.print .ready) { h with phase := .committing }
  | .committing =>
    match o.fault with
    | some fault => s.raise h fault
    | none => { s with pending := true }.become { h with released := true, phase := .writing }
  | .writing => s.act h o (fun s => { s with opened := true }) { h with phase := .closing }
  | .closing => s.act h o Launch.closeGate { h with gateWrite := false, phase := .confirming }
  | .confirming => confirmStep s h o
  | .monitoring => monitorStep a s h o
  | .draining code => drainStep a s h o code
  | .recovering fault => recoverStep a s h o fault
  | .felling after => fellStep a s h o after
  | .settling cleanup record => settleStep s h o cleanup record
  | .holding record => holdStep s h o record
  | .printing record => printStep s h o record
  | .returning =>
    match o.fault with
    | some fault => s.raise h fault
    | none => s.exit

end Actions

/-! ## Actions of the gate -/

section GateActions
variable (s : Launch) (o : GateObserved)

/-- The gate ends, and its pipe ends with it. -/
def Launch.gateExit : Launch := { s with gate := .exited, readyOpen := false, statusOpen := false }

def readGate : Launch :=
  match o.fault with
  | some _ => s.gateExit
  | none =>
    if s.opened then { s with opened := false, gate := .launching }
    else if s.gateOpen then s
    else s.gateExit

/-- `Popen` returns unless an exception has come through its error pipe. -/
def awaitExec : Launch :=
  match o.fault with
  | some _ => { s with gate := .reporting (.failed o.detail) }
  | none =>
    match s.command with
    | .absent => s
    | .forked => s
    | .execFailed => { s with gate := .reporting (.failed o.detail) }
    | .running => { s with gate := .reporting .confirmed }
    | .ended => { s with gate := .reporting .confirmed }

def reportStep (report : Report) : Launch :=
  let sent := { s with report := some report }
  let closed (s : Launch) : Launch :=
    match report with
    | .confirmed => { s with statusOpen := false, gate := .supervising }
    | .failed _ => s.gateExit
  match o.fault with
  | none => closed sent
  | some .osError => closed (if o.landed then sent else s)
  | some .interrupt => (if o.landed then sent else s).gateExit

/-- The next action of `_gate_exec_child`. -/
def gateStep : Launch :=
  match s.gate with
  | .absent => s
  | .starting =>
    match o.fault with
    | none => { s with readied := true, readyOpen := false, gate := .reading }
    | some _ => { s with readied := s.readied || o.landed }.gateExit
  | .reading => readGate s o
  | .launching =>
    match o.fault with
    | none => { s with command := .forked, gate := .forked }
    | some _ => { s with gate := .reporting (.failed o.detail) }
  | .forked => awaitExec s o
  | .reporting report => reportStep s o report
  | .supervising =>
    match o.fault with
    | some _ => s.gateExit
    | none => if s.command = .ended then s.gateExit else s
  | .exited => s

end GateActions

/-! ## Runs -/

inductive Event where
  | helper (o : Observed)
  | helperDies
  | gate (o : GateObserved)
  | gateDies
  /-- the kernel's exec of the user's argv -/
  | exec (succeeds : Bool)
  | commandDies
  /-- a reservation expires -/
  | leaseLapses
  deriving DecidableEq, Repr

def step (a : Args) (s : Launch) : Event → Launch
  | .helper o =>
    match s.helper with
    | none => s
    | some h => helperStep a s h o
  | .helperDies => s.exit
  | .gate o => gateStep s o
  | .gateDies => if s.gate = .absent then s else s.gateExit
  | .exec succeeds =>
    if s.command = .forked then
      if succeeds then { s with command := .running, executed := true }
      else { s with command := .execFailed }
    else s
  | .commandDies =>
    if s.command = .forked ∨ s.command = .running then { s with command := .ended } else s
  | .leaseLapses => s.freeReserved

/-! ## The controller -/

/-- `_extract_memory_guard`: the last result, if it is whole. -/
def extractMemoryGuard (stderr : List Output) : Option Record :=
  match stderr.reverse.find? (· ≠ .ready) with
  | some (.result record) => some record
  | _ => none

/-- `_guard_command_start_evidence`. -/
def guardCommandStartEvidence (r : Record) : Option Bool :=
  if r.commandStarted then some true
  else if r.status = .refused then some false
  else none

/-- The outcome of `_finalize_guarded_result`. -/
inductive Finalized where
  | returned (exitCode : Int) (record : Record)
  /-- `GuardFinalizationError` with its `command_started` -/
  | raised (commandStarted : Option Bool)
  deriving DecidableEq, Repr

/-- `_finalize_guarded_result`. `agrees` says whether the reservation that the record describes and
its thresholds are accepted; where they are not, the error carries the record's evidence. -/
def finalizeGuardedResult (agrees : Record → Bool) (exitCode : Int) (stderr : List Output) :
    Finalized :=
  match extractMemoryGuard stderr with
  | none => .raised none
  | some record =>
    if !agrees record then .raised (guardCommandStartEvidence record)
    else if record.status = .ok then
      match record.commandExitCode with
      | none => .raised (guardCommandStartEvidence record)
      | some code =>
        if exitCode ≠ code then .raised (guardCommandStartEvidence record)
        else .returned code record
    else if exitCode ≠ helperExit then .raised (guardCommandStartEvidence record)
    else .returned helperExit record

end Remrun.Guard
