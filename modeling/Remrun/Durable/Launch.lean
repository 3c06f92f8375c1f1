import Remrun.Durable.Labels

/-!
# Launching a durable run

`SSHPosixTransport.launch_durable` builds the launch spec on the controller, the supervisor
(`_durable_runner.py`) validates it on the target, and the observer (`_job_observer.py`) writes the
records the supervisor waits for. Each of them derives the job id and the paths of the run for
itself. The run modelled here meets no failure from outside: every call arrives, every process
lives, and no limit on the number of runs is reached.
-/

namespace Remrun.Durable

open JsonText
set_option autoImplicit false

def maxSpecBytes : Nat := 1024 * 1024
def maxArgvItems : Nat := 100000
def maxArgChars : Nat := 1024 * 1024
def logBytesLimit : Int := 1024 * 1024 * 1024

/-! ## What the controller is given -/

structure Reservation where
  allocationId : String
  fence : Int
  policyGeneration : Int
  policyDigest : String
  deriving DecidableEq, Repr

/-- `target_acceptance`, from the caller. -/
structure TargetAcceptance where
  runnerPath : String
  stateRoot : String
  operationId : String
  requestSha256 : String
  reservation : Reservation
  deriving DecidableEq, Repr

/-- The acceptance of a spec, with the paths `launch_durable` adds. -/
structure Acceptance extends TargetAcceptance where
  startGatePath : String
  startedPath : String
  deriving DecidableEq, Repr

structure Spec where
  runId : String
  resumeToken : String
  controller : String
  projectId : String
  target : String
  commandSha256 : String
  argv : List String
  readyPath : String
  maxLogBytes : Int
  createdAt : String
  acceptance : Option Acceptance
  deriving DecidableEq, Repr

/-- The memory guard before a launch: none, a renewal that is refused, or the helper's part of the
argv. -/
inductive Guard where
  | none
  | refused (detail : String)
  | admitted (helperArgs : List String)

/-- The target's file system, and digests. -/
structure Host where
  /-- `hashlib.sha256` of the JSON text of an argv -/
  commandDigest : List String → String
  commandDigestHex : ∀ command, (commandDigest command).length = 64 ∧
    ∀ c ∈ (commandDigest command).toList, isHexDigit c = true
  /-- `int(text, 16)` does not raise -/
  parsesHex : String → Bool
  parsesHexDigits : ∀ text, text.length = 64 → (∀ c ∈ text.toList, isHexDigit c = true) →
    parsesHex text = true
  /-- `Path.resolve`, through symbolic links -/
  resolve : String → String
  /-- the directory of a path resolves to one under the resolved root -/
  underRoot : String → String → Bool
  names : PathNames

/-- One call of `launch_durable` and what is around it. -/
structure Launch where
  generated : Generated
  /-- `platform.node()` of the controller -/
  node : String
  target : String
  projectId : String
  command : List String
  commandNe : command ≠ []
  declaredLabel : Option String
  cwd : String
  env : List (String × String)
  pathPrepend : List String
  stateRoot : String
  remoteHome : Option String
  remotePython : Option String
  shell : String
  loginShell : Bool
  /-- the first digits of the observer's digest -/
  observerDigest : String
  guard : Guard
  /-- the telemetry wrapper of a run without a guard -/
  telemetryArgs : List String
  maxLogBytes : Int
  createdAt : String
  targetAcceptance : Option TargetAcceptance

/-! ## The controller's side -/

def shellSafe (c : Char) : Bool :=
  c.isAlphanum || c ∈ ['@', '%', '+', '=', ':', ',', '.', '/', '-', '_']

/-- `shlex.quote`. -/
def shlexQuote (s : String) : String :=
  if s = "" then "''"
  else if s.toList.all shellSafe then s
  else String.ofList ('\'' :: s.toList.flatMap (fun c =>
    if c = '\'' then ['\'', '"', '\'', '"', '\''] else [c]) ++ ['\''])

def shlexJoin (command : List String) : String := " ".intercalate (command.map shlexQuote)

def rstripSlashes (path : String) : String :=
  String.ofList (path.toList.rdropWhile (· = '/'))

namespace Launch
variable (H : Host) (x : Launch)

def runId : String := newRunId x.generated x.target x.projectId

def expandRemote (path : String) : String :=
  match x.remoteHome.filter (· ≠ "") with
  | some home =>
    if path = "~" ∨ "~/".toList <+: path.toList then
      rstripSlashes home ++ String.ofList (path.toList.drop 1)
    else path
  | none => path

/-- `_job_state_root`. -/
def jobStateRoot : Except String String :=
  let root := rstripSlashes (x.expandRemote x.stateRoot)
  if root = "" then .error "target state root is empty"
  else if root = "~" ∨ "~/".toList <+: root.toList then .error "remote home unknown"
  else .ok root

/-- `posixpath.join(root, "durable-runs", run_id, name)`; no part but the first begins with `/`. -/
def runPath (root name : String) : String :=
  root ++ "/durable-runs/" ++ x.runId ++ "/" ++ name

def controller : String := controllerLabel x.node

def observation : JobObservation :=
  .forCommand H.names H.commandDigest x.runId x.projectId x.target "command" x.command
    x.declaredLabel x.controller

/-- The shell command of the user's argv. -/
def inner : String :=
  let exports := x.env.map fun (key, value) =>
    "export " ++ key ++ "=" ++ shlexQuote (x.expandRemote value)
  let path := if x.pathPrepend = [] then [] else
    ["export PATH=" ++ ":".intercalate (x.pathPrepend.map fun p => shlexQuote (x.expandRemote p)) ++
      ":\"$PATH\""]
  "; ".intercalate (exports ++ path ++
    ["cd " ++ shlexQuote x.cwd ++ " && " ++ shlexJoin x.command])

/-- `observation.encoded()`; of the text only the length matters. -/
def encoded : String := String.ofList (List.replicate (x.observation H).encodedLength 'e')

def observerPath (root : String) : String :=
  root ++ "/helpers/remrun_job_observer_v1_" ++ x.observerDigest ++ ".py"

def observedArgv (root : String) : List String :=
  [x.remotePython.getD "python3", "-S", x.observerPath root, "run", "--state-root", root,
    "--metadata-b64", x.encoded H] ++
  (if x.targetAcceptance.isSome then ["--start-gate-file", x.runPath root "start-gate.json",
    "--started-file", x.runPath root "started.json"] else []) ++
  ["--ready-file", x.runPath root "observer-ready.json", "--", x.shell,
    if x.loginShell then "-lc" else "-c", x.inner]

def wrapperArgs : List String :=
  match x.guard with
  | .admitted helperArgs => x.remotePython.getD "python3" :: helperArgs
  | _ => x.telemetryArgs

/-- The `spec` of `launch_durable`. -/
def spec (root : String) : Spec where
  runId := x.runId
  resumeToken := x.generated.resumeToken
  controller := x.controller
  projectId := x.projectId
  target := x.target
  commandSha256 := (x.observation H).commandSha256
  argv := x.wrapperArgs ++ x.observedArgv H root
  readyPath := x.runPath root "observer-ready.json"
  maxLogBytes := x.maxLogBytes
  createdAt := x.createdAt
  acceptance := x.targetAcceptance.map fun a =>
    { a with
      startGatePath := x.runPath root "start-gate.json"
      startedPath := x.runPath root "started.json" }

end Launch

/-! ## The text of a spec -/

/-- `ensure_ascii=False` escapes quotes, backslashes and control characters only. -/
def rawEscape (c : Char) : List Char :=
  if c = '"' ∨ c = '\\' ∨ c < ' ' then escapeChar c else [c]

def rawQuote (s : String) : List Char := '"' :: (s.toList.flatMap rawEscape ++ ['"'])

def rawMember (key : String) (value : List Char) : List Char := rawQuote key ++ ':' :: value

def rawObject (members : List (List Char)) : List Char := '{' :: (commaJoin members ++ ['}'])

def Reservation.text (r : Reservation) : List Char :=
  rawObject [rawMember "allocation_id" (rawQuote r.allocationId),
    rawMember "fence" (intText r.fence),
    rawMember "policy_generation" (intText r.policyGeneration),
    rawMember "policy_digest" (rawQuote r.policyDigest)]

def Acceptance.text (a : Acceptance) : List Char :=
  rawObject [rawMember "runner_path" (rawQuote a.runnerPath),
    rawMember "state_root" (rawQuote a.stateRoot),
    rawMember "operation_id" (rawQuote a.operationId),
    rawMember "request_sha256" (rawQuote a.requestSha256),
    rawMember "reservation" a.reservation.text,
    rawMember "schema" (intText 1),
    rawMember "start_gate_path" (rawQuote a.startGatePath),
    rawMember "started_path" (rawQuote a.startedPath)]

/-- `json.dumps(spec, ensure_ascii=False, separators=(",", ":"))`. -/
def Spec.text (s : Spec) : List Char :=
  rawObject ([rawMember "schema" (intText 1), rawMember "run_id" (rawQuote s.runId),
    rawMember "resume_token" (rawQuote s.resumeToken),
    rawMember "controller" (rawQuote s.controller),
    rawMember "project_id" (rawQuote s.projectId), rawMember "target" (rawQuote s.target),
    rawMember "command_sha256" (rawQuote s.commandSha256),
    rawMember "argv" ('[' :: (commaJoin (s.argv.map rawQuote) ++ [']'])),
    rawMember "ready_path" (rawQuote s.readyPath),
    rawMember "max_log_bytes" (intText s.maxLogBytes),
    rawMember "created_at" (rawQuote s.createdAt)] ++
    (s.acceptance.map fun a => rawMember "acceptance" a.text).toList)

/-- The bytes of the text in UTF-8. -/
def Spec.bytes (s : Spec) : Nat := (s.text.map Char.utf8Size).sum

/-! ## The supervisor's side -/

/-- `/` of `Path` and a name, as text. -/
def joinPath (base name : String) : String := if base = "/" then "/" ++ name else base ++ "/" ++ name

/-- `_safe_component` of `_durable_runner.py`. -/
def safeRunId (runId : String) : Except String Unit := do
  refuseIf (runId = "" ∨ 160 < runId.length ∨ runId = "." ∨ runId = "..") "run_id is invalid"
  refuseIf (!runId.toList.all safeChar) "run_id contains unsafe characters"

def runDir (root runId : String) : String := joinPath (joinPath root "durable-runs") runId

def boundedField (field value : String) (limit : Nat) : Except String Unit :=
  refuseIf (value = "" ∨ limit < value.length) (field ++ " is invalid")

def hexDigest (H : Host) (digest detail : String) : Except String Unit :=
  refuseIf (digest.length ≠ 64 ∨ !H.parsesHex digest) detail

def validToken (token : String) : Bool :=
  !token.toList.contains '\x00' && token.length ≤ maxArgChars

def validateArgv (argv : List String) : Except String Unit := do
  refuseIf (argv = [] ∨ maxArgvItems < argv.length) "argv is invalid"
  refuseIf (!argv.all validToken) "argv contains an invalid token"
  refuseIf (maxSpecBytes < (argv.map String.length).sum) "argv exceeds durable spec bound"

def isAbs (path : String) : Bool := path.toList.head? = some '/'

/-- `_validate_acceptance`. -/
def validateAcceptance (H : Host) (root : String) (spec : Spec) (a : Acceptance) :
    Except String Unit := do
  refuseIf (a.operationId ≠ spec.runId) "target acceptance operation identity mismatch"
  hexDigest H a.requestSha256 "target acceptance request digest is invalid"
  refuseIf (!isAbs a.runnerPath) "target acceptance runner path is invalid"
  refuseIf (!isAbs a.stateRoot) "target acceptance state root is invalid"
  refuseIf (a.reservation.allocationId = "") "target acceptance allocation identity is invalid"
  refuseIf (a.reservation.fence < 0) "target acceptance reservation fence is invalid"
  refuseIf (a.reservation.policyGeneration < 0)
    "target acceptance reservation policy_generation is invalid"
  refuseIf (a.reservation.policyDigest.length ≠ 64) "target acceptance policy digest is invalid"
  refuseIf (a.startGatePath ≠ joinPath (runDir root spec.runId) "start-gate.json")
    "target acceptance start_gate_path does not match run identity"
  refuseIf (a.startedPath ≠ joinPath (runDir root spec.runId) "started.json")
    "target acceptance started_path does not match run identity"

/-- `_validate_spec`, with the resolved state root. -/
def validateSpec (H : Host) (root : String) (spec : Spec) : Except String Unit := do
  safeRunId spec.runId
  boundedField "project_id" spec.projectId 256
  boundedField "target" spec.target 64
  boundedField "controller" spec.controller 64
  hexDigest H spec.commandSha256 "command_sha256 is invalid"
  validateArgv spec.argv
  refuseIf (spec.maxLogBytes < 0 ∨ logBytesLimit < spec.maxLogBytes) "max_log_bytes is invalid"
  refuseIf (spec.readyPath ≠ joinPath (runDir root spec.runId) "observer-ready.json")
    "ready_path does not match the run identity"
  spec.acceptance.elim (.ok ()) (validateAcceptance H root spec)

/-- `_launch` up to the supervisor, of a run that is new. The text is read back as it was
written. -/
def launch (H : Host) (root : String) (spec : Spec) : Except String Unit := do
  refuseIf (spec.bytes < 2 ∨ maxSpecBytes < spec.bytes) "launch spec has invalid size"
  refuseIf (spec.resumeToken = "" ∨ 256 < spec.resumeToken.length) "resume token is invalid"
  validateSpec H (H.resolve root) spec

/-! ## Records -/

/-- What the records of a run have in common. -/
structure ControlRecord where
  jobId : String
  commandSha256 : String
  deriving DecidableEq, Repr

/-- The record a supervisor expects, and writes as the start gate. -/
def Spec.control (spec : Spec) : ControlRecord := ⟨spec.runId, spec.commandSha256⟩

/-- `_control_identity`, in the observer's ready and started records. -/
def JobObservation.control (o : JobObservation) : ControlRecord := ⟨o.jobId, o.commandSha256⟩

/-- `_ready_valid`, and the identity check of `_read_control`. The owner of a ready record has
every key that is asked for. -/
def readyValid (record : ControlRecord) (spec : Spec) : Bool :=
  record.jobId = spec.runId && record.commandSha256 = spec.commandSha256

/-- `_state_root` of the observer. -/
def observerRoot (raw : String) : Except String Unit := do
  refuseIf (raw = "" ∨ '\x00' ∈ raw.toList ∨ 4096 < raw.length) "target state root is invalid"
  refuseIf (!isAbs raw) "target state root must be absolute"

def controlPath (H : Host) (root path label : String) : Except String Unit :=
  refuseIf (!H.underRoot path root)
    ("observer " ++ label ++ " file is outside the target state root")

/-- The observer up to its ready record. -/
def observeReady (H : Host) (root : String) (o : JobObservation) (readyPath : String) :
    Except String ControlRecord := do
  observerRoot root
  let metadata ← decodeMetadata o
  controlPath H root readyPath "ready"
  .ok metadata.control

/-- `_wait_start_gate`, with the gate the supervisor has written. -/
def waitStartGate (H : Host) (root path : String) (o : JobObservation) (gate : ControlRecord) :
    Except String Unit := do
  controlPath H root path "start gate"
  refuseIf (gate ≠ o.control) "observer start gate identity mismatch"

/-- `_write_started_file`. -/
def writeStarted (H : Host) (root path : String) (o : JobObservation) :
    Except String ControlRecord := do
  controlPath H root path "started"
  .ok o.control

/-- `_running_observation_matches`, on the one registry row of the run. -/
def runningObservationMatches (spec : Spec) (row : JobObservation) : Except String Unit := do
  refuseIf (row.project ≠ observedProjectId spec.projectId) "durable observer project mismatch"
  refuseIf (row.sourceController ≠ spec.controller) "durable observer source_controller mismatch"
  refuseIf (row.target ≠ spec.target) "durable observer target mismatch"
  refuseIf (row.commandSha256 ≠ spec.commandSha256) "durable observer command digest mismatch"

/-! ## The run -/

/-- How the controller records a run once its command may run. -/
inductive Recorded where
  /-- acknowledged and owned by the observer's row -/
  | running
  | notStarted (detail : String)
  /-- `completion_state` is `unknown` -/
  | unknown (detail : String)
  /-- the observer has refused before its ready record, and its exit code is taken for the
  command's -/
  | unobserved (detail : String)
  deriving DecidableEq, Repr

/-- The supervisor and the observer after an accepted start. -/
def startGated (H : Host) (root : String) (o : JobObservation) (spec : Spec) (a : Acceptance) :
    Except String Unit := do
  waitStartGate H root a.startGatePath o spec.control
  let started ← writeStarted H root a.startedPath o
  refuseIf (!readyValid started spec) "started.json identity mismatch"

/-- The supervisor and the observer with a launch spec, to the point where the command runs. -/
def Launch.supervised (H : Host) (x : Launch) (root : String) : Recorded :=
  let spec := x.spec H root
  let o := x.observation H
  match launch H root spec with
  | .error detail => .unknown detail
  | .ok () =>
    match observeReady H root o spec.readyPath with
    | .error detail => .unobserved detail
    | .ok ready =>
      if !readyValid ready spec then
        .unknown "observer readiness record is corrupt or mismatched"
      else
        match (spec.acceptance.elim (.ok ()) (startGated H root o spec) : Except String Unit) with
        | .error detail => .unobserved detail
        | .ok () =>
          match runningObservationMatches spec o with
          | .error detail => .unknown detail
          | .ok () => .running

/-- `launch_durable`, and what follows on the target. -/
def Launch.recorded (H : Host) (x : Launch) : Recorded :=
  match x.jobStateRoot with
  | .error detail => .unknown detail
  | .ok root =>
    match x.guard with
    | .refused detail => .notStarted detail
    | _ => x.supervised H root

/-- The run goes on under one identity, or is recorded as not started. -/
def Launch.Agrees (H : Host) (x : Launch) : Prop :=
  x.recorded H = .running ∨ ∃ detail, x.recorded H = .notStarted detail

end Remrun.Durable
