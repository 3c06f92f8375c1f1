import Remrun.Lib.JsonText
import Remrun.Lib.Transition

/-!
# The bootstrap helper

`_bootstrap.py` runs on the target. A setup takes the lock of its project, marks its receipt as
running, runs the steps of the payload and writes the marker of the environment and the
completed receipt. A `--check` reads receipt and marker without the lock. Receipt and lock belong
to the project, the marker belongs to the environment, which several projects may share.
-/

namespace Remrun.Bootstrap

open JsonText
set_option autoImplicit false

/-! ## Payloads -/

structure Environment where
  root : String
  path : String
  interpreter : String
  marker : String
  deriving DecidableEq, Repr

structure Payload where
  projectId : String
  declarationFingerprint : String
  fingerprint : String
  steps : List (List String)
  lockDigests : List (String × String)
  environment : Environment
  projectRoot : String
  deriving DecidableEq, Repr

inductive ReceiptStatus where
  | running
  | failed
  | complete
  deriving DecidableEq, Repr

/-- The fields of a receipt that are read again. -/
structure Receipt where
  projectId : String
  fingerprint : String
  status : ReceiptStatus
  deriving DecidableEq, Repr

structure Marker where
  projectId : String
  fingerprint : String
  environment : Environment
  deriving DecidableEq, Repr

/-- What tells one payload from another on the target. -/
def Payload.key (P : Payload) : Marker := ⟨P.projectId, P.fingerprint, P.environment⟩

def Payload.receipt (P : Payload) (status : ReceiptStatus) : Receipt :=
  ⟨P.projectId, P.fingerprint, status⟩

/-- The target's Python: digests, `pathlib` and the symbolic links of its directories. -/
structure Host where
  /-- `os.name == "nt"` -/
  nt : Bool
  /-- `hashlib.sha256(text).hexdigest()` -/
  sha256 : List Char → String
  /-- `Path.expanduser`, which may raise `RuntimeError` -/
  expanduser : String → Option String
  isAbsolute : String → Bool
  /-- `Path.parts` -/
  parts : String → List String
  /-- `/` of `Path` -/
  join : String → String → String
  /-- `==` of `Path` -/
  samePath : String → String → Bool
  /-- `Path.resolve(strict=False)`, which may raise `OSError` -/
  resolve : String → Except String String
  /-- `_inside` -/
  inside : String → String → Bool

def maxReceiptBytes : Nat := 64 * 1024
def environmentMarkerName : String := ".remrun-bootstrap-v1.json"

section Payloads
variable (H : Host)

def environmentValue (E : Environment) : Value Unit :=
  .obj [("root", .str E.root), ("path", .str E.path), ("interpreter", .str E.interpreter),
    ("marker", .str E.marker)]

def stepsValue (steps : List (List String)) : Value Unit :=
  .arr (steps.map fun step => .arr (step.map .str))

-- No number stands in a fingerprinted document.
def noFloats : FloatText Unit := ⟨fun _ => nanName, fun _ => ()⟩

def Payload.document (P : Payload) : Value Unit :=
  .obj [("declaration_fingerprint", .str P.declarationFingerprint), ("steps", stepsValue P.steps),
    ("environment", environmentValue P.environment)]

/-- The text whose digest is the effective fingerprint. -/
def Payload.text (P : Payload) : List Char := dumps noFloats P.document

def validToken (token : String) : Bool := token ≠ "" && !token.toList.contains '\x00'

def validStep (step : List String) : Bool := !step.isEmpty && step.all validToken

def validLockDigest (item : String × String) : Bool :=
  item.1 ≠ "" && !item.1.toList.contains '\\' && !item.1.toList.contains '\x00' &&
    !H.isAbsolute item.1 && (H.parts item.1).all (fun part => part ∉ ["", ".", ".."]) &&
    item.2.length = 64

/-- `_load_payload`, of a payload whose fields have their types. -/
def loadPayload (P : Payload) : Except String Payload :=
  if P.projectId = "" ∨ P.declarationFingerprint.length ≠ 64 ∨ P.fingerprint = "" ∨ P.steps = [] then
    .error "bootstrap payload is incomplete"
  else match P.steps.findIdx? fun step => !validStep step with
  | some index => .error ("bootstrap step " ++ toString index ++ " is not a valid argv array")
  | none =>
    if !P.lockDigests.all (validLockDigest H) then
      .error "bootstrap lock digest has an invalid path or digest"
    else if P.environment.root = "" ∨ P.environment.path = "" ∨ P.environment.interpreter = "" ∨
        P.environment.marker = "" ∨ P.projectRoot = "" then
      .error "bootstrap payload has an invalid managed environment"
    else if H.sha256 P.text ≠ P.fingerprint then
      .error "bootstrap effective fingerprint is invalid"
    else .ok P

/-- `hashlib.sha256(project_id)`, which names receipt and lock. -/
def Payload.token (P : Payload) : String := H.sha256 P.projectId.toList

/-- The directory the environment path leads to. -/
def Payload.place (P : Payload) : Option String :=
  (H.expanduser P.environment.path).bind fun path => (H.resolve path).toOption

end Payloads

/-! ## What the helper finds -/

inductive File (α : Type) where
  | absent
  | link
  | malformed
  | document (data : α) (size : Nat)
  deriving DecidableEq, Repr

inductive LockFile where
  | symlink
  | missing
  | unreadable (exc : String)
  | content (sha256 : String)

/-- What the file system answers to one step of a helper, receipts and markers apart. -/
structure Observed where
  /-- the exception of a call that may fail -/
  fault : Option String
  /-- lock and receipt path lie under the state root -/
  statePaths : Bool
  /-- `project_root.resolve(strict=True)` raises -/
  rootFault : Option String
  lockFile : String → LockFile
  bindir : Except String String
  usableInterpreter : Bool
  rootDir : Bool
  venvDir : Bool
  /-- how a failing `flock` fails -/
  lockFault : Option String
  returncode : Int
  /-- length of a document that is written -/
  size : Nat

section Checks
variable (H : Host) (o : Observed)

def unexpanded (path : String) : Bool :=
  path = "~" || "~/".toList.isPrefixOf path.toList || "~\\".toList.isPrefixOf path.toList

/-- The last part of `_environment_state`. -/
def markerState (P : Payload) : File Marker → Except String String
  | .absent => .error "bootstrap environment marker is missing"
  | .link => .error "bootstrap environment marker must not be a symlink"
  | .malformed => .error "bootstrap environment marker is malformed"
  | .document data size =>
    if maxReceiptBytes < size then .error "bootstrap environment marker exceeds the size limit"
    else if data ≠ P.key then .error "bootstrap environment marker is stale or unauthenticated"
    else .ok "bootstrap environment is ready"

/-- `_environment_state` up to the interpreter: the paths of the environment. -/
def environmentIdentity (P : Payload) : Except String Unit :=
  let E := P.environment
  let all := [E.root, E.path, E.interpreter, E.marker]
  if all.any unexpanded then .error "bootstrap environment paths were not expanded"
  else match H.expanduser E.root, H.expanduser E.path, H.expanduser E.interpreter,
    H.expanduser E.marker, H.expanduser P.projectRoot with
  | some root, some venv, some interpreter, some marker, some projectRoot =>
    if [root, venv, interpreter, marker].any (fun path => !H.isAbsolute path) then
      .error "bootstrap environment paths must be absolute"
    else if !H.isAbsolute projectRoot then .error "bootstrap project root must be absolute"
    else match H.resolve root, H.resolve venv, H.resolve projectRoot with
    | .ok rootC, .ok venvC, .ok projectC =>
      if !H.isAbsolute rootC || !H.isAbsolute venvC then
        .error "bootstrap environment paths must be absolute"
      else if !H.inside venvC rootC || venvC = rootC then
        .error "bootstrap environment is outside its configured root"
      else if H.inside venvC projectC || venvC = projectC then
        .error "bootstrap environment must be external to the project"
      else if !H.samePath marker (H.join venv environmentMarkerName) then
        .error "bootstrap environment marker path is not environment-local"
      else if !H.samePath interpreter
          (H.join venv (if H.nt then "Scripts/python.exe" else "bin/python")) then
        .error "bootstrap environment interpreter path is malformed"
      else match o.bindir with
      | .error exc => .error ("bootstrap environment executable could not be resolved: " ++ exc)
      | .ok bindirC =>
        if !H.inside bindirC venvC then
          .error "bootstrap environment executable escapes its managed environment"
        else .ok ()
    | .error exc, _, _ => .error ("bootstrap environment path could not be resolved: " ++ exc)
    | _, .error exc, _ => .error ("bootstrap environment path could not be resolved: " ++ exc)
    | _, _, .error exc => .error ("bootstrap environment path could not be resolved: " ++ exc)
  | _, _, _, _, _ => .error "bootstrap environment paths are unresolved"

/-- `_environment_state`, with the marker file it finds. -/
def environmentState (P : Payload) (markerFile : File Marker)
    (requireReady requireInterpreter : Bool) : Except String String :=
  match environmentIdentity H o P with
  | .error detail => .error detail
  | .ok () =>
    if (requireInterpreter || requireReady) && !o.usableInterpreter then
      .error "bootstrap environment interpreter is missing or not executable"
    else if !requireReady then .ok "bootstrap environment identity is valid"
    else if !o.rootDir || !o.venvDir then .error "bootstrap environment directory is missing"
    else markerState P markerFile

def lockInputError (item : String × String) : Option String :=
  match o.lockFile item.1 with
  | .symlink => some ("declared lock input is a symlink on target: " ++ item.1)
  | .missing => some ("declared lock input is missing on target: " ++ item.1)
  | .unreadable exc => some ("declared lock input could not be read: " ++ item.1 ++ ": " ++ exc)
  | .content digest =>
    if digest ≠ item.2 then some ("declared lock input differs on target: " ++ item.1) else none

/-- `_validate_lock_inputs`, with the detail of the first failure. -/
def validateLockInputs (P : Payload) : Option String :=
  match o.rootFault with
  | some exc => some ("bootstrap project root could not be resolved: " ++ exc)
  | none => P.lockDigests.findSome? (lockInputError o)

inductive Recheck where
  | unchanged
  | changed (detail : String)
  | raises

/-- The loop over the lock inputs after the last step. -/
def recheckLockInputs : List (String × String) → Recheck
  | [] => .unchanged
  | item :: rest =>
    match o.lockFile item.1 with
    | .symlink => .changed ("bootstrap step changed a lock input into a symlink: " ++ item.1)
    | .missing => .changed ("bootstrap step changed a declared lock input: " ++ item.1)
    -- `_digest` is not guarded here
    | .unreadable _ => .raises
    | .content digest =>
      if digest ≠ item.2 then .changed ("bootstrap step changed a declared lock input: " ++ item.1)
      else recheckLockInputs rest

end Checks

/-! ## Helper processes -/

inductive Status where
  | ready
  | bootstrapped
  | bootstrapNeeded
  | unsupported
  | locked
  | failed
  deriving DecidableEq, Repr

/-- What a helper does next. -/
inductive Phase where
  /-- load the payload and look at its paths -/
  | arrived
  /-- open and take the lock -/
  | opening
  /-- validate the lock inputs under the lock -/
  | holding
  /-- read the receipt -/
  | inspecting
  /-- look at the environment of a matching receipt -/
  | matched
  /-- write the running receipt -/
  | recording
  | stepping (index : Nat)
  /-- wait for the started step -/
  | waiting (index : Nat)
  /-- look at lock inputs and environment after the last step -/
  | verifying
  | marking
  | completing
  /-- write the failed receipt -/
  | failing (detail : String)
  /-- print the result -/
  | answering (status : Status) (detail : String)
  /-- unlock and exit -/
  | answered
  deriving DecidableEq, Repr

structure Process where
  payload : Payload
  /-- `--check` -/
  check : Bool
  phase : Phase
  deriving DecidableEq, Repr

/-- What has happened to an environment. -/
inductive Entry where
  | started (payload : Payload) (index : Nat)
  | succeeded (payload : Payload) (index : Nat)
  deriving DecidableEq, Repr

/-- Receipts and locks by the digest of the project id, markers by the directory of their
environment, and the steps so far, last first. -/
structure Target where
  receipts : String → File Receipt
  markers : Option String → File Marker
  locks : String → Option Nat
  procs : Nat → Option Process
  log : List Entry

def Target.fresh : Target := ⟨fun _ => .absent, fun _ => .absent, fun _ => none, fun _ => none, []⟩

inductive Event where
  | invoke (pid : Nat) (payload : Payload) (check : Bool)
  /-- the next action of a helper -/
  | advance (pid : Nat) (o : Observed)
  /-- a helper dies, its lock with it -/
  | kill (pid : Nat)
  /-- A step, or a user, removes or spoils a marker or a receipt. Nobody but the helper writes
  them. -/
  | loseMarker (place : Option String) (spoiled : Bool)
  | loseReceipt (token : String) (spoiled : Bool)

section Step
variable (H : Host)

def Target.goto (s : Target) (pid : Nat) (p : Process) (phase : Phase) : Target :=
  { s with procs := Function.update s.procs pid (some { p with phase := phase }) }

def Target.setReceipt (s : Target) (P : Payload) (status : ReceiptStatus) (size : Nat) : Target :=
  { s with receipts := Function.update s.receipts (P.token H) (.document (P.receipt status) size) }

/-- `Path(environment["marker"])` is not expanded again where it is written. -/
def Payload.writePlace (P : Payload) : Option String := (H.resolve P.environment.path).toOption

def Target.setMarker (s : Target) (P : Payload) (size : Nat) : Target :=
  { s with markers := Function.update s.markers (P.writePlace H) (.document P.key size) }

def Target.record (s : Target) (entry : Entry) : Target := { s with log := entry :: s.log }

def Target.lock (s : Target) (token : String) (pid : Nat) : Target :=
  { s with locks := Function.update s.locks token (some pid) }

/-- `_unlock` and the end of the process, or its death: only its own lock is released. -/
def Target.exit (s : Target) (pid : Nat) : Target :=
  { s with
    procs := Function.update s.procs pid none
    locks := fun token => if s.locks token = some pid then none else s.locks token }

/-- `main` up to the lock. -/
def arrive (p : Process) (o : Observed) : Phase :=
  match loadPayload H p.payload with
  | .error detail => .answering .unsupported detail
  | .ok payload =>
    match environmentState H o payload .absent false false with
    | .error detail => .answering .unsupported detail
    | .ok _ =>
      if !o.statePaths then
        .answering .unsupported "bootstrap state paths must stay under the target state root"
      else if p.check then
        match validateLockInputs o payload with
        | some detail => .answering .bootstrapNeeded detail
        | none => .inspecting
      else match o.fault with
        | some exc => .answering .unsupported exc
        | none => .opening

def Receipt.completes (r : Receipt) (P : Payload) : Bool := r = P.receipt .complete

/-- A setup reads its receipt. -/
def readReceipt (p : Process) : File Receipt → Phase
  | .document r size =>
    if maxReceiptBytes < size then
      .answering .unsupported "bootstrap receipt exceeds the size limit"
    else if r.completes p.payload then .matched
    else .recording
  | _ => .recording

/-- `_inspect_existing_bootstrap` up to the environment. -/
def inspectReceipt (p : Process) (o : Observed) (file : File Receipt) : Phase :=
  if !o.statePaths then
    .answering .unsupported "bootstrap receipt path is outside the target state root"
  else match file with
  | .absent => .answering .bootstrapNeeded "bootstrap receipt is missing"
  | .link => .answering .bootstrapNeeded "bootstrap receipt is missing"
  | .malformed => .answering .bootstrapNeeded "bootstrap receipt is malformed"
  | .document r size =>
    if maxReceiptBytes < size then
      .answering .unsupported "bootstrap receipt exceeds the size limit"
    else if r.completes p.payload then .matched
    else .answering .bootstrapNeeded "bootstrap receipt is stale or incomplete"

/-- The environment behind a matching receipt. -/
def reuse (p : Process) (o : Observed) (markerFile : File Marker) : Phase :=
  match environmentState H o p.payload markerFile true false, p.check with
  | .ok detail, true => .answering .ready detail
  | .error detail, true => .answering .bootstrapNeeded detail
  | .ok _, false => .answering .ready "matching completed bootstrap receipt and environment marker"
  | .error _, false => .recording

/-- The checks after the last step; without a phase the helper raises. -/
def verify (p : Process) (o : Observed) : Option Phase :=
  match recheckLockInputs o p.payload.lockDigests with
  | .raises => none
  | .changed detail => some (.failing detail)
  | .unchanged =>
    match environmentState H o p.payload .absent false true with
    | .error detail => some (.failing detail)
    | .ok _ => some .marking

/-- One action of a helper. Where it raises, it exits without a result. -/
def advance (s : Target) (pid : Nat) (p : Process) (o : Observed) : Target :=
  let P := p.payload
  match p.phase with
  | .arrived => s.goto pid p (arrive H p o)
  | .opening =>
    match o.fault with
    | some exc => s.goto pid p (.answering .unsupported ("cannot open bootstrap lock: " ++ exc))
    | none =>
      match o.lockFault with
      | some exc =>
        s.goto pid p (.answering .unsupported ("cannot acquire bootstrap lock: " ++ exc))
      | none =>
        match s.locks (P.token H) with
        | some _ => s.goto pid p (.answering .locked "another bootstrap is running")
        | none => (s.goto pid p .holding).lock (P.token H) pid
  | .holding =>
    match validateLockInputs o P with
    | some detail => s.goto pid p (.answering .unsupported detail)
    | none => s.goto pid p .inspecting
  | .inspecting =>
    if p.check then s.goto pid p (inspectReceipt p o (s.receipts (P.token H)))
    else s.goto pid p (readReceipt p (s.receipts (P.token H)))
  | .matched => s.goto pid p (reuse H p o (s.markers (P.place H)))
  | .recording =>
    match o.fault with
    | some _ => s.exit pid
    | none => (s.goto pid p (.stepping 0)).setReceipt H P .running o.size
  | .stepping index =>
    if index < P.steps.length then
      match o.fault with
      | some exc => s.goto pid p
          (.failing ("bootstrap step " ++ toString index ++ " could not start: " ++ exc))
      | none => (s.goto pid p (.waiting index)).record (.started P index)
    else s.goto pid p .verifying
  | .waiting index =>
    if o.returncode = 0 then (s.goto pid p (.stepping (index + 1))).record (.succeeded P index)
    else s.goto pid p
      (.failing ("bootstrap step " ++ toString index ++ " exited " ++ toString o.returncode))
  | .verifying =>
    match verify H p o with
    | none => s.exit pid
    | some phase => s.goto pid p phase
  | .marking =>
    match o.fault with
    | some exc =>
      s.goto pid p (.failing ("bootstrap environment marker could not be written: " ++ exc))
    | none => (s.goto pid p .completing).setMarker H P o.size
  | .completing =>
    match o.fault with
    | some _ => s.exit pid
    | none => (s.goto pid p (.answering .bootstrapped "bootstrap completed")).setReceipt H P
        .complete o.size
  | .failing detail =>
    match o.fault with
    | some _ => s.exit pid
    | none => (s.goto pid p (.answering .failed detail)).setReceipt H P .failed o.size
  | .answering _ _ => s.goto pid p .answered
  | .answered => s.exit pid

def lost {α : Type} (spoiled : Bool) : File α := if spoiled then .malformed else .absent

def Target.step (s : Target) : Event → Target
  | .invoke pid payload check =>
    match s.procs pid with
    | some _ => s
    | none => { s with procs := Function.update s.procs pid (some ⟨payload, check, .arrived⟩) }
  | .advance pid o =>
    match s.procs pid with
    | none => s
    | some p => advance H s pid p o
  | .kill pid => s.exit pid
  | .loseMarker place spoiled =>
    { s with markers := Function.update s.markers place (lost spoiled) }
  | .loseReceipt token spoiled =>
    { s with receipts := Function.update s.receipts token (lost spoiled) }

end Step

end Remrun.Bootstrap
