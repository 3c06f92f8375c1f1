import Remrun.Durable.Spool
import Remrun.Lib.Base64
import Remrun.Lib.JsonText
import Remrun.Lib.Search
import Remrun.Lib.Utf8
import Remrun.Reconcile.Manifest

/-!
# Results of durable runs

How the controller reads the private records of a durable run off the end of its error log, and
when a bounded log gives it the same result as the whole stream would.
-/

namespace Remrun.Finalization

open JsonText Spool

set_option autoImplicit false

universe u

abbrev Text := List Char

/-- A `dict` that JSON gives. -/
abbrev Members (F : Type u) := List (String × Value F)

def strip (text : Text) : Text := Reconcile.strip Reconcile.isSpace text

/-! ## The data -/

/-- The errors that stop a run's result from being read, by their classes. -/
inductive ErrorClass where
  | transport
  | commandNotStarted
  | guardFinalization
  | typeError
  | recursionError
  deriving DecidableEq

/-- `TransportError` and its subclasses, and what the calls raise. -/
inductive FinalizationError (F : Type u) where
  | transport (detail : String)
  | commandNotStarted (detail : String)
  | guardFinalization (detail : String) (commandStarted : Option Bool)
      (memoryGuard : Option (Members F))
  | raised (error : ErrorClass)

def FinalizationError.class {F : Type u} : FinalizationError F → ErrorClass
  | transport _ => .transport
  | commandNotStarted _ => .commandNotStarted
  | guardFinalization _ _ _ => .guardFinalization
  | raised error => error

/-- `MemoryReservation`, as far as a result reads it. -/
structure MemoryReservation (L : Type) where
  lease : L
  effectiveCommandLimitBytes : Option Int
  minAvailableBytes : Int
  allowanceBytes : Int
  controlOverheadBytes : Int
  capacityBytes : Int
  allowanceBasis : Option String
  allocationRule : Option String

inductive LoadFailure where
  | value
  | recursion

/-- What the result is read with: the JSON reader that refuses the non-standard constants, how a
float compares with a whole number, `MemoryReservation.from_payload` and
`_effective_guard_reservation`. -/
structure Calls (F : Type u) (L : Type) where
  loads : Text → Except LoadFailure (Value F)
  floatIs : F → Int → Bool
  fromPayload : Members F → Except (FinalizationError F) (MemoryReservation L)
  effectiveGuardReservation : Members F → MemoryReservation L →
    Except (FinalizationError F) (MemoryReservation L)

inductive TelemetryKind where
  | legacy
  | detailed
  deriving DecidableEq

/-- What the controller remembers of a launch. -/
structure Execution (F : Type u) where
  telemetry : Option TelemetryKind
  platform : Option String
  batchMarker : Option Text
  powershellLanguageMarker : Option Text
  commandNotFoundMarker : Option Text
  guardToken : Option Text
  memoryReservation : Option (Members F)

/-- What the target answers: the status document and the two logs. -/
structure Payload (F : Type u) where
  status : Option (Members F)
  stdoutB64 : Option Bytes
  stderrB64 : Option Bytes

structure ExecResult (F : Type u) (L : Type) where
  exitCode : Int
  stdout : Text
  stderr : Text
  telemetry : Option (Members F)
  memoryGuard : Option (Members F)
  memoryReservation : Option (MemoryReservation L)

/-! ## Private records -/

/-- `_TELEMETRY_MARKER`. -/
def telemetryMarker : Text := '\n' :: "__REMRUN_TELEMETRY__ ".toList

/-- The text between the two line ends of `_guard_markers(token)[0]`. -/
def readyText (token : Text) : Text := "__REMRUN_GUARD_READY_".toList ++ token ++ ['_', '_']

def readyMarker (token : Text) : Text := '\n' :: (readyText token ++ ['\n'])

def resultText (token : Text) : Text := "__REMRUN_GUARD_RESULT_".toList ++ token ++ "__ ".toList

def resultMarker (token : Text) : Text := '\n' :: resultText token

def upToNewline (text : Text) : Text := text.takeWhile (· ≠ '\n')

def afterNewline (text : Text) : Text := (text.dropWhile (· ≠ '\n')).drop 1

def member {F : Type u} (name : String) (data : Members F) : Option (Value F) :=
  (data.find? fun m => m.1 = name).map Prod.snd

section Reading
variable {F : Type u} {L : Type} (C : Calls F L)

/-- `value == n`. -/
def equals (n : Int) : Option (Value F) → Bool
  | some (.int m) => m = n
  | some (.float x) => C.floatIs x n
  | some (.bool b) => (b.toNat : Int) = n
  | _ => false

/-- `value == n`, where `n` may be `None`. -/
def equalsOption : Option Int → Option (Value F) → Bool
  | none, none => true
  | none, some .null => true
  | none, _ => false
  | some n, value => equals C n value

/-- `_extract_telemetry`. -/
def extractTelemetry (stderr : Text) :
    Except (FinalizationError F) (Text × Option (Members F)) :=
  match Search.rfind telemetryMarker stderr with
  | none => .ok (stderr, none)
  | some (before, after) =>
    match C.loads (strip (upToNewline after)) with
    | .error .value => .ok (stderr, none)
    | .error .recursion => .error (.raised .recursionError)
    | .ok (.obj data) => .ok (before ++ afterNewline after, some data)
    | .ok _ => .ok (stderr, none)

/-- `_GUARD_STATUSES`. -/
def guardStatuses : List String := ["ok", "refused", "terminated", "failed_safe"]

/-- The minimum schema of a guard result. A list or a dictionary cannot be looked up in a set. -/
def guardSchema (data : Members F) : Except (FinalizationError F) Bool :=
  if !equals C 1 (member "schema" data) then .ok false
  else
    let started := match member "command_started" data with
      | some (.bool _) => true
      | _ => false
    match member "status" data with
    | some (.str status) => .ok (status ∈ guardStatuses && started)
    | some (.arr _) | some (.obj _) => .error (.raised .typeError)
    | _ => .ok false

/-- `_extract_memory_guard`. -/
def extractMemoryGuard (stderr token : Text) :
    Except (FinalizationError F) (Text × Option (Members F) × Bool) :=
  let ready : Bool := decide (readyMarker token <:+: stderr)
  let cleaned := Search.remove (readyMarker token) stderr
  match Search.rfind (resultMarker token) cleaned with
  | none => .ok (cleaned, none, ready)
  | some (before, after) =>
    let payload := strip (upToNewline after)
    match C.loads payload with
    | .error .value => .ok (cleaned, none, ready)
    | .error .recursion => .error (.raised .recursionError)
    | .ok (.obj data) =>
      (guardSchema C data).map fun complete =>
        if complete then (before ++ after.drop payload.length, some data, ready)
        else (cleaned, none, ready)
    | .ok _ => .ok (cleaned, none, ready)

/-- `_guard_command_start_evidence`. -/
def guardCommandStartEvidence (guard : Members F) : Option Bool :=
  match member "command_started" guard with
  | some (.bool true) => some true
  | some (.bool false) =>
    match member "status" guard with
    | some (.str "refused") => some false
    | _ => none
  | _ => none

def optionalInt : Option Int → Value F
  | none => .null
  | some n => .int n

def optionalStr : Option String → Value F
  | none => .null
  | some s => .str s

/-- The guard result with what the reservation says. -/
def withReservation (guard : Members F) (r : MemoryReservation L) : Members F :=
  dict (guard ++ [("command_limit_enforced", .bool r.effectiveCommandLimitBytes.isSome),
    ("command_limit_bytes", optionalInt r.effectiveCommandLimitBytes),
    ("enforced_command_limit_bytes", optionalInt r.effectiveCommandLimitBytes),
    ("allowance_bytes", .int r.allowanceBytes),
    ("control_overhead_bytes", .int r.controlOverheadBytes),
    ("capacity_bytes", .int r.capacityBytes),
    ("allowance_basis", optionalStr r.allowanceBasis),
    ("allocation_rule", optionalStr r.allocationRule)])

/-- `_GUARD_HELPER_EXIT`. -/
def guardHelperExit : Int := 125

/-- What a guard result says once the reservation in effect is known. -/
def judgeGuard (helperExitCode : Int) (stdout stderr : Text) (telemetry : Option (Members F))
    (platformName : String) (guard : Members F) (effective : MemoryReservation L) :
    Except (FinalizationError F) (ExecResult F L) :=
  if !equalsOption C effective.effectiveCommandLimitBytes (member "max_command_bytes" guard) ||
      !equals C effective.minAvailableBytes (member "min_available_bytes" guard) then
    .error (.guardFinalization
      (platformName ++ " memory guard result thresholds do not match the reservation")
      (guardCommandStartEvidence guard) (some guard))
  else
    let result := withReservation guard effective
    match member "status" result with
    | some (.str "ok") =>
      match member "command_exit_code" result with
      | some (.int code) =>
        if helperExitCode ≠ code then
          .error (.guardFinalization
            (platformName ++ " memory guard helper exit disagrees with command exit")
            (guardCommandStartEvidence result) (some result))
        else .ok ⟨code, stdout, stderr, telemetry, some result, some effective⟩
      | _ =>
        .error (.guardFinalization
          (platformName ++ " memory guard omitted command exit code")
          (guardCommandStartEvidence result) (some result))
    | _ =>
      if helperExitCode ≠ guardHelperExit then
        .error (.guardFinalization
          (platformName ++ " memory guard classified a safety stop but helper exited " ++
            toString helperExitCode)
          (guardCommandStartEvidence result) (some result))
      else .ok ⟨guardHelperExit, stdout, stderr, telemetry, some result, some effective⟩

/-- The part of `_finalize_guarded_result` that follows the extraction. -/
def concludeGuard (helperExitCode : Int) (stdout : Text) (reservation : MemoryReservation L)
    (telemetry : Option (Members F)) (platformName : String) :
    Text × Option (Members F) × Bool → Except (FinalizationError F) (ExecResult F L)
  | (_, none, ready) =>
    let detail :=
      if ready then
        platformName ++ " memory guard result missing after guard initialization; " ++
          "command completion is unknown"
      else
        platformName ++ " memory guard emitted no final result and readiness " ++
          "could not be established; command completion is unknown"
    .error (.guardFinalization detail none none)
  | (stderr, some guard, _) =>
    (C.effectiveGuardReservation guard reservation).bind
      (judgeGuard C helperExitCode stdout stderr telemetry platformName guard)

/-- `_finalize_guarded_result`. -/
def finalizeGuardedResult (helperExitCode : Int) (stdout stderr token : Text)
    (reservation : MemoryReservation L) (telemetry : Option (Members F))
    (platformName : String) : Except (FinalizationError F) (ExecResult F L) :=
  (extractMemoryGuard C stderr token).bind
    (concludeGuard C helperExitCode stdout reservation telemetry platformName)

def wholeDevice (fields : List String) : Value F :=
  .obj ([("scope", .str "whole_device")] ++ fields.map (fun field => (field, .null)) ++
    [("status", .str "unavailable")])

/-- `_unavailable_detailed_telemetry`. -/
def unavailableDetailedTelemetry (platformName detail : String) : Members F :=
  let windows := platformName = "windows"
  [("schema", .int 1), ("status", .str "unavailable"),
    ("cpu", .obj [("cpu_sec", .null), ("avg_cpu_pct", .null),
      ("coverage", .str "sampler_failed"),
      ("whole_device", wholeDevice ["avg_busy_pct", "max_busy_pct"])]),
    ("memory", .obj [("peak_bytes", .null),
      ("metric", .str (if windows then "job_memory_peak" else "rss_sum_sampled")),
      ("sample_interval_ms", .int 200), ("sample_count", .int 0),
      ("coverage", .str "sampler_failed"),
      ("shared_page_semantics", .str (if windows then "not_applicable" else "may_double_count")),
      ("whole_device", wholeDevice ["total_bytes", "min_available_bytes", "max_used_pct"])]),
    ("gpu", .obj [("scope", .str "whole_device"), ("kind", .str "unknown"),
      ("max_util_pct", .null), ("min_vram_free_bytes", .null), ("status", .str "unavailable"),
      ("devices", .arr [])]),
    ("peak_rss_mb", .null), ("avg_cpu_pct", .null), ("cpu_sec", .null), ("wall_sec", .null),
    ("process_tree_drained", .null), ("detail", .str detail)]

def windowsBatchUnsupported : String :=
  "unsupported ssh-powershell command: top-level .cmd/.bat files are " ++
  "unsupported because the current PowerShell-to-cmd.exe seam does not " ++
  "preserve remrun's exact argv contract; use a native " ++
  "executable or .ps1 wrapper"

def windowsPowershellCommandUnsupported : String :=
  "unsupported ssh-powershell command: direct PowerShell cmdlets, functions, " ++
  "filters, configurations, and aliases cannot preserve named-parameter binding " ++
  "through remrun's exact list-of-strings command API; use a .ps1 wrapper that " ++
  "accepts positional data, or invoke pwsh -NoProfile -Command with intentional " ++
  "PowerShell source"

def windowsCommandNotFound : String :=
  "ssh-powershell command was not found at the dispatch boundary; no user " ++
  "command was started"

/-- The markers of a command that was refused before its start, with the refusals. -/
def startMarkers (x : Execution F) : List (Text × String) :=
  (x.batchMarker.toList.map fun m => (m, windowsBatchUnsupported)) ++
  (x.powershellLanguageMarker.toList.map fun m => (m, windowsPowershellCommandUnsupported)) ++
  x.commandNotFoundMarker.toList.map fun m => (m, windowsCommandNotFound)

/-- The first of these markers in a text. -/
def refusal (x : Execution F) (stderr : Text) : Option String :=
  ((startMarkers x).find? fun m => m.1 ≠ [] && decide (m.1 <:+: stderr)).map Prod.snd

/-- The telemetry of a run, and its error log without the record. -/
def telemetryOf (x : Execution F) (stderr : Text) :
    Except (FinalizationError F) (Text × Option (Members F)) :=
  match x.telemetry with
  | none => .ok (stderr, none)
  | some .legacy => extractTelemetry C stderr
  | some .detailed =>
    (extractTelemetry C stderr).map fun (stderr, telemetry) =>
      (stderr, some (telemetry.getD (unavailableDetailedTelemetry
        (x.platform.getD "unknown") "durable telemetry helper emitted no result")))

/-- The part of `finalize_durable_result` that follows the decoding of the logs. -/
def concludeResult (x : Execution F) (code : Int) (stdout stderr : Text) :
    Except (FinalizationError F) (ExecResult F L) :=
  (telemetryOf C x stderr).bind fun (stderr, telemetry) =>
    match refusal x stderr with
    | some detail => .error (.commandNotStarted detail)
    | none =>
      match x.guardToken with
      | none | some [] => .ok ⟨code, stdout, stderr, telemetry, none, none⟩
      | some token =>
        match x.memoryReservation with
        | none => .error (.transport "durable guard metadata is missing")
        | some raw =>
          (C.fromPayload raw).bind fun reservation =>
            finalizeGuardedResult C code stdout stderr token reservation telemetry
              (x.platform.getD "target")

/-- `finalize_durable_result`. -/
def finalizeDurableResult (p : Payload F) (x : Execution F) :
    Except (FinalizationError F) (ExecResult F L) :=
  match p.status with
  | none => .error (.transport "durable result payload is malformed")
  | some status =>
    match member "state" status, member "wrapper_exit_code" status with
    | some (.str "complete"), some (.int code) =>
      match p.stdoutB64.bind Base64.decode, p.stderrB64.bind Base64.decode with
      | some stdout, some stderr =>
        concludeResult C x code (Utf8.decodeReplace stdout) (Utf8.decodeReplace stderr)
      | _, _ => .error (.transport "durable result logs are malformed")
    | some (.str "complete"), _ =>
      .error (.transport "durable result omitted the wrapper exit code")
    | _, _ => .error (.transport "durable result is not complete")

/-- The result of a run whose logs are these. -/
def finalizeLogs (status : Members F) (stdout stderr : Bytes) (x : Execution F) :
    Except (FinalizationError F) (ExecResult F L) :=
  finalizeDurableResult C
    ⟨some status, some (Base64.encode stdout), some (Base64.encode stderr)⟩ x

end Reading

end Remrun.Finalization
