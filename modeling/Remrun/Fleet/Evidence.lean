import Remrun.Fleet.Results
import Remrun.Frames.Delimiting
import Remrun.Lib.JsonReader

/-!
# Worker evidence

What `executor.py` reads once a command has ended, and what may be raised on the way: the files
that `_read_worker_metrics` looks for, with any bytes in them, and the validator of
`result_protocol.py` over any JSON, its texts with lone surrogates and its numbers of any size. Of
the arithmetic of floats only the conversion of whole numbers is modelled, which may overflow.
-/

namespace Remrun.Fleet.Evidence

open JsonReader (Text Value Members text member)
open Results (Outcome Publication Resource)
open Doubles (InRange)
open Frames (Bytes decodeUtf8)
set_option autoImplicit false

/-- What reading and validating may raise. -/
inductive Raise where
  | resultProtocolError (message : Text)
  | overflowError
  | recursionError
  deriving DecidableEq

/-- A check that raises nothing but a `ResultProtocolError`. -/
abbrev Check := Except Text

def refuse {α : Type} (message : String) : Check α := .error (text message)

def require (condition : Prop) [Decidable condition] (message : String) : Check Unit :=
  if condition then .ok () else refuse message

def need {α : Type} (value : Option α) (message : String) : Check α :=
  match value with
  | some a => .ok a
  | none => refuse message

def check {α : Type} (x : Check α) : Except Raise α := x.mapError .resultProtocolError

/-- The interpreter and its platform. -/
structure Host where
  /-- how deep a JSON text may nest -/
  depth : Nat
  /-- how many digits a whole number may have -/
  digits : Nat
  /-- the text of the exception that reading these bytes raises -/
  exceptionText : Bytes → Text
  /-- `json.dumps` of the details, which nest no deeper than what was read -/
  canonicalBytes : Members → Option Nat
  /-- whether a value is farther from the prepared one than the relative tolerance allows -/
  exceeds : ℚ → ℚ → ℚ → Bool
  /-- names with one key are one file on the target -/
  key : String → String

def Host.limits (H : Host) : JsonReader.Limits := ⟨H.depth, H.digits, true⟩

/-! ## Files -/

inductive Content where
  | absent
  /-- the transport raises an `OSError` or a `TransportError` -/
  | unavailable (why : Text)
  | file (data : Bytes)

abbrev Directory := String → Content

/-- A finished batch on its target: the stage, the inputs that were staged in its `in` directory,
and the output root, unless it is the stage. -/
structure Finished where
  stage : Directory
  inputs : List (String × Content)
  outputRoot : Option Directory

def batchMetricsName : String := "batch_metrics.json"
def doneJsonName : String := "done.json"
def maxResultEvidenceBytes : Nat := 4 * 1024 * 1024

section Reading
variable (H : Host)

def stageIn (inputs : List (String × Content)) : Directory := fun name =>
  ((inputs.find? fun input => H.key input.1 = H.key name).map Prod.snd).getD .absent

def unreadable {α : Type} (why : Text) : Check α :=
  .error (text "result envelope is unreadable: " ++ why)

/-- `_pull_json`, with what `_read_worker_metrics` makes of its exceptions. That `read_text`
translates newlines makes no difference to JSON, which has them between tokens only. -/
def pullJson : Content → Except Raise (Option Members)
  | .absent => .ok none
  | .unavailable why => check (unreadable why)
  | .file data =>
    if maxResultEvidenceBytes < data.length then
      check (refuse "result envelope exceeds size limit")
    else match decodeUtf8 data with
      | none => check (unreadable (H.exceptionText data))
      | some chars => match JsonReader.loads H.limits chars with
        | .ok (.obj members) => .ok (some members)
        | .ok _ => check (refuse "result envelope must be an object")
        | .error .depth => .error .recursionError
        | .error _ => check (unreadable (H.exceptionText data))

def Directory.places (d : Directory) : List Content := [d batchMetricsName, d doneJsonName]

def firstJson : List Content → Except Raise (Option Members)
  | [] => .ok none
  | place :: rest => do
    match ← pullJson H place with
    | some members => return some members
    | none => firstJson rest

def Finished.places (run : Finished) : List Content :=
  run.stage.places ++ (stageIn H run.inputs).places ++ (run.outputRoot.getD run.stage).places

/-- `_read_worker_metrics`. -/
def readWorkerMetrics (run : Finished) : Except Raise (Option Members) :=
  firstJson H (run.places H)

end Reading

/-! ## What is expected -/

structure Expected where
  jobId : Text
  preparedId : Text
  index : Int
  costUnit : Option Text
  costStatus : Text
  payloadMode : Text
  workId : Text
  measureId : Option Text
  preparedValue : Option ℚ
  verifyRelativeTolerance : ℚ
  /-- the stems of the reservations -/
  stems : List Text

structure Batch where
  batchId : Text
  specId : Text
  adapterId : Text
  expectedItems : List Expected
  completion : Results.Completion

/-! ## Fields -/

def objectOf (value : Value) (message : String) : Check Members :=
  match value with
  | .obj members => .ok members
  | _ => refuse message

def listOf (value : Value) (message : String) : Check (List Value) :=
  match value with
  | .arr values => .ok values
  | _ => refuse message

def boolOf (value : Value) (message : String) : Check Bool :=
  match value with
  | .bool b => .ok b
  | _ => refuse message

def field (members : Members) (name : String) : Value := (member members name).getD .null

def isText (value : Value) (t : Text) : Bool :=
  match value with
  | .str s => s = t
  | _ => false

def isInt (value : Value) (n : Int) : Bool :=
  match value with
  | .int m => m = n
  | _ => false

def isNull : Value → Bool
  | .null => true
  | _ => false

/-- `members[name] = value`. -/
def put (members : Members) (name : String) (value : Value) : Members :=
  JsonReader.dict (members ++ [(text name, value)])

/-- The keys are these and no others. -/
def keysAre (members : Members) (names : List String) : Bool :=
  names.all (fun name => (member members name).isSome) &&
    members.all fun m => names.any fun name => text name = m.1

/-- The name that is spelled so. -/
def named {α : Type} (spelling : α → String) (names : List α) : Value → Option α
  | .str t => names.find? fun name => text (spelling name) = t
  | _ => none

def isHexDigit (unit : Nat) : Bool := (48 ≤ unit && unit ≤ 57) || (97 ≤ unit && unit ≤ 102)

def isIdentity (t : Text) : Bool :=
  (text "sha256:").isPrefixOf t && t.length = 71 && (t.drop 7).all isHexDigit

/-- `_result_id`. -/
def resultId (value : Value) (field : String) : Check Text :=
  match value with
  | .str t =>
    if isIdentity t then .ok t else refuse (field ++ " must be sha256:<64 lowercase hex>")
  | _ => refuse (field ++ " must be sha256:<64 lowercase hex>")

/-- The parts between slashes. -/
def parts (path : Text) : List Text := path.splitOn 0x2F

/-- `_safe_path`. A path without empty, `.` and `..` parts is relative and canonical. -/
def safePath (value : Value) (field : String) : Check Text :=
  match value with
  | .str t =>
    if t = [] ∨ 0 ∈ t ∨ 0x5C ∈ t ∨
        ((parts t).any fun part => part = [] || part = text "." || part = text "..") = true then
      refuse (field ++ " must be a canonical safe relative path")
    else .ok t
  | _ => refuse (field ++ " must be a canonical safe relative path")

/-- The sign that a number has to have. -/
def signed (field : String) (positive : Bool) (q : ℚ) : Check ℚ :=
  if positive = true ∧ q ≤ 0 then refuse (field ++ " must be positive")
  else if positive = false ∧ q < 0 then refuse (field ++ " must be nonnegative")
  else .ok q

/-- `_finite`. A whole number has to be in the range of floats before anything is refused. -/
def finite (value : Value) (field : String) (positive : Bool) : Except Raise ℚ :=
  match value with
  | .int n =>
    match Doubles.ofInt n with
    | none => .error .overflowError
    | some q => check (signed field positive q)
  | .float (.finite q _) => check (signed field positive q)
  | _ => check (refuse (field ++ " must be finite"))

/-! ## One item -/

/-- `_text_output_stem`. -/
def textOutputStem (expected : Expected) : Check (Option Text) :=
  if expected.payloadMode ≠ text "text" then .ok none
  else if isIdentity expected.workId then .ok (some (text "text-" ++ expected.workId.drop 7))
  else refuse "text result output binding is invalid"

/-- What an item says happened. -/
structure Account where
  members : Members
  outcome : Outcome
  disposition : Results.Disposition
  publication : Publication
  workPerformed : Bool
  message : Option Text
  retryAfter : Value

/-- The item in human review. -/
def toReview (members : Members) : Members :=
  put (put (put members "outcome" (.str (text "review"))) "disposition" (.str (text "none")))
    "retry_after_s" .null

/-- Published bytes make a retry unsafe, so a failure that published is for review. -/
def Account.settle (a : Account) : Account :=
  if a.outcome = .failed ∧ a.publication ≠ .none then
    { a with
      members := toReview a.members
      outcome := .review
      disposition := .none
      retryAfter := .null }
  else a

def readMessage (value : Value) : Check (Option Text) :=
  match value with
  | .null => .ok none
  | .str t => .ok (some t)
  | _ => refuse "result message must be null or a string"

/-- All fields are there, but `details` need not be, and no others. -/
def fieldsKnown (members : Members) : Bool :=
  (Results.itemFields.all fun name => name = "details" || (member members name).isSome) &&
    members.all fun m => Results.itemFields.any fun name => text name = m.1

/-- The item is about the expected work. -/
def checkAttribution (expected : Expected) (members : Members) : Check Unit := do
  require (isText (field members "job_id") expected.jobId)
    "result job_id does not match expected work"
  let _ ← resultId (field members "prepared_id") "result prepared_id"
  require (isText (field members "prepared_id") expected.preparedId)
    "result prepared_id does not match expected work"
  require (0 ≤ expected.index ∧ isInt (field members "index") expected.index)
    "result item index does not match expected work"

/-- The checks before the first number. -/
def readAccount (expected : Expected) (completion : Results.Completion) (value : Value) :
    Check Account := do
  let found ← objectOf value "result item has unknown or missing fields"
  require (fieldsKnown found) "result item has unknown or missing fields"
  let members := if (member found "details").isSome then found
    else found ++ [(text "details", .obj [])]
  checkAttribution expected members
  let outcome ← need (named Outcome.text Results.outcomes (field members "outcome"))
    "result outcome or disposition is invalid"
  let disposition ← need
    (named Results.Disposition.text Results.dispositions (field members "disposition"))
    "result outcome or disposition is invalid"
  let publication ← need
    (named Publication.text Results.publications (field members "publication"))
    "result publication is not allowed"
  require (publication ∈ completion.allowedPublication) "result publication is not allowed"
  let _ ← need (named Resource.text Results.resources (field members "resource"))
    "result resource is invalid"
  let workPerformed ← boolOf (field members "work_performed")
    "result work_performed must be boolean"
  let message ← readMessage (field members "message")
  let a := Account.settle ⟨members, outcome, disposition, publication, workPerformed, message,
    field members "retry_after_s"⟩
  require (a.outcome = .failed ∨ a.disposition = .none)
    "successful/review result requires disposition none"
  require (a.outcome = .failed → a.disposition ≠ .none ∧ a.message.getD [] ≠ [])
    "failed result requires a disposition and message"
  return a

def checkRetry (a : Account) : Except Raise Unit :=
  if a.disposition = .retryLater then (fun _ => ()) <$> finite a.retryAfter "retry_after_s" true
  else check (require (isNull a.retryAfter) "retry_after_s is permitted only for retry-later")

structure Paths where
  outputs : List Text
  companion : Option Text

def Paths.all (p : Paths) : List Text := p.outputs ++ p.companion.toList

def readCompanion (value : Value) : Check (Option Text) :=
  match value with
  | .null => .ok none
  | value => some <$> safePath value "result companion"

/-- The last part of a path, up to a suffix, is a stem. -/
def bound (stems : List Text) (path : Text) : Bool :=
  let name := (parts path).getLastD []
  stems.any fun stem => name = stem || (stem ++ text ".").isPrefixOf name

/-- The stems that outputs may have. -/
def allowedStems (expected : Expected) (outputs : List Text) : Check (List Text) :=
  if outputs ≠ [] ∧ expected.stems = [] then do
    let stem ← textOutputStem expected
    (fun stem => [stem]) <$> need stem "result output has no prepared reservation"
  else .ok expected.stems

def isAlpha (unit : Nat) : Bool := (65 ≤ unit && unit ≤ 90) || (97 ≤ unit && unit ≤ 122)

/-- `[A-Za-z][A-Za-z0-9_.-]{0,127}`. -/
def isToken : Text → Bool
  | [] => false
  | first :: rest => isAlpha first && rest.length ≤ 127 && rest.all fun unit =>
      isAlpha unit || (48 ≤ unit && unit ≤ 57) || unit ∈ text "_.-"

def checkFailureCode (value : Value) : Check Unit :=
  match value with
  | .null => .ok ()
  | .str t => require (isToken t) "failure_code must be null or a token"
  | _ => refuse "failure_code must be null or a token"

/-- The checks between `retry_after_s` and the work units. -/
def readPaths (expected : Expected) (completion : Results.Completion) (a : Account) :
    Check Paths := do
  let values ← listOf (field a.members "outputs") "result outputs must be a list"
  let outputs ← values.mapM fun value => safePath value "result output"
  require outputs.Nodup "result outputs contain duplicates"
  let companion ← readCompanion (field a.members "companion")
  require (a.publication = .none → outputs = [] ∧ companion = none)
    "publication none forbids outputs and companion"
  require (a.publication = .none ∨ outputs ≠ []) "output-bearing publication requires an output"
  let stems ← allowedStems expected outputs
  let textBinding := expected.payloadMode = text "text" ∧ expected.stems = []
  require (outputs.all fun output => bound stems output)
    (if textBinding then "result output does not match text output binding"
     else "result output does not match a prepared reservation stem")
  require (companion.all fun path => bound stems path)
    (if textBinding then "result companion does not match text output binding"
     else "result companion does not match a prepared reservation stem")
  require (completion.companion = .forbidden → companion = none) "companion is forbidden"
  require (completion.companion = .required → a.publication ≠ .none → companion ≠ none)
    "companion is required"
  checkFailureCode (field a.members "failure_code")
  return ⟨outputs, companion⟩

/-- Work units with the right fields, before their value is read. -/
structure Work where
  value : Value
  measured : Bool
  /-- their unit or their measure is not the prepared one -/
  differs : Bool

/-- The unit of the prepared cost. -/
def isCostUnit (expected : Expected) (value : Value) : Bool :=
  match value, expected.costUnit with
  | .str t, some unit => t ≠ [] && t = unit
  | _, _ => false

def readWork (expected : Expected) (a : Account) : Check (Option Work) :=
  match field a.members "work_units", expected.measureId with
  | .null, _ => do
    require (¬ (a.outcome = .succeeded ∧ a.workPerformed ∧ expected.costStatus = text "exact"))
      "successful performed work requires WorkUnitsV2"
    return none
  | .obj units, none => do
    require (keysAre units ["unit", "value"]) "legacy work_units has the wrong fields"
    require (isCostUnit expected (field units "unit"))
      "work_units unit does not match prepared cost unit"
    return some ⟨field units "value", false, false⟩
  | _, none => refuse "legacy work_units has the wrong fields"
  | .obj units, some measureId => do
    require (keysAre units ["unit", "value", "measure_id"]) "work_units has the wrong fields"
    let found ← resultId (field units "measure_id") "work_units.measure_id"
    return some ⟨field units "value", true,
      !isCostUnit expected (field units "unit") || found ≠ measureId⟩
  | _, some _ => refuse "work_units has the wrong fields"

/-- A validated row. -/
structure Item where
  members : Members
  paths : Paths

section Validate
variable (H : Host)

/-- Whether the measured work is not the prepared work. -/
def workMismatch (expected : Expected) : Option Work → Except Raise Bool
  | none => .ok false
  | some work => do
    let value ← finite work.value "work_units.value" false
    return work.measured && (work.differs || expected.preparedValue.any fun prepared =>
      H.exceeds value prepared expected.verifyRelativeTolerance)

def checkElapsed (value : Value) : Except Raise Unit :=
  if isNull value then .ok () else (fun _ => ()) <$> finite value "elapsed_s" false

def checkDetails (value : Value) : Check Unit := do
  let details ← objectOf value "result details must be an object"
  let bytes ← need (H.canonicalBytes details) "result details must be canonical JSON data"
  require (bytes ≤ 65536) "result details exceed the byte limit"

def mismatched (members : Members) : Members :=
  put (put (toReview members) "failure_code" (.str (text "work_measure_mismatch"))) "message"
    (.str (text "worker work measure does not match frozen prepared work"))

/-- `_validate_item`. -/
def validateItem (expected : Expected) (completion : Results.Completion) (value : Value) :
    Except Raise Item := do
  let a ← check (readAccount expected completion value)
  checkRetry a
  let paths ← check (readPaths expected completion a)
  let work ← check (readWork expected a)
  let mismatch ← workMismatch H expected work
  checkElapsed (field a.members "elapsed_s")
  check (checkDetails H (field a.members "details"))
  return ⟨if mismatch then mismatched a.members else a.members, paths⟩

/-! ## The envelope -/

/-- What the loop over the items has seen. -/
structure Tally where
  seen : List Text
  claimedPaths : List Text
  out : List Item

/-- The first of these paths in order. -/
def least : List Text → Text
  | [] => []
  | path :: rest => rest.foldl (fun best other => if other < best then other else best) path

/-- `item.get("job_id") if isinstance(item, dict) else None`, unless it is no string. -/
def jobIdOf : Value → Option Text
  | .obj members => match member members "job_id" with
    | some (.str jobId) => some jobId
    | _ => none
  | _ => none

/-- The expected work of an item, the first one that names its job. -/
def claimOf (batch : Batch) (seen : List Text) (value : Value) : Check Expected := do
  let jobId ← need (jobIdOf value) "result contains an unknown job"
  let expected ← need (batch.expectedItems.find? fun row => row.jobId = jobId)
    "result contains an unknown job"
  require (jobId ∉ seen) "result contains a duplicate job"
  return expected

def Tally.add (t : Tally) (expected : Expected) (item : Item) : Tally :=
  ⟨t.seen ++ [expected.jobId], t.claimedPaths ++ item.paths.all, t.out ++ [item]⟩

/-- The paths of an item are its own. -/
def checkUnique (t : Tally) (item : Item) : Check Unit := do
  require item.paths.all.Nodup "result paths are not globally unique"
  match item.paths.all.filter fun path => path ∈ t.claimedPaths with
  | [] => .ok ()
  | overlap => .error (text "result paths are not globally unique: " ++ least overlap)

def tallyItem (batch : Batch) (t : Tally) (value : Value) : Except Raise Tally := do
  let expected ← check (claimOf batch t.seen value)
  let item ← validateItem H expected batch.completion value
  check (checkUnique t item)
  return t.add expected item

/-- The checks of `validate_result_envelope` before its loop. -/
def readHeader (batch : Batch) (envelope : Option Members) : Check (List Value) := do
  let members ← need envelope "result envelope has unknown or missing fields"
  require (keysAre members Results.envelopeFields) "result envelope has unknown or missing fields"
  require (isInt (field members "schema") 2 ∧ isText (field members "batch_id") batch.batchId)
    "result schema or batch_id does not match"
  let specId ← resultId (field members "spec_id") "result spec_id"
  let adapterId ← resultId (field members "adapter_id") "result adapter_id"
  require (specId = batch.specId ∧ adapterId = batch.adapterId)
    "result spec_id or adapter_id does not match"
  let items ← listOf (field members "items") "result items must be a list"
  require (batch.expectedItems.map Expected.jobId).Nodup "expected job IDs are not unique"
  require (items.length = batch.expectedItems.length)
    "result item count does not match expected work"
  return items

def Tally.start : Tally := ⟨[], [], []⟩

/-- `validate_result_envelope`. -/
def validateResultEnvelope (batch : Batch) (envelope : Option Members) :
    Except Raise (List Item) := do
  let items ← check (readHeader batch envelope)
  let t ← items.foldlM (tallyItem H batch) .start
  check (require (batch.expectedItems.all fun row => row.jobId ∈ t.seen)
    "result omitted expected work")
  return t.out

/-! ## The end of a batch -/

/-- The parts of the response that the evidence decides about, and the cleanup that precedes it. -/
structure Response where
  ok : Bool
  exitCode : Int
  itemResults : List Item
  evidenceError : Option Text
  cleanedUp : Bool

/-- The validated rows of what was read. -/
def validatedRows (batch : Batch) (run : Finished) : Except Raise (List Item) := do
  let envelope ← readWorkerMetrics H run
  validateResultEnvelope H batch envelope

/-- The evidence: rows, or the error that stands for them. -/
def readEvidence (batch : Batch) (run : Finished) : Except Raise (List Item × Option Text) :=
  match validatedRows H batch run with
  | .ok rows => .ok (rows, none)
  | .error (.resultProtocolError message) => .ok ([], some message)
  | .error raised => .error raised

/-- The end of `_run_prepared_batch`, after the command; `delivered` is the return of outputs,
which marks the rows whose return failed. -/
def concludeBatch (delivered : List Item → List Item × Bool) (batch : Batch) (run : Finished)
    (exitCode : Int) : Except Raise Response := do
  let (rows, evidenceError) ← readEvidence H batch run
  let (rows, complete) := delivered rows
  return ⟨exitCode = 0 && evidenceError.isNone && complete, exitCode, rows, evidenceError, true⟩

/-- What `_run_claimed_batch` makes of a running batch. -/
inductive Claimed where
  | response (r : Response)
  /-- `mark_completion_unknown` -/
  | unknown (raised : Raise)

def claimedBatch : Except Raise Response → Claimed
  | .ok r => .response r
  | .error raised => .unknown raised

end Validate

end Remrun.Fleet.Evidence
