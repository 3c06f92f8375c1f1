import Remrun.Fleet.Ticks
import Remrun.Fleet.Transitions
import Remrun.Lib.JsonText

/-!
# Worker results

The closed protocol of `result_protocol.py`, by which a worker's envelope becomes one row for each
job of the batch, and what the controller makes of the rows: it returns outputs, verifies the
batch, and files every row as succeeded or as failed with a disposition.
-/

namespace Remrun.Fleet.Results

open Keyed JsonText Effect
open Dispatch (raiseIf raiseIf_ok)
set_option autoImplicit false

variable {F : Type}

/-! ## The vocabulary -/

inductive Outcome where
  | succeeded
  | review
  | failed
  deriving DecidableEq, Repr

def Outcome.text : Outcome → String
  | .succeeded => "succeeded"
  | .review => "review"
  | .failed => "failed"

inductive Disposition where
  | none
  | final
  | retry
  | elsewhere
  | onceElsewhere
  | retryLater
  deriving DecidableEq, Repr

def Disposition.text : Disposition → String
  | .none => "none"
  | .final => "final"
  | .retry => "retry"
  | .elsewhere => "elsewhere"
  | .onceElsewhere => "once-elsewhere"
  | .retryLater => "retry-later"

inductive Publication where
  | none
  | produced
  | reused
  deriving DecidableEq, Repr

def Publication.text : Publication → String
  | .none => "none"
  | .produced => "produced"
  | .reused => "reused"

inductive Resource where
  | none
  | memory
  | scratch
  deriving DecidableEq, Repr

def Resource.text : Resource → String
  | .none => "none"
  | .memory => "memory"
  | .scratch => "scratch"

/-- The name that is spelled so. -/
def named {α : Type} (text : α → String) (names : List α) : Value F → Option α
  | .str value => names.find? fun name => text name = value
  | _ => none

def outcomes : List Outcome := [.succeeded, .review, .failed]

def dispositions : List Disposition := [.none, .final, .retry, .elsewhere, .onceElsewhere, .retryLater]

def publications : List Publication := [.none, .produced, .reused]

def resources : List Resource := [.none, .memory, .scratch]

/-! ## What is expected -/

/-- A job of the batch as it was staged; the queue allocates no empty id. -/
structure Expected (F : Type) where
  jobId : String
  jobId_ne : jobId ≠ ""
  preparedId : String
  index : Int
  costUnit : Option String
  costStatus : String
  payloadMode : String
  workId : String
  measureId : Option String
  preparedValue : Option F
  verifyRelativeTolerance : F
  /-- the stems of the reservations -/
  stems : List String

inductive CompanionRule where
  | forbidden
  | optional
  | required
  deriving DecidableEq, Repr

structure Completion where
  allowedPublication : List Publication
  companion : CompanionRule

/-- Arithmetic of floats, and `json.dumps`. -/
structure Host (F : Type) where
  /-- `float(n)`, unless it overflows. -/
  ofInt : Int → Option F
  isFinite : F → Bool
  negative : F → Bool
  positive : F → Bool
  /-- Whether a value is farther from the prepared one than the relative tolerance allows. -/
  exceeds : F → F → F → Bool
  /-- The bytes of the canonical text of an object. -/
  canonicalBytes : List (String × Value F) → Option Nat
  /-- `json.dumps(item, sort_keys=True)`. -/
  dumps : List (String × Value F) → String

/-! ## Rows -/

structure Item (F : Type) where
  jobId : String
  preparedId : String
  index : Int
  outcome : Outcome
  disposition : Disposition
  retryAfter : Value F
  publication : Publication
  workPerformed : Bool
  outputs : List String
  companion : Option String
  message : Option String
  failureCode : Option String
  resource : Resource
  workUnits : Value F
  elapsed : Value F
  details : List (String × Value F)

/-- The paths that a row claims. -/
def Item.paths (item : Item F) : List String := item.outputs ++ item.companion.toList

/-- The row is kept for a human. -/
def Item.toReview (item : Item F) : Item F :=
  { item with outcome := .review, disposition := .none, retryAfter := .null }

def textOrNull : Option String → Value F
  | some text => .str text
  | none => .null

def Item.members (item : Item F) : List (String × Value F) := [
  ("job_id", .str item.jobId), ("prepared_id", .str item.preparedId), ("index", .int item.index),
  ("outcome", .str item.outcome.text), ("disposition", .str item.disposition.text),
  ("retry_after_s", item.retryAfter), ("publication", .str item.publication.text),
  ("work_performed", .bool item.workPerformed), ("outputs", .arr (item.outputs.map .str)),
  ("companion", textOrNull item.companion), ("message", textOrNull item.message),
  ("failure_code", textOrNull item.failureCode), ("resource", .str item.resource.text),
  ("work_units", item.workUnits), ("elapsed_s", item.elapsed), ("details", .obj item.details)]

/-! ## One item -/

section Validate
variable (H : Host F)

def refuse {α : Type} (error : String) : Except String α := .error error

def need {α : Type} (value : Option α) (error : String) : Except String α :=
  match value with
  | some a => .ok a
  | none => refuse error

def objectOf (value : Value F) (error : String) : Except String (List (String × Value F)) :=
  match value with
  | .obj members => .ok members
  | _ => refuse error

def listOf (value : Value F) (error : String) : Except String (List (Value F)) :=
  match value with
  | .arr values => .ok values
  | _ => refuse error

def boolOf (value : Value F) (error : String) : Except String Bool :=
  match value with
  | .bool b => .ok b
  | _ => refuse error

/-- `float(value)` of a number. -/
def floatOf (value : Value F) (error : String) : Except String F :=
  match value with
  | .int n => need (H.ofInt n) "int too large to convert to float"
  | .float x => .ok x
  | _ => refuse error

/-- `_finite`. -/
def finite (value : Value F) (field : String) (positive : Bool) : Except String Unit := do
  let x ← floatOf H value (field ++ " must be finite")
  raiseIf (H.isFinite x = false) (field ++ " must be finite")
  if positive then raiseIf (H.positive x = false) (field ++ " must be positive")
  else raiseIf (H.negative x = true) (field ++ " must be nonnegative")

def isHexDigit (c : Char) : Bool := c.isDigit || ('a' ≤ c && c ≤ 'f')

/-- `sha256:` and sixty-four lowercase hexadecimal digits. -/
def isIdentity (text : String) : Bool :=
  "sha256:".toList.isPrefixOf text.toList && text.length = 71 &&
    (text.toList.drop 7).all isHexDigit

/-- `_result_id`. -/
def resultId (value : Value F) (field : String) : Except String String :=
  match value with
  | .str text =>
    if isIdentity text then .ok text
    else refuse (field ++ " must be sha256:<64 lowercase hex>")
  | _ => refuse (field ++ " must be sha256:<64 lowercase hex>")

/-- `_safe_path`. A path without empty, `.` and `..` parts is relative and canonical. -/
def safePath (value : Value F) (field : String) : Except String String :=
  match value with
  | .str text =>
    if text = "" ∨ '\x00' ∈ text.toList ∨ '\\' ∈ text.toList ∨
        (text.splitOn "/").any (fun part => part = "" || part = "." || part = "..") = true then
      refuse (field ++ " must be a canonical safe relative path")
    else .ok text
  | _ => refuse (field ++ " must be a canonical safe relative path")

/-- `_text_output_stem`. -/
def textOutputStem (expected : Expected F) : Except String (Option String) :=
  if expected.payloadMode ≠ "text" then .ok none
  else if isIdentity expected.workId then
    .ok (some ("text-" ++ String.ofList (expected.workId.toList.drop 7)))
  else refuse "text result output binding is invalid"

def itemFields : List String := [
  "job_id", "prepared_id", "index", "outcome", "disposition", "retry_after_s", "publication",
  "work_performed", "outputs", "companion", "message", "failure_code", "resource", "work_units",
  "elapsed_s", "details"]

/-- The fields of an item: all but `details` are there, and no others. -/
def checkFields (members : List (String × Value F)) : Except String Unit :=
  raiseIf ((itemFields.all fun field => field = "details" || (members.lookup field).isSome) = false ∨
    (members.all fun member => member.1 ∈ itemFields) = false)
    "result item has unknown or missing fields"

def field (members : List (String × Value F)) (name : String) : Value F :=
  (members.lookup name).getD .null

def isText (value : Value F) (text : String) : Bool :=
  match value with
  | .str s => s = text
  | _ => false

/-- The item is about the expected work. -/
def checkAttribution (expected : Expected F) (members : List (String × Value F)) :
    Except String Unit := do
  raiseIf (isText (field members "job_id") expected.jobId = false)
    "result job_id does not match expected work"
  let _ ← resultId (field members "prepared_id") "result prepared_id"
  raiseIf (isText (field members "prepared_id") expected.preparedId = false)
    "result prepared_id does not match expected work"
  match field members "index" with
  | .int n => raiseIf (n < 0 ∨ n ≠ expected.index) "result item index does not match expected work"
  | _ => refuse "result item index does not match expected work"

def readMessage (value : Value F) : Except String (Option String) :=
  match value with
  | .null => .ok none
  | .str text => .ok (some text)
  | _ => refuse "result message must be null or a string"

/-- What the item says happened. -/
structure Account (F : Type) where
  outcome : Outcome
  disposition : Disposition
  publication : Publication
  resource : Resource
  workPerformed : Bool
  message : Option String
  retryAfter : Value F

/-- Published bytes make a retry unsafe, so a failure that published is for review. -/
def Account.settle (a : Account F) : Account F :=
  if a.outcome = .failed ∧ a.publication ≠ .none then
    { a with outcome := .review, disposition := .none, retryAfter := .null }
  else a

def isNull : Value F → Bool
  | .null => true
  | _ => false

def readAccount (completion : Completion) (members : List (String × Value F)) :
    Except String (Account F) := do
  let outcome ← need (named Outcome.text outcomes (field members "outcome"))
    "result outcome or disposition is invalid"
  let disposition ← need (named Disposition.text dispositions (field members "disposition"))
    "result outcome or disposition is invalid"
  let publication ← need (named Publication.text publications (field members "publication"))
    "result publication is not allowed"
  raiseIf (publication ∉ completion.allowedPublication) "result publication is not allowed"
  let resource ← need (named Resource.text resources (field members "resource"))
    "result resource is invalid"
  let workPerformed ← boolOf (field members "work_performed")
    "result work_performed must be boolean"
  let message ← readMessage (field members "message")
  return ⟨outcome, disposition, publication, resource, workPerformed, message,
    field members "retry_after_s"⟩

/-- The outcome and the disposition belong together. -/
def checkAccount (a : Account F) : Except String Unit := do
  raiseIf (a.outcome ≠ .failed ∧ a.disposition ≠ .none)
    "successful/review result requires disposition none"
  raiseIf (a.outcome = .failed ∧ (a.disposition = .none ∨ a.message.getD "" = ""))
    "failed result requires a disposition and message"
  if a.disposition = .retryLater then finite H a.retryAfter "retry_after_s" true
  else raiseIf (isNull a.retryAfter = false) "retry_after_s is permitted only for retry-later"

def readOutputs (value : Value F) : Except String (List String) := do
  let values ← listOf value "result outputs must be a list"
  values.mapM fun value => safePath value "result output"

def readCompanion (value : Value F) : Except String (Option String) :=
  match value with
  | .null => .ok none
  | value => some <$> safePath value "result companion"

/-- The last part of a path, up to a suffix, is a stem. -/
def bound (stems : List String) (path : String) : Bool :=
  let name := (path.splitOn "/").getLastD ""
  stems.any fun stem => name = stem || (stem.toList ++ ['.']).isPrefixOf name.toList

/-- The stems that outputs may have. -/
def allowedStems (expected : Expected F) (outputs : List String) : Except String (List String) :=
  if outputs ≠ [] ∧ expected.stems = [] then do
    let stem ← textOutputStem expected
    (fun stem => [stem]) <$> need stem "result output has no prepared reservation"
  else .ok expected.stems

def checkPaths (expected : Expected F) (completion : Completion) (publication : Publication)
    (outputs : List String) (companion : Option String) : Except String Unit := do
  raiseIf (publication = .none ∧ (outputs ≠ [] ∨ companion ≠ none))
    "publication none forbids outputs and companion"
  raiseIf (publication ≠ .none ∧ outputs = []) "output-bearing publication requires an output"
  let stems ← allowedStems expected outputs
  let textBinding := expected.payloadMode = "text" ∧ expected.stems = []
  raiseIf ((outputs.all fun output => bound stems output) = false)
    (if textBinding then "result output does not match text output binding"
     else "result output does not match a prepared reservation stem")
  raiseIf ((companion.all fun path => bound stems path) = false)
    (if textBinding then "result companion does not match text output binding"
     else "result companion does not match a prepared reservation stem")
  raiseIf (completion.companion = .forbidden ∧ companion ≠ none) "companion is forbidden"
  raiseIf (completion.companion = .required ∧ publication ≠ .none ∧ companion = none)
    "companion is required"

/-- `[A-Za-z][A-Za-z0-9_.-]{0,127}`. -/
def isToken (text : String) : Bool :=
  match text.toList with
  | [] => false
  | c :: rest => c.isAlpha && rest.length ≤ 127 &&
      rest.all fun c => c.isAlphanum || c = '_' || c = '.' || c = '-'

def readFailureCode (value : Value F) : Except String (Option String) :=
  match value with
  | .null => .ok none
  | .str text =>
    if isToken text then .ok (some text) else refuse "failure_code must be null or a token"
  | _ => refuse "failure_code must be null or a token"

def keysAre (members : List (String × Value F)) (names : List String) : Bool :=
  names.all (fun name => (members.lookup name).isSome) && members.all fun member => member.1 ∈ names

/-- The unit of the prepared cost. -/
def costUnit (expected : Expected F) (value : Value F) : Bool :=
  match value, expected.costUnit with
  | .str text, some unit => text ≠ "" && text = unit
  | _, _ => false

/-- `float(work_units["value"])`. -/
def measured (value : Value F) : Option F :=
  match value with
  | .int n => H.ofInt n
  | .float x => some x
  | _ => none

/-- Whether the measured work is not the prepared work. -/
def workMismatch (expected : Expected F) (a : Account F) (workUnits : Value F) :
    Except String Bool :=
  match workUnits, expected.measureId with
  | .null, _ => do
    raiseIf (a.outcome = .succeeded ∧ a.workPerformed = true ∧ expected.costStatus = "exact")
      "successful performed work requires WorkUnitsV2"
    return false
  | .obj members, none => do
    raiseIf (keysAre members ["unit", "value"] = false) "legacy work_units has the wrong fields"
    raiseIf (costUnit expected (field members "unit") = false)
      "work_units unit does not match prepared cost unit"
    finite H (field members "value") "work_units.value" false
    return false
  | _, none => refuse "legacy work_units has the wrong fields"
  | .obj members, some measureId => do
    raiseIf (keysAre members ["unit", "value", "measure_id"] = false)
      "work_units has the wrong fields"
    let found ← resultId (field members "measure_id") "work_units.measure_id"
    finite H (field members "value") "work_units.value" false
    let far := match expected.preparedValue, measured H (field members "value") with
      | some prepared, some value => H.exceeds value prepared expected.verifyRelativeTolerance
      | _, _ => false
    return !costUnit expected (field members "unit") || found ≠ measureId || far
  | _, some _ => refuse "work_units has the wrong fields"

def checkElapsed (value : Value F) : Except String Unit :=
  match value with
  | .null => .ok ()
  | elapsed => finite H elapsed "elapsed_s" false

def readDetails (value : Value F) : Except String (List (String × Value F)) := do
  let details ← objectOf value "result details must be an object"
  let bytes ← need (H.canonicalBytes details) "result details must be canonical JSON data"
  raiseIf (65536 < bytes) "result details exceed the byte limit"
  return details

/-- `_validate_item`. -/
def validateItem (expected : Expected F) (completion : Completion) (value : Value F) :
    Except String (Item F) := do
  let members ← objectOf value "result item has unknown or missing fields"
  checkFields members
  checkAttribution expected members
  let account ← readAccount completion members
  let a := account.settle
  checkAccount H a
  let outputs ← readOutputs (field members "outputs")
  raiseIf (¬ outputs.Nodup) "result outputs contain duplicates"
  let companion ← readCompanion (field members "companion")
  checkPaths expected completion a.publication outputs companion
  let failureCode ← readFailureCode (field members "failure_code")
  let mismatch ← workMismatch H expected a (field members "work_units")
  checkElapsed H (field members "elapsed_s")
  let details ← readDetails H ((members.lookup "details").getD (.obj []))
  let item : Item F := {
    jobId := expected.jobId, preparedId := expected.preparedId, index := expected.index
    outcome := a.outcome, disposition := a.disposition, retryAfter := a.retryAfter
    publication := a.publication, workPerformed := a.workPerformed, outputs, companion
    message := a.message, failureCode, resource := a.resource
    workUnits := field members "work_units", elapsed := field members "elapsed_s", details }
  return if mismatch then
      { item.toReview with
        failureCode := some "work_measure_mismatch"
        message := some "worker work measure does not match frozen prepared work" }
    else item

/-! ## The envelope -/

/-- What the loop over the items has seen. -/
structure Tally (F : Type) where
  seen : List String
  claimed : List String
  out : List (Item F)

def envelopeFields : List String := ["schema", "batch_id", "spec_id", "adapter_id", "items"]

/-- `item.get("job_id") if isinstance(item, dict) else None`. -/
def jobIdOf : Value F → Option String
  | .obj members => match members.lookup "job_id" with
    | some (.str jobId) => some jobId
    | _ => none
  | _ => none

def tallyItem (expectedItems : List (Expected F)) (completion : Completion) (t : Tally F)
    (value : Value F) : Except String (Tally F) := do
  let jobId ← need (jobIdOf value) "result contains an unknown job"
  let expected ← need (expectedItems.find? fun row => row.jobId = jobId)
    "result contains an unknown job"
  raiseIf (jobId ∈ t.seen) "result contains a duplicate job"
  let item ← validateItem H expected completion value
  raiseIf (¬ item.paths.Nodup) "result paths are not globally unique"
  raiseIf ((item.paths.any fun path => path ∈ t.claimed) = true)
    "result paths are not globally unique"
  return ⟨t.seen ++ [jobId], t.claimed ++ item.paths, t.out ++ [item]⟩

/-- `validate_result_envelope`. -/
def validateResultEnvelope (envelope : Value F) (batchId specId adapterId : String)
    (expectedItems : List (Expected F)) (completion : Completion) :
    Except String (List (Item F)) := do
  let members ← objectOf envelope "result envelope has unknown or missing fields"
  raiseIf (keysAre members envelopeFields = false) "result envelope has unknown or missing fields"
  raiseIf ((match field members "schema" with | .int n => n = 2 | _ => false) = false ∨
    isText (field members "batch_id") batchId = false) "result schema or batch_id does not match"
  let specId' ← resultId (field members "spec_id") "result spec_id"
  let adapterId' ← resultId (field members "adapter_id") "result adapter_id"
  raiseIf (specId' ≠ specId ∨ adapterId' ≠ adapterId) "result spec_id or adapter_id does not match"
  let items ← listOf (field members "items") "result items must be a list"
  raiseIf (¬ (expectedItems.map Expected.jobId).Nodup) "expected job IDs are not unique"
  raiseIf (items.length ≠ expectedItems.length) "result item count does not match expected work"
  let t ← items.foldlM (tallyItem H expectedItems completion) ⟨[], [], []⟩
  raiseIf ((expectedItems.all fun row => row.jobId ∈ t.seen) = false) "result omitted expected work"
  return t.out

end Validate

/-! ## The rows of the controller -/

structure Row (F : Type) where
  item : Item F
  ok : Bool
  error : Option String
  delivery : Option (Value F)

/-- `{**row, "ok": row["outcome"] == "succeeded", "error": row["message"]}`. -/
def Row.of (item : Item F) : Row F := ⟨item, item.outcome = .succeeded, item.message, none⟩

def Row.members (row : Row F) : List (String × Value F) :=
  row.item.members ++ [("ok", .bool row.ok), ("error", textOrNull row.error)] ++
    row.delivery.toList.map fun delivery => ("delivery", delivery)

/-- `outcome == "succeeded" or ok`. -/
def Row.succeeded (row : Row F) : Bool := row.item.outcome = .succeeded || row.ok

/-- The return of one output. -/
inductive Fetched (F : Type) where
  | receipt (members : List (String × Value F))
  /-- an `OSError` or a `TransportError` -/
  | failed (why : String)
  | raises (why : String)

inductive Escape where
  | ownershipLost
  | raised (why : String)
  deriving DecidableEq, Repr

/-- How the outputs of a batch are returned, by job and path. -/
structure Return (F : Type) where
  /-- `prepared["output"].get("return_root")`, unless it is empty. -/
  returnRoot : String → Option String
  /-- `before_output_return()`. -/
  mayReturn : String → String → Bool
  fetch : String → String → Fetched F
  /-- `before_output_return()`, when all is returned. -/
  stillOwned : Bool

section Returning
variable (r : Return F)

/-- The receipts, and why the rest failed. -/
def fetchAll (jobId : String) : List String → Except Escape (List (Value F) × Option String)
  | [] => .ok ([], none)
  | rel :: rest =>
    if r.mayReturn jobId rel then
      match r.fetch jobId rel with
      | .raises why => .error (.raised why)
      | .failed why => .ok ([], some why)
      | .receipt members => do
        let (receipts, failure) ← fetchAll jobId rest
        return (.obj (dict (("path", .str rel) :: members)) :: receipts, failure)
    else .error .ownershipLost

/-- The row has outputs to return. -/
def returns (row : Row F) : Bool :=
  (r.returnRoot row.item.jobId).isSome && row.item.publication ≠ .none

/-- The row when its outputs were not returned. -/
def Row.returnFailed (row : Row F) (receipts : List (Value F)) (why : String) : Row F where
  item := { row.item with
    outcome := .review
    disposition := .none
    retryAfter := .null
    failureCode := some "output_return_failed"
    message := some ("output return failed: " ++ why)
    details := dict (row.item.details ++
      [("output_return", .obj [("status", .str "failed"), ("receipts", .arr receipts)])]) }
  ok := false
  error := some ("output return failed: " ++ why)
  delivery := row.delivery

def Row.delivered (row : Row F) (root : String) (receipts : List (Value F)) : Row F :=
  { row with delivery := some (.obj [
      ("schema", .str "output-delivery-v1"), ("status", .str "complete"), ("root", .str root),
      ("receipts", .arr receipts)]) }

def returnRow (row : Row F) : Except Escape (Row F) :=
  match r.returnRoot row.item.jobId with
  | none => .ok row
  | some root =>
    if row.item.publication = .none then .ok row
    else do
      let (receipts, failure) ← fetchAll r row.item.jobId row.item.paths
      match failure with
      | some why => return row.returnFailed receipts why
      | none => return row.delivered root receipts

/-- `_return_outputs`, and the check of the ownership after it. -/
def returnOutputs (rows : List (Row F)) : Except Escape (List (Row F)) := do
  let delivered ← rows.mapM (returnRow r)
  if (rows.any fun row => returns r row) && !r.stillOwned then .error .ownershipLost
  else return delivered

end Returning

/-- The verdict on the outputs of the batch. -/
structure Verdict (F : Type) where
  final : Bool
  detail : String
  record : List (String × Value F)

/-- A row whose outputs were rejected. -/
def Row.rejected (row : Row F) (verify : Verdict F) : Row F where
  item := { row.item with
    outcome := .failed
    disposition := .final
    publication := .none
    outputs := []
    companion := none
    message := some ("output verify: " ++ verify.detail)
    failureCode := some "output_verification_failed"
    resource := .none
    details := [("output_verify", .obj verify.record), ("worker_result", .obj row.members)] }
  ok := false
  error := some ("output verify: " ++ verify.detail)
  delivery := row.delivery

/-- `_apply_item_output_verdict`. -/
def applyItemOutputVerdict (verify : Verdict F) (rows : List (Row F)) : List (Row F) :=
  if verify.final then rows.map fun row => if row.succeeded then row.rejected verify else row
  else rows

/-! ## What the queue is told -/

/-- `item_disposition`, as `_finish_failed_item` reads it. -/
def itemDisposition (row : Row F) : ItemDisposition :=
  if row.item.outcome = .review then .review
  else match row.item.disposition with
    | .none => .other "none"
    | .final => .final
    | .retry => .retry
    | .elsewhere => .elsewhere
    | .onceElsewhere => .onceElsewhere
    | .retryLater => .other "retry_later"

/-- The error that is recorded for a failed row. -/
def Row.failure (row : Row F) : String :=
  let message := row.item.message.getD ""
  let error := row.error.getD ""
  if message ≠ "" then message
  else if error ≠ "" then error
  else "worker reported item failure"

/-- A dictionary of the rows by job, the later row of a job last. -/
def byJob {α : Type} (value : Row F → α) (rows : List (Row F)) : Dict (id : String → String) α :=
  ((rows.filter fun row => row.item.jobId ≠ "").map fun row => (row.item.jobId, row)).foldl
    (fun dict entry => dict.set entry.1 (value entry.2)) .empty

/-- `item_result_maps`, `item_dispositions` and the durable records of `item_records`. -/
def itemResults (H : Host F) (record : String → Option String) (rows : List (Row F)) :
    ItemResults where
  succeeded := byJob (fun row => some (H.dumps row.members)) (rows.filter Row.succeeded)
  failed := byJob Row.failure (rows.filter fun row => !row.succeeded)
  dispositions := byJob itemDisposition (rows.filter fun row => !row.succeeded)
  results := byJob id (rows.filter fun row =>
      !row.succeeded && (record (H.dumps row.members)).isSome)
    |>.mapValues fun row => (record (H.dumps row.members)).getD ""

end Remrun.Fleet.Results
