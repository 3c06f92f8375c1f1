import Mathlib.Data.String.Basic
import Mathlib.Data.List.Sort
import Remrun.Lib.Dict
import Remrun.Lib.Effect
import Remrun.Lib.JsonText
import Remrun.Lib.Selection

/-!
# Retention of run state

`prune_state` of `state.py` over the state directory: the hazard records that pin runs, the run
journal and the area of rollback copies. Every step reads the directory as the steps before it
left it, so a preview and a real run read different states.
-/

namespace Remrun.Retention

open Effect Keyed JsonText
set_option autoImplicit false

universe u

variable {F : Type}

/-! ## The state directory -/

/-- What `json.loads(path.read_text())` gives. -/
inductive Reading (F : Type) where
  | unreadable (why : String)
  | json (value : Value F)

/-- An entry of a run's or a conflict's directory; a subdirectory counts by the bytes below it. -/
inductive Node (F : Type) where
  | file (size : Nat) (reading : Reading F)
  | directory (bytes : Nat)

abbrev Entries (F : Type) := Dict (id : String → String) (Node F)

inductive Row (F : Type) where
  | directory (entries : Entries F)
  | other

inductive Area (F : Type) where
  | absent
  | file
  | directory (rows : Dict (id : String → String) (Row F))

inductive Place where
  | runs
  | conflicts
  deriving DecidableEq, Repr

structure State (F : Type) where
  /-- The records `hazards/project/*/unknown.json` by the names of their directories. -/
  hazards : Dict (id : String → String) (Reading F)
  runs : Area F
  conflicts : Area F

inductive Failure where
  | hazard (directory why : String)
  | summary (why : String)
  | os (why : String)
  deriving DecidableEq, Repr

abbrev Prog (F α : Type) := EStateM Failure (State F) α

def Area.rows : Area F → Option (Dict (id : String → String) (Row F))
  | .directory rows => some rows
  | _ => none

def Area.get (a : Area F) (name : String) : Option (Row F) := a.rows.bind fun rows => rows.get name

/-- `area.iterdir()`. -/
def Area.names (a : Area F) : List String := (a.rows.map Dict.keys).getD []

def Area.entries (a : Area F) (name : String) : Option (Entries F) :=
  match a.get name with
  | some (.directory entries) => some entries
  | _ => none

def Area.isDir (a : Area F) (name : String) : Bool := (a.entries name).isSome

def State.area (s : State F) : Place → Area F
  | .runs => s.runs
  | .conflicts => s.conflicts

def State.setArea (s : State F) (place : Place) (a : Area F) : State F :=
  match place with
  | .runs => { s with runs := a }
  | .conflicts => { s with conflicts := a }

/-- A row is replaced, or removed. -/
def Area.put (a : Area F) (name : String) (row : Option (Row F)) : Area F :=
  match a, row with
  | .directory rows, some row => .directory (rows.set name row)
  | .directory rows, none => .directory (rows.pop name)
  | a, _ => a

/-- The platform and the disk under the state directory. -/
structure Host (F : Type) where
  /-- How paths are compared. -/
  normcase : String → String
  /-- `hashlib.sha256(project_id.encode("utf-8")).hexdigest()`. -/
  projectHash : String → String
  /-- `datetime.strptime(text, "%Y%m%dT%H%M%SZ")`, in microseconds. -/
  strptime : String → Option Int
  /-- Whether a float equals an integer. -/
  equals : F → Int → Bool
  /-- What `shutil.rmtree(path, ignore_errors=True)` leaves of a directory. -/
  rmtree : Place → String → Entries F → Option (Entries F)
  /-- The error `path.unlink(missing_ok=True)` raises. -/
  unlink : String → String → Option String

/-! ## Hazards -/

/-- `data.get(key)`. -/
def getKey (members : List (String × Value F)) (key : String) : Option (Value F) :=
  members.lookup key

structure HazardRecord where
  projectId : String
  target : String
  runId : String
  createdAt : String

section Hazards
variable (H : Host F)

def isOne : Option (Value F) → Bool
  | some (.int n) => n = 1
  | some (.float x) => H.equals x 1
  | _ => false

def requiredString (directory : String) (data : List (String × Value F)) (field : String) :
    Except Failure String :=
  match getKey data field with
  | some (.str value) =>
    if value = "" then .error (.hazard directory (field ++ " must be a non-empty string"))
    else .ok value
  | _ => .error (.hazard directory (field ++ " must be a non-empty string"))

/-- `_validate_unknown_completion_hazard`. -/
def validateUnknownCompletionHazard (directory : String) (data : List (String × Value F))
    (projectId : String) : Except Failure HazardRecord := do
  unless isOne H (getKey data "version") do
    .error (.hazard directory "version must be 1")
  let pid ← requiredString directory data "project_id"
  let target ← requiredString directory data "target"
  let runId ← requiredString directory data "run_id"
  let createdAt ← requiredString directory data "created_at"
  unless pid = projectId do
    .error (.hazard directory "project mismatch")
  match getKey data "completion_state" with
  | some (.str "unknown") => .ok ⟨pid, target, runId, createdAt⟩
  | _ => .error (.hazard directory "completion_state must be 'unknown'")

/-- The run pinned by the record found under `directory`. -/
def pinnedRun (directory : String) : Reading F → Except Failure String
  | .unreadable why => .error (.hazard directory ("is unreadable: " ++ why))
  | .json (.obj data) =>
    match getKey data "project_id" with
    | some (.str projectId) => do
      let record ← validateUnknownCompletionHazard H directory data projectId
      unless H.normcase (H.projectHash record.projectId) = H.normcase directory do
        .error (.hazard directory "is stored under the wrong project hash")
      return record.runId
    | _ => .error (.hazard directory "missing project_id")
  | .json _ => .error (.hazard directory "missing project_id")

/-- `sorted(...)` of paths in one directory. -/
def sortPaths (names : List String) : List String :=
  names.insertionSort fun a b => H.normcase a ≤ H.normcase b

/-- `_active_unknown_completion_run_ids`. -/
def activeUnknownCompletionRunIds (s : State F) : Except Failure (List String) :=
  (sortPaths H s.hazards.keys).mapM fun directory =>
    match s.hazards.get directory with
    | some reading => pinnedRun H directory reading
    | none => .error (.hazard directory "is unreadable: FileNotFoundError")

end Hazards

/-! ## Policies and reports -/

structure RetentionPolicy where
  fullLogDays : Int
  failedLogDays : Int
  summaryDays : Int
  backupDays : Int
  maxBackupBytes : Int
  deriving DecidableEq, Repr

structure PruneReport where
  runsDeleted : Nat
  runsTrimmed : Nat
  bytesFreed : Nat
  details : List String
  deriving DecidableEq, Repr

def PruneReport.deleted (r : PruneReport) (bytes : Nat) (detail : String) : PruneReport :=
  { r with runsDeleted := r.runsDeleted + 1, bytesFreed := r.bytesFreed + bytes,
           details := r.details ++ [detail] }

def PruneReport.trimmed (r : PruneReport) (bytes : Nat) (detail : String) : PruneReport :=
  { r with runsTrimmed := r.runsTrimmed + 1, bytesFreed := r.bytesFreed + bytes,
           details := r.details ++ [detail] }

/-- The keyword arguments. -/
structure Options where
  now : Int
  dryRun : Bool
  olderThanDays : Option Int
  keep : Option Int
  exemptRunId : Option String
  exemptRunIds : List String

/-- `set(exempt_run_ids)`, with `exempt_run_id` when it is not empty. -/
def Options.exemptions (o : Options) : List String :=
  o.exemptRunIds ++ o.exemptRunId.toList.filter (· ≠ "")

def isHeavy (name : String) : Bool :=
  name = "stdout.log" || name = "stderr.log" ||
    "manifest.json".toList.isSuffixOf name.toList

def Node.size : Node F → Nat
  | .file size _ => size
  | .directory bytes => bytes

/-- `_dir_size`. -/
def dirSize (entries : Entries F) : Nat := (entries.rows.map fun row => row.2.size).sum

section Prune
variable (H : Host F) (policy : RetentionPolicy) (o : Options)

/-- `bool(value)`. -/
def truthy : Value F → Bool
  | .null => false
  | .bool b => b
  | .int n => n ≠ 0
  | .float x => !H.equals x 0
  | .str s => s ≠ ""
  | .arr items => !items.isEmpty
  | .obj members => !members.isEmpty

/-- `ec is not None and ec != 0`. -/
def nonZero : Option (Value F) → Bool
  | none => false
  | some .null => false
  | some (.bool b) => b
  | some (.int n) => n ≠ 0
  | some (.float x) => !H.equals x 0
  | some _ => true

/-- `run_is_failed`. -/
def runIsFailed : Option (Value F) → Except Failure Bool
  | none => .ok false
  | some (.obj members) =>
    if members.isEmpty then .ok false
    else if (getKey members "error").any (truthy H) then .ok true
    else .ok (nonZero H (getKey members "exit_code"))
  | some value => if truthy H value then .error (.summary "AttributeError") else .ok false

/-- `read_json(d / "summary.json")`. -/
def readSummary (entries : Entries F) : Except Failure (Option (Value F)) :=
  match entries.get "summary.json" with
  | none => .ok none
  | some (.directory _) => .error (.summary "IsADirectoryError")
  | some (.file _ (.unreadable why)) => .error (.summary why)
  | some (.file _ (.json value)) => .ok (some value)

/-- `parse_run_timestamp`. -/
def parseRunTimestamp (name : String) : Option Int :=
  H.strptime (String.ofList (name.toList.take 16))

def microsPerDay : Int := 24 * 60 * 60 * 1000000

/-- `(now - ts).days`. -/
def ageDays (name : String) : Option Int :=
  (parseRunTimestamp H name).map fun ts => (o.now - ts) / microsPerDay

/-- `age_days is not None and age_days > days`. -/
def olderThan (name : String) (days : Int) : Bool := (ageDays H o name).any fun age => days < age

/-- The first items of a list, as a slice with an upper bound has them. -/
def slice {α : Type u} (items : List α) (stop : Int) : List α :=
  items.take (if 0 ≤ stop then stop.toNat else (items.length + stop).toNat)

def protectedRuns (runDirs : List String) : List String :=
  match o.keep with
  | some keep => slice runDirs keep
  | none => []

inductive Verdict where
  | deleteWhole
  | trimHeavy
  | leave
  deriving DecidableEq, Repr

def verdict (runDirs : List String) (name : String) (failed : Bool) : Verdict :=
  if o.keep.isSome then
    if name ∈ protectedRuns o runDirs then .leave else .deleteWhole
  else
    match o.olderThanDays with
    | some days => if olderThan H o name days then .deleteWhole else .leave
    | none =>
      if olderThan H o name policy.summaryDays then .deleteWhole
      else if olderThan H o name (if failed then policy.failedLogDays else policy.fullLogDays) then
        .trimHeavy
      else .leave

/-! ## The passes -/

/-- The entries of a directory as they are now. -/
def entriesNow (place : Place) (name : String) : Prog F (Entries F) := do
  return ((← get).area place |>.entries name).getD .empty

/-- The state after `shutil.rmtree(d, ignore_errors=True)`. -/
def removed (place : Place) (name : String) (s : State F) : State F :=
  match (s.area place).entries name with
  | some entries =>
    s.setArea place ((s.area place).put name ((H.rmtree place name entries).map .directory))
  | none => s

def rmtree (place : Place) (name : String) : Prog F PUnit := modify (removed H place name)

/-- The state after `f.unlink(missing_ok=True)` in a run's directory. -/
def unlinked (name file : String) (s : State F) : State F :=
  match s.runs.entries name with
  | some entries => s.setArea .runs (s.runs.put name (some (.directory (entries.pop file))))
  | none => s

def unlink (name file : String) : Prog F PUnit :=
  match H.unlink name file with
  | some why => throw (.os why)
  | none => modify (unlinked name file)

def unlessDry (action : Prog F PUnit) : Prog F PUnit := if o.dryRun then pure ⟨⟩ else action

/-- The heavy files of a run go, and what they held is counted. -/
def trim (name : String) (freed : Nat) : String × Node F → Prog F Nat
  | (file, .file size _) =>
    if isHeavy file then do
      unlessDry o (unlink H name file)
      return freed + size
    else return freed
  | (_, .directory _) => return freed

def pruneRun (exemptions runDirs : List String) (report : PruneReport) (name : String) :
    Prog F PruneReport :=
  if name ∈ exemptions then pure report
  else do
    let entries ← entriesNow .runs name
    let failed ← ofExcept (readSummary entries >>= runIsFailed H)
    match verdict H policy o runDirs name failed with
    | .deleteWhole =>
      unlessDry o (rmtree H .runs name)
      return report.deleted (dirSize entries) ("delete runs/" ++ name)
    | .trimHeavy =>
      let freed ← entries.rows.foldlM (trim H o name) 0
      return if freed = 0 then report else report.trimmed freed ("trim runs/" ++ name)
    | .leave => return report

/-- The directories among the rows, newest first. -/
def runDirs (s : State F) : List String :=
  (s.runs.names.filter s.runs.isDir).insertionSort fun a b => b ≤ a

/-- `report` and `pruned`. -/
def pruneConflict (exemptions : List String) (acc : PruneReport × List String) (name : String) :
    Prog F (PruneReport × List String) := do
  if !(← get).conflicts.isDir name then return acc
  else if name ∈ exemptions then return acc
  else if olderThan H o name (o.olderThanDays.getD policy.backupDays) then
    let entries ← entriesNow .conflicts name
    unlessDry o (rmtree H .conflicts name)
    return (acc.1.deleted (dirSize entries) ("delete conflicts/" ++ name), name :: acc.2)
  else return acc

/-- What the budget pass looks at, with the sizes. -/
def remaining (exemptions pruned : List String) (s : State F) : List (String × Nat) :=
  ((sortPaths H s.conflicts.names).filter fun name =>
    s.conflicts.isDir name && name ∉ pruned && name ∉ exemptions).map fun name =>
      (name, dirSize ((s.conflicts.entries name).getD .empty))

/-- Oldest first, until the rest fits. -/
def overBudget (report : PruneReport) (total : Int) : List (String × Nat) → Prog F PruneReport
  | [] => return report
  | (name, size) :: rest =>
    if total ≤ policy.maxBackupBytes then return report
    else do
      unlessDry o (rmtree H .conflicts name)
      overBudget (report.deleted size ("delete conflicts/" ++ name ++ " (over backup budget)"))
        (total - size) rest

def pruneConflicts (exemptions : List String) (report : PruneReport) : Prog F PruneReport := do
  let (report, pruned) ← (sortPaths H (← get).conflicts.names).foldlM
    (pruneConflict H policy o exemptions) (report, [])
  if policy.maxBackupBytes ≠ 0 ∧ o.olderThanDays = none then
    let remaining := remaining H exemptions pruned (← get)
    overBudget H policy o report (remaining.map Prod.snd).sum remaining
  else return report

/-- `root.iterdir()` of something that is no directory. -/
def checkDirectory : Area F → Prog F PUnit
  | .file => throw (.os "NotADirectoryError")
  | _ => return ⟨⟩

/-- What is left to do when the exemptions are known. -/
def pruneAreas (exemptions : List String) : Prog F PruneReport := do
  checkDirectory (← get).runs
  let runDirs := runDirs (← get)
  let report ← runDirs.foldlM (pruneRun H policy o exemptions runDirs) ⟨0, 0, 0, []⟩
  match (← get).conflicts with
  | .absent => return report
  | area =>
    if o.keep.isSome then return report
    else do
      checkDirectory area
      pruneConflicts H policy o exemptions report

def pruneState : Prog F PruneReport := do
  let pinned ← ofExcept (activeUnknownCompletionRunIds H (← get))
  pruneAreas H policy o (o.exemptions ++ pinned)

end Prune

end Remrun.Retention
