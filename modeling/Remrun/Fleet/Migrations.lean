import Mathlib.Data.List.Lex
import Mathlib.Data.List.Sort
import Mathlib.Data.String.Basic
import Remrun.Lib.Commits
import Remrun.Lib.Schema

/-!
# Opening a fleet queue

`FleetQueue.__init__` on the database that an earlier version, or an earlier opening that died,
has left. The connection is in autocommit mode: a statement outside `_immediate` commits alone.
-/

namespace Remrun.Fleet.Migrations

open Keyed Schema Commits
set_option autoImplicit false

/-! ## The schema -/

def text (name : String) : Column := ⟨name, "TEXT", false, none, 0⟩

def required (name : String) : Column := ⟨name, "TEXT", true, none, 0⟩

def primary (name : String) : Column := ⟨name, "TEXT", false, none, 1⟩

def defaulted (name type value : String) : Column := ⟨name, type, true, some value, 0⟩

def jobsColumns : List Column :=
  [primary "job_id", required "task_name", text "prepared_json", text "prepared_id",
    text "spec_id", text "force_device", defaulted "priority" "INTEGER" "0",
    text "idempotency_key", defaulted "state" "TEXT" "queued", defaulted "attempts" "INTEGER" "0",
    text "leased_until", text "assigned_device", text "batch_id", required "created_at",
    required "updated_at", text "last_error", text "output_manifest", text "exclude_devices",
    text "last_result"]

/-- `_TARGET_COLUMNS` without the protocol version. -/
def targetColumns : List String :=
  ["target_operation_id", "target_request_sha256", "target_resume_token", "target_reserved_at",
    "target_accepted_at", "target_cleanup_state", "target_cleanup_at", "target_stage_cleaned_at",
    "target_durable_cleaned_at", "target_finalized_at", "target_finalization_disposition",
    "target_release_authorized_at", "target_release_effects_acknowledged_at"]

def batchesColumns : List Column :=
  [primary "batch_id", text "owner_token", required "state", required "device", text "task_name",
    text "engine", text "bucket", required "created_at", required "updated_at",
    required "lease_until", text "heartbeat_at", ⟨"estimated_finish_s", "REAL", false, none, 0⟩,
    text "placement_json", ⟨"target_protocol_version", "INTEGER", false, none, 0⟩] ++
    targetColumns.map text ++ [text "error"]

def createIfMissing (name : String) (columns : List Column) (uniques : List (List String)) :
    Statement := .createTable name columns uniques true

def indexIfMissing (name table column sql : String) : Statement :=
  .createIndex name ⟨table, [column], false, false, sql⟩ (fun _ => true) true

/-- The statements of `_SCHEMA`. -/
def schema : List Statement :=
  [createIfMissing "jobs" jobsColumns [["job_id"]],
    indexIfMissing "ix_jobs_state" "jobs" "state" "create index ix_jobs_state on jobs(state)",
    indexIfMissing "ix_jobs_batch" "jobs" "batch_id" "create index ix_jobs_batch on jobs(batch_id)",
    createIfMissing "batches" batchesColumns [["batch_id"]],
    createIfMissing "resource_leases"
      [⟨"device", "TEXT", true, none, 1⟩, ⟨"pool", "TEXT", true, none, 2⟩, required "batch_id",
        required "lease_until"] [["device", "pool"]],
    createIfMissing "cooldowns"
      [⟨"device", "TEXT", true, none, 1⟩, ⟨"engine", "TEXT", true, some "", 2⟩, required "until",
        text "kind", text "reason", required "created_at"] [["device", "engine"]],
    createIfMissing "prepared_specs"
      [primary "spec_id", ⟨"schema", "INTEGER", true, none, 0⟩, required "canonical_json",
        required "created_at"] [["spec_id"]],
    createIfMissing "prepared_output_reservations"
      [primary "stem", required "work_id", required "created_at"] [["stem"]],
    createIfMissing "submissions"
      [⟨"submission_id", "TEXT", true, none, 1⟩, text "request_id", text "plan_id",
        required "fingerprint", required "created_at"]
      [["submission_id"], ["request_id"], ["plan_id"]],
    createIfMissing "submission_jobs"
      [⟨"submission_id", "TEXT", true, none, 1⟩, ⟨"item_index", "INTEGER", true, none, 2⟩,
        required "job_id", required "prepared_id"] [["submission_id", "item_index"]],
    indexIfMissing "ix_submission_jobs_job" "submission_jobs" "job_id"
      "create index ix_submission_jobs_job on submission_jobs(job_id)",
    createIfMissing "submission_plans"
      [⟨"plan_id", "TEXT", true, none, 1⟩, required "plan_digest", required "plan_json",
        required "created_at", text "consumed_submission_id"] [["plan_id"]],
    createIfMissing "submission_refusals"
      [⟨"refusal_id", "TEXT", true, none, 1⟩, required "plan_id", text "request_id",
        required "fingerprint", required "reason_code", required "created_at"]
      [["refusal_id"], ["request_id"]],
    indexIfMissing "ix_submission_refusals_plan" "submission_refusals" "plan_id"
      "create index ix_submission_refusals_plan on submission_refusals(plan_id)",
    createIfMissing "fleet_profile_observations"
      ([primary "batch_id", text "profile_key", text "family_id", required "device",
        text "adapter_id"] ++ ["prepared_units", "observed_units", "controller_elapsed_s",
          "worker_elapsed_s", "peak_rss_mb", "peak_vram_mb"].map
            (fun name => ⟨name, "REAL", false, none, 0⟩) ++
        [text "memory_metric", ⟨"accepted_duration", "INTEGER", true, none, 0⟩,
          text "reject_reason", text "result_digest", required "recorded_at"]) [["batch_id"]]]

/-- `_SCHEMA_OBJECTS`. -/
def schemaObjects : List String :=
  ["jobs", "ix_jobs_state", "ix_jobs_batch", "batches", "resource_leases", "cooldowns",
    "prepared_specs", "prepared_output_reservations", "submissions", "submission_jobs",
    "ix_submission_jobs_job", "submission_plans", "submission_refusals",
    "ix_submission_refusals_plan", "fleet_profile_observations"]

/-- `_FINAL`. -/
def finalStates : List String := ["done", "failed_final", "needs_review", "cancelled"]

/-- `state NOT IN (…)`; NULL selects nothing. -/
def notFinal (row : Row) : Bool := (row "state").any fun state => state ∉ finalStates

/-- The rows of `ux_jobs_active_idem`. -/
def activeKey (row : Row) : Bool := (row "idempotency_key").any (· ≠ "") && notFinal row

/-- `_active_idempotency_index_sql`, up to case and spacing. -/
def activeIndexSql : String :=
  "create unique index ux_jobs_active_idem on jobs(idempotency_key) " ++
    "where idempotency_key is not null and idempotency_key <> '' " ++
    "and state not in ('done','failed_final','needs_review','cancelled')"

def activeIndex : Index := ⟨"jobs", ["idempotency_key"], true, true, activeIndexSql⟩

/-! ## Programs -/

inductive Fault where
  | sqlite (message : String)
  | queueConfigurationError (message : String)
  | queueMigrationError (message : String)
  deriving DecidableEq, Repr

/-- A commit is labelled with its statements. -/
abbrev M := Program Database (List Statement) Fault

/-- `PRAGMA table_info`; empty for a table that is not there. -/
def columnsOf (db : Database) (table : String) : List Column :=
  ((db.tables.get table).map Table.columns).getD []

def namesOf (db : Database) (table : String) : List String := (columnsOf db table).map Column.name

def execStatements (statements : List Statement) (db : Database) : Except Fault Database :=
  (Statement.execAll statements db).mapError .sqlite

/-- A statement outside a transaction. -/
def execute (statement : Statement) : M PUnit :=
  .commit fun db => (execStatements [statement] db).map fun db => (⟨⟩, [statement], db)

/-- `_immediate`: what the body reads decides which statements it runs. -/
def immediate {α : Type} (body : Database → Except Fault (α × List Statement)) : M α :=
  .commit fun db =>
    match body db with
    | .error fault => .error fault
    | .ok (a, statements) => (execStatements statements db).map fun db => (a, statements, db)

/-- An `if` without `else`. -/
def onlyIf (c : Prop) [Decidable c] (p : M PUnit) : M PUnit := if c then p else pure ⟨⟩

/-- What one opening finds: whether the SQLite runtime is refused, its timestamp, and the work id
and the stems of a prepared record, or why its bytes do not hold one. -/
structure Environment where
  configuration : Option String
  now : String
  readPrepared : Option String → Except String (String × List String)

/-- `_ensure_schema`. -/
def ensureSchema : M PUnit := do
  let present ← .read fun db => .ok (db.tables.keys ++ db.indexes.keys)
  onlyIf (¬ schemaObjects ⊆ present) (schema.forM execute)

/-! ## `_migrate` -/

def sameNames (a b : List String) : Bool := a ⊆ b && b ⊆ a

/-- The tables and the idempotency index are up to date. -/
def isCurrent (db : Database) : Bool :=
  sameNames (namesOf db "jobs") (jobsColumns.map Column.name) &&
    sameNames (namesOf db "batches") (batchesColumns.map Column.name) &&
    (db.indexes.get "ux_jobs_active_idem").any fun i => i.sql = activeIndexSql

def addedJobColumns : List String :=
  ["prepared_id", "spec_id", "exclude_devices", "last_result", "output_manifest",
    "assigned_device", "leased_until", "batch_id"]

def addedBatchColumns : List Column :=
  [text "owner_token", ⟨"estimated_finish_s", "REAL", false, none, 0⟩, text "placement_json",
    ⟨"target_protocol_version", "INTEGER", false, none, 0⟩] ++ targetColumns.map text

/-- The new columns, and the names that the two tables had before. -/
def addColumns (db : Database) : Except Fault ((List String × List String) × List Statement) :=
  .ok ((namesOf db "jobs", namesOf db "batches"),
    (addedJobColumns.filter (· ∉ namesOf db "jobs")).map (fun name => .addColumn "jobs" (text name)) ++
      (addedBatchColumns.filter (·.name ∉ namesOf db "batches")).map (.addColumn "batches"))

/-- `(idempotency_key, created_at, job_id)` of a row. -/
def orderKey (row : Row) : List String :=
  ["idempotency_key", "created_at", "job_id"].map fun name => (row name).getD ""

/-- The rows with an active key, in the order of the query. -/
def activeRows (db : Database) : List Row :=
  (((db.tables.get "jobs").map Table.rows).getD [] |>.filter activeKey).insertionSort
    fun a b => orderKey a ≤ orderKey b

/-- The rows of each key that several active rows carry. -/
def duplicateDetail (rows : List Row) : List String :=
  let keys := (rows.filterMap fun row => row "idempotency_key").dedup
  keys.filterMap fun key =>
    let same := rows.filter fun row => row "idempotency_key" = some key
    if same.length ≤ 1 then none else some (key ++ " -> " ++ ", ".intercalate (same.map fun row =>
      (row "job_id").getD "None" ++ ":" ++ (row "state").getD "None"))

/-- Raises if two active jobs share an idempotency key. -/
def checkDuplicates (db : Database) : Except Fault PUnit :=
  if !(["idempotency_key", "job_id", "state", "created_at"].all (· ∈ namesOf db "jobs")) then
    .error (.sqlite "no such column in jobs")
  else match duplicateDetail (activeRows db) with
    | [] => .ok ⟨⟩
    | detail => .error (.queueMigrationError
        ("active idempotency duplicates prevent queue migration: " ++ "; ".intercalate detail ++
          ". Repair explicitly by naming one canonical job_id per key " ++
          "and moving each other row to a terminal state; no queue history was changed"))

/-- Every active row of a table without frozen records goes to review. -/
def reviewUnprepared (now : String) : Statement :=
  .update "jobs" ["state", "last_error"] notFinal
    [("state", fun _ => some "needs_review"),
      ("last_error", fun row => (row "last_error").or
        (some "unprepared row requires explicit resubmission")),
      ("leased_until", fun _ => none), ("assigned_device", fun _ => none),
      ("batch_id", fun _ => none), ("updated_at", fun _ => some now)]

/-- What the copy selects from the old table. -/
def copiedValues (haveJobs : List String) : List (String × Value) :=
  [("job_id", .column "job_id"),
    ("task_name", if "task_type" ∈ haveJobs then .column "task_type" else .text "unknown"),
    ("prepared_json", if "payload_json" ∈ haveJobs then .column "payload_json" else .null),
    ("prepared_id", .null), ("spec_id", .null)] ++
    ["force_device", "priority", "idempotency_key", "state", "attempts", "leased_until",
      "assigned_device", "batch_id", "created_at", "updated_at", "last_error", "output_manifest",
      "exclude_devices", "last_result"].map fun name => (name, .column name)

/-- The old jobs table is copied into a new one that takes its place. -/
def copyJobs (now : String) (haveJobs : List String) : M PUnit := do
  execute (reviewUnprepared now)
  execute (.dropTable "jobs_v2" true)
  execute (.createTable "jobs_v2" jobsColumns [["job_id"]] false)
  execute (.insertSelect "jobs_v2" "jobs" (copiedValues haveJobs))
  execute (.dropTable "jobs" false)
  execute (.renameTable "jobs_v2" "jobs")

/-- `_migrate` on tables that are not up to date. -/
def upgrade (now : String) : M PUnit := do
  let (haveJobs, haveBatches) ← immediate addColumns
  .read checkDuplicates
  onlyIf ("prepared_json" ∉ haveJobs) (copyJobs now haveJobs)
  onlyIf ("task_name" ∉ haveBatches) (execute (.renameColumn "batches" "task_type" "task_name"))
  execute (.dropIndex "ix_jobs_idem")
  execute (.dropIndex "ux_jobs_active_idem")
  execute (indexIfMissing "ix_jobs_state" "jobs" "state" "create index ix_jobs_state on jobs(state)")
  execute (indexIfMissing "ix_jobs_batch" "jobs" "batch_id"
    "create index ix_jobs_batch on jobs(batch_id)")
  execute (.createIndex "ux_jobs_active_idem" activeIndex activeKey false)

/-! ## The later migrations -/

def isDigest (value : String) : Bool :=
  value.length = 64 && value.toList.all (· ∈ "0123456789abcdef".toList)

/-- `_target_identity_complete`. -/
def identityComplete (row : Row) : Bool :=
  (["target_operation_id", "target_resume_token", "target_reserved_at"].all fun name =>
      (row name).any (· ≠ "")) &&
    (row "target_request_sha256").any isDigest && (row "target_accepted_at").all (· ≠ "")

/-- `_target_identity_present`. -/
def identityPresent (row : Row) : Bool := targetColumns.any fun name => (row name).isSome

/-- The finalization disposition of a predecessor row. -/
def legacyDisposition (jobs : List Row) (row : Row) : String :=
  if !identityComplete row then "malformed_target_identity"
  else if row "state" = some "done" ∨ row "state" = some "failed" then
    if jobs.any fun job => (row "batch_id").isSome && job "batch_id" = row "batch_id" &&
        notFinal job then "completion_unknown_or_started"
    else if (row "target_finalized_at").isSome then "fully_finalized"
    else "known_outcome_cleanup_pending"
  else "target_reconciliation_pending"

/-- `UPDATE batches … WHERE batch_id=? AND target_protocol_version IS NULL`. -/
def markTargetRow (now disposition : String) (row : Row) : Statement :=
  .update "batches" ["batch_id"]
    (fun other => (row "batch_id").isSome && other "batch_id" = row "batch_id" &&
      (other "target_protocol_version").isNone)
    [("target_protocol_version", fun _ => some "1"),
      ("target_finalization_disposition", fun _ => some disposition),
      ("updated_at", fun _ => some now)]

/-- `_migrate_target_rows`. -/
def migrateTargetRows (now : String) (db : Database) : Except Fault (PUnit × List Statement) :=
  match db.tables.get "batches" with
  | none => .error (.sqlite "no such table: batches")
  | some batches =>
    let jobs := ((db.tables.get "jobs").map Table.rows).getD []
    .ok (⟨⟩, (batches.rows.filter fun row =>
      (row "target_protocol_version").isNone && identityPresent row).map fun row =>
        markTargetRow now (legacyDisposition jobs row) row)

/-- The column of the estimates is still required. -/
def requiresEstimate (db : Database) : Bool :=
  ((columnsOf db "batches").find? fun c => c.name = "estimated_finish_s").any Column.notNull

/-- `_migrate_nullable_batch_estimates` on such a table. -/
def rebuildBatches : List Statement :=
  [.dropTable "batches_nullable" true,
    .createTable "batches_nullable" batchesColumns [["batch_id"]] false,
    .insertSelect "batches_nullable" "batches"
      (batchesColumns.map fun c => (c.name, .column c.name)),
    .dropTable "batches" false, .renameTable "batches_nullable" "batches"]

/-- The reservations that one record adds to `owners`. -/
def reserveMissing (jobId workId : String) :
    List String → List (String × String) → Except Fault (List (String × String))
  | [], _ => .ok []
  | stem :: rest, owners =>
    match owners.find? fun o => o.1 = stem with
    | some owner =>
      if owner.2 ≠ workId then .error (.queueMigrationError
        ("prepared output reservation collision at '" ++ stem ++ "'; job " ++ jobId ++
          " conflicts with durable work " ++ owner.2 ++
          "; repair explicitly without deleting queue history"))
      else reserveMissing jobId workId rest owners
    | none =>
      (reserveMissing jobId workId rest (owners ++ [(stem, workId)])).map ((stem, workId) :: ·)

/-- The reservations that the prepared rows add. -/
def backfill (e : Environment) :
    List Row → List (String × String) → Except Fault (List (String × String))
  | [], _ => .ok []
  | row :: rest, owners =>
    let jobId := (row "job_id").getD "None"
    match e.readPrepared (row "prepared_json") with
    | .error problem => .error (.queueMigrationError
        ("prepared job " ++ jobId ++ " cannot seed output reservations: " ++ problem))
    | .ok (workId, stems) =>
      match reserveMissing jobId workId stems owners with
      | .error fault => .error fault
      | .ok added => (backfill e rest (owners ++ added)).map (added ++ ·)

/-- `_migrate_prepared_output_reservations`. -/
def migrateReservations (e : Environment) (db : Database) :
    Except Fault (PUnit × List Statement) :=
  let rows := fun table => ((db.tables.get table).map Table.rows).getD []
  let prepared := (rows "jobs").filter fun row => (row "prepared_id").isSome
  let owners := (rows "prepared_output_reservations").filterMap fun row =>
    (row "stem").bind fun stem => (row "work_id").map fun workId => (stem, workId)
  (backfill e prepared owners).map fun added => (⟨⟩, added.map fun (stem, workId) =>
    .insert "prepared_output_reservations"
      [("stem", some stem), ("work_id", some workId), ("created_at", some e.now)])

/-- `_migrate_profile_observations`. -/
def migrateObservations : M PUnit := do
  let columns ← .read fun db => .ok (namesOf db "fleet_profile_observations")
  onlyIf ("memory_metric" ∉ columns) (immediate fun _ =>
    .ok (⟨⟩, [.addColumn "fleet_profile_observations" (text "memory_metric")]))

def controlTables : List String :=
  ["submissions", "submission_jobs", "submission_plans", "submission_refusals"]

/-- The columns and the keys that `_verify_submission_control_schema` lists, those of `_SCHEMA`. -/
def expectedControl (table : String) : Option (List Column × List (List String)) :=
  schema.findSome? fun statement => match statement with
    | .createTable name columns uniques _ => if name = table then some (columns, uniques) else none
    | _ => none

/-- The keys that a table enforces over all of its rows. -/
def enforcedKeys (db : Database) (table : String) : List (List String) :=
  ((db.tables.get table).map Table.uniques).getD [] ++ (db.indexes.rows.filter fun i =>
    i.2.table = table && i.2.unique && !i.2.filtered).map fun i => i.2.columns

/-- `_verify_submission_control_schema`. -/
def verifyControlSchema (db : Database) : Except Fault PUnit :=
  match controlTables.find? fun table =>
      (expectedControl table).any fun expected => columnsOf db table ≠ expected.1 with
  | some table => .error (.queueMigrationError
      (table ++ " schema cannot enforce durable submission identity"))
  | none =>
    match controlTables.find? fun table =>
        (expectedControl table).any fun expected => !(expected.2 ⊆ enforcedKeys db table) with
    | some table => .error (.queueMigrationError
        (table ++ " schema lacks a full binary database uniqueness fence for identity"))
    | none => .ok ⟨⟩

/-- `FleetQueue.__init__`. -/
def openQueue (e : Environment) : M PUnit := do
  .read fun _ => match e.configuration with
    | some message => .error (.queueConfigurationError message)
    | none => .ok PUnit.unit
  ensureSchema
  let current ← .read fun db => .ok (isCurrent db)
  onlyIf (¬ current) (upgrade e.now)
  immediate (migrateTargetRows e.now)
  let rebuild ← .read fun db => .ok (requiresEstimate db)
  onlyIf rebuild (immediate fun _ => .ok (⟨⟩, rebuildBatches))
  immediate (migrateReservations e)
  migrateObservations
  .read verifyControlSchema

end Remrun.Fleet.Migrations
