import Remrun.Fleet.Migrations

/-!
# Crash safety of the queue migration

An opening may die after any commit; the next one finds what was committed. Every commit of an
opening carries the jobs on, but for one: `DROP TABLE jobs` commits alone, before the copy is
renamed, and the next opening then creates an empty table in its place.
-/

namespace Remrun.Fleet.Migrations

open Keyed Schema Commits
set_option autoImplicit false

/-! ## Jobs -/

def jobsTable (db : Database) : Option Table := db.tables.get "jobs"

/-- The payload column of the table's version. -/
def payload (t : Table) (row : Row) : Option String :=
  if "prepared_json" ∈ t.names then row "prepared_json" else t.cell row "payload_json"

/-- A job as its caller knows it: its id, its idempotency key and its payload. -/
def jobKey (t : Table) (row : Row) : Option String × Option String × Option String :=
  (t.cell row "job_id", t.cell row "idempotency_key", payload t row)

/-- A queued row with a frozen record. -/
def claimable (t : Table) (row : Row) : Bool :=
  "prepared_json" ∈ t.names && t.cell row "state" = some "queued" &&
    (t.cell row "prepared_id").isSome

def jobKeys : Option Table → List (Option String × Option String × Option String)
  | none => []
  | some t => t.rows.map (jobKey t)

def claimableKeys : Option Table → List (Option String × Option String × Option String)
  | none => []
  | some t => (t.rows.filter (claimable t)).map (jobKey t)

/-- Every job is still there, and none has become claimable. -/
def Preserves (before after : Database) : Prop :=
  (∀ key ∈ jobKeys (jobsTable before), key ∈ jobKeys (jobsTable after)) ∧
    ∀ key ∈ claimableKeys (jobsTable after), key ∈ claimableKeys (jobsTable before)

/-! ## Openings that die -/

/-- What an opening leaves: it dies after `n` commits, or runs until it returns or raises. -/
def opened (e : Environment) (death : Option Nat) (db : Database) : Database :=
  match death with
  | some n => (openQueue e).cut n db
  | none => finalState (openQueue e db).commits db

/-- Openings one after the other. -/
def openings : List (Environment × Option Nat) → Database → Database
  | [], db => db
  | (e, death) :: rest, db => openings rest (opened e death db)

/-- The process dies just after the old jobs table is dropped. -/
def DropsJobs (e : Environment) (death : Option Nat) (db : Database) : Prop :=
  death.bind (fun n => (openQueue e).lastLabel n db) = some [.dropTable "jobs" false]

/-- No opening dies there, unless the table holds no job. -/
def Spared : List (Environment × Option Nat) → Database → Prop
  | [], _ => True
  | (e, death) :: rest, db =>
    (DropsJobs e death db → jobKeys (jobsTable db) = []) ∧ Spared rest (opened e death db)

/-! ## Statements -/

section Walk
variable {I : Option Table → Prop} {P Q : Database → Prop} {db db' : Database} {e : Environment}

/-- What holds after a commit: without its jobs table, or with `I`. -/
def Committed (I : Option Table → Prop) (label : List Statement) (db : Database) : Prop :=
  (label = [.dropTable "jobs" false] → jobsTable db = none) ∧
    (label ≠ [.dropTable "jobs" false] → I (jobsTable db))

/-- A program from and to databases whose jobs table meets `I`. -/
def KeepsJobs (I : Option Table → Prop) {α : Type} (p : M α) : Prop :=
  Holds (Committed I) (fun db => I (jobsTable db)) (fun db => I (jobsTable db)) p
    fun _ db => I (jobsTable db)

theorem execStatements_one {statement : Statement}
    (h : execStatements [statement] db = .ok db') : statement.exec db = .ok db' := by
  unfold execStatements Statement.execAll at h
  cases hexec : statement.exec db with
  | error message =>
    rw [hexec] at h
    cases h
  | ok db₁ =>
    rw [hexec] at h
    cases h
    rfl

/-- A statement outside a transaction. -/
theorem holds_execute {statement : Statement} {R : PUnit → Database → Prop}
    (hok : ∀ db db', P db → statement.exec db = .ok db' → Committed I [statement] db' ∧ R ⟨⟩ db')
    (herror : ∀ db message, P db → statement.exec db = .error message → I (jobsTable db)) :
    Holds (Committed I) (fun db => I (jobsTable db)) P (execute statement) R := by
  apply holds_commit
  · intro db a label db' hP h
    cases hexec : execStatements [statement] db with
    | error fault =>
      rw [hexec] at h
      cases h
    | ok db₁ =>
      rw [hexec] at h
      cases h
      exact hok db db' hP (execStatements_one hexec)
  · intro db fault hP h
    cases hexec : statement.exec db with
    | error message => exact herror db message hP hexec
    | ok db₁ =>
      unfold execStatements Statement.execAll at h
      rw [hexec] at h
      cases h

theorem keepsJobs_execute {statement : Statement} (hname : "jobs" ∉ statement.touches) :
    KeepsJobs I (execute statement) := by
  have hlabel : [statement] ≠ [.dropTable "jobs" false] := by
    intro h
    obtain rfl := List.singleton_inj.mp h
    exact hname List.mem_cons_self
  apply holds_execute
  · intro db db' hI h
    have hsame : jobsTable db' = jobsTable db := get_exec h hname
    have hI' : I (jobsTable db') := by rwa [hsame]
    exact ⟨⟨fun hdrop => absurd hdrop hlabel, fun _ => hI'⟩, hI'⟩
  · exact fun _ _ hI _ => hI

theorem keepsJobs_read {α : Type} (f : Database → Except Fault α) :
    KeepsJobs I (.read f : M α) :=
  holds_read (fun _ _ hI _ => hI) fun _ _ hI _ => hI

theorem keepsJobs_pure {α : Type} (a : α) : KeepsJobs I (pure a : M α) :=
  holds_pure (Q := fun _ db => I (jobsTable db))

theorem KeepsJobs.bind {α β : Type} {p : M α} {f : α → M β} (hp : KeepsJobs I p)
    (hf : ∀ a, KeepsJobs I (f a)) : KeepsJobs I (p >>= f) := Holds.bind hp hf

theorem keepsJobs_onlyIf {c : Prop} [Decidable c] {p : M PUnit} (hp : KeepsJobs I p) :
    KeepsJobs I (onlyIf c p) := by
  unfold onlyIf
  split
  · exact hp
  · exact keepsJobs_pure _

/-- A statement that adds a column to the jobs, or leaves them alone. -/
def Harmless (statement : Statement) : Prop :=
  "jobs" ∉ statement.touches ∨ ∃ name ∈ addedJobColumns, statement = .addColumn "jobs" (text name)

theorem Harmless.not_drop {statements : List Statement} (h : ∀ st ∈ statements, Harmless st) :
    statements ≠ [.dropTable "jobs" false] := by
  rintro rfl
  rcases h _ List.mem_cons_self with hname | ⟨name, -, heq⟩
  · exact hname List.mem_cons_self
  · cases heq

theorem harmless_exec {statement : Statement} (hst : Harmless statement)
    (hadd : ∀ t name, name ∈ addedJobColumns → I (some t) → I (some (t.addColumn (text name))))
    (h : statement.exec db = .ok db') (hI : I (jobsTable db)) : I (jobsTable db') := by
  rcases hst with hname | ⟨name, hmem, rfl⟩
  · have hsame : jobsTable db' = jobsTable db := get_exec h hname
    rwa [hsame]
  · unfold Statement.exec at h
    dsimp only at h
    split at h
    · cases h
    · rename_i t ht
      split at h
      · cases h
      · cases h
        have hold : jobsTable db = some t := ht
        have hnew : jobsTable { db with tables := db.tables.set "jobs" (t.addColumn (text name)) } =
            some (t.addColumn (text name)) := Dict.get_set_self _ _ _
        rw [hnew]
        exact hadd t name hmem (hold ▸ hI)

theorem harmless_execAll {statements : List Statement} (hst : ∀ st ∈ statements, Harmless st)
    (hadd : ∀ t name, name ∈ addedJobColumns → I (some t) → I (some (t.addColumn (text name))))
    (h : Statement.execAll statements db = .ok db') (hI : I (jobsTable db)) :
    I (jobsTable db') := by
  induction statements generalizing db with
  | nil =>
    cases h
    exact hI
  | cons statement rest ih =>
    unfold Statement.execAll at h
    split at h
    · rename_i db₁ hexec
      exact ih (fun st hmem => hst st (List.mem_cons_of_mem _ hmem)) h
        (harmless_exec (hst statement List.mem_cons_self) hadd hexec hI)
    · cases h

theorem execStatements_ok {statements : List Statement}
    (h : execStatements statements db = .ok db') : Statement.execAll statements db = .ok db' := by
  unfold execStatements at h
  cases hexec : Statement.execAll statements db with
  | error message =>
    rw [hexec] at h
    cases h
  | ok db₁ =>
    rw [hexec] at h
    cases h
    rfl

/-- A transaction of statements that spare the jobs. -/
theorem keepsJobs_immediate {α : Type} {body : Database → Except Fault (α × List Statement)}
    (hbody : ∀ db a statements, body db = .ok (a, statements) →
      ∀ st ∈ statements, "jobs" ∉ st.touches) : KeepsJobs I (immediate body) := by
  apply holds_commit
  · intro db a label db' hI h
    cases hplan : body db with
    | error fault =>
      rw [hplan] at h
      cases h
    | ok plan =>
      obtain ⟨b, statements⟩ := plan
      rw [hplan] at h
      have hspare := hbody db b statements hplan
      have hharmless : ∀ st ∈ statements, Harmless st := fun st hst => Or.inl (hspare st hst)
      cases hexec : execStatements statements db with
      | error fault =>
        dsimp only at h
        rw [hexec] at h
        cases h
      | ok db₁ =>
        dsimp only at h
        rw [hexec] at h
        cases h
        have hsame : jobsTable db' = jobsTable db :=
          get_execAll (execStatements_ok hexec) hspare
        have hI' : I (jobsTable db') := by rwa [hsame]
        exact ⟨⟨fun hdrop => absurd hdrop (Harmless.not_drop hharmless), fun _ => hI'⟩, hI'⟩
  · exact fun _ _ hI _ => hI

/-! ## An opening, statement by statement -/

/-- The names of the jobs table are those that the upgrade has read, apart from new columns. -/
def NamesRead (haveJobs : List String) (o : Option Table) : Prop :=
  ∀ t, o = some t → ∀ name, name ∉ addedJobColumns → (name ∈ haveJobs ↔ name ∈ t.names)

/-- What an opening asks of `I`: an empty table and a new column keep it, and so does the copy. -/
structure Kept (I : Option Table → Prop) : Prop where
  created : I none → I (some ⟨jobsColumns, [["job_id"]], []⟩)
  column : ∀ t name, name ∈ addedJobColumns → I (some t) → I (some (t.addColumn (text name)))
  copied : ∀ now haveJobs, "prepared_json" ∉ haveJobs →
    Holds (Committed I) (fun db => I (jobsTable db))
      (fun db => I (jobsTable db) ∧ NamesRead haveJobs (jobsTable db)) (copyJobs now haveJobs)
      fun _ db => I (jobsTable db)

theorem keepsJobs_createJobs (hI : Kept I) :
    KeepsJobs I (execute (createIfMissing "jobs" jobsColumns [["job_id"]])) := by
  apply holds_execute
  · intro db db' hjobs h
    have hjobs' : I (jobsTable db') := by
      unfold createIfMissing Statement.exec at h
      dsimp only at h
      split at h
      · cases h
        exact hjobs
      · rename_i hnone
        split at h
        · cases h
        · cases h
          have hnew : jobsTable { db with
              tables := db.tables.set "jobs" ⟨jobsColumns, [["job_id"]], []⟩ } =
              some ⟨jobsColumns, [["job_id"]], []⟩ := Dict.get_set_self _ _ _
          have hold : jobsTable db = none := hnone
          rw [hnew]
          exact hI.created (hold ▸ hjobs)
    refine ⟨⟨fun hdrop => ?_, fun _ => hjobs'⟩, hjobs'⟩
    cases List.singleton_inj.mp hdrop
  · exact fun _ _ hjobs _ => hjobs

theorem keepsJobs_ensureSchema (hI : Kept I) : KeepsJobs I ensureSchema := by
  apply (keepsJobs_read _).bind
  intro present
  apply keepsJobs_onlyIf
  apply holds_forM
  intro statement hmem
  rcases List.mem_cons.mp hmem with rfl | hrest
  · exact keepsJobs_createJobs hI
  · have htail : ∀ st ∈ schema.tail, "jobs" ∉ st.touches := by decide
    exact keepsJobs_execute (htail statement hrest)

theorem namesRead_start (db : Database) : NamesRead (namesOf db "jobs") (jobsTable db) := by
  intro t ht name _
  have hget : db.tables.get "jobs" = some t := ht
  simp [namesOf, columnsOf, hget, Table.names]

theorem addColumns_harmless {a : List String × List String} {statements : List Statement}
    (h : addColumns db = .ok (a, statements)) :
    a.1 = namesOf db "jobs" ∧ ∀ st ∈ statements, Harmless st := by
  cases h
  refine ⟨rfl, fun st hst => ?_⟩
  rcases List.mem_append.mp hst with hst | hst
  · obtain ⟨name, hname, rfl⟩ := List.mem_map.mp hst
    exact Or.inr ⟨name, List.mem_of_mem_filter hname, rfl⟩
  · obtain ⟨column, -, rfl⟩ := List.mem_map.mp hst
    exact Or.inl (by simp [Statement.touches])

theorem namesRead_addColumn {haveJobs : List String} {t : Table} {name : String}
    (hname : name ∈ addedJobColumns) (h : NamesRead haveJobs (some t)) :
    NamesRead haveJobs (some (t.addColumn (text name))) := by
  intro t' ht other hother
  cases ht
  have hne : other ≠ name := fun h => hother (h ▸ hname)
  rw [names_addColumn, List.mem_append, List.mem_singleton]
  exact (h t rfl other hother).trans ⟨Or.inl, fun hor => hor.resolve_right hne⟩

theorem holds_addColumns (hI : Kept I) :
    Holds (Committed I) (fun db => I (jobsTable db)) (fun db => I (jobsTable db))
      (immediate addColumns) fun names db =>
        I (jobsTable db) ∧ NamesRead names.1 (jobsTable db) := by
  apply holds_commit
  · intro db a label db' hjobs h
    cases hplan : addColumns db with
    | error fault => cases hplan
    | ok plan =>
      obtain ⟨names, statements⟩ := plan
      obtain ⟨hnames, hharmless⟩ := addColumns_harmless hplan
      rw [hplan] at h
      dsimp only at h
      cases hexec : execStatements statements db with
      | error fault =>
        rw [hexec] at h
        cases h
      | ok db₁ =>
        rw [hexec] at h
        cases h
        have hboth : I (jobsTable db') ∧ NamesRead a.1 (jobsTable db') := by
          apply harmless_execAll (I := fun o => I o ∧ NamesRead a.1 o) hharmless _
            (execStatements_ok hexec)
          · rw [hnames]
            exact ⟨hjobs, namesRead_start db⟩
          · intro t name hname ht
            exact ⟨hI.column t name hname ht.1, namesRead_addColumn hname ht.2⟩
        exact ⟨⟨fun hdrop => absurd hdrop (Harmless.not_drop hharmless), fun _ => hboth.1⟩, hboth⟩
  · exact fun _ _ hjobs _ => hjobs

theorem keepsJobs_upgrade (hI : Kept I) (now : String) : KeepsJobs I (upgrade now) := by
  apply (holds_addColumns hI).bind
  rintro ⟨haveJobs, haveBatches⟩
  have hread : Holds (Committed I) (fun db => I (jobsTable db))
      (fun db => I (jobsTable db) ∧ NamesRead haveJobs (jobsTable db)) (.read checkDuplicates : M _)
      fun _ db => I (jobsTable db) ∧ NamesRead haveJobs (jobsTable db) :=
    holds_read (fun _ _ h _ => h) fun _ _ h _ => h.1
  apply hread.bind
  intro _
  have hcopy : Holds (Committed I) (fun db => I (jobsTable db))
      (fun db => I (jobsTable db) ∧ NamesRead haveJobs (jobsTable db))
      (onlyIf ("prepared_json" ∉ haveJobs) (copyJobs now haveJobs))
      fun _ db => I (jobsTable db) := by
    unfold onlyIf
    split
    · rename_i hprepared
      exact hI.copied now haveJobs hprepared
    · exact (keepsJobs_pure (I := I) PUnit.unit).pre fun _ h => h.1
  apply hcopy.bind
  intro _
  refine (keepsJobs_onlyIf (keepsJobs_execute ?_)).bind fun _ => ?_
  · simp [Statement.touches]
  refine (keepsJobs_execute ?_).bind fun _ => ?_
  · simp [Statement.touches]
  refine (keepsJobs_execute ?_).bind fun _ => ?_
  · simp [Statement.touches]
  refine (keepsJobs_execute ?_).bind fun _ => ?_
  · simp [indexIfMissing, Statement.touches]
  refine (keepsJobs_execute ?_).bind fun _ => ?_
  · simp [indexIfMissing, Statement.touches]
  apply keepsJobs_execute
  simp [Statement.touches]

theorem migrateTargetRows_spares {now : String} {a : PUnit} {statements : List Statement}
    (h : migrateTargetRows now db = .ok (a, statements)) :
    ∀ st ∈ statements, "jobs" ∉ st.touches := by
  unfold migrateTargetRows at h
  split at h
  · cases h
  · cases h
    intro st hst
    obtain ⟨row, -, rfl⟩ := List.mem_map.mp hst
    simp [markTargetRow, Statement.touches]

theorem migrateReservations_spares {a : PUnit} {statements : List Statement}
    (h : migrateReservations e db = .ok (a, statements)) :
    ∀ st ∈ statements, "jobs" ∉ st.touches := by
  unfold migrateReservations at h
  dsimp only at h
  cases hadded : backfill e ((((db.tables.get "jobs").map Table.rows).getD []).filter fun row =>
      (row "prepared_id").isSome) ((((db.tables.get "prepared_output_reservations").map
        Table.rows).getD []).filterMap fun row =>
          (row "stem").bind fun stem => (row "work_id").map fun workId => (stem, workId)) with
  | error fault =>
    rw [hadded] at h
    cases h
  | ok added =>
    rw [hadded] at h
    cases h
    intro st hst
    obtain ⟨entry, -, rfl⟩ := List.mem_map.mp hst
    simp [Statement.touches]

theorem keepsJobs_openQueue (hI : Kept I) (e : Environment) : KeepsJobs I (openQueue e) := by
  apply (keepsJobs_read _).bind
  intro _
  apply (keepsJobs_ensureSchema hI).bind
  intro _
  apply (keepsJobs_read _).bind
  intro current
  apply (keepsJobs_onlyIf (keepsJobs_upgrade hI e.now)).bind
  intro _
  apply (keepsJobs_immediate fun _ _ _ h => migrateTargetRows_spares h).bind
  intro _
  apply (keepsJobs_read _).bind
  intro rebuild
  have hrebuild : ∀ st ∈ rebuildBatches, "jobs" ∉ st.touches := by decide
  refine (keepsJobs_onlyIf (keepsJobs_immediate ?_)).bind fun _ => ?_
  · rintro db a statements ⟨⟩
    exact hrebuild
  apply (keepsJobs_immediate fun _ _ _ h => migrateReservations_spares h).bind
  intro _
  refine KeepsJobs.bind ?_ fun _ => keepsJobs_read _
  apply (keepsJobs_read _).bind
  intro columns
  refine keepsJobs_onlyIf (keepsJobs_immediate ?_)
  rintro db a statements ⟨⟩ st hst
  rw [List.mem_singleton.mp hst]
  simp [Statement.touches]

end Walk

/-! ## The copy of the jobs -/

abbrev Keys := List (Option String × Option String × Option String)

/-- The table holds the jobs `keys`, of which only those of `free` are claimable. -/
def Carries (keys free : Keys) (o : Option Table) : Prop :=
  jobKeys o = keys ∧ ∀ key ∈ claimableKeys o, key ∈ free

section Carrying
variable {keys free : Keys} {t t' : Table} {db db' : Database} {haveJobs : List String}
  {now : String}

/-- A table with the same jobs and no claimable ones carries them on. -/
theorem Carries.of_keys (h : Carries keys free (some t))
    (hkeys : t'.rows.map (jobKey t') = t.rows.map (jobKey t))
    (hno : ∀ row ∈ t'.rows, claimable t' row = false) : Carries keys free (some t') := by
  refine ⟨hkeys.trans h.1, fun key hkey => ?_⟩
  obtain ⟨row, hrow, -⟩ := List.mem_map.mp hkey
  obtain ⟨hmem, hclaim⟩ := List.mem_filter.mp hrow
  rw [hno row hmem] at hclaim
  cases hclaim

theorem jobKey_addColumn {name : String} {row : Row} (hname : name ∈ addedJobColumns) :
    jobKey (t.addColumn (text name))
      (fun other => if other = (text name).name then none else row other) = jobKey t row := by
  have hne : ∀ other ∈ ["job_id", "idempotency_key", "prepared_json", "payload_json", "state"],
      ∀ added ∈ addedJobColumns, other ≠ added := by decide
  have hprepared : "prepared_json" ≠ name := hne _ (by simp) name hname
  unfold jobKey payload
  rw [cell_addColumn (hne _ (by simp) name hname), cell_addColumn (hne _ (by simp) name hname),
    cell_addColumn (hne _ (by simp) name hname), names_addColumn]
  simp [text, hprepared]

theorem claimable_addColumn {name : String} {row : Row} (hname : name ∈ addedJobColumns)
    (h : claimable (t.addColumn (text name))
      (fun other => if other = (text name).name then none else row other) = true) :
    claimable t row = true := by
  have hne : ∀ other ∈ ["prepared_json", "state"], ∀ added ∈ addedJobColumns, other ≠ added := by
    decide
  have hprepared : "prepared_json" ≠ name := hne _ (by simp) name hname
  unfold claimable at h ⊢
  rw [cell_addColumn (hne _ (by simp) name hname), names_addColumn] at h
  by_cases hid : name = "prepared_id"
  · subst hid
    have hself : (t.addColumn (text "prepared_id")).cell
        (fun other => if other = (text "prepared_id").name then none else row other)
        "prepared_id" = none := cell_addColumn_self
    rw [hself] at h
    simp at h
  · rw [cell_addColumn (fun heq => hid heq.symm)] at h
    simpa [text, hprepared] using h

theorem Carries.addColumn {name : String} (hname : name ∈ addedJobColumns)
    (h : Carries keys free (some t)) : Carries keys free (some (t.addColumn (text name))) := by
  have hkeys : jobKeys (some (t.addColumn (text name))) = jobKeys (some t) := by
    unfold jobKeys
    dsimp only [Table.addColumn]
    rw [List.map_map]
    apply List.map_congr_left
    exact fun row _ => jobKey_addColumn hname
  refine ⟨hkeys.trans h.1, fun key hkey => h.2 key ?_⟩
  obtain ⟨row', hrow', rfl⟩ := List.mem_map.mp hkey
  obtain ⟨hmem, hclaim⟩ := List.mem_filter.mp hrow'
  obtain ⟨row, hrow, rfl⟩ := List.mem_map.mp hmem
  rw [jobKey_addColumn hname]
  exact List.mem_map_of_mem (List.mem_filter.mpr ⟨hrow, claimable_addColumn hname hclaim⟩)

/-- Without frozen records nothing is claimable. -/
theorem not_claimable {row : Row} (h : "prepared_json" ∉ t.names) : claimable t row = false := by
  simp [claimable, h]

/-- The old table before the copy: without frozen records, and with the payload column read. -/
structure Legacy (keys free : Keys) (haveJobs : List String) (db : Database) (t : Table) :
    Prop where
  jobs : jobsTable db = some t
  carries : Carries keys free (some t)
  prepared : "prepared_json" ∉ t.names
  payload : "payload_json" ∈ haveJobs ↔ "payload_json" ∈ t.names

theorem review_ok (h : (reviewUnprepared now).exec db = .ok db') :
    ∃ t, jobsTable db = some t ∧ jobsTable db' = some { t with
      rows := t.rows.map fun row => if notFinal row then Statement.assigned
        [("state", fun _ => some "needs_review"),
          ("last_error", fun row => (row "last_error").or
            (some "unprepared row requires explicit resubmission")),
          ("leased_until", fun _ => none), ("assigned_device", fun _ => none),
          ("batch_id", fun _ => none), ("updated_at", fun _ => some now)] row else row } := by
  unfold reviewUnprepared Statement.exec at h
  dsimp only at h
  split at h
  · cases h
  · rename_i t ht
    split at h
    · cases h
    · cases h
      exact ⟨t, ht, Dict.get_set_self _ _ _⟩

/-- The review keeps the id, the key and the payload of a row. -/
theorem Legacy.review (hjobs : Carries keys free (jobsTable db) ∧ NamesRead haveJobs (jobsTable db))
    (hprepared : "prepared_json" ∉ haveJobs) (h : (reviewUnprepared now).exec db = .ok db') :
    ∃ t, Legacy keys free haveJobs db' t := by
  obtain ⟨t, ht, ht'⟩ := review_ok h
  rw [ht] at hjobs
  have hnames : ∀ name, name ∉ addedJobColumns → (name ∈ haveJobs ↔ name ∈ t.names) :=
    hjobs.2 t rfl
  have hno : "prepared_json" ∉ t.names :=
    fun hin => hprepared ((hnames "prepared_json" (by decide)).mpr hin)
  refine ⟨_, ht', hjobs.1.of_keys ?_ fun row _ => not_claimable hno, hno,
    hnames "payload_json" (by decide)⟩
  dsimp only
  rw [List.map_map]
  apply List.map_congr_left
  intro row _
  dsimp only [Function.comp_apply]
  split
  · rfl
  · rfl

/-- A statement on another table leaves the old one. -/
theorem Legacy.frame {statement : Statement} (hlegacy : Legacy keys free haveJobs db t)
    (h : statement.exec db = .ok db') (hname : "jobs" ∉ statement.touches) :
    Legacy keys free haveJobs db' t where
  jobs := (get_exec h hname).trans hlegacy.jobs
  carries := hlegacy.carries
  prepared := hlegacy.prepared
  payload := hlegacy.payload

/-- A copied row. -/
def copiedRow (haveJobs : List String) (t t' : Table) (row : Row) : Row :=
  rowOf t' ((copiedValues haveJobs).map fun v => (v.1, v.2.of t row))

theorem copied_payload {row : Row} (hlegacy : Legacy keys free haveJobs db t) :
    copiedRow haveJobs t t' row "prepared_json" = payload t row := by
  have hcopied : copiedRow haveJobs t t' row "prepared_json" =
      (if "payload_json" ∈ haveJobs then Value.column "payload_json" else .null).of t row := rfl
  rw [hcopied]
  unfold payload
  rw [if_neg hlegacy.prepared]
  split
  · rfl
  · rename_i hnone
    unfold Table.cell
    rw [if_neg fun hin => hnone (hlegacy.payload.mpr hin)]
    rfl

/-- The copied row shows the id, the key and the payload of the old one. -/
theorem jobKey_copied {row : Row} (hlegacy : Legacy keys free haveJobs db t)
    (hcolumns : t'.columns = jobsColumns) {t₀ : Table} :
    jobKey t' (copiedRow haveJobs t t₀ row) = jobKey t row := by
  have hnames : ∀ name ∈ ["job_id", "idempotency_key", "prepared_json"], name ∈ t'.names := by
    unfold Table.names
    rw [hcolumns]
    decide
  have hcell : ∀ name ∈ ["job_id", "idempotency_key", "prepared_json"],
      t'.cell (copiedRow haveJobs t t₀ row) name = copiedRow haveJobs t t₀ row name :=
    fun name hname => if_pos (hnames name hname)
  unfold jobKey
  rw [hcell "job_id" (by simp), hcell "idempotency_key" (by simp)]
  unfold payload
  rw [if_pos (hnames "prepared_json" (by simp)), copied_payload hlegacy]
  rfl

theorem copied_not_claimable {row : Row} {t₀ : Table} :
    claimable t' (copiedRow haveJobs t t₀ row) = false := by
  have hnone : t'.cell (copiedRow haveJobs t t₀ row) "prepared_id" = none := by
    unfold Table.cell
    split
    · rfl
    · rfl
  simp [claimable, hnone]

/-- The new table beside the old one. -/
structure Copied (keys free : Keys) (db : Database) (t' : Table) : Prop where
  copy : db.tables.get "jobs_v2" = some t'
  carries : Carries keys free (some t')

theorem Legacy.copied (hlegacy : Legacy keys free haveJobs db t)
    (hempty : db.tables.get "jobs_v2" = some ⟨jobsColumns, [["job_id"]], []⟩)
    (h : (Statement.insertSelect "jobs_v2" "jobs" (copiedValues haveJobs)).exec db = .ok db') :
    ∃ t', Copied keys free db' t' := by
  have hold : db.tables.get "jobs" = some t := hlegacy.jobs
  unfold Statement.exec at h
  dsimp only at h
  rw [hempty, hold] at h
  dsimp only at h
  split at h
  · cases h
  · split at h
    · cases h
    · rename_i t' happend
      cases h
      refine ⟨t', Dict.get_set_self _ _ _, ?_⟩
      rw [appendAll_ok happend]
      apply hlegacy.carries.of_keys
      · dsimp only
        rw [List.nil_append, List.map_map]
        exact List.map_congr_left fun row _ => jobKey_copied hlegacy rfl
      · intro row hrow
        obtain ⟨old, -, rfl⟩ := List.mem_map.mp hrow
        exact copied_not_claimable

theorem dropJobs_ok (h : (Statement.dropTable "jobs" false).exec db = .ok db') :
    jobsTable db' = none ∧ db'.tables.get "jobs_v2" = db.tables.get "jobs_v2" := by
  refine ⟨?_, get_exec h (by decide)⟩
  unfold Statement.exec at h
  dsimp only at h
  split at h
  · cases h
  · cases h
    exact Dict.get_pop_self _ _

/-- The new table takes the place of the dropped one. -/
theorem rename_ok (hcopied : Copied keys free db t') (hdropped : jobsTable db = none) :
    ∃ db', (Statement.renameTable "jobs_v2" "jobs").exec db = .ok db' ∧
      Carries keys free (jobsTable db') := by
  have hnone : db.tables.get "jobs" = none := hdropped
  unfold Statement.exec
  dsimp only
  rw [hcopied.copy, hnone]
  refine ⟨_, rfl, ?_⟩
  have hnew : jobsTable ⟨(db.tables.pop "jobs_v2").set "jobs" t', db.indexes.mapValues fun i =>
      if i.table = "jobs_v2" then { i with table := "jobs" } else i⟩ = some t' :=
    Dict.get_set_self _ _ _
  rw [hnew]
  exact hcopied.carries

/-- The copy commits one statement after the other; without its jobs table a database is left by
the drop only. -/
theorem holds_copyJobs (hprepared : "prepared_json" ∉ haveJobs) :
    Holds (Committed (Carries keys free)) (fun db => Carries keys free (jobsTable db))
      (fun db => Carries keys free (jobsTable db) ∧ NamesRead haveJobs (jobsTable db))
      (copyJobs now haveJobs) fun _ db => Carries keys free (jobsTable db) := by
  have hcommitted : ∀ {label : List Statement} {db : Database} {t : Table},
      label ≠ [.dropTable "jobs" false] → Legacy keys free haveJobs db t →
      Committed (Carries keys free) label db := by
    intro label db t hlabel hlegacy
    refine ⟨fun h => absurd h hlabel, fun _ => ?_⟩
    rw [hlegacy.jobs]
    exact hlegacy.carries
  have hreview : Holds (Committed (Carries keys free)) (fun db => Carries keys free (jobsTable db))
      (fun db => Carries keys free (jobsTable db) ∧ NamesRead haveJobs (jobsTable db))
      (execute (reviewUnprepared now)) fun _ db => ∃ t, Legacy keys free haveJobs db t := by
    apply holds_execute
    · intro db db' hjobs h
      obtain ⟨t, hlegacy⟩ := Legacy.review hjobs hprepared h
      refine ⟨hcommitted ?_ hlegacy, t, hlegacy⟩
      intro hlabel
      cases List.singleton_inj.mp hlabel
    · exact fun _ _ hjobs _ => hjobs.1
  have hclear : Holds (Committed (Carries keys free)) (fun db => Carries keys free (jobsTable db))
      (fun db => ∃ t, Legacy keys free haveJobs db t) (execute (.dropTable "jobs_v2" true))
      fun _ db => ∃ t, Legacy keys free haveJobs db t := by
    apply holds_execute
    · rintro db db' ⟨t, hlegacy⟩ h
      have hlegacy' := hlegacy.frame h (by simp [Statement.touches])
      refine ⟨hcommitted ?_ hlegacy', t, hlegacy'⟩
      simp
    · rintro db message ⟨t, hlegacy⟩ -
      rw [hlegacy.jobs]
      exact hlegacy.carries
  have hcreate : Holds (Committed (Carries keys free)) (fun db => Carries keys free (jobsTable db))
      (fun db => ∃ t, Legacy keys free haveJobs db t)
      (execute (.createTable "jobs_v2" jobsColumns [["job_id"]] false))
      fun _ db => (∃ t, Legacy keys free haveJobs db t) ∧
        db.tables.get "jobs_v2" = some ⟨jobsColumns, [["job_id"]], []⟩ := by
    apply holds_execute
    · rintro db db' ⟨t, hlegacy⟩ h
      have hlegacy' := hlegacy.frame h (by simp [Statement.touches])
      refine ⟨hcommitted (by simp) hlegacy', ⟨t, hlegacy'⟩, ?_⟩
      unfold Statement.exec at h
      dsimp only at h
      split at h
      · cases h
      · split at h
        · cases h
        · cases h
          exact Dict.get_set_self _ _ _
    · rintro db message ⟨t, hlegacy⟩ -
      rw [hlegacy.jobs]
      exact hlegacy.carries
  have hinsert : Holds (Committed (Carries keys free)) (fun db => Carries keys free (jobsTable db))
      (fun db => (∃ t, Legacy keys free haveJobs db t) ∧
        db.tables.get "jobs_v2" = some ⟨jobsColumns, [["job_id"]], []⟩)
      (execute (.insertSelect "jobs_v2" "jobs" (copiedValues haveJobs)))
      fun _ db => Carries keys free (jobsTable db) ∧ ∃ t', Copied keys free db t' := by
    apply holds_execute
    · rintro db db' ⟨⟨t, hlegacy⟩, hempty⟩ h
      have hlegacy' := hlegacy.frame h (by simp [Statement.touches])
      refine ⟨hcommitted (by simp) hlegacy', ?_, hlegacy.copied hempty h⟩
      rw [hlegacy'.jobs]
      exact hlegacy'.carries
    · rintro db message ⟨⟨t, hlegacy⟩, -⟩ -
      rw [hlegacy.jobs]
      exact hlegacy.carries
  have hdrop : Holds (Committed (Carries keys free)) (fun db => Carries keys free (jobsTable db))
      (fun db => Carries keys free (jobsTable db) ∧ ∃ t', Copied keys free db t')
      (execute (.dropTable "jobs" false))
      fun _ db => jobsTable db = none ∧ ∃ t', Copied keys free db t' := by
    apply holds_execute
    · rintro db db' ⟨-, t', hcopied⟩ h
      obtain ⟨hnone, hsame⟩ := dropJobs_ok h
      exact ⟨⟨fun _ => hnone, fun hlabel => absurd rfl hlabel⟩, hnone, t',
        hsame.trans hcopied.copy, hcopied.carries⟩
    · exact fun _ _ hjobs _ => hjobs.1
  have hrename : Holds (Committed (Carries keys free)) (fun db => Carries keys free (jobsTable db))
      (fun db => jobsTable db = none ∧ ∃ t', Copied keys free db t')
      (execute (.renameTable "jobs_v2" "jobs"))
      fun _ db => Carries keys free (jobsTable db) := by
    apply holds_execute
    · rintro db db' ⟨hnone, t', hcopied⟩ h
      obtain ⟨db₁, hexec, hcarries⟩ := rename_ok hcopied hnone
      rw [hexec] at h
      cases h
      exact ⟨⟨fun hlabel => by simp at hlabel, fun _ => hcarries⟩, hcarries⟩
    · rintro db message ⟨hnone, t', hcopied⟩ h
      obtain ⟨db₁, hexec, -⟩ := rename_ok hcopied hnone
      rw [hexec] at h
      cases h
  exact hreview.bind fun _ => hclear.bind fun _ => hcreate.bind fun _ => hinsert.bind fun _ =>
    hdrop.bind fun _ => hrename

theorem kept_carries : Kept (Carries keys free) where
  created h := ⟨h.1, fun _ hkey => absurd hkey List.not_mem_nil⟩
  column _ _ hname h := h.addColumn hname
  copied _ _ hprepared := holds_copyJobs hprepared

/-! ## A lost jobs table -/

/-- There is no jobs table, or an empty one of the current version. -/
def Lost (o : Option Table) : Prop := ∀ t, o = some t → t.rows = [] ∧ "prepared_json" ∈ t.names

theorem Lost.jobKeys {o : Option Table} (h : Lost o) : jobKeys o = [] := by
  cases o with
  | none => rfl
  | some t => simp [Migrations.jobKeys, (h t rfl).1]

theorem kept_lost : Kept Lost where
  created _ := by
    rintro t ⟨⟩
    exact ⟨rfl, by decide⟩
  column t name _ h := by
    rintro t' ⟨⟩
    obtain ⟨hrows, hnames⟩ := h t rfl
    refine ⟨by simp [Table.addColumn, hrows], ?_⟩
    rw [names_addColumn]
    exact List.mem_append_left _ hnames
  copied now haveJobs hprepared := by
    have hnone : ∀ db, Lost (jobsTable db) ∧ NamesRead haveJobs (jobsTable db) →
        jobsTable db = none := by
      rintro db ⟨hlost, hread⟩
      cases hjobs : jobsTable db with
      | none => rfl
      | some t =>
        have hin := (hread t hjobs "prepared_json" (by decide)).mpr (hlost t hjobs).2
        exact absurd hin hprepared
    have hreview : Holds (Committed Lost) (fun db => Lost (jobsTable db))
        (fun db => Lost (jobsTable db) ∧ NamesRead haveJobs (jobsTable db))
        (execute (reviewUnprepared now)) fun _ _ => False := by
      apply holds_execute
      · intro db db' hjobs h
        obtain ⟨t, ht, -⟩ := review_ok h
        rw [hnone db hjobs] at ht
        cases ht
      · exact fun _ _ hjobs _ => hjobs.1
    exact hreview.bind fun _ db hfalse => hfalse.elim

end Carrying

/-! ## Any number of openings -/

theorem opened_jobs {I : Option Table → Prop} (hI : Kept I) {db : Database}
    (hdb : I (jobsTable db)) (e : Environment) (death : Option Nat) :
    (¬ DropsJobs e death db ∧ I (jobsTable (opened e death db))) ∨
      (DropsJobs e death db ∧ jobsTable (opened e death db) = none) := by
  have hkeeps : KeepsJobs I (openQueue e) := keepsJobs_openQueue hI e
  unfold DropsJobs opened
  cases death with
  | none =>
    refine Or.inl ⟨by simp, ?_⟩
    obtain ⟨-, hok, herror⟩ := hkeeps db hdb
    cases hresult : (openQueue e db).result with
    | ok a => exact hok a hresult
    | error fault => exact herror fault hresult
  | some n =>
    rw [Option.bind_some]
    rcases hkeeps.cut hdb n with ⟨hlabel, hcut⟩ | ⟨label, hlabel, hcommitted⟩
    · rw [hlabel]
      dsimp only
      rw [hcut]
      exact Or.inl ⟨by simp, hdb⟩
    · rw [hlabel, Option.some.injEq]
      by_cases hdrop : label = [.dropTable "jobs" false]
      · exact Or.inr ⟨hdrop, hcommitted.1 hdrop⟩
      · exact Or.inl ⟨hdrop, hcommitted.2 hdrop⟩

theorem lost_openings {db : Database} (h : Lost (jobsTable db)) (ops : List (Environment × Option Nat)) :
    Lost (jobsTable (openings ops db)) := by
  induction ops generalizing db with
  | nil => exact h
  | cons op rest ih =>
    apply ih
    rcases opened_jobs kept_lost h op.1 op.2 with ⟨-, hlost⟩ | ⟨-, hnone⟩
    · exact hlost
    · rw [hnone]
      rintro t ⟨⟩

/-- An opening that is spared carries the jobs on; one that is not loses them for good. -/
theorem openings_carry {keys free : Keys} {db : Database} (h : Carries keys free (jobsTable db))
    (ops : List (Environment × Option Nat)) :
    (Spared ops db → Carries keys free (jobsTable (openings ops db))) ∧
      (¬ Spared ops db → keys ≠ [] ∧ jobKeys (jobsTable (openings ops db)) = []) := by
  induction ops generalizing db with
  | nil => exact ⟨fun _ => h, fun hno => absurd trivial hno⟩
  | cons op rest ih =>
    obtain ⟨e, death⟩ := op
    rcases opened_jobs kept_carries h e death with ⟨hno, hcarries⟩ | ⟨hdrop, hnone⟩
    · obtain ⟨hspared, hlost⟩ := ih hcarries
      refine ⟨fun hall => hspared hall.2, fun hsome => hlost fun hrest => hsome ⟨?_, hrest⟩⟩
      exact fun hdrop => absurd hdrop hno
    · by_cases hempty : jobKeys (jobsTable db) = []
      · have hcarries : Carries keys free (jobsTable (opened e death db)) := by
          rw [hnone]
          exact ⟨hempty.symm.trans h.1, fun _ hkey => absurd hkey List.not_mem_nil⟩
        obtain ⟨hspared, hlost⟩ := ih hcarries
        exact ⟨fun hall => hspared hall.2, fun hsome => hlost fun hrest =>
          hsome ⟨fun _ => hempty, hrest⟩⟩
      · have hlost : Lost (jobsTable (opened e death db)) := by
          rw [hnone]
          rintro t ⟨⟩
        refine ⟨fun hall => absurd (hall.1 hdrop) hempty, fun _ => ⟨?_, ?_⟩⟩
        · rw [← h.1]
          exact hempty
        · exact (lost_openings hlost rest).jobKeys

/-- After any number of openings of a predecessor database, each of which dies after any of its
commits or runs to its end, every job is there and none has become claimable, exactly if no
opening died between the drop of a jobs table that holds jobs and the renaming of its copy. -/
theorem openings_preserve_iff (before : Database) (ops : List (Environment × Option Nat)) :
    Preserves before (openings ops before) ↔ Spared ops before := by
  have hstart : Carries (jobKeys (jobsTable before)) (claimableKeys (jobsTable before))
      (jobsTable before) := ⟨rfl, fun _ hkey => hkey⟩
  obtain ⟨hspared, hlost⟩ := openings_carry hstart ops
  constructor
  · intro hpreserves
    by_contra hno
    obtain ⟨hsome, hnone⟩ := hlost hno
    obtain ⟨key, hkey⟩ := List.exists_mem_of_ne_nil _ hsome
    have hstill := hpreserves.1 key hkey
    rw [hnone] at hstill
    exact List.not_mem_nil hstill
  · intro hall
    obtain ⟨hkeys, hfree⟩ := hspared hall
    exact ⟨fun key hkey => hkeys ▸ hkey, hfree⟩

/-! ## A death between the drop and the renaming -/

/-- The jobs table of a version without frozen records. -/
def legacyJobs : Table where
  columns := [primary "job_id", required "task_type", required "payload_json", text "force_device",
    defaulted "priority" "INTEGER" "0", text "idempotency_key", defaulted "state" "TEXT" "queued",
    defaulted "attempts" "INTEGER" "0", text "leased_until", text "assigned_device",
    text "batch_id", required "created_at", required "updated_at", text "last_error",
    text "output_manifest"]
  uniques := [["job_id"]]
  rows := [fun name => match name with
    | "job_id" => some "job"
    | "task_type" => some "task"
    | "payload_json" => some "payload"
    | "priority" => some "0"
    | "state" => some "queued"
    | "attempts" => some "0"
    | "created_at" => some "then"
    | "updated_at" => some "then"
    | _ => none]

def legacyBatches : Table where
  columns := [primary "batch_id", required "state", required "device", text "task_type",
    text "engine", text "bucket", required "created_at", required "updated_at",
    required "lease_until", text "heartbeat_at", defaulted "estimated_finish_s" "REAL" "0",
    text "error"]
  uniques := [["batch_id"]]
  rows := []

def legacy : Database :=
  ⟨(Dict.empty.set "jobs" legacyJobs).set "batches" legacyBatches, .empty⟩

def sampleEnvironment : Environment := ⟨none, "now", fun _ => .error "malformed"⟩

/-- The opening dies after its 21st commit, `DROP TABLE jobs`; the next one completes and finds no
job. -/
theorem death_loses_jobs :
    ¬ Preserves legacy
      (openings [(sampleEnvironment, some 21), (sampleEnvironment, none)] legacy) := by
  rintro ⟨hjobs, -⟩
  have hlost : jobKeys (jobsTable
      (openings [(sampleEnvironment, some 21), (sampleEnvironment, none)] legacy)) = [] := by
    decide +kernel
  have hjob := hjobs (some "job", none, some "payload") (by decide)
  rw [hlost] at hjob
  exact List.not_mem_nil hjob

end Remrun.Fleet.Migrations
