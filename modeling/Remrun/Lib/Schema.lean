import Remrun.Lib.Dict

/-!
# Tables with columns

A database as its schema sees it: named tables with columns, rows and indexes, and the statements
that change them. A row gives every column name a text or NULL; only the columns of its table are
read. A statement that fails changes nothing.
-/

namespace Schema

open Keyed
set_option autoImplicit false

abbrev Row := String → Option String

/-- A column; `key` is its place in the primary key, 0 outside. -/
structure Column where
  name : String
  type : String
  notNull : Bool
  default : Option String
  key : Nat
  deriving DecidableEq

/-- `uniques` are the columns of each PRIMARY KEY or UNIQUE constraint. -/
structure Table where
  columns : List Column
  uniques : List (List String)
  rows : List Row

structure Index where
  table : String
  columns : List String
  unique : Bool
  filtered : Bool
  sql : String

structure Database where
  tables : Dict (id : String → String) Table
  indexes : Dict (id : String → String) Index

namespace Table

def names (t : Table) : List String := t.columns.map Column.name

/-- The value of a column; a column that the table does not have is NULL. -/
def cell (t : Table) (row : Row) (column : String) : Option String :=
  if column ∈ t.names then row column else none

/-- A new column is NULL in every row. -/
def addColumn (t : Table) (column : Column) : Table where
  columns := t.columns ++ [column]
  uniques := t.uniques
  rows := t.rows.map fun row name => if name = column.name then none else row name

def renameColumn (t : Table) (old new : String) : Table where
  columns := t.columns.map fun c => if c.name = old then { c with name := new } else c
  uniques := t.uniques.map fun key => key.map fun name => if name = old then new else name
  rows := t.rows.map fun row name => if name = new then row old else row name

/-- Two rows agree on a key without NULL. -/
def collide (t : Table) (a b : Row) : Bool :=
  t.uniques.any fun key => key.all fun name => (a name).isSome && a name = b name

/-- The row may be appended: its required columns are there, and no key is taken. -/
def admitsRow (t : Table) (row : Row) : Bool :=
  (t.columns.all fun c => !c.notNull || (row c.name).isSome) && !(t.rows.any fun r => t.collide r row)

def append (t : Table) (row : Row) : Option Table :=
  if t.admitsRow row then some { t with rows := t.rows ++ [row] } else none

def appendAll : List Row → Table → Option Table
  | [], t => some t
  | row :: rest, t => (t.append row).bind (appendAll rest)

end Table

/-- What `INSERT … SELECT` writes into a column. -/
inductive Value where
  | column (name : String)
  | text (value : String)
  | null

def Value.of (source : Table) (row : Row) : Value → Option String
  | .column name => source.cell row name
  | .text value => some value
  | .null => none

def Value.columns : Value → List String
  | .column name => [name]
  | _ => []

/-- The row of the listed columns; the others take their default. -/
def rowOf (t : Table) (values : List (String × Option String)) : Row := fun name =>
  match values.find? fun v => v.1 = name with
  | some v => v.2
  | none => (t.columns.find? fun c => c.name = name).bind Column.default

/-- One statement; `reads` are the columns that a condition names. -/
inductive Statement where
  | createTable (name : String) (columns : List Column) (uniques : List (List String))
      (ifNotExists : Bool)
  | dropTable (name : String) (ifExists : Bool)
  | renameTable (name newName : String)
  | addColumn (table : String) (column : Column)
  | renameColumn (table old new : String)
  | insert (into : String) (values : List (String × Option String))
  | insertSelect (into source : String) (values : List (String × Value))
  | update (table : String) (reads : List String) (selects : Row → Bool)
      (assign : List (String × (Row → Option String)))
  | createIndex (name : String) (index : Index) (covers : Row → Bool) (ifNotExists : Bool)
  | dropIndex (name : String)

namespace Statement

/-- The tables that a statement may change. -/
def touches : Statement → List String
  | createTable name _ _ _ => [name]
  | dropTable name _ => [name]
  | renameTable name newName => [name, newName]
  | addColumn table _ => [table]
  | renameColumn table _ _ => [table]
  | insert into _ => [into]
  | insertSelect into _ _ => [into]
  | update table _ _ _ => [table]
  | createIndex _ _ _ _ => []
  | dropIndex _ => []

/-- The row after the assignments of an `UPDATE`. -/
def assigned (assign : List (String × (Row → Option String))) (row : Row) : Row := fun name =>
  match assign.find? fun a => a.1 = name with
  | some a => a.2 row
  | none => row name

def noTable (name : String) : Except String Database := .error ("no such table: " ++ name)

def noColumn (table : String) : Except String Database := .error ("no such column in " ++ table)

/-- Some row collides with a later one. -/
def duplicates (t : Table) (columns : List String) : List Row → Bool
  | [] => false
  | row :: rest => rest.any (fun other => columns.all fun name =>
      (row name).isSome && row name = other name) || duplicates t columns rest

def exec (db : Database) : Statement → Except String Database
  | createTable name columns uniques ifNotExists =>
    match db.tables.get name with
    | some _ => if ifNotExists then .ok db else .error ("table " ++ name ++ " already exists")
    | none =>
      if (db.indexes.get name).isSome then .error ("there is already an index named " ++ name)
      else .ok { db with tables := db.tables.set name ⟨columns, uniques, []⟩ }
  | dropTable name ifExists =>
    match db.tables.get name with
    | none => if ifExists then .ok db else noTable name
    | some _ =>
      .ok ⟨db.tables.pop name,
        (db.indexes.rows.filter fun e => e.2.table = name).foldl (fun d e => d.pop e.1) db.indexes⟩
  | renameTable name newName =>
    match db.tables.get name with
    | none => noTable name
    | some t =>
      if (db.tables.get newName).isSome then .error ("table " ++ newName ++ " already exists")
      else .ok ⟨(db.tables.pop name).set newName t,
        db.indexes.mapValues fun i => if i.table = name then { i with table := newName } else i⟩
  | addColumn table column =>
    match db.tables.get table with
    | none => noTable table
    | some t =>
      if column.name ∈ t.names then .error ("duplicate column name: " ++ column.name)
      else .ok { db with tables := db.tables.set table (t.addColumn column) }
  | renameColumn table old new =>
    match db.tables.get table with
    | none => noTable table
    | some t =>
      if old ∉ t.names then noColumn table
      else if new ∈ t.names then .error ("duplicate column name: " ++ new)
      else .ok { db with tables := db.tables.set table (t.renameColumn old new) }
  | insert into values =>
    match db.tables.get into with
    | none => noTable into
    | some t =>
      if !(values.all fun v => v.1 ∈ t.names) then noColumn into
      else match t.append (rowOf t values) with
        | none => .error "constraint failed"
        | some t => .ok { db with tables := db.tables.set into t }
  | insertSelect into source values =>
    match db.tables.get into, db.tables.get source with
    | some t, some s =>
      if !(values.all fun v => v.1 ∈ t.names && v.2.columns.all fun name => name ∈ s.names) then
        noColumn source
      else match t.appendAll (s.rows.map fun row =>
          rowOf t (values.map fun v => (v.1, v.2.of s row))) with
        | none => .error "constraint failed"
        | some t => .ok { db with tables := db.tables.set into t }
    | none, _ => noTable into
    | _, none => noTable source
  | update table reads selects assign =>
    match db.tables.get table with
    | none => noTable table
    | some t =>
      if !((reads ++ assign.map Prod.fst).all fun name => name ∈ t.names) then noColumn table
      else .ok { db with tables := db.tables.set table { t with
        rows := t.rows.map fun row => if selects row then assigned assign row else row } }
  | createIndex name index covers ifNotExists =>
    if (db.indexes.get name).isSome then
      if ifNotExists then .ok db else .error ("index " ++ name ++ " already exists")
    else match db.tables.get index.table with
      | none => noTable index.table
      | some t =>
        if !(index.columns.all fun name => name ∈ t.names) then noColumn index.table
        else if index.unique && duplicates t index.columns (t.rows.filter covers) then
          .error "constraint failed"
        else .ok { db with indexes := db.indexes.set name index }
  | dropIndex name => .ok { db with indexes := db.indexes.pop name }

/-- The statements of one transaction. -/
def execAll : List Statement → Database → Except String Database
  | [], db => .ok db
  | statement :: rest, db =>
    match statement.exec db with
    | .ok db => execAll rest db
    | .error message => .error message

end Statement

/-! ## Frames -/

section Frames
variable {t : Table} {db db' : Database} {column : Column} {name : String} {row : Row}

theorem names_addColumn : (t.addColumn column).names = t.names ++ [column.name] := by
  simp [Table.names, Table.addColumn]

/-- The rows of a table with a new column, as its old columns show them. -/
theorem cell_addColumn (hname : name ≠ column.name) :
    (t.addColumn column).cell (fun other => if other = column.name then none else row other) name =
      t.cell row name := by
  unfold Table.cell
  simp [names_addColumn, hname]

theorem cell_addColumn_self :
    (t.addColumn column).cell (fun other => if other = column.name then none else row other)
      column.name = none := by
  unfold Table.cell
  simp

/-- A statement leaves the tables alone that it does not name. -/
theorem get_exec {statement : Statement} (h : statement.exec db = .ok db')
    (hname : name ∉ statement.touches) : db'.tables.get name = db.tables.get name := by
  cases statement with
  | createTable other columns uniques ifNotExists =>
    have hne : name ≠ other := fun h => hname (by simp [Statement.touches, h])
    unfold Statement.exec at h
    dsimp only at h
    split at h
    · split at h
      · cases h
        rfl
      · cases h
    · split at h
      · cases h
      · cases h
        exact Dict.get_set_other _ _ hne
  | dropTable other ifExists =>
    have hne : name ≠ other := fun h => hname (by simp [Statement.touches, h])
    unfold Statement.exec at h
    dsimp only at h
    split at h
    · split at h
      · cases h
        rfl
      · cases h
    · cases h
      exact Dict.get_pop_other _ hne
  | renameTable other new =>
    have hne : name ≠ other := fun h => hname (by simp [Statement.touches, h])
    have hnew : name ≠ new := fun h => hname (by simp [Statement.touches, h])
    unfold Statement.exec at h
    dsimp only at h
    split at h
    · cases h
    · split at h
      · cases h
      · cases h
        exact (Dict.get_set_other _ _ hnew).trans (Dict.get_pop_other _ hne)
  | addColumn other column =>
    have hne : name ≠ other := fun h => hname (by simp [Statement.touches, h])
    unfold Statement.exec at h
    dsimp only at h
    split at h
    · cases h
    · split at h
      · cases h
      · cases h
        exact Dict.get_set_other _ _ hne
  | renameColumn other old new =>
    have hne : name ≠ other := fun h => hname (by simp [Statement.touches, h])
    unfold Statement.exec at h
    dsimp only at h
    split at h
    · cases h
    · split at h
      · cases h
      · split at h
        · cases h
        · cases h
          exact Dict.get_set_other _ _ hne
  | insert other values =>
    have hne : name ≠ other := fun h => hname (by simp [Statement.touches, h])
    unfold Statement.exec at h
    dsimp only at h
    split at h
    · cases h
    · split at h
      · cases h
      · split at h
        · cases h
        · cases h
          exact Dict.get_set_other _ _ hne
  | insertSelect other source values =>
    have hne : name ≠ other := fun h => hname (by simp [Statement.touches, h])
    unfold Statement.exec at h
    dsimp only at h
    split at h
    · split at h
      · cases h
      · split at h
        · cases h
        · cases h
          exact Dict.get_set_other _ _ hne
    · cases h
    · cases h
  | update other reads selects assign =>
    have hne : name ≠ other := fun h => hname (by simp [Statement.touches, h])
    unfold Statement.exec at h
    dsimp only at h
    split at h
    · cases h
    · split at h
      · cases h
      · cases h
        exact Dict.get_set_other _ _ hne
  | createIndex other index covers ifNotExists =>
    unfold Statement.exec at h
    dsimp only at h
    split at h
    · split at h
      · cases h
        rfl
      · cases h
    · split at h
      · cases h
      · split at h
        · cases h
        · split at h
          · cases h
          · cases h
            rfl
  | dropIndex other =>
    cases h
    rfl

theorem get_execAll {statements : List Statement} (h : Statement.execAll statements db = .ok db')
    (hname : ∀ statement ∈ statements, name ∉ statement.touches) :
    db'.tables.get name = db.tables.get name := by
  induction statements generalizing db with
  | nil =>
    cases h
    rfl
  | cons statement rest ih =>
    unfold Statement.execAll at h
    split at h
    · rename_i db₁ hexec
      rw [ih h fun st hst => hname st (List.mem_cons_of_mem _ hst)]
      exact get_exec hexec (hname statement List.mem_cons_self)
    · cases h

theorem appendAll_ok {rows : List Row} {t' : Table} (h : Table.appendAll rows t = some t') :
    t' = { t with rows := t.rows ++ rows } := by
  induction rows generalizing t with
  | nil =>
    cases h
    simp
  | cons row rest ih =>
    obtain ⟨t₁, happend, hrest⟩ := Option.bind_eq_some_iff.mp h
    unfold Table.append at happend
    split at happend
    · cases happend
      rw [ih hrest]
      simp
    · cases happend

end Frames

end Schema
