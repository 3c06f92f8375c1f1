import Mathlib.Data.List.Basic
import Mathlib.Data.List.Pairwise
import Mathlib.Tactic

/-!
# Relational tables with uniqueness constraints

A table is a finite list of rows no two of which clash. `Clash a b` says that the
two rows agree on the columns of some primary key or unique index, so a table whose
constraint is broken cannot be built: `insert` is partial, and `update` asks for the
proof that it leaves the constrained columns alone.
-/

namespace Relational

set_option autoImplicit false

universe u

/-- Rows in insertion order, pairwise without a clash. -/
structure Table (α : Type u) (Clash : α → α → Prop) where
  rows : List α
  unique : rows.Pairwise fun a b => ¬ Clash a b

namespace Table

variable {α : Type u} {Clash : α → α → Prop}

instance : Membership α (Table α Clash) := ⟨fun t a => a ∈ t.rows⟩

theorem mem_def (t : Table α Clash) (a : α) : a ∈ t ↔ a ∈ t.rows := Iff.rfl

instance [DecidableEq α] (t : Table α Clash) (a : α) : Decidable (a ∈ t) :=
  inferInstanceAs (Decidable (a ∈ t.rows))

@[ext] theorem ext {t u : Table α Clash} (h : t.rows = u.rows) : t = u := by
  cases t
  cases u
  cases h
  rfl

instance [DecidableEq α] : DecidableEq (Table α Clash) := fun t u =>
  decidable_of_iff (t.rows = u.rows) ⟨Table.ext, congrArg Table.rows⟩

def empty : Table α Clash := ⟨[], List.Pairwise.nil⟩

instance : Inhabited (Table α Clash) := ⟨empty⟩

@[simp] theorem not_mem_empty (a : α) : ¬ a ∈ (empty : Table α Clash) := List.not_mem_nil

/-- `SELECT … WHERE p`, in insertion order. -/
def select (t : Table α Clash) (p : α → Bool) : List α := t.rows.filter p

/-- The first row `SELECT … WHERE p` returns. -/
def lookup (t : Table α Clash) (p : α → Bool) : Option α := t.rows.find? p

@[simp] theorem mem_select {t : Table α Clash} {p : α → Bool} {a : α} :
    a ∈ t.select p ↔ a ∈ t ∧ p a = true := List.mem_filter

theorem select_eq_nil {t : Table α Clash} {p : α → Bool} :
    t.select p = [] ↔ ∀ a ∈ t, ¬ p a = true := List.filter_eq_nil_iff

theorem lookup_mem {t : Table α Clash} {p : α → Bool} {a : α}
    (h : t.lookup p = some a) : a ∈ t := List.mem_of_find?_eq_some h

theorem lookup_sat {t : Table α Clash} {p : α → Bool} {a : α}
    (h : t.lookup p = some a) : p a = true := List.find?_some h

theorem lookup_eq_none {t : Table α Clash} {p : α → Bool} :
    t.lookup p = none ↔ ∀ a ∈ t, ¬ p a = true := List.find?_eq_none

/-- Two rows of one table that clash both ways are the same row. -/
theorem eq_of_clash {t : Table α Clash} {a b : α} (ha : a ∈ t) (hb : b ∈ t)
    (hab : Clash a b) (hba : Clash b a) : a = b := by
  by_contra hne
  have hsymm : Std.Symm fun x y => ¬ (Clash x y ∧ Clash y x) :=
    ⟨fun x y h hc => h ⟨hc.2, hc.1⟩⟩
  have hpair : t.rows.Pairwise fun x y => ¬ (Clash x y ∧ Clash y x) :=
    t.unique.imp fun h hc => h hc.1
  exact hpair.forall ha hb hne ⟨hab, hba⟩

/-- A lookup on a condition that singles a row out of the table finds that row. -/
theorem lookup_eq_some {t : Table α Clash} {p : α → Bool} {a : α} (ha : a ∈ t)
    (hp : p a = true) (huniq : ∀ b ∈ t, p b = true → b = a) : t.lookup p = some a := by
  cases h : t.lookup p with
  | none => exact absurd hp (lookup_eq_none.mp h a ha)
  | some b => rw [huniq b (lookup_mem h) (lookup_sat h)]

/-- `INSERT`; `none` is the integrity error of a clash with a stored row. -/
def insert [DecidableRel Clash] (t : Table α Clash) (r : α) : Option (Table α Clash) :=
  if h : ∀ a ∈ t.rows, ¬ Clash a r then
    some ⟨t.rows ++ [r], List.pairwise_append.mpr
      ⟨t.unique, List.pairwise_singleton _ _, fun a ha b hb => by
        rw [List.mem_singleton.mp hb]
        exact h a ha⟩⟩
  else none

section Insert
variable [DecidableRel Clash] {t t' : Table α Clash} {r : α}

theorem insert_rows (h : t.insert r = some t') : t'.rows = t.rows ++ [r] := by
  unfold insert at h
  split at h
  · rw [← Option.some.inj h]
  · exact absurd h (by simp)

theorem mem_insert (h : t.insert r = some t') {a : α} : a ∈ t' ↔ a ∈ t ∨ a = r := by
  rw [mem_def, insert_rows h, List.mem_append, List.mem_singleton, mem_def]

theorem insert_no_clash (h : t.insert r = some t') {a : α} (ha : a ∈ t) : ¬ Clash a r := by
  unfold insert at h
  split at h
  · rename_i hok
    exact hok a ha
  · exact absurd h (by simp)

/-- A refused row clashes with a stored one. -/
theorem clash_of_insert_none (h : t.insert r = none) : ∃ a ∈ t, Clash a r := by
  unfold insert at h
  split at h
  · exact absurd h (by simp)
  · rename_i hno
    by_contra hall
    exact hno fun a ha hclash => hall ⟨a, ha, hclash⟩

end Insert

/-- An update that leaves the constrained columns alone. -/
abbrev Keeps (Clash : α → α → Prop) (f : α → α) : Prop :=
  ∀ a b, (Clash (f a) b → Clash a b) ∧ (Clash a (f b) → Clash a b)

/-- What `UPDATE … SET f WHERE p` makes of one row. -/
def setWhere (p : α → Bool) (f : α → α) (a : α) : α := if p a then f a else a

theorem setWhere_pos {p : α → Bool} {f : α → α} {a : α} (h : p a = true) :
    setWhere p f a = f a := if_pos h

theorem setWhere_neg {p : α → Bool} {f : α → α} {a : α} (h : ¬ p a = true) :
    setWhere p f a = a := if_neg h

/-- A column that `f` does not write is kept. -/
theorem setWhere_column {β : Type*} (column : α → β) (p : α → Bool) (f : α → α)
    (hcol : ∀ a, column (f a) = column a) (a : α) :
    column (setWhere p f a) = column a := by
  unfold setWhere
  split
  · exact hcol a
  · rfl

/-- `UPDATE … SET f WHERE p`. -/
def update (t : Table α Clash) (p : α → Bool) (f : α → α) (hf : Keeps Clash f) :
    Table α Clash where
  rows := t.rows.map (setWhere p f)
  unique := by
    rw [List.pairwise_map]
    apply t.unique.imp
    intro a b hab hclash
    apply hab
    unfold setWhere at hclash
    split at hclash <;> split at hclash
    · exact (hf a b).1 ((hf (f a) b).2 hclash)
    · exact (hf a b).1 hclash
    · exact (hf a b).2 hclash
    · exact hclash

theorem mem_update {t : Table α Clash} {p : α → Bool} {f : α → α} {hf : Keeps Clash f} {a : α} :
    a ∈ t.update p f hf ↔ ∃ b ∈ t, setWhere p f b = a := List.mem_map

theorem update_mem {t : Table α Clash} {p : α → Bool} {f : α → α} (hf : Keeps Clash f) {a : α}
    (h : a ∈ t) : setWhere p f a ∈ t.update p f hf := List.mem_map_of_mem h

/-- `UPDATE … SET f WHERE p` of constrained columns; `none` is the integrity error. -/
def updateChecked [DecidableRel Clash] (t : Table α Clash) (p : α → Bool) (f : α → α) :
    Option (Table α Clash) :=
  if h : (t.rows.map (setWhere p f)).Pairwise fun a b => ¬ Clash a b then some ⟨_, h⟩ else none

theorem mem_updateChecked [DecidableRel Clash] {t t' : Table α Clash} {p : α → Bool} {f : α → α}
    (h : t.updateChecked p f = some t') {a : α} : a ∈ t' ↔ ∃ b ∈ t, setWhere p f b = a := by
  unfold updateChecked at h
  split at h
  · rw [← Option.some.inj h]
    exact List.mem_map
  · cases h

/-- `DELETE … WHERE p`. -/
def delete (t : Table α Clash) (p : α → Bool) : Table α Clash where
  rows := t.rows.filter fun a => !p a
  unique := t.unique.filter _

theorem mem_delete {t : Table α Clash} {p : α → Bool} {a : α} :
    a ∈ t.delete p ↔ a ∈ t ∧ ¬ p a = true := by
  simp [delete, mem_def]

end Table

/-! ## Three-valued conditions -/

/-- The value of a `WHERE` condition; `none` is NULL. -/
abbrev Truth := Option Bool

namespace Truth

/-- A row is selected if its condition is true. -/
def holds (t : Truth) : Bool := t = some true

def and : Truth → Truth → Truth
  | some false, _ => some false
  | _, some false => some false
  | some true, some true => some true
  | _, _ => none

def or : Truth → Truth → Truth
  | some true, _ => some true
  | _, some true => some true
  | some false, some false => some false
  | _, _ => none

def not (t : Truth) : Truth := t.map Bool.not

/-- `column = value`. -/
def equals {β : Type*} [DecidableEq β] (column : Option β) (value : β) : Truth :=
  column.map fun stored => decide (stored = value)

/-- `column IS NOT NULL`. -/
def isNotNull {β : Type*} (column : Option β) : Truth := some column.isSome

/-- A condition and its negation never both select a row. -/
theorem not_holds_of_not_holds {t : Truth} (h : t.not.holds = true) : t.holds = false := by
  unfold not holds at *
  cases t with
  | none => rfl
  | some b => cases b <;> simp_all

theorem holds_or {t u : Truth} : (t.or u).holds = (t.holds || u.holds) := by
  unfold or holds
  cases t with
  | none => cases u with
    | none => rfl
    | some b => cases b <;> rfl
  | some a => cases a <;> cases u with
    | none => rfl
    | some b => cases b <;> rfl

theorem holds_and {t u : Truth} : (t.and u).holds = (t.holds && u.holds) := by
  unfold and holds
  cases t with
  | none => cases u with
    | none => rfl
    | some b => cases b <;> rfl
  | some a => cases a <;> cases u with
    | none => rfl
    | some b => cases b <;> rfl

end Truth

end Relational
