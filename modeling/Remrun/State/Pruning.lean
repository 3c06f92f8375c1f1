import Remrun.State.Retention

/-!
# Pruning is safe, bounded and previewable

A preview reads the directory as it was, a real run reads it as its own deletions have left it.
The two agree since a pass never looks twice at a name, and since the second pass over the
rollback copies leaves out what the first one counted.
-/

namespace Remrun.Retention

open Effect Keyed JsonText
set_option autoImplicit false

variable {F : Type} {H : Host F} {policy : RetentionPolicy} {o : Options}

/-! ## Areas -/

section Areas
variable {a b : Area F} {name name' : String} {place : Place} {row : Option (Row F)}
variable {s t : State F} {touched : List String}

theorem keys_set {rows : Dict (id : String → String) (Row F)} {r : Row F} {p : String → Bool}
    (hp : p name = false) : (rows.set name r).keys.filter p = rows.keys.filter p := by
  unfold Dict.set Dict.keys
  split
  · rw [List.map_map]
    congr 1
    apply List.map_congr_left
    intro e _
    simp only [Function.comp_apply]
    split <;> rfl
  · rw [List.map_append, List.filter_append, List.map_singleton, List.filter_singleton, hp]
    simp

theorem keys_pop {rows : Dict (id : String → String) (Row F)} :
    (rows.pop name).keys = rows.keys.filter (· ≠ name) := by
  simp only [Dict.pop, Dict.keys, id]
  rw [List.filter_map]
  rfl

theorem names_put {p : String → Bool} (hp : p name = false) :
    (a.put name row).names.filter p = a.names.filter p := by
  cases a with
  | absent => rfl
  | file => rfl
  | directory rows =>
    cases row with
    | some row => exact keys_set hp
    | none =>
      change (rows.pop name).keys.filter p = rows.keys.filter p
      rw [keys_pop, List.filter_filter]
      apply List.filter_congr
      intro q _
      by_cases hq : q = name
      · simp [hq, hp]
      · simp [hq]

theorem get_put_other (h : name' ≠ name) : (a.put name row).get name' = a.get name' := by
  cases a with
  | absent => rfl
  | file => rfl
  | directory rows =>
    cases row with
    | some row => exact Dict.get_set_other rows row h
    | none => exact Dict.get_pop_other rows h

theorem entries_congr (h : a.get name = b.get name) : a.entries name = b.entries name := by
  unfold Area.entries
  rw [h]

theorem isDir_congr (h : a.get name = b.get name) : a.isDir name = b.isDir name := by
  unfold Area.isDir
  rw [entries_congr h]

@[simp] theorem hazards_setArea : (s.setArea place a).hazards = s.hazards := by
  cases place <;> rfl

@[simp] theorem area_setArea_self : (s.setArea place a).area place = a := by
  cases place <;> rfl

theorem area_setArea_other {place' : Place} (h : place' ≠ place) :
    (s.setArea place a).area place' = s.area place' := by
  cases place <;> cases place' <;> first | rfl | exact absurd rfl h

/-- What is done to one row of an area leaves the hazards and the other area alone. -/
structure OneRow (place : Place) (name : String) (s t : State F) : Prop where
  hazards : t.hazards = s.hazards
  other : ∀ place', place' ≠ place → t.area place' = s.area place'
  row : ∃ row, t.area place = (s.area place).put name row ∨ t.area place = s.area place

theorem oneRow_removed : OneRow place name s (removed H place name s) := by
  unfold removed
  cases (s.area place).entries name with
  | none => exact ⟨rfl, fun _ _ => rfl, none, Or.inr rfl⟩
  | some entries =>
    exact ⟨hazards_setArea, fun _ => area_setArea_other, _, Or.inl area_setArea_self⟩

theorem oneRow_unlinked {file : String} : OneRow .runs name s (unlinked name file s) := by
  unfold unlinked
  cases s.runs.entries name with
  | none => exact ⟨rfl, fun _ _ => rfl, none, Or.inr rfl⟩
  | some entries => exact ⟨rfl, fun _ => area_setArea_other, _, Or.inl rfl⟩

theorem OneRow.get (h : OneRow place name s t) (hne : name' ≠ name) :
    (t.area place).get name' = (s.area place).get name' := by
  obtain ⟨row, hput | hsame⟩ := h.row
  · rw [hput, get_put_other hne]
  · rw [hsame]

theorem OneRow.names (h : OneRow place name s t) {p : String → Bool} (hp : p name = false) :
    (t.area place).names.filter p = (s.area place).names.filter p := by
  obtain ⟨row, hput | hsame⟩ := h.row
  · rw [hput, names_put hp]
  · rw [hsame]

/-- Two areas agree on all names but the touched ones. -/
structure Apart (touched : List String) (a b : Area F) : Prop where
  get : ∀ name, name ∉ touched → a.get name = b.get name
  names : a.names.filter (· ∉ touched) = b.names.filter (· ∉ touched)

theorem apart_refl : Apart touched a a := ⟨fun _ _ => rfl, rfl⟩

theorem Apart.mono {touched' : List String} (h : Apart touched a b) (hsub : touched ⊆ touched') :
    Apart touched' a b where
  get name hname := h.get name fun hin => hname (hsub hin)
  names := by
    have hcut : ∀ c : Area F, (c.names.filter (· ∉ touched)).filter (· ∉ touched') =
        c.names.filter (· ∉ touched') := by
      intro c
      rw [List.filter_filter]
      apply List.filter_congr
      intro name _
      by_cases hname : name ∈ touched
      · simp [hname, hsub hname]
      · simp [hname]
    rw [← hcut a, ← hcut b, h.names]

theorem Apart.step (h : Apart touched (s.area place) b) (hrow : OneRow place name s t)
    (hname : name ∈ touched) : Apart touched (t.area place) b where
  get name' hname' := by
    have hne : name' ≠ name := fun heq => hname' (heq ▸ hname)
    rw [hrow.get hne]
    exact h.get name' hname'
  names := by
    rw [hrow.names (by simp [hname])]
    exact h.names

end Areas

/-! ## Sorted names -/

section Names
variable {names : List String} {p : String → Bool} {s : State F}

instance : Std.Total fun a b : String => H.normcase a ≤ H.normcase b :=
  ⟨fun a b => le_total (H.normcase a) (H.normcase b)⟩

instance : IsTrans String fun a b => H.normcase a ≤ H.normcase b := ⟨fun _ _ _ => le_trans⟩

theorem mem_sortPaths {name : String} : name ∈ sortPaths H names ↔ name ∈ names :=
  List.mem_insertionSort _

theorem nodup_sortPaths (h : names.Nodup) : (sortPaths H names).Nodup :=
  (List.perm_insertionSort _ _).nodup_iff.mpr h

theorem filter_sortPaths : (sortPaths H names).filter p = sortPaths H (names.filter p) :=
  Selection.filter_insertionSort

theorem nodup_names (a : Area F) : a.names.Nodup := by
  cases a with
  | absent => exact List.nodup_nil
  | file => exact List.nodup_nil
  | directory rows => exact rows.keys_nodup

theorem nodup_runDirs : (runDirs s).Nodup :=
  (List.perm_insertionSort _ _).nodup_iff.mpr ((nodup_names _).filter _)

theorem notMem_of_split {done rest : List String} {name : String} (hnodup : names.Nodup)
    (hsplit : names = done ++ name :: rest) : name ∉ done := by
  rw [hsplit] at hnodup
  intro hmem
  exact (List.nodup_append.mp hnodup).2.2 name hmem name List.mem_cons_self rfl

end Names

/-! ## A preview and a real run -/

def preview (o : Options) : Options := { o with dryRun := true }

/-- Some file of the journal cannot be unlinked. -/
def Undeletable (H : Host F) : Prop := ∃ name file why, H.unlink name file = some why

section Preview
variable {R Q : State F → State F → Prop} {exemptions dirs : List String} {name : String}

/-- After the runs in `done`. -/
def RunsApart (done : List String) (s t : State F) : Prop :=
  Apart done s.runs t.runs ∧ s.conflicts = t.conflicts

theorem mirrors_entriesNow {place : Place}
    (h : ∀ s t, R s t → (s.area place).get name = (t.area place).get name) :
    Mirrors R (fun _ => Undeletable H) (entriesNow place name : Prog F (Entries F))
      (entriesNow place name) fun _ => R := by
  apply mirrors_get_bind
  intro s t hs
  rw [entries_congr (h s t hs)]
  apply mirrors_pure
  rintro s' t' ⟨rfl, rfl⟩
  exact hs

theorem mirrors_rmtree (hreal : o.dryRun = false) {place : Place}
    (h : ∀ s t, R s t → Q (removed H place name s) t) :
    Mirrors R (fun _ => Undeletable H) (unlessDry o (rmtree H place name))
      (unlessDry (preview o) (rmtree H place name)) fun _ => Q := by
  simp only [unlessDry, preview, hreal, if_true, Bool.false_eq_true, if_false]
  exact mirrors_skip h

theorem mirrors_unlink (hreal : o.dryRun = false) {file : String}
    (h : ∀ s t, R s t → Q (unlinked name file s) t) :
    Mirrors R (fun _ => Undeletable H) (unlessDry o (unlink H name file))
      (unlessDry (preview o) (unlink H name file)) fun _ => Q := by
  simp only [unlessDry, preview, hreal, if_true, Bool.false_eq_true, if_false]
  unfold unlink
  cases hwhy : H.unlink name file with
  | none => exact mirrors_skip h
  | some why => exact mirrors_skip fun s t _ => ⟨name, file, why, hwhy⟩

theorem RunsApart.step {done : List String} {s s' t : State F} (h : RunsApart done s t)
    (hrow : OneRow .runs name s s') (hname : name ∈ done) : RunsApart done s' t :=
  have hstep : Apart done (s'.area .runs) t.runs := Apart.step h.1 hrow hname
  ⟨hstep, (hrow.other .conflicts (by decide)).trans h.2⟩

theorem mirrors_trim (hreal : o.dryRun = false) {done : List String} (hname : name ∈ done)
    (freed : Nat) (node : String × Node F) :
    Mirrors (RunsApart done) (fun _ => Undeletable H) (trim H o name freed node)
      (trim H (preview o) name freed node) fun _ => RunsApart done := by
  obtain ⟨file, node⟩ := node
  cases node with
  | directory bytes => exact mirrors_pure fun _ _ => id
  | file size reading =>
    unfold trim
    by_cases hheavy : isHeavy file = true
    · simp only [if_pos hheavy]
      apply mirrors_bind (mirrors_unlink hreal fun s t hs => hs.step oneRow_unlinked hname)
      exact fun _ => mirrors_pure fun _ _ => id
    · simp only [if_neg hheavy]
      exact mirrors_pure fun _ _ => id

theorem mirrors_pruneRun (hreal : o.dryRun = false) {done : List String} (hname : name ∉ done)
    (report : PruneReport) :
    Mirrors (RunsApart done) (fun _ => Undeletable H)
      (pruneRun H policy o exemptions dirs report name)
      (pruneRun H policy (preview o) exemptions dirs report name)
      fun _ => RunsApart (done ++ [name]) := by
  have hmono : ∀ s t : State F, RunsApart done s t → RunsApart (done ++ [name]) s t :=
    fun s t h => ⟨h.1.mono (List.subset_append_left _ _), h.2⟩
  have hin : name ∈ done ++ [name] := List.mem_append_right _ List.mem_cons_self
  unfold pruneRun
  by_cases hexempt : name ∈ exemptions
  · simp only [if_pos hexempt]
    exact mirrors_pure hmono
  · simp only [if_neg hexempt]
    refine mirrors_bind (mirrors_entriesNow fun s t hs => hs.1.get name hname) fun entries => ?_
    refine mirrors_bind (mirrors_ofExcept fun _ _ _ _ hs => hs) fun failed => ?_
    have hsame : verdict H policy (preview o) dirs name failed =
        verdict H policy o dirs name failed := rfl
    rw [hsame]
    cases verdict H policy o dirs name failed with
    | deleteWhole =>
      apply mirrors_bind (mirrors_rmtree hreal fun s t hs =>
        (hmono s t hs).step oneRow_removed hin)
      exact fun _ => mirrors_pure fun _ _ => id
    | trimHeavy =>
      refine mirrors_bind ?_ fun freed => mirrors_pure fun _ _ => id
      refine Mirrors.conseq (mirrors_foldlM (fun _ _ => RunsApart (done ++ [name])) ?_) hmono
        fun _ _ _ => id
      exact fun _ node _ freed _ => mirrors_trim hreal hin freed node
    | leave => exact mirrors_pure hmono

/-- After the first pass over the rollback copies; the names in `pruned` may be gone. -/
def CopiesApart (done : List String) (acc : PruneReport × List String) (s t : State F) : Prop :=
  Apart acc.2 s.conflicts t.conflicts ∧ acc.2 ⊆ done

theorem mirrors_pruneConflict (hreal : o.dryRun = false) {done : List String}
    (hname : name ∉ done) (acc : PruneReport × List String) :
    Mirrors (CopiesApart done acc) (fun _ => Undeletable H)
      (pruneConflict H policy o exemptions acc name)
      (pruneConflict H policy (preview o) exemptions acc name)
      (CopiesApart (done ++ [name])) := by
  have hmono : ∀ s t : State F, CopiesApart done acc s t → CopiesApart (done ++ [name]) acc s t :=
    fun s t h => ⟨h.1, List.Subset.trans h.2 (List.subset_append_left _ _)⟩
  apply mirrors_get_bind
  intro s t hs
  have hget := hs.1.get name fun hin => hname (hs.2 hin)
  rw [isDir_congr hget]
  have hold : olderThan H (preview o) name ((preview o).olderThanDays.getD policy.backupDays) =
      olderThan H o name (o.olderThanDays.getD policy.backupDays) := rfl
  rw [hold]
  have hkeep : ∀ s' t' : State F, s' = s ∧ t' = t → CopiesApart (done ++ [name]) acc s' t' := by
    rintro s' t' ⟨rfl, rfl⟩
    exact hmono s' t' hs
  split
  · exact mirrors_pure hkeep
  split
  · exact mirrors_pure hkeep
  split
  · refine mirrors_bind (mirrors_entriesNow ?_) fun entries => ?_
    · rintro s' t' ⟨rfl, rfl⟩
      exact hget
    · apply mirrors_bind (mirrors_rmtree (Q := CopiesApart (done ++ [name])
        (acc.1.deleted (dirSize entries) ("delete conflicts/" ++ name), name :: acc.2)) hreal ?_)
      · exact fun _ => mirrors_pure fun _ _ => id
      · rintro s' t' ⟨rfl, rfl⟩
        have hbefore := hs.1.mono (List.subset_cons_self name acc.2)
        have hstep : Apart (name :: acc.2) ((removed H .conflicts name s').area .conflicts)
            t'.conflicts := Apart.step hbefore oneRow_removed List.mem_cons_self
        refine ⟨hstep, ?_⟩
        apply List.cons_subset.mpr
        exact ⟨List.mem_append_right _ List.mem_cons_self, (hmono s' t' hs).2⟩
  · exact mirrors_pure hkeep

theorem mirrors_overBudget (hreal : o.dryRun = false) (rows : List (String × Nat))
    (report : PruneReport) (total : Int) :
    Mirrors (fun _ _ => True) (fun _ => Undeletable H) (overBudget H policy o report total rows)
      (overBudget H policy (preview o) report total rows) fun _ _ _ => True := by
  induction rows generalizing report total with
  | nil => exact mirrors_pure fun _ _ => id
  | cons row rest ih =>
    unfold overBudget
    split
    · exact mirrors_pure fun _ _ => id
    · exact mirrors_bind (mirrors_rmtree hreal fun _ _ _ => trivial) fun _ => ih _ _

/-- What the budget pass looks at does not depend on what the first pass has removed. -/
theorem remaining_congr {pruned : List String} {s t : State F}
    (h : Apart pruned s.conflicts t.conflicts) :
    remaining H exemptions pruned s = remaining H exemptions pruned t := by
  have hcut : ∀ u : State F, (sortPaths H u.conflicts.names).filter (fun name =>
      u.conflicts.isDir name && name ∉ pruned && name ∉ exemptions) =
      (sortPaths H (u.conflicts.names.filter (· ∉ pruned))).filter fun name =>
        u.conflicts.isDir name && name ∉ exemptions := by
    intro u
    rw [← filter_sortPaths, List.filter_filter]
    apply List.filter_congr
    intro name _
    rw [Bool.and_right_comm]
  unfold remaining
  rw [hcut s, hcut t, h.names]
  have hout : ∀ name ∈ sortPaths H (t.conflicts.names.filter (· ∉ pruned)), name ∉ pruned := by
    intro name hname
    simpa using (List.mem_filter.mp (mem_sortPaths.mp hname)).2
  have hfilter : (sortPaths H (t.conflicts.names.filter (· ∉ pruned))).filter (fun name =>
      s.conflicts.isDir name && name ∉ exemptions) =
      (sortPaths H (t.conflicts.names.filter (· ∉ pruned))).filter fun name =>
        t.conflicts.isDir name && name ∉ exemptions := by
    apply List.filter_congr
    intro name hname
    rw [isDir_congr (h.get name (hout name hname))]
  rw [hfilter]
  apply List.map_congr_left
  intro name hname
  rw [entries_congr (h.get name (hout name (List.mem_filter.mp hname).1))]

theorem mirrors_pruneConflicts (hreal : o.dryRun = false) (report : PruneReport) :
    Mirrors (fun s t => s.conflicts = t.conflicts) (fun _ => Undeletable H)
      (pruneConflicts H policy o exemptions report)
      (pruneConflicts H policy (preview o) exemptions report) fun _ _ _ => True := by
  apply mirrors_get_bind
  intro s t hs
  rw [hs]
  have hnodup : (sortPaths H t.conflicts.names).Nodup := nodup_sortPaths (nodup_names _)
  apply mirrors_bind (Mirrors.conseq (mirrors_foldlM CopiesApart ?_) ?_ fun _ _ _ => id)
  · rintro ⟨report, pruned⟩
    have hbudget : (policy.maxBackupBytes ≠ 0 ∧ (preview o).olderThanDays = none) =
      (policy.maxBackupBytes ≠ 0 ∧ o.olderThanDays = none) := rfl
    simp only [hbudget]
    split
    · apply mirrors_get_bind
      intro s' t' h
      rw [remaining_congr h.1]
      exact (mirrors_overBudget hreal _ _ _).conseq (fun _ _ _ => trivial) fun _ _ _ => id
    · exact mirrors_pure fun _ _ _ => trivial
  · intro done name rest acc hsplit
    exact mirrors_pruneConflict hreal (notMem_of_split hnodup hsplit) acc
  · rintro s' t' ⟨rfl, rfl⟩
    rw [CopiesApart, hs]
    exact ⟨apart_refl, List.nil_subset _⟩

theorem mirrors_checkDirectory (a : Area F) :
    Mirrors R (fun _ => Undeletable H) (checkDirectory a : Prog F PUnit) (checkDirectory a)
      fun _ => R := by
  cases a with
  | absent => exact mirrors_pure fun _ _ => id
  | file => exact mirrors_throw
  | directory rows => exact mirrors_pure fun _ _ => id

theorem mirrors_pruneState (hreal : o.dryRun = false) :
    Mirrors (fun s t => s = t) (fun _ => Undeletable H) (pruneState H policy o)
      (pruneState H policy (preview o)) fun _ _ _ => True := by
  apply mirrors_get_bind
  rintro s _ rfl
  refine mirrors_bind (mirrors_ofExcept fun _ _ _ _ hs => hs) fun pinned => ?_
  apply mirrors_get_bind
  rintro _ _ ⟨rfl, rfl⟩
  refine mirrors_bind (mirrors_checkDirectory _) fun _ => ?_
  apply mirrors_get_bind
  rintro _ _ ⟨rfl, rfl⟩
  refine mirrors_bind (Mirrors.conseq (mirrors_foldlM (fun done _ => RunsApart done) ?_) ?_
    fun _ _ _ => id) fun report => ?_
  · intro done name rest report hsplit
    exact mirrors_pruneRun hreal (notMem_of_split nodup_runDirs hsplit) report
  · rintro s' t' ⟨rfl, rfl⟩
    exact ⟨apart_refl, rfl⟩
  · apply mirrors_get_bind
    intro s' t' h
    rw [h.2]
    have hpass : Mirrors (fun s'' t'' => s'' = s' ∧ t'' = t') (fun _ => Undeletable H)
        (if o.keep.isSome then pure report else do
          checkDirectory t'.conflicts
          pruneConflicts H policy o (o.exemptions ++ pinned) report)
        (if o.keep.isSome then pure report else do
          checkDirectory t'.conflicts
          pruneConflicts H policy (preview o) (o.exemptions ++ pinned) report)
        fun _ _ _ => True := by
      split
      · exact mirrors_pure fun _ _ _ => trivial
      · refine mirrors_bind (mirrors_checkDirectory _) fun _ => ?_
        refine (mirrors_pruneConflicts hreal report).conseq ?_ fun _ _ _ => id
        rintro _ _ ⟨rfl, rfl⟩
        exact h.2
    cases harea : t'.conflicts with
    | absent => exact mirrors_pure fun _ _ _ => trivial
    | file =>
      rw [harea] at hpass
      exact hpass
    | directory rows =>
      rw [harea] at hpass
      exact hpass

end Preview

/-! ## What stays -/

section Frames
variable {I : State F → Prop} {exemptions dirs : List String} {name : String}

/-- The condition survives whatever is done to the row. -/
def Spares (I : State F → Prop) (place : Place) (name : String) : Prop :=
  ∀ s t, I s → OneRow place name s t → I t

theorem keeps_unlessDry {action : Prog F PUnit} (h : o.dryRun = false → Keeps I action) :
    Keeps I (unlessDry o action) := by
  unfold unlessDry
  cases hdry : o.dryRun with
  | true => exact keeps_pure _
  | false => exact h hdry

theorem keeps_rmtree {place : Place} (h : Spares I place name) : Keeps I (rmtree H place name) :=
  triple_modify fun s hs => h s _ hs oneRow_removed

theorem keeps_unlink (h : Spares I .runs name) (file : String) : Keeps I (unlink H name file) := by
  unfold unlink
  split
  · exact keeps_throw _
  · exact triple_modify fun s hs => h s _ hs oneRow_unlinked

theorem keeps_entriesNow {place : Place} : Keeps I (entriesNow place name : Prog F (Entries F)) :=
  keeps_bind keeps_get fun _ => keeps_pure _

theorem keeps_trim (h : o.dryRun = false → Spares I .runs name) (freed : Nat)
    (node : String × Node F) : Keeps I (trim H o name freed node) := by
  obtain ⟨file, node⟩ := node
  cases node with
  | directory bytes => exact keeps_pure _
  | file size reading =>
    unfold trim
    by_cases hheavy : isHeavy file = true
    · simp only [if_pos hheavy]
      exact keeps_bind (keeps_unlessDry fun hreal => keeps_unlink (h hreal) file)
        fun _ => keeps_pure _
    · simp only [if_neg hheavy]
      exact keeps_pure _

theorem keeps_pruneRun (report : PruneReport)
    (h : o.dryRun = false → name ∉ exemptions →
      (∃ failed, verdict H policy o dirs name failed ≠ .leave) → Spares I .runs name) :
    Keeps I (pruneRun H policy o exemptions dirs report name) := by
  unfold pruneRun
  split
  · exact keeps_pure _
  rename_i hexempt
  refine keeps_bind keeps_entriesNow fun entries => ?_
  refine keeps_bind keeps_ofExcept fun failed => ?_
  cases hverdict : verdict H policy o dirs name failed with
  | deleteWhole =>
    have hspares := fun hreal => h hreal hexempt ⟨failed, by rw [hverdict]; exact nofun⟩
    exact keeps_bind (keeps_unlessDry fun hreal => keeps_rmtree (hspares hreal))
      fun _ => keeps_pure _
  | trimHeavy =>
    have hspares := fun hreal => h hreal hexempt ⟨failed, by rw [hverdict]; exact nofun⟩
    exact keeps_bind (keeps_foldlM fun freed node _ => keeps_trim hspares freed node)
      fun _ => keeps_pure _
  | leave => exact keeps_pure _

theorem keeps_pruneConflict (acc : PruneReport × List String)
    (h : o.dryRun = false → name ∉ exemptions → Spares I .conflicts name) :
    Keeps I (pruneConflict H policy o exemptions acc name) := by
  refine keeps_bind keeps_get fun s => ?_
  split
  · exact keeps_pure _
  split
  · exact keeps_pure _
  rename_i hexempt
  split
  · refine keeps_bind keeps_entriesNow fun entries => ?_
    exact keeps_bind (keeps_unlessDry fun hreal => keeps_rmtree (h hreal hexempt))
      fun _ => keeps_pure _
  · exact keeps_pure _

theorem keeps_overBudget (rows : List (String × Nat)) (report : PruneReport) (total : Int)
    (h : o.dryRun = false → ∀ row ∈ rows, Spares I .conflicts row.1) :
    Keeps I (overBudget H policy o report total rows) := by
  induction rows generalizing report total with
  | nil => exact keeps_pure _
  | cons row rest ih =>
    unfold overBudget
    split
    · exact keeps_pure _
    · apply keeps_bind (keeps_unlessDry fun hreal =>
        keeps_rmtree (h hreal row List.mem_cons_self))
      exact fun _ => ih _ _ fun hreal row hrow => h hreal row (List.mem_cons_of_mem _ hrow)

theorem notMem_exemptions_of_remaining {pruned : List String} {s : State F} {row : String × Nat}
    (h : row ∈ remaining H exemptions pruned s) : row.1 ∉ exemptions := by
  obtain ⟨name, hname, rfl⟩ := List.mem_map.mp h
  simpa using (Bool.and_eq_true_iff.mp (List.mem_filter.mp hname).2).2

theorem keeps_pruneConflicts (report : PruneReport)
    (h : o.dryRun = false → ∀ name, name ∉ exemptions → Spares I .conflicts name) :
    Keeps I (pruneConflicts H policy o exemptions report) := by
  refine keeps_bind keeps_get fun s => ?_
  refine keeps_bind (keeps_foldlM fun acc name _ =>
    keeps_pruneConflict acc fun hreal hname => h hreal name hname) ?_
  rintro ⟨report, pruned⟩
  dsimp only
  split
  · refine keeps_bind keeps_get fun s => ?_
    exact keeps_overBudget _ _ _ fun hreal row hrow =>
      h hreal row.1 (notMem_exemptions_of_remaining hrow)
  · exact keeps_pure _

theorem keeps_checkDirectory (a : Area F) : Keeps I (checkDirectory a : Prog F PUnit) := by
  cases a with
  | absent => exact keeps_pure _
  | file => exact keeps_throw _
  | directory rows => exact keeps_pure _

/-- The first pass goes over the directories that are there at the start. -/
theorem triple_pruneAreas
    (hruns : o.dryRun = false → ∀ name, name ∉ exemptions →
      (∃ failed, verdict H policy o dirs name failed ≠ .leave) → Spares I .runs name)
    (hconflicts : o.dryRun = false → o.keep = none → ∀ name, name ∉ exemptions →
      Spares I .conflicts name) :
    Triple (fun s => I s ∧ runDirs s = dirs) (pruneAreas H policy o exemptions) (fun _ => I)
      fun _ => I := by
  have hpass (report : PruneReport) (area : Area F) : Keeps I (if o.keep.isSome then pure report
      else do
        checkDirectory area
        pruneConflicts H policy o exemptions report) := by
    split
    · exact keeps_pure _
    · rename_i hkeep
      refine keeps_bind (keeps_checkDirectory area) fun _ => ?_
      apply keeps_pruneConflicts
      exact fun hreal => hconflicts hreal (Option.not_isSome_iff_eq_none.mp hkeep)
  apply triple_get_bind
  rintro s ⟨hs, rfl⟩
  refine triple_bind (R := fun _ s' => s' = s) ?_ fun _ => ?_
  · exact (keeps_checkDirectory (I := (· = s)) s.runs).conseq (fun _ => id) (fun _ _ => id)
      fun _ _ heq => heq ▸ hs
  · apply triple_get_bind
    rintro _ rfl
    refine Triple.pre (P := I) ?_ fun _ heq => heq ▸ hs
    refine triple_bind (keeps_foldlM fun report name _ => keeps_pruneRun report fun hreal hname =>
      hruns hreal name hname) fun report => ?_
    refine keeps_bind keeps_get fun s' => ?_
    cases s'.conflicts with
    | absent => exact keeps_pure _
    | file => exact hpass report _
    | directory rows => exact hpass report _

/-- A preview writes nothing. -/
theorem keeps_preview (s : State F) : Keeps (· = s) (pruneState H policy (preview o)) := by
  refine keeps_bind keeps_get fun s' => ?_
  refine keeps_bind keeps_ofExcept fun pinned => ?_
  intro s'' hs''
  have hpreview : Triple (fun t => t = s ∧ runDirs t = runDirs s'') (pruneAreas H policy (preview o) (o.exemptions ++ pinned))
      (fun _ => (· = s)) (fun _ => (· = s)) := triple_pruneAreas nofun nofun
  exact hpreview s'' ⟨hs'', rfl⟩

end Frames

/-! ## Exemptions -/

section Exemptions
variable {s : State F} {name : String}

/-- The runs named by the caller, and those pinned by a valid record. -/
def exemptNames (H : Host F) (o : Options) (s : State F) : List String :=
  o.exemptions ++ s.hazards.rows.filterMap fun row => (pinnedRun H row.1 row.2).toOption

/-- Some record is unreadable, malformed or stored under the wrong project. -/
def Malformed (H : Host F) (s : State F) : Prop :=
  ∃ directory reading why, s.hazards.get directory = some reading ∧
    pinnedRun H directory reading = .error why

theorem mem_hazards {directory : String} {reading : Reading F} :
    (directory, reading) ∈ s.hazards.rows ↔ s.hazards.get directory = some reading := by
  rw [Dict.get_eq_some]
  constructor
  · intro h
    exact ⟨directory, h, rfl⟩
  · rintro ⟨_, h, rfl⟩
    exact h

theorem mem_active {ids : List String} (h : activeUnknownCompletionRunIds H s = .ok ids) :
    name ∈ ids ↔ ∃ directory reading, s.hazards.get directory = some reading ∧
      pinnedRun H directory reading = .ok name := by
  rw [mem_of_mapM h]
  constructor
  · rintro ⟨directory, -, hpin⟩
    split at hpin
    · rename_i reading hget
      exact ⟨directory, reading, hget, hpin⟩
    · cases hpin
  · rintro ⟨directory, reading, hget, hpin⟩
    obtain ⟨_, hkey, rfl⟩ := Dict.mem_keys_of_get hget
    refine ⟨_, mem_sortPaths.mpr hkey, ?_⟩
    dsimp only [id] at hget
    rw [hget]
    exact hpin

theorem mem_exemptNames {ids : List String} (h : activeUnknownCompletionRunIds H s = .ok ids) :
    name ∈ exemptNames H o s ↔ name ∈ o.exemptions ++ ids := by
  rw [exemptNames, List.mem_append, List.mem_append, mem_active h, List.mem_filterMap]
  apply or_congr_right
  constructor
  · rintro ⟨⟨directory, reading⟩, hmem, hpin⟩
    refine ⟨directory, reading, mem_hazards.mp hmem, ?_⟩
    dsimp only at hpin
    cases hrun : pinnedRun H directory reading with
    | ok run =>
      rw [hrun] at hpin
      exact congrArg _ (Option.some.inj hpin)
    | error e =>
      rw [hrun] at hpin
      exact absurd hpin nofun
  · rintro ⟨directory, reading, hget, hpin⟩
    exact ⟨(directory, reading), mem_hazards.mpr hget, by rw [hpin]; rfl⟩

/-- The pruning after the hazards have been read. -/
theorem pruneState_eq : pruneState H policy o s =
    (ofExcept (activeUnknownCompletionRunIds H s) >>= fun pinned =>
      pruneAreas H policy o (o.exemptions ++ pinned)) s := rfl

theorem pruneState_of_malformed (h : Malformed H s) :
    ∃ e, pruneState H policy o s = .error e s := by
  obtain ⟨directory, reading, why, hget, hpin⟩ := h
  rw [pruneState_eq]
  cases hactive : activeUnknownCompletionRunIds H s with
  | error e => exact ⟨e, rfl⟩
  | ok ids =>
    obtain ⟨_, hkey, rfl⟩ := Dict.mem_keys_of_get hget
    obtain ⟨run, hrun⟩ := ok_of_mapM hactive (mem_sortPaths.mpr hkey)
    dsimp only [id] at hget
    rw [hget] at hrun
    exact absurd (hpin.symm.trans hrun) nofun

/-- What no pass may touch is as it was, whichever way the pruning ends. -/
theorem ending_pruneState {I : State F → Prop} (hs : I s)
    (hruns : o.dryRun = false → ∀ name, name ∉ exemptNames H o s →
      (∃ failed, verdict H policy o (runDirs s) name failed ≠ .leave) → Spares I .runs name)
    (hconflicts : o.dryRun = false → o.keep = none → ∀ name, name ∉ exemptNames H o s →
      Spares I .conflicts name) :
    I (ending (pruneState H policy o s)) := by
  rw [pruneState_eq]
  cases hactive : activeUnknownCompletionRunIds H s with
  | error e => exact hs
  | ok ids =>
    have hkeep : Triple (fun t => I t ∧ runDirs t = runDirs s)
        (pruneAreas H policy o (o.exemptions ++ ids)) (fun _ => I) fun _ => I := triple_pruneAreas
      (fun hreal name hname => hruns hreal name fun hin => hname ((mem_exemptNames hactive).mp hin))
      (fun hreal hkeep name hname =>
        hconflicts hreal hkeep name fun hin => hname ((mem_exemptNames hactive).mp hin))
    have hrun := hkeep s ⟨hs, rfl⟩
    change I (ending (pruneAreas H policy o (o.exemptions ++ ids) s))
    cases hm : pruneAreas H policy o (o.exemptions ++ ids) s with
    | ok a s' => rwa [hm] at hrun
    | error e s' => rwa [hm] at hrun

/-- One row of the state is as it was. -/
def RowIs (place : Place) (name : String) (row : Option (Row F)) (s : State F) : Prop :=
  (s.area place).get name = row

theorem spares_rowIs {place place' : Place} {name' : String} {row : Option (Row F)}
    (h : place' ≠ place ∨ name' ≠ name) : Spares (RowIs place name row) place' name' := by
  intro s t hs hrow
  by_cases hplace : place = place'
  · subst hplace
    have hname : name ≠ name' := (h.resolve_left fun hne => hne rfl).symm
    exact (hrow.get hname).trans hs
  · unfold RowIs
    rw [hrow.other place hplace]
    exact hs

theorem exempt_stays {place : Place} (h : name ∈ exemptNames H o s) :
    ((ending (pruneState H policy o s)).area place).get name = (s.area place).get name := by
  apply ending_pruneState (I := RowIs place name ((s.area place).get name)) rfl
  · exact fun _ name' hname' _ => spares_rowIs (Or.inr fun heq => hname' (heq ▸ h))
  · exact fun _ _ name' hname' => spares_rowIs (Or.inr fun heq => hname' (heq ▸ h))

theorem verdict_of_protected {dirs : List String} {n : Nat} (hkeep : o.keep = some n)
    (h : name ∈ dirs.take n) (failed : Bool) : verdict H policy o dirs name failed = .leave := by
  have hprotected : name ∈ protectedRuns o dirs := by
    simpa only [protectedRuns, hkeep, slice, Int.natCast_nonneg, if_true, Int.toNat_natCast]
  rw [verdict, if_pos (by rw [hkeep]; rfl), if_pos hprotected]

theorem newest_stay {n : Nat} (hkeep : o.keep = some n) (h : name ∈ (runDirs s).take n) :
    (ending (pruneState H policy o s)).runs.get name = s.runs.get name := by
  apply ending_pruneState (I := RowIs .runs name (s.runs.get name)) rfl
  · rintro - name' - ⟨failed, hverdict⟩
    refine spares_rowIs (Or.inr fun heq => hverdict ?_)
    subst heq
    exact verdict_of_protected hkeep h failed
  · exact fun _ _ _ _ => spares_rowIs (Or.inl nofun)

end Exemptions

/-! ## The budget of the rollback copies -/

/-- The rollback copies that may be pruned, in name order. -/
def copies (H : Host F) (exemptions : List String) (a : Area F) : List (String × Entries F) :=
  (sortPaths H a.names).filterMap fun name =>
    if name ∈ exemptions then none else (a.entries name).map (name, ·)

def totalSize (rows : List (String × Entries F)) : Nat := (rows.map fun row => dirSize row.2).sum

/-- Deleted directories are gone. -/
def Deletes (H : Host F) : Prop := ∀ place name entries, H.rmtree place name entries = none

section Copies
variable {a b c : Area F} {gone exemptions : List String} {name : String} {s : State F}

/-- Some rows of an area are gone, the others are as they were. -/
structure Without (gone : List String) (a b : Area F) : Prop where
  names : b.names = a.names.filter (· ∉ gone)
  get : ∀ name, b.get name = if name ∈ gone then none else a.get name

theorem without_nil : Without [] a a where
  names := by simp
  get name := by simp

theorem Without.entries (h : Without gone a b) (name : String) :
    b.entries name = if name ∈ gone then none else a.entries name := by
  unfold Area.entries
  rw [h.get name]
  by_cases hname : name ∈ gone
  · simp only [if_pos hname]
  · simp only [if_neg hname]

theorem Without.removed (h : Without gone a s.conflicts) (hdel : Deletes H)
    (hdir : s.conflicts.isDir name = true) :
    Without (name :: gone) a (removed H .conflicts name s).conflicts := by
  obtain ⟨entries, hentries⟩ := Option.isSome_iff_exists.mp hdir
  have hafter : (Retention.removed H .conflicts name s).conflicts = s.conflicts.put name none := by
    unfold Retention.removed
    change (s.area .conflicts).entries name = some entries at hentries
    rw [hentries]
    simp only
    rw [hdel]
    rfl
  rw [hafter]
  have hrows : ∃ rows, s.conflicts = .directory rows := by
    cases hc : s.conflicts with
    | absent => rw [hc] at hentries; exact absurd hentries nofun
    | file => rw [hc] at hentries; exact absurd hentries nofun
    | directory rows => exact ⟨rows, rfl⟩
  obtain ⟨rows, hrows⟩ := hrows
  have hnames := h.names
  have hget := h.get
  rw [hrows] at hnames hget ⊢
  constructor
  · change (rows.pop name).keys = _
    change rows.keys = _ at hnames
    rw [keys_pop, hnames, List.filter_filter]
    apply List.filter_congr
    intro name' _
    simp only [List.mem_cons, not_or, ne_eq, Bool.decide_and]
  · intro name'
    change (rows.pop name).get name' = _
    rw [Dict.get_pop]
    simp only [id, List.mem_cons]
    by_cases hname : name' = name
    · rw [if_pos hname, if_pos (Or.inl hname)]
    · rw [if_neg hname]
      have := hget name'
      change rows.get name' = _ at this
      rw [this]
      simp [hname]

theorem copies_without (h : Without gone a b) :
    copies H exemptions b = (copies H exemptions a).filter fun row => row.1 ∉ gone := by
  unfold copies
  rw [h.names, ← filter_sortPaths, List.filterMap_filter, List.filter_filterMap]
  apply List.filterMap_congr
  intro name _
  rw [h.entries name]
  by_cases hgone : name ∈ gone
  · by_cases hexempt : name ∈ exemptions
    · simp [hgone, hexempt]
    · cases a.entries name <;> simp [hgone, hexempt, Option.filter_some]
  · by_cases hexempt : name ∈ exemptions
    · simp [hgone, hexempt]
    · cases a.entries name <;> simp [hgone, hexempt, Option.filter_some]

theorem mem_copies {row : String × Entries F} : row ∈ copies H exemptions a ↔
    row.1 ∈ a.names ∧ row.1 ∉ exemptions ∧ a.entries row.1 = some row.2 := by
  unfold copies
  rw [List.mem_filterMap]
  constructor
  · rintro ⟨name, hname, h⟩
    split at h
    · exact absurd h nofun
    · rename_i hexempt
      obtain ⟨entries, hentries, rfl⟩ := Option.map_eq_some_iff.mp h
      exact ⟨mem_sortPaths.mp hname, hexempt, hentries⟩
  · rintro ⟨hname, hexempt, hentries⟩
    exact ⟨row.1, mem_sortPaths.mpr hname, by rw [if_neg hexempt, hentries]; rfl⟩

theorem nodup_copies : ((copies H exemptions a).map Prod.fst).Nodup := by
  have hsub : (copies H exemptions a).map Prod.fst =
      (sortPaths H a.names).filter fun name => a.isDir name && name ∉ exemptions := by
    unfold copies
    rw [List.map_filterMap, ← List.filterMap_eq_filter]
    apply List.filterMap_congr
    intro name _
    unfold Area.isDir
    by_cases hexempt : name ∈ exemptions
    · simp [hexempt, Option.guard]
    · cases hentries : a.entries name <;> simp [hexempt, hentries, Option.guard]
  rw [hsub]
  exact (nodup_sortPaths (nodup_names a)).filter _

/-- With the first rows gone, the others are left. -/
theorem filter_notMem_take {rows : List (String × Entries F)} (h : (rows.map Prod.fst).Nodup)
    (k : Nat) : (rows.filter fun row => row.1 ∉ (rows.take k).map Prod.fst) = rows.drop k := by
  rw [← List.take_append_drop k rows, List.map_append, List.nodup_append] at h
  have hsplit : rows.filter (fun row => row.1 ∉ (rows.take k).map Prod.fst) =
      (rows.take k ++ rows.drop k).filter fun row => row.1 ∉ (rows.take k).map Prod.fst := by
    rw [List.take_append_drop]
  rw [hsplit, List.filter_append]
  have hfirst : (rows.take k).filter (fun row => row.1 ∉ (rows.take k).map Prod.fst) = [] := by
    rw [List.filter_eq_nil_iff]
    intro row hrow
    rw [decide_eq_true_eq, not_not]
    exact List.mem_map_of_mem hrow
  have hrest : (rows.drop k).filter (fun row => row.1 ∉ (rows.take k).map Prod.fst) =
      rows.drop k := by
    rw [List.filter_eq_self]
    intro row hrow
    rw [decide_eq_true_eq]
    exact fun hin => h.2.2 row.1 hin row.1 (List.mem_map_of_mem hrow) rfl
  rw [hfirst, hrest, List.nil_append]

/-- The directory is removed by its age. -/
def Expired (H : Host F) (policy : RetentionPolicy) (o : Options) (name : String) : Bool :=
  olderThan H o name (o.olderThanDays.getD policy.backupDays)

/-- After the age pass over `done`; `pruned` names what it has removed. -/
structure AfterAge (H : Host F) (policy : RetentionPolicy) (o : Options) (exemptions : List String)
    (a : Area F) (done : List String) (pruned : List String) (s : State F) : Prop where
  without : Without pruned a s.conflicts
  pruned : ∀ name, name ∈ pruned ↔
    name ∈ done ∧ a.isDir name = true ∧ name ∉ exemptions ∧ Expired H policy o name = true

theorem Without.isDir (h : Without gone a b) (name : String) :
    b.isDir name = (name ∉ gone && a.isDir name) := by
  unfold Area.isDir
  rw [h.entries name]
  by_cases hname : name ∈ gone <;> simp [hname]

theorem triple_pruneConflict (hreal : o.dryRun = false) (hdel : Deletes H) {done : List String}
    (hname : name ∉ done) (acc : PruneReport × List String) :
    Triple (AfterAge H policy o exemptions a done acc.2)
      (pruneConflict H policy o exemptions acc name)
      (fun acc' => AfterAge H policy o exemptions a (done ++ [name]) acc'.2) fun _ _ => True := by
  have hskip : ∀ s, AfterAge H policy o exemptions a done acc.2 s →
      ¬ (a.isDir name = true ∧ name ∉ exemptions ∧ Expired H policy o name = true) →
      AfterAge H policy o exemptions a (done ++ [name]) acc.2 s := by
    intro s hs hno
    refine ⟨hs.without, fun name' => ?_⟩
    rw [hs.pruned name', List.mem_append, List.mem_singleton]
    constructor
    · rintro ⟨hdone, hrest⟩
      exact ⟨Or.inl hdone, hrest⟩
    · rintro ⟨hdone | rfl, hrest⟩
      · exact ⟨hdone, hrest⟩
      · exact absurd hrest hno
  apply triple_get_bind
  intro s hs
  have hout : name ∉ acc.2 := fun hin => hname ((hs.pruned name).mp hin).1
  have hdir : s.conflicts.isDir name = a.isDir name := by
    rw [hs.without.isDir name]
    simp [hout]
  split
  · rename_i h
    rw [hdir, Bool.not_eq_true'] at h
    refine triple_pure fun s' heq => heq ▸ hskip s hs fun hand => ?_
    rw [h] at hand
    exact absurd hand.1 Bool.false_ne_true
  rename_i hisdir
  split
  · rename_i hexempt
    exact triple_pure fun s' heq => heq ▸ hskip s hs fun hand => hand.2.1 hexempt
  rename_i hexempt
  split
  · rename_i hold
    rw [Bool.not_eq_true', Bool.not_eq_false] at hisdir
    simp only [unlessDry, hreal, Bool.false_eq_true, if_false]
    refine triple_bind (R := fun _ s' => s' = s) (fun _ heq => heq) fun entries => ?_
    refine triple_bind (R := fun _ s' => s' = removed H .conflicts name s)
      (triple_modify fun _ heq => heq ▸ rfl) fun _ => triple_pure ?_
    rintro _ rfl
    refine ⟨hs.without.removed hdel hisdir, fun name' => ?_⟩
    simp only [List.mem_cons, List.mem_append, List.not_mem_nil, or_false, hs.pruned name']
    constructor
    · rintro (rfl | ⟨hdone, hrest⟩)
      · exact ⟨Or.inr rfl, hdir ▸ hisdir, hexempt, hold⟩
      · exact ⟨Or.inl hdone, hrest⟩
    · rintro ⟨hdone | rfl, hrest⟩
      · exact Or.inr ⟨hdone, hrest⟩
      · exact Or.inl rfl
  · rename_i hold
    exact triple_pure fun s' heq => heq ▸ hskip s hs fun hand => hold hand.2.2

/-- The rows are removed from the front until the rest fits. -/
theorem triple_overBudget (hreal : o.dryRun = false) (hdel : Deletes H)
    (hbudget : 0 ≤ policy.maxBackupBytes) (rows : List (String × Nat)) (report : PruneReport)
    (hnodup : (rows.map Prod.fst).Nodup) (total : Int) (htotal : total = (rows.map Prod.snd).sum) :
    Triple (fun s => Without gone a s.conflicts ∧
        ∀ row ∈ rows, s.conflicts.isDir row.1 = true)
      (overBudget H policy o report total rows)
      (fun _ s => ∃ k, Without (((rows.take k).map Prod.fst).reverse ++ gone) a s.conflicts ∧
        (((rows.drop k).map Prod.snd).sum : Int) ≤ policy.maxBackupBytes)
      fun _ _ => True := by
  induction rows generalizing gone report total with
  | nil => exact triple_pure fun s hs => ⟨0, hs.1, hbudget⟩
  | cons row rest ih =>
    obtain ⟨name, size⟩ := row
    obtain ⟨hfresh, hrest⟩ := List.nodup_cons.mp hnodup
    unfold overBudget
    split
    · rename_i hle
      exact triple_pure fun s hs => ⟨0, hs.1, htotal ▸ hle⟩
    · simp only [unlessDry, hreal, Bool.false_eq_true, if_false]
      have hsum : total - size = (rest.map Prod.snd).sum := by
        rw [htotal, List.map_cons, List.sum_cons]
        push_cast
        omega
      refine triple_bind (R := fun _ s => Without (name :: gone) a s.conflicts ∧
        ∀ row ∈ rest, s.conflicts.isDir row.1 = true) ?_ fun _ => ?_
      · refine triple_modify fun s hs => ⟨hs.1.removed hdel (hs.2 _ List.mem_cons_self), ?_⟩
        intro row hrow
        have hne : row.1 ≠ name := by
          rintro rfl
          exact hfresh (List.mem_map.mpr ⟨row, hrow, rfl⟩)
        have hone : OneRow .conflicts name s (removed H .conflicts name s) := oneRow_removed
        have hget : (removed H .conflicts name s).conflicts.get row.1 = s.conflicts.get row.1 :=
          hone.get hne
        rw [isDir_congr hget]
        exact hs.2 row (List.mem_cons_of_mem _ hrow)
      · refine (ih _ hrest _ hsum).post ?_
        rintro _ s ⟨k, hwithout, hle⟩
        refine ⟨k + 1, ?_, hle⟩
        simpa using hwithout

/-- After the age pass the budget pass looks at every copy that may be pruned. -/
theorem remaining_eq {pruned : List String} (hout : ∀ name ∈ pruned, s.conflicts.isDir name = false) :
    remaining H exemptions pruned s =
      (copies H exemptions s.conflicts).map fun row => (row.1, dirSize row.2) := by
  unfold remaining copies
  rw [List.map_filterMap, ← List.filterMap_eq_map', List.filterMap_filter]
  apply List.filterMap_congr
  intro name _
  have hdir : s.conflicts.isDir name = (s.conflicts.entries name).isSome := rfl
  have hpruned : s.conflicts.isDir name = true → name ∉ pruned := by
    intro h hin
    rw [hout name hin] at h
    exact absurd h Bool.false_ne_true
  cases hentries : s.conflicts.entries name with
  | none =>
    rw [hentries] at hdir
    simp [hdir]
  | some entries =>
    rw [hentries] at hdir
    simp only [hdir, Option.isSome_some, forall_const] at hpruned
    by_cases hexempt : name ∈ exemptions
    · simp [hexempt]
    · simp [hdir, hpruned, hexempt]

theorem triple_pruneConflicts (hreal : o.dryRun = false) (hdel : Deletes H)
    (holder : o.olderThanDays = none) (hbudget : 0 < policy.maxBackupBytes) (report : PruneReport) :
    Triple (fun s => s.conflicts = a) (pruneConflicts H policy o exemptions report)
      (fun _ s => (totalSize (copies H exemptions s.conflicts) : Int) ≤ policy.maxBackupBytes ∧
        copies H exemptions s.conflicts <:+
          (copies H exemptions a).filter fun row => !Expired H policy o row.1)
      fun _ _ => True := by
  apply triple_get_bind
  rintro s rfl
  have hnodup : (sortPaths H s.conflicts.names).Nodup := nodup_sortPaths (nodup_names _)
  refine triple_bind (R := fun (acc : PruneReport × List String) s' => AfterAge H policy o exemptions s.conflicts
    (sortPaths H s.conflicts.names) acc.2 s') ?_ ?_
  · refine Triple.pre (triple_foldlM (fun done (acc : PruneReport × List String) s' =>
      AfterAge H policy o exemptions s.conflicts done acc.2 s') ?_) ?_
    · intro done name rest acc hsplit
      exact triple_pruneConflict hreal hdel (notMem_of_split hnodup hsplit) acc
    · rintro _ rfl
      exact ⟨without_nil, by simp⟩
  rintro ⟨report, pruned⟩
  simp only [holder, and_true]
  rw [if_pos hbudget.ne']
  apply triple_get_bind
  intro s' hs'
  have hgone : ∀ name ∈ pruned, s'.conflicts.isDir name = false := by
    intro name hname
    rw [hs'.without.isDir name]
    simp [hname]
  rw [remaining_eq hgone]
  have hcopies : copies H exemptions s'.conflicts =
      (copies H exemptions s.conflicts).filter fun row => !Expired H policy o row.1 := by
    rw [copies_without hs'.without]
    apply List.filter_congr
    rintro ⟨name, entries⟩ hrow
    obtain ⟨hname, hexempt, hentries⟩ := mem_copies.mp hrow
    have hdir : s.conflicts.isDir name = true := Option.isSome_iff_exists.mpr ⟨entries, hentries⟩
    have hpruned : name ∈ pruned ↔ Expired H policy o name = true := by
      rw [hs'.pruned name]
      exact ⟨fun h => h.2.2.2, fun h => ⟨mem_sortPaths.mpr hname, hdir, hexempt, h⟩⟩
    rw [decide_not, Bool.not_eq_eq_eq_not, Bool.not_not, Bool.eq_iff_iff, decide_eq_true_eq]
    exact hpruned
  have hover (rows : List (String × Nat)) (hnodup : (rows.map Prod.fst).Nodup) :=
    @triple_overBudget F H policy o s.conflicts pruned hreal hdel hbudget.le rows report hnodup _ rfl
  refine Triple.pre (Triple.post (hover _ ?_) ?_) ?_
  · rw [List.map_map]
    exact nodup_copies
  · rintro _ s'' ⟨k, hwithout, hle⟩
    have hleft : copies H exemptions s''.conflicts = (copies H exemptions s'.conflicts).drop k := by
      rw [copies_without hwithout, ← filter_notMem_take nodup_copies k,
        copies_without hs'.without, List.filter_filter, ← List.map_take, List.map_map]
      apply List.filter_congr
      intro row _
      simp only [List.mem_append, List.mem_reverse, not_or, Bool.decide_and]
      rfl
    rw [hleft, ← hcopies]
    refine ⟨?_, List.drop_suffix k _⟩
    rw [← List.map_drop, List.map_map] at hle
    exact hle
  · rintro _ rfl
    refine ⟨hs'.without, ?_⟩
    intro _ hrow
    obtain ⟨row, hcopy, rfl⟩ := List.mem_map.mp hrow
    exact Option.isSome_iff_exists.mpr ⟨row.2, (mem_copies.mp hcopy).2.2⟩

theorem copies_congr {exemptions' : List String} (h : ∀ name, name ∈ exemptions ↔ name ∈ exemptions') :
    copies H exemptions a = copies H exemptions' a := by
  unfold copies
  simp only [h]

/-- The copies left fit the budget, and they are the newest of those not removed by age. -/
def Bounded (H : Host F) (policy : RetentionPolicy) (o : Options) (exemptions : List String)
    (a b : Area F) : Prop :=
  (totalSize (copies H exemptions b) : Int) ≤ policy.maxBackupBytes ∧
    copies H exemptions b <:+
      (copies H exemptions a).filter fun row => !Expired H policy o row.1

theorem triple_pruneAreas_bounded (hreal : o.dryRun = false) (hdel : Deletes H)
    (hkeep : o.keep = none) (holder : o.olderThanDays = none) (hbudget : 0 < policy.maxBackupBytes) :
    Triple (fun s => s.conflicts = a) (pruneAreas H policy o exemptions)
      (fun _ s => Bounded H policy o exemptions a s.conflicts) fun _ _ => True := by
  have hpass (report : PruneReport) (area : Area F) :
      Triple (fun s : State F => s.conflicts = a) (if o.keep.isSome then pure report
        else do
          checkDirectory area
          pruneConflicts H policy o exemptions report)
        (fun _ s => Bounded H policy o exemptions a s.conflicts) fun _ _ => True := by
    simp only [hkeep, Option.isSome_none, Bool.false_eq_true, if_false]
    refine triple_bind ((keeps_checkDirectory area).conseq (fun _ => id) (fun _ _ => id)
      fun _ _ _ => trivial) fun _ => ?_
    exact triple_pruneConflicts hreal hdel holder hbudget report
  have hspares : ∀ name, Spares (fun s : State F => s.conflicts = a) .runs name :=
    fun name s t hs hrow => (hrow.other .conflicts nofun).trans hs
  refine triple_bind (keeps_get.conseq (fun _ => id) (fun _ _ => id) fun _ _ _ => trivial)
    fun s => ?_
  refine triple_bind ((keeps_checkDirectory s.runs).conseq (fun _ => id) (fun _ _ => id)
    fun _ _ _ => trivial) fun _ => ?_
  refine triple_bind (keeps_get.conseq (fun _ => id) (fun _ _ => id) fun _ _ _ => trivial)
    fun s => ?_
  refine triple_bind ((keeps_foldlM fun report name _ => keeps_pruneRun report fun _ _ _ =>
    hspares name).conseq (fun _ => id) (fun _ _ => id) fun _ _ _ => trivial) fun report => ?_
  apply triple_get_bind
  intro s hs
  cases harea : s.conflicts with
  | absent =>
    refine triple_pure ?_
    rintro _ rfl
    have hnone : copies H exemptions (.absent : Area F) = [] := rfl
    rw [Bounded, ← hs, harea, hnone]
    exact ⟨hbudget.le, List.nil_suffix⟩
  | file => exact (hpass report _).pre fun _ heq => heq ▸ hs
  | directory rows => exact (hpass report _).pre fun _ heq => heq ▸ hs

theorem bounded_of_returned (hreal : o.dryRun = false) (hdel : Deletes H)
    (hkeep : o.keep = none) (holder : o.olderThanDays = none) (hbudget : 0 < policy.maxBackupBytes)
    {s' : State F} {report : PruneReport} (h : pruneState H policy o s = .ok report s') :
    Bounded H policy o (exemptNames H o s) s.conflicts s'.conflicts := by
  rw [pruneState_eq] at h
  cases hactive : activeUnknownCompletionRunIds H s with
  | error e =>
    rw [hactive] at h
    exact absurd h nofun
  | ok ids =>
    rw [hactive] at h
    have hareas : Triple (fun t => t.conflicts = s.conflicts)
        (pruneAreas H policy o (o.exemptions ++ ids))
        (fun _ t => Bounded H policy o (o.exemptions ++ ids) s.conflicts t.conflicts)
        fun _ _ => True := triple_pruneAreas_bounded hreal hdel hkeep holder hbudget
    have hbounded := hareas.ok rfl h
    unfold Bounded
    rw [copies_congr fun name => mem_exemptNames hactive, copies_congr fun name =>
      mem_exemptNames hactive]
    exact hbounded

end Copies

/-! ## The contract -/

def real (o : Options) : Options := { o with dryRun := false }

/-- What a pruning from a state guarantees. -/
structure Contract (H : Host F) (policy : RetentionPolicy) (o : Options) (s : State F) : Prop where
  preview_writes_nothing : ending (pruneState H policy (preview o) s) = s
  preview_reports : ∀ report s', pruneState H policy (real o) s = .ok report s' →
    pruneState H policy (preview o) s = .ok report s
  real_reports : ¬ Undeletable H → ∀ report s', pruneState H policy (preview o) s = .ok report s' →
    ∃ s'', pruneState H policy (real o) s = .ok report s''
  exempt_stays : ∀ place, ∀ name ∈ exemptNames H o s,
    ((ending (pruneState H policy o s)).area place).get name = (s.area place).get name
  malformed_aborts : Malformed H s → ∃ e, pruneState H policy o s = .error e s
  newest_stay : ∀ n : Nat, o.keep = some (n : Int) → ∀ name ∈ (runDirs s).take n,
    (ending (pruneState H policy o s)).runs.get name = s.runs.get name
  bounded : o.dryRun = false → o.keep = none → o.olderThanDays = none → Deletes H →
    0 < policy.maxBackupBytes → ∀ report s', pruneState H policy o s = .ok report s' →
      Bounded H policy o (exemptNames H o s) s.conflicts s'.conflicts

theorem prune_state_contract (H : Host F) (policy : RetentionPolicy) (o : Options) (s : State F) :
    Contract H policy o s where
  preview_writes_nothing := (keeps_preview s).ending rfl
  preview_reports report s' h := by
    obtain ⟨t, ht, -⟩ := (mirrors_pruneState (o := real o) rfl).ok rfl h
    have hsame := (keeps_preview s).ok rfl ht
    rw [hsame] at ht
    exact ht
  real_reports hunlink report s' h := by
    have hmirror : Mirrors _ _ (pruneState H policy (real o)) _ _ := mirrors_pruneState rfl
    cases hrun : pruneState H policy (real o) s with
    | ok report' s'' =>
      obtain ⟨t, ht, -⟩ := hmirror.ok rfl hrun
      obtain ⟨rfl, -⟩ := EStateM.Result.ok.inj (ht.symm.trans h)
      exact ⟨s'', rfl⟩
    | error e s'' =>
      rcases hmirror.error rfl hrun with hstuck | ⟨t, ht⟩
      · exact absurd hstuck hunlink
      · exact absurd (ht.symm.trans h) nofun
  exempt_stays _ _ hname := Retention.exempt_stays hname
  malformed_aborts := pruneState_of_malformed
  newest_stay _ hkeep _ hname := Retention.newest_stay hkeep hname
  bounded hreal hkeep holder hdel hbudget _ _ := bounded_of_returned hreal hdel hkeep holder hbudget

end Remrun.Retention
