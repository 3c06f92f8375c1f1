import Remrun.Fleet.TaskContract

/-!
# The command of a configured batch

A submission fixes the values of the options, the adapter of the device has the argument vector,
and the plan of the stage has the paths. The command is rendered token by token, and then every
token that starts with a tilde is expanded on the target.
-/

namespace Remrun.Fleet.Tasks

open Effect JsonText Keyed
set_option autoImplicit false

variable {F : Type}

/-! ## Values of options -/

inductive PreparationFault where
  | unknownOptions (names : List String)
  | missingOption (name : String)
  | mustHaveType (name : String) (kind : String)
  | outsideValues (name : String)
  | notAssignment (assignment : String)
  | suppliedTwice (name : String)
  | unknownOption (name : String)
  deriving DecidableEq, Repr

section Typing
variable (H : Host F)

/-- The value that an option takes, if it has one. -/
def chosen (supplied : Table F) (name : String) (row : OptionRow F) : Option (Value F) :=
  (supplied.lookup name).or row.default

/-- The loop body of `_typed_options`. -/
def typedOption (supplied : Table F) (name : String) (row : OptionRow F) :
    Except PreparationFault (Table F) :=
  match chosen supplied name row with
  | none => if row.required then .error (.missingOption name) else .ok []
  | some value =>
    if hasKind row.kind value = false then .error (.mustHaveType name row.kind.text)
    else if row.values.any (fun values => !values.any (same H value)) = true then
      .error (.outsideValues name)
    else .ok [(name, value)]

/-- `_typed_options`. -/
def typedOptions (declared : Options F) (supplied : Table F) :
    Except PreparationFault (Table F) :=
  let unknown := sortNames ((supplied.map Prod.fst).filter fun name => (declared.get name).isNone)
  if unknown ≠ [] then .error (.unknownOptions unknown)
  else do
    let rows ← declared.rows.mapM fun row => typedOption H supplied row.1 row.2
    return rows.flatten

/-- The value of an assignment, read by the type of its option. -/
def parseOption (kind : Kind) (text : String) : Option (Value F) :=
  match kind with
  | .string => some (.str text)
  | .integer => (H.parseInt text).map .int
  | .number => (H.parseFloat text).map .float
  | .boolean =>
    if text.toLower = "true" then some (.bool true)
    else if text.toLower = "false" then some (.bool false)
    else none

/-- The loop body of `parse_option_assignments`. -/
def parseAssignment (declared : Options F) (raw : Table F) (assignment : String) :
    Except PreparationFault (Table F) :=
  if '=' ∉ assignment.toList then .error (.notAssignment assignment)
  else
    let name := String.ofList (assignment.toList.takeWhile (· ≠ '='))
    let text := String.ofList ((assignment.toList.dropWhile (· ≠ '=')).drop 1)
    if (raw.lookup name).isSome then .error (.suppliedTwice name)
    else match declared.get name with
      | none => .error (.unknownOption name)
      | some row =>
        match parseOption H row.kind text with
        | none => .error (.mustHaveType name row.kind.text)
        | some value => .ok (raw ++ [(name, value)])

/-- `parse_option_assignments`. -/
def parseOptionAssignments (declared : Options F) (assignments : List String) :
    Except PreparationFault (Table F) := do
  let raw ← assignments.foldlM (parseAssignment H declared) []
  typedOptions H declared raw

/-- `str(value)`, which refuses a whole number with too many digits. -/
def optionText : Value F → Option String
  | .str s => some s
  | .bool b => some (if b then "True" else "False")
  | .float x => some (H.floatStr x)
  | .int n =>
    if (Nat.toDigits 10 n.natAbs).length ≤ H.intDigits then some (String.ofList (intText n))
    else none
  | _ => none

end Typing

/-! ## Paths on the target -/

inductive Transport where
  /-- `str(Path(path).expanduser())`, unless the user is unknown, and `str(Path(*parts))` -/
  | localSim (expanduser : String → Option String) (join : List String → String)
  /-- the home found by the probe, empty where it is unknown -/
  | posix (home : String)
  | powershell (home : String)

def rstrip (p : Char → Bool) (text : String) : String :=
  String.ofList (text.toList.reverse.dropWhile p).reverse

def isSeparator (c : Char) : Bool := c = '/' || c = '\\'

def backslashed (text : List Char) : List Char := text.map fun c => if c = '/' then '\\' else c

/-- `expand_remote`; a local simulation raises a `RuntimeError` for an unknown user. -/
def expandRemote (t : Transport) (path : String) : Option String :=
  match t, path.toList with
  | .localSim expanduser _, _ => expanduser path
  | .posix home, '~' :: rest =>
    if home ≠ "" ∧ (rest = [] ∨ rest.head? = some '/') then
      some (rstrip (· = '/') home ++ String.ofList rest)
    else some path
  | .powershell home, '~' :: rest =>
    if home ≠ "" ∧ rest.head?.all isSeparator = true then
      some (rstrip isSeparator home ++ String.ofList (backslashed rest))
    else some path
  | _, _ => some path

def strip (p : Char → Bool) (text : String) : String :=
  rstrip p (String.ofList (text.toList.dropWhile p))

/-- `native_join`. -/
def nativeJoin (t : Transport) (parts : List String) : String :=
  let parts := parts.filter (· ≠ "")
  match t, parts with
  | _, [] => ""
  | .localSim _ join, parts => join parts
  | .posix _, first :: rest =>
    "/".intercalate (rstrip (· = '/') first :: (rest.map (strip (· = '/'))).filter (· ≠ ""))
  | .powershell _, first :: rest =>
    "\\".intercalate (rstrip isSeparator first :: (rest.map (strip isSeparator)).filter (· ≠ ""))

structure StagePlan where
  stageIn : String
  manifestPath : String
  outputRoot : String

/-! ## Rendering -/

inductive RenderFault where
  /-- a `RuntimeError` of `expanduser` -/
  | unknownUser (path : String)
  /-- a `KeyError`: the option has no value -/
  | noOption (name : String)
  /-- a `ValueError` of `str` -/
  | tooManyDigits (name : String)
  | engineMismatch (adapter requested : String)
  deriving DecidableEq, Repr

/-- A job of the batch: a configured task with its frozen options. -/
structure Job (F : Type) where
  options : Table F
  engine : Option String
  outputRoot : Option String

def orFault {α : Type} (value : Option α) (fault : RenderFault) : Except RenderFault α :=
  match value with
  | some a => .ok a
  | none => .error fault

section Rendering
variable (H : Host F) (t : Transport)

/-- The paths of a batch in its stage: `resolve_output_root` and the plan of
`_run_prepared_batch`. -/
def planStage (stage : String) (head : Job F) (adapter : Adapter) :
    Except RenderFault StagePlan := do
  let configuredRoot := (head.outputRoot.filter (· ≠ "")).or adapter.outputRoot
  let outputRoot ← match configuredRoot with
    | none => pure stage
    | some root => orFault (expandRemote t root) (.unknownUser root)
  return ⟨nativeJoin t [stage, "in"], nativeJoin t [stage, "remrun_batch.json"], outputRoot⟩

def StagePlan.values (plan : StagePlan) : List (String × String) := [
  ("{stage}", plan.stageIn), ("{manifest}", plan.manifestPath), ("{output_root}", plan.outputRoot)]

/-- The loop body of `render_command`. -/
def renderToken (plan : StagePlan) (options : Table F) (token : String) :
    Except RenderFault String :=
  match optionOf token with
  | some name => do
    let value ← orFault (options.lookup name) (.noOption name)
    orFault (optionText H value) (.tooManyDigits name)
  | none => .ok ((plan.values.lookup token).getD token)

/-- `render_command`, for a device that has an adapter. -/
def renderCommand (plan : StagePlan) (head : Job F) (adapter : Adapter) :
    Except RenderFault (List String) :=
  match head.engine.filter fun engine => engine ≠ "" ∧ engine ≠ adapter.engine with
  | some engine => .error (.engineMismatch adapter.engine engine)
  | none => adapter.argv.mapM (renderToken H plan head.options)

/-- `transport.expand_remote(value) if value.startswith("~") else value`. -/
def expandToken (value : String) : Except RenderFault String :=
  if value.toList.head? = some '~' then orFault (expandRemote t value) (.unknownUser value)
  else .ok value

/-- The command of `_run_prepared_batch`. -/
def batchCommand (plan : StagePlan) (head : Job F) (adapter : Adapter) :
    Except RenderFault (List String) := do
  let command ← renderCommand H plan head adapter
  command.mapM (expandToken t)

/-- The part of `_group_contract_error` about the options: they have one text. -/
def sameOptions (head job : Job F) : Bool :=
  dumps H.floats (.obj head.options) = dumps H.floats (.obj job.options)

end Rendering

/-! ## What a command has to be -/

/-- What a token of the argument vector stands for, apart from how it is rendered. -/
inductive Rendered (H : Host F) (t : Transport) (plan : StagePlan) (options : Table F) :
    String → String → Prop where
  | path {token path : String} (planned : (token, path) ∈ plan.values) :
      Rendered H t plan options token path
  | option {token name text : String} {value : Value F} (names : optionOf token = some name)
      (frozen : options.lookup name = some value) (text_eq : optionText H value = some text) :
      Rendered H t plan options token text
  | literal {token : String} (plain : hasBrace token = false)
      (relative : token.toList.head? ≠ some '~') : Rendered H t plan options token token
  | home {token path : String} (plain : hasBrace token = false)
      (tilde : token.toList.head? = some '~') (expands : expandRemote t token = some path) :
      Rendered H t plan options token path

/-- Expanding the text leaves it as it is. -/
def Kept (t : Transport) (text : String) : Prop :=
  text.toList.head? = some '~' → expandRemote t text = some text

/-- Nothing that a token brings into the command is missing or altered by the expansion. -/
structure Plain (H : Host F) (t : Transport) (plan : StagePlan) (declared : Options F)
    (supplied : Table F) (token : String) : Prop where
  /-- an option that is neither required nor has a default is supplied -/
  valued : ∀ name row, optionOf token = some name → declared.get name = some row →
    row.required = false → row.default = none → (supplied.lookup name).isSome
  textual : ∀ name row value, optionOf token = some name → declared.get name = some row →
    chosen supplied name row = some value → ∃ text, optionText H value = some text ∧ Kept t text
  paths : ∀ path, (token, path) ∈ plan.values → Kept t path
  known : hasBrace token = false → token.toList.head? = some '~' → (expandRemote t token).isSome

/-! ## Frozen options -/

section Frozen
variable {H : Host F} {declared : Options F} {supplied options : Table F}

theorem typedOption_ok {name : String} {row : OptionRow F} {members : Table F}
    (h : typedOption H supplied name row = .ok members) :
    (chosen supplied name row = none ∧ row.required = false ∧ members = []) ∨
      ∃ value, chosen supplied name row = some value ∧ hasKind row.kind value = true ∧
        members = [(name, value)] := by
  unfold typedOption at h
  split at h
  · rename_i hnone
    split at h
    · exact absurd h nofun
    · rename_i hoptional
      exact Or.inl ⟨hnone, by simpa using hoptional, (Except.ok.inj h).symm⟩
  · rename_i value hvalue
    split at h
    · exact absurd h nofun
    · rename_i hkind
      split at h
      · exact absurd h nofun
      · exact Or.inr ⟨value, hvalue, by simpa using hkind, (Except.ok.inj h).symm⟩

theorem typedOptions_rows (h : typedOptions H declared supplied = .ok options) :
    ∃ rows, declared.rows.mapM (fun row => typedOption H supplied row.1 row.2) = .ok rows ∧
      options = rows.flatten := by
  unfold typedOptions at h
  dsimp only at h
  split at h
  · cases h
  · obtain ⟨rows, hrows, h⟩ := bind_eq_ok.mp h
    exact ⟨rows, hrows, (pure_eq_ok.mp h).symm⟩

theorem mem_typedOptions (h : typedOptions H declared supplied = .ok options) {name : String}
    {value : Value F} : (name, value) ∈ options ↔
      ∃ row, (name, row) ∈ declared.rows ∧ chosen supplied name row = some value := by
  obtain ⟨rows, hrows, rfl⟩ := typedOptions_rows h
  rw [List.mem_flatten]
  constructor
  · rintro ⟨members, hmembers, hmem⟩
    obtain ⟨⟨name', row⟩, hrow, hok⟩ := (mem_of_mapM hrows).mp hmembers
    rcases typedOption_ok hok with ⟨-, -, rfl⟩ | ⟨value', hvalue, -, rfl⟩
    · exact absurd hmem List.not_mem_nil
    · obtain ⟨rfl, rfl⟩ := Prod.mk.inj (List.mem_singleton.mp hmem)
      exact ⟨row, hrow, hvalue⟩
  · rintro ⟨row, hrow, hvalue⟩
    obtain ⟨members, hok⟩ := ok_of_mapM hrows hrow
    refine ⟨members, (mem_of_mapM hrows).mpr ⟨(name, row), hrow, hok⟩, ?_⟩
    rcases typedOption_ok hok with ⟨hnone, -, -⟩ | ⟨value', hvalue', -, rfl⟩
    · exact absurd (hnone.symm.trans hvalue) nofun
    · rw [Option.some.inj (hvalue'.symm.trans hvalue)]
      exact List.mem_singleton_self _

/-- The keys of the frozen options are a part of the declared ones, in their order. -/
theorem typedOptions_keys {declared : List (String × OptionRow F)} {rows : List (Table F)}
    (h : declared.mapM (fun row => typedOption H supplied row.1 row.2) = .ok rows) :
    (rows.flatten.map Prod.fst).Sublist (declared.map Prod.fst) := by
  induction declared generalizing rows with
  | nil =>
    rw [← Except.ok.inj h]
    exact List.Sublist.refl _
  | cons row rest ih =>
    obtain ⟨members, others, hmembers, hothers, rfl⟩ := mapM_cons_eq_ok.mp h
    rw [List.flatten_cons, List.map_append, List.map_cons]
    rcases typedOption_ok hmembers with ⟨-, -, rfl⟩ | ⟨value, -, -, rfl⟩
    · exact (ih hothers).cons _
    · exact (ih hothers).cons_cons _

theorem typedOptions_nodup (h : typedOptions H declared supplied = .ok options) :
    (options.map Prod.fst).Nodup := by
  obtain ⟨rows, hrows, rfl⟩ := typedOptions_rows h
  exact (typedOptions_keys hrows).nodup declared.nodup

theorem lookup_typedOptions (h : typedOptions H declared supplied = .ok options) (name : String) :
    options.lookup name = (declared.get name).bind (chosen supplied name) := by
  apply Option.ext
  intro value
  rw [lookup_eq_some (typedOptions_nodup h), mem_typedOptions h, Option.bind_eq_some_iff]
  constructor
  · rintro ⟨row, hrow, hvalue⟩
    exact ⟨row, Dict.get_eq_some.mpr ⟨name, hrow, rfl⟩, hvalue⟩
  · rintro ⟨row, hget, hvalue⟩
    obtain ⟨_, hrow, rfl⟩ := Dict.get_eq_some.mp hget
    exact ⟨row, hrow, hvalue⟩

/-- A required option has a value. -/
theorem chosen_of_required (h : typedOptions H declared supplied = .ok options) {name : String}
    {row : OptionRow F} (hget : declared.get name = some row) (hrequired : row.required = true) :
    ∃ value, chosen supplied name row = some value := by
  obtain ⟨rows, hrows, rfl⟩ := typedOptions_rows h
  obtain ⟨_, hrow, rfl⟩ := Dict.get_eq_some.mp hget
  obtain ⟨members, hok⟩ := ok_of_mapM hrows hrow
  rcases typedOption_ok hok with ⟨-, hoptional, -⟩ | ⟨value, hvalue, -, -⟩
  · exact absurd (hrequired.symm.trans hoptional) nofun
  · exact ⟨value, hvalue⟩

theorem typedOptions_scalar (h : typedOptions H declared supplied = .ok options) :
    ∀ member ∈ options, member.2.Proper ∧ member.2.sorted = member.2 := by
  obtain ⟨rows, hrows, rfl⟩ := typedOptions_rows h
  intro member hmember
  obtain ⟨members, hmembers, hmem⟩ := List.mem_flatten.mp hmember
  obtain ⟨row, -, hok⟩ := (mem_of_mapM hrows).mp hmembers
  rcases typedOption_ok hok with ⟨-, -, rfl⟩ | ⟨value, -, hkind, rfl⟩
  · exact absurd hmem List.not_mem_nil
  · rw [List.mem_singleton.mp hmem]
    cases value with
    | str s => exact ⟨.str s, rfl⟩
    | int n => exact ⟨.int n, rfl⟩
    | float x => exact ⟨.float x, rfl⟩
    | bool b => exact ⟨.bool b, rfl⟩
    | null => cases hk : row.2.kind <;> simp [hk, hasKind] at hkind
    | arr items => cases hk : row.2.kind <;> simp [hk, hasKind] at hkind
    | obj members => cases hk : row.2.kind <;> simp [hk, hasKind] at hkind

end Frozen

/-! ## One token -/

section Tokens
variable {H : Host F} {t : Transport} {plan : StagePlan} {declared : Options F}
  {supplied options : Table F}

theorem orFault_ok {α : Type} {value : Option α} {fault : RenderFault} {a : α} :
    orFault value fault = .ok a ↔ value = some a := by
  cases value <;> simp [orFault]

theorem expandToken_kept {text : String} (h : Kept t text) : expandToken t text = .ok text := by
  unfold expandToken
  split
  · rename_i htilde
    rw [h htilde]
    rfl
  · rfl

theorem kept_of_expandToken {text : String} (h : expandToken t text = .ok text) : Kept t text := by
  intro htilde
  rw [expandToken, if_pos htilde] at h
  exact orFault_ok.mp h

/-- The one placeholder of a path is not that of an option, and the other way round. -/
theorem optionOf_planned {token path : String} (h : (token, path) ∈ plan.values) :
    optionOf token = none := by
  simp only [StagePlan.values, List.mem_cons, Prod.mk.injEq, List.not_mem_nil, or_false] at h
  rcases h with ⟨rfl, -⟩ | ⟨rfl, -⟩ | ⟨rfl, -⟩ <;> decide

theorem hasBrace_planned {token path : String} (h : (token, path) ∈ plan.values) :
    hasBrace token = true := by
  simp only [StagePlan.values, List.mem_cons, Prod.mk.injEq, List.not_mem_nil, or_false] at h
  rcases h with ⟨rfl, -⟩ | ⟨rfl, -⟩ | ⟨rfl, -⟩ <;> decide

theorem hasBrace_option {token name : String} (h : optionOf token = some name) :
    hasBrace token = true := by
  unfold optionOf at h
  split at h
  · rename_i hshape
    rw [Bool.and_eq_true] at hshape
    obtain ⟨rest, hrest⟩ := List.isPrefixOf_iff_prefix.mp hshape.1
    rw [hasBrace, ← hrest]
    rfl
  · exact absurd h nofun

theorem lookup_values {token path : String} :
    plan.values.lookup token = some path ↔ (token, path) ∈ plan.values :=
  lookup_eq_some (by simp [StagePlan.values])

theorem values_of_placeholder {token : String} (h : token ∈ placeholders) :
    ∃ path, (token, path) ∈ plan.values := by
  simp only [placeholders, List.mem_cons, List.not_mem_nil, or_false] at h
  rcases h with rfl | rfl | rfl
  · exact ⟨plan.stageIn, by simp [StagePlan.values]⟩
  · exact ⟨plan.manifestPath, by simp [StagePlan.values]⟩
  · exact ⟨plan.outputRoot, by simp [StagePlan.values]⟩

/-- A token is rendered and expanded. -/
def commandToken (H : Host F) (t : Transport) (plan : StagePlan) (options : Table F)
    (token : String) : Except RenderFault String :=
  renderToken H plan options token >>= expandToken t

theorem commandToken_planned {token path : String} (h : (token, path) ∈ plan.values) :
    commandToken H t plan options token = expandToken t path := by
  rw [commandToken, renderToken, optionOf_planned h]
  dsimp only
  rw [lookup_values.mpr h]
  rfl

theorem commandToken_literal {token : String} (h : hasBrace token = false) :
    commandToken H t plan options token = expandToken t token := by
  have hoption : optionOf token = none := by
    cases hname : optionOf token with
    | none => rfl
    | some name => exact absurd (h.symm.trans (hasBrace_option hname)) nofun
  have hlookup : plan.values.lookup token = none := by
    cases hpath : plan.values.lookup token with
    | none => rfl
    | some path => exact absurd (h.symm.trans (hasBrace_planned (lookup_values.mp hpath))) nofun
  rw [commandToken, renderToken, hoption]
  dsimp only
  rw [hlookup]
  rfl

theorem commandToken_option {token name out : String} (h : optionOf token = some name) :
    commandToken H t plan options token = .ok out ↔ ∃ value text,
      options.lookup name = some value ∧ optionText H value = some text ∧
        expandToken t text = .ok out := by
  rw [commandToken, renderToken, h]
  dsimp only
  rw [bind_eq_ok]
  constructor
  · rintro ⟨text, hrender, hout⟩
    obtain ⟨value, hvalue, htext⟩ := bind_eq_ok.mp hrender
    exact ⟨value, text, orFault_ok.mp hvalue, orFault_ok.mp htext, hout⟩
  · rintro ⟨value, text, hvalue, htext, hout⟩
    exact ⟨text, bind_eq_ok.mpr ⟨value, orFault_ok.mpr hvalue, orFault_ok.mpr htext⟩, hout⟩

/-- An option that a plain token names has a value. -/
theorem chosen_of_plain (htyped : typedOptions H declared supplied = .ok options)
    {token name : String} (hplain : Plain H t plan declared supplied token)
    (hoption : optionOf token = some name) {row : OptionRow F}
    (hrow : declared.get name = some row) : ∃ value, chosen supplied name row = some value := by
  cases hrequired : row.required with
  | true => exact chosen_of_required htyped hrow hrequired
  | false =>
    unfold chosen
    cases hdefault : row.default with
    | none =>
      obtain ⟨value, hvalue⟩ := Option.isSome_iff_exists.mp
        (hplain.valued name row hoption hrow hrequired hdefault)
      exact ⟨value, by rw [hvalue, Option.some_or]⟩
    | some value =>
      cases supplied.lookup name with
      | none => exact ⟨value, rfl⟩
      | some value' => exact ⟨value', rfl⟩

/-- The token of an option. -/
theorem rendered_iff_plain_option (htyped : typedOptions H declared supplied = .ok options)
    {token name : String} (hoption : optionOf token = some name) {row : OptionRow F}
    (hrow : declared.get name = some row) :
    (∃ out, commandToken H t plan options token = .ok out ∧
      Rendered H t plan options token out) ↔ Plain H t plan declared supplied token := by
  have hbrace := hasBrace_option hoption
  have hplanned : ∀ path, (token, path) ∉ plan.values := fun path hpath =>
    absurd (hoption.symm.trans (optionOf_planned hpath)) nofun
  constructor
  · rintro ⟨out, hout, hrendered⟩
    obtain ⟨value, text, hvalue, htext, hexpand⟩ := (commandToken_option hoption).mp hout
    have hsame : out = text := by
      cases hrendered with
      | path hpath => exact absurd hpath (hplanned _)
      | option hname hfrozen heq =>
        obtain rfl := Option.some.inj (hname.symm.trans hoption)
        obtain rfl := Option.some.inj (hfrozen.symm.trans hvalue)
        exact Option.some.inj (heq.symm.trans htext)
      | literal hplain _ => exact absurd (hbrace.symm.trans hplain) nofun
      | home hplain _ _ => exact absurd (hbrace.symm.trans hplain) nofun
    subst hsame
    rw [lookup_typedOptions htyped, hrow, Option.bind_some] at hvalue
    refine ⟨fun name' row' hname hrow' _ hdefault => ?_, fun name' row' value' hname hrow' hv => ?_,
      fun path hpath => absurd hpath (hplanned path),
      fun hplain => absurd (hbrace.symm.trans hplain) nofun⟩
    · obtain rfl := Option.some.inj (hoption.symm.trans hname)
      obtain rfl := Option.some.inj (hrow.symm.trans hrow')
      rw [chosen, hdefault, Option.or_none] at hvalue
      rw [hvalue]
      rfl
    · obtain rfl := Option.some.inj (hoption.symm.trans hname)
      obtain rfl := Option.some.inj (hrow.symm.trans hrow')
      obtain rfl := Option.some.inj (hvalue.symm.trans hv)
      exact ⟨_, htext, kept_of_expandToken hexpand⟩
  · intro hplain
    obtain ⟨value, hvalue⟩ := chosen_of_plain htyped hplain hoption hrow
    obtain ⟨text, htext, hkept⟩ := hplain.textual name row value hoption hrow hvalue
    have hlookup : options.lookup name = some value := by
      rw [lookup_typedOptions htyped, hrow]
      exact hvalue
    exact ⟨text, (commandToken_option hoption).mpr
      ⟨value, text, hlookup, htext, expandToken_kept hkept⟩, .option hoption hlookup htext⟩

/-- The placeholder of a path. -/
theorem rendered_iff_plain_planned {token path : String} (hpath : (token, path) ∈ plan.values) :
    (∃ out, commandToken H t plan options token = .ok out ∧
      Rendered H t plan options token out) ↔ Plain H t plan declared supplied token := by
  have hbrace := hasBrace_planned hpath
  have hvacuous : ∀ name, optionOf token ≠ some name := fun name heq =>
    absurd ((optionOf_planned hpath).symm.trans heq) nofun
  have hone : ∀ path', (token, path') ∈ plan.values → path' = path := fun path' hpath' =>
    Option.some.inj ((lookup_values.mpr hpath').symm.trans (lookup_values.mpr hpath))
  rw [commandToken_planned hpath]
  constructor
  · rintro ⟨out, hout, hrendered⟩
    have hsame : out = path := by
      cases hrendered with
      | path hpath' => exact hone _ hpath'
      | option hname _ _ => exact absurd hname (hvacuous _)
      | literal hplain _ => exact absurd (hbrace.symm.trans hplain) nofun
      | home hplain _ _ => exact absurd (hbrace.symm.trans hplain) nofun
    subst hsame
    refine ⟨fun name _ hname => absurd hname (hvacuous name),
      fun name _ _ hname => absurd hname (hvacuous name), fun path' hpath' => ?_,
      fun hplain => absurd (hbrace.symm.trans hplain) nofun⟩
    rw [hone path' hpath']
    exact kept_of_expandToken hout
  · intro hplain
    exact ⟨path, expandToken_kept (hplain.paths path hpath), .path hpath⟩

/-- A token without a brace. -/
theorem rendered_iff_plain_literal {token : String} (hbrace : hasBrace token = false) :
    (∃ out, commandToken H t plan options token = .ok out ∧
      Rendered H t plan options token out) ↔ Plain H t plan declared supplied token := by
  have hvacuous : ∀ name, optionOf token ≠ some name := fun name heq =>
    absurd (hbrace.symm.trans (hasBrace_option heq)) nofun
  rw [commandToken_literal hbrace]
  constructor
  · rintro ⟨out, hout, -⟩
    refine ⟨fun name _ hname => absurd hname (hvacuous name),
      fun name _ _ hname => absurd hname (hvacuous name),
      fun path hpath => absurd (hbrace.symm.trans (hasBrace_planned hpath)) nofun,
      fun _ htilde => ?_⟩
    rw [expandToken, if_pos htilde] at hout
    rw [orFault_ok.mp hout]
    rfl
  · intro hplain
    by_cases htilde : token.toList.head? = some '~'
    · obtain ⟨path, hpath⟩ := Option.isSome_iff_exists.mp (hplain.known hbrace htilde)
      refine ⟨path, ?_, .home hbrace htilde hpath⟩
      rw [expandToken, if_pos htilde]
      exact orFault_ok.mpr hpath
    · refine ⟨token, ?_, .literal hbrace htilde⟩
      rw [expandToken, if_neg htilde]

/-- What it takes of a valid token to be rendered as it has to be. -/
theorem rendered_iff_plain (htyped : typedOptions H declared supplied = .ok options)
    {token : String} (hvalid : validToken declared token = true) :
    (∃ out, commandToken H t plan options token = .ok out ∧
      Rendered H t plan options token out) ↔ Plain H t plan declared supplied token := by
  rw [validToken, Bool.or_eq_true, Bool.or_eq_true, Bool.not_eq_true', decide_eq_true_eq,
    Option.any_eq_true] at hvalid
  rcases hvalid with (hbrace | hplaceholder) | ⟨name, hoption, hdeclared⟩
  · exact rendered_iff_plain_literal hbrace
  · obtain ⟨path, hpath⟩ : ∃ path, (token, path) ∈ plan.values :=
      values_of_placeholder hplaceholder
    exact rendered_iff_plain_planned hpath
  · obtain ⟨row, hrow⟩ := Option.isSome_iff_exists.mp hdeclared
    exact rendered_iff_plain_option htyped hoption hrow

end Tokens

/-! ## The whole command -/

section Commands
variable {H : Host F} {t : Transport} {plan : StagePlan} {declared : Options F}

theorem batchCommand_ok {head : Job F} {adapter : Adapter}
    (hengine : ∀ engine, head.engine = some engine → engine = "" ∨ engine = adapter.engine)
    {command : List String} : batchCommand H t plan head adapter = .ok command ↔
      adapter.argv.mapM (commandToken H t plan head.options) = .ok command := by
  have hmatch :
      head.engine.filter (fun engine => engine ≠ "" ∧ engine ≠ adapter.engine) = none := by
    rw [Option.filter_eq_none_iff]
    intro engine heq
    rcases hengine engine heq with rfl | rfl <;> simp
  rw [batchCommand, renderCommand, hmatch, bind_eq_ok]
  exact mapM_mapM_eq_ok

/-- Options with one text have the same values. -/
theorem lookup_of_sameOptions (hfloats : H.floats.Faithful) {supplied supplied' : Table F}
    {head job : Job F} (hhead : typedOptions H declared supplied = .ok head.options)
    (hjob : typedOptions H declared supplied' = .ok job.options)
    (hsame : sameOptions H head job = true) (name : String) :
    job.options.lookup name = head.options.lookup name := by
  have hproper : ∀ {supplied options : Table F}, typedOptions H declared supplied = .ok options →
      (Value.obj options).Proper := fun h =>
    .obj _ (typedOptions_nodup h) fun member hmem => (typedOptions_scalar h member hmem).1
  have hscalar : ∀ {supplied options : Table F}, typedOptions H declared supplied = .ok options →
      (Value.obj options).sorted = .obj (sortMembers options) := by
    intro supplied options h
    have hmap : options.map (fun member => (member.1, member.2.sorted)) = options := by
      conv_rhs => rw [← List.map_id options]
      exact List.map_congr_left fun member hmem =>
        Prod.ext rfl (typedOptions_scalar h member hmem).2
    rw [Value.sorted, sortedMembers_eq, hmap]
  have hsorted := sorted_eq_of_dumps_eq hfloats (hproper hhead) (hproper hjob)
    (of_decide_eq_true hsame)
  rw [hscalar hhead, hscalar hjob, Value.obj.injEq] at hsorted
  rw [← lookup_sortMembers (typedOptions_nodup hhead), hsorted,
    lookup_sortMembers (typedOptions_nodup hjob)]

theorem forall₂_meet {α β : Type} {R S : α → β → Prop} {xs : List α} {ys : List β}
    (hR : List.Forall₂ R xs ys) (hS : List.Forall₂ S xs ys) : ∀ x ∈ xs, ∃ y, R x y ∧ S x y := by
  induction hR with
  | nil => simp
  | cons hxy hrest ih =>
    obtain ⟨hxy', hrest'⟩ := List.forall₂_cons.mp hS
    intro x hx
    rcases List.mem_cons.mp hx with rfl | hx
    · exact ⟨_, hxy, hxy'⟩
    · exact ih hrest' x hx

theorem Rendered.congr {options options' : Table F}
    (h : ∀ name, options'.lookup name = options.lookup name) {token out : String}
    (hrendered : Rendered H t plan options token out) : Rendered H t plan options' token out := by
  cases hrendered with
  | path hpath => exact .path hpath
  | option hname hfrozen htext => exact .option hname ((h _).trans hfrozen) htext
  | literal hplain hrelative => exact .literal hplain hrelative
  | home hplain htilde hexpands => exact .home hplain htilde hexpands

/-- For every accepted definition and every accepted submission of a batch: the command exists,
has the length of the argument vector and is for every job token by token what it has to be,
exactly if every token is plain. -/
theorem command_exact_iff_plain (H : Host F) (hfloats : H.floats.Faithful)
    (rawOptions : Option (Value F)) (rawAdapters : Value F) (devices : List String)
    (bearsOutput : Bool) (declared : Options F) (adapters : List (String × Adapter))
    (_hoptions : validateOptions H rawOptions = .ok declared)
    (hadapters : validateAdapters devices bearsOutput declared rawAdapters = .ok adapters)
    (device : String) (adapter : Adapter) (hadapter : (device, adapter) ∈ adapters)
    (head : Job F) (rest : List (Job F)) (supplied : Job F → Table F)
    (htyped : ∀ job ∈ head :: rest, typedOptions H declared (supplied job) = .ok job.options)
    (hgroup : ∀ job ∈ rest, sameOptions H head job = true)
    (hengine : ∀ engine, head.engine = some engine → engine = "" ∨ engine = adapter.engine)
    (t : Transport) (stage : String) (plan : StagePlan)
    (hplan : planStage t stage head adapter = .ok plan) :
    (∃ command, batchCommand H t plan head adapter = .ok command ∧
      command.length = adapter.argv.length ∧
      ∀ job ∈ head :: rest, List.Forall₂ (Rendered H t plan job.options) adapter.argv command) ↔
      ∀ token ∈ adapter.argv, Plain H t plan declared (supplied head) token := by
  have hhead := htyped head List.mem_cons_self
  have hvalid := validateAdapters_tokens hadapters hadapter
  have hiff : ∀ token ∈ adapter.argv,
      (∃ out, commandToken H t plan head.options token = .ok out ∧
        Rendered H t plan head.options token out) ↔ Plain H t plan declared (supplied head) token :=
    fun token htoken => rendered_iff_plain hhead (hvalid token htoken)
  constructor
  · rintro ⟨command, hcommand, -, hrendered⟩ token htoken
    rw [batchCommand_ok hengine, mapM_eq_ok] at hcommand
    obtain ⟨out, hout, hrendered⟩ :=
      forall₂_meet hcommand (hrendered head List.mem_cons_self) token htoken
    exact (hiff token htoken).mp ⟨out, hout, hrendered⟩
  · intro hplain
    have hone := fun token htoken => (hiff token htoken).mpr (hplain token htoken)
    obtain ⟨command, hcommand⟩ := mapM_returns.mpr fun token htoken => (hone token htoken).imp
      fun _ h => h.1
    have hpairs := (List.forall₂_and_left _ _).mpr ⟨hone, mapM_eq_ok.mp hcommand⟩
    refine ⟨command, (batchCommand_ok hengine).mpr hcommand, hpairs.length_eq.symm, ?_⟩
    intro job hjob
    have hlookup : ∀ name, job.options.lookup name = head.options.lookup name := by
      intro name
      rcases List.mem_cons.mp hjob with rfl | hrest
      · rfl
      · exact lookup_of_sameOptions hfloats hhead (htyped job hjob) (hgroup job hrest) name
    refine hpairs.imp fun token out h => ?_
    obtain ⟨⟨out', hout', hrendered⟩, hout⟩ := h
    rw [Except.ok.inj (hout.symm.trans hout')]
    exact hrendered.congr hlookup

end Commands

/-! ## Concrete commands -/

/-- A host without floats. -/
def wholeHost : Host Unit where
  floats := ⟨fun _ => nanName, fun _ => ()⟩
  floatStr := fun _ => "nan"
  isFinite := fun _ => false
  floatEq := fun _ _ => false
  floatEqInt := fun _ _ => false
  inFloatRange := fun _ => true
  intDigits := 4300
  parseInt := String.toInt?
  parseFloat := fun _ => none

/-- One option, neither required nor with a default. -/
def languageOptions : Value Unit :=
  .obj [("language", .obj [("type", .str "string"), ("required", .bool false)])]

/-- One adapter, whose command takes the option and a path below the home. -/
def languageAdapters : Value Unit :=
  .obj [("studio", .obj [("engine", .str "asr"),
    ("argv", .arr [.str "~/bin/asr", .str "{stage}", .str "{opt:language}"]),
    ("pool", .bool false), ("memory_kind", .str "none"), ("capability_paths", .arr []),
    ("provides", .arr [])])]

def languageDeclared : Options Unit := Dict.empty.set "language" ⟨.string, false, none, none⟩

def languageAdapter : Adapter where
  engine := "asr"
  argv := ["~/bin/asr", "{stage}", "{opt:language}"]
  outputRoot := none
  pool := none
  memoryKind := .none
  capabilityPaths := []
  provides := []

theorem languageOptions_accepted :
    validateOptions wholeHost (some languageOptions) = .ok languageDeclared := by
  rfl

theorem languageAdapters_accepted :
    validateAdapters ["studio"] false languageDeclared languageAdapters =
      .ok [("studio", languageAdapter)] := by
  rfl

def languagePlan : StagePlan := ⟨"/tmp/b/in", "/tmp/b/remrun_batch.json", "/tmp/b"⟩

def languageJob (options : Table Unit) : Job Unit := ⟨options, none, none⟩

/-- An accepted submission that leaves the option out has no command, and of one whose value
starts with a tilde the value is altered. -/
theorem option_lost_or_altered :
    validateOptions wholeHost (some languageOptions) = .ok languageDeclared ∧
      validateAdapters ["studio"] false languageDeclared languageAdapters =
        .ok [("studio", languageAdapter)] ∧
      typedOptions wholeHost languageDeclared [] = .ok [] ∧
      planStage (.posix "/home/u") "/tmp/b" (languageJob []) languageAdapter =
        .ok languagePlan ∧
      batchCommand wholeHost (.posix "/home/u") languagePlan (languageJob []) languageAdapter =
        .error (.noOption "language") ∧
      typedOptions wholeHost languageDeclared [("language", .str "~")] =
        .ok [("language", .str "~")] ∧
      batchCommand wholeHost (.posix "/home/u") languagePlan
          (languageJob [("language", .str "~")]) languageAdapter =
        .ok ["/home/u/bin/asr", "/tmp/b/in", "/home/u"] :=
  ⟨languageOptions_accepted, languageAdapters_accepted, rfl, rfl, rfl, rfl, rfl⟩

theorem command_exact_iff_plain_language :
    (∃ command, batchCommand wholeHost (.posix "/home/u") languagePlan
        (languageJob [("language", .str "en")]) languageAdapter = .ok command ∧
      command.length = 3 ∧
      ∀ job ∈ [languageJob [("language", .str "en")]],
        List.Forall₂ (Rendered wholeHost (.posix "/home/u") languagePlan job.options)
          languageAdapter.argv command) ↔
      ∀ token ∈ languageAdapter.argv, Plain wholeHost (.posix "/home/u") languagePlan
        languageDeclared [("language", .str "en")] token := by
  have htyped : ∀ job ∈ [languageJob [("language", .str "en")]],
      typedOptions wholeHost languageDeclared [("language", .str "en")] = .ok job.options := by
    intro job hjob
    rw [List.mem_singleton.mp hjob]
    rfl
  exact command_exact_iff_plain wholeHost ⟨fun _ => Or.inl List.mem_cons_self, fun _ => rfl⟩
    (some languageOptions) languageAdapters ["studio"] false languageDeclared
    [("studio", languageAdapter)] languageOptions_accepted languageAdapters_accepted "studio"
    languageAdapter List.mem_cons_self (languageJob [("language", .str "en")]) []
    (fun _ => [("language", .str "en")]) htyped (fun _ hmem => absurd hmem List.not_mem_nil)
    nofun (.posix "/home/u") "/tmp/b" languagePlan rfl

end Remrun.Fleet.Tasks
