import Remrun.Lib.Dict
import Remrun.Lib.Effect
import Remrun.Lib.JsonText

/-!
# Options and adapters of a configured task

The two tables of a task definition that decide what its command is made of: the options with
their types, defaults and allowed values, and for each device an adapter, whose argument vector
may hold placeholders.
-/

namespace Remrun.Fleet.Tasks

open Effect JsonText Keyed
set_option autoImplicit false

variable {F : Type}

/-! ## Values of a configuration -/

/-- The members of a table. Dates and times, which have the wrong type everywhere, are left out. -/
abbrev Table (F : Type) := List (String × Value F)

/-- What the standard library does with numbers and texts. -/
structure Host (F : Type) where
  floats : FloatText F
  /-- `str` of a float -/
  floatStr : F → String
  isFinite : F → Bool
  floatEq : F → F → Bool
  floatEqInt : F → Int → Bool
  /-- `float(n)` does not overflow -/
  inFloatRange : Int → Bool
  /-- the digits that the text of a whole number may have -/
  intDigits : Nat
  parseInt : String → Option Int
  parseFloat : String → Option F

inductive Fault where
  | mustBeTable (field : String)
  | unknownFields (field : String) (names : List String)
  | missingFields (field : String) (names : List String)
  | mustBeOneOf (field : String) (choices : List String)
  | mustBeBoolean (field : String)
  | mustBeToken (field : String)
  | mustBeList (field : String)
  | mustBeArgv (field : String)
  | mustHoldStrings (field : String)
  | mustNameExecutable (field : String)
  | invalidOptionName (name : String)
  | mustMatchType (field : String) (kind : String)
  | defaultForbidden (name : String)
  | mustHaveValues (name : String)
  | defaultOutside (name : String)
  | noAdapters
  | unknownDevice (device : String)
  | mustBeTargetPath (field : String)
  | outputRootRequired (device : String)
  | mustBePathList (field : String)
  | badPlaceholder (device : String)
  /-- an `OverflowError` of `float(n)`, which is no contract error -/
  | overflow
  deriving DecidableEq, Repr

/-- The names of a set in order. -/
def sortNames (names : List String) : List String := names.dedup.insertionSort (· ≤ ·)

def raiseIf (condition : Prop) [Decidable condition] (fault : Fault) : Except Fault Unit :=
  if condition then .error fault else .ok ()

theorem raiseIf_ok {condition : Prop} [Decidable condition] {fault : Fault} {u : Unit} :
    raiseIf condition fault = .ok u ↔ ¬condition := by
  unfold raiseIf
  split <;> simp [*]

/-- `_table`. -/
def table (value : Value F) (field : String) : Except Fault (Table F) :=
  match value with
  | .obj members => .ok members
  | _ => .error (.mustBeTable field)

/-- `_closed`. -/
def closed (members : Table F) (allowed : List String) (field : String) : Except Fault Unit :=
  let unknown := sortNames ((members.map Prod.fst).filter fun name => name ∉ allowed)
  raiseIf (unknown ≠ []) (.unknownFields field unknown)

/-- `_required`. -/
def required (members : Table F) (names : List String) (field : String) : Except Fault Unit :=
  let missing := sortNames (names.filter fun name => (members.lookup name).isNone)
  raiseIf (missing ≠ []) (.missingFields field missing)

def get (members : Table F) (name : String) : Value F := (members.lookup name).getD .null

/-- `_enum`. -/
def enum {α : Type} (text : α → String) (choices : List α) (value : Value F) (field : String) :
    Except Fault α :=
  let fault := Fault.mustBeOneOf field (sortNames (choices.map text))
  match value with
  | .str s => ((choices.find? fun choice => text choice = s).map .ok).getD (.error fault)
  | _ => .error fault

/-- `_bool`. -/
def bool (value : Value F) (field : String) : Except Fault Bool :=
  match value with
  | .bool b => .ok b
  | _ => .error (.mustBeBoolean field)

def isTokenChar (c : Char) : Bool :=
  c.isAlphanum || c = '_' || c = '.' || c = ':' || c = '/' || c = '-'

/-- A letter or a digit, and then also `_`, `.`, `:`, `/` and the hyphen. -/
def isToken (text : String) : Bool :=
  match text.toList with
  | [] => false
  | c :: rest => c.isAlphanum && rest.all isTokenChar

/-- `_token`. -/
def token (value : Value F) (field : String) : Except Fault String :=
  match value with
  | .str s => if isToken s then .ok s else .error (.mustBeToken field)
  | _ => .error (.mustBeToken field)

/-- `_tokens`. -/
def tokens (value : Value F) (field : String) : Except Fault (List String) :=
  match value with
  | .arr items => sortNames <$> items.mapM fun item => token item (field ++ " item")
  | _ => .error (.mustBeList field)

/-- A string without NUL. -/
def plainText : Value F → Option String
  | .str s => if '\x00' ∈ s.toList then none else some s
  | _ => none

/-- `_argv`. -/
def argv (value : Value F) (field : String) : Except Fault (List String) :=
  match value with
  | .arr (item :: items) =>
    match (item :: items).mapM plainText with
    | none => .error (.mustHoldStrings field)
    | some texts =>
      if texts.head? = some "" then .error (.mustNameExecutable (field ++ "[0]")) else .ok texts
  | _ => .error (.mustBeArgv field)

/-! ## Options -/

inductive Kind where
  | string
  | integer
  | number
  | boolean
  deriving DecidableEq, Repr

def Kind.text : Kind → String
  | .string => "string"
  | .integer => "integer"
  | .number => "number"
  | .boolean => "boolean"

def kinds : List Kind := [.string, .integer, .number, .boolean]

/-- The row of an option in a validated definition. -/
structure OptionRow (F : Type) where
  kind : Kind
  required : Bool
  default : Option (Value F)
  values : Option (List (Value F))

abbrev Options (F : Type) := Dict (id : String → String) (OptionRow F)

def isLower (c : Char) : Bool := 'a' ≤ c && c ≤ 'z'

/-- `[a-z][a-z0-9_-]{0,63}`. -/
def isOptionName (name : String) : Bool :=
  match name.toList with
  | [] => false
  | c :: rest => isLower c && rest.length ≤ 63 &&
      rest.all fun c => isLower c || c.isDigit || c = '_' || c = '-'

def reservedOptions : List String := ["argv", "spec_id", "prepared_id", "work_id"]

section Validate
variable (H : Host F)

/-- Whether a value has the type that an option declares. -/
def hasKind (kind : Kind) (value : Value F) : Bool :=
  match kind, value with
  | .string, .str _ => true
  | .integer, .int _ => true
  | .number, .int _ => true
  | .number, .float _ => true
  | .boolean, .bool _ => true
  | _, _ => false

/-- `typed`: a number has to be finite, and `float(n)` may overflow. -/
def typed (kind : Kind) (value : Value F) (field : String) : Except Fault (Value F) := do
  raiseIf (hasKind kind value = false) (.mustMatchType field kind.text)
  match kind, value with
  | .number, .int n => raiseIf (H.inFloatRange n = false) .overflow
  | .number, .float x => raiseIf (H.isFinite x = false) (.mustMatchType field kind.text)
  | _, _ => pure ()
  return value

/-- `==` of two values of one type. -/
def same : Value F → Value F → Bool
  | .str a, .str b => a = b
  | .bool a, .bool b => a = b
  | .int a, .int b => a = b
  | .float x, .float y => H.floatEq x y
  | .float x, .int n => H.floatEqInt x n
  | .int n, .float x => H.floatEqInt x n
  | _, _ => false

/-- The part of `_validate_options` about the allowed values. -/
def allowedValues (name : String) (kind : Kind) : Value F → Except Fault (List (Value F))
  | .arr (item :: items) =>
    (item :: items).mapM fun item => typed H kind item ("options." ++ name ++ ".values")
  | _ => .error (.mustHaveValues name)

/-- A member of an option that may be left out. -/
def optional {α : Type} (members : Table F) (name : String) (read : Value F → Except Fault α) :
    Except Fault (Option α) :=
  match members.lookup name with
  | none => .ok none
  | some value => some <$> read value

/-- The loop body of `_validate_options`. -/
def validateOption (name : String) (value : Value F) : Except Fault (OptionRow F) := do
  raiseIf (isOptionName name = false ∨ name ∈ reservedOptions) (.invalidOptionName name)
  let spec ← table value ("options." ++ name)
  closed spec ["type", "required", "default", "values"] ("options." ++ name)
  required spec ["type", "required"] ("options." ++ name)
  let kind ← enum Kind.text kinds (get spec "type") ("options." ++ name ++ ".type")
  let isRequired ← bool (get spec "required") ("options." ++ name ++ ".required")
  raiseIf ((spec.lookup "default").isSome ∧ isRequired = true) (.defaultForbidden name)
  let default ← optional spec "default" fun value =>
    typed H kind value ("options." ++ name ++ ".default")
  let values ← optional spec "values" (allowedValues H name kind)
  match default, values with
  | some value, some values => raiseIf ((values.any (same H value)) = false) (.defaultOutside name)
  | _, _ => pure ()
  return ⟨kind, isRequired, default, values⟩

/-- A table whose values are validated one after the other. -/
def validateRows {α : Type} (validate : String → Value F → Except Fault α) (members : Table F) :
    Except Fault (List (String × α)) :=
  members.mapM fun member => (member.1, ·) <$> validate member.1 member.2

/-- `_validate_options`. -/
def validateOptions (raw : Option (Value F)) : Except Fault (Options F) :=
  match raw with
  | none => .ok Dict.empty
  | some value => do
    let members ← table value "options"
    let rows ← validateRows (validateOption H) members
    return rows.foldl (fun out row => out.set row.1 row.2) Dict.empty

/-! ## Adapters -/

inductive MemoryKind where
  | none
  | cpu
  | gpu
  deriving DecidableEq, Repr

def MemoryKind.text : MemoryKind → String
  | .none => "none"
  | .cpu => "cpu"
  | .gpu => "gpu"

structure Adapter where
  engine : String
  argv : List String
  outputRoot : Option String
  /-- `none` where the pool is `false` -/
  pool : Option String
  memoryKind : MemoryKind
  capabilityPaths : List String
  provides : List String
  deriving DecidableEq, Repr

def placeholders : List String := ["{stage}", "{manifest}", "{output_root}"]

/-- The name inside `{opt:…}`. -/
def optionOf (token : String) : Option String :=
  if "\x7bopt:".toList.isPrefixOf token.toList && token.toList.getLast? = some '\x7d' then
    some (String.ofList (token.toList.drop 5).dropLast)
  else none

def hasBrace (token : String) : Bool := token.toList.any fun c => c = '{' || c = '}'

/-- A token with a brace is a placeholder, or names a declared option. -/
def validToken (options : Options F) (token : String) : Bool :=
  !hasBrace token || token ∈ placeholders ||
    (optionOf token).any fun name => (options.get name).isSome

/-- A path: a string that is neither empty nor holds a NUL. -/
def targetPath (value : Value F) : Option String := (plainText value).filter (· ≠ "")

def outputRoot (spec : Table F) (device : String) : Except Fault (Option String) :=
  match spec.lookup "output_root" with
  | none | some .null => .ok none
  | some value => ((targetPath value).map fun path => .ok (some path)).getD
      (.error (.mustBeTargetPath ("adapters." ++ device ++ ".output_root")))

def pool (value : Value F) (field : String) : Except Fault (Option String) :=
  match value with
  | .bool false => .ok none
  | value => some <$> token value field

def capabilityPaths (value : Value F) (field : String) : Except Fault (List String) :=
  match value with
  | .arr items => ((items.mapM targetPath).map .ok).getD (.error (.mustBePathList field))
  | _ => .error (.mustBePathList field)

/-- The loop body of `_validate_adapters`. `bearsOutput` is whether outputs are reserved or
verified. -/
def validateAdapter (devices : List String) (bearsOutput : Bool) (options : Options F)
    (device : String) (value : Value F) : Except Fault Adapter := do
  let field := "adapters." ++ device
  raiseIf (device ∉ devices) (.unknownDevice device)
  let spec ← table value field
  closed spec ["engine", "argv", "output_root", "pool", "memory_kind", "capability_paths",
    "provides"] field
  required spec ["engine", "argv", "pool", "memory_kind", "capability_paths", "provides"] field
  let argv ← argv (get spec "argv") (field ++ ".argv")
  let outputRoot ← outputRoot spec device
  raiseIf ((bearsOutput = true ∨ "{output_root}" ∈ argv) ∧ outputRoot = none)
    (.outputRootRequired device)
  let pool ← pool (get spec "pool") (field ++ ".pool")
  let capabilityPaths ← capabilityPaths (get spec "capability_paths") (field ++ ".capability_paths")
  raiseIf ((argv.all (validToken options)) = false) (.badPlaceholder device)
  let engine ← token (get spec "engine") (field ++ ".engine")
  let memoryKind ← enum MemoryKind.text [.none, .cpu, .gpu] (get spec "memory_kind")
    (field ++ ".memory_kind")
  let provides ← tokens (get spec "provides") (field ++ ".provides")
  return { engine, argv, outputRoot, pool, memoryKind, capabilityPaths, provides }

/-- `_validate_adapters`. -/
def validateAdapters (devices : List String) (bearsOutput : Bool) (options : Options F)
    (raw : Value F) : Except Fault (List (String × Adapter)) := do
  let members ← table raw "adapters"
  raiseIf (members.isEmpty = true) .noAdapters
  validateRows (validateAdapter devices bearsOutput options) members

/-! ## What acceptance says -/

variable {H : Host F} {devices : List String} {bearsOutput : Bool} {options : Options F}

theorem validateAdapter_tokens {device : String} {value : Value F} {adapter : Adapter}
    (h : validateAdapter devices bearsOutput options device value = .ok adapter) :
    ∀ token ∈ adapter.argv, validToken options token = true := by
  obtain ⟨_, -, h⟩ := bind_eq_ok.mp h
  obtain ⟨spec, -, h⟩ := bind_eq_ok.mp h
  obtain ⟨_, -, h⟩ := bind_eq_ok.mp h
  obtain ⟨_, -, h⟩ := bind_eq_ok.mp h
  obtain ⟨argv, -, h⟩ := bind_eq_ok.mp h
  obtain ⟨outputRoot, -, h⟩ := bind_eq_ok.mp h
  obtain ⟨_, -, h⟩ := bind_eq_ok.mp h
  obtain ⟨pool, -, h⟩ := bind_eq_ok.mp h
  obtain ⟨capabilityPaths, -, h⟩ := bind_eq_ok.mp h
  obtain ⟨_, hvalid, h⟩ := bind_eq_ok.mp h
  obtain ⟨engine, -, h⟩ := bind_eq_ok.mp h
  obtain ⟨memoryKind, -, h⟩ := bind_eq_ok.mp h
  obtain ⟨provides, -, h⟩ := bind_eq_ok.mp h
  rw [← pure_eq_ok.mp h]
  have hall := raiseIf_ok.mp hvalid
  rw [Bool.not_eq_false] at hall
  exact List.all_eq_true.mp hall

theorem validateAdapters_tokens {raw : Value F} {adapters : List (String × Adapter)}
    (h : validateAdapters devices bearsOutput options raw = .ok adapters) {device : String}
    {adapter : Adapter} (hmem : (device, adapter) ∈ adapters) :
    ∀ token ∈ adapter.argv, validToken options token = true := by
  obtain ⟨members, -, h⟩ := bind_eq_ok.mp h
  obtain ⟨_, -, h⟩ := bind_eq_ok.mp h
  obtain ⟨member, _, hrow⟩ := (mem_of_mapM h).mp hmem
  obtain ⟨adapter', hvalid, heq⟩ := map_eq_ok.mp hrow
  obtain ⟨rfl, rfl⟩ := Prod.mk.inj heq
  exact validateAdapter_tokens hvalid

end Validate

end Remrun.Fleet.Tasks
