import Mathlib.Data.String.Basic

/-!
# Where environments lie

`_external_venv` of `runenv.py` resolves the environment of a project with a bootstrap. Its name
is the last part of the project id unless the project names another, so two projects may get one
environment.
-/

namespace Remrun.Bootstrap

set_option autoImplicit false

/-- `posixpath` or `ntpath`. -/
structure PathModule where
  windows : Bool
  isabs : String → Bool
  normpath : String → String
  normcase : String → String

structure Device where
  name : String
  venvRoot : String

/-- The `[run]` table of a project, as far as it is read here. -/
structure RunConfig where
  /-- `[run.venv]` -/
  venv : List (String × String)
  venvLayout : Option String
  venvName : Option String

def stripSeparators (chars : List Char) : List Char :=
  let isSeparator := fun c => c = '/' || c = '\\'
  ((chars.dropWhile isSeparator).reverse.dropWhile isSeparator).reverse

def rstripSeparators (chars : List Char) : List Char :=
  (chars.reverse.dropWhile fun c => c = '/' || c = '\\').reverse

section
variable (M : PathModule)

def separator : Char := if M.windows then '\\' else '/'

/-- `_native_join` with one part. -/
def nativeJoin (base part : String) : String :=
  if part = "" then String.ofList (rstripSeparators base.toList)
  else String.ofList (rstripSeparators base.toList ++ separator M :: stripSeparators part.toList)

/-- `_safe_venv_name`. -/
def safeVenvName (value : String) : Except String String :=
  if value = "" ∨ '\x00' ∈ value.toList then .error "venv_name must be a non-empty path component"
  else if value = "." ∨ value = ".." ∨ '/' ∈ value.toList ∨ '\\' ∈ value.toList then
    .error "venv_name must be one safe path component"
  else .ok value

def homeRelative (raw : String) : Bool :=
  raw = "~" || "~/".toList.isPrefixOf raw.toList ||
    (M.windows && "~\\".toList.isPrefixOf raw.toList)

/-- `_canonical_config_path`. -/
def canonicalConfigPath (raw label : String) : Except String String :=
  if raw = "" ∨ '\x00' ∈ raw.toList then .error (label ++ " must be a non-empty path")
  else if !M.windows && '\\' ∈ raw.toList then
    .error (label ++ " must use native POSIX path syntax")
  else if homeRelative M raw then
    let rest := (M.normpath (String.ofList (raw.toList.drop 1))).toList
    let rest := if M.windows then rest.map fun c => if c = '/' then '\\' else c else rest
    .ok (String.ofList ((('~' :: rest).reverse.dropWhile (· = separator M)).reverse))
  else if !M.isabs raw then .error (label ++ " must be absolute or home-relative")
  else .ok (M.normpath raw)

/-- `_path_is_strictly_under`. -/
def pathIsStrictlyUnder (path root : String) : Bool :=
  let normPath := M.normcase (M.normpath path)
  let normRoot := String.ofList (rstripSeparators (M.normcase (M.normpath root)).toList)
  normPath ≠ normRoot && (normRoot.toList ++ [separator M]).isPrefixOf normPath.toList

/-- The last part of a project id. -/
def projectLeaf (projectId : String) : String :=
  let chars := projectId.toList.map fun c => if c = '\\' then '/' else c
  let trimmed := (chars.reverse.dropWhile (· = '/')).reverse
  String.ofList (trimmed.reverse.takeWhile (· ≠ '/')).reverse

def venvName (run : RunConfig) (projectId : String) : String :=
  run.venvName.getD (projectLeaf projectId)

/-- `_external_venv`. -/
def externalVenv (device : Device) (projectId : String) (run : RunConfig) :
    Except String (String × String) := do
  let root ← canonicalConfigPath M device.venvRoot "device.venv_root"
  let venv ← match run.venv.lookup device.name with
    | some override => canonicalConfigPath M override ("[run.venv]." ++ device.name)
    | none =>
      if run.venvLayout ≠ some "external" then
        .error ("[run.bootstrap] requires venv_layout = 'external' or a confined device override")
      else do
        let name ← safeVenvName (venvName run projectId)
        .ok (nativeJoin M root name)
  if pathIsStrictlyUnder M venv root then .ok (root, venv)
  else .error "bootstrap virtualenv must be strictly under device.venv_root"

/-- The environment depends on the project only through its name. -/
theorem externalVenv_shared (device : Device) {projectId projectId' : String} {run run' : RunConfig}
    (hvenv : run.venv = run'.venv) (hlayout : run.venvLayout = run'.venvLayout)
    (hname : venvName run projectId = venvName run' projectId') :
    externalVenv M device projectId run = externalVenv M device projectId' run' := by
  unfold externalVenv
  rw [hvenv, hlayout, hname]

/-- Without names of their own, projects with one leaf share their environment. -/
theorem externalVenv_leaf (device : Device) {projectId projectId' : String} {run : RunConfig}
    (hnone : run.venvName = none) (hleaf : projectLeaf projectId = projectLeaf projectId') :
    externalVenv M device projectId run = externalVenv M device projectId' run := by
  refine externalVenv_shared M device rfl rfl ?_
  rw [venvName, venvName, hnone, Option.getD_none, Option.getD_none, hleaf]

end

example : projectLeaf "alpha/tool" = projectLeaf "beta/tool" := by decide

end Remrun.Bootstrap
