import Remrun.Frames.Wire

/-!
# Tar frames

A tar frame declares its members in the header and carries them in an archive. The reader stages
every member it can check under a directory of its own, and removes that directory when anything
goes wrong. How archives are written and read is a parameter.
-/

namespace Remrun.Frames
open JsonText

set_option autoImplicit false

universe u

/-! ## Archives -/

structure TarMember where
  name : String
  mode : Option Int
  data : Body

inductive EntryKind where
  | directory
  | regular
  | other
  deriving DecidableEq, Repr

/-- What `extracted.read()` comes to. -/
inductive Content where
  | bytes (payload : Bytes)
  | tarError
  | raised

structure Entry where
  name : String
  kind : EntryKind
  size : Nat
  /-- `none` where `extractfile` gives none. -/
  content : Option Content

/-- How going over an archive ends: at its end, with a `TarError` or with another exception. -/
inductive Ending where
  | done
  | tarError
  | raised
  deriving DecidableEq, Repr

structure Reading where
  entries : List Entry
  ending : Ending

/-- `tarfile`. -/
structure Tar where
  write : List TarMember → Body
  read : Bytes → Reading

def TarMember.entry (m : TarMember) : Entry where
  name := m.name
  kind := .regular
  size := m.data.bytes.length
  content := some (.bytes m.data.bytes)

/-- What is assumed of `tarfile`: members whose names hold no NUL are read back as written. -/
def Tar.ReadsBack (tar : Tar) (members : List TarMember) : Prop :=
  (∀ m ∈ members, '\x00' ∉ m.name.toList) →
    tar.read (tar.write members).bytes = ⟨members.map TarMember.entry, .done⟩

/-! ## The staging directory -/

/-- Which names a file system can give, and when it takes two for one. -/
structure FileSystem where
  names : String → Bool
  fold : String → String
  noNul : ∀ name, names name = true → '\x00' ∉ name.toList

def partsOf (path : String) : List String := (path.toList.splitOn '/').map String.ofList

/-- Where a path leads, in the file system's own terms. -/
def FileSystem.key (fs : FileSystem) (path : String) : List String := (partsOf path).map fs.fold

structure StagedFile where
  key : List String
  bytes : Bytes
  deriving DecidableEq, Repr

/-- The files under a staging directory. A directory is there when it holds something: only the
parents of members are made. -/
abbrev Disk := List StagedFile

/-- A file stands where a directory is needed. -/
def under (key below : List String) : Bool := key.isPrefixOf below && key != below

/-- `dest.parent.mkdir(parents=True, exist_ok=True)` and the write, or `none` when one raises. -/
def stage (fs : FileSystem) (disk : Disk) (path : String) (payload : Bytes) : Option Disk :=
  if !(partsOf path).all fs.names then none
  else if disk.any fun file => under file.key (fs.key path) || under (fs.key path) file.key then none
  else some (disk.filter (fun file => file.key != fs.key path) ++ [⟨fs.key path, payload⟩])

/-! ## Paths of members -/

/-- Why a tar frame is refused: what a `FrameError` says. -/
inductive Refusal where
  | badFrame (error : FrameError)
  | notTar
  | emptyPath
  | unsafePath (name : String)
  | duplicateDeclared (path : String)
  | nonRegular (name : String)
  | undeclared (path : String)
  | duplicateMember (path : String)
  | sizeMismatch (path : String)
  | noData (path : String)
  | digestMismatch (path : String)
  | corruptArchive
  | missing (paths : List String)
  deriving DecidableEq, Repr

inductive Raised where
  | frameError (refusal : Refusal)
  | keyError (key : String)
  | typeError
  | attributeError
  | osError
  | other
  deriving DecidableEq, Repr

/-- `name.replace("\\", "/")`. -/
def normalized (name : String) : String :=
  String.ofList (name.toList.map fun c => if c = '\\' then '/' else c)

def safeMemberPath (name : String) : Except Refusal String :=
  if name = "" then .error .emptyPath
  else if (normalized name).toList.head? = some '/' ∨ ':' ∈ (normalized name).toList then
    .error (.unsafePath name)
  else if (partsOf (normalized name)).any fun p => p = "" || p = "." || p = ".." then
    .error (.unsafePath name)
  else .ok (normalized name)

/-! ## Writing -/

section Codec
variable {F : Type u} (W : Wire F) (tar : Tar)

/-- A member to be framed. -/
structure Member where
  path : String
  data : Body
  mode : Option Int

def specOf (path : String) (m : Member) : Value F :=
  .obj [("path", .str path), ("size", .int m.data.bytes.length),
    ("sha256", .str (W.sha256 m.data.bytes)), ("mtime_ns", .int 0),
    ("mode", m.mode.elim .null .int)]

def tarHeader (transferId : String) (specs : List (Value F)) : List (String × Value F) :=
  [("v", .int 2), ("transfer_id", .str transferId), ("kind", .str "tar"), ("members", .arr specs)]

theorem specOf_proper (path : String) (m : Member) : (specOf W path m).Proper := by
  refine .obj _ (show ["path", "size", "sha256", "mtime_ns", "mode"].Nodup by decide) fun e he => ?_
  simp only [List.mem_cons, List.not_mem_nil, or_false] at he
  rcases he with rfl | rfl | rfl | rfl | rfl
  · exact .str _
  · exact .int _
  · exact .str _
  · exact .int _
  · cases m.mode with
    | none => exact .null
    | some mode => exact .int _

/-- The members under their checked paths. -/
def checkedMembers : List Member → Except Refusal (List (String × Member))
  | [] => .ok []
  | m :: rest =>
    match safeMemberPath m.path with
    | .error e => .error e
    | .ok path =>
      match checkedMembers rest with
      | .error e => .error e
      | .ok checked => .ok ((path, m) :: checked)

def tarFrameHeader (transferId : String) (checked : List (String × Member)) : Header F where
  members := ⟨tarHeader transferId (checked.map fun e => specOf W e.1 e.2), by
    simp only [tarHeader, List.map_cons, List.map_nil, id]
    decide⟩
  proper := by
    intro e he
    simp only [tarHeader, List.mem_cons, List.not_mem_nil, or_false] at he
    rcases he with rfl | rfl | rfl | rfl
    · exact .int _
    · exact .str _
    · exact .str _
    · refine .arr _ fun v hv => ?_
      obtain ⟨m, -, rfl⟩ := List.mem_map.mp hv
      exact specOf_proper W m.1 m.2

def tarMembers (checked : List (String × Member)) : List TarMember :=
  checked.map fun e => ⟨e.1, e.2.mode, e.2.data⟩

def archiveOf (checked : List (String × Member)) : Body := tar.write (tarMembers checked)

def encodeTarFrame (members : List Member) (transferId : String) : Except Refusal Bytes :=
  match checkedMembers members with
  | .error e => .error e
  | .ok checked =>
    .ok (encodeFrame W (tarFrameHeader W transferId checked) (archiveOf tar checked).bytes)

/-! ## Reading -/

variable (fs : FileSystem)

/-- `not value`. -/
def falsy : Value F → Bool
  | .null => true
  | .bool b => !b
  | .int n => n = 0
  | .float x => W.floatIs x 0
  | .str s => s = ""
  | .arr items => items.isEmpty
  | .obj members => members.isEmpty

/-- `_safe_member_path` of whatever the header holds. -/
def safePathOf (value : Value F) : Except Raised String :=
  if falsy W value then .error (.frameError .emptyPath)
  else
    match value with
    | .str name =>
      match safeMemberPath name with
      | .error e => .error (.frameError e)
      | .ok path => .ok path
    | _ => .error .attributeError

/-- What a loop over `header.get("members", [])` goes over. -/
def itemsOf (header : Members F) : Except Raised (List (Value F)) :=
  match header.lookup "members" with
  | none => .ok []
  | some (.arr items) => .ok items
  | some (.str s) => .ok (s.toList.map fun c => .str (String.singleton c))
  | some (.obj members) => .ok (members.map fun e => .str e.1)
  | some _ => .error .typeError

/-- The specs of the declared members, in order, under their paths. -/
abbrev Declared (F : Type u) := List (String × Members F)

def declare (declared : Declared F) (member : Value F) : Except Raised (Declared F) :=
  match member with
  | .obj spec =>
    match spec.lookup "path" with
    | none => .error (.keyError "path")
    | some value =>
      match safePathOf W value with
      | .error e => .error e
      | .ok path =>
        if path ∈ declared.map Prod.fst then .error (.frameError (.duplicateDeclared path))
        else .ok (declared ++ [(path, spec)])
  | _ => .error .typeError

structure Staged where
  observed : List String
  disk : Disk
  deriving DecidableEq, Repr

/-- What is done with a member whose data was read. -/
def checkPayload (s : Staged) (path : String) (spec : Members F) (payload : Bytes) :
    Except Raised Staged :=
  match spec.lookup "sha256" with
  | none => .error (.keyError "sha256")
  | some digest =>
    if !equalsText (W.sha256 payload) (some digest) then
      .error (.frameError (.digestMismatch path))
    else
      match stage fs s.disk path payload with
      | none => .error .osError
      | some disk => .ok ⟨s.observed ++ [path], disk⟩

def checkMember (s : Staged) (info : Entry) (path : String) (spec : Members F) :
    Except Raised Staged :=
  match spec.lookup "size" with
  | none => .error (.keyError "size")
  | some size =>
    if !equalsNat W info.size (some size) then .error (.frameError (.sizeMismatch path))
    else
      match info.content with
      | none => .error (.frameError (.noData path))
      | some .tarError => .error (.frameError .corruptArchive)
      | some .raised => .error .other
      | some (.bytes payload) => checkPayload W fs s path spec payload

def stageEntry (declared : Declared F) (s : Staged) (info : Entry) : Except Raised Staged :=
  match info.kind with
  | .directory => .ok s
  | .other => .error (.frameError (.nonRegular info.name))
  | .regular =>
    match safeMemberPath info.name with
    | .error e => .error (.frameError e)
    | .ok path =>
      match declared.lookup path with
      | none => .error (.frameError (.undeclared path))
      | some spec =>
        if path ∈ s.observed then .error (.frameError (.duplicateMember path))
        else checkMember W fs s info path spec

/-- Going over the archive, and the comparison with what was declared. -/
def stageArchive (declared : Declared F) (reading : Reading) (disk : Disk) : Except Raised Staged :=
  match reading.entries.foldlM (stageEntry W fs declared) ⟨[], disk⟩ with
  | .error e => .error e
  | .ok s =>
    match reading.ending with
    | .tarError => .error (.frameError .corruptArchive)
    | .raised => .error .other
    | .done =>
      if (declared.map Prod.fst).all fun path => path ∈ s.observed then .ok s
      else .error (.frameError (.missing
        (((declared.map Prod.fst).filter fun path => path ∉ s.observed).insertionSort (· ≤ ·))))

/-- The members staged, and the staging directory afterwards; `none` where it does not exist. -/
def verifyTarFrame (data : Bytes) (staging : Option Disk) :
    Except Raised (List String) × Option Disk :=
  match decodeFrame W data with
  | .error e => (.error (.frameError (.badFrame e)), staging)
  | .ok (header, archive) =>
    if !equalsNat W 2 (header.lookup "v") || !equalsText "tar" (header.lookup "kind") then
      (.error (.frameError .notTar), staging)
    else
      match (itemsOf header).bind fun items => items.foldlM (declare W) [] with
      | .error e => (.error e, staging)
      | .ok declared =>
        match stageArchive W fs declared (tar.read archive) (staging.getD []) with
        | .error e => (.error e, none)
        | .ok s => (.ok s.observed, some s.disk)

end Codec

end Remrun.Frames
