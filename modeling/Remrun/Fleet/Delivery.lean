import Remrun.Fleet.Results
import Remrun.Lib.Links

/-!
# Returning outputs

`_return_outputs` on the controller: an output is fetched to a temporary file beside its
destination, verified, and installed only where nothing stands. Other processes add to the tree at
any time, but no link while a file is delivered. A temporary file has a name that nothing else has
and is kept apart from the tree.
-/

namespace Remrun.Fleet.Delivery

open Effect Links Results JsonText
set_option autoImplicit false

variable {N F : Type}

abbrev Bytes := List UInt8

inductive Fault where
  | osError (why : String)
  /-- a `FileExistsError`, which is an `OSError` -/
  | fileExists (why : String)
  | transportError (why : String)
  | ownershipLost
  /-- any other exception -/
  | raised (why : String)
  deriving DecidableEq, Repr

/-! ## The surroundings -/

/-- What is so at one moment of a run. -/
structure Moment (N : Type) where
  /-- what other processes put where nothing stands -/
  adds : List (Path N × Links.Node N Bytes)
  /-- what the call under way raises -/
  fault : Option Fault
  /-- `before_output_return()` -/
  owned : Bool
  /-- `os.path.ismount` -/
  mounts : Path N → Bool
  /-- the digest of the output on the target -/
  digest : String
  /-- what the transfer writes, unless it makes no file -/
  content : Option Bytes
  /-- whether a temporary file can be removed -/
  removes : Bool

structure Controller (N : Type) where
  windows : Bool
  /-- the entry that a part of a path names; file systems tell names apart in their own ways -/
  entry : String → N
  /-- where a part leads that names a drive, as `D:x` does on Windows -/
  drive : String → Option (List (Step N))
  /-- the path that a return root names -/
  absolute : String → List (Step N)
  /-- how many links a path may go through -/
  links : Nat
  sha256 : Bytes → String
  moment : Nat → Moment N

/-- What was put where, and what return roots were found to be. -/
inductive Deed (N : Type) where
  | theirs (path : Path N) (node : Links.Node N Bytes)
  | resolved (root : String) (base : Path N)
  | made (path : Path N)
  /-- a temporary file -/
  | filled (dir : Path N)
  | installed (path : Path N) (content : Bytes)

def Deed.node : Deed N → Option (Path N × Links.Node N Bytes)
  | .theirs path node => some (path, node)
  | .made path => some (path, .dir)
  | .installed path content => some (path, .file content)
  | .resolved _ _ | .filled _ => none

structure Temp (N : Type) where
  dir : Path N
  content : Bytes

structure Local (N : Type) where
  tree : Tree N Bytes
  /-- the temporary file of the delivery under way -/
  tmp : Option (Temp N)
  /-- temporary files that could not be removed -/
  left : List (Temp N)
  now : Nat
  /-- `output_return_started` -/
  started : Bool
  /-- the last deed first -/
  log : List (Deed N)

def Local.start (tree : Tree N Bytes) : Local N := ⟨tree, none, [], 0, false, []⟩

abbrev M (N : Type) := EStateM Fault (Local N)

section Operations
variable [DecidableEq N] (c : Controller N)

def Local.record (s : Local N) (deed : Deed N) : Local N :=
  { s with
    tree := match deed.node with
      | some (path, node) => s.tree.put path node
      | none => s.tree
    log := deed :: s.log }

def Local.add (s : Local N) (entry : Path N × Links.Node N Bytes) : Local N :=
  if (s.tree entry.1).isSome then s else s.record (.theirs entry.1 entry.2)

def tick : M N (Moment N) := do
  let s ← get
  set { s with now := s.now + 1 }
  return c.moment s.now

/-- Other processes between two deliveries. -/
def pass : M N (Moment N) := do
  let m ← tick c
  modify fun s => m.adds.foldl Local.add s
  return m

/-- Other processes while a file is delivered. -/
def meanwhile : M N (Moment N) := do
  let m ← tick c
  modify fun s => (m.adds.filter fun entry => !entry.2.isLink).foldl Local.add s
  return m

def raiseAny (m : Moment N) : M N Unit :=
  match m.fault with
  | some fault => throw fault
  | none => return ()

/-- A call; others may come before it, and it may fail. -/
def attempt : M N (Moment N) := do
  let m ← meanwhile c
  raiseAny m
  return m

/-! ## Destinations -/

/-- `path / part`. -/
def join (path : List (Step N)) (part : String) : List (Step N) :=
  if part = "" ∨ part = "." then path
  else if part = ".." then path ++ [.up]
  else match c.drive part with
    | some start => start
    | none => path ++ [.into (c.entry part)]

/-- The checks of one parent. -/
def checkParent (base : Path N) (cursor : List (Step N)) : M N Unit := do
  let m ← attempt c
  let t := (← get).tree
  let found := stat t c.links cursor
  if isLink t c.links cursor || (found.isSome && (walk t c.links [] cursor).any m.mounts) then
    throw (.transportError "output return path crosses a link or mount boundary")
  else if found.any fun node => !node.isDir then
    throw (.transportError "output return parent is not a directory")
  else if found.isSome && !(walk t c.links [] cursor).any base.isPrefixOf then
    throw (.transportError "output return path escapes its prepared root")
  else return ()

/-- `root.resolve(strict=False)`. -/
def resolveRoot (root : String) : M N (Path N) := do
  let _ ← attempt c
  match walk (← get).tree c.links [] (c.absolute root) with
  | none => throw (.raised "Symlink loop")
  | some base => do
    modify fun s => s.record (.resolved root base)
    return base

/-- `_confined_return_path`. -/
def confinedReturnPath (root : String) (components : List String) : M N (List (Step N)) := do
  let base ← resolveRoot c root
  let _ ← components.dropLast.foldlM (fun cursor component => do
    checkParent c base (join c cursor component)
    return join c cursor component) (base.map .into)
  return components.foldl (join c) (base.map .into)

/-! ## Fetching -/

inductive Route where
  | reused
  | stream
  deriving DecidableEq, Repr

def Route.text : Route → String
  | .reused => "reused"
  | .stream => "stream"

structure Receipt where
  path : String
  route : Route
  bytes : Nat
  sha256 : String

def Receipt.value (receipt : Receipt) : Value F := .obj [
  ("path", .str receipt.path), ("schema", .str "verified-output-v1"),
  ("route", .str receipt.route.text), ("bytes", .int receipt.bytes),
  ("sha256", .str receipt.sha256)]

/-- `dest.exists() or dest.is_symlink()`. -/
def occupied (t : Tree N Bytes) (dest : List (Step N)) : Bool :=
  (stat t c.links dest).isSome || isLink t c.links dest

/-- `dest.is_file() and not dest.is_symlink() and sha256_file(dest) == remote_digest`. -/
def holds (t : Tree N Bytes) (dest : List (Step N)) (digest : String) : Bool :=
  match stat t c.links dest with
  | some (.file content) => !isLink t c.links dest && c.sha256 content = digest
  | _ => false

/-- One directory of `mkdir(parents=True, exist_ok=True)`. -/
def makeDirectory (path : List (Step N)) : M N Unit := do
  let _ ← attempt c
  let t := (← get).tree
  match spot t c.links path with
  | none => throw (.osError "Too many levels of symbolic links")
  | some place =>
    if (t place).isSome then
      if (stat t c.links path).any Node.isDir then return () else throw (.fileExists "File exists")
    else modify fun s => s.record (.made place)

def makeDirectories (path : List (Step N)) : M N Unit := path.inits.tail.forM (makeDirectory c)

def Local.write (s : Local N) (dir : Path N) : Option Bytes → Local N
  | some content => { s.record (.filled dir) with tmp := some ⟨dir, content⟩ }
  | none => s

/-- `fill(tmp)`; a transfer that fails may have written something. -/
def fill (dir : Path N) : M N Unit := do
  let m ← meanwhile c
  modify fun s => s.write dir m.content
  raiseAny m

def readTemp : M N (Temp N) := do
  match (← get).tmp with
  | some tmp => return tmp
  | none => throw (.osError "No such file or directory")

def forget : M N Unit := modify fun s => { s with tmp := none }

/-- `_install_output_no_replace`. A rename takes the temporary file away, a link leaves it. -/
def installOutputNoReplace (dest : List (Step N)) : M N Unit := do
  let _ ← attempt c
  let tmp ← readTemp
  let t := (← get).tree
  match spot t c.links dest with
  | none => throw (.osError "Too many levels of symbolic links")
  | some place =>
    if (t place).isSome then throw (.fileExists "File exists")
    else do
      modify fun s => s.record (.installed place tmp.content)
      if c.windows then forget
      else do
        let _ ← attempt c
        forget

/-- The receipt, with `dest.stat().st_size`. -/
def measured (rel : String) (dest : List (Step N)) (route : Route) (digest : String) :
    M N Receipt := do
  let _ ← attempt c
  match stat (← get).tree c.links dest with
  | some (.file content) => return ⟨rel, route, content.length, "sha256:" ++ digest⟩
  | _ => throw (.osError "No such file or directory")

/-- The destination is there already. -/
def reused (rel : String) (dest : List (Step N)) (digest error : String) : M N Receipt := do
  let _ ← attempt c
  if holds c (← get).tree dest digest then measured c rel dest .reused digest
  else throw (.transportError error)

/-- Whether the destination was still absent. -/
def installed (dest : List (Step N)) : M N Bool :=
  tryCatch (do
    installOutputNoReplace c dest
    return true) fun
    | .fileExists _ => return false
    | fault => throw fault

/-- The body of the `try` of `_fetch_output_local`. -/
def fetchVerified (rel : String) (dest : List (Step N)) (dir : Path N) (digest : String) :
    M N Receipt := do
  fill c dir
  let _ ← attempt c
  let tmp ← readTemp
  if c.sha256 tmp.content ≠ digest then
    throw (.transportError "fetched output digest disagrees with target")
  else do
    let _ ← attempt c
    if ← installed c dest then do
      let _ ← attempt c
      measured c rel dest .stream digest
    else reused c rel dest digest "output return destination appeared with different bytes"

/-- `tmp.unlink(missing_ok=True)`, whose failure is passed over. -/
def removeTemp : M N Unit := do
  let m ← meanwhile c
  modify fun s => if m.removes then { s with tmp := none }
    else { s with tmp := none, left := s.tmp.toList ++ s.left }

/-- `try: ... finally: ...`. -/
def withFinally {α : Type} (body : M N α) (final : M N Unit) : M N α := do
  let result ← tryCatch (Except.ok <$> body) fun fault => return .error fault
  final
  ofExcept result

/-- `_fetch_output_local`. -/
def fetchOutputLocal (rel : String) (dest : List (Step N)) (digest : String) : M N Receipt := do
  let _ ← attempt c
  if occupied c (← get).tree dest then
    reused c rel dest digest "output return destination already exists with different bytes"
  else do
    makeDirectories c dest.dropLast
    match walk (← get).tree c.links [] dest.dropLast with
    | none => throw (.osError "Too many levels of symbolic links")
    | some dir => withFinally (fetchVerified c rel dest dir digest) (removeTemp c)

/-- `fetch_output` of a transport: the digest is taken before the transfer. -/
def fetchOutput (rel : String) (dest : List (Step N)) : M N Receipt := do
  let m ← attempt c
  fetchOutputLocal c rel dest m.digest

/-! ## Rows -/

def returnPath (root rel : String) : M N Receipt := do
  let m ← pass c
  if m.owned = false then throw .ownershipLost
  else do
    modify fun s => { s with started := true }
    let dest ← confinedReturnPath c root (rel.splitOn "/")
    fetchOutput c rel dest

/-- `except (OSError, TransportError)`. -/
def caught {α : Type} : Fault → M N (Except String α)
  | .osError why | .fileExists why | .transportError why => return .error why
  | fault => throw fault

/-- The receipts, and why the rest failed. -/
def returnPaths (root : String) : List String → M N (List Receipt × Option String)
  | [] => return ([], none)
  | rel :: rest => do
    match ← tryCatch (Except.ok <$> returnPath c root rel) caught with
    | .error why => return ([], some why)
    | .ok receipt => do
      let out ← returnPaths root rest
      return (receipt :: out.1, out.2)

variable (returnRoot : String → Option String)

def returnRow (row : Row F) : M N (Row F) :=
  match returnRoot row.item.jobId with
  | none => return row
  | some root =>
    if row.item.publication = .none then return row
    else do
      let out ← returnPaths c root row.item.paths
      match out.2 with
      | some why => return row.returnFailed (out.1.map Receipt.value) why
      | none => return row.delivered root (out.1.map Receipt.value)

/-- `_return_outputs`; the return root of a job is `prepared["output"].get("return_root")`, unless
it is empty. -/
def returnOutputs (rows : List (Row F)) : M N (List (Row F) × Bool) := do
  let delivered ← rows.mapM (returnRow c returnRoot)
  return (delivered, (← get).started)

end Operations

/-! ## What is to hold -/

/-- The return root resolved last. -/
def rootOf : List (Deed N) → Option (String × Path N)
  | [] => none
  | .resolved root base :: _ => some (root, base)
  | _ :: older => rootOf older

/-- The deed is done in the return root; a directory may also be one on the way to the root. -/
def Deed.Within (root : Option (String × Path N)) : Deed N → Prop
  | .made path => ∃ r ∈ root, r.2 <+: path ∨ path <+: r.2
  | .filled dir => ∃ r ∈ root, r.2 <+: dir
  | .installed path _ => ∃ r ∈ root, r.2 <+: path
  | .theirs _ _ | .resolved _ _ => True

/-- Each deed is done in the return root that was resolved last before it. -/
def Within : List (Deed N) → Prop
  | [] => True
  | deed :: older => deed.Within (rootOf older) ∧ Within older

/-- The return root led there, in a tree whose nodes are all left. -/
def Led (c : Controller N) (s : Local N) (root : String) (base : Path N) : Prop :=
  ∃ t : Tree N Bytes, (∀ path node, t path = some node → s.tree path = some node) ∧
    walk t c.links [] (c.absolute root) = some base

/-- Nothing that stood at the start or was put anywhere since is changed or gone, nothing else is
there, the return did all that it did in its return roots, and no temporary file is left. -/
structure Confined (c : Controller N) (tree : Tree N Bytes) (s : Local N) : Prop where
  history : ∀ path node, s.tree path = some node ↔
    tree path = some node ∨ ∃ deed ∈ s.log, deed.node = some (path, node)
  within : Within s.log
  led : ∀ root base, .resolved root base ∈ s.log → Led c s root base
  left : (∀ i, (c.moment i).removes = true) → s.left = []

/-- The output is a file in its return root, with the digest of its receipt. -/
def Held (c : Controller N) (s : Local N) (root : String) (receipt : Receipt) : Prop :=
  ∃ base content, .resolved root base ∈ s.log ∧
    s.tree (base ++ (receipt.path.splitOn "/").map c.entry) = some (.file content) ∧
    receipt.sha256 = "sha256:" ++ c.sha256 content ∧ receipt.bytes = content.length

/-- A row with outputs to return is delivered, with a receipt for each of its outputs and for its
companion, or ends in review; any other row stays as it is. -/
def Settled (c : Controller N) (returnRoot : String → Option String) (s : Local N)
    (row row' : Row F) : Prop :=
  match returnRoot row.item.jobId with
  | none => row' = row
  | some root =>
    if row.item.publication = .none then row' = row
    else (∃ receipts : List Receipt, row' = row.delivered root (receipts.map Receipt.value) ∧
        receipts.map Receipt.path = row.item.paths ∧ ∀ receipt ∈ receipts, Held c s root receipt) ∨
      (∃ receipts why, row' = row.returnFailed receipts why) ∧ row'.succeeded = false ∧
        itemDisposition row' = .review

/-- The envelope accepted the row's paths, and none of their parts names a drive. -/
def Accepted (c : Controller N) (item : Item F) : Prop :=
  ∀ rel ∈ item.paths, (∃ field, safePath (.str rel : Value F) field = .ok rel) ∧
    ∀ part ∈ rel.splitOn "/", c.drive part = none

end Remrun.Fleet.Delivery
