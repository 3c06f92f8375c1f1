import Remrun.Lib.Effect
import Remrun.Reconcile.Manifest

/-!
# Trees, transport and interference

The state of a call: the two project trees, the backup and conflict areas, and a log of the
writes made. Every look at a tree and every write is one step. Before a step other writers
may change the trees, and the step may raise; a failing write may still have landed.
-/

namespace Remrun.Reconcile

open Keyed Effect
set_option autoImplicit false

/-! ## State -/

inductive Node where
  | file (bytes : Bytes) (mtimeNs : Int) (mode : Nat)
  /-- a symbolic link, with what opening it reads -/
  | link (target : Option Bytes)
  /-- a directory or a special file -/
  | other
  deriving DecidableEq, Repr

/-- What opening the path reads. -/
def Node.contents : Node → Option Bytes
  | .file bytes _ _ => some bytes
  | .link target => target
  | .other => none

/-- The bytes of a regular file. -/
def Node.fileBytes : Node → Option Bytes
  | .file bytes _ _ => some bytes
  | _ => none

inductive Fault where
  | transportError (message : String)
  | notImplemented
  | osError
  | valueError
  | uncaught
  deriving DecidableEq, Repr

/-- `except (TransportError, NotImplementedError, OSError, ValueError)`. -/
def Fault.isExpected : Fault → Bool
  | .uncaught => false
  | _ => true

/-- What stands at a project root. -/
inductive Root (key : String → String) where
  | missing
  | blocked
  | directory (files : Dict key Node)

def Root.get {key : String → String} (root : Root key) (rel : String) : Option Node :=
  match root with
  | .directory files => files.get rel
  | _ => none

/-- The bytes of the regular file at a path. -/
def Root.file {key : String → String} (root : Root key) (rel : String) : Option Bytes :=
  (root.get rel).bind Node.fileBytes

/-- Replacing a file; a directory in its place cannot be replaced. -/
def putNode {key : String → String} (files : Dict key Node) (rel : String) (node : Node) :
    Except Fault (Dict key Node) :=
  if files.get rel = some .other then .error .osError else .ok (files.set rel node)

def Root.put {key : String → String} (root : Root key) (rel : String) (node : Node) :
    Except Fault (Root key) :=
  match root with
  | .missing => .ok (.directory (Dict.empty.set rel node))
  | .blocked => .error .osError
  | .directory files => do
    let files ← putNode files rel node
    return .directory files

/-- Removing a file that may be missing. -/
def Root.remove {key : String → String} (root : Root key) (rel : String) :
    Except Fault (Root key) :=
  match root with
  | .directory files =>
    if files.get rel = some .other then .error .osError else .ok (.directory (files.pop rel))
  | root => .ok root

inductive Side where
  | controller
  | target
  deriving DecidableEq, Repr

/-- The writes of a call. A pull and a local deletion carry the node they replace. -/
inductive Mutation where
  | ensureRemoteDir
  | pull (rel : String) (replaced : Option Node)
  | push (rel : String)
  | deleteRemote (rel : String)
  | deleteLocal (rel : String) (removed : Option Node)
  | backup (rel : String)
  | save (rel : String)
  deriving DecidableEq, Repr

structure World (P : Platform) where
  localRoot : Root P.localKey
  remoteRoot : Root P.remoteKey
  backup : Dict P.localKey Node
  saved : Dict P.localKey Node
  calls : Nat
  log : List Mutation

section World
variable {P : Platform}

def World.node (w : World P) (side : Side) (rel : String) : Option Node :=
  match side with
  | .controller => w.localRoot.get rel
  | .target => w.remoteRoot.get rel

/-- A failure of a step: the exception, and whether a write took effect before it. -/
structure Failure where
  fault : Fault
  landed : Bool

/-- The surroundings of a call, indexed by the number of the step. -/
structure Env (P : Platform) where
  disturbLocal : Nat → Root P.localKey → Root P.localKey
  disturbRemote : Nat → Root P.remoteKey → Root P.remoteKey
  failure : Nat → Option Failure
  /-- an answer of `hash_file` other than the digest -/
  reply : Nat → Option String
  /-- the modification time and the mode of a file that is written -/
  stat : Nat → Int × Nat

/-- No other writer. -/
structure Env.Quiet (env : Env P) : Prop where
  stillLocal : ∀ n root, env.disturbLocal n root = root
  stillRemote : ∀ n root, env.disturbRemote n root = root
  honest : ∀ n text, env.reply n = some text → isDigest text.toLower = false

/-- No other writer and no failure. -/
structure Env.Calm (env : Env P) : Prop extends env.Quiet where
  works : ∀ n, env.failure n = none
  answers : ∀ n, env.reply n = none

def World.disturbed (env : Env P) (w : World P) : World P :=
  { w with
    localRoot := env.disturbLocal w.calls w.localRoot
    remoteRoot := env.disturbRemote w.calls w.remoteRoot
    calls := w.calls + 1 }

abbrev M (P : Platform) := EStateM Fault (World P)

/-! ## Steps -/

/-- A step that reads. -/
def look {α : Type} (env : Env P) (read : World P → α) : M P α := fun w =>
  match env.failure w.calls with
  | some failure => .error failure.fault (w.disturbed env)
  | none => .ok (read (w.disturbed env)) (w.disturbed env)

/-- A step that writes. -/
def act (env : Env P) (change : Nat → World P → Except Fault (World P)) : M P Unit := fun w =>
  match env.failure w.calls with
  | some ⟨fault, false⟩ => .error fault (w.disturbed env)
  | some ⟨fault, true⟩ =>
    match change w.calls (w.disturbed env) with
    | .ok w' => .error fault w'
    | .error fault' => .error fault' (w.disturbed env)
  | none =>
    match change w.calls (w.disturbed env) with
    | .ok w' => .ok () w'
    | .error fault => .error fault (w.disturbed env)

variable (env : Env P)

/-- A step that reads, with `except OSError as exc: raise TransportError(message)`. -/
def inspect {α : Type} (message : String) (read : World P → α) : M P α :=
  tryCatch (look env read) fun fault =>
    throw (if fault = .osError then .transportError message else fault)

/-- Opens the file and hashes it. -/
def hashOrRaise (side : Side) (rel message : String) : M P String := do
  match ← inspect env message fun w => (w.node side rel).bind Node.contents with
  | none => throw (.transportError message)
  | some bytes => return P.sha256 bytes

/-- The digest, where one is wanted. -/
def hashIf (wanted : Bool) (side : Side) (rel message : String) : M P (Option String) :=
  if wanted then some <$> hashOrRaise env side rel message else return none

/-- `BaseTransport.hash_file`. -/
def hashFile (rel : String) : M P String := do
  let answer ← look env fun w =>
    ((w.node .target rel).bind Node.contents).map fun bytes =>
      (env.reply (w.calls - 1)).getD (P.sha256 bytes)
  match answer with
  | none => throw (.transportError ("hash " ++ rel ++ " failed"))
  | some text => return text

/-- `remote_path_exists` of the remote root. -/
def remoteRootExists : M P Bool :=
  look env fun w => match w.remoteRoot with
    | .missing => false
    | _ => true

/-- `_remote_root_present`. -/
def remoteRootPresent : M P Bool :=
  tryCatch (remoteRootExists env) fun fault =>
    if fault.isExpected && fault != .valueError then return false else throw fault

/-- `local_root.exists()`. -/
def localRootExists : M P Bool :=
  look env fun w => match w.localRoot with
    | .missing => false
    | _ => true

/-- `local_root.is_dir()`. -/
def localRootIsDir : M P Bool :=
  look env fun w => match w.localRoot with
    | .directory _ => true
    | _ => false

/-- `ensure_remote_dir`. -/
def ensureRemoteDir : M P Unit :=
  act env fun _ w => match w.remoteRoot with
    | .missing =>
      .ok { w with remoteRoot := .directory Dict.empty, log := w.log ++ [.ensureRemoteDir] }
    | .blocked => .error (.transportError "mkdir -p failed")
    | .directory _ => .ok { w with log := w.log ++ [.ensureRemoteDir] }

/-- The file that a write of `bytes` makes. -/
def Env.written (n : Nat) (bytes : Bytes) : Node := .file bytes (env.stat n).1 (env.stat n).2

/-- `pull_file` to the local project path. -/
def pullFile (rel : String) : M P Unit :=
  act env fun n w => match (w.node .target rel).bind Node.contents with
    | none => .error (.transportError ("pull " ++ rel ++ " failed"))
    | some bytes => do
      let root ← w.localRoot.put rel (env.written n bytes)
      return { w with localRoot := root, log := w.log ++ [.pull rel (w.localRoot.get rel)] }

/-- `pull_file` to a path under `conflict_remote_root`. -/
def saveRemote (rel : String) : M P Unit :=
  act env fun n w => match (w.node .target rel).bind Node.contents with
    | none => .error (.transportError ("pull " ++ rel ++ " failed"))
    | some bytes => do
      let saved ← putNode w.saved rel (env.written n bytes)
      return { w with saved := saved, log := w.log ++ [.save rel] }

/-- `push_file`. -/
def pushFile (rel : String) : M P Unit :=
  act env fun n w => match (w.node .controller rel).bind Node.contents with
    | none => .error .osError
    | some bytes => do
      let root ← w.remoteRoot.put rel (env.written n bytes)
      return { w with remoteRoot := root, log := w.log ++ [.push rel] }

/-- `delete_remote`. -/
def deleteRemote (rel : String) : M P Unit :=
  act env fun _ w => do
    let root ← w.remoteRoot.remove rel
    return { w with remoteRoot := root, log := w.log ++ [.deleteRemote rel] }

/-- `local_path.unlink(missing_ok=True)`. -/
def deleteLocal (rel : String) : M P Unit :=
  act env fun _ w => do
    let root ← w.localRoot.remove rel
    return { w with
      localRoot := root, log := w.log ++ [.deleteLocal rel (w.localRoot.get rel)] }

/-- `stat().st_size`, which follows a link. -/
def Node.followedSize (node : Node) : Nat := (node.contents.getD []).length

/-- `_backup_local`. The copy of a directory or a special file raises. -/
def backupLocal (rel : String) (maxBytes : Nat) : M P Bool := do
  match ← look env fun w => w.node .controller rel with
  | none | some (.link none) => return false
  | some node =>
    if maxBytes ≠ 0 ∧ node ≠ .other ∧ maxBytes < node.followedSize then return false
    else do
      act env fun n w => match (w.node .controller rel).bind Node.contents with
        | none => .error .osError
        | some bytes => .ok { w with
            backup := w.backup.set rel (env.written n bytes), log := w.log ++ [.backup rel] }
      return true

/-! ## Manifests of a tree -/

inductive Listing where
  | missing
  | blocked
  | names (names : List String)

def Root.listing {key : String → String} : Root key → Listing
  | .missing => .missing
  | .blocked => .blocked
  | .directory files => .names files.keys

def World.listing (w : World P) : Side → Listing
  | .controller => w.localRoot.listing
  | .target => w.remoteRoot.listing

/-- The loop body of `build_manifest`: of the controller's, or of the runner's on the target. -/
def addEntry (s : Surface) (side : Side) (manifest : Manifest) (rel : String) :
    M P Manifest := do
  match ← inspect env ("cannot read " ++ rel) fun w => w.node side rel with
  | none =>
    match side with
    | .controller => return manifest
    | .target => throw (.transportError ("manifest stat failed for " ++ rel))
  | some (.file bytes mtimeNs mode) => do
    let digest ← hashIf env (s.hashes bytes.length) side rel
      ("file changed while hashing " ++ rel ++ "; retry the command")
    return manifest.set rel {
      path := rel, kind := "file", size := bytes.length, mtimeNs := mtimeNs, sha256 := digest,
      mode := match side with
        | .controller => some mode
        | .target => none }
  | some _ => return manifest

/-- `_build_local_manifest` and `_remote_manifest`. -/
def buildManifest (s : Surface) (side : Side) : M P Manifest := do
  match ← inspect env "cannot scan a directory" fun w => w.listing side with
  | .missing => return Dict.empty
  | .blocked =>
    match side with
    | .controller => throw (.transportError "cannot scan a directory")
    | .target => return Dict.empty
  | .names names => (names.filter (s.covers P)).foldlM (addEntry env s side) Dict.empty

/-- `path.name`. -/
def baseName (rel : String) : String :=
  String.ofList (rel.toList.reverse.takeWhile (· ≠ '/')).reverse

/-- `_fresh_local_entry`. -/
def freshLocalEntry (rel : String) (hashIfSize : Option Nat) : M P (Option FileEntry) := do
  match ← inspect env ("cannot inspect local file " ++ rel) fun w => w.node .controller rel with
  | some (.file bytes mtimeNs _) => do
    let digest ← hashIf env (hashIfSize = some bytes.length) .controller rel
      ("local file changed while hashing " ++ rel ++ "; retry the command")
    return some {
      path := baseName rel, kind := "file", size := bytes.length, mtimeNs := mtimeNs,
      sha256 := digest, mode := none }
  | _ => return none

end World

/-! ## A platform for concrete runs -/

/-- SHA-256 on the contents that the concrete runs use. -/
def sampleSha256 : Bytes → String
  | [97] => "ca978112ca1bbdcafac231b39a23dc4da786eff8147c4e72b9807785afee48bb"
  | [98] => "3e23e8160039594a33894f6564e1b1348bbd7a0088d42c4acb73eeaed59c009d"
  | [99] => "2e7d2c03a9507ae265ecf5b5356885a53393a2029d241394997265a1a25aefc6"
  | [97, 98] => "fb8e20fc2e4c3f248c60c39bd652f3c1347298bb977b8b4d5903b85055620603"
  | _ => "e3b0c44298fc1c149afbf4c8996fb92427ae41e4649b934ca495991b7852b855"

/-- A POSIX controller and target, with case-insensitive names on the controller or not. -/
def samplePlatform (localInsensitive : Bool) : Platform where
  normcase := id
  casefold := String.toLower
  localInsensitive := localInsensitive
  remoteInsensitive := false
  sha256 := sampleSha256
  sha256_digest := by
    intro bytes
    unfold sampleSha256
    split <;> decide +kernel

def calmEnv (P : Platform) : Env P where
  disturbLocal := fun _ root => root
  disturbRemote := fun _ root => root
  failure := fun _ => none
  reply := fun _ => none
  stat := fun n => (n, 420)

theorem calmEnv_calm (P : Platform) : (calmEnv P).Calm where
  stillLocal := fun _ _ => rfl
  stillRemote := fun _ _ => rfl
  honest := by
    intro n text h
    simp [calmEnv] at h
  works := fun _ => rfl
  answers := fun _ => rfl

def ofNodes {key : String → String} (nodes : List (String × Node)) : Dict key Node :=
  nodes.foldl (fun files node => files.set node.1 node.2) Dict.empty

/-- A state before a call, with the given files in the two trees. -/
def World.ofTrees (P : Platform) (localNodes remoteNodes : List (String × Node)) : World P where
  localRoot := .directory (ofNodes localNodes)
  remoteRoot := .directory (ofNodes remoteNodes)
  backup := Dict.empty
  saved := Dict.empty
  calls := 0
  log := []

end Remrun.Reconcile
