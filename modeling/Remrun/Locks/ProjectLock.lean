import Remrun.Lib.Interleave
import Remrun.Lib.Transition
import Remrun.Snapshot.Identity

/-!
# The project lock

`ProjectLock` of `state.py` as programs of filesystem calls on the lock table of one project:
the guard, the lock directories and their metadata. Any number of processes interleave their
calls; each call is one step, may fail, and a process may crash between two of its calls.
-/

namespace Remrun.Locks

open Keyed Interleave Snapshot
set_option autoImplicit false

/-! ## The lock table -/

/-- `whole.lock`, or a directory under `scopes`. -/
inductive LockPath where
  | whole
  | scope (key : String)
  deriving DecidableEq, Repr

/-- A JSON object of scalars. -/
abbrev LockInfo := Dict (id : String → String) Value

/-- `info.get(key)`. -/
def LockInfo.field (info : LockInfo) (key : String) : Value := (info.get key).getD .null

/-- What `info.json` holds. -/
inductive Metadata where
  | missing
  /-- not to be parsed -/
  | invalid
  /-- JSON, but not an object -/
  | foreign
  | record (info : LockInfo)
  deriving DecidableEq

/-- A lock directory. No call reads `creator`, the process that made it, if a process of the run
did. -/
structure LockDir (ι : Type) where
  metadata : Metadata
  /-- `info.json.tmp` is there -/
  tmp : Bool
  creator : Option ι
  deriving DecidableEq

inductive Guard (ι : Type) where
  | absent
  | held (maker : Option ι)
  deriving DecidableEq

/-- The lock table, and the processes that were started and those that crashed. -/
structure World (ι : Type) where
  guard : Guard ι
  scopesDir : Bool
  locks : Dict (id : LockPath → LockPath) (LockDir ι)
  born : List ι
  dead : List ι

/-- The process ids, and the first sixteen hexadecimal digits of SHA-256. -/
structure Host (ι : Type) where
  pid : ι → Int
  pid_pos : ∀ p, 0 < pid p
  scopeKey : String → String

/-! ## Calls -/

inductive Call where
  | makeRoot
  | makeGuard
  | removeGuard
  | wholeExists
  | scopesExist
  | listScopes
  | isDir (path : LockPath)
  | infoExists (path : LockPath)
  | readInfo (path : LockPath)
  /-- `os.kill(pid, 0)` -/
  | probe (pid : Int)
  | makeParent (path : LockPath)
  | makeLock (path : LockPath)
  | makeInfoParent (path : LockPath)
  | writeTmp (path : LockPath)
  | replaceInfo (path : LockPath) (info : LockInfo)
  | unlinkInfo (path : LockPath)
  | removeLock (path : LockPath)

/-- The outcome of a call that changes the disk; the last three are exceptions. -/
inductive Change where
  | done
  | alreadyThere
  | notThere
  | failed
  deriving DecidableEq

/-- The replies; `none` is an `OSError`. -/
def Reply : Call → Type
  | .makeRoot => Change
  | .makeGuard => Change
  | .removeGuard => Change
  | .wholeExists => Option Bool
  | .scopesExist => Option Bool
  | .listScopes => Option (List String)
  | .isDir _ => Option Bool
  | .infoExists _ => Option Bool
  | .readInfo _ => Option Metadata
  | .probe _ => Bool
  | .makeParent _ => Change
  | .makeLock _ => Change
  | .makeInfoParent _ => Change
  | .writeTmp _ => Change
  | .replaceInfo _ _ => Change
  | .unlinkInfo _ => Change
  | .removeLock _ => Change

section Calls
variable {ι : Type} [DecidableEq ι]

def World.has (w : World ι) (path : LockPath) : Bool := (w.locks.get path).isSome

def World.hasInfo (w : World ι) (path : LockPath) : Bool :=
  match w.locks.get path with
  | some dir => dir.metadata ≠ .missing
  | none => false

def World.live (w : World ι) (p : ι) : Bool := p ∈ w.born && p ∉ w.dead

def World.setLock (w : World ι) (path : LockPath) (dir : LockDir ι) : World ι :=
  { w with locks := w.locks.set path dir }

/-- The parent directory of the lock is there. -/
def World.hasParent (w : World ι) : LockPath → Bool
  | .whole => true
  | .scope _ => w.scopesDir

/-- `path.parent.mkdir(parents=True, exist_ok=True)`. -/
def World.withParent (w : World ι) : LockPath → World ι
  | .whole => w
  | .scope _ => { w with scopesDir := true }

/-- One call of the process `p`. With `fault` the call fails; a probe then finds the process id
in use (a permission error, or a process outside the run). -/
def World.exec (host : Host ι) (p : ι) (fault : Bool) : (c : Call) → World ι → Reply c × World ι
  | .makeRoot, w => (if fault then .failed else .done, w)
  | .makeGuard, w =>
    if fault then (.failed, w)
    else match w.guard with
      | .absent => (.done, { w with guard := .held (some p) })
      | .held _ => (.alreadyThere, w)
  | .removeGuard, w =>
    if fault then (.failed, w)
    else match w.guard with
      | .absent => (.notThere, w)
      | .held _ => (.done, { w with guard := .absent })
  | .wholeExists, w => (if fault then none else some (w.has .whole), w)
  | .scopesExist, w => (if fault then none else some w.scopesDir, w)
  | .listScopes, w => (if fault then none else some (w.locks.keys.filterMap fun path =>
      match path with
      | .whole => none
      | .scope key => some key), w)
  | .isDir path, w => (if fault then none else some (w.has path), w)
  | .infoExists path, w => (if fault then none else some (w.hasInfo path), w)
  | .readInfo path, w =>
    (if fault then none
      else match w.locks.get path with
        | some dir => if dir.metadata = .missing then none else some dir.metadata
        | none => none, w)
  | .probe pid, w => (fault || w.born.any fun q => w.live q && host.pid q = pid, w)
  | .makeParent path, w => if fault then (.failed, w) else (.done, w.withParent path)
  | .makeLock path, w =>
    if fault || !w.hasParent path then (.failed, w)
    else if w.has path then (.alreadyThere, w)
    else (.done, w.setLock path ⟨.missing, false, some p⟩)
  | .makeInfoParent path, w =>
    if fault then (.failed, w)
    else if w.has path then (.done, w)
    else (.done, (w.withParent path).setLock path ⟨.missing, false, some p⟩)
  | .writeTmp path, w =>
    match w.locks.get path with
    | some dir => (if fault then .failed else .done, w.setLock path { dir with tmp := true })
    | none => (.failed, w)
  | .replaceInfo path info, w =>
    match w.locks.get path with
    | some dir =>
      if fault || !dir.tmp then (.failed, w)
      else (.done, w.setLock path { dir with metadata := .record info, tmp := false })
    | none => (.failed, w)
  | .unlinkInfo path, w =>
    if fault then (.failed, w)
    else match w.locks.get path with
      | some dir =>
        if dir.metadata = .missing then (.notThere, w)
        else (.done, w.setLock path { dir with metadata := .missing })
      | none => (.notThere, w)
  | .removeLock path, w =>
    if fault then (.failed, w)
    else match w.locks.get path with
      | some dir =>
        if dir.metadata ≠ .missing ∨ dir.tmp = true then (.failed, w)
        else (.done, { w with locks := w.locks.pop path })
      | none => (.notThere, w)

end Calls

/-! ## The programs -/

/-- The arguments of `ProjectLock`, the time it records, and the rounds of the guard loop before
its deadline. -/
structure Args where
  projectId : String
  target : String
  scope : Option String
  runId : Option String
  adoptDeadRun : Bool
  acquiredAt : String
  attempts : Nat

inductive LockFault where
  /-- the lock table is busy at the guard -/
  | busy
  /-- already locked at the path, with the description of the holder -/
  | locked (path : LockPath) (holder : String)
  | osError
  | attributeError
  deriving DecidableEq, Repr

abbrev LockProg := Prog Call Reply LockFault

section Programs
variable {ι : Type} (host : Host ι) (p : ι) (a : Args)

/-- `scope or "project"`. -/
def Args.scopeName : String :=
  match a.scope with
  | none => "project"
  | some scope => if scope = "" then "project" else scope

/-- `self.path`. -/
def Args.path : LockPath :=
  match a.scope with
  | none => .whole
  | some _ => .scope (host.scopeKey a.scopeName)

/-- A change whose exceptions are not caught. -/
def change (c : Call) (reply : Reply c → Change) (next : LockProg Unit) : LockProg Unit :=
  .call c fun r => match reply r with
    | .done => next
    | _ => .raise .osError

def guardLoop : Nat → LockProg Unit
  | 0 => .call .makeGuard fun
    | .done => .ret ()
    | .alreadyThere => .raise .busy
    | _ => .raise .osError
  | rounds + 1 => .call .makeGuard fun
    | .done => .ret ()
    | .alreadyThere => guardLoop rounds
    | _ => .raise .osError

/-- `_acquire_guard`. -/
def acquireGuard : LockProg Unit := change .makeRoot id (guardLoop a.attempts)

/-- `_release_guard`. -/
def releaseGuard : LockProg Unit := .call .removeGuard fun _ => .ret ()

/-- What `read_json(…) or …` makes of the file. -/
def parsed : Option Metadata → Metadata
  | none => .invalid
  | some (.record info) => if info.rows = [] then .missing else .record info
  | some other => other

/-- `_lock_info`. -/
def lockInfo (path : LockPath) : LockProg Metadata :=
  .call (.infoExists path) fun
    | none => .raise .osError
    | some false => .ret .missing
    | some true => .call (.infoExists path) fun
      | none => .ret .invalid
      | some false => .ret .missing
      | some true => .call (.readInfo path) fun read => .ret (parsed read)

/-- The text of `_describe_holder`. -/
def holderText (info : LockInfo) : String :=
  "scope=" ++ (match info.field "scope" with
    | .null => "project"
    | .str "" => "project"
    | .bool false => "project"
    | .int 0 => "project"
    | scope => scope.text) ++ " target=" ++ (info.field "target").text ++ " pid=" ++
    (info.field "pid").text ++ " since " ++ (info.field "acquired_at").text

/-- `_describe_holder`. -/
def describeHolder (path : LockPath) : LockProg String :=
  (lockInfo path).bind fun
    | .missing => .ret "metadata=missing"
    | .invalid => .ret "metadata=invalid"
    | .foreign => .raise .attributeError
    | .record info => .ret (holderText info)

/-- The names that are still directories when they are looked at. -/
def stillThere : List String → LockProg (List String)
  | [] => .ret []
  | key :: rest => .call (.isDir (.scope key)) fun
    | none => .raise .osError
    | some there => (stillThere rest).bind fun others =>
        .ret (if there then key :: others else others)

/-- `_conflicting_scope_locks`. -/
def conflictingScopeLocks : LockProg (List LockPath) :=
  .call .scopesExist fun
    | none => .raise .osError
    | some false => .ret []
    | some true => .call .listScopes fun
      | none => .raise .osError
      | some keys => (stillThere keys).bind fun there =>
          .ret ((there.insertionSort (· ≤ ·)).map .scope)

/-- The comparisons of `_adopt_exact_dead_run` before the probe. -/
def LockInfo.matches (info : LockInfo) (runId : String) : Bool :=
  info.field "run_id" = .str runId && info.field "project_id" = .str a.projectId &&
    info.field "target" = .str a.target && info.field "scope" = .str a.scopeName

/-- `_pid_is_alive`. -/
def pidIsAlive : Value → LockProg Bool
  | .int pid => if pid ≤ 0 then .ret true else .call (.probe pid) fun alive => .ret alive
  | _ => .ret true

def removeEmptied (path : LockPath) : LockProg Bool :=
  .call (.removeLock path) fun
    | .done => .ret true
    | _ => .ret false

/-- The removal at the end of `_adopt_exact_dead_run`. -/
def removeAdopted (path : LockPath) : LockProg Bool :=
  .call (.unlinkInfo path) fun
    | .done => removeEmptied path
    | _ => .ret false

/-- `_adopt_exact_dead_run`. -/
def adoptExactDeadRun (conflicts : List LockPath) : LockProg Bool :=
  match a.runId with
  | none => .ret false
  | some runId =>
    if !a.adoptDeadRun || runId = "" || conflicts ≠ [a.path host] then .ret false
    else (lockInfo (a.path host)).bind fun
      | .foreign => .raise .attributeError
      | .missing => .ret false
      | .invalid => .ret false
      | .record info =>
        if !info.matches a runId then .ret false
        else (pidIsAlive (info.field "pid")).bind fun
          | true => .ret false
          | false => removeAdopted (a.path host)

/-- The record that the process writes. -/
def ownInfo : LockInfo where
  rows := [("project_id", .str a.projectId), ("target", .str a.target), ("scope", .str a.scopeName),
    ("run_id", match a.runId with
      | none => .null
      | some runId => .str runId), ("pid", .int (host.pid p)), ("acquired_at", .str a.acquiredAt)]
  nodup := by simp

/-- `write_json` of the metadata. -/
def writeInfo (path : LockPath) (info : LockInfo) : LockProg Unit :=
  change (.makeInfoParent path) id
    (change (.writeTmp path) id (change (.replaceInfo path info) id (.ret ())))

/-- `self.path.mkdir()`, and the metadata. -/
def makeLock : LockProg Unit :=
  .call (.makeLock (a.path host)) fun
    | .done => writeInfo (a.path host) (ownInfo host p a)
    | .alreadyThere => (describeHolder (a.path host)).bind fun holder =>
        .raise (.locked (a.path host) holder)
    | _ => .raise .osError

/-- The directory is made and the metadata written. -/
def createLock : LockProg Unit := change (.makeParent (a.path host)) id (makeLock host p a)

/-- The locks that stand in the way; the source has the same statements for both kinds of scope. -/
def conflictingLocks : LockProg (List LockPath) :=
  .call .wholeExists fun
    | none => .raise .osError
    | some whole => conflictingScopeLocks.bind fun scopes =>
        .ret ((if whole then [.whole] else []) ++ scopes)

/-- Adoption, or the refusal; it returns if nothing stands in the way. -/
def clearConflicts : List LockPath → LockProg Unit
  | [] => .ret ()
  | first :: rest => (adoptExactDeadRun host a (first :: rest)).bind fun
    | true => .ret ()
    | false => (describeHolder first).bind fun holder => .raise (.locked first holder)

/-- `acquire`. -/
def acquire : LockProg Unit :=
  (acquireGuard a).bind fun _ =>
    ((conflictingLocks.bind fun conflicts => (clearConflicts host a conflicts).bind fun _ =>
      createLock host p a).andFinally releaseGuard)

/-- `release`. -/
def release : LockProg Unit :=
  .call (.unlinkInfo (a.path host)) fun
    | .done => .call (.removeLock (a.path host)) fun _ => .ret ()
    | .notThere => .call (.removeLock (a.path host)) fun _ => .ret ()
    | _ => .ret ()

end Programs

/-! ## The processes -/

/-- What an `acquire` did so far. -/
structure CallLog where
  made : List LockPath
  removed : List LockPath
  unlinked : List (LockPath × Metadata)
  probedDead : List Int
  /-- a call before the lock directory was there failed -/
  failedMake : Bool
  /-- a call of `write_json` failed -/
  failedWrite : Bool
  deriving DecidableEq

def CallLog.empty : CallLog := ⟨[], [], [], [], false, false⟩

section System
variable {ι : Type} [DecidableEq ι]

/-- The log after one call. -/
def CallLog.after (log : CallLog) (w : World ι) : (c : Call) → Reply c → CallLog
  | .makeLock path, .done => { log with made := log.made ++ [path] }
  | .makeLock _, .failed => { log with failedMake := true }
  | .makeParent _, .failed => { log with failedMake := true }
  | .makeInfoParent path, .done =>
    if w.has path then log else { log with made := log.made ++ [path] }
  | .makeInfoParent _, .failed => { log with failedWrite := true }
  | .writeTmp _, .failed => { log with failedWrite := true }
  | .replaceInfo _ _, .failed => { log with failedWrite := true }
  | .removeLock path, .done => { log with removed := log.removed ++ [path] }
  | .unlinkInfo path, .done =>
    match w.locks.get path with
    | some dir => { log with unlinked := log.unlinked ++ [(path, dir.metadata)] }
    | none => log
  | .probe pid, false => { log with probedDead := log.probedDead ++ [pid] }
  | _, _ => log

inductive Proc where
  | unborn
  | idle
  | acquiring (a : Args) (prog : LockProg Unit) (log : CallLog)
  /-- `acquire` has raised -/
  | raised (fault : LockFault) (log : CallLog)
  /-- `acquire` has returned -/
  | holding (a : Args)
  | releasing (a : Args) (prog : LockProg Unit)

/-- An `acquire` that is at an end has returned or raised. -/
def acquired (a : Args) (log : CallLog) : LockProg Unit → Proc
  | .ret _ => .holding a
  | .raise fault => .raised fault log
  | .call c k => .acquiring a (.call c k) log

def released (a : Args) : LockProg Unit → Proc
  | .ret _ => .idle
  | .raise _ => .idle
  | .call c k => .releasing a (.call c k)

structure System (ι : Type) where
  world : World ι
  procs : ι → Proc

inductive Action (ι : Type) where
  | spawn (p : ι)
  | acquire (p : ι) (a : Args)
  | call (p : ι) (fault : Bool)
  | release (p : ι)
  | crash (p : ι)

def System.setProc (s : System ι) (p : ι) (proc : Proc) : System ι :=
  { s with procs := Function.update s.procs p proc }

/-- One step; a step that its process cannot take changes nothing. -/
def step (host : Host ι) (s : System ι) : Action ι → System ι
  | .spawn p =>
    if p ∈ s.world.born then s
    else { s.setProc p .idle with world := { s.world with born := p :: s.world.born } }
  | .acquire p a =>
    if s.world.live p then
      match s.procs p with
      | .idle => s.setProc p (acquired a .empty (acquire host p a))
      | .raised _ _ => s.setProc p (acquired a .empty (acquire host p a))
      | _ => s
    else s
  | .call p fault =>
    if s.world.live p then
      match s.procs p with
      | .acquiring a (.call c k) log =>
        let (reply, world) := s.world.exec host p fault c
        { s.setProc p (acquired a (log.after s.world c reply) (k reply)) with world }
      | .releasing a (.call c k) =>
        let (reply, world) := s.world.exec host p fault c
        { s.setProc p (released a (k reply)) with world }
      | _ => s
    else s
  | .release p =>
    if s.world.live p then
      match s.procs p with
      | .holding a => s.setProc p (released a (release host a))
      | _ => s
    else s
  | .crash p =>
    if s.world.live p then { s with world := { s.world with dead := p :: s.world.dead } } else s

/-- No process yet; what earlier runs left is on the disk. -/
structure Initial (s : System ι) : Prop where
  unborn : ∀ p, s.procs p = .unborn
  born : s.world.born = []
  dead : s.world.dead = []
  guard : ∀ p, s.world.guard ≠ .held (some p)
  creator : ∀ path dir, s.world.locks.get path = some dir → dir.creator = none
  scopes : ∀ key dir, s.world.locks.get (.scope key) = some dir → s.world.scopesDir = true

end System

end Remrun.Locks
