import Remrun.GitSync.Repository

/-!
# git-sync

`run_git_sync_result` with its pull, its push and the bootstrap of a project without history,
as programs of git commands. What is sampled once (the current branch, dirtiness, the
classification) is a value the rest of the program keeps.
-/

namespace Remrun.GitSync

open Keyed Interleave
set_option autoImplicit false

/-- The exit code of a `GitSyncError`. -/
inductive Exit where
  | internal
  | infra
  | transfer
  deriving DecidableEq, Repr

abbrev GitProg (κ : Type) := Prog (Call κ) Reply Exit

section Programs
variable {κ : Type} [DecidableEq κ]

def git (c : Call κ) : GitProg κ (Reply c) := .call c .ret

/-- `_local_git_ok` and `_remote_git_ok`: a failure raises. -/
def orRaise {α : Type} : Option α → GitProg κ α
  | some a => .ret a
  | none => .raise .transfer

def gitOk (ok : Bool) : GitProg κ Unit := if ok then .ret () else .raise .transfer

inductive BranchState where
  | upToDate
  | behind
  | ahead
  | diverged
  | skippedMissingPeerRef
  | skippedDirtyWorktree
  | fastForwardedWorktreePreserved
  | fastForwarded
  deriving DecidableEq, Repr

structure BranchAction (κ : Type) where
  branch : String
  state : BranchState
  old : Option κ
  new : Option κ
  deriving DecidableEq, Repr

/-- `_branches_local` and `_branches_remote`. -/
def branches (side : Side) : Option String → GitProg κ (List String)
  | some branch => (git (.refExists side (.heads branch))).bind fun found =>
    (orRaise found).bind fun there => .ret (if there then [branch] else [])
  | none => (git (.listHeads side)).bind orRaise

/-- `_classify_local` and `_classify_remote`: both refs are read, then compared again by name. -/
def classify (side : Side) (name ns : String) : GitProg κ (BranchState × κ × κ) :=
  (git (.revParse side (.heads name))).bind fun old => (orRaise old).bind fun old =>
  (git (.revParse side (.remotes ns name))).bind fun new => (orRaise new).bind fun new =>
  if old = new then .ret (.upToDate, old, new)
  else (git (.isAncestor side (.heads name) (.remotes ns name))).bind fun (behind : Bool) =>
    if behind then .ret (.behind, old, new)
    else (git (.isAncestor side (.remotes ns name) (.heads name))).bind fun (ahead : Bool) =>
      .ret (if ahead then .ahead else .diverged, old, new)

/-- A branch classified as behind: the checked-out one is merged, or reset if the tree is dirty
and may be advanced; another is moved by compare-and-swap. -/
def fastForwardBranch (side : Side) (ns name : String) (current : Option String)
    (dirty advanceDirty : Bool) (old new : κ) : GitProg κ (BranchAction κ) :=
  if current = some name then
    if dirty then
      if advanceDirty then
        (git (.resetMixed side (.remotes ns name) name old)).bind fun ok =>
          (gitOk ok).bind fun _ =>
            .ret ⟨name, .fastForwardedWorktreePreserved, some old, some new⟩
      else .ret ⟨name, .skippedDirtyWorktree, some old, some new⟩
    else (git (.mergeFfOnly side (.remotes ns name) name)).bind fun ok =>
      (gitOk ok).bind fun _ => .ret ⟨name, .fastForwarded, some old, some new⟩
  else (git (.updateRef side name new old)).bind fun ok =>
    (gitOk ok).bind fun _ => .ret ⟨name, .fastForwarded, some old, some new⟩

/-- The loop body of `_fast_forward_local` and `_fast_forward_remote`. -/
def visitBranch (side : Side) (ns : String) (current : Option String) (dirty advanceDirty : Bool)
    (name : String) : GitProg κ (BranchAction κ) :=
  (git (.refExists side (.remotes ns name))).bind fun found => (orRaise found).bind fun there =>
  if there then
    (classify side name ns).bind fun (state, old, new) =>
      if state = .behind then
        fastForwardBranch side ns name current dirty advanceDirty old new
      else .ret ⟨name, state, some old, some new⟩
  else .ret ⟨name, .skippedMissingPeerRef, none, none⟩

def visitBranches (side : Side) (ns : String) (current : Option String)
    (dirty advanceDirty : Bool) : List String → GitProg κ (List (BranchAction κ))
  | [] => .ret []
  | name :: rest =>
    (visitBranch side ns current dirty advanceDirty name).bind fun action =>
      (visitBranches side ns current dirty advanceDirty rest).bind fun actions =>
        .ret (action :: actions)

/-- `_fast_forward_local` and `_fast_forward_remote`. -/
def fastForward (side : Side) (ns : String) (branch : Option String) (advanceDirty : Bool) :
    GitProg κ (List (BranchAction κ)) :=
  (git (.symbolicRef side)).bind fun current =>
  (git (.dirtySummary side)).bind fun dirty => (orRaise dirty).bind fun dirty =>
  (branches side branch).bind fun names =>
    visitBranches side ns current dirty advanceDirty names

/-- `_fast_forward_local`. -/
def fastForwardLocal (ns : String) (branch : Option String) (advanceDirty : Bool) :
    GitProg κ (List (BranchAction κ)) := fastForward .controller ns branch advanceDirty

/-- `_fast_forward_remote`. -/
def fastForwardRemote (ns : String) (branch : Option String) (advanceDirty : Bool) :
    GitProg κ (List (BranchAction κ)) := fastForward .peer ns branch advanceDirty

def Side.other : Side → Side
  | .controller => .peer
  | .peer => .controller

/-- A named branch that the source of a transfer does not have: tags only, and a note on the
branch if the destination has it. -/
def transferTagsOnly (destination : Side) (branch : String) : GitProg κ (List (BranchAction κ)) :=
  (git (.transferTags destination)).bind fun ok => (gitOk ok).bind fun _ =>
  (git (.refExists destination (.heads branch))).bind fun found => (orRaise found).bind fun there =>
    .ret (if there then [⟨branch, .skippedMissingPeerRef, none, none⟩] else [])

/-- The bundle of the source, fetched into the namespace at the destination, and then the
fast-forwards there. -/
def transfer (destination : Side) (ns : String) (branch : Option String) (advanceDirty : Bool) :
    GitProg κ (List (BranchAction κ)) :=
  (git (.bundleCreate destination.other branch)).bind fun bundle => (orRaise bundle).bind fun bundle =>
  (git (.fetch destination ns bundle)).bind fun ok => (gitOk ok).bind fun _ =>
    fastForward destination ns branch advanceDirty

/-- `_pull_from_peer` and `_push_to_peer`. -/
def transferOrTags (destination : Side) (ns : String) (branch : Option String)
    (advanceDirty : Bool) : GitProg κ (List (BranchAction κ)) :=
  match branch with
  | none => transfer destination ns none advanceDirty
  | some name =>
    (git (.refExists destination.other (.heads name))).bind fun found =>
    (orRaise found).bind fun there =>
      if there then transfer destination ns (some name) advanceDirty
      else transferTagsOnly destination name

/-- `_pull_from_peer`. -/
def pullFromPeer (peerNs : String) (branch : Option String) (advanceDirty : Bool) :
    GitProg κ (List (BranchAction κ)) := transferOrTags .controller peerNs branch advanceDirty

/-- `_push_to_peer`. -/
def pushToPeer (localNs : String) (branch : Option String) (advanceDirty : Bool) :
    GitProg κ (List (BranchAction κ)) := transferOrTags .peer localNs branch advanceDirty

/-! ## Bootstrap -/

/-- The branch and the commit a bootstrap starts from. -/
def bootstrapHead : Option String → GitProg κ (String × κ)
  | some branch =>
    (git (.refExists .peer (.heads branch))).bind fun found => (orRaise found).bind fun there =>
    if there then
      (git (.revParse .peer (.heads branch))).bind fun head => (orRaise head).bind fun head =>
        .ret (branch, head)
    else .raise .infra
  | none =>
    (git (.verify .peer .HEAD)).bind fun (there : Bool) =>
    if there then
      (git (.revParse .peer .HEAD)).bind fun head => (orRaise head).bind fun head =>
      (git (.symbolicRef .peer)).bind fun current => .ret (current.getD "main", head)
    else .raise .infra

/-- The loop that gives every fetched branch a local head. -/
def createHeads (peerNs : String) : List String → GitProg κ Unit
  | [] => .ret ()
  | name :: rest =>
    if name = "HEAD" then createHeads peerNs rest
    else
      (git (.revParse .controller (.remotes peerNs name))).bind fun sha => (orRaise sha).bind fun sha =>
      (git (.writeRef name sha)).bind fun ok => (gitOk ok).bind fun _ => createHeads peerNs rest

/-- The part of `_bootstrap_from_peer` inside its `try`. -/
def installHistory (peerNs : String) (branch : Option String) (peerBranch : String)
    (peerHead : κ) : GitProg κ Unit :=
  (git (.bundleCreate .peer branch)).bind fun bundle => (orRaise bundle).bind fun bundle =>
  (git (.fetch .controller peerNs bundle)).bind fun ok => (gitOk ok).bind fun _ =>
  (git (.revParse .controller (.remotes peerNs peerBranch))).bind fun fetched =>
  (orRaise fetched).bind fun fetched =>
  if fetched ≠ peerHead then .raise .transfer
  else
    (git (.listRemotes .controller peerNs)).bind fun names => (orRaise names).bind fun names =>
    (createHeads peerNs names).bind fun _ =>
    (git (.writeRef peerBranch peerHead)).bind fun ok => (gitOk ok).bind fun _ =>
    (git (.setHead peerBranch)).bind fun ok => (gitOk ok).bind fun _ =>
    (git .resetIndex).bind fun ok => (gitOk ok).bind fun _ =>
    (git (.revParse .controller .HEAD)).bind fun installed => (orRaise installed).bind fun installed =>
    (git (.symbolicRef .controller)).bind fun current => (orRaise current).bind fun current =>
      if installed ≠ peerHead ∨ current ≠ peerBranch then .raise .transfer else .ret ()

/-- `except BaseException`: a repository this run created is removed. -/
def removeOnFailure {α : Type} (created : Bool) : GitProg κ α → GitProg κ α
  | .ret a => .ret a
  | .raise e => if created then (git .removeGitDir).bind fun _ => .raise e else .raise e
  | .call c k => .call c fun r => removeOnFailure created (k r)

/-- `_bootstrap_from_peer`. -/
def bootstrapFromPeer (peerNs : String) (branch : Option String) (dryRun : Bool) :
    GitProg κ Unit :=
  (git .probe).bind fun (reachable : Bool) =>
  if reachable then
    (git .ensureRemoteGitRepo).bind fun (there : Bool) =>
    if there then
      (bootstrapHead branch).bind fun (peerBranch, peerHead) =>
      if dryRun then .ret ()
      else
        (git .gitInit).bind fun created => (orRaise created).bind fun created =>
          removeOnFailure created (installHistory peerNs branch peerBranch peerHead)
    else .raise .infra
  else .raise .infra

/-! ## The run -/

inductive Direction where
  | pull
  | push
  | both
  deriving DecidableEq, Repr

structure Args where
  /-- the configuration knows the device and has it enabled -/
  enabled : Bool
  direction : Direction
  dryRun : Bool
  /-- `--branch`, with what `check-ref-format` says of it -/
  branch : Option String
  branchValid : Bool
  bootstrap : Bool
  advanceDirtyWorktree : Bool
  localNs : String
  peerNs : String

/-- The transfers of one run. -/
def transfers (a : Args) : GitProg κ (List (BranchAction κ)) :=
  (if a.direction = .push then .ret []
    else pullFromPeer a.peerNs a.branch a.advanceDirtyWorktree).bind fun pulled =>
  (if a.direction = .pull then .ret []
    else pushToPeer a.localNs a.branch a.advanceDirtyWorktree).bind fun pushed =>
    .ret (pulled ++ pushed)

/-- `run_git_sync_result`. -/
def runGitSyncResult (a : Args) : GitProg κ (List (BranchAction κ)) :=
  if a.enabled = false then .raise .infra
  else if a.branch.isSome = true ∧ a.branchValid = false then .raise .internal
  else
    (git .isGitRepo).bind fun (isRepo : Bool) =>
    (git (.verify .controller .HEAD)).bind fun (verified : Bool) =>
    if (isRepo && verified) = false then
      if a.bootstrap = true ∨ a.direction ≠ .push then
        (bootstrapFromPeer a.peerNs a.branch a.dryRun).bind fun _ => .ret []
      else .raise .infra
    else if a.bootstrap then .raise .infra
    else
      (git .probe).bind fun (reachable : Bool) =>
      if reachable then
        (git .ensureRemoteGitRepo).bind fun (there : Bool) =>
        if there then
          if a.dryRun then .ret [] else transfers a
        else .raise .infra
      else .raise .infra

/-- A run of git-sync with the repositories it works on. -/
structure SyncState (κ : Type) where
  prog : GitProg κ (List (BranchAction κ))
  world : World κ

inductive SyncEvent (κ : Type) where
  /-- git-sync runs its next command; `fault` is a failure from outside. -/
  | command (fault : Bool)
  | user (side : Side) (act : UserAct κ)
  deriving DecidableEq, Repr

def SyncState.step (G : History κ) (s : SyncState κ) : SyncEvent κ → SyncState κ
  | .command fault =>
    match s.prog with
    | .call c k => ⟨k (s.world.exec G fault c).1, (s.world.exec G fault c).2⟩
    | _ => s
  | .user side act => { s with world := s.world.act G side act }

end Programs

end Remrun.GitSync
