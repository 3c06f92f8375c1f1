import Remrun.Lib.Dict
import Remrun.Lib.Interleave
import Remrun.Lib.Transition

/-!
# Repositories and the git commands of git-sync

A repository is its branch refs, its peer-tracking refs, HEAD and whether the worktree is
dirty; commits live in one graph that both repositories share, since a commit's name fixes its
parents. Every command is one atomic step by its documented effect, or fails without one.
-/

namespace Remrun.GitSync

open Keyed Interleave
set_option autoImplicit false

/-- The commit graph; `ancestor` is what `merge-base --is-ancestor` answers. -/
structure History (κ : Type) where
  parents : κ → List κ
  ancestor : κ → κ → Bool
  refl : ∀ c, ancestor c c = true
  trans : ∀ a b c, ancestor a b = true → ancestor b c = true → ancestor a c = true
  parent : ∀ p c, p ∈ parents c → ancestor p c = true

inductive Side where
  | controller
  | peer
  deriving DecidableEq, Repr

inductive HeadRef (κ : Type) where
  | branch (name : String)
  | detached (commit : κ)
  deriving DecidableEq, Repr

structure Repo (κ : Type) where
  heads : Dict (id : String → String) κ
  remotes : Dict (id : String × String → String × String) κ
  head : HeadRef κ
  dirty : Bool

/-- Both repositories; `none` is a project without `.git`. -/
structure World (κ : Type) where
  controller : Option (Repo κ)
  peer : Option (Repo κ)

inductive Ref where
  | heads (name : String)
  | remotes (namespace_ name : String)
  | HEAD
  deriving DecidableEq, Repr

section Repositories
variable {κ : Type}

def Repo.resolve (r : Repo κ) : Ref → Option κ
  | .heads name => r.heads.get name
  | .remotes ns name => r.remotes.get (ns, name)
  | .HEAD =>
    match r.head with
    | .branch name => r.heads.get name
    | .detached commit => some commit

/-- Moving what HEAD points at: a branch, created if it is unborn, or HEAD itself. -/
def Repo.advance (r : Repo κ) (c : κ) : Repo κ :=
  match r.head with
  | .branch name => { r with heads := r.heads.set name c }
  | .detached _ => { r with head := .detached c }

def World.repo (w : World κ) : Side → Option (Repo κ)
  | .controller => w.controller
  | .peer => w.peer

def World.setRepo (w : World κ) (side : Side) (r : Repo κ) : World κ :=
  match side with
  | .controller => { w with controller := some r }
  | .peer => { w with peer := some r }

/-- The value of a branch. -/
def World.value (w : World κ) (side : Side) (name : String) : Option κ :=
  (w.repo side).bind fun r => r.heads.get name

/-! ## Users -/

inductive UserAct (κ : Type) where
  | commit (c : κ)
  | switch (name : String)
  | detach (c : κ)
  | create (name : String) (c : κ)
  | edit (dirty : Bool)
  deriving DecidableEq, Repr

/-- What a user does in a repository: commit on what HEAD points at, check out a branch (which
may be unborn) or a commit, create a branch, edit files. -/
def Repo.act [DecidableEq κ] (G : History κ) (r : Repo κ) : UserAct κ → Repo κ
  | .commit c =>
    match r.resolve .HEAD with
    | some old => if old ∈ G.parents c then r.advance c else r
    | none => r.advance c
  | .switch name => { r with head := .branch name }
  | .detach c => { r with head := .detached c }
  | .create name c =>
    match r.heads.get name with
    | some _ => r
    | none => { r with heads := r.heads.set name c }
  | .edit dirty => { r with dirty := dirty }

def World.act [DecidableEq κ] (G : History κ) (w : World κ) (side : Side) (a : UserAct κ) :
    World κ :=
  match w.repo side with
  | some r => w.setRepo side (r.act G a)
  | none => w

/-! ## Commands -/

/-- The branches a bundle carries, with their commits. -/
abbrev Bundle (κ : Type) := List (String × κ)

/-- The git commands of git-sync. The commands that move what HEAD points at do not name a
branch; `branch` and `old` are the branch and the value the caller classified as behind. -/
inductive Call (κ : Type) where
  | isGitRepo
  | probe
  | ensureRemoteGitRepo
  | verify (side : Side) (ref : Ref)
  | symbolicRef (side : Side)
  | dirtySummary (side : Side)
  | listHeads (side : Side)
  | listRemotes (side : Side) (namespace_ : String)
  | refExists (side : Side) (ref : Ref)
  | revParse (side : Side) (ref : Ref)
  | isAncestor (side : Side) (a b : Ref)
  | bundleCreate (side : Side) (branch : Option String)
  | fetch (side : Side) (namespace_ : String) (bundle : Bundle κ)
  | transferTags (side : Side)
  | mergeFfOnly (side : Side) (ref : Ref) (branch : String)
  | resetMixed (side : Side) (ref : Ref) (branch : String) (old : κ)
  | updateRef (side : Side) (name : String) (new old : κ)
  | gitInit
  | writeRef (name : String) (new : κ)
  | setHead (name : String)
  | resetIndex
  | removeGitDir

/-- The answer of a command; `none` and `false` are failures where the command has none of
them as an answer. -/
def Reply {κ : Type} : Call κ → Type
  | .isGitRepo | .probe | .ensureRemoteGitRepo | .verify _ _ | .isAncestor _ _ _ => Bool
  | .symbolicRef _ => Option String
  | .dirtySummary _ | .refExists _ _ => Option Bool
  | .listHeads _ | .listRemotes _ _ => Option (List String)
  | .revParse _ _ => Option κ
  | .bundleCreate _ _ => Option (Bundle κ)
  | .fetch _ _ _ | .transferTags _ | .mergeFfOnly _ _ _ | .resetMixed _ _ _ _
  | .updateRef _ _ _ _ | .writeRef _ _ | .setHead _ | .resetIndex => Bool
  | .gitInit => Option Bool
  | .removeGitDir => Unit

/-- Forced refspecs into `refs/remotes`. -/
def Repo.fetch (r : Repo κ) (ns : String) (bundle : Bundle κ) : Repo κ :=
  { r with remotes := bundle.foldl (fun refs e => refs.set (ns, e.1) e.2) r.remotes }

/-- `git merge --ff-only`: nothing to do, a fast-forward, or a refusal. -/
def Repo.mergeFfOnly (G : History κ) (r : Repo κ) (ref : Ref) : Option (Repo κ) :=
  match r.resolve ref with
  | none => none
  | some new =>
    match r.resolve .HEAD with
    | none => some (r.advance new)
    | some old =>
      if G.ancestor new old then some r
      else if G.ancestor old new then some (r.advance new)
      else none

/-- `git bundle create` of one branch or of all. -/
def Repo.bundle (r : Repo κ) : Option String → Option (Bundle κ)
  | some branch => (r.heads.get branch).map fun c => [(branch, c)]
  | none => if r.heads.rows = [] then none else some r.heads.rows

/-- A command that changes the repository or fails. -/
def World.change (w : World κ) (side : Side) (f : Repo κ → Option (Repo κ)) : Bool × World κ :=
  match (w.repo side).bind f with
  | some r => (true, w.setRepo side r)
  | none => (false, w)

/-- `git init` of a project without `.git`. -/
def Repo.init : Repo κ where
  heads := .empty
  remotes := .empty
  head := .branch "main"
  dirty := false

/-- The effect of a command that does not fail from outside. -/
def World.perform [DecidableEq κ] (G : History κ) (w : World κ) : (c : Call κ) → Reply c × World κ
  | .isGitRepo => (w.controller.isSome, w)
  | .probe => (true, w)
  | .ensureRemoteGitRepo => (w.peer.isSome, w)
  | .verify side ref => (((w.repo side).bind fun r => r.resolve ref).isSome, w)
  | .symbolicRef side =>
    ((w.repo side).bind fun r => match r.head with
      | .branch name => some name
      | .detached _ => none, w)
  | .dirtySummary side => ((w.repo side).map Repo.dirty, w)
  | .listHeads side => ((w.repo side).map fun r => r.heads.keys, w)
  | .listRemotes side ns =>
    ((w.repo side).map fun r => (r.remotes.keys.filter fun k => k.1 = ns).map Prod.snd, w)
  | .refExists side ref => ((w.repo side).map fun r => (r.resolve ref).isSome, w)
  | .revParse side ref => ((w.repo side).bind fun r => r.resolve ref, w)
  | .isAncestor side a b =>
    (((w.repo side).bind fun r => (r.resolve a).bind fun x => (r.resolve b).map fun y =>
      G.ancestor x y).getD false, w)
  | .bundleCreate side branch => ((w.repo side).bind fun r => r.bundle branch, w)
  | .fetch side ns bundle => w.change side fun r => some (r.fetch ns bundle)
  | .transferTags _ => (true, w)
  | .mergeFfOnly side ref _ => w.change side fun r => r.mergeFfOnly G ref
  | .resetMixed side ref _ _ => w.change side fun r => (r.resolve ref).map r.advance
  | .updateRef side name new old => w.change side fun r =>
      if r.heads.get name = some old then some { r with heads := r.heads.set name new } else none
  | .gitInit =>
    match w.controller with
    | some _ => (some false, w)
    | none => (some true, { w with controller := some Repo.init })
  | .writeRef name new => w.change .controller fun r =>
      some { r with heads := r.heads.set name new }
  | .setHead name => w.change .controller fun r => some { r with head := .branch name }
  | .resetIndex => (w.controller.isSome, w)
  | .removeGitDir => ((), { w with controller := none })

/-- What a caller sees of a command that failed: git refused, or the transport broke. -/
def Reply.failed : (c : Call κ) → Reply c
  | .isGitRepo | .probe | .ensureRemoteGitRepo | .verify _ _ | .isAncestor _ _ _ => false
  | .symbolicRef _ | .dirtySummary _ | .refExists _ _ | .listHeads _ | .listRemotes _ _
  | .revParse _ _ | .bundleCreate _ _ => none
  | .fetch _ _ _ | .transferTags _ | .mergeFfOnly _ _ _ | .resetMixed _ _ _ _
  | .updateRef _ _ _ _ | .writeRef _ _ | .setHead _ | .resetIndex => false
  | .gitInit => none
  | .removeGitDir => ()

/-- A command of git-sync. -/
def World.exec [DecidableEq κ] (G : History κ) (fault : Bool) (c : Call κ) (w : World κ) :
    Reply c × World κ :=
  if fault then (Reply.failed c, w) else w.perform G c

end Repositories

end Remrun.GitSync
