import Remrun.GitSync.Programs

/-!
# Branches only move to descendants

`update-ref` with an old value is a compare-and-swap; `merge --ff-only`, `reset --mixed` and
the writes of a bootstrap are not, and act on what they find. A run is safe as long as HEAD is
still on the classified branch when they act, the branch a reset moves still has the value it
was classified with, and a bootstrap finds no history of its own.
-/

namespace Remrun.GitSync

open Keyed Interleave
set_option autoImplicit false

variable {κ : Type} [DecidableEq κ]

/-! ## The property -/

/-- The branch a command is to move: the one the run has classified as behind. -/
def Call.moving : Call κ → Option (Side × String)
  | .mergeFfOnly side _ branch => some (side, branch)
  | .resetMixed side _ branch _ => some (side, branch)
  | .updateRef side name _ _ => some (side, name)
  | _ => none

/-- Every branch there was keeps its value, or is the one to move and gets a descendant. -/
def Descends (G : History κ) (moving : Option (Side × String)) (w w' : World κ) : Prop :=
  ∀ side name old, w.value side name = some old → w'.value side name = some old ∨
    (moving = some (side, name) ∧ ∃ new, w'.value side name = some new ∧
      G.ancestor old new = true)

def SyncState.Descends (G : History κ) (s : SyncState κ) : SyncEvent κ → Prop
  | .command fault => ∀ c k, s.prog = .call c k →
    GitSync.Descends G c.moving s.world (s.world.exec G fault c).2
  | .user _ _ => True

/-- Nothing came in between where a command does not look for itself. -/
def Call.Undisturbed (w : World κ) : Call κ → Prop
  | .mergeFfOnly side _ branch => ∀ r name, w.repo side = some r → r.head = .branch name →
    name = branch
  | .resetMixed side _ branch old => ∀ r name, w.repo side = some r → r.head = .branch name →
    name = branch ∧ r.heads.get branch = some old
  | .writeRef name new => ∀ r old, w.controller = some r → r.heads.get name = some old → old = new
  | .removeGitDir => ∀ r, w.controller = some r → r.heads.rows = []
  | _ => True

def SyncState.Undisturbed (s : SyncState κ) : SyncEvent κ → Prop
  | .command fault => fault = false → ∀ c k, s.prog = .call c k → c.Undisturbed s.world
  | .user _ _ => True

/-! ## Values of branches -/

section Values
variable {G : History κ} {w : World κ} {side : Side} {r : Repo κ}

omit [DecidableEq κ] in
theorem repo_setRepo_self (w : World κ) (side : Side) (r : Repo κ) :
    (w.setRepo side r).repo side = some r := by
  cases side <;> rfl

omit [DecidableEq κ] in
theorem repo_setRepo_other (w : World κ) {side side' : Side} (r : Repo κ) (h : side' ≠ side) :
    (w.setRepo side r).repo side' = w.repo side' := by
  cases side <;> cases side' <;> first | rfl | exact absurd rfl h

omit [DecidableEq κ] in
theorem value_eq (h : w.repo side = some r) (name : String) :
    w.value side name = r.heads.get name := by
  rw [World.value, h, Option.bind_some]

omit [DecidableEq κ] in
/-- What a change of one repository keeps, the world keeps. -/
theorem descends_setRepo {moving : Option (Side × String)} {r' : Repo κ} (hr : w.repo side = some r)
    (h : ∀ name old, r.heads.get name = some old → r'.heads.get name = some old ∨
      (moving = some (side, name) ∧ ∃ new, r'.heads.get name = some new ∧
        G.ancestor old new = true)) : Descends G moving w (w.setRepo side r') := by
  intro side' name old hold
  by_cases heq : side' = side
  · subst heq
    rw [value_eq hr] at hold
    rw [value_eq (repo_setRepo_self w side' r')]
    exact h name old hold
  · rw [World.value, repo_setRepo_other w r' heq]
    exact Or.inl hold

omit [DecidableEq κ] in
theorem Descends.refl (moving : Option (Side × String)) (w : World κ) : Descends G moving w w :=
  fun _ _ _ hold => Or.inl hold

omit [DecidableEq κ] in
/-- Moving what HEAD points at moves at most the branch HEAD is on. -/
theorem advance_heads (r : Repo κ) (c : κ) (name : String) :
    (r.advance c).heads.get name = r.heads.get name ∨
      (r.head = .branch name ∧ (r.advance c).heads.get name = some c) := by
  unfold Repo.advance
  cases hhead : r.head with
  | detached commit => exact Or.inl rfl
  | branch current =>
    by_cases heq : name = current
    · subst heq
      exact Or.inr ⟨rfl, Dict.get_set_self _ _ _⟩
    · exact Or.inl (Dict.get_set_other _ _ heq)

/-- A user takes no branch back. -/
theorem act_value (G : History κ) (w : World κ) (side : Side) (a : UserAct κ) {side' : Side}
    {name : String} {v : κ} (h : w.value side' name = some v) :
    ∃ v', (w.act G side a).value side' name = some v' ∧ G.ancestor v v' = true := by
  cases hr : w.repo side with
  | none =>
    rw [World.act, hr]
    exact ⟨v, h, G.refl v⟩
  | some r =>
    rw [World.act, hr]
    by_cases hside : side' = side
    · subst hside
      rw [value_eq (repo_setRepo_self _ _ _)]
      rw [value_eq hr] at h
      cases a with
      | switch => exact ⟨v, h, G.refl v⟩
      | detach => exact ⟨v, h, G.refl v⟩
      | edit => exact ⟨v, h, G.refl v⟩
      | create branch c =>
        simp only [Repo.act]
        split
        · exact ⟨v, h, G.refl v⟩
        · rename_i habsent
          have hne : name ≠ branch := by
            rintro rfl
            rw [habsent] at h
            cases h
          exact ⟨v, (Dict.get_set_other _ _ hne).trans h, G.refl v⟩
      | commit c =>
        simp only [Repo.act]
        have hadvance : (∀ old, r.resolve .HEAD = some old → old ∈ G.parents c) →
            ∃ v', (r.advance c).heads.get name = some v' ∧ G.ancestor v v' = true := by
          intro hparent
          rcases advance_heads r c name with hsame | ⟨hhead, hnew⟩
          · exact ⟨v, hsame.trans h, G.refl v⟩
          · have hvalue : r.resolve .HEAD = some v := by
              rw [Repo.resolve, hhead]
              exact h
            exact ⟨c, hnew, G.parent v c (hparent v hvalue)⟩
        split
        · rename_i old hold
          split
          · rename_i hmem
            refine hadvance fun old' hold' => ?_
            rw [hold, Option.some.injEq] at hold'
            rw [← hold']
            exact hmem
          · exact ⟨v, h, G.refl v⟩
        · rename_i hnone
          refine hadvance fun old' hold' => ?_
          rw [hnone] at hold'
          cases hold'
    · rw [World.value, repo_setRepo_other w _ hside]
      exact ⟨v, h, G.refl v⟩

/-- The peer-tracking ref of a branch holds this commit. -/
def Tracked (side : Side) (ns name : String) (c : κ) (w : World κ) : Prop :=
  ∃ r, w.repo side = some r ∧ r.remotes.get (ns, name) = some c

omit [DecidableEq κ] in
theorem advance_remotes (r : Repo κ) (c : κ) : (r.advance c).remotes = r.remotes := by
  unfold Repo.advance
  split <;> rfl

theorem act_remotes (G : History κ) (r : Repo κ) (a : UserAct κ) :
    (r.act G a).remotes = r.remotes := by
  cases a with
  | commit c =>
    simp only [Repo.act]
    split
    · split
      · exact advance_remotes r c
      · rfl
    · exact advance_remotes r c
  | create name c =>
    simp only [Repo.act]
    split <;> rfl
  | switch => rfl
  | detach => rfl
  | edit => rfl

theorem act_tracked {ns name : String} {c : κ} (h : Tracked side ns name c w) (side' : Side)
    (a : UserAct κ) : Tracked side ns name c (w.act G side' a) := by
  obtain ⟨r, hr, hc⟩ := h
  cases hr' : w.repo side' with
  | none =>
    rw [World.act, hr']
    exact ⟨r, hr, hc⟩
  | some r' =>
    rw [World.act, hr']
    by_cases hside : side = side'
    · subst hside
      rw [hr, Option.some.injEq] at hr'
      subst hr'
      exact ⟨_, repo_setRepo_self _ _ _, by rw [act_remotes]; exact hc⟩
    · exact ⟨r, (repo_setRepo_other w _ hside).trans hr, hc⟩

end Values

/-! ## Programs among users -/

/-- The world, with the branch the last command was to move. -/
abbrev View (κ : Type) := World κ × Option (Side × String)

section Soundness
variable (G : History κ)

def Rely (v v' : View κ) : Prop := ∃ side a, v' = (v.1.act G side a, v.2)

def Guar (v v' : View κ) : Prop := Descends G v'.2 v.1 v'.1

def Exec (c : Call κ) (v : View κ) (r : Reply c) (v' : View κ) : Prop :=
  ∃ fault, (fault = false → c.Undisturbed v.1) ∧ v.1.exec G fault c = (r, v'.1) ∧ v'.2 = c.moving

/-- A part of git-sync whose commands all keep the property. -/
def Sound {α : Type} (post : α → World κ → Prop) (prog : GitProg κ α) (w : World κ) : Prop :=
  ∀ moving, Holds (Rely G) (Guar G) (Exec G) (fun a v => post a v.1) (fun _ _ => True) prog (w, moving)

/-- Sound whatever the repositories are. -/
def Always {α : Type} (prog : GitProg κ α) : Prop := ∀ w, Sound G (fun _ _ => True) prog w

variable {G} {α β : Type}

/-- Kept by what users do. -/
def Lasts (G : History κ) (P : World κ → Prop) : Prop := ∀ w side a, P w → P (w.act G side a)

theorem Lasts.stable {P : World κ → Prop} (h : Lasts G P) :
    Stable (Rely G) fun v => P v.1 := by
  rintro v v' ⟨side, a, rfl⟩ hP
  exact h v.1 side a hP

theorem sound_ret {post : α → World κ → Prop} {a : α} {w : World κ} (hlasts : Lasts G (post a))
    (h : post a w) : Sound G post (.ret a) w :=
  fun _ => Holds.ret hlasts.stable h

theorem sound_raise (post : α → World κ → Prop) (e : Exit) (w : World κ) :
    Sound G post (.raise e) w :=
  fun _ => Holds.raise (fun _ _ _ _ => trivial) trivial

theorem always_ret (a : α) : Always G (.ret a) := fun _ => sound_ret (fun _ _ _ _ => trivial) trivial

theorem always_raise (e : Exit) : Always G (.raise e : GitProg κ α) := fun _ => sound_raise _ e _

theorem Sound.bind {mid : β → World κ → Prop} {post : α → World κ → Prop} {prog : GitProg κ β}
    {f : β → GitProg κ α} {w : World κ} (h : Sound G mid prog w)
    (hnext : ∀ b w', mid b w' → Sound G post (f b) w') : Sound G post (prog.bind f) w :=
  fun moving => Holds.bind (h moving) fun b v hb => hnext b v.1 hb v.2

theorem Always.bind {prog : GitProg κ β} {f : β → GitProg κ α} (h : Always G prog)
    (hnext : ∀ b, Always G (f b)) : Always G (prog.bind f) :=
  fun w => (h w).bind fun b w' _ => hnext b w'

/-- A command from a condition that users keep. -/
theorem sound_git {P : World κ → Prop} {post : α → World κ → Prop} {c : Call κ}
    {f : Reply c → GitProg κ α} {w : World κ} (hlasts : Lasts G P) (h : P w)
    (hstep : ∀ w fault, P w → (fault = false → c.Undisturbed w) →
      Descends G c.moving w (w.exec G fault c).2 ∧
        Sound G post (f (w.exec G fault c).1) (w.exec G fault c).2) :
    Sound G post ((git c).bind f) w := by
  intro moving
  refine Holds.call hlasts.stable h ?_
  rintro ⟨w', moving'⟩ r ⟨w'', moving''⟩ hP ⟨fault, hcond, hexec, rfl⟩
  obtain ⟨hguar, hsound⟩ := hstep w' fault hP hcond
  rw [hexec] at hguar hsound
  exact ⟨hguar, hsound _⟩

/-- A command that moves no branch. -/
def Call.Reads (G : History κ) (c : Call κ) : Prop := ∀ w : World κ, (w.perform G c).2 = w

theorem exec_reads {c : Call κ} (h : c.Reads G) (w : World κ) (fault : Bool) :
    (w.exec G fault c).2 = w := by
  cases fault with
  | true => rfl
  | false => exact h w

/-- A command that only looks, from a condition that users keep. -/
theorem sound_look {P : World κ → Prop} {post : α → World κ → Prop} {c : Call κ}
    {f : Reply c → GitProg κ α} {w : World κ} (hc : c.Reads G) (hlasts : Lasts G P) (h : P w)
    (hnext : ∀ w fault, P w → Sound G post (f (w.exec G fault c).1) w) :
    Sound G post ((git c).bind f) w := by
  refine sound_git hlasts h fun w fault hP _ => ?_
  rw [exec_reads hc]
  exact ⟨.refl _ w, hnext w fault hP⟩

theorem always_git {c : Call κ} (h : ∀ w fault, (fault = false → c.Undisturbed w) →
    Descends G c.moving w (w.exec G fault c).2) {f : Reply c → GitProg κ α}
    (hnext : ∀ r, Always G (f r)) : Always G ((git c).bind f) := by
  intro w
  refine sound_git (P := fun _ => True) (fun _ _ _ _ => trivial) trivial fun w fault _ hcond => ?_
  exact ⟨h w fault hcond, hnext _ _⟩

theorem always_look {c : Call κ} (hc : c.Reads G) {f : Reply c → GitProg κ α}
    (hnext : ∀ r, Always G (f r)) : Always G ((git c).bind f) := by
  refine always_git (fun w fault _ => ?_) hnext
  rw [exec_reads hc]
  exact .refl _ w

theorem always_orRaise {a : Option β} {f : β → GitProg κ α} (h : ∀ b, Always G (f b)) :
    Always G ((orRaise a).bind f) := by
  cases a with
  | none => exact always_raise .transfer
  | some b => exact h b

theorem always_gitOk {ok : Bool} {f : Unit → GitProg κ α} (h : Always G (f ())) :
    Always G ((gitOk ok).bind f) := by
  cases ok with
  | false => exact always_raise .transfer
  | true => exact h

theorem sound_gitOk_ret (ok : Bool) (a : α) (w : World κ) :
    Sound G (fun _ _ => True) ((gitOk ok).bind fun _ => .ret a) w := by
  cases ok with
  | false => exact sound_raise _ .transfer w
  | true => exact always_ret a w

theorem always_ite {p : Prop} [Decidable p] {a b : GitProg κ α} (ha : Always G a)
    (hb : Always G b) : Always G (if p then a else b) := by
  split
  · exact ha
  · exact hb

/-! ## Commands -/

/-- A command that fails moves nothing. -/
theorem descends_exec {c : Call κ} {w : World κ} {fault : Bool}
    (h : fault = false → Descends G c.moving w (w.perform G c).2) :
    Descends G c.moving w (w.exec G fault c).2 := by
  cases fault with
  | true => exact .refl _ w
  | false => exact h rfl

omit [DecidableEq κ] in
theorem descends_change {moving : Option (Side × String)} {side : Side}
    {f : Repo κ → Option (Repo κ)} {w : World κ}
    (h : ∀ r r', w.repo side = some r → f r = some r' → ∀ name old, r.heads.get name = some old →
      r'.heads.get name = some old ∨ (moving = some (side, name) ∧
        ∃ new, r'.heads.get name = some new ∧ G.ancestor old new = true)) :
    Descends G moving w (w.change side f).2 := by
  unfold World.change
  split
  · rename_i r' hbind
    obtain ⟨r, hr, hf⟩ := Option.bind_eq_some_iff.mp hbind
    exact descends_setRepo hr (h r r' hr hf)
  · exact .refl moving w

theorem descends_fetch (w : World κ) (fault : Bool) (side : Side) (ns : String)
    (bundle : Bundle κ) :
    Descends G (Call.fetch side ns bundle).moving w (w.exec G fault (.fetch side ns bundle)).2 := by
  refine descends_exec fun _ => descends_change fun r r' _ hf name old hold => ?_
  cases hf
  exact Or.inl hold

theorem descends_mergeFfOnly {w : World κ} {fault : Bool} {side : Side} {ref : Ref}
    {branch : String}
    (hcond : fault = false → (Call.mergeFfOnly side ref branch : Call κ).Undisturbed w) :
    Descends G (Call.mergeFfOnly side ref branch : Call κ).moving w
      (w.exec G fault (.mergeFfOnly side ref branch)).2 := by
  refine descends_exec fun hfault => descends_change fun r r' hr hf name old hold => ?_
  have hundisturbed := hcond hfault r
  have hadvance : ∀ new, (∀ v, r.resolve .HEAD = some v → G.ancestor v new = true) →
      r' = r.advance new → r'.heads.get name = some old ∨ (some (side, branch) = some (side, name) ∧
        ∃ new, r'.heads.get name = some new ∧ G.ancestor old new = true) := by
    rintro new hdescends rfl
    rcases advance_heads r new name with hsame | ⟨hhead, hnew⟩
    · exact Or.inl (hsame.trans hold)
    · have hvalue : r.resolve .HEAD = some old := by
        rw [Repo.resolve, hhead]
        exact hold
      rw [hundisturbed name hr hhead]
      exact Or.inr ⟨rfl, new, hundisturbed name hr hhead ▸ hnew, hdescends old hvalue⟩
  unfold Repo.mergeFfOnly at hf
  split at hf
  · cases hf
  · rename_i new _
    split at hf
    · rename_i hunborn
      refine hadvance new (fun v hv => ?_) (Option.some.inj hf).symm
      rw [hunborn] at hv
      cases hv
    · rename_i current hcurrent
      split at hf
      · rw [← Option.some.inj hf]
        exact Or.inl hold
      · split at hf
        · rename_i hancestor
          refine hadvance new (fun v hv => ?_) (Option.some.inj hf).symm
          rw [hcurrent, Option.some.injEq] at hv
          rw [← hv]
          exact hancestor
        · cases hf

theorem descends_resetMixed {w : World κ} {fault : Bool} {side : Side} {ns name : String}
    {old new : κ} (htracked : Tracked side ns name new w) (hancestor : G.ancestor old new = true)
    (hcond : fault = false →
      (Call.resetMixed side (.remotes ns name) name old : Call κ).Undisturbed w) :
    Descends G (Call.resetMixed side (.remotes ns name) name old : Call κ).moving w
      (w.exec G fault (.resetMixed side (.remotes ns name) name old)).2 := by
  refine descends_exec fun hfault => descends_change fun r r' hr hf name' old' hold => ?_
  obtain ⟨r₀, hr₀, hnew⟩ := htracked
  rw [hr, Option.some.injEq] at hr₀
  subst hr₀
  rw [Repo.resolve, hnew, Option.map_some, Option.some.injEq] at hf
  subst hf
  rcases advance_heads r new name' with hsame | ⟨hhead, hmoved⟩
  · exact Or.inl (hsame.trans hold)
  · obtain ⟨rfl, hvalue⟩ := hcond hfault r name' hr hhead
    rw [hold, Option.some.injEq] at hvalue
    rw [hvalue]
    exact Or.inr ⟨rfl, new, hmoved, hancestor⟩

theorem descends_updateRef {w : World κ} {fault : Bool} {side : Side} {name : String}
    {old new : κ} (hancestor : G.ancestor old new = true) :
    Descends G (Call.updateRef side name new old).moving w
      (w.exec G fault (.updateRef side name new old)).2 := by
  refine descends_exec fun _ => descends_change fun r r' _ hf name' old' hold => ?_
  split at hf
  · rename_i hvalue
    rw [← Option.some.inj hf]
    by_cases heq : name' = name
    · subst heq
      rw [hold, Option.some.injEq] at hvalue
      rw [hvalue]
      exact Or.inr ⟨rfl, new, Dict.get_set_self _ _ _, hancestor⟩
    · exact Or.inl ((Dict.get_set_other _ _ heq).trans hold)
  · cases hf

theorem descends_writeRef {w : World κ} {fault : Bool} {name : String} {new : κ}
    (hcond : fault = false → (Call.writeRef name new).Undisturbed w) :
    Descends G (Call.writeRef name new).moving w (w.exec G fault (.writeRef name new)).2 := by
  refine descends_exec fun hfault => descends_change fun r r' hr hf name' old hold => ?_
  rw [← Option.some.inj hf]
  by_cases heq : name' = name
  · subst heq
    rw [hcond hfault r old hr hold]
    exact Or.inl (Dict.get_set_self _ _ _)
  · exact Or.inl ((Dict.get_set_other _ _ heq).trans hold)

theorem descends_setHead (w : World κ) (fault : Bool) (name : String) :
    Descends G (Call.setHead name : Call κ).moving w (w.exec G fault (.setHead name)).2 := by
  refine descends_exec fun _ => descends_change fun r r' _ hf name old hold => ?_
  cases hf
  exact Or.inl hold

theorem descends_gitInit (w : World κ) (fault : Bool) :
    Descends G (Call.gitInit : Call κ).moving w (w.exec G fault .gitInit).2 := by
  refine descends_exec fun _ => ?_
  simp only [World.perform]
  split
  · exact .refl _ w
  · rename_i habsent
    intro side name old hold
    cases side with
    | controller => rw [World.value, World.repo, habsent] at hold; cases hold
    | peer => exact Or.inl hold

theorem descends_removeGitDir {w : World κ} {fault : Bool}
    (hcond : fault = false → (Call.removeGitDir : Call κ).Undisturbed w) :
    Descends G (Call.removeGitDir : Call κ).moving w (w.exec G fault .removeGitDir).2 := by
  refine descends_exec fun hfault => ?_
  intro side name old hold
  cases side with
  | peer => exact Or.inl hold
  | controller =>
    obtain ⟨r, hr, hget⟩ := Option.bind_eq_some_iff.mp hold
    obtain ⟨name', hmem, _⟩ := Dict.get_eq_some.mp hget
    rw [hcond hfault r hr] at hmem
    cases hmem

/-! ## The programs -/

theorem always_branches {f : List String → GitProg κ α} (side : Side) (branch : Option String)
    (h : ∀ names, Always G (f names)) : Always G ((branches side branch).bind f) := by
  cases branch with
  | none =>
    refine Always.bind ?_ h
    refine always_look (c := .listHeads side) (fun _ => rfl) fun names => ?_
    cases names with
    | none => exact always_raise .transfer
    | some names => exact always_ret names
  | some branch =>
    refine Always.bind ?_ h
    refine always_look (c := .refExists side (.heads branch)) (fun _ => rfl) fun _ => ?_
    exact always_orRaise fun _ => always_ret _

/-- What a classification says of a branch it found behind. -/
def Classified (G : History κ) (side : Side) (ns name : String)
    (result : BranchState × κ × κ) (w : World κ) : Prop :=
  result.1 = .behind →
    G.ancestor result.2.1 result.2.2 = true ∧ Tracked side ns name result.2.2 w

theorem classified_lasts (side : Side) (ns name : String) (result : BranchState × κ × κ) :
    Lasts G (Classified G side ns name result) :=
  fun _ side' a h hbehind => ⟨(h hbehind).1, act_tracked (h hbehind).2 side' a⟩

theorem sound_orRaise {a : Option β} {post : α → World κ → Prop} {f : β → GitProg κ α}
    {w : World κ} (h : ∀ b, a = some b → Sound G post (f b) w) :
    Sound G post ((orRaise a).bind f) w := by
  cases a with
  | none => exact sound_raise post .transfer w
  | some b => exact h b rfl

theorem sound_classify (side : Side) (name ns : String) (w : World κ) :
    Sound G (Classified G side ns name) (classify side name ns) w := by
  unfold classify
  refine sound_look (P := fun _ => True) (fun _ => rfl) (fun _ _ _ _ => trivial) trivial ?_
  intro w₁ fault₁ _
  refine sound_orRaise fun old hold => ?_
  -- from here on the branch holds a descendant of `old`
  have hgrown : ∃ v, w₁.value side name = some v ∧ G.ancestor old v = true := by
    cases fault₁ with
    | true => cases hold
    | false => exact ⟨old, hold, G.refl old⟩
  have hlasts : Lasts G fun w : World κ =>
      ∃ v, w.value side name = some v ∧ G.ancestor old v = true := by
    rintro w side' a ⟨v, hv, hv'⟩
    obtain ⟨u, hu, hu'⟩ := act_value G w side' a hv
    exact ⟨u, hu, G.trans _ _ _ hv' hu'⟩
  refine sound_look (fun _ => rfl) hlasts hgrown ?_
  intro w₂ fault₂ hgrown₂
  refine sound_orRaise fun new hnew => ?_
  have htracked : Tracked side ns name new w₂ := by
    cases fault₂ with
    | true => cases hnew
    | false => exact Option.bind_eq_some_iff.mp hnew
  split
  · exact sound_ret (classified_lasts side ns name _) fun h => by cases h
  · refine sound_look (fun _ => rfl)
      (P := fun w => (∃ v, w.value side name = some v ∧ G.ancestor old v = true) ∧
        Tracked side ns name new w)
      (fun w side' a h => ⟨hlasts w side' a h.1, act_tracked h.2 side' a⟩)
      ⟨hgrown₂, htracked⟩ ?_
    rintro w₃ fault₃ ⟨⟨v, hv, hv'⟩, htracked₃⟩
    split
    · rename_i hbehind
      refine sound_ret (classified_lasts side ns name _) fun _ => ⟨?_, htracked₃⟩
      obtain ⟨r, hr, hc⟩ := htracked₃
      cases fault₃ with
      | true => cases hbehind
      | false =>
        rw [value_eq hr] at hv
        simp only [World.exec, World.perform, hr, Option.bind_some, Repo.resolve, hv, hc,
          Option.map_some, Option.getD_some, Bool.false_eq_true, if_false] at hbehind
        exact G.trans _ _ _ hv' hbehind
    · refine sound_look (P := fun _ => True) (fun _ => rfl) (fun _ _ _ _ => trivial) trivial ?_
      intro w₄ fault₄ _
      refine sound_ret (classified_lasts side ns name _) fun h => ?_
      dsimp only at h
      split at h <;> cases h

theorem sound_fastForwardBranch {side : Side} {ns name : String} {current : Option String}
    {dirty advanceDirty : Bool} {old new : κ} {w : World κ}
    (h : Classified G side ns name (.behind, old, new) w) :
    Sound G (fun _ _ => True)
      (fastForwardBranch side ns name current dirty advanceDirty old new) w := by
  have hlasts := classified_lasts (G := G) side ns name (.behind, old, new)
  unfold fastForwardBranch
  split
  · split
    · split
      · refine sound_git hlasts h fun w fault hclassified hcond => ?_
        obtain ⟨hancestor, htracked⟩ := hclassified rfl
        exact ⟨descends_resetMixed htracked hancestor hcond, sound_gitOk_ret _ _ _⟩
      · exact always_ret _ w
    · refine sound_git hlasts h fun w fault _ hcond => ?_
      exact ⟨descends_mergeFfOnly hcond, sound_gitOk_ret _ _ _⟩
  · refine sound_git hlasts h fun w fault hclassified _ => ?_
    exact ⟨descends_updateRef (hclassified rfl).1, sound_gitOk_ret _ _ _⟩

theorem always_visitBranch (side : Side) (ns : String) (current : Option String)
    (dirty advanceDirty : Bool) (name : String) :
    Always G (visitBranch side ns current dirty advanceDirty name : GitProg κ _) := by
  refine always_look (fun _ => rfl) fun _ => always_orRaise fun _ => always_ite ?_ (always_ret _)
  intro w
  refine (sound_classify side name ns w).bind ?_
  rintro ⟨state, old, new⟩ w' hclassified
  dsimp only
  split
  · rename_i hbehind
    subst hbehind
    exact sound_fastForwardBranch hclassified
  · exact always_ret _ w'

theorem always_visitBranches (side : Side) (ns : String) (current : Option String)
    (dirty advanceDirty : Bool) (names : List String) :
    Always G (visitBranches side ns current dirty advanceDirty names : GitProg κ _) := by
  induction names with
  | nil => exact always_ret _
  | cons name rest ih =>
    exact (always_visitBranch side ns current dirty advanceDirty name).bind fun _ =>
      ih.bind fun _ => always_ret _

theorem always_fastForward (side : Side) (ns : String) (branch : Option String)
    (advanceDirty : Bool) : Always G (fastForward side ns branch advanceDirty : GitProg κ _) := by
  refine always_look (fun _ => rfl) fun current => ?_
  refine always_look (fun _ => rfl) fun _ => always_orRaise fun dirty => ?_
  exact always_branches side branch (always_visitBranches side ns current dirty advanceDirty)

theorem always_transfer (destination : Side) (ns : String) (branch : Option String)
    (advanceDirty : Bool) : Always G (transfer destination ns branch advanceDirty : GitProg κ _) := by
  refine always_look (fun _ => rfl) fun _ => always_orRaise fun bundle => ?_
  refine always_git (fun w fault _ => descends_fetch w fault destination ns bundle) fun _ => ?_
  exact always_gitOk (always_fastForward destination ns branch advanceDirty)

theorem always_transferTagsOnly (destination : Side) (branch : String) :
    Always G (transferTagsOnly destination branch : GitProg κ _) := by
  refine always_look (fun _ => rfl) fun _ => always_gitOk ?_
  exact always_look (fun _ => rfl) fun _ => always_orRaise fun _ => always_ret _

theorem always_transferOrTags (destination : Side) (ns : String) (branch : Option String)
    (advanceDirty : Bool) :
    Always G (transferOrTags destination ns branch advanceDirty : GitProg κ _) := by
  cases branch with
  | none => exact always_transfer destination ns none advanceDirty
  | some name =>
    refine always_look (fun _ => rfl) fun _ => always_orRaise fun _ => ?_
    exact always_ite (always_transfer destination ns (some name) advanceDirty)
      (always_transferTagsOnly destination name)

/-! ### Bootstrap -/

theorem always_bootstrapHead (branch : Option String) :
    Always G (bootstrapHead branch : GitProg κ _) := by
  cases branch with
  | some branch =>
    refine always_look (fun _ => rfl) fun _ => always_orRaise fun _ => ?_
    refine always_ite ?_ (always_raise _)
    exact always_look (fun _ => rfl) fun _ => always_orRaise fun _ => always_ret _
  | none =>
    refine always_look (fun _ => rfl) fun (there : Bool) => always_ite ?_ (always_raise _)
    refine always_look (fun _ => rfl) fun _ => always_orRaise fun _ => ?_
    exact always_look (fun _ => rfl) fun _ => always_ret _

theorem always_writeRef {f : Bool → GitProg κ α} (name : String) (new : κ)
    (h : ∀ ok, Always G (f ok)) : Always G ((git (.writeRef name new)).bind f) :=
  always_git (fun _ _ => descends_writeRef) h

theorem always_createHeads (peerNs : String) (names : List String) :
    Always G (createHeads peerNs names : GitProg κ _) := by
  induction names with
  | nil => exact always_ret _
  | cons name rest ih =>
    refine always_ite ih ?_
    refine always_look (fun _ => rfl) fun _ => always_orRaise fun sha => ?_
    exact always_writeRef name sha fun _ => always_gitOk ih

theorem always_installHistory (peerNs : String) (branch : Option String) (peerBranch : String)
    (peerHead : κ) : Always G (installHistory peerNs branch peerBranch peerHead) := by
  refine always_look (fun _ => rfl) fun _ => always_orRaise fun bundle => ?_
  refine always_git (fun w fault _ => descends_fetch w fault .controller peerNs bundle) fun _ => ?_
  refine always_gitOk (always_look (fun _ => rfl) fun _ => always_orRaise fun _ => ?_)
  refine always_ite (always_raise _) ?_
  refine always_look (fun _ => rfl) fun _ => always_orRaise fun names => ?_
  refine (always_createHeads peerNs names).bind fun _ => ?_
  refine always_writeRef peerBranch peerHead fun _ => always_gitOk ?_
  refine always_git (fun w fault _ => descends_setHead w fault peerBranch) fun _ => ?_
  refine always_gitOk (always_look (fun _ => rfl) fun _ => always_gitOk ?_)
  refine always_look (fun _ => rfl) fun _ => always_orRaise fun _ => ?_
  refine always_look (fun _ => rfl) fun _ => always_orRaise fun _ => ?_
  exact always_ite (always_raise _) (always_ret _)

theorem holds_removeOnFailure (created : Bool) {prog : GitProg κ α} {v : View κ}
    (h : Holds (Rely G) (Guar G) (Exec G) (fun _ _ => True) (fun _ _ => True) prog v) :
    Holds (Rely G) (Guar G) (Exec G) (fun _ _ => True) (fun _ _ => True)
      (removeOnFailure created prog) v := by
  induction prog generalizing v with
  | ret a => exact h
  | raise e =>
    have hremove : Always G ((git .removeGitDir).bind fun _ => .raise e : GitProg κ α) :=
      always_git (fun _ _ => descends_removeGitDir) fun _ => always_raise e
    exact always_ite hremove (always_raise e) v.1 v.2
  | call c k ih =>
    exact fun v' hchain r v'' hexec => ⟨(h v' hchain r v'' hexec).1, ih r (h v' hchain r v'' hexec).2⟩

theorem always_bootstrapFromPeer (peerNs : String) (branch : Option String) (dryRun : Bool) :
    Always G (bootstrapFromPeer peerNs branch dryRun : GitProg κ _) := by
  refine always_look (fun _ => rfl) fun (reachable : Bool) => always_ite ?_ (always_raise _)
  refine always_look (fun _ => rfl) fun (there : Bool) => always_ite ?_ (always_raise _)
  refine (always_bootstrapHead branch).bind fun (peerBranch, peerHead) => ?_
  refine always_ite (always_ret _) ?_
  refine always_git (fun w fault _ => descends_gitInit w fault) fun _ => ?_
  refine always_orRaise fun created w moving => holds_removeOnFailure created ?_
  exact always_installHistory peerNs branch peerBranch peerHead w moving

theorem always_transfers (a : Args) : Always G (transfers a : GitProg κ _) := by
  refine (always_ite (always_ret _) (always_transferOrTags _ _ _ _)).bind fun _ => ?_
  exact (always_ite (always_ret _) (always_transferOrTags _ _ _ _)).bind fun _ => always_ret _

theorem always_runGitSyncResult (a : Args) : Always G (runGitSyncResult a : GitProg κ _) := by
  refine always_ite (always_raise _) (always_ite (always_raise _) ?_)
  refine always_look (fun _ => rfl) fun (isRepo : Bool) => ?_
  refine always_look (fun _ => rfl) fun (verified : Bool) => ?_
  refine always_ite (always_ite ?_ (always_raise _)) (always_ite (always_raise _) ?_)
  · exact (always_bootstrapFromPeer _ _ _).bind fun _ => always_ret _
  · refine always_look (fun _ => rfl) fun (reachable : Bool) => always_ite ?_ (always_raise _)
    refine always_look (fun _ => rfl) fun (there : Bool) => always_ite ?_ (always_raise _)
    exact always_ite (always_ret _) (always_transfers a)

/-! ## Runs -/

/-- A state whose rest of the program keeps the property. -/
def SyncState.Safe (G : History κ) (s : SyncState κ) : Prop :=
  ∃ moving, Holds (Rely G) (Guar G) (Exec G) (fun _ _ => True) (fun _ _ => True) s.prog
    (s.world, moving)

theorem step_safe {s : SyncState κ} (h : s.Safe G) {event : SyncEvent κ}
    (hok : s.Undisturbed event) : (s.step G event).Safe G ∧ s.Descends G event := by
  obtain ⟨prog, world⟩ := s
  obtain ⟨moving, h⟩ := h
  cases event with
  | user side a => exact ⟨⟨moving, h.stable ⟨side, a, rfl⟩⟩, trivial⟩
  | command fault =>
    cases prog with
    | ret a => exact ⟨⟨moving, h⟩, fun c k hcall => by cases hcall⟩
    | raise e => exact ⟨⟨moving, h⟩, fun c k hcall => by cases hcall⟩
    | call c k =>
      have hexec : Exec G c (world, moving) (world.exec G fault c).1
          ((world.exec G fault c).2, c.moving) :=
        ⟨fault, fun hfault => hok hfault c k rfl, rfl, rfl⟩
      obtain ⟨hguar, hrest⟩ := Holds.step h hexec
      refine ⟨⟨c.moving, hrest⟩, ?_⟩
      rintro _ _ ⟨⟩
      exact hguar

end Soundness

/-- In a run of git-sync among users, undisturbed wherever a command does not look for itself,
every command moves the classified branch at most, and to a descendant. -/
theorem gitSync_descends (G : History κ) (a : Args) (w : World κ) (events : List (SyncEvent κ))
    (h : Transition.Along (SyncState.step G) SyncState.Undisturbed ⟨runGitSyncResult a, w⟩ events) :
    Transition.Along (SyncState.step G) (SyncState.Descends G) ⟨runGitSyncResult a, w⟩ events := by
  refine Transition.along_of_step (SyncState.Safe G) (fun s event hs hok => step_safe hs hok) ?_ h
  exact ⟨none, always_runGitSyncResult a w none⟩

/-! ## A commit between the classification and the reset -/

inductive SampleCommit where
  | base
  | theirs
  | ours
  deriving DecidableEq, Repr

/-- Two commits on one base. -/
def sampleHistory : History SampleCommit where
  parents
    | .base => []
    | .theirs => [.base]
    | .ours => [.base]
  ancestor := fun a b => a = b ∨ a = .base
  refl := by
    intro c
    cases c <;> rfl
  trans := by
    intro a b c
    cases a <;> cases b <;> cases c <;> decide
  parent := by
    intro p c
    cases p <;> cases c <;> decide

/-- The peer has a commit on `main` that the controller lacks; the controller has edits. -/
def sampleWorld : World SampleCommit where
  controller := some ⟨Dict.empty.set "main" .base, Dict.empty, .branch "main", true⟩
  peer := some ⟨Dict.empty.set "main" .theirs, Dict.empty, .branch "main", false⟩

def samplePull : Args where
  enabled := true
  direction := .pull
  dryRun := false
  branch := none
  branchValid := true
  bootstrap := false
  advanceDirtyWorktree := true
  localNs := "HERE"
  peerNs := "PEER"

def sampleStart : SyncState SampleCommit := ⟨runGitSyncResult samplePull, sampleWorld⟩

/-- The commands up to the classification of `main`. -/
def sampleCommands : List (SyncEvent SampleCommit) := List.replicate 13 (.command false)

theorem gitSync_descends_reset :
    Transition.Along (SyncState.step sampleHistory) (SyncState.Descends sampleHistory) sampleStart
        (sampleCommands ++ [.command false]) ∧
      (Transition.run (SyncState.step sampleHistory) sampleStart
        (sampleCommands ++ [.command false])).world.value .controller "main" = some .theirs := by
  refine ⟨gitSync_descends sampleHistory samplePull sampleWorld _ ?_, rfl⟩
  refine Transition.along_append.mpr ⟨?_, ?_, trivial⟩
  · refine ⟨?_, ?_, ?_, ?_, ?_, ?_, ?_, ?_, ?_, ?_, ?_, ?_, ?_, trivial⟩ <;>
    · rintro _ _ _ ⟨⟩
      trivial
  · rintro _ _ _ ⟨⟩ r name ⟨⟩ ⟨⟩
    exact ⟨rfl, rfl⟩

/-- A user commits between the classification and the reset, and the reset drops the commit. -/
theorem reset_drops_commit :
    ¬ Transition.Along (SyncState.step sampleHistory) (SyncState.Descends sampleHistory) sampleStart
      (sampleCommands ++ [.user .controller (.commit .ours), .command false]) := by
  intro h
  have hreset := (Transition.along_append.mp h).2.2.1 _ _ rfl .controller "main" .ours rfl
  rcases hreset with hkept | ⟨_, new, hnew, hancestor⟩
  · cases hkept
  · cases hnew
    cases hancestor

end Remrun.GitSync
