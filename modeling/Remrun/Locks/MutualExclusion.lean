import Remrun.Locks.Programs

/-!
# Runs of the lock programs

Over every interleaving with crashes and failing calls, at most one live process has the lock,
and only the exact lock of a dead run is adopted. An `acquire` that raises leaves the lock
directories as it found them unless one of its calls failed at the wrong moment.
-/

namespace Remrun.Locks

open Keyed Interleave Snapshot
set_option autoImplicit false

variable {ι : Type} [DecidableEq ι]

/-! ## The invariant -/

/-- What a live process knows of the table. -/
def Knows (host : Host ι) (w : World ι) (p : ι) : Proc → Prop
  | .unborn => True
  | .idle => True
  | .acquiring a prog log =>
    Runs host p a (fun _ v => Own p (a.path host) v.world) (fun _ v => Fair v.log) prog ⟨w, log⟩
  | .raised _ _ => True
  | .holding a => Own p (a.path host) w
  | .releasing a prog => Own p (a.path host) w ∧
      (prog = release host a ∨ prog = .call (.removeLock (a.path host)) fun _ => .ret ())

/-- A raised `acquire` has a fair log. -/
def FairProc : Proc → Prop
  | .raised _ log => Fair log
  | _ => True

structure Good (host : Host ι) (s : System ι) : Prop where
  wf : s.world.WF host
  deadBorn : ∀ p ∈ s.world.dead, p ∈ s.world.born
  knows : ∀ p, s.world.live p = true → Knows host s.world p (s.procs p)
  fair : ∀ p, FairProc (s.procs p)

section
variable {host : Host ι} {p q : ι} {w w' : World ι} {s : System ι}

theorem live_iff : w.live p = true ↔ p ∈ w.born ∧ p ∉ w.dead := by
  unfold World.live
  rw [Bool.and_eq_true, decide_eq_true_eq, decide_eq_true_eq]

/-- What a process knows survives the steps of the others. -/
theorem Knows.stable {proc : Proc} (hrely : Rely host p w w') (h : Knows host w p proc) :
    Knows host w' p proc := by
  cases proc with
  | unborn => trivial
  | idle => trivial
  | acquiring a prog log =>
    have hview : ViewRely host p ⟨w, log⟩ ⟨w', log⟩ := ⟨hrely, rfl⟩
    exact Holds.stable hview h
  | raised fault log => trivial
  | holding a => exact Own.stable _ _ _ hrely h
  | releasing a prog => exact ⟨Own.stable _ _ _ hrely h.1, h.2⟩

/-- An `acquire` between two calls, or at its end. -/
theorem knows_acquired {a : Args} {prog : LockProg Unit} {log : CallLog}
    (h : Runs host p a (fun _ v => Own p (a.path host) v.world) (fun _ v => Fair v.log) prog ⟨w, log⟩) :
    Knows host w p (acquired a log prog) ∧ FairProc (acquired a log prog) := by
  cases prog with
  | ret u => exact ⟨h _ .refl, trivial⟩
  | raise fault => exact ⟨trivial, h _ .refl⟩
  | call c k => exact ⟨h, trivial⟩

theorem fairProc_released (a : Args) (prog : LockProg Unit) : FairProc (released a prog) := by
  cases prog with
  | ret u => trivial
  | raise fault => trivial
  | call c k => trivial

/-- A step of one process: its own part, and the guarantee for the others. -/
theorem Good.advance (h : Good host s) {proc : Proc} (hguar : Guar host p s.world w')
    (hknows : s.world.live p = true → Knows host w' p proc) (hfair : FairProc proc) :
    Good host { s.setProc p proc with world := w' } where
  wf := hguar.wf h.wf
  deadBorn := by
    intro q hq
    dsimp only at hq ⊢
    rw [hguar.dead] at hq
    rw [hguar.born]
    exact h.deadBorn q hq
  knows := by
    intro q hlive
    have hlive' : s.world.live q = true := by
      rw [live_iff] at hlive ⊢
      rw [← hguar.born, ← hguar.dead]
      exact hlive
    by_cases hpq : q = p
    · subst hpq
      show Knows host w' q (Function.update s.procs q proc q)
      rw [Function.update_self]
      exact hknows hlive'
    · show Knows host w' q (Function.update s.procs p proc q)
      rw [Function.update_of_ne hpq]
      exact (h.knows q hlive').stable (hguar.rely hpq (live_iff.mp hlive').2)
  fair := by
    intro q
    by_cases hpq : q = p
    · subst hpq
      show FairProc (Function.update s.procs q proc q)
      rw [Function.update_self]
      exact hfair
    · show FairProc (Function.update s.procs p proc q)
      rw [Function.update_of_ne hpq]
      exact h.fair q

/-- A call of an `acquire` that is under way. -/
theorem Good.acquireCall (h : Good host s) (hlive : s.world.live p = true) {a : Args} {c : Call}
    {k : Reply c → LockProg Unit} {log : CallLog} (hproc : s.procs p = .acquiring a (.call c k) log)
    (fault : Bool) :
    ViewGuar host p a ⟨s.world, log⟩ ⟨(s.world.exec host p fault c).2,
        log.after s.world c (s.world.exec host p fault c).1⟩ ∧
      Runs host p a (fun _ v => Own p (a.path host) v.world) (fun _ v => Fair v.log)
        (k (s.world.exec host p fault c).1) ⟨(s.world.exec host p fault c).2,
          log.after s.world c (s.world.exec host p fault c).1⟩ := by
  have hknows := h.knows p hlive
  rw [hproc] at hknows
  exact Holds.step hknows ⟨fault, rfl, rfl⟩

/-- A call of a `release`. -/
theorem Good.releaseCall (h : Good host s) (hlive : s.world.live p = true) {a : Args} {c : Call}
    {k : Reply c → LockProg Unit} (hproc : s.procs p = .releasing a (.call c k)) (fault : Bool) :
    Guar host p s.world (s.world.exec host p fault c).2 ∧
      Knows host (s.world.exec host p fault c).2 p (released a (k (s.world.exec host p fault c).1)) := by
  have hknows := h.knows p hlive
  rw [hproc] at hknows
  obtain ⟨⟨dir, hdir, hcreator, hothers⟩, hprog⟩ := hknows
  rcases hprog with hprog | hprog
  · obtain ⟨rfl, hk⟩ := Prog.call.inj hprog
    obtain rfl := eq_of_heq hk
    cases hexec : s.world.exec host p fault (.unlinkInfo (a.path host)) with
    | mk r world =>
      rcases exec_unlinkInfo hexec with ⟨hr, rfl⟩ | ⟨rfl, dir', hdir', -, rfl⟩
      · refine ⟨Guar.refl _, ?_⟩
        have hown : Own p (a.path host) s.world := ⟨dir, hdir, hcreator, hothers⟩
        cases r with
        | done => exact absurd rfl hr
        | alreadyThere => trivial
        | notThere => exact ⟨hown, Or.inr rfl⟩
        | failed => trivial
      · rw [hdir] at hdir'
        cases hdir'
        have hown : Own p (a.path host)
            (s.world.setLock (a.path host) { dir with metadata := .missing }) := by
          refine ⟨{ dir with metadata := .missing }, ?_, hcreator, fun path' hne => ?_⟩
          · rw [get_setLock, if_pos rfl]
          · rw [get_setLock, if_neg hne]
            exact hothers path' hne
        refine ⟨guar_setLock hdir rfl (Or.inl hcreator) (Or.inr (Or.inl rfl)) ?_, hown, Or.inr rfl⟩
        exact fun _ _ _ h => nomatch h
  · obtain ⟨rfl, hk⟩ := Prog.call.inj hprog
    obtain rfl := eq_of_heq hk
    cases hexec : s.world.exec host p fault (.removeLock (a.path host)) with
    | mk r world =>
      rcases exec_removeLock hexec with ⟨-, rfl⟩ | ⟨-, dir', hdir', rfl⟩
      · exact ⟨Guar.refl _, trivial⟩
      · rw [hdir] at hdir'
        cases hdir'
        exact ⟨guar_popLock hdir (Or.inl hcreator), trivial⟩

/-- A step in which the table stays as it is for the others. -/
theorem Good.setProc (h : Good host s) {proc : Proc}
    (hknows : s.world.live p = true → Knows host s.world p proc) (hfair : FairProc proc) :
    Good host (s.setProc p proc) :=
  h.advance (Guar.refl _) hknows hfair

theorem Good.startAcquire (h : Good host s) (hlive : s.world.live p = true) (a : Args) :
    Good host (s.setProc p (acquired a .empty (acquire host p a))) := by
  have hruns : Runs host p a (fun _ v => Own p (a.path host) v.world) (fun _ v => Fair v.log)
      (acquire host p a) ⟨s.world, .empty⟩ :=
    runs_acquire ⟨⟨h.wf, (live_iff.mp hlive).1⟩, rfl, rfl, rfl, rfl⟩
  exact h.setProc (fun _ => (knows_acquired hruns).1) (knows_acquired hruns).2

theorem Good.spawn (h : Good host s) (hnew : p ∉ s.world.born) :
    Good host { s.setProc p .idle with world := { s.world with born := p :: s.world.born } } where
  wf := ⟨h.wf.recorded, fun path dir c hdir hc =>
    List.mem_cons_of_mem _ (h.wf.creators path dir c hdir hc), h.wf.scopes⟩
  deadBorn := fun q hq => List.mem_cons_of_mem _ (h.deadBorn q hq)
  knows := by
    intro q hlive
    by_cases hpq : q = p
    · subst hpq
      show Knows host _ q (Function.update s.procs q .idle q)
      rw [Function.update_self]
      trivial
    · show Knows host _ q (Function.update s.procs p .idle q)
      rw [Function.update_of_ne hpq]
      obtain ⟨hborn, hdead⟩ := live_iff.mp hlive
      have hlive' : s.world.live q = true :=
        live_iff.mpr ⟨(List.mem_cons.mp hborn).resolve_left hpq, hdead⟩
      exact (h.knows q hlive').stable rely_spawn
  fair := by
    intro q
    by_cases hpq : q = p
    · subst hpq
      show FairProc (Function.update s.procs q .idle q)
      rw [Function.update_self]
      trivial
    · show FairProc (Function.update s.procs p .idle q)
      rw [Function.update_of_ne hpq]
      exact h.fair q

theorem Good.crash (h : Good host s) (hlive : s.world.live p = true) :
    Good host { s with world := { s.world with dead := p :: s.world.dead } } where
  wf := ⟨h.wf.recorded, h.wf.creators, h.wf.scopes⟩
  deadBorn := by
    intro q hq
    rcases List.mem_cons.mp hq with rfl | hq
    · exact (live_iff.mp hlive).1
    · exact h.deadBorn q hq
  knows := by
    intro q hlive'
    obtain ⟨hborn, hdead⟩ := live_iff.mp hlive'
    have hold : s.world.live q = true :=
      live_iff.mpr ⟨hborn, fun hq => hdead (List.mem_cons_of_mem _ hq)⟩
    exact (h.knows q hold).stable rely_crash
  fair := h.fair

/-! ## One step -/

/-- What a step can do. -/
inductive Stepped (host : Host ι) (s : System ι) : Action ι → System ι → Prop
  | stays (action : Action ι) : Stepped host s action s
  | spawn {p : ι} (hnew : p ∉ s.world.born) : Stepped host s (.spawn p)
      { s.setProc p .idle with world := { s.world with born := p :: s.world.born } }
  | acquire {p : ι} (a : Args) (hlive : s.world.live p = true) : Stepped host s (.acquire p a)
      (s.setProc p (acquired a .empty (acquire host p a)))
  | acquireCall {p : ι} {a : Args} {c : Call} {k : Reply c → LockProg Unit} {log : CallLog}
      (hlive : s.world.live p = true) (hproc : s.procs p = .acquiring a (.call c k) log) (fault : Bool) :
      Stepped host s (.call p fault)
        { s.setProc p (acquired a (log.after s.world c (s.world.exec host p fault c).1)
            (k (s.world.exec host p fault c).1)) with
          world := (s.world.exec host p fault c).2 }
  | release {p : ι} {a : Args} (hlive : s.world.live p = true) (hproc : s.procs p = .holding a) :
      Stepped host s (.release p) (s.setProc p (released a (release host a)))
  | releaseCall {p : ι} {a : Args} {c : Call} {k : Reply c → LockProg Unit}
      (hlive : s.world.live p = true) (hproc : s.procs p = .releasing a (.call c k)) (fault : Bool) :
      Stepped host s (.call p fault)
        { s.setProc p (released a (k (s.world.exec host p fault c).1)) with
          world := (s.world.exec host p fault c).2 }
  | crash {p : ι} (hlive : s.world.live p = true) : Stepped host s (.crash p)
      { s with world := { s.world with dead := p :: s.world.dead } }

theorem stepped (host : Host ι) (s : System ι) (action : Action ι) :
    Stepped host s action (step host s action) := by
  cases action with
  | spawn p =>
    simp only [step]
    split
    · exact .stays _
    · exact .spawn ‹_›
  | acquire p a =>
    simp only [step]
    split
    · split
      · exact .acquire a ‹_›
      · exact .acquire a ‹_›
      · exact .stays _
    · exact .stays _
  | call p fault =>
    simp only [step]
    split
    · split
      · exact .acquireCall ‹_› ‹_› fault
      · exact .releaseCall ‹_› ‹_› fault
      · exact .stays _
    · exact .stays _
  | release p =>
    simp only [step]
    split
    · split
      · exact .release ‹_› ‹_›
      · exact .stays _
    · exact .stays _
  | crash p =>
    simp only [step]
    split
    · exact .crash ‹_›
    · exact .stays _

theorem Good.step (h : Good host s) (action : Action ι) : Good host (step host s action) := by
  have hstepped := stepped host s action
  generalize Locks.step host s action = s' at hstepped ⊢
  cases hstepped with
  | stays => exact h
  | spawn hnew => exact h.spawn hnew
  | acquire a hlive => exact h.startAcquire hlive a
  | acquireCall hlive hproc fault =>
    obtain ⟨hguar, hruns⟩ := h.acquireCall hlive hproc fault
    exact h.advance hguar.world (fun _ => (knows_acquired hruns).1) (knows_acquired hruns).2
  | release hlive hproc =>
    have hown := h.knows _ hlive
    rw [hproc] at hown
    exact h.setProc (fun _ => ⟨hown, Or.inl rfl⟩) trivial
  | releaseCall hlive hproc fault =>
    obtain ⟨hguar, hknows⟩ := h.releaseCall hlive hproc fault
    exact h.advance hguar (fun _ => hknows) (fairProc_released _ _)
  | crash hlive => exact h.crash hlive

/-! ## The log -/

/-- The log of an `acquire` names the lock directories that came and went in a call of it. -/
structure Records (w w' : World ι) (log log' : CallLog) : Prop where
  made : ∀ path, path ∈ log'.made ↔ path ∈ log.made ∨ w.has path = false ∧ w'.has path = true
  removed : ∀ path, path ∈ log'.removed ↔
    path ∈ log.removed ∨ w.has path = true ∧ w'.has path = false

omit [DecidableEq ι] in
theorem Records.same {log log' : CallLog} (hhas : ∀ path, w'.has path = w.has path)
    (hmade : log'.made = log.made) (hremoved : log'.removed = log.removed) :
    Records w w' log log' := by
  refine ⟨fun path => ?_, fun path => ?_⟩
  · rw [hmade, hhas]
    cases w.has path <;> simp
  · rw [hremoved, hhas]
    cases w.has path <;> simp

omit [DecidableEq ι] in
theorem has_setLock (w : World ι) (path path' : LockPath) (dir : LockDir ι) :
    (w.setLock path dir).has path' = (decide (path' = path) || w.has path') := by
  unfold World.has
  rw [get_setLock]
  by_cases hpath : path' = path <;> simp [hpath]

omit [DecidableEq ι] in
theorem has_setLock_of_has {path : LockPath} {dir dir' : LockDir ι} (hdir : w.locks.get path = some dir)
    (path' : LockPath) : (w.setLock path dir').has path' = w.has path' := by
  rw [has_setLock]
  by_cases hpath : path' = path
  · subst hpath
    simp [World.has, hdir]
  · simp [hpath]

omit [DecidableEq ι] in
theorem Records.makes {log : CallLog} {path : LockPath} {dir : LockDir ι}
    (hnew : w.has path = false) (hhas : ∀ path', w'.has path' = (w.setLock path dir).has path') :
    Records w w' log { log with made := log.made ++ [path] } := by
  refine ⟨fun path' => ?_, fun path' => ?_⟩
  · rw [hhas, has_setLock, List.mem_append, List.mem_singleton]
    by_cases hpath : path' = path
    · subst hpath
      simp [hnew]
    · cases w.has path' <;> simp [hpath]
  · rw [hhas, has_setLock]
    cases w.has path' <;> simp

omit [DecidableEq ι] in
theorem Records.removes {log : CallLog} {path : LockPath} {dir : LockDir ι}
    (hdir : w.locks.get path = some dir) :
    Records w { w with locks := w.locks.pop path } log
      { log with removed := log.removed ++ [path] } := by
  have hhas : ∀ path', ({ w with locks := w.locks.pop path } : World ι).has path' =
      (decide (path' ≠ path) && w.has path') := by
    intro path'
    unfold World.has
    have hget : (w.locks.pop path).get path' = if path' = path then none else w.locks.get path' :=
      Dict.get_pop _ _ _
    dsimp only
    rw [hget]
    by_cases hpath : path' = path <;> simp [hpath]
  have hthere : w.has path = true := by
    unfold World.has
    rw [hdir]
    rfl
  refine ⟨fun path' => ?_, fun path' => ?_⟩
  · rw [hhas]
    cases w.has path' <;> simp
  · rw [hhas, List.mem_append, List.mem_singleton]
    by_cases hpath : path' = path
    · subst hpath
      simp [hthere]
    · cases w.has path' <;> simp [hpath]

/-- Every call is logged. -/
theorem exec_records (host : Host ι) (p : ι) (fault : Bool) (c : Call) (w : World ι) (log : CallLog) :
    Records w (w.exec host p fault c).2 log (log.after w c (w.exec host p fault c).1) := by
  cases hexec : w.exec host p fault c with
  | mk r w' =>
    cases c with
    | makeRoot => exact Records.same (fun _ => by cases fault <;> cases hexec <;> rfl) rfl rfl
    | makeGuard =>
      rcases exec_makeGuard hexec with ⟨-, rfl⟩ | ⟨-, -, rfl⟩
      · exact Records.same (fun _ => rfl) rfl rfl
      · exact Records.same (fun _ => rfl) rfl rfl
    | removeGuard =>
      rcases exec_removeGuard hexec with rfl | rfl
      · exact Records.same (fun _ => rfl) rfl rfl
      · exact Records.same (fun _ => rfl) rfl rfl
    | wholeExists => cases hexec; exact Records.same (fun _ => rfl) rfl rfl
    | scopesExist => cases hexec; exact Records.same (fun _ => rfl) rfl rfl
    | listScopes => cases hexec; exact Records.same (fun _ => rfl) rfl rfl
    | isDir path => cases hexec; exact Records.same (fun _ => rfl) rfl rfl
    | infoExists path => cases hexec; exact Records.same (fun _ => rfl) rfl rfl
    | readInfo path => cases hexec; exact Records.same (fun _ => rfl) rfl rfl
    | probe pid =>
      cases hexec
      refine Records.same (fun _ => rfl) ?_ ?_
      · dsimp only
        generalize (fault || w.born.any fun q => w.live q && host.pid q = pid) = alive
        cases alive <;> rfl
      · dsimp only
        generalize (fault || w.born.any fun q => w.live q && host.pid q = pid) = alive
        cases alive <;> rfl
    | makeParent path =>
      have hparent : ∀ path', (w.withParent path).has path' = w.has path' := by
        cases path <;> exact fun _ => rfl
      rcases exec_makeParent hexec with ⟨rfl, rfl⟩ | ⟨rfl, rfl⟩
      · exact Records.same (fun _ => rfl) rfl rfl
      · exact Records.same hparent rfl rfl
    | makeLock path =>
      simp only [World.exec] at hexec
      split at hexec
      · cases hexec
        exact Records.same (fun _ => rfl) rfl rfl
      · split at hexec
        · cases hexec
          exact Records.same (fun _ => rfl) rfl rfl
        · rename_i hnew
          cases hexec
          exact Records.makes (Bool.eq_false_of_not_eq_true hnew) fun _ => rfl
    | makeInfoParent path =>
      simp only [World.exec] at hexec
      split at hexec
      · cases hexec
        exact Records.same (fun _ => rfl) rfl rfl
      · cases hthere : w.has path with
        | true =>
          rw [hthere] at hexec
          cases hexec
          have hlog : log.after w (.makeInfoParent path) .done = log := if_pos hthere
          rw [hlog]
          exact Records.same (fun _ => rfl) rfl rfl
        | false =>
          rw [hthere] at hexec
          cases hexec
          have hlog : log.after w (.makeInfoParent path) .done =
              { log with made := log.made ++ [path] } :=
            if_neg (Bool.eq_false_iff.mp hthere)
          rw [hlog]
          have hhas : ∀ path', ((w.withParent path).setLock path ⟨.missing, false, some p⟩).has path' =
              (w.setLock path ⟨.missing, false, some p⟩).has path' := by
            intro path'
            rw [has_setLock, has_setLock]
            cases path <;> rfl
          exact Records.makes hthere hhas
    | writeTmp path =>
      cases hdir : w.locks.get path with
      | none =>
        simp only [World.exec, hdir] at hexec
        cases hexec
        exact Records.same (fun _ => rfl) rfl rfl
      | some dir =>
        obtain ⟨hr, rfl⟩ := exec_writeTmp hexec hdir
        rcases hr with rfl | rfl
        · exact Records.same (has_setLock_of_has hdir) rfl rfl
        · exact Records.same (has_setLock_of_has hdir) rfl rfl
    | replaceInfo path info =>
      cases hdir : w.locks.get path with
      | none =>
        simp only [World.exec, hdir] at hexec
        cases hexec
        exact Records.same (fun _ => rfl) rfl rfl
      | some dir =>
        rcases exec_replaceInfo hexec hdir with ⟨rfl, rfl⟩ | ⟨rfl, rfl⟩
        · exact Records.same (fun _ => rfl) rfl rfl
        · exact Records.same (has_setLock_of_has hdir) rfl rfl
    | unlinkInfo path =>
      rcases exec_unlinkInfo hexec with ⟨hr, rfl⟩ | ⟨rfl, dir, hdir, -, rfl⟩
      · cases r with
        | done => exact absurd rfl hr
        | alreadyThere => exact Records.same (fun _ => rfl) rfl rfl
        | notThere => exact Records.same (fun _ => rfl) rfl rfl
        | failed => exact Records.same (fun _ => rfl) rfl rfl
      · have hlog : log.after w (.unlinkInfo path) .done =
            { log with unlinked := log.unlinked ++ [(path, dir.metadata)] } := by
          simp only [CallLog.after, hdir]
        rw [hlog]
        exact Records.same (has_setLock_of_has hdir) rfl rfl
    | removeLock path =>
      rcases exec_removeLock hexec with ⟨hr, rfl⟩ | ⟨rfl, dir, hdir, rfl⟩
      · cases r with
        | done => exact absurd rfl hr
        | alreadyThere => exact Records.same (fun _ => rfl) rfl rfl
        | notThere => exact Records.same (fun _ => rfl) rfl rfl
        | failed => exact Records.same (fun _ => rfl) rfl rfl
      · exact Records.removes hdir

/-! ## Every run -/

theorem good_initial {s₀ : System ι} (h : Initial s₀) : Good host s₀ where
  wf := by
    refine ⟨fun path dir c info hdir hc => ?_, fun path dir c hdir hc => ?_, h.scopes⟩
    · rw [h.creator path dir hdir] at hc
      cases hc
    · rw [h.creator path dir hdir] at hc
      cases hc
  deadBorn := by
    intro p hp
    rw [h.dead] at hp
    cases hp
  knows := by
    intro p _
    rw [h.unborn p]
    trivial
  fair := by
    intro p
    rw [h.unborn p]
    trivial

theorem good_run {s₀ : System ι} (h : Initial s₀) (actions : List (Action ι)) :
    Good host (Transition.run (step host) s₀ actions) :=
  Transition.run_invariant (Good host) (fun _ action hgood _ => hgood.step action) (good_initial h)
    Transition.along_true

/-- After a returned `acquire` whose `release` is not over. -/
def Proc.hasLock : Proc → Bool
  | .holding _ => true
  | .releasing _ _ => true
  | _ => false

def System.HasLock (s : System ι) (p : ι) : Prop :=
  s.world.live p = true ∧ (s.procs p).hasLock = true

/-- What a state and the next call of an `acquire` in it have to meet. -/
structure LockSafe (host : Host ι) (s : System ι) : Prop where
  exclusive : ∀ p q, s.HasLock p → s.HasLock q → p = q
  adopts : ∀ p a c k log fault, s.world.live p = true → s.procs p = .acquiring a (.call c k) log →
    Adopts host a ⟨s.world, log⟩ ⟨(step host s (.call p fault)).world, log⟩
  logged : ∀ p a c k log fault, s.world.live p = true → s.procs p = .acquiring a (.call c k) log →
    ∃ prog log', (step host s (.call p fault)).procs p = acquired a log' prog ∧
      Records s.world (step host s (.call p fault)).world log log'
  tidy : ∀ p fault log, s.procs p = .raised fault log → (LeavesAsFound log ↔ ¬ Harmful log)

theorem Good.hasLock (h : Good host s) (hlock : s.HasLock p) : ∃ path, Own p path s.world := by
  obtain ⟨hlive, hlock⟩ := hlock
  have hknows := h.knows p hlive
  cases hproc : s.procs p with
  | unborn => simp [hproc, Proc.hasLock] at hlock
  | idle => simp [hproc, Proc.hasLock] at hlock
  | acquiring a prog log => simp [hproc, Proc.hasLock] at hlock
  | raised fault log => simp [hproc, Proc.hasLock] at hlock
  | holding a =>
    rw [hproc] at hknows
    exact ⟨_, hknows⟩
  | releasing a prog =>
    rw [hproc] at hknows
    exact ⟨_, hknows.1⟩

theorem step_acquireCall {a : Args} {c : Call} {k : Reply c → LockProg Unit} {log : CallLog}
    (hlive : s.world.live p = true) (hproc : s.procs p = .acquiring a (.call c k) log) (fault : Bool) :
    step host s (.call p fault) =
      { s.setProc p (acquired a (log.after s.world c (s.world.exec host p fault c).1)
          (k (s.world.exec host p fault c).1)) with
        world := (s.world.exec host p fault c).2 } := by
  simp only [step, hlive, hproc]
  rfl

theorem Good.safe (h : Good host s) : LockSafe host s where
  exclusive := by
    intro p q hp hq
    obtain ⟨path, hown⟩ := h.hasLock hp
    obtain ⟨path', hown'⟩ := h.hasLock hq
    exact hown.unique hown'
  adopts := by
    intro p a c k log fault hlive hproc
    rw [step_acquireCall hlive hproc]
    exact (h.acquireCall hlive hproc fault).1.adopts
  logged := by
    intro p a c k log fault hlive hproc
    rw [step_acquireCall hlive hproc]
    exact ⟨_, _, Function.update_self _ _ _, exec_records host p fault c s.world log⟩
  tidy := by
    intro p fault log hproc
    have hfair := h.fair p
    rw [hproc] at hfair
    exact hfair

end

/-- Process ids from 4001 on, and the key of the scope `docs`. -/
def sampleHost : Host Nat where
  pid p := 4001 + p
  pid_pos p := by omega
  scopeKey scope := if scope = "docs" then "46b42b4229cd7a39" else scope

def emptyTable : System Nat where
  world := ⟨.absent, false, .empty, [], []⟩
  procs _ := .unborn

theorem emptyTable_initial : Initial emptyTable where
  unborn _ := rfl
  born := rfl
  dead := rfl
  guard _ := nofun
  creator _ _ h := nomatch h
  scopes _ _ h := nomatch h

def sampleArgs : Args where
  projectId := "demo"
  target := "gpu"
  scope := some "docs"
  runId := some "run-1"
  adoptDeadRun := true
  acquiredAt := "2024-05-01T00:00:00Z"
  attempts := 100

/-- A process takes the lock and crashes; the next one adopts it. -/
def handover : List (Action Nat) :=
  [.spawn 0, .acquire 0 sampleArgs] ++ List.replicate 10 (.call 0 false) ++
    [.crash 0, .spawn 1, .acquire 1 sampleArgs] ++ List.replicate 18 (.call 1 false)

/-- `info.json.tmp` cannot be written. -/
def diskFull : List (Action Nat) :=
  [.spawn 0, .acquire 0 sampleArgs] ++ List.replicate 7 (.call 0 false) ++
    [.call 0 true, .call 0 false]

end Remrun.Locks
