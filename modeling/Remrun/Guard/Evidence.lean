import Remrun.Guard.Launch

/-!
# The evidence of a guarded launch

The helper sets its flags around the write to the gate so that what it reports of the launch is
what it has been told. The gate's report is true unless an exception other than that of the exec
ends `Popen` after the fork, or the forked child dies before its exec, which `Popen` takes for
success. In all other runs records and evidence are truthful, and the helper releases a claimed
lease only after the process tree was seen gone.
-/

namespace Remrun.Guard

set_option autoImplicit false

open Transition

/-! ## The property -/

/-- What is known of the launch is true. -/
structure Launch.Truthful (s : Launch) : Prop where
  admitted : s.executed = true → s.admitted = true
  notStarted : ∀ r, .result r ∈ s.stderr → r.commandStarted = false → s.executed = false
  started : ∀ r, .result r ∈ s.stderr → r.commandStarted = true → s.executed = true
  /-- without a report on the opened gate there is no result -/
  silent : s.pending = true → (∀ r, .result r ∉ s.stderr) ∧
    ∀ agrees code, finalizeGuardedResult agrees code s.stderr = .raised none
  evidence : ∀ agrees code started,
    finalizeGuardedResult agrees code s.stderr = .raised (some started) → s.executed = started
  freed : s.freed = true → s.seenGone = true

/-- No exception but that of a failed exec ends `Popen` after the fork, and the forked child does
not die before its exec. -/
def Launch.Undisturbed (s : Launch) : Event → Prop
  | .gate o => s.gate = .forked → o.fault ≠ none → s.command = .execFailed
  | .commandDies => s.command ≠ .forked
  | _ => True

instance (s : Launch) (event : Event) : Decidable (s.Undisturbed event) := by
  cases event <;> (unfold Launch.Undisturbed; infer_instance)

/-! ## The invariant -/

def Gate.waits : Gate → Bool
  | .absent => true
  | .starting => true
  | .reading => true
  | .exited => true
  | _ => false

/-- The gate has not been opened. -/
structure Launch.Cold (s : Launch) : Prop where
  opened : s.opened = false
  gate : s.gate.waits = true
  command : s.command = .absent
  report : s.report = none

def Command.unstarted : Command → Prop
  | .absent => True
  | .execFailed => True
  | _ => False

def Command.started : Command → Prop
  | .running => True
  | .ended => True
  | _ => False

/-- The argv is not executed any more. -/
def Launch.Barred (s : Launch) : Prop := s.Cold ∨ s.gate = .exited ∧ s.command.unstarted

def Report.Right (command : Command) (executed : Bool) : Report → Prop
  | .confirmed => executed = true
  | .failed _ => command.unstarted

/-- What the phase of the gate says of the command and of the report in the pipe. -/
def Gate.Right (command : Command) (report : Option Report) (executed : Bool) : Gate → Prop
  | .absent => command = .absent ∧ report = none
  | .starting => command = .absent ∧ report = none
  | .reading => command = .absent ∧ report = none
  | .launching => command = .absent ∧ report = none
  | .forked => command ≠ .absent ∧ report = none
  | .reporting r => r.Right command executed ∧ report = none
  | .supervising => executed = true ∧ ∀ r, report = some r → r = .confirmed
  | .exited => ∀ r, report = some r → r.Right command executed

def Record.Right (s : Launch) (r : Record) : Prop :=
  (r.commandStarted = false → s.Barred) ∧ (r.commandStarted = true → s.executed = true)

/-- The part of the invariant that is not about the helper. -/
structure Shared (s : Launch) : Prop where
  admitted : ¬ s.Cold → s.admitted = true
  started : s.executed = true ↔ s.command.started
  gate : s.gate.Right s.command s.report s.executed
  told : ∀ r, .result r ∈ s.stderr → r.Right s
  quiet : s.pending = true → ∀ r, .result r ∉ s.stderr
  freed : s.freed = true → s.seenGone = true

/-- The helper does not open the gate any more. -/
def Phase.over : Phase → Bool
  | .recovering _ => true
  | .felling _ => true
  | .settling _ _ => true
  | .holding _ => true
  | .printing _ => true
  | .returning => true
  | _ => false

/-- What the variables of the helper stand for. -/
structure Steady (s : Launch) (h : Helper) : Prop where
  cold : h.released = false → s.Cold ∧ s.pending = false
  confirmed : h.confirmed = true → s.executed = true ∧ s.pending = false ∧ h.released = true
  child : h.claimed = true → h.child = true

def After.Right (s : Launch) (h : Helper) : After → Prop
  | .declined _ _ => h.released = false
  | .launchFailed _ => s.Barred ∧ s.pending = false
  | .enforced _ => h.confirmed = true
  | .drained _ _ => h.confirmed = true
  | .recovered _ => True

/-- A record that is about to be written. -/
def Due (s : Launch) (record : Option Record) : Prop :=
  ∀ r, record = some r → r.Right s ∧ s.pending = false

def Phase.Right (s : Launch) (h : Helper) : Phase → Prop
  | .initializing => s.gate = .absent ∧ h.released = false ∧ h.child = false
  | .spawning => s.gate = .absent ∧ h.released = false
  | .greeting => h.released = false
  | .identifying => h.released = false ∧ h.child = true
  | .claiming => h.released = false ∧ h.child = true
  | .declining _ _ => h.released = false
  | .owning => h.released = false ∧ h.child = true ∧ s.admitted = true
  | .announcing => h.released = false ∧ s.admitted = true
  | .committing => h.released = false ∧ s.admitted = true
  | .writing => h.released = true ∧ h.confirmed = false ∧ s.pending = true ∧ s.admitted = true
  | .closing => h.released = true ∧ h.confirmed = false
  | .confirming => h.released = true ∧ h.confirmed = false
  | .monitoring => h.confirmed = true
  | .draining _ => h.confirmed = true
  | .recovering _ => True
  | .felling after => after.Right s h
  | .settling cleanup record =>
    Due s record ∧ (cleanup = true → h.claimed = true → s.seenGone = true)
  | .holding record => Due s record
  | .printing record => Due s record
  | .returning => True

structure Fits (s : Launch) (h : Helper) : Prop extends Steady s h where
  quiet : h.phase.over = false → ∀ r, .result r ∉ s.stderr
  phase : h.phase.Right s h

structure Inv (s : Launch) : Prop where
  shared : Shared s
  fits : ∀ h, s.helper = some h → Fits s h

section Invariant
variable {a : Args} {s s' : Launch} {h next : Helper} {r : Record} {record : Option Record}

theorem not_started_of_unstarted {command : Command} (h : command.unstarted) :
    ¬ command.started := by
  cases command <;> simp_all [Command.unstarted, Command.started]

theorem Shared.not_executed (hs : Shared s) (h : s.command.unstarted) : s.executed = false :=
  Bool.eq_false_iff.mpr fun hexecuted =>
    not_started_of_unstarted h (hs.started.mp hexecuted)

theorem Launch.Cold.unstarted (h : s.Cold) : s.command.unstarted := by
  rw [h.command]
  trivial

theorem Launch.Barred.unstarted (h : s.Barred) : s.command.unstarted := by
  rcases h with hcold | ⟨_, hcommand⟩
  · exact hcold.unstarted
  · exact hcommand

/-- A report of a failed exec is only left by a gate that has ended. -/
theorem report_right {gate : Gate} {command : Command} {report : Option Report} {executed : Bool}
    (hgate : gate.Right command report executed) {x : Report} (hx : report = some x) :
    x.Right command executed ∧ (x ≠ .confirmed → gate = .exited) := by
  subst hx
  cases gate with
  | supervising =>
    obtain rfl := hgate.2 x rfl
    exact ⟨hgate.1, absurd rfl⟩
  | exited => exact ⟨hgate x rfl, fun _ => rfl⟩
  | _ => exact absurd hgate.2 (Option.some_ne_none x)

/-! ## States that go on -/

/-- Gate, command and ledger go on; what was known stays true. -/
structure Evolves (s s' : Launch) : Prop where
  stderr : ∀ r, .result r ∈ s'.stderr → .result r ∈ s.stderr
  pending : s'.pending = s.pending
  seenGone : s.seenGone = true → s'.seenGone = true
  freed : s'.freed = true → s.freed = true ∨ s'.seenGone = true
  admitted : s.admitted = true → s'.admitted = true
  cold : s.Cold → s'.Cold
  barred : s.Barred → s'.Barred
  executed : s.executed = true → s'.executed = true

theorem Launch.Cold.congr (h : s.Cold) (hopened : s'.opened = s.opened) (hgate : s'.gate = s.gate)
    (hcommand : s'.command = s.command) (hreport : s'.report = s.report) : s'.Cold :=
  ⟨hopened.trans h.opened, hgate ▸ h.gate, hcommand.trans h.command, hreport.trans h.report⟩

theorem Launch.Barred.congr (h : s.Barred) (hopened : s'.opened = s.opened)
    (hgate : s'.gate = s.gate) (hcommand : s'.command = s.command)
    (hreport : s'.report = s.report) : s'.Barred := by
  rcases h with hcold | ⟨hexited, hunstarted⟩
  · exact Or.inl (hcold.congr hopened hgate hcommand hreport)
  · exact Or.inr ⟨hgate.trans hexited, hcommand ▸ hunstarted⟩

theorem Evolves.right (he : Evolves s s') (hr : r.Right s) : r.Right s' :=
  ⟨fun h => he.barred (hr.1 h), fun h => he.executed (hr.2 h)⟩

theorem Evolves.due (he : Evolves s s') (hd : Due s record) : Due s' record :=
  fun r hr => ⟨he.right (hd r hr).1, he.pending.trans (hd r hr).2⟩

theorem Evolves.steady (he : Evolves s s') (hs : Steady s h) : Steady s' h where
  cold := fun hreleased => ⟨he.cold (hs.cold hreleased).1, he.pending.trans (hs.cold hreleased).2⟩
  confirmed := fun hconfirmed =>
    ⟨he.executed (hs.confirmed hconfirmed).1, he.pending.trans (hs.confirmed hconfirmed).2.1,
      (hs.confirmed hconfirmed).2.2⟩
  child := hs.child

theorem Evolves.after (he : Evolves s s') {after : After} (hr : after.Right s h) :
    after.Right s' h := by
  cases after with
  | launchFailed detail => exact ⟨he.barred hr.1, he.pending.trans hr.2⟩
  | _ => exact hr

theorem Evolves.phase (he : Evolves s s') (habsent : s.gate = .absent → s'.gate = .absent)
    {phase : Phase} (hr : phase.Right s h) : phase.Right s' h := by
  cases phase with
  | initializing => exact ⟨habsent hr.1, hr.2⟩
  | spawning => exact ⟨habsent hr.1, hr.2⟩
  | owning => exact ⟨hr.1, hr.2.1, he.admitted hr.2.2⟩
  | announcing => exact ⟨hr.1, he.admitted hr.2⟩
  | committing => exact ⟨hr.1, he.admitted hr.2⟩
  | writing => exact ⟨hr.1, hr.2.1, he.pending.trans hr.2.2.1, he.admitted hr.2.2.2⟩
  | felling after => exact he.after hr
  | settling cleanup record =>
    exact ⟨he.due hr.1, fun hclean hclaimed => he.seenGone (hr.2 hclean hclaimed)⟩
  | holding record => exact he.due hr
  | printing record => exact he.due hr
  | _ => exact hr

theorem Evolves.fits (he : Evolves s s') (habsent : s.gate = .absent → s'.gate = .absent)
    (hf : Fits s h) : Fits s' h where
  toSteady := he.steady hf.toSteady
  quiet := fun hover r hr => hf.quiet hover r (he.stderr r hr)
  phase := he.phase habsent hf.phase

theorem Evolves.shared (he : Evolves s s') (hs : Shared s)
    (hadmitted : ¬ s'.Cold → s'.admitted = true)
    (hstarted : s'.executed = true ↔ s'.command.started)
    (hgate : s'.gate.Right s'.command s'.report s'.executed) : Shared s' where
  admitted := hadmitted
  started := hstarted
  gate := hgate
  told := fun r hr => he.right (hs.told r (he.stderr r hr))
  quiet := fun hpending r hr => hs.quiet (he.pending.symm.trans hpending) r (he.stderr r hr)
  freed := fun hfreed => (he.freed hfreed).elim (fun h => he.seenGone (hs.freed h)) id

theorem Evolves.keepAdmitted (he : Evolves s s') (hs : Shared s) (hcold : ¬ s'.Cold) :
    s'.admitted = true :=
  he.admitted (hs.admitted fun h => hcold (he.cold h))

/-- A step of gate or command keeps the invariant if their relation stays right. -/
theorem Inv.evolve (hi : Inv s) (he : Evolves s s') (hhelper : s'.helper = s.helper)
    (habsent : s.gate = .absent → s'.gate = .absent)
    (hstarted : s'.executed = true ↔ s'.command.started)
    (hgate : s'.gate.Right s'.command s'.report s'.executed) : Inv s' where
  shared := he.shared hi.shared (he.keepAdmitted hi.shared) hstarted hgate
  fits := fun h hh => he.fits habsent (hi.fits h (hhelper.symm.trans hh))

/-! ## Steps of gate and command -/

theorem evolves_of_same (s : Launch) {s' : Launch} (hstderr : s'.stderr = s.stderr)
    (hpending : s'.pending = s.pending) (hseen : s'.seenGone = s.seenGone)
    (hfreed : s'.freed = s.freed) (hadmitted : s'.admitted = s.admitted)
    (hcold : s.Cold → s'.Cold) (hbarred : s.Barred → s'.Barred)
    (hexecuted : s.executed = true → s'.executed = true) : Evolves s s' where
  stderr := fun _ hr => hstderr ▸ hr
  pending := hpending
  seenGone := fun h => hseen.trans h
  freed := fun h => Or.inl (hfreed.symm.trans h)
  admitted := fun h => hadmitted.trans h
  cold := hcold
  barred := hbarred
  executed := hexecuted

/-- The gate waits no more, or has no more to do. -/
theorem evolves_of_gate {gate : Gate} {opened readied readyOpen statusOpen : Bool}
    {report : Option Report} (hcold : s.Cold → opened = false ∧ gate.waits = true ∧ report = none)
    (hexited : s.gate ≠ .exited ∨ gate = .exited) :
    Evolves s { s with gate, opened, readied, readyOpen, statusOpen, report } := by
  have hkeep (h : s.Cold) :
      Launch.Cold { s with gate, opened, readied, readyOpen, statusOpen, report } :=
    ⟨(hcold h).1, (hcold h).2.1, h.command, (hcold h).2.2⟩
  refine evolves_of_same s rfl rfl rfl rfl rfl hkeep ?_ id
  rintro (h | ⟨h, hunstarted⟩)
  · exact Or.inl (hkeep h)
  · exact Or.inr ⟨hexited.resolve_left (absurd h), hunstarted⟩

theorem Launch.Cold.gate_ne {gate : Gate} (h : s.Cold) (hgate : gate.waits = false) :
    s.gate ≠ gate := by
  intro heq
  rw [← heq, h.gate] at hgate
  exact Bool.noConfusion hgate

theorem inv_gateExit (hi : Inv s) (hgate : s.gate ≠ .absent) : Inv s.gateExit :=
  hi.evolve (evolves_of_gate (fun h => ⟨h.opened, rfl, h.report⟩) (Or.inr rfl)) rfl
    (absurd · hgate) hi.shared.started fun _ hr => (report_right hi.shared.gate hr).1

theorem inv_gateMove {gate : Gate} {opened readied readyOpen statusOpen : Bool}
    {report : Option Report} (hi : Inv s) (habsent : s.gate ≠ .absent) (hexited : s.gate ≠ .exited)
    (hcold : s.Cold → opened = false ∧ gate.waits = true ∧ report = none)
    (hright : gate.Right s.command report s.executed) :
    Inv { s with gate, opened, readied, readyOpen, statusOpen, report } :=
  hi.evolve (evolves_of_gate hcold (Or.inl hexited)) rfl (absurd · habsent) hi.shared.started hright

/-- Past the read of the gate pipe the gate has been opened. -/
theorem warm {gate : Gate} {p : Prop} (hgate : s.gate = gate) (hwaits : gate.waits = false)
    (h : s.Cold) : p := absurd hgate (h.gate_ne hwaits)

theorem inv_readGate {o : GateObserved} (hi : Inv s) (hgate : s.gate = .reading) :
    Inv (readGate s o) := by
  have habsent : s.gate ≠ .absent := hgate ▸ nofun
  have hexited : s.gate ≠ .exited := hgate ▸ nofun
  have hright := hi.shared.gate
  rw [hgate] at hright
  unfold readGate
  cases o.fault with
  | some fault => exact inv_gateExit hi habsent
  | none =>
    simp only
    split
    · next hopened =>
      refine inv_gateMove hi habsent hexited (fun h => ?_) hright
      exact absurd h.opened (by rw [hopened]; exact Bool.noConfusion)
    · split
      · exact hi
      · exact inv_gateExit hi habsent

/-- Under the condition an exception of `Popen` after the fork is that of the exec. -/
theorem inv_awaitExec {o : GateObserved} (hi : Inv s) (hgate : s.gate = .forked)
    (hok : s.Undisturbed (.gate o)) : Inv (awaitExec s o) := by
  have habsent : s.gate ≠ .absent := hgate ▸ nofun
  have hexited : s.gate ≠ .exited := hgate ▸ nofun
  have hright := hi.shared.gate
  rw [hgate] at hright
  have hfailed (h : s.command = .execFailed) :
      Inv { s with gate := .reporting (.failed o.detail) } :=
    inv_gateMove hi habsent hexited (warm hgate rfl) ⟨h ▸ trivial, hright.2⟩
  have hconfirmed (h : s.command.started) : Inv { s with gate := .reporting .confirmed } :=
    inv_gateMove hi habsent hexited (warm hgate rfl) ⟨hi.shared.started.mpr h, hright.2⟩
  unfold awaitExec
  cases hfault : o.fault with
  | some fault => exact hfailed (hok hgate (hfault ▸ nofun))
  | none =>
    simp only
    split
    · exact hi
    · exact hi
    · next hcommand => exact hfailed hcommand
    · next hcommand => exact hconfirmed (hcommand ▸ trivial)
    · next hcommand => exact hconfirmed (hcommand ▸ trivial)

theorem inv_reportStep {o : GateObserved} {report : Report} (hi : Inv s)
    (hgate : s.gate = .reporting report) : Inv (reportStep s o report) := by
  have habsent : s.gate ≠ .absent := hgate ▸ nofun
  have hexited : s.gate ≠ .exited := hgate ▸ nofun
  have hright := hi.shared.gate
  rw [hgate] at hright
  obtain ⟨hreport, hnone⟩ := hright
  have hsent (x : Report) (hx : some report = some x) : x.Right s.command s.executed :=
    Option.some.inj hx ▸ hreport
  have hunsent (x : Report) (hx : s.report = some x) : x.Right s.command s.executed :=
    absurd (hnone.symm.trans hx) nofun
  have hexit (landed : Bool) :
      Inv (if landed then { s with report := some report } else s).gateExit := by
    cases landed with
    | false => exact inv_gateExit hi habsent
    | true =>
      have hmoved : Inv { s with
          gate := .exited, readyOpen := false, report := some report, statusOpen := false } :=
        inv_gateMove hi habsent hexited (warm hgate rfl) hsent
      exact hmoved
  have hclose (landed : Bool) (hconfirmed : report = .confirmed) :
      Inv { (if landed then { s with report := some report } else s) with
        statusOpen := false, gate := .supervising } := by
    subst hconfirmed
    cases landed with
    | false =>
      exact inv_gateMove hi habsent hexited (warm hgate rfl)
        ⟨hreport, fun x hx => absurd (hnone.symm.trans hx) nofun⟩
    | true =>
      have hmoved : Inv { s with
          gate := .supervising, report := some .confirmed, statusOpen := false } :=
        inv_gateMove hi habsent hexited (warm hgate rfl)
          ⟨hreport, fun x hx => (Option.some.inj hx).symm⟩
      exact hmoved
  unfold reportStep
  cases o.fault with
  | none =>
    cases report with
    | confirmed => exact hclose true rfl
    | failed detail => exact hexit true
  | some fault =>
    cases fault with
    | osError =>
      cases report with
      | confirmed => exact hclose o.landed rfl
      | failed detail => exact hexit o.landed
    | interrupt => exact hexit o.landed

theorem inv_gateStep {o : GateObserved} (hi : Inv s) (hok : s.Undisturbed (.gate o)) :
    Inv (gateStep s o) := by
  have hright := hi.shared.gate
  unfold gateStep
  cases hgate : s.gate with
  | absent => exact hi
  | starting =>
    have habsent : s.gate ≠ .absent := hgate ▸ nofun
    have hexited : s.gate ≠ .exited := hgate ▸ nofun
    rw [hgate] at hright
    cases o.fault with
    | none => exact inv_gateMove hi habsent hexited (fun h => ⟨h.opened, rfl, h.report⟩) hright
    | some fault =>
      have hmoved : Inv { s with
          gate := .exited, readied := s.readied || o.landed, readyOpen := false,
          statusOpen := false } :=
        inv_gateMove hi habsent hexited (fun h => ⟨h.opened, rfl, h.report⟩)
          fun x hx => absurd (hright.2.symm.trans hx) nofun
      exact hmoved
  | reading => exact inv_readGate hi hgate
  | launching =>
    have habsent : s.gate ≠ .absent := hgate ▸ nofun
    have hexited : s.gate ≠ .exited := hgate ▸ nofun
    rw [hgate] at hright
    cases o.fault with
    | none =>
      have hnot : s.executed = false := hi.shared.not_executed (hright.1 ▸ trivial)
      refine hi.evolve (evolves_of_same s rfl rfl rfl rfl rfl (warm hgate rfl) ?_ id) rfl
        (absurd · habsent) ?_ ⟨nofun, hright.2⟩
      · rintro (h | ⟨h, -⟩)
        · exact warm hgate rfl h
        · exact absurd h hexited
      · simp only [hnot, Command.started, Bool.false_eq_true]
    | some fault =>
      exact inv_gateMove hi habsent hexited (warm hgate rfl) ⟨hright.1 ▸ trivial, hright.2⟩
  | forked => exact inv_awaitExec hi hgate hok
  | reporting report => exact inv_reportStep hi hgate
  | supervising =>
    have habsent : s.gate ≠ .absent := hgate ▸ nofun
    cases o.fault with
    | some fault => exact inv_gateExit hi habsent
    | none =>
      simp only
      split
      · exact inv_gateExit hi habsent
      · exact hi
  | exited => exact hi

/-- What holds of a forked child that is not barred holds of what becomes of it. -/
theorem gate_right_command {gate : Gate} {command command' : Command} {report : Option Report}
    {executed executed' : Bool} (h : gate.Right command report executed)
    (hcommand : ¬ command.unstarted) (hcommand' : command' ≠ .absent)
    (hexecuted : executed = true → executed' = true) : gate.Right command' report executed' := by
  have hreport (r : Report) (hr : r.Right command executed) : r.Right command' executed' := by
    cases r with
    | confirmed => exact hexecuted hr
    | failed detail => exact absurd hr hcommand
  cases gate with
  | forked => exact ⟨hcommand', h.2⟩
  | reporting r => exact ⟨hreport r h.1, h.2⟩
  | supervising => exact ⟨hexecuted h.1, h.2⟩
  | exited => exact fun r hr => hreport r (h r hr)
  | _ => exact absurd (h.1 ▸ trivial) hcommand

theorem inv_command {command : Command} {executed : Bool} (hi : Inv s)
    (hcommand : ¬ s.command.unstarted) (hcommand' : command ≠ .absent)
    (hexecuted : s.executed = true → executed = true) (hstarted : executed = true ↔ command.started) :
    Inv { s with command, executed } := by
  have hbarred (h : s.Barred) : Launch.Barred { s with command, executed } :=
    absurd h.unstarted hcommand
  have hcold (h : s.Cold) : Launch.Cold { s with command, executed } :=
    absurd h.unstarted hcommand
  exact hi.evolve (evolves_of_same s rfl rfl rfl rfl rfl hcold hbarred hexecuted) rfl id hstarted
    (gate_right_command hi.shared.gate hcommand hcommand' hexecuted)

theorem inv_exec (hi : Inv s) (succeeds : Bool) : Inv (step a s (.exec succeeds)) := by
  unfold step
  simp only
  split
  · next hforked =>
    have hcommand : ¬ s.command.unstarted := by simp [hforked, Command.unstarted]
    cases succeeds with
    | true =>
      exact inv_command hi hcommand nofun (fun _ => rfl) (by simp [Command.started])
    | false =>
      have hnot : s.executed = false := Bool.eq_false_iff.mpr fun h => by
        have hstarted := hi.shared.started.mp h
        rw [hforked] at hstarted
        exact hstarted
      refine inv_command hi hcommand nofun id ?_
      simp only [hnot, Command.started, Bool.false_eq_true]
  · exact hi

theorem inv_commandDies (hi : Inv s) (hok : s.Undisturbed .commandDies) :
    Inv (step a s .commandDies) := by
  unfold step
  simp only
  split
  · next h =>
    have hrunning : s.command = .running := h.resolve_left hok
    have hexecuted : s.executed = true := hi.shared.started.mpr (hrunning ▸ trivial)
    refine inv_command hi ?_ nofun id ?_
    · simp [hrunning, Command.unstarted]
    · simp only [hexecuted, Command.started]
  · exact hi

/-! ## Ways on for the helper -/

/-- A change that touches neither the gate nor what it was told. -/
theorem evolves_of_frame (s : Launch) {s' : Launch} (hopened : s'.opened = s.opened)
    (hgate : s'.gate = s.gate) (hcommand : s'.command = s.command) (hreport : s'.report = s.report)
    (hexecuted : s'.executed = s.executed) (hpending : s'.pending = s.pending)
    (hstderr : ∀ r, .result r ∈ s'.stderr → .result r ∈ s.stderr)
    (hseen : s.seenGone = true → s'.seenGone = true)
    (hfreed : s'.freed = true → s.freed = true ∨ s'.seenGone = true)
    (hadmitted : s.admitted = true → s'.admitted = true) : Evolves s s' where
  stderr := hstderr
  pending := hpending
  seenGone := hseen
  freed := hfreed
  admitted := hadmitted
  cold := fun h => h.congr hopened hgate hcommand hreport
  barred := fun h => h.congr hopened hgate hcommand hreport
  executed := fun h => hexecuted.trans h

theorem evolves_become (s : Launch) (h : Helper) : Evolves s (s.become h) :=
  evolves_of_frame s rfl rfl rfl rfl rfl rfl (fun _ => id) id Or.inl id

theorem evolves_exit (s : Launch) : Evolves s s.exit :=
  evolves_of_frame s rfl rfl rfl rfl rfl rfl (fun _ => id) id Or.inl id

theorem evolves_closeGate (s : Launch) : Evolves s s.closeGate :=
  evolves_of_frame s rfl rfl rfl rfl rfl rfl (fun _ => id) id Or.inl id

theorem evolves_grant (s : Launch) : Evolves s s.grant :=
  evolves_of_frame s rfl rfl rfl rfl rfl rfl (fun _ => id) id Or.inl fun _ => rfl

theorem evolves_seeGone (s : Launch) : Evolves s s.seeGone :=
  evolves_of_frame s rfl rfl rfl rfl rfl rfl (fun _ => id) (fun _ => rfl) Or.inl id

theorem evolves_lease (s : Launch) (lease : Lease) : Evolves s { s with lease } :=
  evolves_of_frame s rfl rfl rfl rfl rfl rfl (fun _ => id) id Or.inl id

theorem evolves_print (s : Launch) {output : Output} (h : ∀ r, output ≠ .result r) :
    Evolves s (s.print output) := by
  refine evolves_of_frame s rfl rfl rfl rfl rfl rfl (fun r hr => ?_) id Or.inl id
  rcases List.mem_append.mp hr with hr | hr
  · exact hr
  · exact absurd (List.mem_singleton.mp hr).symm (h r)

/-- A step that keeps the gate and what it was told keeps the shared part. -/
theorem Evolves.frame (he : Evolves s s') (hs : Shared s) (hgate : s'.gate = s.gate)
    (hcommand : s'.command = s.command) (hreport : s'.report = s.report)
    (hexecuted : s'.executed = s.executed) : Shared s' := by
  refine he.shared hs (he.keepAdmitted hs) ?_ ?_
  · rw [hexecuted, hcommand]
    exact hs.started
  · rw [hgate, hcommand, hreport, hexecuted]
    exact hs.gate

theorem inv_become (hs : Shared s) (hf : Fits s h) : Inv (s.become h) where
  shared := (evolves_become s h).frame hs rfl rfl rfl rfl
  fits := fun _ hh => Option.some.inj hh ▸ (evolves_become s h).fits id hf

theorem inv_exit (hs : Shared s) : Inv s.exit where
  shared := (evolves_exit s).frame hs rfl rfl rfl rfl
  fits := fun h hh => absurd (show none = some h from hh) nofun

/-- Another phase with the same flags. -/
theorem Fits.move (hf : Fits s h) (hreleased : next.released = h.released)
    (hconfirmed : next.confirmed = h.confirmed) (hchild : next.claimed = true → next.child = true)
    (hover : next.phase.over = true ∨ h.phase.over = false) (hright : next.phase.Right s next) :
    Fits s next where
  cold := fun h => hf.cold (hreleased.symm.trans h)
  confirmed := fun h =>
    have hc := hf.confirmed (hconfirmed.symm.trans h)
    ⟨hc.1, hc.2.1, hreleased.trans hc.2.2⟩
  child := hchild
  quiet := fun h => hf.quiet (hover.resolve_left fun hover =>
    Bool.noConfusion (h.symm.trans hover))
  phase := hright

theorem inv_raise (hs : Shared s) (hst : Steady s h) (fault : Fault) : Inv (s.raise h fault) := by
  unfold Launch.raise
  split
  · exact inv_become hs ⟨⟨hst.cold, hst.confirmed, hst.child⟩, nofun, trivial⟩
  · exact inv_exit hs

section Acts
variable {o : Observed} {change : Launch → Launch}

theorem inv_act (hs : Shared s) (hst : Steady s h) (hs' : Shared (change s))
    (hnext : Fits (change s) next) (hst' : Steady (change s) h) :
    Inv (s.act h o change next) := by
  unfold Launch.act
  cases o.fault with
  | none => exact inv_become hs' hnext
  | some fault =>
    simp only
    split
    · exact inv_raise hs' hst' fault
    · exact inv_raise hs hst fault

theorem inv_tryAct (hs : Shared s) (hst : Steady s h) (hs' : Shared (change s))
    (he : Evolves s (change s)) (hnext : Fits s next) (hnext' : Fits (change s) next) :
    Inv (s.tryAct h o change next) := by
  unfold Launch.tryAct
  cases o.fault with
  | none => exact inv_become hs' hnext'
  | some fault =>
    simp only
    split
    · split
      · exact inv_become hs' hnext'
      · exact inv_become hs hnext
    · split
      · exact inv_raise hs' (he.steady hst) fault
      · exact inv_raise hs hst fault

end Acts

/-! ## Records that are due -/

theorem due_none : Due s none := by
  intro r hr
  exact absurd hr.symm (Option.some_ne_none r)

theorem due_of_cold {record : Record} (hcold : s.Cold) (hpending : s.pending = false)
    (hstarted : record.commandStarted = false) : Due s (some record) := by
  intro r hr
  obtain rfl := Option.some.inj hr
  exact ⟨⟨fun _ => Or.inl hcold, fun h => Bool.noConfusion (hstarted.symm.trans h)⟩, hpending⟩

theorem due_of_executed {record : Record} (hexecuted : s.executed = true)
    (hpending : s.pending = false) (hstarted : record.commandStarted = true) :
    Due s (some record) := by
  intro r hr
  obtain rfl := Option.some.inj hr
  exact ⟨⟨fun h => Bool.noConfusion (hstarted.symm.trans h), fun _ => hexecuted⟩, hpending⟩

theorem due_confirmed {record : Record} (hst : Steady s h) (hconfirmed : h.confirmed = true)
    (hstarted : record.commandStarted = true) : Due s (some record) :=
  due_of_executed (hst.confirmed hconfirmed).1 (hst.confirmed hconfirmed).2.1 hstarted

/-- The handler knows what its flags say, or says nothing. -/
theorem due_recovered (hst : Steady s h) (fault : Fault) (cleanup : Option Bool) :
    Due s (a.recovered h fault cleanup) := by
  unfold Args.recovered
  split
  · exact due_none
  · next hflags =>
    cases hconfirmed : h.confirmed with
    | true => exact due_confirmed hst hconfirmed rfl
    | false =>
      have hreleased : h.released = false := by
        rw [hconfirmed] at hflags
        cases hr : h.released with
        | false => rfl
        | true => exact absurd (by rw [hr]; rfl) hflags
      exact due_of_cold (hst.cold hreleased).1 (hst.cold hreleased).2 rfl

theorem stopped_started (v : Verdict) (cleanup : Bool) :
    (a.stopped v cleanup).commandStarted = true := by
  unfold Args.stopped
  split <;> rfl

theorem due_after {after : After} (hst : Steady s h) (hright : after.Right s h) (cleanup : Bool) :
    Due s (after.record a h cleanup) := by
  cases after with
  | declined reason detail => exact due_of_cold (hst.cold hright).1 (hst.cold hright).2 rfl
  | launchFailed detail =>
    intro r hr
    obtain rfl := Option.some.inj hr
    exact ⟨⟨fun _ => hright.1, nofun⟩, hright.2⟩
  | enforced verdict => exact due_confirmed hst hright (stopped_started verdict cleanup)
  | drained code verdict =>
    cases verdict with
    | none =>
      cases cleanup with
      | false => exact due_confirmed hst hright rfl
      | true => exact due_confirmed hst hright rfl
    | some verdict => exact due_confirmed hst hright (stopped_started verdict cleanup)
  | recovered fault => exact due_recovered hst fault (some cleanup)

/-! ## Actions of the helper -/

section Helper
variable {o : Observed}

theorem inv_initializeStep (hi : Inv s) (hh : s.helper = some h)
    (hphase : h.phase = .initializing) : Inv (initializeStep a s h o) := by
  have hf := hi.fits h hh
  have hright := hf.phase
  rw [hphase] at hright
  obtain ⟨hgate, hreleased, hchild⟩ := hright
  have hover : h.phase.over = false := by rw [hphase]; rfl
  unfold initializeStep
  cases o.fault with
  | some fault => exact inv_raise hi.shared hf.toSteady fault
  | none =>
    simp only
    split
    · refine inv_become hi.shared
        (hf.move rfl rfl hf.child (Or.inl rfl) ⟨?_, fun _ hclaimed => ?_⟩)
      · exact due_of_cold (hf.cold hreleased).1 (hf.cold hreleased).2 rfl
      · exact absurd (hf.child hclaimed) (by rw [hchild]; exact Bool.noConfusion)
    · exact inv_become hi.shared (hf.move rfl rfl hf.child (Or.inr hover) ⟨hgate, hreleased⟩)

theorem inv_spawning (hi : Inv s) (hh : s.helper = some h) (hphase : h.phase = .spawning) :
    Inv (s.act h o Launch.spawnGate { h with phase := .greeting }) := by
  have hf := hi.fits h hh
  have hright := hf.phase
  rw [hphase] at hright
  obtain ⟨hgate, hreleased⟩ := hright
  have hover : h.phase.over = false := by rw [hphase]; rfl
  have hcommand := hi.shared.gate
  rw [hgate] at hcommand
  have hcold : Launch.Cold s.spawnGate :=
    ⟨(hf.cold hreleased).1.opened, rfl, hcommand.1, hcommand.2⟩
  have he : Evolves s s.spawnGate :=
    evolves_of_same s rfl rfl rfl rfl rfl (fun _ => hcold) (fun _ => Or.inl hcold) id
  have hst := he.steady hf.toSteady
  refine inv_act hi.shared hf.toSteady ?_ ?_ hst
  · exact he.shared hi.shared (he.keepAdmitted hi.shared) hi.shared.started hcommand
  · exact ⟨⟨hst.cold, hst.confirmed, hst.child⟩,
      fun _ r hr => hf.quiet hover r (he.stderr r hr), hreleased⟩

/-- An action whose effect leaves the gate alone. -/
theorem inv_act_frame {change : Launch → Launch} (hi : Inv s) (hh : s.helper = some h)
    (he : Evolves s (change s)) (hshared : Shared (change s)) (hnext : Fits (change s) next) :
    Inv (s.act h o change next) :=
  inv_act hi.shared (hi.fits h hh).toSteady hshared hnext (he.steady (hi.fits h hh).toSteady)

theorem inv_greetStep (hi : Inv s) (hh : s.helper = some h) (hphase : h.phase = .greeting) :
    Inv (greetStep s h o) := by
  have hf := hi.fits h hh
  have hright := hf.phase
  rw [hphase] at hright
  have hover : h.phase.over = false := by rw [hphase]; rfl
  unfold greetStep
  cases o.fault with
  | some fault => exact inv_raise hi.shared hf.toSteady fault
  | none =>
    simp only
    split
    · have he : Evolves s { s with readied := false } :=
        evolves_of_frame s rfl rfl rfl rfl rfl rfl (fun _ => id) id Or.inl id
      exact inv_become (he.frame hi.shared rfl rfl rfl rfl)
        ((he.fits id hf).move rfl rfl (fun _ => rfl) (Or.inr hover) ⟨hright, rfl⟩)
    · split
      · exact hi
      · exact inv_raise ((evolves_closeGate s).frame hi.shared rfl rfl rfl rfl)
          ((evolves_closeGate s).steady hf.toSteady) _

theorem inv_identifyStep (hi : Inv s) (hh : s.helper = some h) (hphase : h.phase = .identifying) :
    Inv (identifyStep s h o) := by
  have hf := hi.fits h hh
  have hright := hf.phase
  rw [hphase] at hright
  have hover : h.phase.over = false := by rw [hphase]; rfl
  unfold identifyStep
  cases o.fault with
  | some fault => exact inv_raise hi.shared hf.toSteady fault
  | none =>
    simp only
    split
    · exact inv_become hi.shared (hf.move rfl rfl hf.child (Or.inr hover) hright)
    · exact inv_raise hi.shared hf.toSteady _

theorem evolves_freeReserved (s : Launch) : Evolves s s.freeReserved := by
  unfold Launch.freeReserved
  split
  · exact evolves_lease s .absent
  · exact evolves_lease s s.lease

theorem shared_freeReserved (hs : Shared s) : Shared s.freeReserved := by
  have he := evolves_freeReserved s
  unfold Launch.freeReserved at he ⊢
  split at he
  · next h =>
    rw [if_pos h]
    exact he.frame hs rfl rfl rfl rfl
  · next h =>
    rw [if_neg h]
    exact hs

theorem inv_claimStep (hi : Inv s) (hh : s.helper = some h) (hphase : h.phase = .claiming) :
    Inv (claimStep s h o) := by
  have hf := hi.fits h hh
  have hright := hf.phase
  rw [hphase] at hright
  have hover : h.phase.over = false := by rw [hphase]; rfl
  unfold claimStep
  split
  · have he := evolves_grant s
    exact inv_act_frame hi hh he (he.frame hi.shared rfl rfl rfl rfl)
      ((he.fits id hf).move rfl rfl hf.child (Or.inr hover) ⟨hright.1, hright.2, rfl⟩)
  · next reason detail dropped _ =>
    cases dropped with
    | false =>
      exact inv_act_frame hi hh (evolves_lease s s.lease) hi.shared
        (hf.move rfl rfl hf.child (Or.inr hover) hright.1)
    | true =>
      have he := evolves_freeReserved s
      have hgate : s.freeReserved.gate = s.gate := by
        unfold Launch.freeReserved
        split <;> rfl
      exact inv_act_frame hi hh he (shared_freeReserved hi.shared)
        ((he.fits (fun h => hgate.trans h) hf).move rfl rfl hf.child (Or.inr hover) hright.1)

theorem inv_declining {reason detail : String} (hi : Inv s) (hh : s.helper = some h)
    (hphase : h.phase = .declining reason detail) :
    Inv (s.act h o Launch.closeGate
      { h with gateWrite := false, phase := .felling (.declined reason detail) }) := by
  have hf := hi.fits h hh
  have hright := hf.phase
  rw [hphase] at hright
  have he := evolves_closeGate s
  exact inv_act_frame hi hh he (he.frame hi.shared rfl rfl rfl rfl)
    ((he.fits id hf).move rfl rfl hf.child (Or.inl rfl) hright)

theorem inv_owning (hi : Inv s) (hh : s.helper = some h) (hphase : h.phase = .owning) :
    Inv (s.act h o id { h with claimed := true, phase := .announcing }) := by
  have hf := hi.fits h hh
  have hright := hf.phase
  rw [hphase] at hright
  have hover : h.phase.over = false := by rw [hphase]; rfl
  exact inv_act_frame hi hh (evolves_lease s s.lease) hi.shared
    (hf.move rfl rfl (fun _ => hright.2.1) (Or.inr hover) ⟨hright.1, hright.2.2⟩)

theorem inv_announcing (hi : Inv s) (hh : s.helper = some h) (hphase : h.phase = .announcing) :
    Inv (s.act h o (·.print .ready) { h with phase := .committing }) := by
  have hf := hi.fits h hh
  have hright := hf.phase
  rw [hphase] at hright
  have hover : h.phase.over = false := by rw [hphase]; rfl
  have he : Evolves s (s.print .ready) := evolves_print s fun r h => by cases h
  exact inv_act_frame hi hh he (he.frame hi.shared rfl rfl rfl rfl)
    ((he.fits id hf).move rfl rfl hf.child (Or.inr hover) hright)

/-- From here on the helper has evidence only from the status pipe. -/
theorem inv_committing (hi : Inv s) (hh : s.helper = some h) (hphase : h.phase = .committing) :
    Inv ({ s with pending := true }.become { h with released := true, phase := .writing }) := by
  have hf := hi.fits h hh
  have hright := hf.phase
  rw [hphase] at hright
  have hquiet := hf.quiet (by rw [hphase]; rfl)
  have hconfirmed : h.confirmed = false := Bool.eq_false_iff.mpr fun hc =>
    Bool.noConfusion (hright.1.symm.trans (hf.confirmed hc).2.2)
  refine inv_become ⟨?_, hi.shared.started, hi.shared.gate, ?_, fun _ => hquiet, hi.shared.freed⟩ ?_
  · exact fun hcold => hi.shared.admitted fun h => hcold (h.congr rfl rfl rfl rfl)
  · exact fun r hr => absurd hr (hquiet r)
  · refine ⟨⟨nofun, ?_, hf.child⟩, fun _ => hquiet, rfl, hconfirmed, rfl, hright.2⟩
    exact fun hc => Bool.noConfusion (hconfirmed.symm.trans hc)

theorem inv_writing (hi : Inv s) (hh : s.helper = some h) (hphase : h.phase = .writing) :
    Inv (s.act h o (fun s => { s with opened := true }) { h with phase := .closing }) := by
  have hf := hi.fits h hh
  have hright := hf.phase
  rw [hphase] at hright
  obtain ⟨hreleased, hconfirmed, _, hadmitted⟩ := hright
  have hquiet := hf.quiet (by rw [hphase]; rfl)
  have hcold {p : Prop} (hr : h.released = false) : p :=
    Bool.noConfusion (hr.symm.trans hreleased)
  have hnot {p : Prop} (hc : h.confirmed = true) : p :=
    Bool.noConfusion (hconfirmed.symm.trans hc)
  refine inv_act hi.shared hf.toSteady ?_ ?_ ⟨hcold, hnot, hf.child⟩
  · exact ⟨fun _ => hadmitted, hi.shared.started, hi.shared.gate,
      fun r hr => absurd hr (hquiet r), fun _ => hquiet, hi.shared.freed⟩
  · exact ⟨⟨hcold, hnot, hf.child⟩, fun _ => hquiet, hreleased, hconfirmed⟩

theorem inv_closing (hi : Inv s) (hh : s.helper = some h) (hphase : h.phase = .closing) :
    Inv (s.act h o Launch.closeGate { h with gateWrite := false, phase := .confirming }) := by
  have hf := hi.fits h hh
  have hright := hf.phase
  rw [hphase] at hright
  have hover : h.phase.over = false := by rw [hphase]; rfl
  have he := evolves_closeGate s
  exact inv_act_frame hi hh he (he.frame hi.shared rfl rfl rfl rfl)
    ((he.fits id hf).move rfl rfl hf.child (Or.inr hover) hright)

theorem gate_right_read {gate : Gate} {command : Command} {report : Option Report} {executed : Bool}
    (h : gate.Right command report executed) : gate.Right command none executed := by
  cases gate with
  | supervising => exact ⟨h.1, nofun⟩
  | exited => exact nofun
  | _ => exact ⟨h.1, rfl⟩

theorem inv_confirmStep (hi : Inv s) (hh : s.helper = some h) (hphase : h.phase = .confirming) :
    Inv (confirmStep s h o) := by
  have hf := hi.fits h hh
  have hright := hf.phase
  rw [hphase] at hright
  obtain ⟨hreleased, hconfirmed⟩ := hright
  have hquiet := hf.quiet (by rw [hphase]; rfl)
  have hcold {p : Prop} (hr : h.released = false) : p :=
    Bool.noConfusion (hr.symm.trans hreleased)
  have hread {report : Report} (hreport : s.report = some report) :
      Shared { s with report := none, pending := false } :=
    ⟨fun _ => hi.shared.admitted fun hc => absurd (hreport.symm.trans hc.report) nofun,
      hi.shared.started, gate_right_read hi.shared.gate, fun r hr => absurd hr (hquiet r),
      fun _ => hquiet, hi.shared.freed⟩
  unfold confirmStep
  cases o.fault with
  | some fault => exact inv_raise hi.shared hf.toSteady fault
  | none =>
    simp only
    split
    · next hreport =>
      have htrue := (report_right hi.shared.gate hreport).1
      exact inv_become (hread hreport)
        ⟨⟨hcold, fun _ => ⟨htrue, rfl, hreleased⟩, hf.child⟩, fun _ => hquiet, rfl⟩
    · next detail hreport =>
      obtain ⟨hunstarted, hexited⟩ := report_right hi.shared.gate hreport
      refine inv_become (hread hreport) ⟨⟨hcold, ?_, hf.child⟩, nofun, ?_, rfl⟩
      · exact fun hc => Bool.noConfusion (hconfirmed.symm.trans hc)
      · exact Or.inr ⟨hexited nofun, hunstarted⟩
    · split
      · exact hi
      · exact inv_raise hi.shared hf.toSteady _

theorem inv_monitorStep (hi : Inv s) (hh : s.helper = some h) (hphase : h.phase = .monitoring) :
    Inv (monitorStep a s h o) := by
  have hf := hi.fits h hh
  have hright := hf.phase
  rw [hphase] at hright
  have hover : h.phase.over = false := by rw [hphase]; rfl
  unfold monitorStep
  cases o.fault with
  | some fault => exact inv_raise hi.shared hf.toSteady fault
  | none =>
    simp only
    split
    · exact inv_become hi.shared (hf.move rfl rfl hf.child (Or.inl rfl) hright)
    · split
      · exact inv_become hi.shared (hf.move rfl rfl hf.child (Or.inr hover) hright)
      · exact hi

theorem inv_drainStep {code : Int} (hi : Inv s) (hh : s.helper = some h)
    (hphase : h.phase = .draining code) : Inv (drainStep a s h o code) := by
  have hf := hi.fits h hh
  have hright : h.confirmed = true := by
    have hright := hf.phase
    rw [hphase] at hright
    exact hright
  have he := evolves_seeGone s
  have hdone : Inv (s.seeGone.become
      { h with phase := .settling true (some (a.completed code)) }) := by
    refine inv_become (he.frame hi.shared rfl rfl rfl rfl)
      ((he.fits id hf).move rfl rfl hf.child (Or.inl rfl) ⟨?_, fun _ _ => rfl⟩)
    exact due_confirmed (he.steady hf.toSteady) hright rfl
  unfold drainStep
  cases o.fault with
  | some fault => exact inv_raise hi.shared hf.toSteady fault
  | none =>
    simp only
    split
    · exact inv_become hi.shared (hf.move rfl rfl hf.child (Or.inl rfl) hright)
    · split
      · exact hdone
      · split
        · exact hi
        · split
          · exact inv_become hi.shared (hf.move rfl rfl hf.child (Or.inl rfl) hright)
          · exact hdone

theorem inv_recoverStep {fault : Fault} (hi : Inv s) (hh : s.helper = some h) :
    Inv (recoverStep a s h o fault) := by
  have hf := hi.fits h hh
  have hnext {t : Launch} (ht : Shared t) (hft : Fits t h) : Inv (t.become { h with
      gateWrite := false
      phase := if h.child then .felling (.recovered fault)
        else .settling true (a.recovered h fault none) }) := by
    refine inv_become ht (hft.move rfl rfl hft.child (Or.inl ?_) ?_)
    · cases h.child <;> rfl
    · cases hchild : h.child with
      | true => exact trivial
      | false =>
        refine ⟨due_recovered hft.toSteady fault none, fun _ hclaimed => ?_⟩
        exact Bool.noConfusion (hchild.symm.trans (hft.child hclaimed))
  unfold recoverStep
  cases o.fault with
  | some fault' => exact inv_raise hi.shared hf.toSteady fault'
  | none =>
    simp only
    split
    · have he := evolves_closeGate s
      exact hnext (he.frame hi.shared rfl rfl rfl rfl) (he.fits id hf)
    · exact hnext hi.shared hf

theorem inv_fellStep {after : After} (hi : Inv s) (hh : s.helper = some h)
    (hphase : h.phase = .felling after) : Inv (fellStep a s h o after) := by
  have hf := hi.fits h hh
  have hright := hf.phase
  rw [hphase] at hright
  have hdue := due_after (a := a) hf.toSteady hright o.sight.gone
  unfold fellStep
  cases o.fault with
  | some fault => exact inv_raise hi.shared hf.toSteady fault
  | none =>
    simp only
    cases hgone : o.sight.gone with
    | true =>
      have he := evolves_seeGone s
      rw [hgone] at hdue
      exact inv_become (he.frame hi.shared rfl rfl rfl rfl)
        ((he.fits id hf).move rfl rfl hf.child (Or.inl rfl) ⟨he.due hdue, fun _ _ => rfl⟩)
    | false =>
      rw [hgone] at hdue
      exact inv_become hi.shared (hf.move rfl rfl hf.child (Or.inl rfl) ⟨hdue, nofun⟩)

theorem evolves_freeClaimed (hseen : s.seenGone = true) : Evolves s s.freeClaimed := by
  unfold Launch.freeClaimed
  split
  · exact evolves_lease s .absent
  · exact evolves_of_frame s rfl rfl rfl rfl rfl rfl (fun _ => id) id (fun _ => Or.inr hseen) id
  · exact evolves_lease s s.lease

theorem frame_freeClaimed (s : Launch) : s.freeClaimed.gate = s.gate ∧
    s.freeClaimed.command = s.command ∧ s.freeClaimed.report = s.report ∧
    s.freeClaimed.executed = s.executed := by
  unfold Launch.freeClaimed
  split <;> exact ⟨rfl, rfl, rfl, rfl⟩

theorem inv_settleStep {cleanup : Bool} (hi : Inv s) (hh : s.helper = some h)
    (hphase : h.phase = .settling cleanup record) : Inv (settleStep s h o cleanup record) := by
  have hf := hi.fits h hh
  have hright := hf.phase
  rw [hphase] at hright
  obtain ⟨hdue, hseen⟩ := hright
  have hprint : Fits s { h with phase := .printing record } :=
    hf.move rfl rfl hf.child (Or.inl rfl) hdue
  unfold settleStep
  split
  · next hclaimed =>
    split
    · next hcleanup =>
      have he := evolves_freeClaimed (hseen hcleanup hclaimed)
      obtain ⟨hgate, hcommand, hreport, hexecuted⟩ := frame_freeClaimed s
      exact inv_tryAct hi.shared hf.toSteady (he.frame hi.shared hgate hcommand hreport hexecuted)
        he hprint (he.fits (fun h => hgate.trans h) hprint)
    · split
      · exact inv_become hi.shared (hf.move rfl rfl hf.child (Or.inl rfl) hdue)
      · exact inv_become hi.shared hprint
  · have he := evolves_freeReserved s
    have hgate : s.freeReserved.gate = s.gate := by
      unfold Launch.freeReserved
      split <;> rfl
    exact inv_tryAct hi.shared hf.toSteady (shared_freeReserved hi.shared) he hprint
      (he.fits (fun h => hgate.trans h) hprint)

theorem inv_holdStep (hi : Inv s) (hh : s.helper = some h) (hphase : h.phase = .holding record) :
    Inv (holdStep s h o record) := by
  have hf := hi.fits h hh
  have hright := hf.phase
  rw [hphase] at hright
  unfold holdStep
  cases o.fault with
  | some fault =>
    simp only
    split
    · exact hi
    · exact inv_raise hi.shared hf.toSteady fault
  | none =>
    simp only
    split
    · have he := evolves_seeGone s
      exact inv_become (he.frame hi.shared rfl rfl rfl rfl)
        ((he.fits id hf).move rfl rfl hf.child (Or.inl rfl) ⟨he.due hright, fun _ _ => rfl⟩)
    · split
      · have he := evolves_lease s .quarantined
        exact inv_become (he.frame hi.shared rfl rfl rfl rfl)
          ((he.fits id hf).move rfl rfl hf.child (Or.inl rfl) (he.due hright))
      · exact hi

/-- A record that is due may be printed. -/
theorem shared_print {r : Record} (hs : Shared s) (hr : r.Right s) (hpending : s.pending = false) :
    Shared (s.print (.result r)) where
  admitted := fun hcold => hs.admitted fun h => hcold (h.congr rfl rfl rfl rfl)
  started := hs.started
  gate := hs.gate
  told := by
    intro x hx
    have hright : x.Right s := by
      rcases List.mem_append.mp hx with hx | hx
      · exact hs.told x hx
      · exact Output.result.inj (List.mem_singleton.mp hx) ▸ hr
    exact ⟨fun h => (hright.1 h).congr rfl rfl rfl rfl, hright.2⟩
  quiet := fun h => Bool.noConfusion (hpending.symm.trans h)
  freed := hs.freed

theorem inv_printStep (hi : Inv s) (hh : s.helper = some h) (hphase : h.phase = .printing record) :
    Inv (printStep s h o record) := by
  have hf := hi.fits h hh
  have hright := hf.phase
  rw [hphase] at hright
  have hnext : Fits s { h with phase := .returning } :=
    hf.move rfl rfl hf.child (Or.inl rfl) trivial
  unfold printStep
  cases record with
  | none =>
    exact inv_tryAct hi.shared hf.toSteady hi.shared (evolves_lease s s.lease) hnext hnext
  | some r =>
    obtain ⟨hr, hpending⟩ := hright r rfl
    have hprinted := shared_print hi.shared hr hpending
    have hst : Steady (s.print (.result r)) h :=
      ⟨fun h => ⟨(hf.cold h).1.congr rfl rfl rfl rfl, (hf.cold h).2⟩, hf.confirmed, hf.child⟩
    have hreturns : Fits (s.print (.result r)) { h with phase := .returning } :=
      ⟨⟨hst.cold, hst.confirmed, hst.child⟩, nofun, trivial⟩
    have he : Evolves s (s.print .torn) := evolves_print s fun r h => by cases h
    cases o.fault with
    | none => exact inv_become hprinted hreturns
    | some fault =>
      simp only
      split
      · split
        · exact inv_become hprinted hreturns
        · exact inv_become (he.frame hi.shared rfl rfl rfl rfl) (he.fits id hnext)
      · split
        · exact inv_raise hprinted hst fault
        · exact inv_raise (he.frame hi.shared rfl rfl rfl rfl) (he.steady hf.toSteady) fault

theorem inv_helperStep (hi : Inv s) (hh : s.helper = some h) : Inv (helperStep a s h o) := by
  have hf := hi.fits h hh
  unfold helperStep
  cases hphase : h.phase with
  | initializing => exact inv_initializeStep hi hh hphase
  | spawning => exact inv_spawning hi hh hphase
  | greeting => exact inv_greetStep hi hh hphase
  | identifying => exact inv_identifyStep hi hh hphase
  | claiming => exact inv_claimStep hi hh hphase
  | declining reason detail => exact inv_declining hi hh hphase
  | owning => exact inv_owning hi hh hphase
  | announcing => exact inv_announcing hi hh hphase
  | committing =>
    cases o.fault with
    | some fault => exact inv_raise hi.shared hf.toSteady fault
    | none => exact inv_committing hi hh hphase
  | writing => exact inv_writing hi hh hphase
  | closing => exact inv_closing hi hh hphase
  | confirming => exact inv_confirmStep hi hh hphase
  | monitoring => exact inv_monitorStep hi hh hphase
  | draining code => exact inv_drainStep hi hh hphase
  | recovering fault => exact inv_recoverStep hi hh
  | felling after => exact inv_fellStep hi hh hphase
  | settling cleanup record => exact inv_settleStep hi hh hphase
  | holding record => exact inv_holdStep hi hh hphase
  | printing record => exact inv_printStep hi hh hphase
  | returning =>
    cases o.fault with
    | some fault => exact inv_raise hi.shared hf.toSteady fault
    | none => exact inv_exit hi.shared

end Helper

/-! ## Runs -/

theorem inv_start : Inv Launch.start where
  shared := {
    admitted := fun h => absurd ⟨rfl, rfl, rfl, rfl⟩ h
    started := ⟨fun h => absurd h Bool.false_ne_true, False.elim⟩
    gate := ⟨rfl, rfl⟩
    told := fun r hr => absurd hr List.not_mem_nil
    quiet := fun h => absurd h Bool.false_ne_true
    freed := fun h => absurd h Bool.false_ne_true }
  fits := by
    intro h hh
    obtain rfl := Option.some.inj hh
    have hfalse {p : Prop} (h : false = true) : p := absurd h Bool.false_ne_true
    exact ⟨⟨fun _ => ⟨⟨rfl, rfl, rfl, rfl⟩, rfl⟩, hfalse, hfalse⟩,
      fun _ r hr => absurd hr List.not_mem_nil, rfl, rfl, rfl⟩

theorem inv_step (event : Event) (hi : Inv s) (hok : s.Undisturbed event) :
    Inv (step a s event) := by
  cases event with
  | helper o =>
    unfold step
    cases hh : s.helper with
    | none => exact hi
    | some h => exact inv_helperStep hi hh
  | helperDies => exact inv_exit hi.shared
  | gate o => exact inv_gateStep hi hok
  | gateDies =>
    unfold step
    simp only
    split
    · exact hi
    · next hgate => exact inv_gateExit hi hgate
  | exec succeeds => exact inv_exec hi succeeds
  | commandDies => exact inv_commandDies hi hok
  | leaseLapses =>
    have hgate : s.freeReserved.gate = s.gate ∧ s.freeReserved.helper = s.helper := by
      unfold Launch.freeReserved
      split <;> exact ⟨rfl, rfl⟩
    have he := evolves_freeReserved s
    have hshared := shared_freeReserved hi.shared
    exact hi.evolve he hgate.2 (fun h => hgate.1.trans h) hshared.started hshared.gate

/-! ## What the controller learns -/

theorem mem_of_extractMemoryGuard {stderr : List Output} (h : extractMemoryGuard stderr = some r) :
    .result r ∈ stderr := by
  unfold extractMemoryGuard at h
  cases hfind : stderr.reverse.find? (· ≠ .ready) with
  | none =>
    rw [hfind] at h
    exact absurd h nofun
  | some output =>
    rw [hfind] at h
    cases output with
    | result record =>
      obtain rfl := Option.some.inj h
      exact List.mem_reverse.mp (List.mem_of_find?_eq_some hfind)
    | _ => exact absurd h nofun

theorem finalize_of_silent {stderr : List Output} (h : ∀ r, .result r ∉ stderr)
    (agrees : Record → Bool) (exitCode : Int) :
    finalizeGuardedResult agrees exitCode stderr = .raised none := by
  unfold finalizeGuardedResult
  cases hextract : extractMemoryGuard stderr with
  | none => rfl
  | some r => exact absurd (mem_of_extractMemoryGuard hextract) (h r)

/-- The evidence of an error is that of a result on the error stream. -/
theorem evidence_of_raised {agrees : Record → Bool} {exitCode : Int} {stderr : List Output}
    {started : Bool}
    (h : finalizeGuardedResult agrees exitCode stderr = .raised (some started)) :
    ∃ r, .result r ∈ stderr ∧ guardCommandStartEvidence r = some started := by
  unfold finalizeGuardedResult at h
  cases hextract : extractMemoryGuard stderr with
  | none =>
    rw [hextract] at h
    exact absurd (Finalized.raised.inj h) nofun
  | some r =>
    rw [hextract] at h
    refine ⟨r, mem_of_extractMemoryGuard hextract, ?_⟩
    have hraised (x : Option Bool) (hx : Finalized.raised x = .raised (some started)) :
        x = some started := Finalized.raised.inj hx
    simp only at h
    split at h
    · exact hraised _ h
    · split at h
      · split at h
        · exact hraised _ h
        · split at h
          · exact hraised _ h
          · exact Finalized.noConfusion h
      · split at h
        · exact hraised _ h
        · exact Finalized.noConfusion h

theorem started_of_evidence {started : Bool} (h : guardCommandStartEvidence r = some started) :
    r.commandStarted = started := by
  unfold guardCommandStartEvidence at h
  cases hstarted : r.commandStarted with
  | true =>
    rw [hstarted] at h
    exact Option.some.inj h
  | false =>
    simp only [hstarted, Bool.false_eq_true, if_false] at h
    split at h
    · exact Option.some.inj h
    · exact absurd h nofun

theorem Inv.notStarted (hi : Inv s) (hr : .result r ∈ s.stderr) (h : r.commandStarted = false) :
    s.executed = false :=
  hi.shared.not_executed ((hi.shared.told r hr).1 h).unstarted

theorem truthful_of_inv (hi : Inv s) : s.Truthful where
  admitted := by
    intro hexecuted
    refine hi.shared.admitted fun hcold => ?_
    exact Bool.noConfusion (hexecuted.symm.trans (hi.shared.not_executed hcold.unstarted))
  notStarted := fun r hr => hi.notStarted hr
  started := fun r hr => (hi.shared.told r hr).2
  silent := fun hpending =>
    ⟨hi.shared.quiet hpending, finalize_of_silent (hi.shared.quiet hpending)⟩
  evidence := by
    intro agrees code started hraised
    obtain ⟨r, hr, hevidence⟩ := evidence_of_raised hraised
    have hstarted := started_of_evidence hevidence
    cases started with
    | true => exact (hi.shared.told r hr).2 hstarted
    | false => exact hi.notStarted hr hstarted
  freed := hi.shared.freed

end Invariant

/-- In every run in which nothing but a failed exec ends the gate's `Popen` after its fork and the
forked child lives until its exec, what the helper reports of the launch is true. -/
theorem guarded_launch_truthful (a : Args) (events : List Event)
    (hok : Along (step a) Launch.Undisturbed Launch.start events) :
    (run (step a) Launch.start events).Truthful :=
  truthful_of_inv (run_invariant Inv (fun _ event hi hok => inv_step event hi hok) inv_start hok)

/-! ## One launch -/

/-- Nothing ends the action; the host has 8 GiB, of which 4 are available. -/
def calm : Observed where
  fault := none
  landed := false
  caught := false
  setup := ⟨none, 8192 * mib, 4096 * mib⟩
  identified := true
  claim := .admitted
  sample := none
  waited := some 0
  residue := ⟨none, 0, 8192 * mib, 4096 * mib⟩
  sight := ⟨false, []⟩
  expired := false
  groupAfter := false

def gateCalm : GateObserved := ⟨none, false, "KeyboardInterrupt: "⟩

def modest : Args := ⟨true, some (512 * mib), 256 * mib⟩

/-- The launch up to the fork; the gate is inside `Popen`. -/
def upToFork : List Event :=
  [.helper calm, .helper calm, .gate gateCalm] ++ List.replicate 8 (.helper calm) ++
    [.gate gateCalm, .gate gateCalm]

/-- The gate ends `Popen` and reports, and the helper goes on to its end. -/
def fromPopen (o : GateObserved) : List Event :=
  [.gate o, .gate gateCalm, .commandDies] ++ List.replicate 7 (.helper calm)

/-- The argv is executed and ends with 0. -/
def succeeding : List Event := upToFork ++ .exec true :: fromPopen gateCalm

theorem guarded_launch_truthful_succeeding :
    (run (step modest) Launch.start succeeding).executed = true ∧
      (run (step modest) Launch.start succeeding).Truthful :=
  ⟨rfl, guarded_launch_truthful modest succeeding (by decide)⟩

/-- A signal ends the gate's `Popen` after the exec. -/
def interrupting : List Event :=
  upToFork ++ .exec true :: fromPopen { gateCalm with fault := some .interrupt }

/-- The forked child dies before the exec. -/
def vanishing : List Event := upToFork ++ .commandDies :: fromPopen gateCalm

/-- The controller is told that the executed command has not started, and that the command that
was never executed has. -/
theorem guarded_launch_not_truthful :
    ¬ (run (step modest) Launch.start interrupting).Truthful ∧
      ¬ (run (step modest) Launch.start vanishing).Truthful := by
  constructor
  · intro h
    have hnot := h.notStarted
      (modest.record .refused "command_launch_failed" "KeyboardInterrupt: " false (some true))
      (List.mem_of_elem_eq_true rfl) rfl
    exact Bool.noConfusion hnot
  · intro h
    have hstarted := h.started (modest.completed 0) (List.mem_of_elem_eq_true rfl) rfl
    exact Bool.noConfusion hstarted

end Remrun.Guard
