import Remrun.Fleet.Executor

/-!
# The reservation discipline

What the executor leaves behind. The account of a run says which reservations were obtained and what
was done about them; a return before the launch owes a release of the memory reservation and a
cancellation of the target reservation, and the heartbeat has to be stopped.
-/

namespace Remrun.Fleet.Executor
open Effect

set_option autoImplicit false

/-- What happened to the reservations, as the log tells it. -/
structure Account where
  granted : Bool := false
  lost : Bool := false
  cancelTried : Bool := false
  cancelled : Bool := false
  admitted : Bool := false
  released : Bool := false
  handed : Bool := false
  /-- The admission call, or the prediction made for it, raised. -/
  admissionRaised : Bool := false
  /-- The renewal had failed at the last look before the launch. -/
  lateFailure : Bool := false
  deriving DecidableEq, Repr

def isTerminal (state : Option String) : Bool := state.any fun text => text ∈ terminalStates

def Account.note (a : Account) : Event → Account
  | .called .reserve (.ok (granted : Bool)) => { a with granted := granted }
  | .called (.cancel _) (.ok (state : Option String)) =>
    { a with cancelTried := true, cancelled := isTerminal state }
  | .called (.cancel _) (.error _) => { a with cancelTried := true }
  | .called .predictResources (.error _) => { a with admissionRaised := true }
  | .called .reserveMemory (.error _) => { a with admissionRaised := true }
  | .called .reserveMemory (.ok (.admitted reservation)) => { a with admitted := reservation }
  | .called .releaseMemory _ => { a with released := true }
  | .called .launchDurable _ => { a with handed := true }
  | .called .exec _ => { a with handed := true }
  | .asked .reservationRecorded answer => { a with lost := !answer }
  | .asked (.renewalFailed .launch) answer => { a with lateFailure := answer }
  | _ => a

def Local.account (s : Local) : Account := s.log.foldl Account.note {}

/-- How the function ended. -/
abbrev Outcome := Except Raised Response

/-- Without a hand-off to `launch_durable` or `exec`, an admitted memory reservation was released
and a granted target reservation cancelled, lost or reported deferred; the heartbeat is stopped;
and a run that cancels does not report an unknown completion. -/
structure Disciplined (s : Local) (outcome : Outcome) : Prop where
  memory : s.account.handed = false → s.account.admitted = true → s.account.released = true
  target : s.account.handed = false → s.account.granted = true →
    s.account.cancelled = true ∨ s.account.lost = true ∨
      ∃ response, outcome = .ok response ∧ response.cleanup.targetCleanupDeferred.isSome = true
  heartbeat : s.heartbeat = false
  unknown : ∀ response, outcome = .ok response → s.account.cancelTried = true →
    response.completionState ≠ some .unknown

/-- With a target reservation the admission raised; or with a memory reservation the renewal had
failed at the last look before the launch. -/
def Account.slipped (a : Account) : Bool :=
  a.granted && a.admissionRaised || a.admitted && a.lateFailure

def Verdict (s : Local) (outcome : Outcome) : Prop :=
  Disciplined s outcome ↔ s.account.slipped = false

/-! ## Programs that leave the account alone -/

def At (a : Account) (heartbeat : Bool) (s : Local) : Prop :=
  s.account = a ∧ s.heartbeat = heartbeat

/-- A property of the account and the heartbeat. -/
def Blind (I : Local → Prop) : Prop :=
  ∀ s t : Local, s.account = t.account → s.heartbeat = t.heartbeat → I s → I t

theorem blind_at {a : Account} {heartbeat : Bool} : Blind (At a heartbeat) := by
  rintro s t haccount hheartbeat ⟨rfl, rfl⟩
  exact ⟨haccount.symm, hheartbeat.symm⟩

/-- The calls the account notes. -/
def Call.noted : Call → Bool
  | .reserve | .cancel _ | .predictResources | .reserveMemory | .releaseMemory | .launchDurable
  | .exec => true
  | _ => false

def Question.noted : Question → Bool
  | .reservationRecorded | .renewalFailed .launch => true
  | _ => false

theorem account_append (s : Local) (e : Event) :
    Local.account { s with log := s.log ++ [e] } = s.account.note e := by
  rw [Local.account, List.foldl_append]
  rfl

theorem note_called {c : Call} (hc : c.noted = false) (a : Account)
    (outcome : Except Raised (Reply c)) : a.note (.called c outcome) = a := by
  cases c <;> first | rfl | cases hc

theorem note_asked {q : Question} (hq : q.noted = false) (a : Account) (answer : Bool) :
    a.note (.asked q answer) = a := by
  cases q with
  | reservationRecorded => cases hq
  | renewalFailed place =>
    cases place with
    | staging => rfl
    | launch => cases hq
  | _ => rfl

section Rules
variable {o : Oracle} {b : Batch} {I : Local → Prop} {a : Account} {heartbeat : Bool}

theorem triple_call {c : Call} {P : Local → Prop} {Q : Reply c → Local → Prop}
    {E : Raised → Local → Prop}
    (hok : ∀ s r, P s → Q r { s with log := s.log ++ [.called c (.ok r)] })
    (herror : ∀ s e, c.mayRaise e = true → P s →
      E e { s with log := s.log ++ [.called c (.error e)] }) :
    Triple P (call o c) Q E := by
  intro s hs
  unfold call
  cases hreply : o.reply s.log c with
  | ok r => exact hok s r hs
  | error e => exact herror s e (o.declared _ _ _ hreply) hs

theorem triple_ask {q : Question} {P : Local → Prop} {Q : Bool → Local → Prop}
    {E : Raised → Local → Prop}
    (h : ∀ s answer, P s → Q answer { s with log := s.log ++ [.asked q answer] }) :
    Triple P (ask o q) Q E :=
  fun s hs => h s (o.answer s.log q) hs

theorem triple_attempt {α : Type} {m : Prog α} {P : Local → Prop} {Q : α → Local → Prop}
    {E E' : Raised → Local → Prop} (h : Triple P m Q E) : Triple P (attempt m)
      (fun r s => match r with | .ok x => Q x s | .error e => E e s) E' :=
  triple_tryCatch (triple_map h) fun _ => triple_pure fun _ => id

variable (hI : Blind I)
include hI

theorem keeps_call {c : Call} (hc : c.noted = false) : Keeps I (call o c) := by
  refine triple_call (fun s r hs => ?_) (fun s e _ hs => ?_)
  · refine hI s _ ?_ rfl hs
    rw [account_append, note_called hc]
  · refine hI s _ ?_ rfl hs
    rw [account_append, note_called hc]

/-- A question raises nothing. -/
theorem triple_ask_kept {q : Question} (hq : q.noted = false) {E : Raised → Local → Prop} :
    Triple I (ask o q) (fun _ => I) E := by
  refine triple_ask fun s answer hs => hI s _ ?_ rfl hs
  rw [account_append, note_asked hq]

theorem triple_consult {q : Question} (hq : q.noted = false) {given : Bool}
    {E : Raised → Local → Prop} : Triple I (consult o given q) (fun _ => I) E :=
  triple_ite (fun _ => triple_ask_kept hI hq) fun _ => triple_pure fun _ => id

omit hI in
theorem keeps_attempt {α : Type} {m : Prog α} (h : Keeps I m) : Keeps I (attempt m) := by
  refine (triple_attempt h).post fun r s hs => ?_
  cases r with
  | ok x => exact hs
  | error e => exact hs

omit hI in
/-- A handler that only goes on or raises again keeps what both do. -/
theorem keeps_attempt_bind {α β : Type} {m : Prog α} {f : Except Raised α → Prog β}
    (hm : Keeps I m) (hok : ∀ x, Keeps I (f (.ok x))) (herror : ∀ e, Keeps I (f (.error e))) :
    Keeps I (attempt m >>= f) :=
  keeps_bind (keeps_attempt hm) fun r => by
    cases r with
    | ok x => exact hok x
    | error e => exact herror e

theorem keeps_attemptPassing {c : Call} (hc : c.noted = false) (caught : Raised → Bool) :
    Keeps I (attemptPassing o caught c) :=
  keeps_attempt_bind (keeps_call hI hc) (fun _ => keeps_pure _)
    fun _ => keeps_ite (keeps_pure _) (keeps_throw _)

theorem keeps_safeDelete : Keeps I (safeDelete o) := keeps_attemptPassing hI rfl _

theorem keeps_callAll {calls : List Call} (h : ∀ c ∈ calls, c.noted = false) :
    Keeps I (callAll o calls) :=
  triple_forM fun c hc => keeps_map (keeps_call hI (h c hc))

theorem keeps_update (f : Local → Local) (hlog : ∀ s, (f s).log = s.log)
    (hheartbeat : ∀ s, (f s).heartbeat = s.heartbeat) : Keeps I (modify f : Prog PUnit) := by
  refine triple_modify fun s hs => hI s _ ?_ (hheartbeat s).symm hs
  rw [Local.account, Local.account, hlog]

/-! ## Cleaning up -/

theorem keeps_cleanupTerminalTarget : Keeps I (cleanupTerminalTarget o b) := by
  have hprove : Keeps I (proveCleanup o b) :=
    keeps_bind (triple_consult hI rfl) fun _ => keeps_ite (keeps_pure _) (keeps_pure _)
  have hdelete : Keeps I (deleteDurable o b) :=
    keeps_attempt_bind (keeps_call hI rfl) (fun _ => hprove)
      fun _ => keeps_ite (keeps_pure _) (keeps_throw _)
  refine keeps_bind (keeps_ite (triple_ask_kept hI rfl) (keeps_pure _)) fun _ => keeps_ite ?_ ?_
  · exact keeps_bind (triple_consult hI rfl) fun _ => keeps_pure _
  · exact keeps_attempt_bind (keeps_call hI rfl) (fun _ => hdelete)
      fun _ => keeps_ite (keeps_pure _) (keeps_throw _)

end Rules

/-- The reservation of the target after the prelaunch finalization. -/
def Account.closed (a : Account) (reserved cancelled : Bool) : Account :=
  if reserved then { a with cancelTried := true, cancelled := cancelled } else a

section Finalization
variable {o : Oracle} {b : Batch}

theorem triple_cancel {place : CancelPlace} {a : Account} {heartbeat : Bool} :
    Triple (At a heartbeat) (call o (.cancel place) : Prog (Option String))
      (fun state => At { a with cancelTried := true, cancelled := isTerminal state } heartbeat)
      fun e s => e.isDeclared = true ∧ At { a with cancelTried := true } heartbeat s := by
  refine triple_call (fun s r hs => ?_) (fun s e he hs => ?_)
  · obtain ⟨rfl, rfl⟩ := hs
    exact ⟨account_append s _, rfl⟩
  · obtain ⟨rfl, rfl⟩ := hs
    refine ⟨?_, account_append s _, rfl⟩
    simpa [Call.mayRaise] using he

theorem triple_finalizeState {a : Account} {state : Option String} :
    Triple (At { a with cancelTried := true, cancelled := isTerminal state } false)
      (finalizeState o b state)
      (fun extra s => ∃ cancelled, At (a.closed true cancelled) false s ∧
        (cancelled = true ∨ extra.targetCleanupDeferred.isSome = true))
      fun _ => At (a.closed true true) false := by
  unfold finalizeState
  cases hterminal : isTerminal state with
  | false =>
    rw [if_pos (by rw [← isTerminal, hterminal]; rfl)]
    exact triple_pure fun s hs => ⟨false, hs, Or.inr rfl⟩
  | true =>
    rw [if_neg (by rw [← isTerminal, hterminal]; decide)]
    split
    · exact triple_pure fun s hs => ⟨true, hs, Or.inl rfl⟩
    · exact (keeps_cleanupTerminalTarget blind_at).conseq (fun _ => id)
        (fun extra s hs => ⟨true, hs, Or.inl rfl⟩) fun _ _ => id

/-- Whatever the heartbeat did, it is stopped at the end, and what was reserved is cancelled or
deferred. -/
def Closes (a : Account) (heartbeat reserved : Bool) (m : Prog CleanupResult) : Prop :=
  Triple (At a heartbeat) m
    (fun extra s => ∃ cancelled, At (a.closed reserved cancelled) false s ∧
      (reserved = true → cancelled = true ∨ extra.targetCleanupDeferred.isSome = true))
    fun _ => At (a.closed reserved true) false

theorem closes_finalizePrelaunchTarget {a : Account} {heartbeat reserved : Bool} :
    Closes a heartbeat reserved (finalizePrelaunchTarget o b reserved none) := by
  refine triple_bind (R := fun _ => At a false) (triple_modify fun s hs => ⟨hs.1, rfl⟩) fun _ => ?_
  cases reserved with
  | false => exact triple_pure fun s hs => ⟨false, hs, nofun⟩
  | true =>
    refine triple_bind (triple_attempt triple_cancel) fun r => ?_
    cases r with
    | ok state =>
      refine triple_finalizeState.post fun extra s hs => ?_
      obtain ⟨cancelled, hat, hdone⟩ := hs
      exact ⟨cancelled, hat, fun _ => hdone⟩
    | error e =>
      refine triple_of_pure fun he => triple_ite (fun _ => ?_) fun hnot => absurd he hnot
      exact triple_pure fun s hs => ⟨a.cancelled, hs, fun _ => Or.inr rfl⟩

/-- The stage is deleted here only where nothing is reserved. -/
theorem closes_abandon {a : Account} {heartbeat reserved : Bool} :
    Closes a heartbeat reserved (abandon o b reserved) := by
  refine triple_bind closes_finalizePrelaunchTarget fun extra => ?_
  cases reserved with
  | true =>
    rw [if_neg (by simp)]
    exact triple_bind (triple_pure fun _ => id) fun _ => triple_pure fun _ => id
  | false =>
    refine triple_bind (R := fun _ => At a false) ?_ fun _ =>
      triple_pure fun s hs => ⟨false, hs, nofun⟩
    refine Triple.pre (P := At a false) ?_ fun s hs => ?_
    · exact keeps_ite (keeps_safeDelete blind_at) (keeps_pure _)
    · obtain ⟨cancelled, hat, -⟩ := hs
      exact hat

end Finalization

/-! ## Before the launch -/

/-- Nothing was handed over, the heartbeat is stopped and no target reservation is left; a memory
reservation is left only after a slip. -/
structure Unheld (s : Local) : Prop where
  handed : s.account.handed = false
  slipped : s.account.slipped = (s.account.admitted && !s.account.released)
  target : s.account.granted = true → s.account.cancelled = true ∨ s.account.lost = true
  heartbeat : s.heartbeat = false

theorem verdict_of_closed {s : Local} {outcome : Outcome} (hhanded : s.account.handed = false)
    (hslipped : s.account.slipped = (s.account.admitted && !s.account.released))
    (htarget : s.account.granted = true → s.account.cancelled = true ∨ s.account.lost = true ∨
      ∃ response, outcome = .ok response ∧ response.cleanup.targetCleanupDeferred.isSome = true)
    (hheartbeat : s.heartbeat = false)
    (hunknown : ∀ response, outcome = .ok response → response.completionState ≠ some .unknown) :
    Verdict s outcome := by
  constructor
  · intro h
    rw [hslipped]
    cases hadmitted : s.account.admitted with
    | false => rfl
    | true => rw [h.memory hhanded hadmitted]; rfl
  · intro h
    rw [hslipped] at h
    refine ⟨fun _ hadmitted => ?_, fun _ => htarget, hheartbeat, fun r hr _ => hunknown r hr⟩
    simpa [hadmitted] using h

theorem Unheld.verdict {s : Local} (h : Unheld s) {outcome : Outcome}
    (hunknown : ∀ response, outcome = .ok response → response.completionState ≠ some .unknown) :
    Verdict s outcome :=
  verdict_of_closed h.handed h.slipped (fun hg => (h.target hg).imp id Or.inl) h.heartbeat hunknown

theorem Unheld.verdict_error {s : Local} (h : Unheld s) (e : Raised) : Verdict s (.error e) :=
  h.verdict fun _ hr => nomatch hr

/-- The account when nothing is pending but the target reservation. -/
def Account.quiet (a : Account) (reserved : Bool) : Prop :=
  a.handed = false ∧ a.granted = reserved ∧ a.slipped = (a.admitted && !a.released)

theorem quiet_reserved {granted : Bool} : ({ granted := granted } : Account).quiet granted :=
  ⟨rfl, rfl, by simp [Account.slipped]⟩

theorem closed_fields (a : Account) (reserved cancelled : Bool) :
    (a.closed reserved cancelled).handed = a.handed ∧
      (a.closed reserved cancelled).granted = a.granted ∧
      (a.closed reserved cancelled).admitted = a.admitted ∧
      (a.closed reserved cancelled).released = a.released ∧
      (a.closed reserved cancelled).slipped = a.slipped := by
  cases reserved <;> exact ⟨rfl, rfl, rfl, rfl, rfl⟩

theorem verdict_of_abandoned {a : Account} {reserved cancelled : Bool} {s : Local}
    {response : Response} (ha : a.quiet reserved) (hs : At (a.closed reserved cancelled) false s)
    (htarget : reserved = true →
      cancelled = true ∨ response.cleanup.targetCleanupDeferred.isSome = true)
    (hunknown : response.completionState ≠ some .unknown) : Verdict s (.ok response) := by
  obtain ⟨haccount, hheartbeat⟩ := hs
  obtain ⟨hhanded, hgranted, hslipped⟩ := ha
  obtain ⟨hhanded', hgranted', hadmitted, hreleased, hslipped'⟩ := closed_fields a reserved cancelled
  rw [← haccount] at hhanded' hgranted' hadmitted hreleased hslipped'
  refine verdict_of_closed (hhanded'.trans hhanded) ?_ (fun hg => ?_) hheartbeat ?_
  · rw [hslipped', hslipped, hadmitted, hreleased]
  · rw [hgranted', hgranted] at hg
    subst hg
    rcases htarget rfl with rfl | hdeferred
    · exact Or.inl (by rw [haccount]; rfl)
    · exact Or.inr (Or.inr ⟨response, rfl, hdeferred⟩)
  · rintro r hr
    obtain rfl := Except.ok.inj hr
    exact hunknown

theorem unheld_of_abandoned {a : Account} {reserved : Bool} {s : Local} (ha : a.quiet reserved)
    (hs : At (a.closed reserved true) false s) : Unheld s := by
  obtain ⟨haccount, hheartbeat⟩ := hs
  obtain ⟨hhanded, hgranted, hslipped⟩ := ha
  obtain ⟨hhanded', hgranted', hadmitted, hreleased, hslipped'⟩ := closed_fields a reserved true
  rw [← haccount] at hhanded' hgranted' hadmitted hreleased hslipped'
  refine ⟨hhanded'.trans hhanded, ?_, fun hg => ?_, hheartbeat⟩
  · rw [hslipped', hslipped, hadmitted, hreleased]
  · rw [hgranted', hgranted] at hg
    subst hg
    exact Or.inl (by rw [haccount]; rfl)

/-! ## The phases -/

def Concludes (P : Local → Prop) (m : Prog Response) : Prop :=
  Triple P m (fun response s => Verdict s (.ok response)) fun e s => Verdict s (.error e)

/-- A part that returns or raises is judged there; otherwise it goes on within `Q`. -/
def Phase {α : Type} (P : Local → Prop) (m : Prog (Step α)) (Q : α → Local → Prop) : Prop :=
  Triple P m (fun step s => match step with
    | .done response => Verdict s (.ok response)
    | .next x => Q x s) fun e s => Verdict s (.error e)

theorem phase_bind {α : Type} {P : Local → Prop} {Q : α → Local → Prop} {m : Prog (Step α)}
    {rest : α → Prog Response} (hm : Phase P m Q) (hrest : ∀ x, Concludes (Q x) (rest x)) :
    Concludes P (m >>= fun step => step.orElse rest) := by
  refine triple_bind hm fun step => ?_
  cases step with
  | done response => exact triple_pure fun _ => id
  | next x => exact hrest x

section Phases
variable {o : Oracle} {b : Batch}

/-- Only the target reservation is held, where the device has one. -/
abbrev Reserved (b : Batch) : Local → Prop := At { granted := b.supported } b.supported

theorem unheld_start {s : Local} (hs : At {} false s) : Unheld s := by
  obtain ⟨haccount, hheartbeat⟩ := hs
  refine ⟨?_, ?_, fun hg => ?_, hheartbeat⟩
  · rw [haccount]
  · rw [haccount]
    rfl
  · rw [haccount] at hg
    cases hg

/-- A part that keeps the account of the start empty is judged well wherever it ends. -/
theorem phase_of_keeps {m : Prog (Step Unit)} (h : Keeps (At {} false) m)
    (hdone : Yields m fun step => ∀ response, step = .done response →
      response.completionState ≠ some .unknown) :
    Phase (At {} false) m fun _ => At {} false := by
  refine (h.and hdone).conseq (fun s hs => ⟨hs, trivial⟩) (fun step s hs => ?_)
    fun e s hs => (unheld_start hs.1).verdict_error e
  cases step with
  | done response =>
    refine (unheld_start hs.1).verdict fun r hr => ?_
    obtain rfl := Except.ok.inj hr
    exact hs.2 _ rfl
  | next x => exact hs.1

theorem phase_preflight : Phase (At {} false) (preflight o b) fun _ => At {} false := by
  refine phase_of_keeps ?_ ?_
  · refine keeps_ite (keeps_pure _) (keeps_ite (keeps_pure _) (keeps_ite ?_ (keeps_pure _)))
    exact keeps_attempt_bind (keeps_call blind_at rfl) (fun _ => keeps_pure _)
      fun _ => keeps_ite (keeps_pure _) (keeps_throw _)
  · unfold preflight
    split
    · exact yields_pure fun r hr => by cases hr; decide
    split
    · exact yields_pure fun r hr => by cases hr; decide
    split
    · refine yields_bind (yields_any _) fun r _ => ?_
      cases r with
      | ok _ => exact yields_pure fun r hr => by cases hr
      | error e =>
        dsimp only
        split
        · exact yields_pure fun r hr => by cases hr; decide
        · exact yields_throw _
    · exact yields_pure fun r hr => by cases hr

theorem planCalls_noted : ∀ c ∈ planCalls b, c.noted = false := by
  have hall : (planCalls b).all (fun c => !c.noted) = true := by
    unfold planCalls
    cases b.supported <;> cases b.configuredRoot <;> rfl
  intro c hc
  simpa using List.all_eq_true.mp hall c hc

theorem phase_plan : Phase (At {} false) (plan o b) fun _ => At {} false := by
  refine phase_of_keeps ?_ ?_
  · exact keeps_attempt_bind (keeps_callAll blind_at planCalls_noted) (fun _ => keeps_pure _)
      fun _ => keeps_ite (keeps_pure _) (keeps_throw _)
  · refine yields_bind (yields_any _) fun r _ => ?_
    cases r with
    | ok _ => exact yields_pure fun r hr => by cases hr
    | error e =>
      dsimp only
      split
      · exact yields_pure fun r hr => by cases hr; decide
      · exact yields_throw _

/-- What the reservation of the target ends with, when it does not go on. -/
theorem triple_ownerLoss :
    Triple (At { granted := true, lost := true } false) (ownerLoss o)
      (fun step s => match step with
        | .done response => Unheld s ∧ response.completionState = some .notStarted
        | .next _ => False)
      fun _ => Unheld := by
  have hunheld : ∀ tried cancelled s,
      At ⟨true, true, tried, cancelled, false, false, false, false, false⟩ false s → Unheld s := by
    rintro tried cancelled s ⟨haccount, hheartbeat⟩
    exact ⟨by rw [haccount], by rw [haccount]; rfl, fun _ => Or.inr (by rw [haccount]), hheartbeat⟩
  refine triple_bind (R := fun _ => Unheld) ?_ fun _ => triple_pure fun s hs => ⟨hs, rfl⟩
  refine triple_bind (triple_attempt triple_cancel) fun r => ?_
  cases r with
  | ok state => exact triple_pure fun s hs => hunheld _ _ s hs
  | error e =>
    dsimp only
    split
    · exact triple_pure fun s hs => hunheld _ _ s hs.2
    · exact triple_throw fun s hs => hunheld _ _ s hs.2

theorem triple_reserveTarget :
    Triple (At {} false) (reserveTarget o b)
      (fun step s => match step with
        | .done response => Unheld s ∧ response.completionState = some .notStarted
        | .next _ => At { granted := true } true s)
      fun _ => Unheld := by
  have hkeeps : ∀ {m : Prog Unit}, Keeps (At {} false) m →
      Triple (At {} false) m (fun _ => At {} false) fun _ => Unheld :=
    fun h => h.conseq (fun _ => id) (fun _ _ => id) fun _ s hs => unheld_start hs
  have hpolicy : Keeps (At {} false) (checkPolicy o b) := by
    refine keeps_ite (keeps_bind (keeps_call blind_at rfl) fun reply => ?_) (keeps_pure _)
    cases reply with
    | installed => exact keeps_pure _
    | notInstalled => exact keeps_throw _
    | malformed => exact keeps_throw _
  refine triple_bind (hkeeps (keeps_call blind_at rfl)) fun _ => ?_
  refine triple_bind (hkeeps hpolicy) fun _ => ?_
  refine triple_bind (R := fun granted => At { granted := granted } false) ?_ fun granted => ?_
  · refine triple_call (fun s r hs => ?_) (fun s e _ hs => ?_)
    · obtain ⟨haccount, hheartbeat⟩ := hs
      exact ⟨by rw [account_append, haccount]; rfl, hheartbeat⟩
    · obtain ⟨haccount, hheartbeat⟩ := hs
      exact unheld_start ⟨by rw [account_append, haccount]; rfl, hheartbeat⟩
  cases granted with
  | false => exact triple_throw fun s hs => unheld_start hs
  | true =>
    rw [if_neg (by decide)]
    refine triple_bind
      (R := fun recorded => At { granted := true, lost := !recorded } false) ?_ fun recorded => ?_
    · unfold consult
      split
      · refine triple_ask fun s answer hs => ?_
        obtain ⟨haccount, hheartbeat⟩ := hs
        exact ⟨by rw [account_append, haccount]; rfl, hheartbeat⟩
      · exact triple_pure fun s hs => hs
    · cases recorded with
      | false =>
        refine triple_ownerLoss.post fun step s hs => ?_
        cases step with
        | done response => exact hs
        | next x => exact hs.elim
      | true =>
        refine triple_bind (R := fun _ => At { granted := true } true)
          (triple_modify fun s hs => ⟨hs.1, rfl⟩) fun _ => triple_pure fun s hs => hs

theorem phase_accept : Phase (At {} false) (accept o b) fun _ => Reserved b := by
  unfold accept Reserved
  cases b.supported with
  | false => exact triple_pure fun s hs => hs
  | true =>
    rw [if_pos rfl]
    refine triple_bind (triple_attempt triple_reserveTarget) fun r => ?_
    cases r with
    | ok step =>
      refine triple_pure fun s hs => ?_
      cases step with
      | next x => exact hs
      | done response =>
        refine hs.1.verdict fun r hr => ?_
        obtain rfl := Except.ok.inj hr
        rw [hs.2]
        decide
    | error e =>
      dsimp only
      split
      · refine triple_pure fun s hs => hs.verdict fun r hr => ?_
        obtain rfl := Except.ok.inj hr
        decide
      · exact triple_throw fun s hs => hs.verdict_error e

end Phases

/-! ## Staging -/

/-- Staging keeps what is reserved, and raises only what its handler catches. -/
def Stages (I : Local → Prop) (m : Prog Unit) : Prop :=
  Triple I m (fun _ => I) fun e s => e.isDeclared = true ∧ I s

section Staging
variable {o : Oracle} {b : Batch} {I : Local → Prop} (hI : Blind I)
include hI

theorem triple_stagingCall {c : Call} (hc : c.noted = false) (hdelete : c ≠ .removeTree) :
    Triple I (call o c) (fun _ => I) fun e s => e.isDeclared = true ∧ I s := by
  refine triple_call (fun s r hs => ?_) (fun s e he hs => ⟨?_, ?_⟩)
  · exact hI s _ (by rw [account_append, note_called hc]) rfl hs
  · simpa [Call.mayRaise, hdelete] using he
  · exact hI s _ (by rw [account_append, note_called hc]) rfl hs

theorem stages_requireLive : Stages I (requireLive o .staging) := by
  refine triple_get_bind fun s hs => Triple.pre (P := I) ?_ fun t ht => ht ▸ hs
  refine triple_ite (fun _ => ?_) fun _ => triple_pure fun _ => id
  refine triple_bind (triple_ask_kept hI rfl) fun failed => ?_
  exact triple_ite (fun _ => triple_throw fun s hs => ⟨rfl, hs⟩) fun _ => triple_pure fun _ => id

theorem stages_materializeItem {task item : Nat} {storageRef : Bool} :
    Stages I (materializeItem o task item storageRef) := by
  have hplain : Stages I (call o (.materialize task item)) := triple_stagingCall hI rfl nofun
  refine triple_ite (fun _ => ?_) fun _ => hplain
  refine triple_bind (triple_stagingCall hI rfl nofun) fun found => ?_
  cases found with
  | false => exact hplain
  | true =>
    refine triple_bind (triple_attempt (triple_stagingCall hI rfl nofun)) fun r => ?_
    cases r with
    | ok _ => exact triple_pure fun _ => id
    | error e =>
      exact triple_ite (fun _ => hplain.pre fun s hs => hs.2) fun _ => triple_throw fun _ => id

theorem stages_stageTask {task : TaskShape × Nat} : Stages I (stageTask o task) := by
  refine triple_bind (R := fun _ => I) ?_ fun _ => triple_forM fun item _ => ?_
  · refine triple_ite (fun _ => ?_) fun _ => triple_pure fun _ => id
    exact triple_bind (triple_stagingCall hI rfl nofun) fun _ => stages_requireLive hI
  · exact triple_bind (stages_materializeItem hI) fun _ => stages_requireLive hI

theorem stages_stageInputs : Stages I (stageInputs o b) := by
  have hdirs : Stages I (callAll o [.ensureDir 0, .ensureDir 1, .ensureDir 2]) := by
    refine triple_forM fun c hc => triple_map (triple_stagingCall hI ?_ ?_)
    · simp at hc
      rcases hc with rfl | rfl | rfl <;> rfl
    · rintro rfl
      simp at hc
  refine triple_bind hdirs fun _ => triple_bind (stages_requireLive hI) fun _ => ?_
  refine triple_bind (triple_forM fun task _ => stages_stageTask hI) fun _ => ?_
  exact triple_bind (triple_stagingCall hI rfl nofun) fun _ => stages_requireLive hI

end Staging

section Phases
variable {o : Oracle} {b : Batch}

theorem phase_closed {α : Type} {a : Account} {heartbeat reserved : Bool} {m : Prog CleanupResult}
    {respond : CleanupResult → Response} {Q : α → Local → Prop} (hm : Closes a heartbeat reserved m)
    (ha : a.quiet reserved) (hcleanup : ∀ extra, (respond extra).cleanup = extra)
    (hunknown : ∀ extra, (respond extra).completionState ≠ some .unknown) :
    Phase (At a heartbeat) (m >>= fun extra => pure (.done (respond extra))) Q := by
  refine triple_bind (hm.conseq (fun _ => id) (fun _ _ => id) fun e s hs =>
    (unheld_of_abandoned ha hs).verdict_error e) fun extra => triple_pure fun s hs => ?_
  obtain ⟨cancelled, hat, htarget⟩ := hs
  exact verdict_of_abandoned ha hat (by rwa [hcleanup]) (hunknown extra)

theorem phase_stage : Phase (Reserved b) (stage o b) fun _ => Reserved b := by
  refine triple_bind (triple_attempt (stages_stageInputs blind_at)) fun r => ?_
  cases r with
  | ok _ => exact triple_pure fun s hs => hs
  | error e =>
    refine triple_of_pure fun he => ?_
    refine triple_ite (fun _ => ?_) fun _ => triple_ite (fun _ => ?_) fun hnot => absurd he hnot
    · exact phase_closed closes_abandon quiet_reserved (fun _ => rfl) fun _ => nofun
    · exact phase_closed closes_abandon quiet_reserved (fun _ => rfl) fun _ => nofun

/-! ## The memory admission -/

/-- What is held when the launch comes near. -/
abbrev Ready (b : Batch) (reservation heartbeat : Bool) : Local → Prop :=
  At { granted := b.supported, admitted := reservation } heartbeat

/-- An admission that raises leaves the heartbeat of the target reservation running. -/
theorem verdict_of_admissionRaised {s : Local} {e : Raised}
    (hs : At { granted := b.supported, admissionRaised := true } b.supported s) :
    Verdict s (.error e) := by
  obtain ⟨haccount, hheartbeat⟩ := hs
  cases hsupported : b.supported with
  | false =>
    rw [hsupported] at haccount hheartbeat
    refine Unheld.verdict_error ⟨by rw [haccount], by rw [haccount]; rfl, fun hg => ?_, hheartbeat⟩ e
    rw [haccount] at hg
    cases hg
  | true =>
    rw [hsupported] at haccount hheartbeat
    constructor
    · intro h
      exact absurd (hheartbeat.symm.trans h.heartbeat) (by decide)
    · intro h
      rw [haccount] at h
      cases h

/-- What is held after the guard's answer. -/
def Answered (b : Batch) : Admission → Local → Prop
  | .refused => Reserved b
  | .admitted reservation => Ready b reservation b.supported

theorem phase_admitUnderGuard : Phase (Reserved b) (admitUnderGuard o b) fun reservation =>
    Ready b reservation b.supported := by
  refine triple_ite (fun _ => ?_) fun _ => triple_pure fun _ => id
  · refine triple_bind (R := fun _ => Reserved b) ?_ fun _ => ?_
    · refine triple_ite (fun _ => triple_pure fun _ => id) fun _ => ?_
      · refine triple_call (fun s r hs => ?_) (fun s e _ hs => verdict_of_admissionRaised (b := b) ?_)
        · obtain ⟨haccount, hheartbeat⟩ := hs
          exact ⟨by rw [account_append, haccount]; rfl, hheartbeat⟩
        · obtain ⟨haccount, hheartbeat⟩ := hs
          exact ⟨by rw [account_append, haccount]; rfl, hheartbeat⟩
    · refine triple_bind (R := Answered b) ?_ fun reply => ?_
      · refine triple_call (fun s r hs => ?_) (fun s e _ hs => verdict_of_admissionRaised (b := b) ?_)
        · obtain ⟨haccount, hheartbeat⟩ := hs
          cases r with
          | refused => exact ⟨by rw [account_append, haccount]; rfl, hheartbeat⟩
          | admitted reservation =>
            exact ⟨by rw [account_append, haccount]; rfl, hheartbeat⟩
        · obtain ⟨haccount, hheartbeat⟩ := hs
          exact ⟨by rw [account_append, haccount]; rfl, hheartbeat⟩
      · cases reply with
        | refused =>
          refine phase_closed closes_abandon quiet_reserved (fun _ => rfl) fun _ => ?_
          rintro ⟨⟩
        | admitted reservation => exact triple_pure fun s hs => hs

theorem triple_releaseGuard {reservation heartbeat : Bool} {E : Raised → Local → Prop} :
    Triple (Ready b reservation heartbeat) (releaseGuard o reservation)
      (fun _ => At { granted := b.supported, admitted := reservation, released := reservation }
        heartbeat) E := by
  cases reservation with
  | false => exact triple_pure fun s hs => hs
  | true =>
    have hrelease : Triple (Ready b true heartbeat) (call o .releaseMemory)
        (fun _ => At { granted := b.supported, admitted := true, released := true } heartbeat)
        fun _ => At { granted := b.supported, admitted := true, released := true } heartbeat := by
      refine triple_call (fun s r hs => ?_) (fun s e _ hs => ?_)
      · obtain ⟨haccount, hheartbeat⟩ := hs
        exact ⟨by rw [account_append, haccount]; rfl, hheartbeat⟩
      · obtain ⟨haccount, hheartbeat⟩ := hs
        exact ⟨by rw [account_append, haccount]; rfl, hheartbeat⟩
    refine triple_bind (triple_attempt hrelease) fun r => ?_
    cases r with
    | ok _ => exact triple_pure fun s hs => hs
    | error e => exact triple_pure fun s hs => hs

theorem phase_prelaunchGate {reservation : Bool} :
    Phase (Ready b reservation b.supported) (prelaunchGate o b reservation)
      fun _ => Ready b reservation b.supported := by
  refine triple_bind (triple_consult blind_at rfl) fun isOpen => ?_
  refine triple_ite (fun _ => triple_pure fun _ => id) fun _ => ?_
  refine triple_bind triple_releaseGuard fun _ =>
    phase_closed closes_abandon ⟨rfl, rfl, ?_⟩ (fun _ => rfl) fun _ => nofun
  simp [Account.slipped]

theorem phase_lastLive {reservation : Bool} :
    Phase (Ready b reservation b.supported) (lastLive o b) fun _ => Ready b reservation false := by
  have hlive : Triple (Ready b reservation b.supported) (requireLive o .launch)
      (fun _ => Ready b reservation b.supported)
      fun e s => e = .targetResourceError ∧
        At { granted := b.supported, admitted := reservation, lateFailure := true } b.supported s := by
    refine triple_get_bind fun s hs =>
      Triple.pre (P := Ready b reservation b.supported) ?_ fun t ht => ht ▸ hs
    refine triple_ite (fun _ => ?_) fun _ => triple_pure fun _ => id
    refine triple_bind (R := fun failed =>
      At { granted := b.supported, admitted := reservation, lateFailure := failed } b.supported)
      (triple_ask fun s answer hs => ?_) fun failed => ?_
    · obtain ⟨haccount, hheartbeat⟩ := hs
      exact ⟨by rw [account_append, haccount]; rfl, hheartbeat⟩
    · cases failed with
      | true => exact triple_throw fun s hs => ⟨rfl, hs⟩
      | false => exact triple_pure fun s hs => hs
  refine triple_bind (triple_attempt hlive) fun r => ?_
  cases r with
  | ok _ =>
    exact triple_bind (R := fun _ => Ready b reservation false)
      (triple_modify fun s hs => ⟨hs.1, rfl⟩) fun _ => triple_pure fun _ => id
  | error e =>
    refine triple_of_pure fun he => triple_ite (fun _ => ?_) fun hnot => absurd he hnot
    refine phase_closed closes_finalizePrelaunchTarget ⟨rfl, rfl, ?_⟩ (fun _ => rfl) fun _ => nofun
    simp [Account.slipped]

end Phases

/-! ## After the hand-off -/

/-- The command was handed over and the heartbeat had been stopped. -/
structure Away (s : Local) : Prop where
  handed : s.account.handed = true
  slipped : s.account.slipped = false
  heartbeat : s.heartbeat = false

structure Uncancelled (s : Local) : Prop extends Away s where
  cancelTried : s.account.cancelTried = false

theorem blind_away : Blind Away := by
  intro s t haccount hheartbeat h
  exact ⟨haccount ▸ h.handed, haccount ▸ h.slipped, hheartbeat ▸ h.heartbeat⟩

theorem blind_uncancelled : Blind Uncancelled := by
  intro s t haccount hheartbeat h
  exact ⟨blind_away s t haccount hheartbeat h.toAway, haccount ▸ h.cancelTried⟩

theorem Away.verdict {s : Local} (h : Away s) {outcome : Outcome}
    (hunknown : ∀ response, outcome = .ok response → s.account.cancelTried = true →
      response.completionState ≠ some .unknown) : Verdict s outcome := by
  refine ⟨fun _ => h.slipped, fun _ => ⟨fun hhanded => ?_, fun hhanded => ?_, h.heartbeat, hunknown⟩⟩
  · rw [h.handed] at hhanded
    cases hhanded
  · rw [h.handed] at hhanded
    cases hhanded

theorem Away.verdict_error {s : Local} (h : Away s) (e : Raised) : Verdict s (.error e) :=
  h.verdict fun _ hr => nomatch hr

theorem Uncancelled.verdict {s : Local} (h : Uncancelled s) (outcome : Outcome) :
    Verdict s outcome := by
  refine h.toAway.verdict fun r _ htried => ?_
  rw [h.cancelTried] at htried
  cases htried

section Launch
variable {o : Oracle} {b : Batch}

/-- A call that only cancels or releases leaves the hand-off as it is. -/
theorem keeps_away_call {c : Call} (hc : c.noted = false ∨ (∃ place, c = .cancel place) ∨
    c = .releaseMemory) : Keeps Away (call o c) := by
  have hnote : ∀ (s : Local) (outcome : Except Raised (Reply c)), Away s →
      Away { s with log := s.log ++ [.called c outcome] } := by
    intro s outcome hs
    rcases hc with hc | ⟨place, rfl⟩ | rfl
    · exact blind_away s _ (by rw [account_append, note_called hc]) rfl hs
    · cases outcome with
      | ok state => exact ⟨by rw [account_append]; exact hs.handed,
          by rw [account_append]; exact hs.slipped, hs.heartbeat⟩
      | error e => exact ⟨by rw [account_append]; exact hs.handed,
          by rw [account_append]; exact hs.slipped, hs.heartbeat⟩
    · exact ⟨by rw [account_append]; exact hs.handed, by rw [account_append]; exact hs.slipped,
        hs.heartbeat⟩
  exact triple_call (fun s r hs => hnote s _ hs) fun s e _ hs => hnote s _ hs

theorem keeps_away_releaseGuard {reservation : Bool} : Keeps Away (releaseGuard o reservation) := by
  refine keeps_ite (keeps_attempt_bind (keeps_away_call (Or.inr (Or.inr rfl))) ?_ ?_) (keeps_pure _)
  · exact fun _ => keeps_pure _
  · exact fun _ => keeps_pure _

theorem keeps_away_finalizePrelaunchTarget {reserved : Bool} {known : Option String} :
    Keeps Away (finalizePrelaunchTarget o b reserved known) := by
  have hstate : ∀ state, Keeps Away (finalizeState o b state) := fun state =>
    keeps_ite (keeps_pure _) (keeps_ite (keeps_pure _) (keeps_cleanupTerminalTarget blind_away))
  refine keeps_bind (triple_modify fun s hs => ⟨hs.handed, hs.slipped, rfl⟩) fun _ =>
    keeps_ite (keeps_pure _) ?_
  cases known with
  | some state => exact hstate _
  | none =>
    exact keeps_attempt_bind (keeps_away_call (Or.inr (Or.inl ⟨_, rfl⟩))) (fun state => hstate state)
      fun _ => keeps_ite (keeps_pure _) (keeps_throw _)

theorem keeps_away_abandon {reserved : Bool} : Keeps Away (abandon o b reserved) :=
  keeps_bind keeps_away_finalizePrelaunchTarget fun _ =>
    keeps_bind (keeps_ite (keeps_safeDelete blind_away) (keeps_pure _)) fun _ => keeps_pure _

/-- The command is handed over by the call itself, whatever comes of it. -/
theorem triple_handOff {reservation : Bool} {c : Call} (hc : c = .launchDurable ∨ c = .exec) :
    Triple (Ready b reservation false) (call o c) (fun _ => Uncancelled) fun _ => Uncancelled := by
  have hnote : ∀ (s : Local) (outcome : Except Raised (Reply c)), Ready b reservation false s →
      Uncancelled { s with log := s.log ++ [.called c outcome] } := by
    rintro s outcome ⟨haccount, hheartbeat⟩
    have hnoted : Local.account { s with log := s.log ++ [.called c outcome] } =
        { granted := b.supported, admitted := reservation, handed := true } := by
      rw [account_append, haccount]
      rcases hc with rfl | rfl <;> rfl
    refine ⟨⟨by rw [hnoted], ?_, hheartbeat⟩, by rw [hnoted]⟩
    rw [hnoted]
    simp [Account.slipped]
  exact triple_call (fun s r hs => hnote s _ hs) fun s e _ hs => hnote s _ hs

theorem triple_launch {reservation : Bool} :
    Triple (Ready b reservation false) (launch o b) (fun _ => Uncancelled) fun _ => Uncancelled := by
  refine triple_ite (fun _ => ?_) fun _ => triple_map (triple_handOff (Or.inr rfl))
  refine triple_bind (triple_handOff (Or.inl rfl)) fun reply => ?_
  refine keeps_ite (keeps_throw _) (keeps_bind ?_ fun _ => keeps_bind ?_ fun _ => ?_)
  · exact keeps_update blind_uncancelled _ (fun _ => rfl) fun _ => rfl
  · exact triple_consult blind_uncancelled rfl
  refine keeps_ite (keeps_pure _) (keeps_bind (keeps_call blind_uncancelled rfl) fun t => ?_)
  refine keeps_bind (keeps_update blind_uncancelled _ (fun _ => rfl) fun _ => rfl) fun _ => ?_
  refine keeps_ite (keeps_bind ?_ fun _ => keeps_pure _)
    (keeps_map (keeps_call blind_uncancelled rfl))
  exact keeps_ite (keeps_cleanupTerminalTarget blind_uncancelled) (keeps_pure _)

theorem keeps_gatherEvidence {s : Local} : Keeps Uncancelled (gatherEvidence o b s) := by
  have hread : Keeps Uncancelled (readDurable o) :=
    keeps_attempt_bind (keeps_call blind_uncancelled rfl) (fun _ => keeps_pure _)
      fun _ => keeps_ite (keeps_pure _) (keeps_throw _)
  have hjudge : ∀ receipt, Keeps Uncancelled (judgeReceipt receipt) := by
    intro receipt
    cases receipt with
    | none => exact keeps_throw _
    | some receipt =>
      refine keeps_ite (keeps_pure _) (keeps_ite (keeps_pure _) (keeps_ite ?_ (keeps_pure _)))
      exact keeps_bind (keeps_update blind_uncancelled _ (fun _ => rfl) fun _ => rfl)
        fun _ => keeps_pure _
  have hreceipt : Keeps Uncancelled (readReceipt o) :=
    keeps_attempt_bind (keeps_bind (keeps_call blind_uncancelled rfl) hjudge)
      (fun _ => keeps_pure _) fun _ => keeps_ite (keeps_pure _) (keeps_throw _)
  refine keeps_ite (keeps_pure _) (keeps_ite (keeps_bind hread fun reply => ?_) (keeps_pure _))
  cases reply with
  | none => exact hreceipt
  | some reply =>
    refine keeps_bind (keeps_update blind_uncancelled _ (fun _ => rfl) fun _ => rfl) fun _ => ?_
    exact keeps_bind (triple_consult blind_uncancelled rfl) fun _ => keeps_pure _

/-- What is cancelled after a lost launch response is reported as not started. -/
theorem triple_settleLaunch {reservation : Bool} {evidence : Evidence} :
    Triple Uncancelled (settleLaunch o b reservation evidence)
      (fun _ s => Away s ∧ (s.account.cancelTried = true →
        (evidence.accepted || evidence.acceptanceUnknown) = false))
      fun _ => Away := by
  refine triple_ite (fun hnone => ?_) fun _ => triple_pure fun s hs => ⟨hs.toAway, fun htried => ?_⟩
  · have hfinal : Keeps Away (releaseGuard o reservation >>= fun _ =>
        finalizePrelaunchTarget o b b.supported evidence.prestartState >>= fun extra =>
          (if b.cleanup && !b.supported then safeDelete o else pure ()) >>= fun _ => pure extra) :=
      keeps_bind keeps_away_releaseGuard fun _ => keeps_bind keeps_away_finalizePrelaunchTarget
        fun _ => keeps_bind (keeps_ite (keeps_safeDelete blind_away) (keeps_pure _))
          fun _ => keeps_pure _
    refine hfinal.conseq (fun s hs => hs.toAway) (fun _ s hs => ⟨hs, fun _ => ?_⟩) fun _ _ => id
    simpa using hnone
  · rw [hs.cancelTried] at htried
    cases htried

theorem concludes_launchLost {reservation : Bool} :
    Concludes Uncancelled (launchLost o b reservation) := by
  refine triple_get_bind fun s hs => Triple.pre (P := Uncancelled) ?_ fun t ht => ht ▸ hs
  refine triple_bind (keeps_gatherEvidence.conseq (fun _ => id) (fun _ _ => id)
    fun _ _ hs => hs.verdict _) fun evidence => ?_
  refine triple_bind (triple_settleLaunch.conseq (fun _ => id) (fun _ _ => id)
    fun e _ hs => hs.verdict_error e) fun extra => ?_
  refine triple_get_bind fun s' hs' => triple_pure fun t ht => ?_
  subst ht
  refine hs'.1.verdict fun r hr htried => ?_
  obtain rfl := Except.ok.inj hr
  dsimp only
  rw [hs'.2 htried]
  decide

theorem concludes_launchFailed {reservation : Bool} (e : Raised) :
    Concludes Uncancelled (launchFailed o b reservation e) := by
  have hescape : ∀ e, Concludes Uncancelled (throw e) :=
    fun e => triple_throw fun s hs => hs.verdict _
  cases e with
  | targetResourceError =>
    have hkeeps : Keeps Away (releaseGuard o reservation) := keeps_away_releaseGuard
    refine triple_bind (hkeeps.conseq (fun s hs => hs.toAway) (fun _ _ => id)
      fun e _ hs => hs.verdict_error e) fun _ => ?_
    refine triple_bind (keeps_away_abandon.conseq (fun _ => id) (fun _ _ => id)
      fun e _ hs => hs.verdict_error e) fun extra => triple_pure fun s hs => ?_
    refine hs.verdict fun r hr _ => ?_
    obtain rfl := Except.ok.inj hr
    exact nofun
  | guardFinalizationError commandStarted =>
    have hkeeps : Keeps Uncancelled (guardUnfinalized o b commandStarted) := by
      refine keeps_bind keeps_get fun s => keeps_bind ?_ fun _ => keeps_pure _
      refine keeps_ite (keeps_cleanupTerminalTarget blind_uncancelled) (keeps_ite ?_ ?_)
      · exact keeps_bind (keeps_safeDelete blind_uncancelled) fun _ => keeps_pure _
      · exact keeps_ite (keeps_pure _) (keeps_pure _)
    exact hkeeps.conseq (fun _ => id) (fun _ _ hs => hs.verdict _) fun _ _ hs => hs.verdict _
  | transportError => exact concludes_launchLost
  | osError => exact hescape _
  | valueError => exact hescape _
  | sourceChanged => exact hescape _
  | notImplemented => exact hescape _
  | ownershipLost => exact hescape _

theorem keeps_collectResults : Keeps Uncancelled (collectResults o b) := by
  have hrow : ∀ row, Keeps Uncancelled (returnRow o b row) := fun row =>
    triple_forM fun output _ => keeps_bind (triple_consult blind_uncancelled rfl)
      fun _ => keeps_ite (keeps_call blind_uncancelled rfl) (keeps_throw _)
  have hdeliver : ∀ delivered row, Keeps Uncancelled (deliverRow o b delivered row) :=
    fun delivered row => keeps_attempt_bind (hrow row) (fun _ => keeps_pure _)
      fun _ => keeps_ite (keeps_pure _) (keeps_throw _)
  have hreturn : ∀ rows, Keeps Uncancelled (returnOutputs o b rows) := by
    intro rows
    refine keeps_bind (keeps_foldlM fun delivered row _ => hdeliver delivered row) fun _ => ?_
    refine keeps_ite (keeps_bind (triple_consult blind_uncancelled rfl) fun _ => ?_) (keeps_pure _)
    exact keeps_ite (keeps_pure _) (keeps_throw _)
  refine keeps_ite (keeps_bind ?_ fun envelope => ?_) (keeps_pure _)
  · exact keeps_attempt_bind (keeps_call blind_uncancelled rfl) (fun _ => keeps_pure _)
      fun _ => keeps_ite (keeps_throw _) (keeps_throw _)
  · cases envelope with
    | invalid => exact keeps_pure _
    | rows outputs => exact keeps_map (hreturn outputs)

theorem keeps_report {exitCode : Int} : Keeps Uncancelled (report o b exitCode) := by
  refine keeps_bind keeps_collectResults fun _ => keeps_bind keeps_get fun s =>
    keeps_bind ?_ fun _ => keeps_pure _
  refine keeps_ite (keeps_cleanupTerminalTarget blind_uncancelled) (keeps_ite ?_ ?_)
  · exact keeps_attempt_bind (keeps_call blind_uncancelled rfl) (fun _ => keeps_pure _)
      fun _ => keeps_ite (keeps_pure _) (keeps_throw _)
  · exact keeps_ite (keeps_pure _) (keeps_pure _)

theorem concludes_launchAndReport {reservation : Bool} :
    Concludes (Ready b reservation false) (launchAndReport o b reservation) := by
  have hkeeps : ∀ {m : Prog Response}, Keeps Uncancelled m → Concludes Uncancelled m := fun h =>
    h.conseq (fun _ => id) (fun _ _ hs => hs.verdict _) fun _ _ hs => hs.verdict _
  refine triple_bind (triple_attempt triple_launch) fun r => ?_
  cases r with
  | error e => exact concludes_launchFailed e
  | ok step =>
    cases step with
    | done response => exact hkeeps (keeps_pure _)
    | next exitCode => exact hkeeps keeps_report

theorem concludes_runPreparedBatch : Concludes (At {} false) (runPreparedBatch o b) :=
  phase_bind phase_preflight fun _ => phase_bind phase_plan fun _ =>
    phase_bind phase_accept fun _ => phase_bind phase_stage fun _ =>
      phase_bind phase_admitUnderGuard fun _ => phase_bind phase_prelaunchGate fun _ =>
        phase_bind phase_lastLive fun _ => concludes_launchAndReport

end Launch

/-! ## The whole function -/

def ended (o : Oracle) (b : Batch) : Local × Outcome :=
  match runPreparedBatch o b Local.start with
  | .ok response s => (s, .ok response)
  | .error e s => (s, .error e)

/-! The two slips, on a device with target acceptance and a memory guard. -/

def guardedBatch : Batch where
  adapterMissing := false
  outputRootRefused := false
  usesStorageRef := false
  supported := true
  configuredRoot := false
  hasPool := false
  tasks := [⟨true, []⟩]
  cleanup := true
  explicitLimit := false
  guarded := true
  hasPrelaunchGate := true
  onTargetReservation := true
  onTargetAcceptance := true
  beforeTargetCleanup := true
  onTargetFinalization := true
  beforeOutputReturn := true
  itemResults := true

def calmReply : (c : Call) → Reply c
  | .policyGet => PolicyReply.installed
  | .reserve => true
  | .cancel _ => some "CANCELLED"
  | .deviceCandidate _ _ => false
  | .finalizeResult => (0 : Int)
  | .exec => (0 : Int)
  | .reserveMemory => Admission.admitted true
  | .launchDurable => LaunchReply.mk true true (some true)
  | .waitTerminal => Terminal.mk true (some true) (some "RELEASED")
  | .durableStatus => DurableReply.mk false none none
  | .targetStatus => none
  | .readMetrics => Envelope.rows []
  | .loadRegistry | .makeTransport | .stateRoot | .tempDir | .expandRoot | .renderCommand
  | .connect | .ensureDir _ | .pushText _ | .materializeShared _ _ | .materialize _ _
  | .pushManifest | .predictResources | .releaseMemory | .removeTree | .durableCleanup
  | .fetchOutput _ _ => ()

/-- Only the renewal of the reservation fails, between the staging and the launch. -/
def lateFailure : Oracle where
  reply _ c := .ok (calmReply c)
  answer _ q := q ≠ .renewalFailed .staging
  declared _ _ _ h := nomatch h

/-- Only the prediction for the admission fails: the profile cache is malformed. -/
def badProfiles : Oracle where
  reply _ c := if c = .predictResources then .error .valueError else .ok (calmReply c)
  answer _ q := q ≠ .renewalFailed .staging ∧ q ≠ .renewalFailed .launch
  declared _ c e h := by
    split at h
    · obtain rfl := Except.error.inj h
      rfl
    · cases h

end Remrun.Fleet.Executor
