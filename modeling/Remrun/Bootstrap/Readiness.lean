import Remrun.Bootstrap.Environments
import Remrun.Bootstrap.Helper

/-!
# Readiness

The receipt of a project is marked as running before its steps start, but the marker of the
environment stays until the steps have ended. What another project did to a shared environment
is therefore not seen before its marker is written, and a `--check`, which takes no lock, may see
the receipt of before and the marker of after. Every answer is right in the runs where a step
starts only while no other payload relies on the directory.
-/

namespace Remrun.Bootstrap

open JsonText
set_option autoImplicit false

/-! ## The property -/

def Phase.announces : Phase → Bool
  | .answering .ready _ => true
  | .answering .bootstrapped _ => true
  | _ => false

section Property
variable (H : Host)

/-- The first `n` steps have succeeded, and no step of another payload has started in the
directory since the first of them. -/
def RanUpto (log : List Entry) (P : Payload) (n : Nat) : Prop :=
  ∃ recent earlier, log = recent ++ earlier ∧ (∀ i < n, Entry.succeeded P i ∈ recent) ∧
    ∀ Q i, Entry.started Q i ∈ recent → Q.place H = P.place H → Q.key = P.key

/-- Two texts that `sha256` does not tell apart. -/
def Host.Collide (a b : List Char) : Prop := a ≠ b ∧ H.sha256 a = H.sha256 b

/-- A payload that has run has another text with the digest of this one. -/
def Clash (log : List Entry) (P : Payload) : Prop :=
  ∃ Q i, Entry.succeeded Q i ∈ log ∧ H.Collide Q.text P.text

/-- The steps of the payload's fingerprint have run, and no step of another payload has started
since. -/
def Established (log : List Entry) (P : Payload) : Prop :=
  (∃ P' : Payload, P'.key = P.key ∧ P'.steps = P.steps ∧ RanUpto H log P' P'.steps.length) ∨
    Clash H log P

/-- A helper that answers `ready` or `bootstrapped` is right. -/
def Target.Sound (s : Target) : Event → Prop
  | .advance pid _ => ∀ p, s.procs pid = some p → p.phase.announces = true →
    Established H s.log p.payload
  | _ => True

end Property

/-! ## The condition -/

/-- The helper relies on the steps that have run. -/
def Phase.engaged : Phase → Bool
  | .matched => true
  | .stepping index => 0 < index
  | .waiting index => 0 < index
  | .verifying => true
  | .marking => true
  | .completing => true
  | phase => phase.announces

section Condition
variable (H : Host)

/-- Receipt and marker stand for the payload. -/
def Target.Vouched (s : Target) (Q : Payload) : Prop :=
  ∃ n m, s.receipts (Q.token H) = .document (Q.receipt .complete) n ∧
    s.markers (Q.place H) = .document Q.key m

/-- No other payload relies on the directory, but a setup of the same project, which the lock
keeps out. -/
structure Target.Alone (s : Target) (P : Payload) : Prop where
  receipts : ∀ Q : Payload, Q.place H = P.place H → Q.projectId ≠ P.projectId → ¬ s.Vouched H Q
  helpers : ∀ q r, s.procs q = some r → r.payload.place H = P.place H → r.payload.key ≠ P.key →
    r.phase.engaged = true → r.check = false ∧ r.payload.projectId = P.projectId

/-- A step starts only where its payload is alone. -/
def Target.Undisturbed (s : Target) : Event → Prop
  | .advance pid o => ∀ p index, s.procs pid = some p → p.phase = .stepping index →
    index < p.payload.steps.length → o.fault = none → s.Alone H p.payload
  | _ => True

end Condition

/-! ## Logs -/

section Logs
variable {H : Host} {log : List Entry} {P Q : Payload} {n : Nat}

theorem place_of_key (h : P.key = Q.key) : P.place H = Q.place H := by
  have henv : P.environment = Q.environment := congrArg Marker.environment h
  rw [Payload.place, Payload.place, henv]

theorem projectId_of_key (h : P.key = Q.key) : P.projectId = Q.projectId :=
  congrArg Marker.projectId h

theorem token_of_projectId (h : P.projectId = Q.projectId) : P.token H = Q.token H := by
  rw [Payload.token, Payload.token, h]

theorem ranUpto_zero (log : List Entry) (P : Payload) : RanUpto H log P 0 :=
  ⟨[], log, rfl, fun _ hi => absurd hi (Nat.not_lt_zero _), fun _ _ h => absurd h List.not_mem_nil⟩

theorem RanUpto.mono {m : Nat} (h : RanUpto H log P n) (hle : m ≤ n) : RanUpto H log P m := by
  obtain ⟨recent, earlier, hlog, hran, hforeign⟩ := h
  exact ⟨recent, earlier, hlog, fun i hi => hran i (Nat.lt_of_lt_of_le hi hle), hforeign⟩

/-- A later entry that is no start of another payload in the directory changes nothing. -/
theorem RanUpto.record {entry : Entry} (h : RanUpto H log P n)
    (hentry : ∀ Q i, entry = .started Q i → Q.place H = P.place H → Q.key = P.key) :
    RanUpto H (entry :: log) P n := by
  obtain ⟨recent, earlier, hlog, hran, hforeign⟩ := h
  refine ⟨entry :: recent, earlier, by rw [hlog, List.cons_append], ?_, ?_⟩
  · exact fun i hi => List.mem_cons_of_mem _ (hran i hi)
  · intro Q i hmem hplace
    rcases List.mem_cons.mp hmem with heq | hmem
    · exact hentry Q i heq.symm hplace
    · exact hforeign Q i hmem hplace

theorem RanUpto.succeeded (h : RanUpto H log P n) :
    RanUpto H (.succeeded P n :: log) P (n + 1) := by
  obtain ⟨recent, earlier, hlog, hran, hforeign⟩ := h
  refine ⟨.succeeded P n :: recent, earlier, by rw [hlog, List.cons_append], ?_, ?_⟩
  · intro i hi
    rcases Nat.lt_succ_iff_lt_or_eq.mp hi with hlt | rfl
    · exact List.mem_cons_of_mem _ (hran i hlt)
    · exact List.mem_cons_self
  · intro Q i hmem hplace
    rcases List.mem_cons.mp hmem with heq | hmem
    · cases heq
    · exact hforeign Q i hmem hplace

theorem Clash.record {entry : Entry} (h : Clash H log P) : Clash H (entry :: log) P := by
  obtain ⟨Q, i, hmem, hcollide⟩ := h
  exact ⟨Q, i, List.mem_cons_of_mem _ hmem, hcollide⟩

/-- What `_load_payload` makes sure of. -/
def Loaded (H : Host) (P : Payload) : Prop := H.sha256 P.text = P.fingerprint ∧ P.steps ≠ []

/-- Somebody has run the steps of a payload that cannot be told from this one. -/
def Attested (H : Host) (log : List Entry) (P : Payload) : Prop :=
  (∃ P' : Payload, P'.key = P.key ∧ Loaded H P' ∧ RanUpto H log P' P'.steps.length) ∨ Clash H log P

theorem Attested.record {entry : Entry} (h : Attested H log P)
    (hentry : ∀ Q i, entry = .started Q i → Q.place H = P.place H → Q.key = P.key) :
    Attested H (entry :: log) P := by
  rcases h with ⟨P', hkey, hloaded, hran⟩ | hclash
  · refine Or.inl ⟨P', hkey, hloaded, hran.record fun Q i heq hplace => ?_⟩
    rw [hkey]
    exact hentry Q i heq (hplace.trans (place_of_key hkey))
  · exact Or.inr hclash.record

theorem RanUpto.clash (h : RanUpto H log P P.steps.length) (hP : Loaded H P) (hQ : Loaded H Q)
    (hsame : P.fingerprint = Q.fingerprint) (htext : P.text ≠ Q.text) : Clash H log Q := by
  obtain ⟨recent, earlier, hlog, hran, _⟩ := h
  have hfirst : Entry.succeeded P 0 ∈ log := by
    rw [hlog]
    exact List.mem_append_left _ (hran 0 (List.length_pos_iff.mpr hP.2))
  refine ⟨P, 0, hfirst, htext, ?_⟩
  rw [hP.1, hQ.1, hsame]

end Logs

/-! ## Texts -/

section Texts

theorem noFloats_faithful : noFloats.Faithful := ⟨fun _ => Or.inl List.mem_cons_self, fun _ => rfl⟩

theorem stepsValue_proper (steps : List (List String)) : (stepsValue steps).Proper := by
  refine .arr _ fun v hv => ?_
  obtain ⟨step, _, rfl⟩ := List.mem_map.mp hv
  refine .arr _ fun v hv => ?_
  obtain ⟨token, _, rfl⟩ := List.mem_map.mp hv
  exact .str token

theorem environmentValue_proper (E : Environment) : (environmentValue E).Proper := by
  have hkeys : ["root", "path", "interpreter", "marker"].Nodup := by decide
  refine .obj _ hkeys fun m hm => ?_
  simp only [List.mem_cons, List.not_mem_nil, or_false] at hm
  rcases hm with rfl | rfl | rfl | rfl
  · exact .str _
  · exact .str _
  · exact .str _
  · exact .str _

theorem sortedItems_eq (items : List (Value Unit)) :
    sortedItems items = items.map Value.sorted := by
  induction items with
  | nil => rfl
  | cons item rest ih => rw [sortedItems, ih, List.map_cons]

theorem stepsValue_sorted (steps : List (List String)) :
    (stepsValue steps).sorted = stepsValue steps := by
  have hstep (step : List String) : (Value.arr (F := Unit) (step.map .str)).sorted =
      .arr (step.map .str) := by
    rw [Value.sorted, sortedItems_eq, List.map_map]
    rfl
  rw [stepsValue, Value.sorted, sortedItems_eq, List.map_map]
  exact congrArg Value.arr (List.map_congr_left fun step _ => hstep step)

theorem stepsValue_injective {steps steps' : List (List String)}
    (h : stepsValue steps = stepsValue steps') : steps = steps' := by
  have hstr : Function.Injective (Value.str (F := Unit)) := fun a b h => Value.str.inj h
  have hstep : Function.Injective fun step : List String => Value.arr (F := Unit) (step.map .str) :=
    fun a b h => hstr.list_map (Value.arr.inj h)
  exact hstep.list_map (Value.arr.inj h)

theorem environmentValue_injective {E E' : Environment}
    (h : (environmentValue E).sorted = (environmentValue E').sorted) : E = E' := by
  have hkeys : ["root", "path", "interpreter", "marker"].Nodup := by decide
  have hmember (key : String) {v w : String}
      (hv : (key, Value.str v) ∈ [("root", Value.str (F := Unit) E.root), ("path", .str E.path),
        ("interpreter", .str E.interpreter), ("marker", .str E.marker)])
      (hw : (key, Value.str w) ∈ [("root", Value.str (F := Unit) E'.root), ("path", .str E'.path),
        ("interpreter", .str E'.interpreter), ("marker", .str E'.marker)]) : v = w := by
    have hsame := member_of_sorted_eq h hv hw hkeys
    simp only [Value.sorted, Value.str.injEq] at hsame
    exact hsame
  have hroot : E.root = E'.root := hmember "root" (by simp) (by simp)
  have hpath : E.path = E'.path := hmember "path" (by simp) (by simp)
  have hinterpreter : E.interpreter = E'.interpreter :=
    hmember "interpreter" (by simp) (by simp)
  have hmarker : E.marker = E'.marker := hmember "marker" (by simp) (by simp)
  cases E
  cases E'
  simp only at hroot hpath hinterpreter hmarker
  rw [hroot, hpath, hinterpreter, hmarker]

/-- The fingerprinted text says which steps are to run, and where. -/
theorem of_text {P Q : Payload} (h : P.text = Q.text) :
    P.steps = Q.steps ∧ P.environment = Q.environment := by
  have hkeys : ["declaration_fingerprint", "steps", "environment"].Nodup := by decide
  have hproper (P : Payload) : P.document.Proper := by
    refine .obj _ hkeys fun m hm => ?_
    simp only [List.mem_cons, List.not_mem_nil, or_false] at hm
    rcases hm with rfl | rfl | rfl
    · exact .str _
    · exact stepsValue_proper _
    · exact environmentValue_proper _
  have hsorted := sorted_eq_of_dumps_eq noFloats_faithful (hproper P) (hproper Q) h
  have hsteps := member_of_sorted_eq hsorted (List.mem_cons_of_mem _ List.mem_cons_self)
    (List.mem_cons_of_mem _ List.mem_cons_self) hkeys
  have henv := member_of_sorted_eq hsorted
    (List.mem_cons_of_mem _ (List.mem_cons_of_mem _ List.mem_cons_self))
    (List.mem_cons_of_mem _ (List.mem_cons_of_mem _ List.mem_cons_self)) hkeys
  rw [stepsValue_sorted, stepsValue_sorted] at hsteps
  exact ⟨stepsValue_injective hsteps, environmentValue_injective henv⟩

theorem Attested.established {H : Host} {log : List Entry} {P : Payload} (h : Attested H log P)
    (hP : Loaded H P) : Established H log P := by
  rcases h with ⟨P', hkey, hP', hran⟩ | hclash
  · by_cases htext : P'.text = P.text
    · exact Or.inl ⟨P', hkey, (of_text htext).1, hran⟩
    · exact Or.inr (hran.clash hP' hP (congrArg Marker.fingerprint hkey) htext)
  · exact Or.inr hclash

/-- What a completed setup attests, for every payload its receipt stands for. -/
theorem RanUpto.attested {H : Host} {log : List Entry} {P Q : Payload}
    (h : RanUpto H log P P.steps.length) (hP : Loaded H P) (hQ : Loaded H Q)
    (hproject : P.projectId = Q.projectId) (hsame : P.fingerprint = Q.fingerprint) :
    Attested H log Q := by
  by_cases htext : P.text = Q.text
  · have hkey : P.key = Q.key := by
      rw [Payload.key, Payload.key, hproject, hsame, (of_text htext).2]
    exact Or.inl ⟨P, hkey, hP, h⟩
  · exact Or.inr (h.clash hP hQ hsame htext)

end Texts

/-! ## The invariant -/

/-- The payload has been loaded. -/
def Phase.active : Phase → Bool
  | .arrived => false
  | .answered => false
  | .answering status detail => (Phase.answering status detail).announces
  | _ => true

/-- Only a setup comes here. -/
def Phase.setup : Phase → Bool
  | .opening => true
  | .holding => true
  | .recording => true
  | .stepping _ => true
  | .waiting _ => true
  | .verifying => true
  | .marking => true
  | .completing => true
  | .failing _ => true
  | _ => false

/-- A setup has its lock here. -/
def Phase.locked : Phase → Bool
  | .opening => false
  | phase => phase.active

/-- The running receipt has been written. -/
def Phase.recorded : Phase → Bool
  | .opening => false
  | .holding => false
  | .recording => false
  | phase => phase.setup

/-- How many steps of this setup have succeeded. -/
def Phase.done (P : Payload) : Phase → Option Nat
  | .stepping index => some index
  | .waiting index => some index
  | .verifying => some P.steps.length
  | .marking => some P.steps.length
  | .completing => some P.steps.length
  | _ => none

/-- What holds of a helper between its actions. -/
structure Fits (H : Host) (s : Target) (pid : Nat) (p : Process) : Prop where
  loaded : p.phase.active = true → Loaded H p.payload
  setup : p.phase.setup = true → p.check = false
  locked : p.phase.locked = true → p.check = false → s.locks (p.payload.token H) = some pid
  recorded : p.phase.recorded = true → ∀ r n, s.receipts (p.payload.token H) = .document r n →
    r.status = .running
  matched : p.phase = .matched → ∀ n, s.markers (p.payload.place H) = .document p.payload.key n →
    Attested H s.log p.payload
  announces : p.phase.announces = true → Attested H s.log p.payload
  ran : ∀ n, p.phase.done p.payload = some n → RanUpto H s.log p.payload n

structure Inv (H : Host) (s : Target) : Prop where
  fits : ∀ pid p, s.procs pid = some p → Fits H s pid p
  vouched : ∀ Q : Payload, Loaded H Q → s.Vouched H Q → Attested H s.log Q

section Steps
variable {H : Host} {s : Target} {pid : Nat} {p : Process} {o : Observed}

theorem inv_fresh (H : Host) : Inv H Target.fresh where
  fits _ _ h := nomatch h
  vouched _ _ h := by
    obtain ⟨_, _, hreceipt, _⟩ := h
    cases hreceipt

theorem procs_goto_self (s : Target) (pid : Nat) (p : Process) (phase : Phase) :
    (s.goto pid p phase).procs pid = some { p with phase := phase } := Function.update_self ..

theorem procs_goto_other {q : Nat} (s : Target) (p : Process) (phase : Phase) (h : q ≠ pid) :
    (s.goto pid p phase).procs q = s.procs q := Function.update_of_ne h ..

theorem procs_exit_self (s : Target) (pid : Nat) : (s.exit pid).procs pid = none :=
  Function.update_self ..

theorem procs_exit_other {q : Nat} (s : Target) (h : q ≠ pid) :
    (s.exit pid).procs q = s.procs q := Function.update_of_ne h ..

theorem receipts_setReceipt (H : Host) (s : Target) (P : Payload) (status : ReceiptStatus)
    (size : Nat) : (s.setReceipt H P status size).receipts =
      Function.update s.receipts (P.token H) (.document (P.receipt status) size) := rfl

theorem markers_setMarker (H : Host) (s : Target) (P : Payload) (size : Nat) :
    (s.setMarker H P size).markers =
      Function.update s.markers (P.writePlace H) (.document P.key size) := rfl

/-- Processes come and go: what is known of one does not speak of the others. -/
theorem Fits.procs {q : Nat} {r : Process} (h : Fits H s q r) (procs : Nat → Option Process) :
    Fits H { s with procs := procs } q r :=
  ⟨h.loaded, h.setup, h.locked, h.recorded, h.matched, h.announces, h.ran⟩

/-- One helper goes on, and files, locks or log change under all of them. -/
theorem Inv.change (s s' : Target) (hprocs : s'.procs = s.procs)
    {phase : Phase} (hown : Fits H s' pid { p with phase := phase })
    (hothers : ∀ q r, q ≠ pid → s.procs q = some r → Fits H s' q r)
    (hvouched : ∀ Q, Loaded H Q → s'.Vouched H Q → Attested H s'.log Q) : Inv H (s'.goto pid p phase) where
  fits q r hr := by
    by_cases hq : q = pid
    · subst hq
      rw [procs_goto_self, Option.some.injEq] at hr
      subst hr
      exact hown.procs _
    · rw [procs_goto_other _ _ _ hq, hprocs] at hr
      exact (hothers q r hq hr).procs _
  vouched Q hloaded hQ := hvouched Q hloaded hQ

/-- One helper goes on, and nothing else changes. -/
theorem Inv.goto (h : Inv H s) {phase : Phase} (hown : Fits H s pid { p with phase := phase }) :
    Inv H (s.goto pid p phase) :=
  Inv.change s s rfl hown (fun q r _ hr => h.fits q r hr) h.vouched

/-- A phase in which nothing is known. -/
theorem fits_idle {phase : Phase} (hactive : phase.active = false) (hsetup : phase.setup = false)
    (hlocked : phase.locked = false) (hmatched : phase ≠ .matched)
    (hannounces : phase.announces = false) (hdone : phase.done p.payload = none)
    (hrecorded : phase.recorded = false) : Fits H s pid { p with phase := phase } where
  loaded h := absurd h (by rw [hactive]; exact Bool.false_ne_true)
  setup h := absurd h (by rw [hsetup]; exact Bool.false_ne_true)
  locked h := absurd h (by rw [hlocked]; exact Bool.false_ne_true)
  recorded h := absurd h (by rw [hrecorded]; exact Bool.false_ne_true)
  matched h := absurd h hmatched
  announces h := absurd h (by rw [hannounces]; exact Bool.false_ne_true)
  ran n h := absurd h (by rw [hdone]; exact nofun)

theorem fits_refused {status : Status} {detail : String}
    (h : (Phase.answering status detail).announces = false) :
    Fits H s pid { p with phase := .answering status detail } :=
  fits_idle h rfl h nofun h rfl rfl

/-- The end of a process releases no lock of another. -/
theorem Inv.exit (h : Inv H s) (pid : Nat) : Inv H (s.exit pid) where
  fits q r hr := by
    by_cases hq : q = pid
    · subst hq
      rw [procs_exit_self] at hr
      cases hr
    · rw [procs_exit_other _ hq] at hr
      have hfits := h.fits q r hr
      refine ⟨hfits.loaded, hfits.setup, fun hlocked hcheck => ?_, hfits.recorded, hfits.matched,
        hfits.announces, hfits.ran⟩
      have hlock := hfits.locked hlocked hcheck
      have hkept : ¬ s.locks (r.payload.token H) = some pid := by
        rw [hlock, Option.some.injEq]
        exact hq
      change (if s.locks (r.payload.token H) = some pid then none else _) = some q
      rw [if_neg hkept, hlock]
  vouched Q hloaded hQ := h.vouched Q hloaded hQ

/-- The phase changes, and nothing more is known than before. -/
theorem Fits.onward (hf : Fits H s pid p) {phase : Phase}
    (hactive : phase.active = true → p.phase.active = true)
    (hsetup : phase.setup = true → p.check = false)
    (hlocked : phase.locked = true → p.phase.locked = true)
    (hrecorded : phase.recorded = true → p.phase.recorded = true)
    (hmatched : phase = .matched → ∀ n,
      s.markers (p.payload.place H) = .document p.payload.key n → Attested H s.log p.payload)
    (hannounces : phase.announces = true → Attested H s.log p.payload)
    (hran : ∀ n, phase.done p.payload = some n → RanUpto H s.log p.payload n) :
    Fits H s pid { p with phase := phase } where
  loaded h := hf.loaded (hactive h)
  setup h := hsetup h
  locked h hcheck := hf.locked (hlocked h) hcheck
  recorded h := hf.recorded (hrecorded h)
  matched h := hmatched h
  announces h := hannounces h
  ran n h := hran n h

theorem Phase.of_recorded {phase : Phase} (h : phase.recorded = true) :
    phase.active = true ∧ phase.setup = true ∧ phase.locked = true := by
  cases phase <;> first | exact ⟨rfl, rfl, rfl⟩ | cases h

/-- The same, of a setup between its running receipt and its end. -/
theorem Fits.within (hf : Fits H s pid p) (hrecorded : p.phase.recorded = true) {phase : Phase}
    (hmatched : phase ≠ .matched) (hannounces : phase.announces = true → Attested H s.log p.payload)
    (hran : ∀ n, phase.done p.payload = some n → RanUpto H s.log p.payload n) :
    Fits H s pid { p with phase := phase } := by
  obtain ⟨hactive, hsetup, hlocked⟩ := Phase.of_recorded hrecorded
  exact hf.onward (fun _ => hactive) (fun _ => hf.setup hsetup) (fun _ => hlocked)
    (fun _ => hrecorded) (fun h => absurd h hmatched) hannounces hran

/-- A setup that writes its receipt has the lock, so no other helper has a receipt of its own
there. -/
theorem Inv.setReceipt (h : Inv H s) (hp : s.procs pid = some p) {phase : Phase}
    (hsetup : p.phase.setup = true) (hlocked : p.phase.locked = true) {status : ReceiptStatus}
    {size : Nat} (hown : Fits H (s.setReceipt H p.payload status size) pid { p with phase := phase })
    (hcomplete : status = .complete → RanUpto H s.log p.payload p.payload.steps.length ∧
      Loaded H p.payload) :
    Inv H ((s.goto pid p phase).setReceipt H p.payload status size) := by
  have hf := h.fits pid p hp
  have hlock := hf.locked hlocked (hf.setup hsetup)
  refine Inv.change s (s.setReceipt H p.payload status size) rfl hown ?_ ?_
  · intro q r hq hr
    have hfits := h.fits q r hr
    refine ⟨hfits.loaded, hfits.setup, hfits.locked, fun hrecorded => ?_, hfits.matched,
      hfits.announces, hfits.ran⟩
    by_cases htoken : r.payload.token H = p.payload.token H
    · obtain ⟨_, hsetup', hlocked'⟩ := Phase.of_recorded hrecorded
      have hother := hfits.locked hlocked' (hfits.setup hsetup')
      rw [htoken, hlock, Option.some.injEq] at hother
      exact absurd hother.symm hq
    · intro r' n hreceipt
      rw [receipts_setReceipt, Function.update_of_ne htoken] at hreceipt
      exact hfits.recorded hrecorded r' n hreceipt
  · intro Q hloaded hvouched
    obtain ⟨n, m, hreceipt, hmarker⟩ := hvouched
    by_cases htoken : Q.token H = p.payload.token H
    · rw [receipts_setReceipt, htoken, Function.update_self, File.document.injEq] at hreceipt
      have hstatus : status = .complete := congrArg Receipt.status hreceipt.1
      obtain ⟨hran, hP⟩ := hcomplete hstatus
      exact hran.attested hP hloaded (congrArg Receipt.projectId hreceipt.1)
        (congrArg Receipt.fingerprint hreceipt.1)
    · rw [receipts_setReceipt, Function.update_of_ne htoken] at hreceipt
      exact h.vouched Q hloaded ⟨n, m, hreceipt, hmarker⟩

/-- A marker is written by a setup whose steps have all run. -/
theorem Inv.setMarker (h : Inv H s) {phase : Phase} {size : Nat}
    (hown : Fits H (s.setMarker H p.payload size) pid { p with phase := phase })
    (hran : RanUpto H s.log p.payload p.payload.steps.length) (hP : Loaded H p.payload) :
    Inv H ((s.goto pid p phase).setMarker H p.payload size) := by
  have hmarked (Q : Payload) (n : Nat)
      (hmarker : (s.setMarker H p.payload size).markers (Q.place H) = .document Q.key n) :
      s.markers (Q.place H) = .document Q.key n ∨ Attested H s.log Q := by
    by_cases hplace : Q.place H = p.payload.writePlace H
    · rw [markers_setMarker, hplace, Function.update_self, File.document.injEq] at hmarker
      exact Or.inr (Or.inl ⟨p.payload, hmarker.1, hP, hran⟩)
    · rw [markers_setMarker, Function.update_of_ne hplace] at hmarker
      exact Or.inl hmarker
  refine Inv.change s (s.setMarker H p.payload size) rfl hown ?_ ?_
  · intro q r hq hr
    have hfits := h.fits q r hr
    refine ⟨hfits.loaded, hfits.setup, hfits.locked, hfits.recorded, ?_, hfits.announces,
      hfits.ran⟩
    intro hphase n hmarker
    rcases hmarked r.payload n hmarker with hbefore | hattested
    · exact hfits.matched hphase n hbefore
    · exact hattested
  · intro Q hloaded hvouched
    obtain ⟨n, m, hreceipt, hmarker⟩ := hvouched
    rcases hmarked Q m hmarker with hbefore | hattested
    · exact h.vouched Q hloaded ⟨n, m, hreceipt, hbefore⟩
    · exact hattested

/-- Nobody who relies on the directory minds the entry. -/
theorem Inv.record (h : Inv H s) {phase : Phase} {entry : Entry}
    (hown : Fits H (s.record entry) pid { p with phase := phase })
    (hentry : ∀ P i, entry = .started P i →
      (∀ q r, q ≠ pid → s.procs q = some r → r.phase.engaged = true →
        P.place H = r.payload.place H → P.key = r.payload.key) ∧
      ∀ Q, s.Vouched H Q → P.place H = Q.place H → P.key = Q.key) :
    Inv H ((s.goto pid p phase).record entry) := by
  refine Inv.change s (s.record entry) rfl hown ?_ ?_
  · intro q r hq hr
    have hfits := h.fits q r hr
    have hkept (hengaged : r.phase.engaged = true) (P : Payload) (i : Nat)
        (heq : entry = .started P i) (hplace : P.place H = r.payload.place H) :
        P.key = r.payload.key := (hentry P i heq).1 q r hq hr hengaged hplace
    refine ⟨hfits.loaded, hfits.setup, hfits.locked, hfits.recorded, ?_, ?_, ?_⟩
    · intro hphase n hmarker
      refine (hfits.matched hphase n hmarker).record (hkept ?_)
      rw [hphase]
      rfl
    · intro hannounces
      refine (hfits.announces hannounces).record (hkept ?_)
      cases hphase : r.phase with
      | answering status detail =>
        rw [hphase] at hannounces
        exact hannounces
      | _ =>
        rw [hphase] at hannounces
        cases hannounces
    · intro n hdone
      have hran := hfits.ran n hdone
      rcases Nat.eq_zero_or_pos n with rfl | hpos
      · exact ranUpto_zero _ _
      · refine hran.record (hkept ?_)
        cases hphase : r.phase <;> rw [hphase] at hdone <;>
          first
            | rfl
            | cases hdone; exact decide_eq_true hpos
            | cases hdone
  · intro Q hloaded hvouched
    exact (h.vouched Q hloaded hvouched).record fun P i heq hplace =>
      (hentry P i heq).2 Q hvouched hplace

end Steps

/-! ## What each action of a helper finds -/

section Actions
variable {H : Host} {s : Target} {pid : Nat} {p : Process} {o : Observed}

theorem loaded_of_loadPayload {P P' : Payload} (h : loadPayload H P = .ok P') :
    P' = P ∧ Loaded H P := by
  unfold loadPayload at h
  split at h
  · cases h
  · rename_i hfields
    split at h
    · cases h
    · split at h
      · cases h
      · split at h
        · cases h
        · split at h
          · cases h
          · rename_i hsha
            cases h
            simp only [not_or] at hfields
            exact ⟨rfl, not_not.mp hsha, hfields.2.2.2⟩

/-- An environment is found ready only by its marker. -/
theorem marker_of_ready {P : Payload} {file : File Marker} {interpreter : Bool} {detail : String}
    (h : environmentState H o P file true interpreter = .ok detail) :
    ∃ n, file = .document P.key n := by
  have hmarker : markerState P file = .ok detail := by
    unfold environmentState at h
    simp only [Bool.not_true, Bool.false_eq_true, if_false] at h
    repeat' split at h
    all_goals first | exact h | cases h
  cases file with
  | document data size =>
    simp only [markerState] at hmarker
    split at hmarker
    · cases hmarker
    · split at hmarker
      · cases hmarker
      · rename_i hkey
        exact ⟨size, by rw [not_not.mp hkey]⟩
  | _ => cases hmarker

theorem arrive_cases (H : Host) (p : Process) (o : Observed) :
    (∃ status detail, arrive H p o = .answering status detail ∧
      (Phase.answering status detail).announces = false) ∨
    (arrive H p o = .inspecting ∧ p.check = true ∧ Loaded H p.payload) ∨
    (arrive H p o = .opening ∧ p.check = false ∧ Loaded H p.payload) := by
  unfold arrive
  split
  · exact Or.inl ⟨_, _, rfl, rfl⟩
  · rename_i payload hload
    obtain ⟨rfl, hloaded⟩ := loaded_of_loadPayload hload
    split
    · exact Or.inl ⟨_, _, rfl, rfl⟩
    · split
      · exact Or.inl ⟨_, _, rfl, rfl⟩
      · split
        · rename_i hcheck
          split
          · exact Or.inl ⟨_, _, rfl, rfl⟩
          · exact Or.inr (Or.inl ⟨rfl, hcheck, hloaded⟩)
        · rename_i hcheck
          split
          · exact Or.inl ⟨_, _, rfl, rfl⟩
          · exact Or.inr (Or.inr ⟨rfl, Bool.eq_false_iff.mpr hcheck, hloaded⟩)

/-- A helper that goes on to the environment has read its completed receipt. -/
theorem readReceipt_cases (p : Process) (file : File Receipt) :
    (∃ status detail, readReceipt p file = .answering status detail ∧
      (Phase.answering status detail).announces = false) ∨
    (readReceipt p file = .matched ∧ ∃ n, file = .document (p.payload.receipt .complete) n) ∨
    readReceipt p file = .recording := by
  unfold readReceipt
  split
  · rename_i r size
    split
    · exact Or.inl ⟨_, _, rfl, rfl⟩
    · split
      · rename_i hcompletes
        exact Or.inr (Or.inl ⟨rfl, size, congrArg (File.document · size) (of_decide_eq_true hcompletes)⟩)
      · exact Or.inr (Or.inr rfl)
  · exact Or.inr (Or.inr rfl)

theorem inspectReceipt_cases (p : Process) (o : Observed) (file : File Receipt) :
    (∃ status detail, inspectReceipt p o file = .answering status detail ∧
      (Phase.answering status detail).announces = false) ∨
    (inspectReceipt p o file = .matched ∧
      ∃ n, file = .document (p.payload.receipt .complete) n) := by
  unfold inspectReceipt
  split
  · exact Or.inl ⟨_, _, rfl, rfl⟩
  · split
    · exact Or.inl ⟨_, _, rfl, rfl⟩
    · exact Or.inl ⟨_, _, rfl, rfl⟩
    · exact Or.inl ⟨_, _, rfl, rfl⟩
    · rename_i r size
      split
      · exact Or.inl ⟨_, _, rfl, rfl⟩
      · split
        · rename_i hcompletes
          exact Or.inr ⟨rfl, size, congrArg (File.document · size) (of_decide_eq_true hcompletes)⟩
        · exact Or.inl ⟨_, _, rfl, rfl⟩

theorem reuse_cases (H : Host) (p : Process) (o : Observed) (file : File Marker) :
    (∃ detail, reuse H p o file = .answering .ready detail ∧
      ∃ n, file = .document p.payload.key n) ∨
    (∃ status detail, reuse H p o file = .answering status detail ∧
      (Phase.answering status detail).announces = false) ∨
    (reuse H p o file = .recording ∧ p.check = false) := by
  unfold reuse
  split
  · rename_i detail hready _
    exact Or.inl ⟨_, rfl, marker_of_ready hready⟩
  · exact Or.inr (Or.inl ⟨_, _, rfl, rfl⟩)
  · rename_i detail hready _
    exact Or.inl ⟨_, rfl, marker_of_ready hready⟩
  · rename_i hcheck
    exact Or.inr (Or.inr ⟨rfl, hcheck⟩)

theorem verify_cases (H : Host) (p : Process) (o : Observed) :
    verify H p o = none ∨ (∃ detail, verify H p o = some (.failing detail)) ∨
      verify H p o = some .marking := by
  unfold verify
  split
  · exact Or.inl rfl
  · exact Or.inr (Or.inl ⟨_, rfl⟩)
  · split
    · exact Or.inr (Or.inl ⟨_, rfl⟩)
    · exact Or.inr (Or.inr rfl)

end Actions

/-! ## One step -/

section Preserved
variable {H : Host} {s : Target} {pid : Nat} {p : Process} {o : Observed}

theorem Inv.arrived (h : Inv H s) (o : Observed) : Inv H (s.goto pid p (arrive H p o)) := by
  refine h.goto ?_
  rcases arrive_cases H p o with ⟨status, detail, hphase, hrefused⟩ | ⟨hphase, hcheck, hloaded⟩ |
    ⟨hphase, hcheck, hloaded⟩
  · rw [hphase]
    exact fits_refused hrefused
  · rw [hphase]
    exact ⟨fun _ => hloaded, nofun, fun _ hsetup => absurd hcheck (by rw [hsetup]; exact nofun),
      nofun, nofun, nofun, nofun⟩
  · rw [hphase]
    exact ⟨fun _ => hloaded, fun _ => hcheck, nofun, nofun, nofun, nofun, nofun⟩

/-- Taking a free lock takes it from nobody. -/
theorem Inv.lock (h : Inv H s) (hp : s.procs pid = some p) (hphase : p.phase = .opening)
    (hfree : s.locks (p.payload.token H) = none) :
    Inv H ((s.goto pid p .holding).lock (p.payload.token H) pid) := by
  have hf := h.fits pid p hp
  refine Inv.change s (s.lock (p.payload.token H) pid) rfl ?_ ?_ h.vouched
  · refine ⟨fun _ => hf.loaded (by rw [hphase]; rfl), fun _ => hf.setup (by rw [hphase]; rfl),
      fun _ _ => Function.update_self .., nofun, nofun, nofun, nofun⟩
  · intro q r hq hr
    have hfits := h.fits q r hr
    refine ⟨hfits.loaded, hfits.setup, fun hlocked hcheck => ?_, hfits.recorded, hfits.matched,
      hfits.announces, hfits.ran⟩
    have hlock := hfits.locked hlocked hcheck
    have htoken : r.payload.token H ≠ p.payload.token H := by
      intro heq
      rw [heq, hfree] at hlock
      cases hlock
    exact (Function.update_of_ne htoken ..).trans hlock

theorem Inv.opening (h : Inv H s) (hp : s.procs pid = some p) (hphase : p.phase = .opening)
    (o : Observed) : Inv H (advance H s pid p o) := by
  rw [advance, hphase]
  simp only
  split
  · exact h.goto (fits_refused rfl)
  · split
    · exact h.goto (fits_refused rfl)
    · split
      · exact h.goto (fits_refused rfl)
      · rename_i hfree
        exact h.lock hp hphase hfree

theorem Inv.holding (h : Inv H s) (hp : s.procs pid = some p) (hphase : p.phase = .holding)
    (o : Observed) : Inv H (advance H s pid p o) := by
  rw [advance, hphase]
  simp only
  split
  · exact h.goto (fits_refused rfl)
  · refine h.goto ((h.fits pid p hp).onward ?_ nofun ?_ nofun nofun nofun nofun)
    · exact fun _ => by rw [hphase]; rfl
    · exact fun _ => by rw [hphase]; rfl

/-- A helper with a matching receipt knows what the marker will say. -/
theorem Inv.match (h : Inv H s) (hp : s.procs pid = some p) (hphase : p.phase = .inspecting)
    {n : Nat} (hreceipt : s.receipts (p.payload.token H) =
      .document (p.payload.receipt .complete) n) : Inv H (s.goto pid p .matched) := by
  have hf := h.fits pid p hp
  refine h.goto (hf.onward ?_ nofun ?_ nofun ?_ nofun nofun)
  · exact fun _ => by rw [hphase]; rfl
  · exact fun _ => by rw [hphase]; rfl
  · intro _ m hmarker
    exact h.vouched p.payload (hf.loaded (by rw [hphase]; rfl)) ⟨n, m, hreceipt, hmarker⟩

theorem Inv.inspecting (h : Inv H s) (hp : s.procs pid = some p) (hphase : p.phase = .inspecting)
    (o : Observed) : Inv H (advance H s pid p o) := by
  rw [advance, hphase]
  simp only
  split
  · rcases inspectReceipt_cases p o (s.receipts (p.payload.token H)) with
      ⟨status, detail, hnext, hrefused⟩ | ⟨hnext, n, hreceipt⟩
    · rw [hnext]
      exact h.goto (fits_refused hrefused)
    · rw [hnext]
      exact h.match hp hphase hreceipt
  · rename_i hcheck
    rcases readReceipt_cases p (s.receipts (p.payload.token H)) with
      ⟨status, detail, hnext, hrefused⟩ | ⟨hnext, n, hreceipt⟩ | hnext
    · rw [hnext]
      exact h.goto (fits_refused hrefused)
    · rw [hnext]
      exact h.match hp hphase hreceipt
    · rw [hnext]
      refine h.goto ((h.fits pid p hp).onward ?_ ?_ ?_ nofun nofun nofun nofun)
      · exact fun _ => by rw [hphase]; rfl
      · exact fun _ => Bool.eq_false_iff.mpr hcheck
      · exact fun _ => by rw [hphase]; rfl

theorem Inv.matched (h : Inv H s) (hp : s.procs pid = some p) (hphase : p.phase = .matched)
    (o : Observed) : Inv H (advance H s pid p o) := by
  have hf := h.fits pid p hp
  rw [advance, hphase]
  simp only
  rcases reuse_cases H p o (s.markers (p.payload.place H)) with
    ⟨detail, hnext, n, hmarker⟩ | ⟨status, detail, hnext, hrefused⟩ | ⟨hnext, hcheck⟩
  · rw [hnext]
    refine h.goto (hf.onward ?_ nofun ?_ nofun nofun ?_ nofun)
    · exact fun _ => by rw [hphase]; rfl
    · exact fun _ => by rw [hphase]; rfl
    · exact fun _ => hf.matched hphase n hmarker
  · rw [hnext]
    exact h.goto (fits_refused hrefused)
  · rw [hnext]
    refine h.goto (hf.onward ?_ (fun _ => hcheck) ?_ nofun nofun nofun nofun)
    · exact fun _ => by rw [hphase]; rfl
    · exact fun _ => by rw [hphase]; rfl

theorem Inv.recording (h : Inv H s) (hp : s.procs pid = some p) (hphase : p.phase = .recording)
    (o : Observed) : Inv H (advance H s pid p o) := by
  have hf := h.fits pid p hp
  rw [advance, hphase]
  simp only
  split
  · exact h.exit pid
  · refine h.setReceipt hp (by rw [hphase]; rfl) (by rw [hphase]; rfl) ?_ nofun
    refine ⟨fun _ => hf.loaded (by rw [hphase]; rfl), fun _ => hf.setup (by rw [hphase]; rfl),
      fun _ => hf.locked (by rw [hphase]; rfl), ?_, nofun, nofun, ?_⟩
    · intro _ r n hreceipt
      rw [receipts_setReceipt, Function.update_self, File.document.injEq] at hreceipt
      rw [← hreceipt.1]
      rfl
    · intro n hdone
      cases hdone
      exact ranUpto_zero _ _

/-- Where a payload is alone, nobody else relies on the directory its step starts in. -/
theorem Inv.alone (h : Inv H s) (hp : s.procs pid = some p)
    (hrecorded : p.phase.recorded = true) (halone : s.Alone H p.payload) :
    (∀ q r, q ≠ pid → s.procs q = some r → r.phase.engaged = true →
        p.payload.place H = r.payload.place H → p.payload.key = r.payload.key) ∧
      ∀ Q, s.Vouched H Q → p.payload.place H = Q.place H → p.payload.key = Q.key := by
  have hf := h.fits pid p hp
  obtain ⟨_, hsetup, hlocked⟩ := Phase.of_recorded hrecorded
  have hlock := hf.locked hlocked (hf.setup hsetup)
  constructor
  · intro q r hq hr hengaged hplace
    by_contra hkey
    obtain ⟨hcheck, hproject⟩ := halone.helpers q r hr hplace.symm (fun heq => hkey heq.symm)
      hengaged
    -- a setup of the same project would have the lock
    have hactive : r.phase.locked = true := by
      cases hphase : r.phase <;> rw [hphase] at hengaged <;>
        first | rfl | exact hengaged
    have hother := (h.fits q r hr).locked hactive hcheck
    rw [token_of_projectId hproject, hlock, Option.some.injEq] at hother
    exact hq hother.symm
  · intro Q hvouched hplace
    by_contra _
    by_cases hproject : Q.projectId = p.payload.projectId
    · obtain ⟨n, m, hreceipt, _⟩ := hvouched
      rw [token_of_projectId hproject] at hreceipt
      have hrunning := hf.recorded hrecorded _ n hreceipt
      cases hrunning
    · exact halone.receipts Q hplace.symm hproject hvouched

theorem Inv.stepping (h : Inv H s) (hp : s.procs pid = some p) {index : Nat}
    (hphase : p.phase = .stepping index)
    (halone : index < p.payload.steps.length → o.fault = none → s.Alone H p.payload) :
    Inv H (advance H s pid p o) := by
  have hf := h.fits pid p hp
  have hran : RanUpto H s.log p.payload index := hf.ran index (by rw [hphase]; rfl)
  have hrecorded : p.phase.recorded = true := by rw [hphase]; rfl
  rw [advance, hphase]
  simp only
  split
  · rename_i hindex
    split
    · exact h.goto (hf.within hrecorded nofun nofun nofun)
    · rename_i hfault
      refine h.record ?_ ?_
      · obtain ⟨hactive, hsetup, hlocked⟩ := Phase.of_recorded hrecorded
        refine ⟨fun _ => hf.loaded hactive, fun _ => hf.setup hsetup, fun _ => hf.locked hlocked,
          fun _ => hf.recorded hrecorded, nofun, nofun, fun n hdone => ?_⟩
        cases hdone
        refine hran.record fun Q i heq _ => ?_
        cases heq
        rfl
      · intro P i heq
        cases heq
        exact h.alone hp hrecorded (halone hindex hfault)
  · rename_i hindex
    refine h.goto (hf.within hrecorded nofun nofun fun n hdone => ?_)
    cases hdone
    exact hran.mono (Nat.le_of_not_lt hindex)

theorem Inv.waiting (h : Inv H s) (hp : s.procs pid = some p) {index : Nat}
    (hphase : p.phase = .waiting index) (o : Observed) : Inv H (advance H s pid p o) := by
  have hf := h.fits pid p hp
  have hran : RanUpto H s.log p.payload index := hf.ran index (by rw [hphase]; rfl)
  have hrecorded : p.phase.recorded = true := by rw [hphase]; rfl
  rw [advance, hphase]
  simp only
  split
  · refine h.record ?_ nofun
    obtain ⟨hactive, hsetup, hlocked⟩ := Phase.of_recorded hrecorded
    refine ⟨fun _ => hf.loaded hactive, fun _ => hf.setup hsetup, fun _ => hf.locked hlocked,
      fun _ => hf.recorded hrecorded, nofun, nofun, fun n hdone => ?_⟩
    cases hdone
    exact hran.succeeded
  · exact h.goto (hf.within hrecorded nofun nofun nofun)

theorem Inv.verifying (h : Inv H s) (hp : s.procs pid = some p) (hphase : p.phase = .verifying)
    (o : Observed) : Inv H (advance H s pid p o) := by
  have hf := h.fits pid p hp
  have hrecorded : p.phase.recorded = true := by rw [hphase]; rfl
  rw [advance, hphase]
  simp only
  rcases verify_cases H p o with hnext | ⟨detail, hnext⟩ | hnext
  · rw [hnext]
    exact h.exit pid
  · rw [hnext]
    exact h.goto (hf.within hrecorded nofun nofun nofun)
  · rw [hnext]
    refine h.goto (hf.within hrecorded nofun nofun fun n hdone => ?_)
    exact hf.ran n (by rw [hphase]; exact hdone)

theorem Inv.marking (h : Inv H s) (hp : s.procs pid = some p) (hphase : p.phase = .marking)
    (o : Observed) : Inv H (advance H s pid p o) := by
  have hf := h.fits pid p hp
  have hrecorded : p.phase.recorded = true := by rw [hphase]; rfl
  obtain ⟨hactive, hsetup, hlocked⟩ := Phase.of_recorded hrecorded
  rw [advance, hphase]
  simp only
  split
  · exact h.goto (hf.within hrecorded nofun nofun nofun)
  · refine h.setMarker ?_ (hf.ran _ (by rw [hphase]; rfl)) (hf.loaded hactive)
    refine ⟨fun _ => hf.loaded hactive, fun _ => hf.setup hsetup, fun _ => hf.locked hlocked,
      fun _ => hf.recorded hrecorded, nofun, nofun, fun n hdone => ?_⟩
    exact hf.ran n (by rw [hphase]; exact hdone)

theorem Inv.completing (h : Inv H s) (hp : s.procs pid = some p) (hphase : p.phase = .completing)
    (o : Observed) : Inv H (advance H s pid p o) := by
  have hf := h.fits pid p hp
  have hran := hf.ran p.payload.steps.length (by rw [hphase]; rfl)
  have hrecorded : p.phase.recorded = true := by rw [hphase]; rfl
  obtain ⟨hactive, hsetup, hlocked⟩ := Phase.of_recorded hrecorded
  rw [advance, hphase]
  simp only
  split
  · exact h.exit pid
  · refine h.setReceipt hp hsetup hlocked ?_ fun _ => ⟨hran, hf.loaded hactive⟩
    exact ⟨fun _ => hf.loaded hactive, nofun, fun _ => hf.locked hlocked, nofun, nofun,
      fun _ => Or.inl ⟨p.payload, rfl, hf.loaded hactive, hran⟩, nofun⟩

theorem Inv.failing (h : Inv H s) (hp : s.procs pid = some p) {detail : String}
    (hphase : p.phase = .failing detail) (o : Observed) : Inv H (advance H s pid p o) := by
  have hrecorded : p.phase.recorded = true := by rw [hphase]; rfl
  obtain ⟨_, hsetup, hlocked⟩ := Phase.of_recorded hrecorded
  rw [advance, hphase]
  simp only
  split
  · exact h.exit pid
  · exact h.setReceipt hp hsetup hlocked (fits_refused rfl) nofun

/-- A helper goes on; only the start of a step asks for more. -/
theorem Inv.advance (h : Inv H s) (hp : s.procs pid = some p)
    (halone : ∀ index, p.phase = .stepping index → index < p.payload.steps.length →
      o.fault = none → s.Alone H p.payload) : Inv H (Bootstrap.advance H s pid p o) := by
  cases hphase : p.phase with
  | arrived =>
    rw [Bootstrap.advance, hphase]
    exact h.arrived o
  | opening => exact h.opening hp hphase o
  | holding => exact h.holding hp hphase o
  | inspecting => exact h.inspecting hp hphase o
  | matched => exact h.matched hp hphase o
  | recording => exact h.recording hp hphase o
  | stepping index => exact h.stepping hp hphase (halone index hphase)
  | waiting index => exact h.waiting hp hphase o
  | verifying => exact h.verifying hp hphase o
  | marking => exact h.marking hp hphase o
  | completing => exact h.completing hp hphase o
  | failing detail => exact h.failing hp hphase o
  | answering status detail =>
    rw [Bootstrap.advance, hphase]
    exact h.goto (fits_idle rfl rfl rfl nofun rfl rfl rfl)
  | answered =>
    rw [Bootstrap.advance, hphase]
    exact h.exit pid

theorem lost_ne_document {α : Type} (spoiled : Bool) (data : α) (size : Nat) :
    lost spoiled ≠ .document data size := by
  cases spoiled <;> exact nofun

/-- A lost marker speaks for nobody. -/
theorem Inv.loseMarker (h : Inv H s) (place : Option String) (spoiled : Bool) :
    Inv H { s with markers := Function.update s.markers place (lost spoiled) } := by
  have hkept {at' : Option String} {data : Marker} {n : Nat}
      (hmarker : Function.update s.markers place (lost spoiled) at' = .document data n) :
      s.markers at' = .document data n := by
    by_cases hplace : at' = place
    · rw [hplace, Function.update_self] at hmarker
      exact absurd hmarker (lost_ne_document _ _ _)
    · rwa [Function.update_of_ne hplace] at hmarker
  constructor
  · intro q r hr
    have hfits := h.fits q r hr
    exact ⟨hfits.loaded, hfits.setup, hfits.locked, hfits.recorded,
      fun hphase n hmarker => hfits.matched hphase n (hkept hmarker), hfits.announces, hfits.ran⟩
  · rintro Q hloaded ⟨n, m, hreceipt, hmarker⟩
    exact h.vouched Q hloaded ⟨n, m, hreceipt, hkept hmarker⟩

theorem Inv.loseReceipt (h : Inv H s) (token : String) (spoiled : Bool) :
    Inv H { s with receipts := Function.update s.receipts token (lost spoiled) } := by
  have hkept {at' : String} {data : Receipt} {n : Nat}
      (hreceipt : Function.update s.receipts token (lost spoiled) at' = .document data n) :
      s.receipts at' = .document data n := by
    by_cases htoken : at' = token
    · rw [htoken, Function.update_self] at hreceipt
      exact absurd hreceipt (lost_ne_document _ _ _)
    · rwa [Function.update_of_ne htoken] at hreceipt
  constructor
  · intro q r hr
    have hfits := h.fits q r hr
    exact ⟨hfits.loaded, hfits.setup, hfits.locked,
      fun hrecorded r' n hreceipt => hfits.recorded hrecorded r' n (hkept hreceipt), hfits.matched,
      hfits.announces, hfits.ran⟩
  · rintro Q hloaded ⟨n, m, hreceipt, hmarker⟩
    exact h.vouched Q hloaded ⟨n, m, hkept hreceipt, hmarker⟩

theorem Inv.invoke (h : Inv H s) (pid : Nat) (payload : Payload) (check : Bool) :
    Inv H (s.step H (.invoke pid payload check)) := by
  rw [Target.step]
  split
  · exact h
  · refine Inv.change (p := ⟨payload, check, .arrived⟩) s s rfl ?_
      (fun q r _ hr => h.fits q r hr) h.vouched
    exact fits_idle rfl rfl rfl nofun rfl rfl rfl

theorem Inv.step (h : Inv H s) {event : Event} (hcond : s.Undisturbed H event) :
    Inv H (s.step H event) := by
  cases event with
  | invoke pid payload check => exact h.invoke pid payload check
  | advance pid o =>
    rw [Target.step]
    split
    · exact h
    · rename_i p hp
      exact h.advance hp fun index => hcond p index hp
  | kill pid => exact h.exit pid
  | loseMarker place spoiled => exact h.loseMarker place spoiled
  | loseReceipt token spoiled => exact h.loseReceipt token spoiled

theorem Inv.sound (h : Inv H s) (event : Event) : s.Sound H event := by
  cases event with
  | advance pid o =>
    intro p hp hannounces
    have hf := h.fits pid p hp
    refine (hf.announces hannounces).established (hf.loaded ?_)
    cases hphase : p.phase <;> rw [hphase] at hannounces <;>
      first | exact hannounces | cases hannounces
  | _ => trivial

end Preserved

/-! ## Whole runs -/

/-- In every run of setups and checks, with helpers killed and steps failing anywhere, where a step
starts only while its payload is alone, an answer `ready` or `bootstrapped` is right. -/
theorem readiness_sound (H : Host) (events : List Event)
    (h : Transition.Along (Target.step H) (Target.Undisturbed H) Target.fresh events) :
    Transition.Along (Target.step H) (Target.Sound H) Target.fresh events :=
  Transition.along_of_step (Inv H) (fun _ event hinv hcond => ⟨hinv.step hcond, hinv.sound event⟩)
    (inv_fresh H) h

/-! ## Two projects with one leaf name -/

/-- A target with plain POSIX paths and the digests of the two sample projects. -/
def sampleHost : Host where
  nt := false
  sha256
    | '{' :: rest => match rest.drop 27 with
      | '2' :: _ => "4ef9b5645deda24a9a7d85fdfda7b092ce67376e7158ef58adf8fee0533101c3"
      | _ => "3da3969878c477934bc4126a22cf31fb3d9f5ba5d027a1522bfcfbbd9c2975c0"
    | 'a' :: _ => "6bd4d20c64264311d8c90a9f171dcc890f2b0453946e220f5e2a8a5b0c67aa53"
    | _ => "d1539acfc04dab4ab5cd2a0579974f2d72277fdb4a27fd4fbe0a24db67fdf8fe"
  expanduser path := some path
  isAbsolute path := path.toList.head? = some '/'
  parts path := path.splitOn "/"
  join base name := base ++ "/" ++ name
  samePath a b := a = b
  resolve path := .ok path
  inside path root := path = root || (root ++ "/").toList.isPrefixOf path.toList

def sampleEnvironment : Environment where
  root := "/venvs"
  path := "/venvs/tool"
  interpreter := "/venvs/tool/bin/python"
  marker := "/venvs/tool/.remrun-bootstrap-v1.json"

-- Both projects get this environment below `venv_root = "/venvs"`.
example : ∀ projectId ∈ ["alpha/tool", "beta/tool"],
    externalVenv ⟨false, fun path => path.toList.head? = some '/', id, id⟩ ⟨"target", "/venvs"⟩
      projectId ⟨[], some "external", none⟩ =
        .ok (sampleEnvironment.root, sampleEnvironment.path) := by
  decide +kernel

def alphaPayload : Payload where
  projectId := "alpha/tool"
  declarationFingerprint := "2c70686bb2d7f2b9933cdc7d158f012a8422eb1c70b598f3cb4de2c10295ecd7"
  fingerprint := "4ef9b5645deda24a9a7d85fdfda7b092ce67376e7158ef58adf8fee0533101c3"
  steps := [["python3", "-m", "venv", "/venvs/tool"]]
  lockDigests := []
  environment := sampleEnvironment
  projectRoot := "/work/alpha/tool"

def betaPayload : Payload where
  projectId := "beta/tool"
  declarationFingerprint := "c87d836b077857a5373ed173b27a252ea2bd9a990bc03a05c52092c3d5df7d6e"
  fingerprint := "3da3969878c477934bc4126a22cf31fb3d9f5ba5d027a1522bfcfbbd9c2975c0"
  steps := [["python3", "-m", "venv", "--clear", "/venvs/tool"]]
  lockDigests := []
  environment := sampleEnvironment
  projectRoot := "/work/beta/tool"

/-- Nothing fails and the environment is as a setup leaves it. -/
def allWell : Observed where
  fault := none
  statePaths := true
  rootFault := none
  lockFile _ := .missing
  bindir := .ok "/venvs/tool/bin"
  usableInterpreter := true
  rootDir := true
  venvDir := true
  lockFault := none
  returncode := 0
  size := 400

/-- A setup of `alpha` up to its step. -/
def alphaEvents : List Event := .invoke 0 alphaPayload false :: List.replicate 5 (.advance 0 allWell)

/-- After it, a setup of `beta` starts its step and a check of `alpha` is about to answer. -/
def sharedEvents : List Event :=
  alphaEvents ++ List.replicate 8 (.advance 0 allWell) ++
    .invoke 1 betaPayload false :: List.replicate 6 (.advance 1 allWell) ++
    .invoke 2 alphaPayload true :: List.replicate 3 (.advance 2 allWell)

/-- The helper an event is about. -/
def Event.pid : Event → Option Nat
  | .invoke pid _ _ => some pid
  | .advance pid _ => some pid
  | .kill pid => some pid
  | _ => none

theorem procs_advance_other {H : Host} {s : Target} {pid q : Nat} {p : Process} {o : Observed}
    (h : q ≠ pid) : (advance H s pid p o).procs q = s.procs q := by
  unfold advance
  simp only
  repeat' split
  all_goals first
    | exact procs_goto_other _ _ _ h
    | exact procs_exit_other _ h

theorem procs_step_other {H : Host} {s : Target} {event : Event} {q : Nat}
    (h : event.pid ≠ some q) : (s.step H event).procs q = s.procs q := by
  have hne {pid : Nat} (heq : event.pid = some pid) : q ≠ pid := by
    rintro rfl
    exact h heq
  cases event with
  | invoke pid payload check =>
    rw [Target.step]
    split
    · rfl
    · exact Function.update_of_ne (hne rfl) ..
  | advance pid o =>
    rw [Target.step]
    split
    · rfl
    · exact procs_advance_other (hne rfl)
  | kill pid => exact procs_exit_other _ (hne rfl)
  | loseMarker place spoiled => rfl
  | loseReceipt token spoiled => rfl

/-- Helpers nothing happens to stay as they are. -/
theorem procs_run_other {H : Host} {s : Target} {events : List Event} {q : Nat}
    (h : ∀ event ∈ events, event.pid ≠ some q) :
    (Transition.run (Target.step H) s events).procs q = s.procs q := by
  induction events generalizing s with
  | nil => rfl
  | cons event rest ih =>
    rw [Transition.run_cons, ih fun e he => h e (List.mem_cons_of_mem _ he)]
    exact procs_step_other (h event List.mem_cons_self)

/-- The event starts no step. -/
def Target.quiet (s : Target) : Event → Bool
  | .advance pid _ => match s.procs pid with
    | some ⟨payload, _, .stepping index⟩ => payload.steps.length ≤ index
    | _ => true
  | _ => true

theorem undisturbed_of_quiet {H : Host} {s : Target} {event : Event} (h : s.quiet event = true) :
    s.Undisturbed H event := by
  cases event with
  | advance pid o =>
    rintro ⟨payload, check, phase⟩ index hp rfl hindex _
    rw [Target.quiet, hp] at h
    exact absurd hindex (Nat.not_lt.mpr (of_decide_eq_true h))
  | _ => trivial

/-- The target when the setup of `alpha` starts its step. -/
def alphaStart : Target := Transition.run (Target.step sampleHost) Target.fresh alphaEvents

theorem alphaStart_unvouched {Q : Payload} (h : alphaStart.Vouched sampleHost Q) : False := by
  have hreceipts : alphaStart.receipts = Function.update (fun _ => .absent)
      (alphaPayload.token sampleHost) (.document (alphaPayload.receipt .running) 400) := by
    rfl
  obtain ⟨n, m, hreceipt, _⟩ := h
  rw [hreceipts] at hreceipt
  by_cases htoken : Q.token sampleHost = alphaPayload.token sampleHost
  · rw [htoken, Function.update_self, File.document.injEq] at hreceipt
    exact absurd (congrArg Receipt.status hreceipt.1) nofun
  · rw [Function.update_of_ne htoken] at hreceipt
    cases hreceipt

theorem alphaStart_only {q : Nat} {p : Process} (h : alphaStart.procs q = some p) :
    p.payload = alphaPayload := by
  have hzero : alphaStart.procs 0 = some ⟨alphaPayload, false, .stepping 0⟩ := by decide +kernel
  by_cases hq : q = 0
  · rw [hq, hzero, Option.some.injEq] at h
    rw [← h]
  · have hkept : alphaStart.procs q = none := by
      refine procs_run_other (s := Target.fresh) fun event hevent => ?_
      simp only [alphaEvents, List.mem_cons, List.mem_replicate] at hevent
      rcases hevent with rfl | ⟨_, rfl⟩
      · exact fun heq => hq (Option.some.inj heq).symm
      · exact fun heq => hq (Option.some.inj heq).symm
    rw [hkept] at h
    cases h

/-- The setup of `alpha` alone answers `bootstrapped`, and is right. -/
theorem readiness_sound_alone :
    Transition.Along (Target.step sampleHost) (Target.Sound sampleHost) Target.fresh
        (alphaEvents ++ List.replicate 8 (.advance 0 allWell)) ∧
      (Transition.run (Target.step sampleHost) Target.fresh
        (alphaEvents ++ List.replicate 6 (.advance 0 allWell))).procs 0 =
          some ⟨alphaPayload, false, .answering .bootstrapped "bootstrap completed"⟩ := by
  refine ⟨readiness_sound sampleHost _ ?_, by decide +kernel⟩
  have hquiet : Transition.Along (Target.step sampleHost) (fun s event => s.quiet event = true)
      Target.fresh alphaEvents := by decide +kernel
  have hrest : Transition.Along (Target.step sampleHost) (fun s event => s.quiet event = true)
      (Transition.run (Target.step sampleHost) Target.fresh (alphaEvents ++ [.advance 0 allWell]))
      (List.replicate 7 (.advance 0 allWell)) := by decide +kernel
  refine Transition.along_append.mpr ⟨?_, ?_, ?_⟩
  · exact Transition.along_imp (fun _ _ => undisturbed_of_quiet) hquiet
  · intro p index hp _ _ _
    refine ⟨fun Q _ _ hvouched => alphaStart_unvouched hvouched, fun q r hr _ hkey _ => ?_⟩
    rw [alphaStart_only hr, alphaStart_only hp] at hkey
    exact absurd rfl hkey
  · rw [Transition.run_append] at hrest
    exact Transition.along_imp (fun _ _ => undisturbed_of_quiet) hrest

/-- The check of `alpha` answers `ready` although a step of `beta` has started in the shared
environment. -/
theorem shared_environment_unready :
    ¬ Transition.Along (Target.step sampleHost) (Target.Sound sampleHost) Target.fresh
      (sharedEvents ++ [.advance 2 allWell]) := by
  intro h
  have hanswer := (Transition.along_append.mp h).2.1
  have hend : (fun s : Target => (s.procs 2, s.log))
      (Transition.run (Target.step sampleHost) Target.fresh sharedEvents) =
        (some ⟨alphaPayload, true, .answering .ready "bootstrap environment is ready"⟩,
          [.started betaPayload 0, .succeeded alphaPayload 0, .started alphaPayload 0]) := by
    decide +kernel
  obtain ⟨hproc, hlog⟩ := Prod.mk.inj hend
  have hestablished := hanswer _ hproc rfl
  rw [hlog] at hestablished
  rcases hestablished with ⟨P, hkey, hsteps, recent, earlier, hsplit, hran, hforeign⟩ |
    ⟨Q, i, hmem, hcollide⟩
  · have hfirst : Entry.succeeded P 0 ∈ recent := hran 0 (by rw [hsteps]; decide)
    cases recent with
    | nil => cases hfirst
    | cons entry rest =>
      rw [List.cons_append, List.cons.injEq] at hsplit
      have hbeta := hforeign betaPayload 0 (hsplit.1 ▸ List.mem_cons_self)
        (place_of_key hkey ▸ rfl)
      rw [hkey] at hbeta
      exact absurd (projectId_of_key hbeta) (by decide)
  · simp only [List.mem_cons, reduceCtorEq, Entry.succeeded.injEq, List.not_mem_nil, or_false,
      false_or] at hmem
    rw [hmem.1] at hcollide
    exact hcollide.1 rfl

end Remrun.Bootstrap
