import Remrun.Fleet.Dispatcher

/-!
# What a tick does

Verified tasks and what compatible tasks share, the verdict of a device and what it depends on,
and the specifications of the steps of planning: where a cached snapshot comes from, that it
stays, and what a planned batch was placed against.
-/

namespace Remrun.Fleet.Dispatch

open Keyed Selection Effect
set_option autoImplicit false

variable {t u v : FleetTask} {device : String} {c : Costs}

theorem toBool_unit_iff {ε : Type} {x : Except ε Unit} : x.toBool = true ↔ x = .ok () := by
  cases x <;> simp [Except.toBool]

theorem toOption_eq_some {ε α : Type} {x : Except ε α} {a : α} :
    x.toOption = some a ↔ x = .ok a := by
  cases x <;> simp [Except.toOption]

theorem raiseIf_ok {condition : Prop} [Decidable condition] {error : String} :
    raiseIf condition error = .ok () ↔ ¬ condition := by
  unfold raiseIf
  split <;> simp_all

theorem refuseIf_ok {condition : Prop} [Decidable condition] {reason : Refusal} :
    refuseIf condition reason = .ok () ↔ ¬ condition := by
  unfold refuseIf
  split <;> simp_all

/-! ## Verdicts -/

theorem unit_bind_ok {ε : Type} {x y : Except ε Unit} :
    (x >>= fun _ => y) = .ok () ↔ x = .ok () ∧ y = .ok () := by
  rw [bind_eq_ok]
  constructor
  · rintro ⟨⟨⟩, hx, hy⟩
    exact ⟨hx, hy⟩
  · rintro ⟨hx, hy⟩
    exact ⟨(), hx, hy⟩

theorem fits_ok {s : Snapshot} {allowUnknown : Bool} : fits c t device s allowUnknown = .ok () ↔
    s.routeGate t device = .ok () ∧ s.liveGate = .ok () ∧ capabilityGate t device = .ok () ∧
      s.adapterGate t device allowUnknown = .ok () ∧ s.memoryGate c t device = .ok () := by
  unfold fits
  simp only [unit_bind_ok]

theorem routeGate_ok {s : Snapshot} : s.routeGate t device = .ok () ↔
    device ≠ "" ∧ s.enabled = true ∧
      (s.automaticPlacement = true ∨ t.forceDevice = some device) ∧
      (t.prepared.isCommand = true ∨ ∃ adapter, frozenAdapter t device = some adapter) := by
  unfold Snapshot.routeGate routeEligibility
  simp only [unit_bind_ok, refuseIf_ok]
  refine and_congr Iff.rfl (and_congr (by simp) (and_congr ?_ ?_))
  · cases s.automaticPlacement <;> simp
  · cases t.prepared.isCommand <;> simp [Option.ne_none_iff_exists']

theorem capabilityGate_ok : capabilityGate t device = .ok () ↔ missingCapabilities t device = [] := by
  unfold capabilityGate
  rw [refuseIf_ok, not_not]

theorem engineVerdict_ok {engine : String} {status : EngineStatus} {allowUnknown : Bool} :
    engineVerdict engine status allowUnknown = .ok () ↔
      status = .present ∨ status = .unknown ∧ allowUnknown = true := by
  cases status <;> simp [engineVerdict, refuseIf_ok]

theorem engineGate_ok {s : Snapshot} {allowUnknown : Bool} :
    s.engineGate t device allowUnknown = .ok () ↔ ∃ engine, engineFor t device = .ok engine ∧
      (s.status engine = .present ∨ s.status engine = .unknown ∧ allowUnknown = true) := by
  unfold Snapshot.engineGate
  cases engineFor t device with
  | error detail => simp
  | ok engine => simp [engineVerdict_ok]

theorem engineGate_of_adapterGate {s : Snapshot} {allowUnknown : Bool} {adapter : Adapter}
    (hadapter : frozenAdapter t device = some adapter)
    (h : s.adapterGate t device allowUnknown = .ok ()) :
    s.engineGate t device allowUnknown = .ok () := by
  unfold Snapshot.adapterGate at h
  rw [hadapter] at h
  exact (unit_bind_ok.mp h).2

/-! ## Verified tasks -/

/-- What the checks of a queued row establish about its task. -/
structure Verified (specs : String → Option TaskSpec) (t : FleetTask) : Prop where
  pinned : t.forceDevice = none ∨ t.forceDevice = t.prepared.routing.forceDevice
  named : t.forceDevice ≠ some ""
  engineNamed : t.engine ≠ some ""
  command : t.prepared.isCommand = true → t.spec = none
  task : t.prepared.isCommand = false → ∃ spec, specs t.prepared.specId = some spec ∧
    t.spec = some spec ∧ t.taskName = spec.taskName ∧
    (t.prepared.cost.status = .unestimated ↔ spec.measure = "none")
  adapter : t.prepared.isCommand = false → ∀ forced, t.forceDevice = some forced →
    ∃ adapter, frozenAdapter t forced = some adapter ∧ ∀ engine ∈ t.engine, engine = adapter.engine

theorem forcedAdapterCheck_ok {p : Prepared} {spec : TaskSpec}
    (h : forcedAdapterCheck p spec = .ok ()) {forced : String}
    (hforced : p.routing.forceDevice = some forced) :
    ∃ adapter, spec.adapters.get forced = some adapter ∧
      ∀ engine ∈ p.routing.engine, engine = adapter.engine := by
  unfold forcedAdapterCheck at h
  rw [hforced] at h
  simp only at h
  cases hget : spec.adapters.get forced with
  | none => simp [hget] at h
  | some adapter =>
    rw [hget] at h
    refine ⟨adapter, rfl, fun engine hengine => ?_⟩
    have hany := raiseIf_ok.mp h
    rw [Option.mem_def.mp hengine] at hany
    simpa using hany

theorem rowToTask_ok {specs : String → Option TaskSpec} {row : QueuedRow}
    (h : rowToTask specs row = .ok t) :
    Verified specs t ∧ t.queueJobId = row.jobId ∧ t.prepared = row.prepared ∧
      t.forceDevice = row.forceDevice := by
  unfold rowToTask at h
  obtain ⟨_, hvalid, h⟩ := bind_eq_ok.mp h
  obtain ⟨_, hforce, hengine⟩ := bind_eq_ok.mp hvalid
  have hforce := raiseIf_ok.mp hforce
  have hengine := raiseIf_ok.mp hengine
  have hnamed : row.forceDevice ≠ some "" := by
    rcases row.pinned with hnone | hsame
    · simp [hnone]
    · rwa [hsame]
  cases hwork : row.prepared.work with
  | command argv =>
    rw [hwork] at h
    have ht := pure_eq_ok.mp h
    subst ht
    refine ⟨⟨row.pinned, hnamed, hengine, fun _ => rfl, fun htask => ?_, fun htask => ?_⟩,
      rfl, rfl, rfl⟩
    all_goals simp [QueuedRow.task, Prepared.isCommand, hwork] at htask
  | task name options =>
    rw [hwork] at h
    simp only at h
    cases hspec : specs row.prepared.specId with
    | none => simp [hspec] at h
    | some spec =>
      rw [hspec] at h
      obtain ⟨_, hchecks, h⟩ := bind_eq_ok.mp h
      have ht := pure_eq_ok.mp h
      subst ht
      obtain ⟨_, hname, hchecks⟩ := bind_eq_ok.mp hchecks
      obtain ⟨_, -, hchecks⟩ := bind_eq_ok.mp hchecks
      obtain ⟨_, hadapter, hchecks⟩ := bind_eq_ok.mp hchecks
      obtain ⟨_, hinvents, hauthority⟩ := bind_eq_ok.mp hchecks
      have hname := not_not.mp (raiseIf_ok.mp hname)
      have hinvents := raiseIf_ok.mp hinvents
      have hauthority := raiseIf_ok.mp hauthority
      refine ⟨⟨row.pinned, hnamed, hengine, fun hcommand => ?_,
        fun _ => ⟨spec, hspec, rfl, ?_, by tauto⟩, fun _ forced hforced => ?_⟩, rfl, rfl, rfl⟩
      · simp [QueuedRow.task, Prepared.isCommand, hwork] at hcommand
      · simp [FleetTask.taskName, QueuedRow.task, hwork, hname]
      · rcases row.pinned with hnone | hsame
        · simp [QueuedRow.task, hnone] at hforced
        · exact forcedAdapterCheck_ok hadapter (hsame ▸ hforced)

/-- A task of a verified row of the queue. -/
def Queue.Holds (q : Queue) (t : FleetTask) : Prop := ∃ row ∈ q.rows, rowToTask q.specs row = .ok t

theorem Queue.Holds.verified {q : Queue} (h : q.Holds t) : Verified q.specs t := by
  obtain ⟨row, -, hrow⟩ := h
  exact (rowToTask_ok hrow).1

/-- A job id names one task. -/
theorem Queue.Holds.unique {q : Queue} (hu : q.Holds u) (hv : q.Holds v)
    (h : u.queueJobId = v.queueJobId) : u = v := by
  obtain ⟨row, hrow, htask⟩ := hu
  obtain ⟨row', hrow', htask'⟩ := hv
  have hid : row.jobId = row'.jobId := by
    rw [← (rowToTask_ok htask).2.1, ← (rowToTask_ok htask').2.1, h]
  have hrows : row = row' := List.inj_on_of_nodup_map q.nodup hrow hrow' hid
  subst hrows
  rw [htask] at htask'
  exact Except.ok.inj htask'

/-! ## Compatible tasks -/

/-- What tasks under one key have in common. -/
structure Compatible (u v : FleetTask) : Prop where
  specId : u.prepared.specId = v.prepared.specId
  spec : u.spec = v.spec
  command : u.prepared.isCommand = v.prepared.isCommand
  taskName : u.taskName = v.taskName
  requires : u.requires = v.requires
  engine : u.engine = v.engine
  forceDevice : u.prepared.routing.forceDevice = v.prepared.routing.forceDevice
  bucketId : u.prepared.cost.bucketId = v.prepared.cost.bucketId
  status : u.prepared.cost.status = v.prepared.cost.status
  excludeDevices : u.excludeDevices = v.excludeDevices

theorem Compatible.refl (t : FleetTask) : Compatible t t :=
  ⟨rfl, rfl, rfl, rfl, rfl, rfl, rfl, rfl, rfl, rfl⟩

theorem Compatible.symm (h : Compatible u v) : Compatible v u :=
  ⟨h.specId.symm, h.spec.symm, h.command.symm, h.taskName.symm, h.requires.symm, h.engine.symm,
    h.forceDevice.symm, h.bucketId.symm, h.status.symm, h.excludeDevices.symm⟩

theorem isCommand_false {p : Prepared} (h : p.isCommand = false) :
    ∃ name options, p.work = .task name options := by
  cases hwork : p.work with
  | command argv => simp [Prepared.isCommand, hwork] at h
  | task name options => exact ⟨name, options, rfl⟩

theorem isCommand_true {p : Prepared} (h : p.isCommand = true) : ∃ argv, p.work = .command argv := by
  cases hwork : p.work with
  | command argv => exact ⟨argv, rfl⟩
  | task name options => simp [Prepared.isCommand, hwork] at h

theorem status_eq_of_iff {a b : CostStatus} (h : a = .unestimated ↔ b = .unestimated) : a = b := by
  cases a <;> cases b <;> simp_all

theorem getD_engine {x y : Option String} (hx : x ≠ some "") (hy : y ≠ some "")
    (h : x.getD "" = y.getD "") : x = y := by
  cases x <;> cases y <;> simp_all

/-- A key that is shared comes from configured tasks that agree on what placement reads; the
other keys name a job. -/
theorem compatible_of_key {q : Queue} (hu : q.Holds u) (hv : q.Holds v)
    (h : compatKey u = compatKey v) : Compatible u v := by
  by_cases hid : u.queueJobId = v.queueJobId
  · rw [hu.unique hv hid]
    exact .refl v
  cases hcu : u.prepared.isCommand with
  | true =>
    obtain ⟨argv, hwork⟩ := isCommand_true hcu
    cases hcv : v.prepared.isCommand with
    | true =>
      obtain ⟨argv', hwork'⟩ := isCommand_true hcv
      simp [compatKey, hwork, hwork', hid] at h
    | false =>
      obtain ⟨name', options', hwork'⟩ := isCommand_false hcv
      obtain ⟨spec, -, hspec, -⟩ := hv.verified.task hcv
      simp only [compatKey, hwork, hwork', hspec] at h
      split at h <;> simp at h
  | false =>
    obtain ⟨name, options, hwork⟩ := isCommand_false hcu
    obtain ⟨spec, hlookup, hspec, hname, hmeasure⟩ := hu.verified.task hcu
    cases hcv : v.prepared.isCommand with
    | true =>
      obtain ⟨argv', hwork'⟩ := isCommand_true hcv
      simp only [compatKey, hwork, hwork', hspec] at h
      split at h <;> simp at h
    | false =>
      obtain ⟨name', options', hwork'⟩ := isCommand_false hcv
      obtain ⟨spec', hlookup', hspec', hname', hmeasure'⟩ := hv.verified.task hcv
      simp only [compatKey, hwork, hwork', hspec, hspec'] at h
      split at h <;> split at h
      · simp [hid] at h
      · simp at h
      · simp at h
      · obtain ⟨hspecId, -, hrequires, hengine, hforce, -, -, hbucket, -, -, hexclude⟩ :=
          CompatKey.shared.inj h
        have hsame : spec = spec' := by
          rw [hspecId, hlookup'] at hlookup
          exact (Option.some.inj hlookup).symm
        subst hsame
        exact ⟨hspecId, by rw [hspec, hspec'], by rw [hcu, hcv], by rw [hname, hname'], hrequires,
          getD_engine hu.verified.engineNamed hv.verified.engineNamed hengine, hforce, hbucket,
          status_eq_of_iff (hmeasure.trans hmeasure'.symm), hexclude⟩

theorem Compatible.frozenAdapter (h : Compatible u v) (device : String) :
    frozenAdapter u device = Dispatch.frozenAdapter v device := by
  simp [Dispatch.frozenAdapter, FleetTask.adapters, h.spec]

theorem Compatible.excluded (h : Compatible u v) : excludedDevices u = excludedDevices v := by
  simp [excludedDevices, h.excludeDevices]

theorem Compatible.missing (h : Compatible u v) (device : String) :
    missingCapabilities u device = missingCapabilities v device := by
  simp [missingCapabilities, h.frozenAdapter, h.requires]

theorem Compatible.engineFor (h : Compatible u v) (device : String) :
    engineFor u device = Dispatch.engineFor v device := by
  simp [Dispatch.engineFor, h.frozenAdapter, h.engine]

/-- Tasks with the same routing facts, the same force and the same learned costs get the same
verdict. -/
theorem Compatible.fits_eq (h : Compatible u v) (hforce : u.forceDevice = v.forceDevice)
    (hkey : preparedProfileKey u device = preparedProfileKey v device) (s : Snapshot)
    (allowUnknown : Bool) : fits c u device s allowUnknown = fits c v device s allowUnknown := by
  have hroute : s.routeGate u device = s.routeGate v device := by
    unfold Snapshot.routeGate routeEligibility
    rw [hforce, h.command, h.frozenAdapter]
  have hcapability : capabilityGate u device = capabilityGate v device := by
    unfold capabilityGate
    rw [h.missing]
  have hadapter : s.adapterGate u device allowUnknown = s.adapterGate v device allowUnknown := by
    unfold Snapshot.adapterGate Snapshot.engineGate
    rw [h.frozenAdapter, h.engineFor]
  have hmemory : s.memoryGate c u device = s.memoryGate c v device := by
    unfold Snapshot.memoryGate Snapshot.gpuGate memoryKindFor Costs.predictedResources
    rw [h.frozenAdapter, h.engineFor, hkey]
  unfold fits
  rw [hroute, hcapability, hadapter, hmemory]

/-! ## Groups -/

theorem Group.tasks_ne_nil (g : Group) : g.tasks ≠ [] := List.cons_ne_nil _ _

theorem ofTasks_eq_some {tasks : List FleetTask} {g : Group} :
    Group.ofTasks tasks = some g ↔ tasks = g.tasks := by
  cases tasks with
  | nil => simp [Group.ofTasks, Group.tasks]
  | cons head rest =>
    obtain ⟨head', rest'⟩ := g
    simp [Group.ofTasks, Group.tasks]

theorem mem_groupsOf {tasks : List FleetTask} {g : Group} :
    g ∈ groupsOf tasks ↔ g.tasks = tasks.filter (compatKey · = compatKey g.head) := by
  constructor
  · intro h
    obtain ⟨⟨key, members⟩, hentry, hg⟩ := List.mem_filterMap.mp h
    have hmembers := ofTasks_eq_some.mp hg
    simp only at hmembers
    subst hmembers
    have hkey := (groupOn_member hentry (List.mem_cons_self (a := g.head) (l := g.rest))).2
    rw [(mem_groupOn.mp hentry).1, hkey]
  · intro h
    exact List.mem_filterMap.mpr ⟨(compatKey g.head, g.tasks),
      mem_groupOn.mpr ⟨h, g.tasks_ne_nil⟩, ofTasks_eq_some.mpr rfl⟩

theorem Tick.mem_tasks {t : Tick} {q : Queue} {job : FleetTask} (h : job ∈ t.tasks q) :
    q.Holds job := by
  obtain ⟨row, hrow, hjob⟩ := List.mem_filterMap.mp h
  exact ⟨row, (List.mem_filter.mp hrow).1, toOption_eq_some.mp hjob⟩

/-- A member of a group is a queued job under the group's key. -/
theorem Tick.mem_group {t : Tick} {q : Queue} {g : Group} (hg : g ∈ t.groups q) {job : FleetTask}
    (h : job ∈ g.tasks) : q.Holds job ∧ compatKey job = compatKey g.head := by
  rw [mem_groupsOf.mp (List.mem_filter.mp hg).1] at h
  obtain ⟨hjob, hkey⟩ := List.mem_filter.mp h
  exact ⟨t.mem_tasks hjob, by simpa using hkey⟩

theorem Tick.group_compatible {t : Tick} {q : Queue} {g : Group} (hg : g ∈ t.groups q)
    {job : FleetTask} (h : job ∈ g.tasks) : Compatible g.head job := by
  obtain ⟨hhead, -⟩ := t.mem_group hg (List.mem_cons_self (a := g.head) (l := g.rest))
  obtain ⟨hjob, hkey⟩ := t.mem_group hg h
  exact compatible_of_key hhead hjob hkey.symm

/-! ## Placement of a group -/

variable {snaps snaps' : Roster Snapshot} {backlog : Backlog} {jobs : List FleetTask}
  {batches : List PlacedBatch} {batch : PlacedBatch}

theorem mem_fittingDevices : device ∈ c.fittingDevices t snaps ↔
    device ∈ candidateDevices t ∧ ∃ s, snaps.get device = some s ∧
      fits c t device s false = .ok () := by
  unfold Costs.fittingDevices
  rw [List.mem_filter]
  refine and_congr_right fun _ => ?_
  cases snaps.get device with
  | none => simp
  | some s => simp [toBool_unit_iff]

/-- The split gives jobs of the group to the devices it was offered. -/
theorem greedySplit_spec {devices : List String} {assign : List (String × List FleetTask)}
    (h : c.greedySplit backlog jobs devices = .ok assign) :
    ∀ entry ∈ assign, entry.1 ∈ devices ∧ ∀ job ∈ entry.2, job ∈ jobs := by
  unfold Costs.greedySplit at h
  obtain ⟨split, hsplit, h⟩ := bind_eq_ok.mp h
  rw [← pure_eq_ok.mp h]
  have hentries : ∀ entry ∈ split, entry.1 ∈ devices ∧ ∀ job ∈ entry.2, job ∈ jobs := by
    refine foldlM_invariant
      (fun assign => ∀ entry ∈ assign, entry.1 ∈ devices ∧ ∀ job ∈ entry.2, job ∈ jobs)
      (fun assign job assign' hjob hassign hstep => ?_) (by simp) hsplit
    have hjob : job ∈ jobs := List.mem_mergeSort.mp hjob
    unfold Costs.splitStep at hstep
    simp only at hstep
    split at hstep
    · simp at hstep
    · rw [← Except.ok.inj hstep]
      intro entry hentry
      obtain ⟨entry', hentry', rfl⟩ := List.mem_map.mp hentry
      obtain ⟨hdevice, hmembers⟩ := hassign entry' hentry'
      split
      · refine ⟨hdevice, fun job' hjob' => ?_⟩
        rcases List.mem_append.mp hjob' with hjob' | hjob'
        · exact hmembers job' hjob'
        · rwa [List.mem_singleton.mp hjob']
      · exact ⟨hdevice, hmembers⟩
  intro entry hentry
  exact hentries entry (List.mem_filter.mp hentry).1

/-- What every batch of a choice among fitting devices is. -/
theorem choose_spec {t0 : FleetTask} {fitting : List String}
    (h : c.choose snaps backlog t0 jobs fitting = .ok batches) (hb : batch ∈ batches) :
    batch.device ∈ fitting ∧ ∀ job ∈ batch.jobs, job ∈ jobs := by
  have htried : ∀ {devices : List String}, (∀ d ∈ devices, d ∈ fitting) →
      batch ∈ (least rankLt (c.trialRank t0 snaps) devices).toList.map (c.batch backlog jobs) →
      batch.device ∈ fitting ∧ ∀ job ∈ batch.jobs, job ∈ jobs := by
    intro devices hsub hmem
    obtain ⟨device, hdevice, rfl⟩ := List.mem_map.mp hmem
    exact ⟨hsub _ (least_mem (Option.mem_toList.mp hdevice)), fun job hjob => hjob⟩
  unfold Costs.choose at h
  simp only at h
  split at h
  · rw [← Except.ok.inj h] at hb
    exact htried (fun _ => id) hb
  split at h
  · rw [← Except.ok.inj h] at hb
    exact htried (fun d hd => (List.mem_filter.mp (List.mem_filter.mp hd).1).1) hb
  split at h
  · rw [← Except.ok.inj h] at hb
    exact htried (fun d hd => (List.mem_filter.mp (List.mem_filter.mp hd).1).1) hb
  split at h
  · rw [← Except.ok.inj h] at hb
    simp at hb
  rename_i best hbest
  have hfits : best ∈ fitting := (List.mem_filter.mp (least_mem hbest)).1
  split at h
  · rw [← Except.ok.inj h, List.mem_singleton] at hb
    rw [hb]
    exact ⟨hfits, fun job hjob => hjob⟩
  · unfold Costs.splitOrSame at h
    obtain ⟨assign, hassign, h⟩ := bind_eq_ok.mp h
    simp only at h
    split at h
    · rw [← pure_eq_ok.mp h] at hb
      obtain ⟨entry, hentry, rfl⟩ := List.mem_map.mp hb
      obtain ⟨hdevice, hmembers⟩ := greedySplit_spec hassign entry hentry
      exact ⟨(List.mem_filter.mp hdevice).1, hmembers⟩
    · rw [← pure_eq_ok.mp h, List.mem_singleton] at hb
      rw [hb]
      exact ⟨hfits, fun job hjob => hjob⟩

/-- What placed a batch: the force of the group, or a verdict on its first member. -/
structure PlacedBy (c : Costs) (snaps : Roster Snapshot) (t0 : FleetTask) (jobs : List FleetTask)
    (batch : PlacedBatch) : Prop where
  members : ∀ job ∈ batch.jobs, job ∈ jobs
  verdict : ∃ s, snaps.get batch.device = some s ∧
    ((forcedDevices jobs = [batch.device] ∧ fits c t0 batch.device s true = .ok ()) ∨
      (forcedDevices jobs = [] ∧ batch.device ∈ candidateDevices t0 ∧
        fits c t0 batch.device s false = .ok ()))

theorem assignGroup_spec {t0 : FleetTask} {rest : List FleetTask}
    (h : c.assignGroup snaps backlog (t0 :: rest) = .ok batches) (hb : batch ∈ batches) :
    PlacedBy c snaps t0 (t0 :: rest) batch := by
  unfold Costs.assignGroup at h
  simp only at h
  cases hforced : forcedDevices (t0 :: rest) with
  | cons device others =>
    cases others with
    | nil =>
      rw [hforced] at h
      rw [← Except.ok.inj h] at hb
      unfold Costs.placeForced at hb
      cases hget : snaps.get device with
      | none => simp [hget] at hb
      | some s =>
        simp only [hget] at hb
        split at hb
        · rename_i hfits
          have hfits := toBool_unit_iff.mp hfits
          rw [List.mem_singleton] at hb
          subst hb
          exact ⟨fun job hjob => hjob, s, hget, .inl ⟨hforced, hfits⟩⟩
        · simp at hb
    | cons device' others =>
      rw [hforced] at h
      rw [← Except.ok.inj h] at hb
      simp at hb
  | nil =>
    rw [hforced] at h
    simp only at h
    have hspec : batch.device ∈ c.fittingDevices t0 snaps ∧
        ∀ job ∈ batch.jobs, job ∈ t0 :: rest := by
      split at h
      · rw [← Except.ok.inj h] at hb
        simp at hb
      · rename_i device hfitting
        rw [← Except.ok.inj h, List.mem_singleton] at hb
        rw [hb, hfitting]
        exact ⟨List.mem_singleton_self _, fun job hjob => hjob⟩
      · exact choose_spec h hb
    obtain ⟨hcandidate, s, hget, hfits⟩ := mem_fittingDevices.mp hspec.1
    exact ⟨hspec.2, s, hget, .inr ⟨hforced, hcandidate, hfits⟩⟩

/-- Only the split of several unforced jobs can raise. -/
theorem assignGroup_returns {t0 : FleetTask} {rest : List FleetTask}
    (h : rest = [] ∨ forcedDevices (t0 :: rest) ≠ []) :
    ∃ batches, c.assignGroup snaps backlog (t0 :: rest) = .ok batches := by
  unfold Costs.assignGroup
  simp only
  cases hforced : forcedDevices (t0 :: rest) with
  | cons device others => cases others <;> simp
  | nil =>
    obtain rfl : rest = [] := h.resolve_right (by simp [hforced])
    simp only
    split
    · simp
    · simp
    · unfold Costs.choose
      simp only
      split
      · simp
      split
      · simp
      split
      · simp
      split <;> simp

/-- Compatible tasks are one group for the planner. -/
theorem planJobs_compatible {g : Group} (h : ∀ job ∈ g.tasks, Compatible g.head job) :
    c.planJobs snaps backlog g.tasks = c.assignGroup snaps backlog g.tasks := by
  have hkey : ∀ job ∈ g.tasks, (job.taskName, optionBucket job, job.requires) =
      (g.head.taskName, optionBucket g.head, g.head.requires) := by
    intro job hjob
    obtain ⟨-, -, -, hname, hrequires, -, -, hbucket, hstatus, -⟩ := h job hjob
    simp [optionBucket, hname, hrequires, hbucket, hstatus]
  unfold Costs.planJobs
  rw [groupOn_uniform g.tasks_ne_nil hkey]
  cases hassign : c.assignGroup snaps backlog g.tasks <;>
    simp [List.mapM_cons, bind, Except.bind, pure, Except.pure, hassign]

/-! ## Candidates -/

theorem mem_candidateDevices (h : device ∈ candidateDevices t) (hforce : t.forceDevice = none) :
    ∃ adapter, frozenAdapter t device = some adapter ∧ ∀ engine ∈ t.engine,
      adapter.engine = engine := by
  unfold candidateDevices at h
  rw [hforce] at h
  split at h
  · simp at h
  · cases hengine : t.engine with
    | none =>
      rw [hengine] at h
      obtain ⟨adapter, hadapter⟩ := Dict.get_of_mem_keys h
      exact ⟨adapter, hadapter, by simp⟩
    | some engine =>
      rw [hengine] at h
      obtain ⟨⟨name, adapter⟩, hrow, rfl⟩ := List.mem_map.mp h
      obtain ⟨hrow, hsame⟩ := List.mem_filter.mp hrow
      exact ⟨adapter, Dict.get_eq_some.mpr ⟨name, hrow, rfl⟩, by simpa using hsame⟩

theorem mem_candidateNames :
    device ∈ candidateNames t ↔ device ∈ knownCandidates t ∧ device ∉ excludedDevices t := by
  simp [candidateNames]

/-- A candidate of a verified task never has a foreign engine. -/
theorem engineFor_candidate {specs : String → Option TaskSpec} (ht : Verified specs t)
    (h : device ∈ candidateNames t) : ∃ engine, engineFor t device = .ok engine := by
  have hknown := (mem_candidateNames.mp h).1
  have hadapter : frozenAdapter t device = none ∨ ∃ adapter, frozenAdapter t device = some adapter ∧
      ∀ engine ∈ t.engine, adapter.engine = engine := by
    unfold knownCandidates at hknown
    cases hforce : t.forceDevice with
    | none =>
      rw [hforce] at hknown
      exact .inr (mem_candidateDevices hknown hforce)
    | some forced =>
      rw [hforce, List.mem_singleton] at hknown
      subst hknown
      cases hcommand : t.prepared.isCommand with
      | true =>
        refine .inl ?_
        unfold frozenAdapter FleetTask.adapters
        rw [ht.command hcommand]
        rfl
      | false =>
        obtain ⟨adapter, hget, hengine⟩ := ht.adapter hcommand device hforce
        exact .inr ⟨adapter, hget, fun engine he => (hengine engine he).symm⟩
  unfold engineFor
  rcases hadapter with hnone | ⟨adapter, hget, hengine⟩
  · rw [hnone]
    cases t.engine <;> simp
  · rw [hget]
    cases he : t.engine with
    | none => simp
    | some engine => simp [hengine engine he]

/-! ## The cache -/

/-- Every entry of the first cache is one of the second. -/
def Extends (a b : Roster Snapshot) : Prop := ∀ d s, a.get d = some s → b.get d = some s

namespace Tick

variable {t : Tick} {groups : List Group} {cache cache' start : Roster Snapshot} {g : Group}
  {name : String}

/-- Every cached snapshot was built with the adapters of a group that asked for the device. -/
def Sourced (t : Tick) (groups : List Group) (cache : Roster Snapshot) : Prop :=
  ∀ d s, cache.get d = some s → ∃ g ∈ groups, ∃ dev reclaimed, t.devices.get d = some dev ∧
    (d ∈ candidateNames g.head ∨ t.reclaimable d dev = true ∧ g.head.spec ≠ none) ∧
    s = t.buildSnapshot reclaimed d dev (probeAdapterSpecs g.head d)

/-- The cache only grew, by snapshots of the groups. -/
structure CacheInv (t : Tick) (groups : List Group) (start cache : Roster Snapshot) : Prop where
  grown : Extends start cache
  sourced : t.Sourced groups cache

theorem Sourced.set (h : t.Sourced groups cache) (hg : g ∈ groups) {dev : DeviceConf}
    (hdev : t.devices.get name = some dev)
    (hasks : name ∈ candidateNames g.head ∨
      t.reclaimable name dev = true ∧ g.head.spec ≠ none) (reclaimed : Bool) :
    t.Sourced groups
      (cache.set name (t.buildSnapshot reclaimed name dev (probeAdapterSpecs g.head name))) := by
  intro d s hget
  rw [Dict.get_set] at hget
  split at hget
  · rename_i hd
    have hd : d = name := hd
    subst hd
    exact ⟨g, hg, dev, reclaimed, hdev, hasks, (Option.some.inj hget).symm⟩
  · exact h d s hget

theorem get_run {ε σ : Type} (s : σ) : (EStateM.get : EStateM ε σ σ) s = .ok s s := rfl

theorem modifyGet_run {ε σ α : Type} (f : σ → α × σ) (s : σ) :
    (EStateM.modifyGet f : EStateM ε σ α) s = .ok (f s).1 (f s).2 := rfl

theorem snapshotOf_run (t : Tick) (name : String) (specs : List Adapter)
    (cache : Roster Snapshot) : t.snapshotOf name specs cache =
      match cache.get name, t.devices.get name with
      | some s, _ => .ok (some s) cache
      | none, none => .ok none cache
      | none, some dev => .ok (some (t.buildSnapshot false name dev specs))
          (cache.set name (t.buildSnapshot false name dev specs)) := by
  unfold snapshotOf
  cases hget : cache.get name with
  | some s =>
    simp [bind, EStateM.bind, get, getThe, MonadStateOf.get, get_run, hget, pure, EStateM.pure]
  | none =>
    cases hdev : t.devices.get name with
    | none =>
      simp [bind, EStateM.bind, get, getThe, MonadStateOf.get, get_run, hget, pure,
        EStateM.pure]
    | some dev =>
      simp [bind, EStateM.bind, get, getThe, MonadStateOf.get, get_run, hget, pure,
        EStateM.pure, modify, modifyGet, MonadStateOf.modifyGet, modifyGet_run]

/-- The answer is the cached entry; there is one for every configured device. -/
theorem snapshotOf_spec (hg : g ∈ groups) (hname : name ∈ candidateNames g.head) :
    Triple (CacheInv t groups start) (t.snapshotOf name (probeAdapterSpecs g.head name))
      (fun answer cache => CacheInv t groups start cache ∧ answer = cache.get name ∧
        (answer = none → t.devices.get name = none)) fun _ _ => False := by
  intro cache h
  rw [snapshotOf_run]
  cases hget : cache.get name with
  | some s => exact ⟨h, hget.symm, by simp⟩
  | none =>
    cases hdev : t.devices.get name with
    | none => exact ⟨h, hget.symm, fun _ => rfl⟩
    | some dev =>
      refine ⟨⟨fun d s hd => ?_, h.sourced.set hg hdev (.inl hname) false⟩, ?_, by simp⟩
      · have hcached := h.grown d s hd
        rw [Dict.get_set, if_neg]
        · exact hcached
        · intro heq
          have heq : d = name := heq
          rw [heq, hget] at hcached
          simp at hcached
      · rw [Dict.get_set_self]

/-- The devices whose snapshots a group is placed against. -/
def Considers (t : Tick) (used : List String) (head : FleetTask) (d : String) : Prop :=
  d ∈ candidateNames head ∧ d ∉ used ∧ ∃ engine, engineFor head d = .ok engine ∧
    t.isCooled d engine = false

theorem Considers.unused {used : List String} {head : FleetTask} {d : String}
    (h : t.Considers used head d) : t.Considers [] head d := ⟨h.1, by simp, h.2.2⟩

/-- The collected snapshots are the cached ones of exactly the considered devices. -/
structure Collected (t : Tick) (used : List String) (head : FleetTask)
    (snaps cache : Roster Snapshot) : Prop where
  sound : ∀ d s, snaps.get d = some s → t.Considers used head d ∧ cache.get d = some s
  complete : ∀ d dev, t.Considers used head d → t.devices.get d = some dev →
    ∃ s, snaps.get d = some s

theorem Extends.refl (cache : Roster Snapshot) : Extends cache cache := fun _ _ => id

theorem Extends.trans (h : Extends start cache) (h' : Extends cache cache') :
    Extends start cache' := fun d s hd => h' d s (h d s hd)

/-- What is collected so far; the invariant of the loop over the candidates. -/
structure CollectInv (t : Tick) (groups : List Group) (start : Roster Snapshot)
    (used : List String) (head : FleetTask) (done : List String)
    (snaps cache : Roster Snapshot) : Prop where
  inv : CacheInv t groups start cache
  cached : Extends snaps cache
  considered : ∀ d s, snaps.get d = some s → t.Considers used head d
  complete : ∀ d ∈ done, ∀ dev, t.Considers used head d → t.devices.get d = some dev →
    ∃ s, snaps.get d = some s

theorem collect_spec (hg : g ∈ groups) (used : List String)
    (hengine : ∀ d ∈ candidateNames g.head, ∃ engine, engineFor g.head d = .ok engine) :
    Triple (CacheInv t groups start) (t.collect used g.head) (fun snaps cache =>
      CacheInv t groups start cache ∧ Collected t used g.head snaps cache) fun _ _ => False := by
  have hloop : Triple (CollectInv t groups start used g.head [] Dict.empty)
      (t.collect used g.head) (CollectInv t groups start used g.head (candidateNames g.head))
      fun _ _ => False := by
    refine triple_foldlM (CollectInv t groups start used g.head)
      fun done name rest snaps hsplit => ?_
    have hname : name ∈ candidateNames g.head := by simp [hsplit]
    obtain ⟨engine, hengine⟩ := hengine name hname
    rw [hengine]
    refine triple_bind (R := fun e cache => e = engine ∧
      CollectInv t groups start used g.head done snaps cache)
      (triple_ofExcept (fun e he cache h => ⟨(Except.ok.inj he).symm, h⟩) (by simp)) fun e => ?_
    refine triple_of_pure fun he => ?_
    subst he
    split
    · -- cooled or used: the name is passed over
      rename_i hskip
      refine triple_pure fun cache h => ⟨h.inv, h.cached, h.considered, fun d hd dev hcons => ?_⟩
      rcases List.mem_append.mp hd with hd | hd
      · exact h.complete d hd dev hcons
      · rw [List.mem_singleton] at hd
        subst hd
        obtain ⟨-, hunused, e', he', hcool⟩ := hcons
        rw [hengine] at he'
        cases he'
        simp [hcool, hunused] at hskip
    · rename_i htake
      have hcons : t.Considers used g.head name := by
        refine ⟨hname, ?_, e, hengine, ?_⟩ <;> simp_all
      refine triple_bind (R := fun answer cache =>
        CollectInv t groups start used g.head done snaps cache ∧ answer = cache.get name ∧
          (answer = none → t.devices.get name = none)) ?_ fun answer => ?_
      · refine triple_of_each (R := fun cache answer cache' => CacheInv t groups cache cache' ∧
          answer = cache'.get name ∧ (answer = none → t.devices.get name = none))
          (fun cache h => (snapshotOf_spec hg hname).pre fun _ heq => ?_)
          fun cache answer cache' h hpost => ?_
        · subst heq
          exact ⟨Extends.refl _, h.inv.sourced⟩
        · exact ⟨⟨⟨Extends.trans h.inv.grown hpost.1.grown, hpost.1.sourced⟩,
            Extends.trans h.cached hpost.1.grown, h.considered, h.complete⟩, hpost.2⟩
      · cases answer with
        | none =>
          refine triple_pure fun cache h => ?_
          obtain ⟨h, -, hnone⟩ := h
          refine ⟨h.inv, h.cached, h.considered, fun d hd dev hcons hdev => ?_⟩
          rcases List.mem_append.mp hd with hd | hd
          · exact h.complete d hd dev hcons hdev
          · rw [List.mem_singleton] at hd
            rw [hd, hnone rfl] at hdev
            simp at hdev
        | some s =>
          refine triple_pure fun cache h => ?_
          obtain ⟨h, hanswer, -⟩ := h
          refine ⟨h.inv, fun d s' hget => ?_, fun d s' hget => ?_, fun d hd dev hcons hdev => ?_⟩
          · rw [Dict.get_set] at hget
            split at hget
            · rename_i heq
              have heq : d = name := heq
              rw [heq, ← hanswer, hget]
            · exact h.cached d s' hget
          · rw [Dict.get_set] at hget
            split at hget
            · rename_i heq
              have heq : d = name := heq
              rwa [heq]
            · exact h.considered d s' hget
          · rw [Dict.get_set]
            split
            · exact ⟨s, rfl⟩
            · rename_i hne
              rcases List.mem_append.mp hd with hd | hd
              · exact h.complete d hd dev hcons hdev
              · exact absurd (List.mem_singleton.mp hd) hne
  refine hloop.conseq (fun cache h => ⟨h, ?_, ?_, ?_⟩) (fun snaps cache h => ⟨h.inv, ?_, ?_⟩)
    fun _ _ => id
  · intro d s hget
    simp at hget
  · intro d s hget
    simp at hget
  · simp
  · exact fun d s hget => ⟨h.considered d s hget, h.cached d s hget⟩
  · exact fun d dev hcons hdev => h.complete d hcons.1 dev hcons hdev

/-! ## The steps of planning -/

section Steps
variable {E : String → Roster Snapshot → Prop}

theorem reclaimSpecs_ok {specs : List Adapter} (h : reclaimSpecs groups name = .ok specs) :
    ∃ g, groups.getLast? = some g ∧ g.head.spec ≠ none ∧
      specs = probeAdapterSpecs g.head name := by
  unfold reclaimSpecs at h
  cases hlast : groups.getLast? with
  | none => simp [hlast] at h
  | some g =>
    rw [hlast] at h
    simp only at h
    cases hspec : g.head.spec with
    | none => simp [hspec] at h
    | some spec =>
      rw [hspec] at h
      exact ⟨g, rfl, by simp [hspec], (Except.ok.inj h).symm⟩

/-- Reclaiming leaves snapshots of the group that the loop ended with. -/
theorem reclaimMarginalDevices_spec {sources : List Group}
    (hlast : ∀ g, groups.getLast? = some g → g ∈ sources)
    (hraise : ∀ e cache, (∃ name, reclaimSpecs groups name = .error e) → E e cache) :
    Triple (t.Sourced sources) (t.reclaimMarginalDevices groups) (fun _ => t.Sourced sources) E := by
  refine triple_forM fun row hrow => ?_
  have hdev : t.devices.get row.1 = some row.2 := Dict.get_eq_some.mpr ⟨row.1, hrow, rfl⟩
  split
  · rename_i hneed
    have hreclaim : t.reclaimable row.1 row.2 = true := by simp_all
    unfold reclaimDevice
    refine triple_bind (R := fun specs cache => (∃ g ∈ sources, g.head.spec ≠ none ∧
      specs = probeAdapterSpecs g.head row.1) ∧ t.Sourced sources cache)
      (triple_ofExcept (fun specs hspecs cache h => ?_) fun e he cache _ =>
        hraise e cache ⟨row.1, he⟩) fun specs => ?_
    · obtain ⟨g, hg, hspec, hspecs⟩ := reclaimSpecs_ok hspecs
      exact ⟨⟨g, hlast g hg, hspec, hspecs⟩, h⟩
    · refine triple_of_pure fun hspecs => ?_
      obtain ⟨g, hg, hspec, rfl⟩ := hspecs
      refine triple_bind (R := fun _ => t.Sourced sources)
        (triple_modify fun cache h => h.set hg hdev (.inr ⟨hreclaim, hspec⟩) false) fun _ => ?_
      split
      · exact triple_modify fun cache h => h.set hg hdev (.inr ⟨hreclaim, hspec⟩) true
      · exact triple_pure fun _ => id
  · exact triple_pure fun _ => id

theorem constraintKey_spec (hg : g ∈ groups)
    (hengine : ∀ d ∈ candidateNames g.head, ∃ engine, engineFor g.head d = .ok engine) :
    Triple (CacheInv t groups start) (t.constraintKey g) (fun _ => CacheInv t groups start) E := by
  refine triple_bind (R := fun _ => CacheInv t groups start) ?_ fun key =>
    triple_pure fun _ => id
  refine triple_foldlM (fun _ _ => CacheInv t groups start) fun done name rest key hsplit => ?_
  have hname : name ∈ candidateNames g.head := by simp [hsplit]
  obtain ⟨engine, hengine⟩ := hengine name hname
  refine triple_bind (R := fun _ => CacheInv t groups start)
    (triple_ofExcept (fun _ _ _ => id) (by simp [hengine])) fun e => ?_
  split
  · exact triple_pure fun _ => id
  · refine triple_bind (R := fun _ => CacheInv t groups start)
      ((snapshotOf_spec hg hname).conseq (fun _ => id) (fun _ _ h => h.1) fun _ _ => False.elim)
      fun answer => ?_
    cases answer with
    | none => exact triple_pure fun _ => id
    | some s =>
      simp only
      split
      · exact triple_pure fun _ => id
      · exact triple_pure fun _ => id

/-- The orders that the groups are tried in: all, or one that has every group. -/
def Ordered (groups : List Group) (orders : List (List Group)) : Prop :=
  orders = Selection.orders groups.length groups ∨
    ∃ order, orders = [order] ∧ ∀ g, g ∈ order ↔ g ∈ groups

theorem Ordered.subset {orders : List (List Group)} (h : Ordered groups orders)
    {order : List Group} (horder : order ∈ orders) (hg : g ∈ order) : g ∈ groups := by
  rcases h with rfl | ⟨only, rfl, hsame⟩
  · exact orders_subset horder hg
  · rw [List.mem_singleton] at horder
    subst horder
    exact (hsame g).mp hg

theorem ordersOf_spec (hengine : ∀ g ∈ groups, ∀ d ∈ candidateNames g.head,
      ∃ engine, engineFor g.head d = .ok engine) :
    Triple (CacheInv t groups start) (t.ordersOf groups)
      (fun orders cache => CacheInv t groups start cache ∧ Ordered groups orders) E := by
  unfold ordersOf
  split
  · exact triple_pure fun cache h => ⟨h, .inl rfl⟩
  · refine triple_bind (R := fun keyed cache => CacheInv t groups start cache ∧
      keyed.map Prod.snd = groups) ?_ fun keyed => triple_pure fun cache h => ⟨h.1, .inr ⟨_, rfl, ?_⟩⟩
    · refine (triple_foldlM (fun done (keyed : List ((Nat × Option ℚ) × Group)) cache =>
        CacheInv t groups start cache ∧ keyed.map Prod.snd = done) fun done g rest keyed hsplit => ?_).pre fun cache h => ⟨h, rfl⟩
      have hg : g ∈ groups := by simp [hsplit]
      refine triple_of_pure_right fun hkeyed => ?_
      refine triple_bind (constraintKey_spec hg (hengine g hg)) fun key => ?_
      exact triple_pure fun cache h => ⟨h, by simp [hkeyed]⟩
    · intro g
      rw [← h.2]
      simp only [List.mem_map, List.mem_mergeSort]

/-- A planned batch was placed against cached snapshots of devices that its group considers. -/
def PlannedFrom (t : Tick) (groups : List Group) (cache : Roster Snapshot) (item : Planned) :
    Prop :=
  item.group ∈ groups ∧ ∃ snaps timeline batches,
    (∀ d s, snaps.get d = some s → t.Considers [] item.group.head d ∧ cache.get d = some s) ∧
    t.costs.planJobs snaps timeline item.group.tasks = .ok batches ∧ item.batch ∈ batches

theorem PlannedFrom.mono {item : Planned} (h : t.PlannedFrom groups cache item)
    (hext : Extends cache cache') : t.PlannedFrom groups cache' item := by
  obtain ⟨hg, snaps, timeline, batches, hsnaps, hplan, hmem⟩ := h
  exact ⟨hg, snaps, timeline, batches,
    fun d s hd => ⟨(hsnaps d s hd).1, hext d s (hsnaps d s hd).2⟩, hplan, hmem⟩

/-- The invariant of a simulation. -/
structure PlanInv (t : Tick) (groups : List Group) (start : Roster Snapshot) (plan : Plan)
    (cache : Roster Snapshot) : Prop where
  inv : CacheInv t groups start cache
  planned : ∀ item ∈ plan.planned, t.PlannedFrom groups cache item

theorem mem_addBatch {plan : Plan} {batch : PlacedBatch} {item : Planned}
    (h : item ∈ (t.addBatch g plan batch).planned) : item ∈ plan.planned ∨ item = ⟨g, batch⟩ := by
  unfold addBatch at h
  split at h
  · exact .inl h
  · simpa using h

theorem mem_foldl_addBatch {plan : Plan} {batches : List PlacedBatch} {item : Planned}
    (h : item ∈ (batches.foldl (t.addBatch g) plan).planned) :
    item ∈ plan.planned ∨ item.group = g ∧ item.batch ∈ batches := by
  induction batches generalizing plan with
  | nil => exact .inl h
  | cons batch rest ih =>
    rcases ih h with hitem | ⟨hgroup, hbatch⟩
    · rcases mem_addBatch hitem with hitem | rfl
      · exact .inl hitem
      · exact .inr ⟨rfl, List.mem_cons_self⟩
    · exact .inr ⟨hgroup, List.mem_cons_of_mem _ hbatch⟩

theorem simulateGroup_spec {plan : Plan} (hg : g ∈ groups)
    (hengine : ∀ d ∈ candidateNames g.head, ∃ engine, engineFor g.head d = .ok engine)
    (hraise : ∀ snaps timeline e cache, t.costs.planJobs snaps timeline g.tasks = .error e →
      E e cache) :
    Triple (PlanInv t groups start plan) (t.simulateGroup plan g) (PlanInv t groups start) E := by
  unfold simulateGroup
  split
  · exact triple_pure fun _ => id
  · refine triple_bind (R := fun snaps cache => PlanInv t groups start plan cache ∧
      Collected t plan.usedDevices g.head snaps cache) ?_ fun snaps => ?_
    · refine triple_of_each (R := fun cache snaps cache' => CacheInv t groups cache cache' ∧
        Collected t plan.usedDevices g.head snaps cache') (fun cache h => ?_)
        fun cache snaps cache' h hpost => ?_
      · refine (collect_spec hg plan.usedDevices hengine).conseq (fun _ heq => ?_)
          (fun _ _ => id) fun _ _ => False.elim
        subst heq
        exact ⟨Extends.refl _, h.inv.sourced⟩
      · exact ⟨⟨⟨Extends.trans h.inv.grown hpost.1.grown, hpost.1.sourced⟩,
          fun item hitem => (h.planned item hitem).mono hpost.1.grown⟩, hpost.2⟩
    · split
      · exact triple_pure fun _ h => h.1
      · refine triple_bind (R := fun batches cache => PlanInv t groups start plan cache ∧
          Collected t plan.usedDevices g.head snaps cache ∧
          t.costs.planJobs snaps plan.timeline g.tasks = .ok batches)
          (triple_ofExcept (fun batches hbatches cache h => ⟨h.1, h.2, hbatches⟩)
            fun e he cache _ => hraise _ _ e cache he) fun batches => ?_
        refine triple_pure fun cache h => ⟨h.1.inv, fun item hitem => ?_⟩
        rcases mem_foldl_addBatch hitem with hitem | ⟨rfl, hbatch⟩
        · exact h.1.planned item hitem
        · exact ⟨hg, snaps, plan.timeline, batches,
            fun d s hd => ⟨(h.2.1.sound d s hd).1.unused, (h.2.1.sound d s hd).2⟩, h.2.2, hbatch⟩

theorem simulate_spec {order : List Group} (horder : ∀ g ∈ order, g ∈ groups)
    (hengine : ∀ g ∈ groups, ∀ d ∈ candidateNames g.head,
      ∃ engine, engineFor g.head d = .ok engine)
    (hraise : ∀ g ∈ groups, ∀ snaps timeline e cache,
      t.costs.planJobs snaps timeline g.tasks = .error e → E e cache) :
    Triple (CacheInv t groups start) (t.simulate order) (PlanInv t groups start) E := by
  refine (triple_foldlM (fun _ plan => PlanInv t groups start plan)
    fun done g rest plan hsplit => ?_).pre fun cache h => ⟨h, by simp⟩
  have hg : g ∈ groups := horder g (by simp [hsplit])
  exact simulateGroup_spec hg (hengine g hg) (hraise g hg)

theorem better_cases (best : Option Plan) (next : Plan) :
    Plan.better best next = next ∨ best = some (Plan.better best next) := by
  unfold Plan.better
  cases best with
  | none => exact .inl rfl
  | some q =>
    simp only
    split
    · exact .inl rfl
    · exact .inr rfl

theorem bestPlan_spec {orders : List (List Group)}
    (horders : ∀ order ∈ orders, ∀ g ∈ order, g ∈ groups)
    (hengine : ∀ g ∈ groups, ∀ d ∈ candidateNames g.head,
      ∃ engine, engineFor g.head d = .ok engine)
    (hraise : ∀ g ∈ groups, ∀ snaps timeline e cache,
      t.costs.planJobs snaps timeline g.tasks = .error e → E e cache) :
    Triple (CacheInv t groups start) (t.bestPlan orders) (fun best cache =>
      CacheInv t groups start cache ∧
        ∀ plan, best = some plan → PlanInv t groups start plan cache) E := by
  refine (triple_foldlM (fun _ best cache => CacheInv t groups start cache ∧
    ∀ plan, best = some plan → PlanInv t groups start plan cache)
    fun done order rest best hsplit => ?_).pre fun cache h => ⟨h, by simp⟩
  have horder : ∀ g ∈ order, g ∈ groups := horders order (by simp [hsplit])
  refine triple_bind (R := fun next cache => PlanInv t groups start next cache ∧
    ∀ plan, best = some plan → PlanInv t groups start plan cache) ?_ fun next => ?_
  · refine triple_of_each (R := fun cache next cache' => PlanInv t groups cache next cache')
      (fun cache h => ?_) fun cache next cache' h hpost => ?_
    · refine (simulate_spec horder hengine hraise).pre fun _ heq => ?_
      subst heq
      exact ⟨Extends.refl _, h.1.sourced⟩
    · have hinv : CacheInv t groups start cache' :=
        ⟨Extends.trans h.1.grown hpost.inv.grown, hpost.inv.sourced⟩
      exact ⟨⟨hinv, hpost.planned⟩, fun plan hplan =>
        ⟨hinv, fun item hitem => ((h.2 plan hplan).planned item hitem).mono hpost.inv.grown⟩⟩
  · refine triple_pure fun cache h => ⟨h.1.inv, fun plan hplan => ?_⟩
    rw [Option.some.injEq] at hplan
    rcases better_cases best next with hnext | hbest
    · rw [← hplan, hnext]
      exact h.1
    · exact h.2 plan (by rw [← hplan, ← hbest])

theorem planGroups_spec
    (hengine : ∀ g ∈ groups, ∀ d ∈ candidateNames g.head,
      ∃ engine, engineFor g.head d = .ok engine)
    (hraise : ∀ g ∈ groups, ∀ snaps timeline e cache,
      t.costs.planJobs snaps timeline g.tasks = .error e → E e cache) :
    Triple (CacheInv t groups start) (t.planGroups groups) (fun planned cache =>
      CacheInv t groups start cache ∧ ∀ item ∈ planned, t.PlannedFrom groups cache item) E := by
  refine triple_bind (ordersOf_spec hengine) fun orders => ?_
  refine triple_of_pure_right fun hordered => ?_
  refine triple_bind (bestPlan_spec (fun order horder g hg => hordered.subset horder hg)
    hengine hraise) fun best => ?_
  refine triple_pure fun cache h => ⟨h.1, fun item hitem => ?_⟩
  cases best with
  | none => simp at hitem
  | some plan => exact (h.2 plan rfl).planned item hitem

theorem plan_spec
    (hengine : ∀ g ∈ groups, ∀ d ∈ candidateNames g.head,
      ∃ engine, engineFor g.head d = .ok engine)
    (hreclaim : ∀ e cache, (∃ name, reclaimSpecs groups name = .error e) → E e cache)
    (hraise : ∀ g ∈ groups, ∀ snaps timeline e cache,
      t.costs.planJobs snaps timeline g.tasks = .error e → E e cache) :
    Triple (t.Sourced groups) (t.plan groups) (fun planned cache => t.Sourced groups cache ∧
      ∀ item ∈ planned, t.PlannedFrom groups cache item) E := by
  refine triple_bind (reclaimMarginalDevices_spec (fun g => List.mem_of_getLast?) hreclaim)
    fun _ => ?_
  have hstart : ∀ cache, t.Sourced groups cache → CacheInv t groups Dict.empty cache :=
    fun cache h => ⟨fun d s hd => by simp at hd, h⟩
  exact (planGroups_spec hengine hraise).conseq hstart (fun planned cache h => ⟨h.1.sourced, h.2⟩)
    fun _ _ => id

end Steps

/-! ## The whole tick -/

theorem groups_engine {q : Queue} (hg : g ∈ t.groups q) {d : String}
    (hd : d ∈ candidateNames g.head) : ∃ engine, engineFor g.head d = .ok engine :=
  engineFor_candidate (t.mem_group hg List.mem_cons_self).1.verified hd

theorem sourced_empty : t.Sourced groups Dict.empty := fun d s hd => by simp at hd

/-- What holds of the plan holds of the outcome of the tick. -/
theorem drain_post {q : Queue} {o : Outcome} {Q : List Planned → Roster Snapshot → Prop}
    (hplan : Triple (· = Dict.empty) (t.plan (t.groups q)) Q fun _ _ => True)
    (h : t.drain q = .ok o) :
    Q o.planned o.snapshots ∧ o.groups = t.groups q ∧ o.claimed = t.claims 0 [] o.planned := by
  unfold drain at h
  cases hrun : (t.plan (t.groups q)).run Dict.empty with
  | error e cache => simp [hrun] at h
  | ok planned snapshots =>
    rw [hrun] at h
    rw [← Except.ok.inj h]
    exact ⟨hplan.ok rfl hrun, rfl, rfl⟩

theorem drain_spec {q : Queue} {o : Outcome} (h : t.drain q = .ok o) :
    o.groups = t.groups q ∧ t.Sourced o.groups o.snapshots ∧
      (∀ item ∈ o.planned, t.PlannedFrom o.groups o.snapshots item) ∧
      o.claimed = t.claims 0 [] o.planned := by
  have hplan : Triple (t.Sourced (t.groups q)) (t.plan (t.groups q)) (fun planned cache =>
      t.Sourced (t.groups q) cache ∧ ∀ item ∈ planned, t.PlannedFrom (t.groups q) cache item)
      fun _ _ => True :=
    plan_spec (fun g hg d => groups_engine hg) (fun _ _ _ => trivial) (fun _ _ _ _ _ _ _ => trivial)
  obtain ⟨⟨hsourced, hplanned⟩, hgroups, hclaimed⟩ :=
    drain_post (hplan.pre fun cache heq => heq ▸ sourced_empty) h
  rw [hgroups]
  exact ⟨rfl, hsourced, hplanned, hclaimed⟩

/-- A tick returns if nothing in it raises: a command that ends the loop of the reclaim, or a
split. -/
theorem drain_returns {q : Queue}
    (hreclaim : ∀ name, ∃ specs, reclaimSpecs (t.groups q) name = .ok specs)
    (hplan : ∀ g ∈ t.groups q, g.rest = [] ∨ forcedDevices g.tasks ≠ []) :
    ∃ o, t.drain q = .ok o := by
  have hreturns : Triple (t.Sourced (t.groups q)) (t.plan (t.groups q)) (fun planned cache =>
      t.Sourced (t.groups q) cache ∧ ∀ item ∈ planned, t.PlannedFrom (t.groups q) cache item)
      fun _ _ => False := by
    refine plan_spec (fun g hg d => groups_engine hg) (fun e cache h => ?_)
      fun g hg snaps timeline e cache herror => ?_
    · obtain ⟨name, herror⟩ := h
      obtain ⟨specs, hspecs⟩ := hreclaim name
      rw [hspecs] at herror
      simp at herror
    · rw [planJobs_compatible fun job hjob => t.group_compatible hg hjob] at herror
      obtain ⟨batches, hbatches⟩ : ∃ batches,
          t.costs.assignGroup snaps timeline (g.head :: g.rest) = .ok batches :=
        assignGroup_returns (hplan g hg)
      rw [Group.tasks, hbatches] at herror
      simp at herror
  obtain ⟨planned, cache, hrun, -⟩ := hreturns.returns sourced_empty
  exact ⟨_, by rw [drain, EStateM.run, hrun]⟩

theorem mem_claims {position : Nat} {claimed planned : List Planned} {item : Planned}
    (h : item ∈ t.claims position claimed planned) : item ∈ claimed ∨ item ∈ planned := by
  induction planned generalizing position claimed with
  | nil => exact .inl h
  | cons next rest ih =>
    unfold claims at h
    split at h
    · exact .inl h
    split at h
    · rcases ih h with hitem | hitem
      · rcases List.mem_append.mp hitem with hitem | hitem
        · exact .inl hitem
        · exact .inr (by simp_all)
      · exact .inr (List.mem_cons_of_mem _ hitem)
    · rcases ih h with hitem | hitem
      · exact .inl hitem
      · exact .inr (List.mem_cons_of_mem _ hitem)

end Tick

end Remrun.Fleet.Dispatch
