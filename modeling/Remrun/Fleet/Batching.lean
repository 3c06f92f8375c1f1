import Remrun.Fleet.SoloTick

/-!
# Batching and routing

A batch is placed by the verdict on the first member of its group. What has to agree between
the members for the others to be allowed on the device as well, and to be placed whenever they
would be without their siblings.
-/

namespace Remrun.Fleet.Dispatch

open Keyed Selection Effect
set_option autoImplicit false

variable {c : Costs} {t u v : FleetTask} {device : String}

/-- The facts of a task that no snapshot changes: it may go to the device, which has what it
requires. -/
structure Capable (t : FleetTask) (device : String) : Prop where
  candidate : device ∈ candidateNames t
  named : device ≠ ""
  provided : missingCapabilities t device = []

/-- Some job of the queue, not refused everywhere, has the paths that prove the engine of the
task on the device. -/
def Queue.Qualifies (q : Queue) (t : FleetTask) (device : String) : Prop :=
  ∃ w, q.Holds w ∧ Group.exhausted ⟨w, []⟩ = false ∧ ∃ adapter ∈ probeAdapterSpecs w device,
    engineFor t device = .ok adapter.engine ∧ adapter.capabilityPaths ≠ []

theorem Host.qualify_paths {h : Host} {paths : List String} {status : EngineStatus}
    (hstatus : h.qualify device paths = status) (hknown : status ≠ .unknown) : paths ≠ [] := by
  intro hnil
  subst hnil
  subst hstatus
  exact hknown (by simp [Host.qualify])

/-- Only an adapter that names paths is ever more than unknown. -/
theorem status_known {tick : Tick} {reclaimed : Bool} {dev : DeviceConf} {w : FleetTask}
    {engine : String}
    (h : (tick.buildSnapshot reclaimed device dev (probeAdapterSpecs w device)).status engine ≠
      .unknown) :
    ∃ adapter ∈ probeAdapterSpecs w device, adapter.engine = engine ∧
      adapter.capabilityPaths ≠ [] := by
  unfold Tick.buildSnapshot Snapshot.status at h
  split at h
  · simp at h
  · unfold probeAdapterSpecs at h ⊢
    cases hadapter : frozenAdapter w device with
    | none => simp [hadapter, Host.capabilityEngines] at h
    | some adapter =>
      simp only [hadapter, Option.toList_some, Host.capabilityEngines, List.foldl_cons,
        List.foldl_nil, Dict.get_set, Dict.get_empty] at h
      split at h
      · rename_i heq
        have heq : engine = adapter.engine := heq
        exact ⟨adapter, by simp, heq.symm, Host.qualify_paths rfl h⟩
      · simp at h

/-! ## What must agree -/

/-- The queued jobs that may share an invocation agree on what decides their routes: none whose
force was cleared is with one that is still forced while some device could serve it, and on
every device that could serve them they have one learned cost. -/
structure Queue.Homogeneous (q : Queue) : Prop where
  pins : ∀ u v, q.Holds u → q.Holds v → compatKey u = compatKey v → u.forceDevice = none →
    v.forceDevice ≠ none → ∀ d, Capable u d → v.forceDevice ≠ some d ∧ ¬ q.Qualifies u d
  costs : ∀ u v, q.Holds u → q.Holds v → compatKey u = compatKey v →
    u.forceDevice = v.forceDevice → ∀ d, Capable u d →
    (u.forceDevice = none → q.Qualifies u d) → preparedProfileKey u d = preparedProfileKey v d

/-- The queue states made of jobs of the queue, in any order. -/
structure Queue.DrawnFrom (q source : Queue) : Prop where
  specs : q.specs = source.specs
  rows : ∀ row ∈ q.rows, row ∈ source.rows

theorem Queue.DrawnFrom.holds {q source : Queue} (h : q.DrawnFrom source) (ht : q.Holds t) :
    source.Holds t := by
  obtain ⟨row, hrow, htask⟩ := ht
  exact ⟨row, h.rows row hrow, by rw [← h.specs, htask]⟩

theorem Queue.Homogeneous.drawn {q source : Queue} (h : source.Homogeneous)
    (hdrawn : q.DrawnFrom source) : q.Homogeneous := by
  have hqualifies : ∀ t d, q.Qualifies t d → source.Qualifies t d := by
    rintro t d ⟨w, hw, hadapter⟩
    exact ⟨w, hdrawn.holds hw, hadapter⟩
  refine ⟨fun u v hu hv hkey hnone hforced d hd => ?_, fun u v hu hv hkey hforce d hd hq => ?_⟩
  · obtain ⟨helsewhere, hnever⟩ :=
      h.pins u v (hdrawn.holds hu) (hdrawn.holds hv) hkey hnone hforced d hd
    exact ⟨helsewhere, fun hq => hnever (hqualifies u d hq)⟩
  · exact h.costs u v (hdrawn.holds hu) (hdrawn.holds hv) hkey hforce d hd
      fun hnone => hqualifies u d (hq hnone)

/-! ## Invisible batching -/

/-- The job alone would be allowed on the device, by the snapshots of the tick. -/
structure Allowed (tick : Tick) (snapshots : Roster Snapshot) (job : FleetTask) (device : String) :
    Prop where
  pin : job.forceDevice = none ∨ job.forceDevice = some device
  notExcluded : device ∉ excludedDevices job
  fits : ∃ s, snapshots.get device = some s ∧
    fits tick.costs job device s job.forceDevice.isSome = .ok ()

/-- The row is a job under the key that is still forced to a device. -/
def Queue.forcedSibling (q : Queue) (key : CompatKey) (row : QueuedRow) : Bool :=
  match rowToTask q.specs row with
  | .error _ => false
  | .ok sibling => compatKey sibling = key && sibling.forceDevice.isSome

/-- The queue without the jobs under the key that are still forced to a device. -/
def Queue.withoutForced (q : Queue) (key : CompatKey) : Queue where
  specs := q.specs
  rows := q.rows.filter fun row => !q.forcedSibling key row
  nodup := q.nodup.sublist (List.filter_sublist.map _)

def Tick.Outcome.Places (o : Tick.Outcome) (jobId device : String) : Prop :=
  ∃ item ∈ o.claimed, item.batch.device = device ∧
    ∃ job ∈ item.batch.jobs, job.queueJobId = jobId

/-- A job whose force was cleared stays unplaced, and the same tick would place it on a device
other than its sibling's if the siblings that are still forced were not queued. -/
def Tick.LeavesBehind (tick : Tick) (q : Queue) (u : FleetTask) : Prop :=
  u.forceDevice = none ∧ u.prepared.routing.forceDevice ≠ none ∧
    (∃ o, tick.drain q = .ok o ∧ ∀ d, ¬ o.Places u.queueJobId d) ∧
    ∃ o d, tick.drain (q.withoutForced (compatKey u)) = .ok o ∧ o.Places u.queueJobId d ∧
      ∃ v, q.Holds v ∧ compatKey v = compatKey u ∧ v.forceDevice ≠ none ∧
        v.forceDevice ≠ some d

structure Tick.Invisible (tick : Tick) (q : Queue) : Prop where
  allowed : ∀ o, tick.drain q = .ok o → ∀ item ∈ o.claimed, ∀ job ∈ item.batch.jobs,
    Allowed tick o.snapshots job item.batch.device
  placed : ∀ u, q.Holds u → ¬ tick.LeavesBehind q u

/-! ## Homogeneous groups -/

theorem mem_candidateNames_of_adapter (hcommand : t.prepared.isCommand = false)
    (hforce : t.forceDevice = none) {adapter : Adapter}
    (hadapter : frozenAdapter t device = some adapter) {engine : String}
    (hengine : engineFor t device = .ok engine) (hexcluded : device ∉ excludedDevices t) :
    device ∈ candidateNames t := by
  refine mem_candidateNames.mpr ⟨?_, hexcluded⟩
  unfold knownCandidates candidateDevices
  rw [hforce, hcommand]
  simp only [Bool.false_eq_true, if_false]
  obtain ⟨name, hrow, hname⟩ := Dict.get_eq_some.mp hadapter
  have hname : name = device := hname
  subst hname
  cases he : t.engine with
  | none => exact List.mem_map_of_mem hrow
  | some requested =>
    refine List.mem_map.mpr ⟨(name, adapter), List.mem_filter.mpr ⟨hrow, ?_⟩, rfl⟩
    unfold engineFor at hengine
    rw [he, hadapter] at hengine
    by_contra hne
    simp_all

theorem mem_forcedDevices {jobs : List FleetTask} {d : String} :
    d ∈ forcedDevices jobs ↔ ∃ job ∈ jobs, job.forceDevice = some d := by
  simp [forcedDevices]

/-- A command shares its key with nothing. -/
theorem compatKey_command {q : Queue} (hu : q.Holds u) (hv : q.Holds v)
    (h : compatKey u = compatKey v) (hcommand : u.prepared.isCommand = true) : u = v := by
  have hcommand' : v.prepared.isCommand = true :=
    (compatible_of_key hu hv h).command ▸ hcommand
  obtain ⟨argv, hwork⟩ := isCommand_true hcommand
  obtain ⟨argv', hwork'⟩ := isCommand_true hcommand'
  simp only [compatKey, hwork, hwork', CompatKey.command.injEq] at h
  exact hu.unique hv h

namespace Tick

variable {tick : Tick} {q : Queue} {o : Outcome} {item : Planned} {job : FleetTask}

/-- What the planner checked when it placed the batch of a group. -/
structure Checked (tick : Tick) (q : Queue) (o : Outcome) (item : Planned) : Prop where
  group : item.group ∈ tick.groups q
  members : ∀ job ∈ item.batch.jobs, job ∈ item.group.tasks
  considered : item.batch.device ∈ candidateNames item.group.head
  verdict : ∃ s, o.snapshots.get item.batch.device = some s ∧
    ((forcedDevices item.group.tasks = [item.batch.device] ∧
        fits tick.costs item.group.head item.batch.device s true = .ok ()) ∨
      (forcedDevices item.group.tasks = [] ∧
        fits tick.costs item.group.head item.batch.device s false = .ok ()))

theorem planned_checked (h : tick.drain q = .ok o) (hitem : item ∈ o.planned) :
    Checked tick q o item := by
  obtain ⟨hgroups, -, hplanned, -⟩ := drain_spec h
  obtain ⟨hgroup, snaps, timeline, batches, hsnaps, hplan, hbatch⟩ := hplanned item hitem
  rw [hgroups] at hgroup
  rw [planJobs_compatible fun job hjob => tick.group_compatible hgroup hjob] at hplan
  obtain ⟨hmembers, s, hget, hverdict⟩ := assignGroup_spec hplan hbatch
  obtain ⟨hconsiders, hcached⟩ := hsnaps _ s hget
  refine ⟨hgroup, hmembers, hconsiders.1, s, hcached, ?_⟩
  rcases hverdict with hforced | ⟨hnone, -, hfits⟩
  · exact .inl hforced
  · exact .inr ⟨hnone, hfits⟩

theorem claimed_checked (h : tick.drain q = .ok o) (hitem : item ∈ o.claimed) :
    Checked tick q o item := by
  obtain ⟨-, -, -, hclaimed⟩ := drain_spec h
  rw [hclaimed] at hitem
  rcases mem_claims hitem with hitem | hitem
  · simp at hitem
  · exact planned_checked h hitem

/-- The engine that a snapshot calls present was qualified by a queued job. -/
theorem qualifies_of_present (h : tick.drain q = .ok o) {s : Snapshot}
    (hget : o.snapshots.get device = some s) {engine : String}
    (hengine : engineFor t device = .ok engine) (hstatus : s.status engine ≠ .unknown) :
    q.Qualifies t device := by
  obtain ⟨hgroups, hsourced, -, -⟩ := drain_spec h
  obtain ⟨g, hg, dev, reclaimed, -, -, rfl⟩ := hsourced device s hget
  rw [hgroups] at hg
  obtain ⟨adapter, hadapter, rfl, hpaths⟩ := status_known hstatus
  have hlive : g.exhausted = false := by simpa using (List.mem_filter.mp hg).2
  exact ⟨g.head, (tick.mem_group hg List.mem_cons_self).1, hlive, adapter, hadapter, hengine,
    hpaths⟩

/-- Every job of a homogeneous queue is placed where it could go, and is allowed there. -/
theorem placed_allowed (hq : q.Homogeneous) (h : tick.drain q = .ok o) (hitem : item ∈ o.claimed)
    (hjob : job ∈ item.batch.jobs) :
    Capable job item.batch.device ∧ (job.forceDevice = none → q.Qualifies job item.batch.device) ∧
      Allowed tick o.snapshots job item.batch.device := by
  obtain ⟨hgroup, hmembers, hconsidered, s, hget, hverdict⟩ := claimed_checked h hitem
  generalize item.batch.device = device at *
  set head := item.group.head with hhead
  have hmember := hmembers job hjob
  obtain ⟨hholds, hkey⟩ := tick.mem_group hgroup hmember
  obtain ⟨hheads, -⟩ := tick.mem_group hgroup (List.mem_cons_self (a := head) (l := item.group.rest))
  have hcompatible := tick.group_compatible hgroup hmember
  have hexcluded : device ∉ excludedDevices job := by
    rw [← hcompatible.excluded]
    exact (mem_candidateNames.mp hconsidered).2
  have hstatic : ∀ allowUnknown, fits tick.costs head device s allowUnknown = .ok () →
      device ≠ "" ∧ missingCapabilities job device = [] := by
    intro allowUnknown hfits
    obtain ⟨hroute, -, hcapability, -, -⟩ := fits_ok.mp hfits
    exact ⟨(routeGate_ok.mp hroute).1, by
      rw [← hcompatible.missing]
      exact capabilityGate_ok.mp hcapability⟩
  rcases hverdict with ⟨hforced, hfits⟩ | ⟨hnone, hfits⟩
  · obtain ⟨hnamed, hprovided⟩ := hstatic true hfits
    obtain ⟨sibling, hsibling, hsiblingForce⟩ :=
      mem_forcedDevices.mp (hforced ▸ List.mem_singleton_self device)
    obtain ⟨hsiblingHolds, hsiblingKey⟩ := tick.mem_group hgroup hsibling
    -- a member without a force could go to the device as well, and its forced sibling is there
    have hpinned : ∀ member ∈ item.group.tasks, member.forceDevice = some device := by
      intro member hmember
      obtain ⟨hmemberHolds, hmemberKey⟩ := tick.mem_group hgroup hmember
      have hsame := tick.group_compatible hgroup hmember
      cases hforce : member.forceDevice with
      | some d =>
        have hd : d ∈ forcedDevices item.group.tasks := mem_forcedDevices.mpr ⟨member, hmember, hforce⟩
        rw [hforced, List.mem_singleton] at hd
        rw [hd]
      | none =>
        have hkeys : compatKey member = compatKey sibling := hmemberKey.trans hsiblingKey.symm
        cases hcommand : member.prepared.isCommand with
        | true =>
          have := compatKey_command hmemberHolds hsiblingHolds hkeys hcommand
          rw [this, hsiblingForce] at hforce
          simp at hforce
        | false =>
          obtain ⟨hroute, -, hcapability, hadapterGate, -⟩ := fits_ok.mp hfits
          obtain ⟨adapter, hadapter⟩ := (routeGate_ok.mp hroute).2.2.2.resolve_left
            (by rw [hsame.command, hcommand]; simp)
          obtain ⟨engine, hengine, -⟩ :=
            engineGate_ok.mp (engineGate_of_adapterGate hadapter hadapterGate)
          rw [hsame.frozenAdapter] at hadapter
          rw [hsame.engineFor] at hengine
          have hcapable : Capable member device :=
            ⟨mem_candidateNames_of_adapter hcommand hforce hadapter hengine
              (by rw [← hsame.excluded]; exact (mem_candidateNames.mp hconsidered).2), hnamed,
              by rw [← hsame.missing]; exact capabilityGate_ok.mp hcapability⟩
          have := (hq.pins member sibling hmemberHolds hsiblingHolds hkeys hforce
            (by simp [hsiblingForce]) device hcapable).1
          exact absurd hsiblingForce this
    have hjobForce := hpinned job hmember
    have hheadForce := hpinned head List.mem_cons_self
    have hcapable : ∀ member, member.forceDevice = some device → Compatible head member →
        Capable member device := by
      intro member hforce hsame
      refine ⟨mem_candidateNames.mpr ⟨by simp [knownCandidates, hforce], ?_⟩, hnamed, ?_⟩
      · rw [← hsame.excluded]
        exact (mem_candidateNames.mp hconsidered).2
      · rw [← hsame.missing, hcompatible.missing, hprovided]
    have hcosts := hq.costs head job hheads hholds hkey.symm (by rw [hjobForce, hheadForce]) device
      (hcapable head hheadForce (.refl _)) (by simp [hheadForce])
    refine ⟨hcapable job hjobForce hcompatible, by simp [hjobForce], .inr hjobForce, hexcluded, s,
      hget, ?_⟩
    rw [hjobForce, Option.isSome_some,
      ← hcompatible.fits_eq (hheadForce.trans hjobForce.symm) hcosts]
    exact hfits
  · obtain ⟨hnamed, hprovided⟩ := hstatic false hfits
    have hunforced : ∀ member ∈ item.group.tasks, member.forceDevice = none := by
      intro member hmember
      cases hforce : member.forceDevice with
      | none => rfl
      | some d =>
        have hd := mem_forcedDevices.mpr ⟨member, hmember, hforce⟩
        rw [hnone] at hd
        simp at hd
    have hjobForce := hunforced job hmember
    have hheadForce := hunforced head List.mem_cons_self
    have hcandidate : device ∈ candidateDevices head := by
      have := (mem_candidateNames.mp hconsidered).1
      rwa [knownCandidates, hheadForce] at this
    obtain ⟨adapter, hadapter, -⟩ := mem_candidateDevices hcandidate hheadForce
    obtain ⟨hroute, -, hcapability, hadapterGate, -⟩ := fits_ok.mp hfits
    obtain ⟨engine, hengine, hstatus⟩ :=
      engineGate_ok.mp (engineGate_of_adapterGate hadapter hadapterGate)
    have hpresent : s.status engine = .present := by simpa using hstatus
    have hqualifies : q.Qualifies head device :=
      qualifies_of_present h hget hengine (by simp [hpresent])
    have hheadCapable : Capable head device :=
      ⟨hconsidered, hnamed, capabilityGate_ok.mp hcapability⟩
    have hcosts := hq.costs head job hheads hholds hkey.symm (by rw [hjobForce, hheadForce]) device
      hheadCapable fun _ => hqualifies
    have hjobCandidate : device ∈ candidateNames job := by
      refine mem_candidateNames.mpr ⟨?_, hexcluded⟩
      have hsame : candidateDevices job = candidateDevices head := by
        unfold candidateDevices FleetTask.adapters
        rw [hcompatible.command, hcompatible.engine, hcompatible.spec, hjobForce, hheadForce]
      rw [knownCandidates, hjobForce, hsame]
      exact hcandidate
    have hjobQualifies : q.Qualifies job device := by
      obtain ⟨w, hw, hlive, a, ha, hsame, hpaths⟩ := hqualifies
      exact ⟨w, hw, hlive, a, ha, by rw [← hcompatible.engineFor, hsame], hpaths⟩
    refine ⟨⟨hjobCandidate, hnamed, hprovided⟩, fun _ => hjobQualifies, .inl hjobForce, hexcluded, s,
      hget, ?_⟩
    rw [hjobForce, Option.isSome_none,
      ← hcompatible.fits_eq (hheadForce.trans hjobForce.symm) hcosts]
    exact hfits

theorem withoutForced_drawn (q : Queue) (key : CompatKey) : (q.withoutForced key).DrawnFrom q :=
  ⟨rfl, fun _ hrow => (List.mem_filter.mp hrow).1⟩

/-- Batching is invisible in every tick over a homogeneous queue. -/
theorem invisible_of_homogeneous (hq : q.Homogeneous) : tick.Invisible q := by
  refine ⟨fun o h item hitem job hjob => (placed_allowed hq h hitem hjob).2.2, fun u hu hleft => ?_⟩
  obtain ⟨hforce, -, -, o, d, h, ⟨item, hitem, hdevice, job, hjob, hid⟩, v, hv, hkey, hforced, -⟩ :=
    hleft
  have hdrawn := withoutForced_drawn q (compatKey u)
  obtain ⟨hcapable, hqualifies, -⟩ := placed_allowed (hq.drawn hdrawn) h hitem hjob
  obtain ⟨hgroup, hmembers, -, -⟩ := claimed_checked h hitem
  have hjobHolds := hdrawn.holds (tick.mem_group hgroup (hmembers job hjob)).1
  have hsame : job = u := hjobHolds.unique hu hid
  subst hsame
  obtain ⟨w, hw, hadapter⟩ := hqualifies hforce
  exact (hq.pins job v hu hv hkey.symm hforce hforced _ hcapable).2 ⟨w, hdrawn.holds hw, hadapter⟩

end Tick

end Remrun.Fleet.Dispatch
