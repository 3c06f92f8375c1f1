import Remrun.Fleet.Batching

/-!
# Verdicts and the other queued work

The snapshot of a device is cached, with the qualification of the adapters of whichever group
asked for it first. When the verdicts on a group are the same whatever else is queued, and what
follows for its placement.
-/

namespace Remrun.Fleet.Dispatch

open Keyed Selection Effect
set_option autoImplicit false

variable {c : Costs} {t u v w : FleetTask} {device : String} {dev : DeviceConf}
  {source q q' : Queue}

/-! ## What a probe decides -/

/-- The paths by which the adapter of the task proves the engine on the device. -/
def provingPaths (t : FleetTask) (device engine : String) : List String :=
  match frozenAdapter t device with
  | none => []
  | some adapter => if adapter.engine = engine then adapter.capabilityPaths else []

theorem Host.qualify_congr (h : Host) {paths paths' : List String}
    (hsame : ∀ path, path ∈ paths ↔ path ∈ paths') :
    h.qualify device paths = h.qualify device paths' := by
  have hnil : paths = [] ↔ paths' = [] := by
    simp only [List.eq_nil_iff_forall_not_mem, hsame]
  have hunknown : none ∈ paths.map (h.pathExists device) ↔
      none ∈ paths'.map (h.pathExists device) := by
    simp only [List.mem_map, hsame]
  have hall : (∀ path ∈ paths, h.pathExists device path = some true) ↔
      ∀ path ∈ paths', h.pathExists device path = some true := by
    simp only [hsame]
  unfold Host.qualify
  simp only [hnil, hunknown, hall]

theorem qualify_nil (h : Host) : h.qualify device [] = .unknown := by simp [Host.qualify]

/-- A probe with the adapters of a task says of an engine what its proving paths say. -/
theorem capabilityEngines_get (h : Host) (engine : String) :
    ((h.capabilityEngines device (probeAdapterSpecs t device)).get engine).getD .unknown =
      h.qualify device (provingPaths t device engine) := by
  unfold probeAdapterSpecs provingPaths Host.capabilityEngines
  cases frozenAdapter t device with
  | none => simp [qualify_nil]
  | some adapter =>
    simp only [Option.toList_some, List.foldl_cons, List.foldl_nil, Dict.get_set, Dict.get_empty]
    by_cases hengine : adapter.engine = engine
    · subst hengine
      simp
    · have hengine' : ¬ engine = adapter.engine := fun h => hengine h.symm
      simp [hengine, hengine', qualify_nil]

/-! ## Snapshots that differ in their probe -/

/-- What the device is asked before the qualification counts. -/
def Snapshot.preliminary (s : Snapshot) (t : FleetTask) (device : String) : Except Refusal Unit := do
  s.routeGate t device
  s.liveGate
  capabilityGate t device

theorem fits_eq_preliminary (s : Snapshot) (allowUnknown : Bool) :
    fits c t device s allowUnknown = (do
      s.preliminary t device
      s.adapterGate t device allowUnknown
      s.memoryGate c t device) := by
  unfold fits Snapshot.preliminary
  cases s.routeGate t device with
  | error e => rfl
  | ok _ =>
    cases s.liveGate with
    | error e => rfl
    | ok _ =>
      cases capabilityGate t device with
      | error e => rfl
      | ok _ => rfl

/-- The verdicts on snapshots that agree on the task's engine are the same; they need not agree
where the task is refused beforehand. -/
theorem fits_congr {s s' : Snapshot} (hrest : { s with engineStatus := s'.engineStatus } = s')
    (hsame : s.preliminary t device = .ok () → frozenAdapter t device ≠ none →
      ∀ engine, engineFor t device = .ok engine → s.status engine = s'.status engine)
    (allowUnknown : Bool) :
    fits c t device s allowUnknown = fits c t device s' allowUnknown := by
  have hpreliminary : s'.preliminary t device = s.preliminary t device := by
    rw [← hrest]
    rfl
  rw [fits_eq_preliminary, fits_eq_preliminary, hpreliminary]
  cases hok : s.preliminary t device with
  | error e => rfl
  | ok _ =>
    have hstatus := hsame hok
    have hadapter : s.adapterGate t device allowUnknown = s'.adapterGate t device allowUnknown := by
      have hpool : ∀ adapter, s'.poolGate adapter = s.poolGate adapter := by
        intro adapter
        rw [← hrest]
        rfl
      unfold Snapshot.adapterGate
      cases hadapter : frozenAdapter t device with
      | none => rfl
      | some adapter =>
        simp only [hpool]
        have hengine : s.engineGate t device allowUnknown = s'.engineGate t device allowUnknown := by
          unfold Snapshot.engineGate
          cases hengine : engineFor t device with
          | error detail => rfl
          | ok engine => simp only [hstatus (by simp [hadapter]) engine hengine]
        rw [hengine]
    have hmemory : s'.memoryGate c t device = s.memoryGate c t device := by
      rw [← hrest]
      rfl
    rw [hadapter, hmemory]

/-! ## Which jobs may be asked for -/

/-- The device, as it is configured, could serve the task. -/
structure Served (dev : DeviceConf) (t : FleetTask) (device : String) : Prop where
  capable : Capable t device
  enabled : dev.enabled = true
  available : dev.automaticPlacement = true ∨ t.forceDevice = some device
  roomy : 0 < dev.maxJobs

/-- The device may be probed with the adapter of the task: as one of its candidates, or for the
reclaim, which takes the adapters of whatever group comes last. -/
def Asks (dev : DeviceConf) (t : FleetTask) (device : String) : Prop :=
  device ∈ candidateNames t ∨
    (dev.enabled = true ∧ dev.localSim = false ∧ dev.hasReclaim = true) ∧ t.spec ≠ none

/-- Every queued job that a device may be probed for proves the engine of every job that it could
serve by the same paths. -/
def Queue.ProbedAlike (source : Queue) (devices : Roster DeviceConf) : Prop :=
  ∀ u w, source.Holds u → source.Holds w → compatKey u ≠ compatKey w →
    Group.exhausted ⟨w, []⟩ = false → ∀ d dev, devices.get d = some dev → Served dev u d →
    Asks dev w d → frozenAdapter u d ≠ none → ∀ engine, engineFor u d = .ok engine →
    ∀ path, path ∈ provingPaths u d engine ↔ path ∈ provingPaths w d engine

namespace Tick

variable {tick : Tick} {g : Group} {o o' : Outcome}

/-- The devices report the same whether or not they ran their reclaim command. -/
def Steady (tick : Tick) : Prop := ∀ d, tick.host.freed d = tick.host.reading d

/-- Nothing runs on the device. -/
def Idle (tick : Tick) (device : String) : Prop := (tick.activeBatches.get device).getD 0 = 0

/-- No other group is planned for the device. -/
def Outcome.LeavesTo (o : Outcome) (g : Group) (device : String) : Prop :=
  ∀ item ∈ o.planned, item.batch.device = device → item.group = g

/-- The verdicts on a group depend on the group and the device alone, over all queue states made
of the queued jobs, and no group is left unplaced for the sake of groups that place nothing. -/
structure Independent (tick : Tick) (source : Queue) : Prop where
  verdict : ∀ q q', q.DrawnFrom source → q'.DrawnFrom source →
    ∀ g, g ∈ tick.groups q → g ∈ tick.groups q' →
    ∀ o o', tick.drain q = .ok o → tick.drain q' = .ok o' →
    ∀ d, tick.Idle d → tick.Considers [] g.head d → o.LeavesTo g d → o'.LeavesTo g d →
    ∀ s s', o.snapshots.get d = some s → o'.snapshots.get d = some s' →
    ∀ allowUnknown, fits tick.costs g.head d s allowUnknown =
      fits tick.costs g.head d s' allowUnknown
  placed : ∀ q q', q.DrawnFrom source → q'.DrawnFrom source →
    ∀ g, g ∈ tick.groups q → tick.groups q' = [g] →
    ∀ o o', tick.drain q = .ok o → tick.drain q' = .ok o' → o'.planned ≠ [] →
    (∀ item ∈ o.planned, item.group = g) → o.planned ≠ []

theorem buildSnapshot_steady (hsteady : tick.Steady) (reclaimed : Bool) (specs : List Adapter) :
    tick.buildSnapshot reclaimed device dev specs = tick.buildSnapshot false device dev specs := by
  cases reclaimed with
  | false => rfl
  | true => simp [buildSnapshot, hsteady device]

/-- Snapshots of one device by two probes differ in the qualification alone. -/
theorem buildSnapshot_rest (specs specs' : List Adapter) :
    { tick.buildSnapshot false device dev specs with
      engineStatus := (tick.buildSnapshot false device dev specs').engineStatus } =
      tick.buildSnapshot false device dev specs' := by
  unfold buildSnapshot
  simp only [Bool.false_eq_true, if_false]
  cases tick.host.reading device <;> rfl

theorem preliminary_served {specs : List Adapter} (hcandidate : device ∈ candidateNames t)
    (h : (tick.buildSnapshot false device dev specs).preliminary t device = .ok ()) :
    Served dev t device ∧ ∃ r, tick.host.reading device = some r := by
  obtain ⟨hroute, hrest⟩ := unit_bind_ok.mp h
  obtain ⟨hlive, hcapability⟩ := unit_bind_ok.mp hrest
  obtain ⟨hnamed, henabled, havailable, -⟩ := routeGate_ok.mp hroute
  obtain ⟨hreachable, hroomy⟩ := unit_bind_ok.mp hlive
  have hreachable := refuseIf_ok.mp hreachable
  have hroomy := refuseIf_ok.mp hroomy
  unfold buildSnapshot at henabled havailable hreachable hroomy
  simp only [Bool.false_eq_true, if_false] at henabled havailable hreachable hroomy
  cases hreading : tick.host.reading device with
  | none => simp [hreading] at hreachable
  | some r =>
    rw [hreading] at henabled havailable hroomy
    exact ⟨⟨⟨hcandidate, hnamed, capabilityGate_ok.mp hcapability⟩, henabled, havailable,
      Nat.lt_of_le_of_lt (Nat.zero_le _) (Nat.lt_of_not_le hroomy)⟩, r, rfl⟩

theorem status_buildSnapshot {r : Reading} (hreading : tick.host.reading device = some r)
    (engine : String) :
    (tick.buildSnapshot false device dev (probeAdapterSpecs t device)).status engine =
      tick.host.qualify device (provingPaths t device engine) := by
  unfold buildSnapshot
  simp only [Bool.false_eq_true, if_false, hreading]
  exact capabilityEngines_get tick.host engine

/-- Two probes that name the same paths lead to the same verdict. -/
theorem fits_probed {reclaimed reclaimed' : Bool} (hsteady : tick.Steady)
    (hcandidate : device ∈ candidateNames t)
    (hpaths : Served dev t device → frozenAdapter t device ≠ none →
      ∀ engine, engineFor t device = .ok engine →
      ∀ path, path ∈ provingPaths u device engine ↔ path ∈ provingPaths v device engine)
    (allowUnknown : Bool) :
    fits c t device (tick.buildSnapshot reclaimed device dev (probeAdapterSpecs u device))
        allowUnknown =
      fits c t device (tick.buildSnapshot reclaimed' device dev (probeAdapterSpecs v device))
        allowUnknown := by
  rw [buildSnapshot_steady hsteady reclaimed, buildSnapshot_steady hsteady reclaimed']
  refine fits_congr (buildSnapshot_rest _ _) (fun hpreliminary hadapter engine hengine => ?_)
    allowUnknown
  obtain ⟨hserved, r, hreading⟩ := preliminary_served hcandidate hpreliminary
  rw [status_buildSnapshot hreading, status_buildSnapshot hreading]
  exact tick.host.qualify_congr (hpaths hserved hadapter engine hengine)

/-! ## Jobs that are probed alike -/

/-- A cached snapshot leads to the same verdict as the one that the group itself would get. -/
theorem fits_of_alike (halike : source.ProbedAlike tick.devices) (hsteady : tick.Steady)
    (hdrawn : q.DrawnFrom source) (hg : g ∈ tick.groups q) {cache : Roster Snapshot}
    (hsourced : tick.Sourced (tick.groups q) cache) (hcandidate : device ∈ candidateNames g.head)
    {s : Snapshot} (hget : cache.get device = some s) :
    ∃ dev, tick.devices.get device = some dev ∧ ∀ allowUnknown,
      fits tick.costs g.head device s allowUnknown = fits tick.costs g.head device
        (tick.buildSnapshot false device dev (probeAdapterSpecs g.head device)) allowUnknown := by
  obtain ⟨asker, hasker, dev, reclaimed, hdev, hasks, rfl⟩ := hsourced device s hget
  refine ⟨dev, hdev, fun allowUnknown => fits_probed hsteady hcandidate ?_ allowUnknown⟩
  intro hserved hadapter engine hengine path
  obtain ⟨hheld, -⟩ := tick.mem_group hg List.mem_cons_self
  obtain ⟨hheld', -⟩ := tick.mem_group hasker List.mem_cons_self
  by_cases hkey : compatKey g.head = compatKey asker.head
  · have hsame := (compatible_of_key hheld hheld' hkey).frozenAdapter device
    unfold provingPaths
    rw [hsame]
  · have hlive : asker.exhausted = false := by simpa using (List.mem_filter.mp hasker).2
    have hasks : Asks dev asker.head device := by
      rcases hasks with hcandidate | ⟨hreclaim, hspec⟩
      · exact .inl hcandidate
      · refine .inr ⟨?_, hspec⟩
        simp only [reclaimable, Bool.and_eq_true, Bool.not_eq_true'] at hreclaim
        exact ⟨hreclaim.1.1.1, hreclaim.1.1.2, hreclaim.1.2⟩
    exact (halike g.head asker.head (hdrawn.holds hheld) (hdrawn.holds hheld') hkey hlive device dev
      hdev hserved hasks hadapter engine hengine path).symm

/-- Over two queue states the verdicts on a group are the same. -/
theorem verdict_of_alike (halike : source.ProbedAlike tick.devices) (hsteady : tick.Steady)
    (hdrawn : q.DrawnFrom source) (hdrawn' : q'.DrawnFrom source) (hg : g ∈ tick.groups q)
    (hg' : g ∈ tick.groups q') {cache cache' : Roster Snapshot}
    (hsourced : tick.Sourced (tick.groups q) cache)
    (hsourced' : tick.Sourced (tick.groups q') cache') (hcandidate : device ∈ candidateNames g.head)
    {s s' : Snapshot} (hget : cache.get device = some s) (hget' : cache'.get device = some s')
    (allowUnknown : Bool) :
    fits tick.costs g.head device s allowUnknown = fits tick.costs g.head device s' allowUnknown := by
  obtain ⟨dev, hdev, hfits⟩ := fits_of_alike halike hsteady hdrawn hg hsourced hcandidate hget
  obtain ⟨dev', hdev', hfits'⟩ :=
    fits_of_alike halike hsteady hdrawn' hg' hsourced' hcandidate hget'
  rw [hdev, Option.some.injEq] at hdev'
  subst hdev'
  rw [hfits, hfits']

end Tick

/-! ## A group that some device takes is planned -/

section Assignment
variable {snaps : Roster Snapshot} {backlog : Backlog} {jobs : List FleetTask}
  {batches : List PlacedBatch}

/-- A step of the split gives the job to a device. -/
theorem splitStep_gives {assign assign' : List (String × List FleetTask)} {job : FleetTask}
    (h : c.splitStep backlog assign job = .ok assign') : ∃ entry ∈ assign', entry.2 ≠ [] := by
  unfold Costs.splitStep at h
  simp only at h
  split at h
  · simp at h
  · rename_i best hbest
    obtain ⟨entry, hentry, htrial⟩ := List.mem_filterMap.mp (least_mem hbest)
    obtain ⟨makespan, -, rfl⟩ := Option.map_eq_some_iff.mp htrial
    rw [← Except.ok.inj h]
    refine ⟨(entry.1, entry.2 ++ [job]), List.mem_map.mpr ⟨entry, hentry, ?_⟩, by simp⟩
    rw [if_pos rfl]

theorem greedySplit_ne_nil {devices : List String} {assign : List (String × List FleetTask)}
    (hjobs : jobs ≠ []) (h : c.greedySplit backlog jobs devices = .ok assign) : assign ≠ [] := by
  unfold Costs.greedySplit at h
  obtain ⟨split, hsplit, h⟩ := bind_eq_ok.mp h
  have hgives : ∃ entry ∈ split, entry.2 ≠ [] := by
    cases horder : jobs.mergeSort fun a b => b.units ≤ a.units with
    | nil =>
      have hperm := List.mergeSort_perm jobs fun a b => b.units ≤ a.units
      rw [horder] at hperm
      exact absurd hperm.nil_eq.symm hjobs
    | cons job rest =>
      rw [horder, List.foldlM_cons] at hsplit
      obtain ⟨first, hfirst, hrest⟩ := bind_eq_ok.mp hsplit
      exact foldlM_invariant (fun assign => ∃ entry ∈ assign, entry.2 ≠ [])
        (fun acc item acc' _ _ hstep => splitStep_gives hstep) (splitStep_gives hfirst) hrest
  obtain ⟨entry, hentry, hne⟩ := hgives
  rw [← pure_eq_ok.mp h]
  exact List.ne_nil_of_mem (List.mem_filter.mpr ⟨hentry, by simpa using hne⟩)

theorem choose_ne_nil {t0 : FleetTask} {fitting : List String} (hfitting : fitting ≠ [])
    (hjobs : jobs ≠ []) (h : c.choose snaps backlog t0 jobs fitting = .ok batches) :
    batches ≠ [] := by
  have htried : ∀ {devices : List String}, devices ≠ [] →
      (least rankLt (c.trialRank t0 snaps) devices).toList.map (c.batch backlog jobs) ≠ [] := by
    intro devices hne
    obtain ⟨best, hbest⟩ := exists_least rankLt (c.trialRank t0 snaps) hne
    simp [hbest]
  unfold Costs.choose at h
  simp only at h
  split at h
  · rw [← Except.ok.inj h]
    exact htried hfitting
  rename_i hestimable
  split at h
  · rename_i hcalibration
    rw [← Except.ok.inj h]
    exact htried hcalibration
  split at h
  · rename_i hbounded
    rw [← Except.ok.inj h]
    exact htried hbounded.2
  split at h
  · rename_i hnone
    obtain ⟨best, hbest⟩ := exists_least (fun a b : ℚ => a < b)
      (fun device => (c.effective backlog jobs device).getD 0) hestimable
    simp [hbest] at hnone
  split at h
  · rw [← Except.ok.inj h]
    exact List.cons_ne_nil _ _
  · unfold Costs.splitOrSame at h
    obtain ⟨assign, hassign, h⟩ := bind_eq_ok.mp h
    simp only at h
    split at h
    · rw [← pure_eq_ok.mp h]
      exact fun hnil => greedySplit_ne_nil hjobs hassign (List.map_eq_nil_iff.mp hnil)
    · rw [← pure_eq_ok.mp h]
      exact List.cons_ne_nil _ _

/-- A device takes the group: it fits the first member, by force or as one of its candidates. -/
def Costs.Takes (c : Costs) (jobs : List FleetTask) (t0 : FleetTask) (device : String)
    (s : Snapshot) : Prop :=
  (forcedDevices jobs = [device] ∧ fits c t0 device s true = .ok ()) ∨
    (forcedDevices jobs = [] ∧ device ∈ candidateDevices t0 ∧ fits c t0 device s false = .ok ())

theorem assignGroup_ne_nil {t0 : FleetTask} {rest : List FleetTask} {s : Snapshot}
    (hget : snaps.get device = some s) (htakes : c.Takes (t0 :: rest) t0 device s)
    (h : c.assignGroup snaps backlog (t0 :: rest) = .ok batches) : batches ≠ [] := by
  unfold Costs.assignGroup at h
  simp only at h
  rcases htakes with ⟨hforced, hfits⟩ | ⟨hnone, hcandidate, hfits⟩
  · rw [hforced] at h
    simp only [Costs.placeForced, hget, hfits] at h
    rw [← Except.ok.inj h]
    exact List.cons_ne_nil _ _
  · have hmem : device ∈ c.fittingDevices t0 snaps :=
      mem_fittingDevices.mpr ⟨hcandidate, s, hget, hfits⟩
    rw [hnone] at h
    simp only at h
    split at h
    · rename_i hfitting
      simp [hfitting] at hmem
    · rw [← Except.ok.inj h]
      exact List.cons_ne_nil _ _
    · exact choose_ne_nil (List.ne_nil_of_mem hmem) (List.cons_ne_nil _ _) h

end Assignment

namespace Tick

variable {tick : Tick} {g first : Group} {groups : List Group} {start : Roster Snapshot}
  {plan : Plan}

theorem full_zero : tick.full 0 = false := by
  unfold full
  cases tick.maxParallel with
  | none => rfl
  | some n => cases n <;> simp

theorem foldl_addBatch_grows {batches : List PlacedBatch} (h : plan.planned ≠ []) :
    (batches.foldl (tick.addBatch g) plan).planned ≠ [] := by
  induction batches generalizing plan with
  | nil => exact h
  | cons batch rest ih =>
    apply ih
    unfold addBatch
    split
    · exact h
    · simp

/-- The empty plan has room for any batch. -/
theorem foldl_addBatch_empty {batches : List PlacedBatch} (h : batches ≠ []) :
    (batches.foldl (tick.addBatch g) tick.emptyPlan).planned ≠ [] := by
  cases batches with
  | nil => exact absurd rfl h
  | cons batch rest =>
    rw [List.foldl_cons]
    apply foldl_addBatch_grows
    simp [addBatch, emptyPlan, full_zero]

/-- Nothing is planned yet, or something is. -/
def Begun (tick : Tick) (plan : Plan) : Prop := plan = tick.emptyPlan ∨ plan.planned ≠ []

theorem foldl_addBatch_begun {batches : List PlacedBatch} (h : tick.Begun plan) :
    tick.Begun (batches.foldl (tick.addBatch g) plan) := by
  rcases h with rfl | h
  · cases batches with
    | nil => exact .inl rfl
    | cons batch rest => exact .inr (foldl_addBatch_empty (List.cons_ne_nil _ _))
  · exact .inr (foldl_addBatch_grows h)

/-- Whatever the cache holds, some device takes the group. -/
def Placeable (tick : Tick) (groups : List Group) (g : Group) : Prop :=
  ∀ snaps cache, tick.Sourced groups cache → Collected tick [] g.head snaps cache →
    ∃ d s, snaps.get d = some s ∧ tick.costs.Takes g.tasks g.head d s

variable (hengine : ∀ g ∈ groups, ∀ d ∈ candidateNames g.head, ∃ engine, engineFor g.head d = .ok engine)
  (hcompatible : ∀ g ∈ groups, ∀ job ∈ g.tasks, Compatible g.head job)

include hengine hcompatible in
/-- Placing a group keeps a begun plan begun, and begins it with a placeable group. -/
theorem simulateGroup_begun (hg : g ∈ groups) (hbegun : tick.Begun plan) :
    Triple (CacheInv tick groups start) (tick.simulateGroup plan g) (fun next cache =>
      CacheInv tick groups start cache ∧ tick.Begun next ∧
        (plan.planned ≠ [] ∨ tick.Placeable groups g → next.planned ≠ [])) fun _ _ => True := by
  unfold simulateGroup
  split
  · rename_i hfull
    refine triple_pure fun cache h => ⟨h, hbegun, fun hor => ?_⟩
    rcases hbegun with rfl | hplanned
    · simp [emptyPlan, full_zero] at hfull
    · exact hplanned
  · refine triple_bind ((collect_spec hg plan.usedDevices (hengine g hg)).conseq (fun _ => id)
      (fun _ _ => id) fun _ _ => False.elim) fun snaps => ?_
    split
    · rename_i hempty
      refine triple_pure fun cache h => ⟨h.1, hbegun, fun hor => ?_⟩
      rcases hbegun with rfl | hplanned
      · obtain ⟨d, s, hget, -⟩ := (hor.resolve_left (by simp [emptyPlan])) snaps cache
          h.1.sourced h.2
        obtain ⟨name, hrow, -⟩ := Dict.get_eq_some.mp hget
        rw [List.isEmpty_iff.mp hempty] at hrow
        simp at hrow
      · exact hplanned
    · rw [planJobs_compatible (hcompatible g hg)]
      refine triple_bind (R := fun batches cache => (CacheInv tick groups start cache ∧
        Collected tick plan.usedDevices g.head snaps cache) ∧
        tick.costs.assignGroup snaps plan.timeline g.tasks = .ok batches)
        (triple_ofExcept (fun batches hbatches cache h => ⟨h, hbatches⟩) fun _ _ _ _ => trivial)
        fun batches => triple_pure fun cache h => ?_
      obtain ⟨⟨hinv, hcollected⟩, hbatches⟩ := h
      refine ⟨hinv, foldl_addBatch_begun hbegun, fun hor => ?_⟩
      rcases hbegun with rfl | hplanned
      · obtain ⟨d, s, hget, htakes⟩ := (hor.resolve_left (by simp [emptyPlan])) snaps cache
          hinv.sourced hcollected
        exact foldl_addBatch_empty (assignGroup_ne_nil hget htakes hbatches)
      · exact foldl_addBatch_grows hplanned

include hengine hcompatible in
/-- Every order with a placeable group leads to a plan. -/
theorem simulate_begun {order : List Group} (horder : ∀ g ∈ order, g ∈ groups) (hg : g ∈ order)
    (hplaceable : tick.Placeable groups g) :
    Triple (CacheInv tick groups start) (tick.simulate order) (fun plan cache =>
      CacheInv tick groups start cache ∧ plan.planned ≠ []) fun _ _ => True := by
  refine (triple_foldlM (fun done plan cache => CacheInv tick groups start cache ∧
    tick.Begun plan ∧ (g ∈ done → plan.planned ≠ [])) fun done next rest plan hsplit => ?_).conseq
    (fun cache h => ⟨h, .inl rfl, by simp⟩) (fun plan cache h => ⟨h.1, h.2.2 hg⟩) fun _ _ => id
  refine triple_of_pure_right fun hplan => ?_
  refine (simulateGroup_begun hengine hcompatible (horder next (by simp [hsplit]))
    hplan.1).post fun plan' cache h => ⟨h.1, h.2.1, fun hmem => h.2.2 ?_⟩
  rcases List.mem_append.mp hmem with hmem | hmem
  · exact .inl (hplan.2 hmem)
  · rw [List.mem_singleton] at hmem
    exact .inr (hmem ▸ hplaceable)

include hengine hcompatible in
theorem bestPlan_begun {orders : List (List Group)}
    (horders : ∀ order ∈ orders, (∀ g ∈ order, g ∈ groups) ∧ g ∈ order)
    (hplaceable : tick.Placeable groups g) :
    Triple (CacheInv tick groups start) (tick.bestPlan orders) (fun best _ =>
      orders ≠ [] → ∃ plan, best = some plan ∧ plan.planned ≠ []) fun _ _ => True := by
  refine (triple_foldlM (fun done best cache => CacheInv tick groups start cache ∧
    (done ≠ [] → ∃ plan, best = some plan ∧ plan.planned ≠ []) ∧
    ∀ plan, best = some plan → plan.planned ≠ []) fun done order rest best hsplit => ?_).conseq
    (fun cache h => ⟨h, by simp, by simp⟩) (fun best cache h => h.2.1) fun _ _ => id
  obtain ⟨hsub, hmem⟩ := horders order (by simp [hsplit])
  refine triple_of_pure_right fun hbest => ?_
  refine triple_bind (simulate_begun hengine hcompatible hsub hmem hplaceable) fun next => ?_
  refine triple_pure fun cache h => ?_
  have hbetter : (Plan.better best next).planned ≠ [] := by
    rcases better_cases best next with hnext | hsame
    · rw [hnext]
      exact h.2
    · exact hbest.2 _ hsame
  exact ⟨h.1, fun _ => ⟨_, rfl, hbetter⟩, fun plan hplan => Option.some.inj hplan ▸ hbetter⟩

theorem Ordered.complete {orders : List (List Group)} (h : Ordered groups orders) :
    orders ≠ [] ∧ ∀ order ∈ orders, ∀ g ∈ groups, g ∈ order := by
  rcases h with rfl | ⟨only, rfl, hsame⟩
  · exact ⟨orders_ne_nil rfl, fun order horder g hg => (orders_perm rfl horder).mem_iff.mpr hg⟩
  · refine ⟨List.cons_ne_nil _ _, fun order horder g hg => ?_⟩
    rw [List.mem_singleton.mp horder]
    exact (hsame g).mpr hg

/-- A tick with a placeable group plans something. -/
theorem planned_of_placeable {o : Outcome} (hdrain : tick.drain q = .ok o) (hg : g ∈ tick.groups q)
    (hplaceable : tick.Placeable (tick.groups q) g) : o.planned ≠ [] := by
  have hengine : ∀ g ∈ tick.groups q, ∀ d ∈ candidateNames g.head,
      ∃ engine, engineFor g.head d = .ok engine := fun g hg d => groups_engine hg
  have hcompatible : ∀ g ∈ tick.groups q, ∀ job ∈ g.tasks, Compatible g.head job :=
    fun g hg job hjob => tick.group_compatible hg hjob
  have hplan : Triple (tick.Sourced (tick.groups q)) (tick.plan (tick.groups q))
      (fun planned _ => planned ≠ []) fun _ _ => True := by
    refine triple_bind (reclaimMarginalDevices_spec (fun g => List.mem_of_getLast?)
      fun _ _ _ => trivial) fun _ => ?_
    have hstart : ∀ cache, tick.Sourced (tick.groups q) cache →
        CacheInv tick (tick.groups q) Dict.empty cache :=
      fun cache h => ⟨fun d s hd => by simp at hd, h⟩
    refine (triple_bind (ordersOf_spec hengine) fun orders => ?_).pre hstart
    refine triple_of_pure_right fun hordered => ?_
    obtain ⟨hsome, hcomplete⟩ := hordered.complete
    refine triple_bind (bestPlan_begun hengine hcompatible (fun order horder =>
      ⟨fun g hg => hordered.subset horder hg, hcomplete order horder g hg⟩) hplaceable)
      fun best => triple_pure fun cache h => ?_
    obtain ⟨plan, rfl, hplanned⟩ := h hsome
    exact hplanned
  exact (drain_post (hplan.pre fun cache heq => heq ▸ sourced_empty) hdrain).1

/-- The group that a device takes when it is alone is placeable among others. -/
theorem placeable_of_alone {o : Outcome} (halike : source.ProbedAlike tick.devices)
    (hsteady : tick.Steady) (hdrawn : q.DrawnFrom source) (hdrawn' : q'.DrawnFrom source)
    (hg : g ∈ tick.groups q) (hg' : tick.groups q' = [g]) (hdrain : tick.drain q' = .ok o)
    (hplanned : o.planned ≠ []) : tick.Placeable (tick.groups q) g := by
  obtain ⟨item, hitem⟩ := List.exists_mem_of_ne_nil _ hplanned
  obtain ⟨hgroups, hsourced, hfrom, -⟩ := drain_spec hdrain
  rw [hgroups] at hsourced
  obtain ⟨hgroup, alone, timeline, batches, halone, hplan, hbatch⟩ := hfrom item hitem
  rw [hgroups, hg', List.mem_singleton] at hgroup
  rw [hgroup] at halone hplan
  rw [planJobs_compatible fun job hjob => tick.group_compatible hg hjob] at hplan
  obtain ⟨-, s, hget, hverdict⟩ := assignGroup_spec hplan hbatch
  obtain ⟨hconsiders, hcached⟩ := halone _ s hget
  intro snaps cache hcache hcollected
  obtain ⟨-, -, dev, -, hdev, -⟩ := hsourced _ s hcached
  obtain ⟨s', hget'⟩ := hcollected.complete _ dev hconsiders hdev
  have hfits := verdict_of_alike halike hsteady hdrawn' hdrawn (hg' ▸ List.mem_singleton_self g) hg
    hsourced hcache hconsiders.1 hcached (hcollected.sound _ s' hget').2
  refine ⟨item.batch.device, s', hget', ?_⟩
  rcases hverdict with ⟨hforced, hok⟩ | ⟨hnone, hcandidate, hok⟩
  · exact .inl ⟨hforced, by rw [← hfits, hok]⟩
  · exact .inr ⟨hnone, hcandidate, by rw [← hfits, hok]⟩

theorem independent_of_alike (halike : source.ProbedAlike tick.devices) (hsteady : tick.Steady) :
    tick.Independent source := by
  refine ⟨fun q q' hdrawn hdrawn' g hg hg' o o' hdrain hdrain' d _ hconsiders _ _ s s' hget hget' =>
    ?_, fun q q' hdrawn hdrawn' g hg hg' o o' hdrain hdrain' hplanned _ => ?_⟩
  · obtain ⟨hgroups, hsourced, -, -⟩ := drain_spec hdrain
    obtain ⟨hgroups', hsourced', -, -⟩ := drain_spec hdrain'
    rw [hgroups] at hsourced
    rw [hgroups'] at hsourced'
    exact verdict_of_alike halike hsteady hdrawn hdrawn' hg hg' hsourced hsourced' hconsiders.1
      hget hget'
  · exact planned_of_placeable hdrain hg
      (placeable_of_alone halike hsteady hdrawn hdrawn' hg hg' hdrain' hplanned)

end Tick

end Remrun.Fleet.Dispatch
