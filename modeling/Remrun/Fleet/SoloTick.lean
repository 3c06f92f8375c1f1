import Remrun.Fleet.Ticks

/-!
# A tick with one device

One device is configured; it offers a reclaim, so that the last group's adapters are the ones
that are probed. What the group in front gets placed stays the best plan whatever one more job
does.
-/

namespace Remrun.Fleet.Dispatch

open Keyed Selection Effect
set_option autoImplicit false

variable {t u v : FleetTask} {device : String}

/-- A profile that only knows the host memory. -/
def memoryProfile (rss : ℚ) : Profile := ⟨none, none, some rss, none, 0, none, none, none⟩

/-- Costs with learned memory and with every setting at its default. -/
def memoryCosts (memory : ProfileKey → Option ℚ) : Costs where
  builtins := ⟨id, id, fun _ _ => 0⟩
  fleetCfg := ⟨none, none, none, none, Dict.empty, [], none, none, none, none, Dict.empty⟩
  profiles key := (memory key).map memoryProfile
  safetyFraction := 1

/-- The device is free and has one unit of memory; the probe finds every path if it answers. -/
def soloTick (device : String) (memory : ProfileKey → Option ℚ) (answers : Bool) : Tick where
  jobIds := none
  maxParallel := none
  devices := Dict.empty.set device ⟨true, false, true, true, 1⟩
  host := {
    reading := fun _ => some ⟨some 1, none, none, .discrete⟩
    freed := fun _ => some ⟨some 1, none, none, .discrete⟩
    reclaims := fun _ => false
    answers := fun _ => answers
    pathExists := fun _ _ => some true }
  costs := memoryCosts memory
  cooldowns := fun _ => none
  leaseUsed := Dict.empty
  activeBatches := Dict.empty
  liveBacklog := Dict.empty
  claimMany := fun _ _ => true
  stopRequested := fun _ => false

/-- The snapshot of the free device. -/
def soloSnapshot (engines : Roster EngineStatus) : Snapshot :=
  ⟨true, true, true, some 1, none, none, .discrete, 0, 1, Dict.empty, engines⟩

section Solo
variable {memory : ProfileKey → Option ℚ} {answers : Bool}

theorem soloTick_snapshot (dev : DeviceConf) (hdev : dev = ⟨true, false, true, true, 1⟩)
    (reclaimed : Bool) (specs : List Adapter) :
    (soloTick device memory answers).buildSnapshot reclaimed device dev specs =
      soloSnapshot ((soloTick device memory answers).host.capabilityEngines device specs) := by
  subst hdev
  cases reclaimed <;> rfl

theorem soloTick_device {d : String} {dev : DeviceConf}
    (h : (soloTick device memory answers).devices.get d = some dev) :
    d = device ∧ dev = ⟨true, false, true, true, 1⟩ := by
  have hget : (Dict.empty.set device ⟨true, false, true, true, 1⟩ : Roster DeviceConf).get d =
      some dev := h
  rw [Dict.get_set] at hget
  split at hget
  · rename_i heq
    exact ⟨heq, (Option.some.inj hget).symm⟩
  · simp at hget

/-- The probe of one adapter. -/
theorem solo_status {adapter : Adapter} :
    (soloSnapshot ((soloTick device memory answers).host.capabilityEngines device [adapter])).status
      adapter.engine =
        if answers = true ∧ adapter.capabilityPaths ≠ [] then .present else .unknown := by
  have hstatus : (soloSnapshot ((soloTick device memory answers).host.capabilityEngines device
      [adapter])).status adapter.engine =
      (soloTick device memory answers).host.qualify device adapter.capabilityPaths := by
    simp [Snapshot.status, soloSnapshot, Host.capabilityEngines, Dict.get_set_self]
  rw [hstatus]
  cases answers <;> by_cases hpaths : adapter.capabilityPaths = [] <;>
    simp [Host.qualify, soloTick, hpaths]

/-- The device takes a task that has an adapter with a suitable engine, if its memory
suffices. -/
theorem solo_fits {engines : Roster EngineStatus} {allowUnknown : Bool} {adapter : Adapter}
    {engine : String} (hnamed : device ≠ "") (hprovided : missingCapabilities t device = [])
    (hadapter : frozenAdapter t device = some adapter)
    (hengine : engineFor t device = .ok engine)
    (hstatus : (soloSnapshot engines).status engine = .present ∨
      (soloSnapshot engines).status engine = .unknown ∧ allowUnknown = true)
    (hmemory : ((memoryCosts memory).predictedResources t device).1 ≤ 1) :
    fits (memoryCosts memory) t device (soloSnapshot engines) allowUnknown = .ok () := by
  have hshort : (soloSnapshot engines).ramShort (memoryCosts memory)
      ((memoryCosts memory).predictedResources t device).1 = false := by
    simpa [Snapshot.ramShort, soloSnapshot, memoryCosts] using hmemory
  refine fits_ok.mpr ⟨routeGate_ok.mpr ⟨hnamed, rfl, .inl rfl, .inr ⟨adapter, hadapter⟩⟩,
    ?_, capabilityGate_ok.mpr hprovided, ?_, ?_⟩
  · simp [Snapshot.liveGate, soloSnapshot, refuseIf, bind, Except.bind]
  · have hpool : (soloSnapshot engines).poolGate adapter = .ok () := by
      unfold Snapshot.poolGate
      cases adapter.pool <;> simp [soloSnapshot]
    unfold Snapshot.adapterGate
    rw [hadapter]
    exact unit_bind_ok.mpr ⟨hpool, engineGate_ok.mpr ⟨engine, hengine, hstatus⟩⟩
  · unfold Snapshot.memoryGate
    simp only
    split
    · unfold Snapshot.gpuGate
      rw [unit_bind_ok, unit_bind_ok]
      refine ⟨by simp [refuseIf, soloSnapshot], by simp [refuseIf, soloSnapshot], ?_⟩
      rw [if_pos (by simp [Snapshot.discreteGpu, soloSnapshot]), hengine]
      simp only
      rw [unit_bind_ok, unit_bind_ok]
      exact ⟨rfl, rfl, refuseIf_ok.mpr (by simp [hshort])⟩
    · exact refuseIf_ok.mpr (by simp [hshort])

/-- A device that is short of host memory and reports no video memory refuses for its memory. -/
theorem memoryGate_short {c : Costs} {s : Snapshot} (htopology : s.gpuMemoryTopology = .discrete)
    (htotal : s.vramTotalMb = none) (hfree : s.vramFreeMb = none)
    (hshort : s.ramShort c (c.predictedResources t device).1 = true) :
    ∃ reason, (∀ engine, reason ≠ .notInstalled engine) ∧
      s.memoryGate c t device = .error reason := by
  have hdiscrete : s.discreteGpu = true := by simp [Snapshot.discreteGpu, htopology]
  unfold Snapshot.memoryGate
  simp only
  split
  · unfold Snapshot.gpuGate
    simp only [htopology, hdiscrete, refuseIf, reduceCtorEq, if_false, if_true]
    cases engineFor t device with
    | error detail => exact ⟨.engineMismatch detail, by simp, rfl⟩
    | ok engine =>
      refine ⟨.insufficientHostRam (c.predictedResources t device).1, by simp, ?_⟩
      simp [Snapshot.cardGate, Snapshot.launchGate, htotal, hfree, hshort, bind, Except.bind]
  · exact ⟨.insufficientRam (c.predictedResources t device).1, by simp, by simp [refuseIf, hshort]⟩

/-- Without memory enough the device refuses. -/
theorem solo_not_fits {engines : Roster EngineStatus} {allowUnknown : Bool}
    (hmemory : 1 < ((memoryCosts memory).predictedResources t device).1) :
    fits (memoryCosts memory) t device (soloSnapshot engines) allowUnknown ≠ .ok () := by
  intro h
  obtain ⟨-, -, -, -, hgate⟩ := fits_ok.mp h
  have hshort : (soloSnapshot engines).ramShort (memoryCosts memory)
      ((memoryCosts memory).predictedResources t device).1 = true := by
    simpa [Snapshot.ramShort, soloSnapshot, memoryCosts] using hmemory
  obtain ⟨reason, -, herror⟩ := memoryGate_short (s := soloSnapshot engines) rfl rfl rfl hshort
  simp [herror] at hgate

theorem solo_estimate {jobs : List FleetTask} (hne : jobs ≠ []) (d : String) :
    (memoryCosts memory).estimateFinish jobs d = none := by
  cases jobs with
  | nil => exact absurd rfl hne
  | cons t0 rest =>
    have hprofile : (memoryCosts memory).profile t0 d = none := by
      unfold Costs.profile
      split
      · rfl
      · cases hkey : memory (preparedProfileKey t0 d) <;>
          simp [memoryCosts, memoryProfile, hkey]
    simp [Costs.estimateFinish, hprofile]

end Solo

/-! ## Plans over one device -/

theorem candidateDevices_nodup (t : FleetTask) : (candidateDevices t).Nodup := by
  unfold candidateDevices
  split
  · cases t.forceDevice <;> simp
  · cases t.engine with
    | none => exact t.adapters.keys_nodup
    | some engine => exact t.adapters.keys_nodup.sublist (List.filter_sublist.map _)

/-- With one device the whole group goes there or nowhere. -/
theorem assignGroup_solo {c : Costs} {snaps : Roster Snapshot} {backlog : Backlog}
    {jobs : List FleetTask} (h : ∀ d s, snaps.get d = some s → d = device) :
    c.assignGroup snaps backlog jobs = .ok [] ∨
      c.assignGroup snaps backlog jobs = .ok [c.batch backlog jobs device] := by
  unfold Costs.assignGroup
  cases jobs with
  | nil => exact .inl rfl
  | cons t0 rest =>
    simp only
    cases forcedDevices (t0 :: rest) with
    | cons forced others =>
      cases others with
      | cons forced' others => exact .inl rfl
      | nil =>
        simp only [Costs.placeForced]
        cases hget : snaps.get forced with
        | none => exact .inl rfl
        | some s =>
          rw [h forced s hget]
          simp only
          split
          · exact .inr rfl
          · exact .inl rfl
    | nil =>
      have hall : ∀ d ∈ c.fittingDevices t0 snaps, d = device := by
        intro d hd
        obtain ⟨-, s, hget, -⟩ := mem_fittingDevices.mp hd
        exact h d s hget
      have hnodup : (c.fittingDevices t0 snaps).Nodup := (candidateDevices_nodup t0).filter _
      simp only
      cases hfitting : c.fittingDevices t0 snaps with
      | nil => exact .inl rfl
      | cons d others =>
        rw [hfitting] at hall hnodup
        obtain rfl := hall d List.mem_cons_self
        cases others with
        | nil => exact .inr rfl
        | cons d' others =>
          have := hall d' (by simp)
          simp [this] at hnodup

namespace Tick

/-- The plan with nothing and the plan with one group on the device. -/
def emptyPlan (tick : Tick) : Plan := ⟨[], tick.liveBacklog, []⟩

def chosen (tick : Tick) (device : String) (g : Group) : Plan :=
  let batch := tick.costs.batch tick.liveBacklog g.tasks device
  ⟨[device], extend tick.liveBacklog batch, [⟨g, batch⟩]⟩

variable {tick : Tick} {groups : List Group} {start : Roster Snapshot} {g : Group}

theorem addBatch_emptyPlan (hparallel : tick.maxParallel = none) :
    tick.addBatch g tick.emptyPlan (tick.costs.batch tick.liveBacklog g.tasks device) =
      tick.chosen device g := by
  unfold addBatch full
  rw [hparallel]
  rfl

theorem addBatch_chosen {g' : Group} (backlog : Backlog) :
    tick.addBatch g (tick.chosen device g') (tick.costs.batch backlog g.tasks device) =
      tick.chosen device g' := by
  simp [addBatch, chosen, Costs.batch]

/-- The plans of a tick with one device. -/
def SoloPlan (tick : Tick) (device : String) (groups : List Group) (plan : Plan) : Prop :=
  plan = tick.emptyPlan ∨ ∃ g ∈ groups, plan = tick.chosen device g

theorem simulateGroup_solo {plan : Plan} (hparallel : tick.maxParallel = none)
    (hdevices : ∀ d dev, tick.devices.get d = some dev → d = device) (hg : g ∈ groups)
    (hcompatible : ∀ job ∈ g.tasks, Compatible g.head job)
    (hengine : ∀ d ∈ candidateNames g.head, ∃ engine, engineFor g.head d = .ok engine)
    (hplan : SoloPlan tick device groups plan) :
    Triple (CacheInv tick groups start) (tick.simulateGroup plan g) (fun next cache =>
      CacheInv tick groups start cache ∧ (next = plan ∨
        plan = tick.emptyPlan ∧ next = tick.chosen device g)) fun _ _ => False := by
  unfold simulateGroup
  rw [full, hparallel]
  simp only [Option.any_none, Bool.false_eq_true, if_false]
  refine triple_bind (collect_spec hg plan.usedDevices hengine) fun snaps => ?_
  split
  · exact triple_pure fun cache h => ⟨h.1, .inl rfl⟩
  · rw [planJobs_compatible hcompatible]
    refine triple_of_each (R := fun cache next cache' => cache' = cache ∧ (next = plan ∨
      plan = tick.emptyPlan ∧ next = tick.chosen device g)) (fun cache h => ?_)
      fun cache next cache' h hpost => ⟨hpost.1 ▸ h.1, hpost.2⟩
    have hsolo : ∀ d s, snaps.get d = some s → d = device := by
      intro d s hget
      obtain ⟨-, -, dev, -, hdev, -⟩ := h.1.sourced d s (h.2.sound d s hget).2
      exact hdevices d dev hdev
    have hassign : tick.costs.assignGroup snaps plan.timeline g.tasks = .ok [] ∨
        tick.costs.assignGroup snaps plan.timeline g.tasks =
          .ok [tick.costs.batch plan.timeline g.tasks device] := assignGroup_solo hsolo
    rcases hassign with hnothing | hbatch
    · rw [hnothing]
      intro s hs
      subst hs
      exact ⟨rfl, .inl rfl⟩
    · rw [hbatch]
      intro s hs
      subst hs
      refine ⟨rfl, ?_⟩
      rcases hplan with rfl | ⟨g', -, rfl⟩
      · exact .inr ⟨rfl, addBatch_emptyPlan hparallel⟩
      · exact .inl (addBatch_chosen _)

/-- A group that the device takes is planned when it comes first. -/
theorem simulateGroup_first {s : Snapshot} (hparallel : tick.maxParallel = none)
    (hdevices : ∀ d dev, tick.devices.get d = some dev → d = device)
    (hcool : ∀ d engine, tick.isCooled d engine = false) {dev : DeviceConf} (hdev : tick.devices.get device = some dev)
    (hstart : start.get device = some s) (hg : g ∈ groups)
    (hcompatible : ∀ job ∈ g.tasks, Compatible g.head job)
    (hengine : ∀ d ∈ candidateNames g.head, ∃ engine, engineFor g.head d = .ok engine)
    (hcandidate : device ∈ candidateNames g.head)
    (hplace : ∀ snaps : Roster Snapshot, snaps.get device = some s →
      (∀ d s', snaps.get d = some s' → d = device) →
      tick.costs.assignGroup snaps tick.liveBacklog g.tasks =
        .ok [tick.costs.batch tick.liveBacklog g.tasks device]) :
    Triple (CacheInv tick groups start) (tick.simulateGroup tick.emptyPlan g) (fun next cache =>
      CacheInv tick groups start cache ∧ next = tick.chosen device g) fun _ _ => False := by
  unfold simulateGroup
  rw [full, hparallel]
  simp only [Option.any_none, Bool.false_eq_true, if_false]
  refine triple_bind (collect_spec hg [] hengine) fun snaps cache h => ?_
  obtain ⟨engine, hfor⟩ := hengine device hcandidate
  have hconsiders : tick.Considers [] g.head device :=
    ⟨hcandidate, by simp, engine, hfor, hcool device engine⟩
  obtain ⟨s', hget⟩ := h.2.complete device dev hconsiders hdev
  have hcached := (h.2.sound device s' hget).2
  have hsame : s' = s := by
    rw [h.1.grown device s hstart] at hcached
    exact (Option.some.inj hcached).symm
  subst hsame
  have hne : snaps.rows.isEmpty = false := by
    obtain ⟨name, hrow, -⟩ := Dict.get_eq_some.mp hget
    cases hrows : snaps.rows with
    | nil => simp [hrows] at hrow
    | cons _ _ => rfl
  rw [hne, planJobs_compatible hcompatible]
  have hbatch := hplace snaps hget fun d s'' hd => by
    obtain ⟨-, -, dev', -, hdev', -⟩ := h.1.sourced d s'' (h.2.sound d s'' hd).2
    exact hdevices d dev' hdev'
  simp only [emptyPlan, Bool.false_eq_true, if_false]
  rw [hbatch]
  exact ⟨h.1, addBatch_emptyPlan hparallel⟩

/-! ## The plan of the tick -/

theorem chosen_ne_emptyPlan : tick.chosen device g ≠ tick.emptyPlan := by
  intro h
  simpa [chosen, emptyPlan] using congrArg Plan.planned h

/-- What a tick with one device needs to be known for sure. -/
structure Solo (tick : Tick) (device : String) (groups : List Group) : Prop where
  parallel : tick.maxParallel = none
  devices : ∀ d dev, tick.devices.get d = some dev → d = device
  compatible : ∀ g ∈ groups, ∀ job ∈ g.tasks, Compatible g.head job
  engine : ∀ g ∈ groups, ∀ d ∈ candidateNames g.head, ∃ engine, engineFor g.head d = .ok engine

/-- The group in front takes the device with this snapshot, without an estimate, and no group
has more jobs. -/
structure Takes (tick : Tick) (device : String) (groups : List Group) (s : Snapshot)
    (first : Group) : Prop where
  cool : ∀ d engine, tick.isCooled d engine = false
  configured : ∃ dev, tick.devices.get device = some dev
  member : first ∈ groups
  candidate : device ∈ candidateNames first.head
  place : ∀ snaps : Roster Snapshot, snaps.get device = some s →
    (∀ d s', snaps.get d = some s' → d = device) →
    tick.costs.assignGroup snaps tick.liveBacklog first.tasks =
      .ok [tick.costs.batch tick.liveBacklog first.tasks device]
  largest : ∀ g ∈ groups, g.tasks.length ≤ first.tasks.length
  unestimated : tick.costs.estimateFinish first.tasks device = none

variable {first : Group} {s : Snapshot}

theorem simulate_solo (h : Solo tick device groups) {order : List Group}
    (horder : ∀ g ∈ order, g ∈ groups) :
    Triple (CacheInv tick groups start) (tick.simulate order) (fun plan cache =>
      CacheInv tick groups start cache ∧ SoloPlan tick device groups plan) fun _ _ => False := by
  refine (triple_foldlM (fun _ plan cache => CacheInv tick groups start cache ∧
    SoloPlan tick device groups plan) fun done g rest plan hsplit => ?_).pre
    fun cache hcache => ⟨hcache, .inl rfl⟩
  have hg : g ∈ groups := horder g (by simp [hsplit])
  refine triple_of_pure_right fun hplan => ?_
  refine (simulateGroup_solo h.parallel h.devices hg (h.compatible g hg) (h.engine g hg)
    hplan).post fun next cache hnext => ⟨hnext.1, ?_⟩
  rcases hnext.2 with rfl | ⟨-, rfl⟩
  · exact hplan
  · exact .inr ⟨g, hg, rfl⟩

theorem simulate_first (h : Solo tick device groups) (htakes : Takes tick device groups s first)
    (hstart : start.get device = some s) {rest : List Group} (horder : ∀ g ∈ rest, g ∈ groups) :
    Triple (CacheInv tick groups start) (tick.simulate (first :: rest)) (fun plan cache =>
      CacheInv tick groups start cache ∧ plan = tick.chosen device first) fun _ _ => False := by
  obtain ⟨dev, hdev⟩ := htakes.configured
  unfold simulate
  rw [List.foldlM_cons]
  refine triple_bind (simulateGroup_first h.parallel h.devices htakes.cool hdev hstart
    htakes.member (h.compatible _ htakes.member) (h.engine _ htakes.member) htakes.candidate
    htakes.place) fun plan => ?_
  refine triple_of_pure_right fun hplan => ?_
  subst hplan
  refine (triple_foldlM (fun _ plan cache => CacheInv tick groups start cache ∧
    plan = tick.chosen device first) fun done g others plan hsplit => ?_).pre
    fun cache hcache => ⟨hcache, rfl⟩
  have hg : g ∈ groups := horder g (by simp [hsplit])
  refine triple_of_pure_right fun hplan => ?_
  subst hplan
  refine (simulateGroup_solo h.parallel h.devices hg (h.compatible g hg) (h.engine g hg)
    (.inr ⟨first, htakes.member, rfl⟩)).post fun next cache hnext => ⟨hnext.1, ?_⟩
  rcases hnext.2 with hsame | ⟨hempty, -⟩
  · exact hsame
  · exact absurd hempty chosen_ne_emptyPlan

/-- No plan of the tick replaces the one that has the group in front. -/
theorem better_chosen (htakes : Takes tick device groups s first) {plan : Plan}
    (hplan : SoloPlan tick device groups plan) :
    Plan.better (some (tick.chosen device first)) plan = tick.chosen device first := by
  have hmakespan : (tick.chosen device first).makespan = none := by
    simp [Plan.makespan, chosen, extend, Costs.batch, htakes.unestimated, Dict.get_set_self]
  have hworse : plan.betterThan (tick.chosen device first) = false := by
    unfold Plan.betterThan
    rw [hmakespan]
    rcases hplan with rfl | ⟨g, hg, rfl⟩
    · simp [Plan.placedJobs, emptyPlan, chosen, Group.tasks, Costs.batch]
    · have hlength := htakes.largest g hg
      simp [Plan.placedJobs, chosen, Costs.batch]
      omega
  simp [Plan.better, hworse]

theorem bestPlan_solo (h : Solo tick device groups) (htakes : Takes tick device groups s first)
    (hstart : start.get device = some s) {rest : List Group} {orders : List (List Group)}
    (hrest : ∀ g ∈ rest, g ∈ groups) (horders : ∀ order ∈ orders, ∀ g ∈ order, g ∈ groups) :
    Triple (CacheInv tick groups start) (tick.bestPlan ((first :: rest) :: orders))
      (fun best cache => CacheInv tick groups start cache ∧
        best = some (tick.chosen device first)) fun _ _ => False := by
  unfold bestPlan
  rw [List.foldlM_cons]
  refine triple_bind (R := fun best cache => CacheInv tick groups start cache ∧
    best = some (tick.chosen device first)) ?_ fun best => ?_
  · refine triple_bind (simulate_first h htakes hstart hrest) fun plan => ?_
    exact triple_pure fun cache hplan => ⟨hplan.1, by rw [hplan.2]; rfl⟩
  · refine triple_foldlM (fun _ best cache => CacheInv tick groups start cache ∧
      best = some (tick.chosen device first)) fun done order others best hsplit => ?_
    refine triple_of_pure_right fun hbest => ?_
    subst hbest
    refine triple_bind (simulate_solo h (horders order (by simp [hsplit]))) fun plan => ?_
    exact triple_pure fun cache hplan => ⟨hplan.1, by rw [better_chosen htakes hplan.2]⟩

end Tick

/-! ## The outcome -/

section Outcome
variable {memory : ProfileKey → Option ℚ} {answers : Bool}

theorem rows_set_empty {α : Type} (k : String) (a : α) :
    (Dict.empty.set k a : Roster α).rows = [(k, a)] := by
  simp [Dict.set, Dict.empty]

theorem le_reclaimNeed (tick : Tick) (name : String) (dev : DeviceConf) (groups : List Group)
    {g : Group} (hg : g ∈ groups)
    (hroute : routeEligibility g.head name dev.enabled dev.automaticPlacement
      (g.head.forceDevice = some name) = .ok ()) (hcandidate : name ∈ candidateNames g.head) :
    (tick.costs.predictedResources g.head name).1 ≤ tick.reclaimNeed name dev groups := by
  unfold Tick.reclaimNeed
  generalize hstep : (fun (need : ℚ) (g : Group) => if (routeEligibility g.head name dev.enabled
    dev.automaticPlacement (g.head.forceDevice = some name)).toBool ∧ name ∈ candidateNames g.head
    then max need (tick.costs.predictedResources g.head name).1 else need) = step
  have hgrows : ∀ (groups : List Group) (need : ℚ), need ≤ groups.foldl step need := by
    intro groups
    induction groups with
    | nil => exact fun need => le_refl need
    | cons g rest ih =>
      intro need
      refine le_trans ?_ (ih _)
      rw [← hstep]
      simp only
      split
      · exact le_max_left _ _
      · exact le_refl _
  suffices hgen : ∀ (groups : List Group) (need : ℚ), g ∈ groups →
      (tick.costs.predictedResources g.head name).1 ≤ groups.foldl step need from hgen groups 0 hg
  intro groups
  induction groups with
  | nil => simp
  | cons next rest ih =>
    intro need hmem
    rcases List.mem_cons.mp hmem with rfl | hmem
    · refine le_trans ?_ (hgrows rest _)
      rw [← hstep]
      simp only
      rw [if_pos ⟨toBool_unit_iff.mpr hroute, hcandidate⟩]
      exact le_max_right _ _
    · exact ih _ hmem

/-- The reclaim probes the device with the adapters of the last group. -/
theorem reclaim_solo {groups : List Group} {last : Group} (hlast : groups.getLast? = some last)
    (hspec : last.head.spec ≠ none)
    (hneed : 0 < (soloTick device memory answers).reclaimNeed device
      ⟨true, false, true, true, 1⟩ groups) :
    Triple (· = Dict.empty) ((soloTick device memory answers).reclaimMarginalDevices groups)
      (fun _ cache => cache.get device = some (soloSnapshot
        ((soloTick device memory answers).host.capabilityEngines device
          (probeAdapterSpecs last.head device)))) fun _ _ => False := by
  have hspecs : Tick.reclaimSpecs groups device = .ok (probeAdapterSpecs last.head device) := by
    unfold Tick.reclaimSpecs
    rw [hlast]
    cases hs : last.head.spec with
    | none => exact absurd hs hspec
    | some spec => simp [hs]
  have hrows : (soloTick device memory answers).devices.rows =
      [(device, ⟨true, false, true, true, 1⟩)] := rows_set_empty _ _
  unfold Tick.reclaimMarginalDevices
  rw [hrows]
  refine triple_bind ?_ fun _ => triple_pure fun _ => id
  have hreclaim : (soloTick device memory answers).reclaimable device
      ⟨true, false, true, true, 1⟩ = true := by
    simp [Tick.reclaimable, soloTick]
  simp only [hreclaim, hneed, decide_true, Bool.and_self, if_true]
  unfold Tick.reclaimDevice
  rw [hspecs]
  -- the memory may be short, but the reclaim command does nothing
  have hquiet : (soloTick device memory answers).host.reclaims device = false := rfl
  refine triple_bind (R := fun specs _ => specs = probeAdapterSpecs last.head device)
    (triple_ofExcept (fun specs h _ _ => (Except.ok.inj h).symm) (fun e h => by simp at h))
    fun specs => ?_
  simp only [hquiet, Bool.and_false, Bool.false_eq_true, if_false]
  refine triple_bind (R := fun _ cache => cache.get device = some (soloSnapshot
    ((soloTick device memory answers).host.capabilityEngines device
      (probeAdapterSpecs last.head device)))) (triple_modify fun cache hspecs => ?_)
    fun _ => triple_pure fun _ => id
  subst hspecs
  rw [Dict.get_set_self, soloTick_snapshot _ rfl]

/-- The tick claims the group in front for the device. -/
theorem drain_solo {q : Queue} {first last : Group} {rest : List Group}
    (hgroups : (soloTick device memory answers).groups q = first :: rest)
    (hfew : rest.length ≤ 1) (hlast : (first :: rest).getLast? = some last)
    (hspec : last.head.spec ≠ none)
    (hneed : 0 < (soloTick device memory answers).reclaimNeed device
      ⟨true, false, true, true, 1⟩ (first :: rest))
    (htakes : Tick.Takes (soloTick device memory answers) device (first :: rest)
      (soloSnapshot ((soloTick device memory answers).host.capabilityEngines device
        (probeAdapterSpecs last.head device))) first) :
    ∃ o, (soloTick device memory answers).drain q = .ok o ∧
      o.snapshots.get device = some (soloSnapshot
        ((soloTick device memory answers).host.capabilityEngines device
          (probeAdapterSpecs last.head device))) ∧
      o.claimed = [⟨first, (memoryCosts memory).batch Dict.empty first.tasks device⟩] := by
  set tick := soloTick device memory answers with htick
  set s := soloSnapshot (tick.host.capabilityEngines device
    (probeAdapterSpecs last.head device)) with hs
  have hsolo : Tick.Solo tick device (first :: rest) := by
    refine ⟨rfl, fun d dev hdev => (soloTick_device hdev).1, fun g hg job hjob => ?_,
      fun g hg d hd => ?_⟩
    · exact tick.group_compatible (q := q) (by rwa [hgroups]) hjob
    · exact Tick.groups_engine (t := tick) (q := q) (by rwa [hgroups]) hd
  have hreclaim : Triple (· = Dict.empty) (tick.reclaimMarginalDevices (first :: rest))
      (fun _ cache => tick.Sourced (first :: rest) cache ∧ cache.get device = some s)
      fun _ _ => False := by
    have hsourced : Triple (tick.Sourced (first :: rest))
        (tick.reclaimMarginalDevices (first :: rest)) (fun _ => tick.Sourced (first :: rest))
        fun _ _ => True :=
      Tick.reclaimMarginalDevices_spec (fun g => List.mem_of_getLast?) fun _ _ _ => trivial
    refine ((hsourced.and (reclaim_solo hlast hspec hneed)).conseq
      (fun cache hcache => ⟨?_, hcache⟩) (fun _ _ => id) fun _ _ h => h.2)
    subst hcache
    exact Tick.sourced_empty
  have hplan : Triple (· = Dict.empty) (tick.plan (first :: rest)) (fun planned cache =>
      cache.get device = some s ∧ planned = (tick.chosen device first).planned)
      fun _ _ => False := by
    refine triple_bind hreclaim fun _ => ?_
    refine triple_of_each (R := fun start planned cache =>
      (Tick.CacheInv tick (first :: rest) start cache ∧ start.get device = some s) ∧
        planned = (tick.chosen device first).planned) (fun start hstart => ?_)
      fun start planned cache hstart h => ⟨h.1.1.grown _ _ h.1.2, h.2⟩
    have hinv : ∀ cache, cache = start → Tick.CacheInv tick (first :: rest) start cache :=
      fun cache hcache => ⟨hcache ▸ Tick.Extends.refl _, hcache ▸ hstart.1⟩
    have horders : ∃ others orders, Selection.orders (first :: rest).length (first :: rest) =
        (first :: others) :: orders := by
      cases rest with
      | nil => exact ⟨[], [], rfl⟩
      | cons g more =>
        cases more with
        | nil => exact ⟨[g], [[g, first]], rfl⟩
        | cons _ _ => simp at hfew
    obtain ⟨others, orders, horders⟩ := horders
    have hsubset : ∀ order ∈ (first :: others) :: orders, ∀ g ∈ order, g ∈ first :: rest := by
      intro order horder g hg
      rw [← horders] at horder
      exact orders_subset horder hg
    have hsix : (first :: rest).length ≤ 6 := by
      simp only [List.length_cons]
      omega
    unfold Tick.planGroups Tick.ordersOf
    rw [if_pos hsix, horders]
    refine ((triple_bind (Tick.bestPlan_solo hsolo htakes hstart.2
      (fun g hg => hsubset _ List.mem_cons_self g (List.mem_cons_of_mem _ hg))
      fun order horder => hsubset order (List.mem_cons_of_mem _ horder)) fun best =>
        triple_pure fun cache h => ⟨⟨h.1, hstart.2⟩, ?_⟩).pre hinv)
    rw [h.2]
    rfl
  obtain ⟨planned, cache, hrun, hget, rfl⟩ := hplan.returns rfl
  refine ⟨_, by rw [Tick.drain, hgroups, EStateM.run, hrun], hget, ?_⟩
  rfl

end Outcome

end Remrun.Fleet.Dispatch
