import Remrun.Fleet.Mixtures
import Remrun.Fleet.Verdicts

/-!
# The group that asks first

The cached snapshot of a device stays the one of the group that asked first, or of the last group
where memory is reclaimed. On hosts where nothing has the memory it needs and one path is
missing, the verdicts then tell whose adapter was probed.
-/

namespace Remrun.Fleet.Dispatch

open Keyed Selection Effect
set_option autoImplicit false

variable {t u w : FleetTask} {device : String} {dev : DeviceConf} {source q : Queue}

namespace Tick

variable {tick : Tick} {groups : List Group} {g asker first last : Group}
  {cache start : Roster Snapshot}

/-! ## Snapshots that stay -/

/-- The cached snapshot of the device is by the adapters of the group. -/
def Asked (tick : Tick) (asker : Group) (device : String) (cache : Roster Snapshot) : Prop :=
  ∃ dev reclaimed, tick.devices.get device = some dev ∧ cache.get device =
    some (tick.buildSnapshot reclaimed device dev (probeAdapterSpecs asker.head device))

theorem asked_of_sourced (h : tick.Sourced [asker] cache) {s : Snapshot}
    (hget : cache.get device = some s) : tick.Asked asker device cache := by
  obtain ⟨g, hg, dev, reclaimed, hdev, -, rfl⟩ := h device s hget
  rw [List.mem_singleton] at hg
  subst hg
  exact ⟨dev, reclaimed, hdev, hget⟩

theorem Sourced.mono {groups' : List Group} (h : tick.Sourced groups cache)
    (hsub : ∀ g ∈ groups, g ∈ groups') : tick.Sourced groups' cache := by
  intro d s hget
  obtain ⟨g, hg, hfrom⟩ := h d s hget
  exact ⟨g, hsub g hg, hfrom⟩

/-- A step that only adds to the cache keeps who asked. -/
theorem keeps_asked {α : Type} {m : Planning α} {E : String → Roster Snapshot → Prop}
    {R : α → Roster Snapshot → Prop}
    (h : ∀ start, Triple (CacheInv tick groups start) m
      (fun a cache => CacheInv tick groups start cache ∧ R a cache) E) :
    Triple (fun cache => tick.Sourced groups cache ∧ tick.Asked asker device cache) m
      (fun _ cache => tick.Sourced groups cache ∧ tick.Asked asker device cache) E := by
  refine triple_of_each (R := fun start a cache => CacheInv tick groups start cache ∧ R a cache)
    (fun start hstart => (h start).pre fun cache heq => ?_) fun start a cache hstart hpost => ?_
  · subst heq
    exact ⟨Extends.refl _, hstart.1⟩
  · obtain ⟨dev, reclaimed, hdev, hget⟩ := hstart.2
    exact ⟨hpost.1.sourced, dev, reclaimed, hdev, hpost.1.grown _ _ hget⟩

variable (hengine : ∀ g ∈ groups, ∀ d ∈ candidateNames g.head,
  ∃ engine, engineFor g.head d = .ok engine)

include hengine in
theorem simulateGroup_cache {plan : Plan} (hg : g ∈ groups) :
    Triple (CacheInv tick groups start) (tick.simulateGroup plan g)
      (fun _ cache => CacheInv tick groups start cache ∧ True) fun _ _ => True := by
  unfold simulateGroup
  split
  · exact triple_pure fun cache h => ⟨h, trivial⟩
  · refine triple_bind ((collect_spec hg plan.usedDevices (hengine g hg)).conseq (fun _ => id)
      (fun _ _ => id) fun _ _ => False.elim) fun snaps => ?_
    split
    · exact triple_pure fun cache h => ⟨h.1, trivial⟩
    · refine triple_bind (R := fun _ cache => CacheInv tick groups start cache)
        (triple_ofExcept (fun _ _ cache h => h.1) fun _ _ _ _ => trivial) fun batches => ?_
      exact triple_pure fun cache h => ⟨h, trivial⟩

include hengine in
theorem simulate_keeps {order : List Group} (horder : ∀ g ∈ order, g ∈ groups) (plan : Plan) :
    Triple (fun cache => tick.Sourced groups cache ∧ tick.Asked asker device cache)
      (order.foldlM tick.simulateGroup plan)
      (fun _ cache => tick.Sourced groups cache ∧ tick.Asked asker device cache)
      fun _ _ => True :=
  triple_foldlM (fun _ _ cache => tick.Sourced groups cache ∧ tick.Asked asker device cache)
    fun done g rest plan hsplit => keeps_asked fun start =>
      simulateGroup_cache hengine (horder g (by simp [hsplit]))

/-! ## The first of few groups -/

/-- Without a reclaim the group in front asks for every device that it considers. -/
theorem simulateGroup_asks (hfirst : ∀ d ∈ candidateNames first.head,
      ∃ engine, engineFor first.head d = .ok engine)
    (hconsiders : tick.Considers [] first.head device) (hdev : tick.devices.get device = some dev) :
    Triple (· = Dict.empty) (tick.simulateGroup tick.emptyPlan first)
      (fun _ cache => tick.Sourced [first] cache ∧ tick.Asked first device cache)
      fun _ _ => True := by
  have hcollect : Triple (CacheInv tick [first] Dict.empty) (tick.collect [] first.head)
      (fun snaps cache => CacheInv tick [first] Dict.empty cache ∧
        Collected tick [] first.head snaps cache) fun _ _ => False :=
    collect_spec (List.mem_singleton_self first) [] hfirst
  have hasked : ∀ snaps cache, CacheInv tick [first] Dict.empty cache ∧
      Collected tick [] first.head snaps cache →
      tick.Sourced [first] cache ∧ tick.Asked first device cache := by
    intro snaps cache h
    obtain ⟨s, hget⟩ := h.2.complete device dev hconsiders hdev
    exact ⟨h.1.sourced, asked_of_sourced h.1.sourced (h.2.sound device s hget).2⟩
  have hroom : tick.full tick.emptyPlan.planned.length = false := full_zero
  unfold simulateGroup
  rw [hroom]
  simp only [Bool.false_eq_true, if_false]
  refine triple_bind (hcollect.conseq (fun cache heq => ?_) hasked fun _ _ => False.elim)
    fun snaps => ?_
  · subst heq
    exact ⟨Extends.refl _, sourced_empty⟩
  · split
    · exact triple_pure fun _ => id
    · refine triple_bind (R := fun _ cache => tick.Sourced [first] cache ∧
        tick.Asked first device cache)
        (triple_ofExcept (fun _ _ _ => id) fun _ _ _ _ => trivial) fun batches => ?_
      exact triple_pure fun _ => id

include hengine in
theorem planGroups_asks {rest : List Group} (hgroups : groups = first :: rest)
    (hfew : groups.length ≤ 6) (hconsiders : tick.Considers [] first.head device)
    (hdev : tick.devices.get device = some dev) :
    Triple (· = Dict.empty) (tick.planGroups groups)
      (fun _ cache => tick.Asked first device cache) fun _ _ => True := by
  have horders : ∃ others orders, Selection.orders groups.length groups =
      (first :: others) :: orders := by
    subst hgroups
    have hsome : Selection.orders rest.length rest ≠ [] := orders_ne_nil rfl
    obtain ⟨order, more, horder⟩ := List.exists_cons_of_ne_nil hsome
    exact ⟨order, _, by
      rw [List.length_cons, Selection.orders, picks, List.flatMap_cons, horder]
      rfl⟩
  obtain ⟨others, orders, horders⟩ := horders
  have hsubset : ∀ order ∈ (first :: others) :: orders, ∀ g ∈ order, g ∈ groups := by
    intro order horder g hg
    rw [← horders] at horder
    exact orders_subset horder hg
  have hfirst : first ∈ groups := hgroups ▸ List.mem_cons_self
  have hbest : Triple (· = Dict.empty) (tick.bestPlan ((first :: others) :: orders))
      (fun _ cache => tick.Sourced groups cache ∧ tick.Asked first device cache)
      fun _ _ => True := by
    unfold bestPlan
    rw [List.foldlM_cons]
    refine triple_bind (R := fun _ cache => tick.Sourced groups cache ∧
      tick.Asked first device cache) ?_ fun best => ?_
    · refine triple_bind (R := fun _ cache => tick.Sourced groups cache ∧
        tick.Asked first device cache) ?_ fun plan => triple_pure fun _ => id
      unfold simulate
      rw [List.foldlM_cons]
      refine triple_bind (R := fun _ cache => tick.Sourced groups cache ∧
        tick.Asked first device cache)
        ((simulateGroup_asks (hengine first hfirst) hconsiders hdev).post
          fun plan cache h => ⟨h.1.mono (by simpa using hfirst), h.2⟩) fun plan => ?_
      exact simulate_keeps hengine (fun g hg => hsubset _ List.mem_cons_self g
        (List.mem_cons_of_mem _ hg)) plan
    · refine triple_foldlM (fun _ _ cache => tick.Sourced groups cache ∧
        tick.Asked first device cache) fun done order more best hsplit => ?_
      refine triple_bind (simulate_keeps hengine (hsubset order (by simp [hsplit])) _)
        fun plan => ?_
      exact triple_pure fun _ => id
  unfold planGroups ordersOf
  rw [if_pos hfew, horders]
  refine triple_bind (R := fun orders' cache => orders' = (first :: others) :: orders ∧
    cache = Dict.empty) (triple_pure fun _ h => ⟨rfl, h⟩) fun orders' => ?_
  refine triple_of_pure fun heq => ?_
  subst heq
  exact triple_bind hbest fun best => triple_pure fun cache h => h.2

/-- Where every device holds a lease, nothing is reclaimed. -/
theorem reclaim_skips (h : ∀ name dev, tick.devices.get name = some dev →
      tick.reclaimable name dev = false) :
    Triple (· = Dict.empty) (tick.reclaimMarginalDevices groups)
      (fun _ cache => cache = Dict.empty) fun _ _ => True := by
  refine triple_forM fun row hrow => ?_
  have hdev : tick.devices.get row.1 = some row.2 := Dict.get_eq_some.mpr ⟨row.1, hrow, rfl⟩
  rw [h row.1 row.2 hdev]
  exact triple_pure fun _ => id

/-! ## The last group -/

/-- The reclaim of a device leaves the snapshot of the last group. -/
theorem reclaim_asks (hlast : groups.getLast? = some last)
    (hdev : tick.devices.get device = some dev) (hreclaim : tick.reclaimable device dev = true)
    (hneed : 0 < tick.reclaimNeed device dev groups) :
    Triple (· = Dict.empty) (tick.reclaimMarginalDevices groups)
      (fun _ cache => tick.Sourced [last] cache ∧ tick.Asked last device cache)
      fun _ _ => True := by
  have hsourced : Triple (tick.Sourced [last]) (tick.reclaimMarginalDevices groups)
      (fun _ => tick.Sourced [last]) fun _ _ => True := by
    refine reclaimMarginalDevices_spec (fun g hg => ?_) fun _ _ _ => trivial
    rw [hlast] at hg
    simp [Option.some.inj hg]
  have hset : ∀ (name : String) (s : Snapshot), ∀ cache : Roster Snapshot,
      (∃ s, cache.get device = some s) → ∃ s', (cache.set name s).get device = some s' := by
    intro name s cache ⟨s', hget⟩
    rw [Dict.get_set]
    split
    · exact ⟨s, rfl⟩
    · exact ⟨s', hget⟩
  have hcached : Triple (fun _ => True) (tick.reclaimMarginalDevices groups)
      (fun _ cache => ∃ s, cache.get device = some s) fun _ _ => True := by
    obtain ⟨name, hrow, hname⟩ := Dict.get_eq_some.mp hdev
    obtain rfl : name = device := hname
    refine triple_forM_of_mem hrow (fun row _ s _ => ?_) ?_ fun row _ => ?_
    · split <;> trivial
    · simp only [hreclaim, hneed, decide_true, Bool.and_self, if_true]
      refine triple_bind (R := fun _ _ => True)
        (triple_ofExcept (fun _ _ _ _ => trivial) fun _ _ _ _ => trivial) fun specs => ?_
      refine triple_bind (R := fun _ cache => ∃ s, cache.get name = some s)
        (triple_modify fun cache _ => ⟨_, Dict.get_set_self ..⟩) fun _ => ?_
      split
      · exact triple_modify (hset _ _)
      · exact triple_pure fun _ => id
    · split
      · refine triple_bind (R := fun _ cache => ∃ s, cache.get name = some s)
          (triple_ofExcept (fun _ _ _ => id) fun _ _ _ _ => trivial) fun specs => ?_
        refine triple_bind (R := fun _ cache => ∃ s, cache.get name = some s)
          (triple_modify (hset _ _)) fun _ => ?_
        split
        · exact triple_modify (hset _ _)
        · exact triple_pure fun _ => id
      · exact triple_pure fun _ => id
  refine (hsourced.and hcached).conseq (fun cache heq => ?_) (fun _ cache h => ?_)
    fun _ _ _ => trivial
  · subst heq
    exact ⟨sourced_empty, trivial⟩
  · obtain ⟨s, hget⟩ := h.2
    exact ⟨h.1, asked_of_sourced h.1 hget⟩

theorem drain_asks_last {o : Outcome} (hlast : (tick.groups q).getLast? = some last)
    (hdev : tick.devices.get device = some dev) (hreclaim : tick.reclaimable device dev = true)
    (hneed : 0 < tick.reclaimNeed device dev (tick.groups q)) (hdrain : tick.drain q = .ok o) :
    tick.Asked last device o.snapshots := by
  have hengine : ∀ g ∈ tick.groups q, ∀ d ∈ candidateNames g.head,
      ∃ engine, engineFor g.head d = .ok engine := fun g hg d => groups_engine hg
  have hplan : Triple (· = Dict.empty) (tick.plan (tick.groups q))
      (fun _ cache => tick.Asked last device cache) fun _ _ => True := by
    refine triple_bind (reclaim_asks hlast hdev hreclaim hneed) fun _ => ?_
    refine (keeps_asked (R := fun planned cache =>
      ∀ item ∈ planned, tick.PlannedFrom (tick.groups q) cache item) fun start =>
        planGroups_spec (E := fun _ _ => True) hengine fun _ _ _ _ _ _ _ => trivial).conseq
      (fun cache h => ⟨h.1.mono ?_, h.2⟩) (fun _ cache h => h.2) fun _ _ => id
    intro g hg
    rw [List.mem_singleton.mp hg]
    exact List.mem_of_getLast? hlast
  exact (drain_post hplan hdrain).1

end Tick

/-! ## Hosts without memory -/

/-- Nothing has the memory it needs, one path is missing, and the devices hold leases or none
does. -/
def starvedTick (devices : Roster DeviceConf) (leased : Bool) (missing : String) : Tick where
  jobIds := none
  maxParallel := none
  devices := devices
  host := {
    reading := fun _ => some ⟨some 0, none, none, .discrete⟩
    freed := fun _ => some ⟨some 0, none, none, .discrete⟩
    reclaims := fun _ => false
    answers := fun _ => true
    pathExists := fun _ path => some (path ≠ missing) }
  costs := memoryCosts fun _ => some 1
  cooldowns := fun _ => none
  leaseUsed := if leased then devices.mapValues fun _ => Dict.empty.set "" 1 else Dict.empty
  activeBatches := Dict.empty
  liveBacklog := Dict.empty
  claimMany := fun _ _ => true
  stopRequested := fun _ => false

section Starved
variable {devices : Roster DeviceConf} {leased reclaimed : Bool} {missing engine : String}
  {specs : List Adapter} {allowUnknown : Bool}

theorem starved_steady : (starvedTick devices leased missing).Steady := fun _ => rfl

theorem starved_idle : (starvedTick devices leased missing).Idle device := rfl

theorem starved_cool : (starvedTick devices leased missing).isCooled device engine = false := rfl

/-- A path is said to be missing by a probe that looks for it. -/
theorem starved_qualify {paths : List String} :
    (starvedTick devices leased missing).host.qualify device paths = .absent ↔ missing ∈ paths := by
  have hknown : none ∉ paths.map ((starvedTick devices leased missing).host.pathExists device) := by
    simp [starvedTick]
  unfold Host.qualify
  constructor
  · intro h
    by_contra hmem
    have hall : ∀ path ∈ paths,
        (starvedTick devices leased missing).host.pathExists device path = some true := by
      intro path hpath
      have hne : path ≠ missing := fun heq => hmem (heq ▸ hpath)
      simp [starvedTick, hne]
    rw [if_pos hall] at h
    split at h <;> simp at h
  · intro hmem
    have hne : paths ≠ [] := List.ne_nil_of_mem hmem
    rw [if_neg, if_neg]
    · intro hall
      simpa [starvedTick] using hall missing hmem
    · rintro (hanswers | hnil | hnone)
      · simp [starvedTick] at hanswers
      · exact hne hnil
      · exact hknown hnone

theorem starved_ramShort : ((starvedTick devices leased missing).buildSnapshot reclaimed device dev
    specs).ramShort (starvedTick devices leased missing).costs
      ((starvedTick devices leased missing).costs.predictedResources t device).1 = true := by
  cases reclaimed <;>
    simp [Snapshot.ramShort, Tick.buildSnapshot, starvedTick, memoryCosts, memoryProfile,
      Costs.predictedResources]

theorem starved_memoryGate : ∃ reason, (∀ engine, reason ≠ .notInstalled engine) ∧
    ((starvedTick devices leased missing).buildSnapshot reclaimed device dev specs).memoryGate
      (starvedTick devices leased missing).costs t device = .error reason := by
  refine memoryGate_short ?_ ?_ ?_ starved_ramShort
  all_goals cases reclaimed <;> rfl

/-- The verdict on a task that the device could serve tells whether the probe found the path
missing. -/
theorem starved_verdict (hserved : Served dev t device) {adapter : Adapter}
    (hadapter : frozenAdapter t device = some adapter) (hengine : engineFor t device = .ok engine) :
    fits (starvedTick devices leased missing).costs t device
        ((starvedTick devices leased missing).buildSnapshot reclaimed device dev
          (probeAdapterSpecs w device)) allowUnknown = .error (.notInstalled engine) ↔
      missing ∈ provingPaths w device engine := by
  set tick := starvedTick devices leased missing with htick
  rw [Tick.buildSnapshot_steady starved_steady]
  set s := tick.buildSnapshot false device dev (probeAdapterSpecs w device) with hs
  have hpreliminary : s.preliminary t device = .ok () := by
    refine unit_bind_ok.mpr ⟨routeGate_ok.mpr ⟨hserved.capable.named, hserved.enabled,
      hserved.available, .inr ⟨adapter, hadapter⟩⟩, unit_bind_ok.mpr ⟨unit_bind_ok.mpr
        ⟨refuseIf_ok.mpr (by simp [hs, htick, starvedTick, Tick.buildSnapshot]), refuseIf_ok.mpr ?_⟩,
        capabilityGate_ok.mpr hserved.capable.provided⟩⟩
    have hroomy := hserved.roomy
    have hactive : s.activeJobs = 0 := rfl
    have hmax : s.maxJobs = dev.maxJobs := rfl
    omega
  have hpool : s.poolGate adapter = .ok () := by
    unfold Snapshot.poolGate
    cases adapter.pool with
    | none => rfl
    | some pool =>
      have hfree : s.poolFree = Dict.empty := rfl
      simp [hfree]
  obtain ⟨reason, hreason, hmemory⟩ : ∃ reason, (∀ engine, reason ≠ .notInstalled engine) ∧
      s.memoryGate tick.costs t device = .error reason := starved_memoryGate
  have hstatus : s.status engine = tick.host.qualify device (provingPaths w device engine) :=
    Tick.status_buildSnapshot rfl engine
  have hverdict : fits tick.costs t device s allowUnknown =
      (engineVerdict engine (s.status engine) allowUnknown >>= fun _ => .error reason) := by
    rw [fits_eq_preliminary, hpreliminary, hmemory]
    simp only [Snapshot.adapterGate, hadapter, hpool, Snapshot.engineGate, hengine]
    rfl
  have hqualify : s.status engine = .absent ↔ missing ∈ provingPaths w device engine := by
    rw [hstatus]
    exact starved_qualify
  rw [hverdict, ← hqualify]
  cases hcase : s.status engine with
  | absent => simp [engineVerdict, bind, Except.bind]
  | present => simp [engineVerdict, bind, Except.bind, hreason engine]
  | unknown => cases allowUnknown <;> simp [engineVerdict, refuseIf, bind, Except.bind, hreason engine]

/-- Nothing is planned. -/
theorem starved_planned {o : Tick.Outcome}
    (hdrain : (starvedTick devices leased missing).drain q = .ok o) : o.planned = [] := by
  apply List.eq_nil_iff_forall_not_mem.mpr
  intro item hitem
  obtain ⟨-, -, -, s, hget, hverdict⟩ := Tick.planned_checked hdrain hitem
  obtain ⟨-, hsourced, -, -⟩ := Tick.drain_spec hdrain
  obtain ⟨asker, -, dev, reclaimed, -, -, rfl⟩ := hsourced _ s hget
  obtain ⟨reason, -, hmemory⟩ : ∃ reason, (∀ engine, reason ≠ .notInstalled engine) ∧
      ((starvedTick devices leased missing).buildSnapshot reclaimed item.batch.device dev
        (probeAdapterSpecs asker.head item.batch.device)).memoryGate
          (starvedTick devices leased missing).costs item.group.head item.batch.device =
        .error reason := starved_memoryGate
  rcases hverdict with ⟨-, hfits⟩ | ⟨-, hfits⟩
  all_goals
    obtain ⟨-, -, -, -, hgate⟩ := fits_ok.mp hfits
    rw [hmemory] at hgate
    simp at hgate

/-! ## Two queue states -/

theorem starved_groups {tasks : List FleetTask} (htasks : q.verifiedTasks = tasks) :
    (starvedTick devices leased missing).groups q =
      (groupsOf tasks).filter fun g => !g.exhausted := by
  have hscope : q.rows.filter (starvedTick devices leased missing).inScope = q.rows :=
    List.filter_eq_self.mpr fun row _ => rfl
  rw [Tick.groups, Tick.tasks, hscope, ← htasks]
  rfl

theorem starved_returns (hgroups : ∃ last, ((starvedTick devices leased missing).groups q).getLast? =
      some last ∧ last.head.spec ≠ none)
    (halone : ∀ g ∈ (starvedTick devices leased missing).groups q, g.rest = []) :
    ∃ o, (starvedTick devices leased missing).drain q = .ok o := by
  obtain ⟨last, hlast, hspec⟩ := hgroups
  apply Tick.drain_returns
  · intro name
    cases hs : last.head.spec with
    | none => exact absurd hs hspec
    | some spec => exact ⟨probeAdapterSpecs last.head name, by
        rw [Tick.reclaimSpecs, hlast]
        simp [hs]⟩
  · exact fun g hg => .inl (halone g hg)

/-- With leases everywhere the first group is asked for. -/
theorem starved_asks_first {o : Tick.Outcome} {first : Group} {rest : List Group}
    (hgroups : (starvedTick devices true missing).groups q = first :: rest)
    (hfew : (first :: rest).length ≤ 6)
    (hconsiders : (starvedTick devices true missing).Considers [] first.head device)
    (hdev : devices.get device = some dev)
    (hdrain : (starvedTick devices true missing).drain q = .ok o) :
    (starvedTick devices true missing).Asked first device o.snapshots := by
  have hleased : ∀ name dev, (starvedTick devices true missing).devices.get name = some dev →
      (starvedTick devices true missing).reclaimable name dev = false := by
    intro name dev hdev
    have hused : (starvedTick devices true missing).leaseUsed.get name =
        some (Dict.empty.set "" 1) := by
      simp only [starvedTick, if_true, Dict.get_mapValues]
      rw [show devices.get name = some dev from hdev]
      rfl
    have hrows : (Dict.empty.set "" 1 : Roster Int).rows.isEmpty = false := rfl
    simp [Tick.reclaimable, hused, hrows]
  have hengine : ∀ g ∈ first :: rest, ∀ d ∈ candidateNames g.head,
      ∃ engine, engineFor g.head d = .ok engine := fun g hg d =>
    Tick.groups_engine (t := starvedTick devices true missing) (hgroups ▸ hg)
  have hplan : Triple (· = Dict.empty) ((starvedTick devices true missing).plan (first :: rest))
      (fun _ cache => (starvedTick devices true missing).Asked first device cache)
      fun _ _ => True :=
    triple_bind (Tick.reclaim_skips hleased) fun _ =>
      Tick.planGroups_asks hengine rfl hfew hconsiders hdev
  rw [← hgroups] at hplan
  exact (Tick.drain_post hplan hdrain).1

/-- A device that is reclaimed is asked for by the last group. -/
theorem starved_asks_last {o : Tick.Outcome} {g last : Group}
    (hg : g ∈ (starvedTick devices false missing).groups q)
    (hlast : ((starvedTick devices false missing).groups q).getLast? = some last)
    (hserved : Served dev g.head device) (hadapter : frozenAdapter g.head device ≠ none)
    (hdev : devices.get device = some dev)
    (hreclaim : dev.enabled = true ∧ dev.localSim = false ∧ dev.hasReclaim = true)
    (hdrain : (starvedTick devices false missing).drain q = .ok o) :
    (starvedTick devices false missing).Asked last device o.snapshots := by
  set tick := starvedTick devices false missing with htick
  have hreclaimable : tick.reclaimable device dev = true := by
    obtain ⟨henabled, hlocal, hcommand⟩ := hreclaim
    simp [Tick.reclaimable, htick, starvedTick, henabled, hlocal, hcommand]
  have hroute : routeEligibility g.head device dev.enabled dev.automaticPlacement
      (g.head.forceDevice = some device) = .ok () := by
    rcases hserved.available with hautomatic | hforced
    · simp [routeEligibility, refuseIf, hserved.capable.named, hserved.enabled, hautomatic, hadapter,
        bind, Except.bind]
    · simp [routeEligibility, refuseIf, hserved.capable.named, hserved.enabled, hforced, hadapter,
        bind, Except.bind]
  have hneed : 0 < tick.reclaimNeed device dev (tick.groups q) := by
    have hle := le_reclaimNeed tick device dev (tick.groups q) hg hroute hserved.capable.candidate
    have hone : (tick.costs.predictedResources g.head device).1 = 1 := predicted_of_memory rfl
    rw [hone] at hle
    exact lt_of_lt_of_le one_pos hle
  exact Tick.drain_asks_last hlast hdev hreclaimable hneed hdrain

/-- Whoever asked, the verdict tells whether that job looks for the missing path. -/
theorem asked_verdict {cache : Roster Snapshot} {asker : Group}
    (hasked : (starvedTick devices leased missing).Asked asker device cache)
    (hdev : devices.get device = some dev) (hserved : Served dev t device) {adapter : Adapter}
    (hadapter : frozenAdapter t device = some adapter) (hengine : engineFor t device = .ok engine) :
    ∃ s, cache.get device = some s ∧
      (fits (starvedTick devices leased missing).costs t device s true =
        .error (.notInstalled engine) ↔ missing ∈ provingPaths asker.head device engine) := by
  obtain ⟨dev', reclaimed, hdev', hget⟩ := hasked
  obtain rfl : dev' = dev := by
    have hdev' : devices.get device = some dev' := hdev'
    rw [hdev, Option.some.injEq] at hdev'
    exact hdev'.symm
  exact ⟨_, hget, starved_verdict hserved hadapter hengine⟩

end Starved

/-! ## Verdicts that do not depend on the queue -/

variable {devices : Roster DeviceConf}

theorem alike_of_independent (h : ∀ tick : Tick, tick.devices = devices → tick.Steady →
    tick.Independent source) : source.ProbedAlike devices := by
  intro u w hu hw hkey hlive d dev hdev hserved hasks hadapter engine hengine path
  obtain ⟨adapter, hadapter⟩ := Option.ne_none_iff_exists'.mp hadapter
  have hspec : u.spec ≠ none := by
    intro hnone
    simp [frozenAdapter, FleetTask.adapters, hnone] at hadapter
  have hulive : Group.exhausted ⟨u, []⟩ = false := exhausted_eq_false hserved.capable.candidate
  obtain ⟨alone, hdrawnAlone, htasksAlone⟩ : ∃ q : Queue, q.DrawnFrom source ∧
      q.verifiedTasks = [u] :=
    Queue.exists_drawn (by simpa using hu) (List.nodup_singleton u)
  have hne : u ≠ w := fun heq => hkey (heq ▸ rfl)
  -- both verdicts tell whether the job that was asked for looks for the path
  have hcompare : ∀ (leased : Bool) (q : Queue), q.DrawnFrom source →
      ⟨u, []⟩ ∈ (starvedTick devices leased path).groups q →
      (∃ o, (starvedTick devices leased path).drain q = .ok o ∧
        (starvedTick devices leased path).Asked ⟨w, []⟩ d o.snapshots) →
      (∃ o, (starvedTick devices leased path).drain alone = .ok o ∧
        (starvedTick devices leased path).Asked ⟨u, []⟩ d o.snapshots) →
      ⟨u, []⟩ ∈ (starvedTick devices leased path).groups alone →
      (path ∈ provingPaths u d engine ↔ path ∈ provingPaths w d engine) := by
    rintro leased q hdrawn hg ⟨o, hdrain, hasked⟩ ⟨o', hdrain', hasked'⟩ hg'
    obtain ⟨s, hget, hverdict⟩ := asked_verdict hasked hdev hserved hadapter hengine
    obtain ⟨s', hget', hverdict'⟩ := asked_verdict hasked' hdev hserved hadapter hengine
    have hsame := (h _ rfl starved_steady).verdict q alone hdrawn hdrawnAlone ⟨u, []⟩ hg hg' o o'
      hdrain hdrain' d starved_idle ⟨hserved.capable.candidate, by simp, engine, hengine,
        starved_cool⟩
      (by intro item hitem; rw [starved_planned hdrain] at hitem; simp at hitem)
      (by intro item hitem; rw [starved_planned hdrain'] at hitem; simp at hitem)
      s s' hget hget' true
    rw [← hverdict, ← hverdict', ← hsame]
  have hgroupsAlone : ∀ leased, (starvedTick devices leased path).groups alone = [⟨u, []⟩] := by
    intro leased
    rw [starved_groups htasksAlone]
    have hlead := groupsOf_lead u [] [] (by simp) (by simp) (by simp)
    simp only [List.append_nil, List.map_nil] at hlead
    rw [hlead]
    simp [hulive]
  have hreturnsAlone : ∀ leased, ∃ o, (starvedTick devices leased path).drain alone = .ok o := by
    intro leased
    apply starved_returns
    · exact ⟨⟨u, []⟩, by rw [hgroupsAlone]; rfl, hspec⟩
    · intro g hg
      rw [hgroupsAlone, List.mem_singleton] at hg
      rw [hg]
  rcases hasks with hcandidate | ⟨hreclaim, hwspec⟩
  · -- the other job comes first, and nothing is reclaimed
    obtain ⟨q, hdrawn, htasks⟩ : ∃ q : Queue, q.DrawnFrom source ∧ q.verifiedTasks = [w, u] :=
      Queue.exists_drawn (by simp [hu, hw]) (by simp [hne.symm])
    have hgroups : (starvedTick devices true path).groups q = [⟨w, []⟩, ⟨u, []⟩] := by
      rw [starved_groups htasks]
      have hlead := groupsOf_lead w [] [u] (by simp) (by simp) (by simpa using hkey)
      simp only [List.cons_append, List.nil_append, List.map_cons, List.map_nil] at hlead
      rw [hlead]
      simp [hulive, hlive]
    obtain ⟨o, hdrain⟩ : ∃ o, (starvedTick devices true path).drain q = .ok o := by
      apply starved_returns
      · exact ⟨⟨u, []⟩, by rw [hgroups]; rfl, hspec⟩
      · intro g hg
        rw [hgroups] at hg
        simp only [List.mem_cons, List.not_mem_nil, or_false] at hg
        rcases hg with rfl | rfl <;> rfl
    obtain ⟨o', hdrain'⟩ := hreturnsAlone true
    obtain ⟨engine', hengine'⟩ := engineFor_candidate hw.verified hcandidate
    refine hcompare true q hdrawn (by simp [hgroups]) ⟨o, hdrain, ?_⟩ ⟨o', hdrain', ?_⟩
      (by simp [hgroupsAlone])
    · exact starved_asks_first hgroups (by simp) ⟨hcandidate, by simp, engine', hengine',
        starved_cool⟩ hdev hdrain
    · exact starved_asks_first (hgroupsAlone true) (by simp) ⟨hserved.capable.candidate, by simp,
        engine, hengine, starved_cool⟩ hdev hdrain'
  · -- the other job comes last, and the device is reclaimed
    obtain ⟨q, hdrawn, htasks⟩ : ∃ q : Queue, q.DrawnFrom source ∧ q.verifiedTasks = [u, w] :=
      Queue.exists_drawn (by simp [hu, hw]) (by simp [hne])
    have hgroups : (starvedTick devices false path).groups q = [⟨u, []⟩, ⟨w, []⟩] := by
      rw [starved_groups htasks]
      have hlead := groupsOf_lead u [] [w] (by simp) (by simp)
        (by simpa using fun heq => hkey heq.symm)
      simp only [List.cons_append, List.nil_append, List.map_cons, List.map_nil] at hlead
      rw [hlead]
      simp [hulive, hlive]
    obtain ⟨o, hdrain⟩ : ∃ o, (starvedTick devices false path).drain q = .ok o := by
      apply starved_returns
      · exact ⟨⟨w, []⟩, by rw [hgroups]; rfl, hwspec⟩
      · intro g hg
        rw [hgroups] at hg
        simp only [List.mem_cons, List.not_mem_nil, or_false] at hg
        rcases hg with rfl | rfl <;> rfl
    obtain ⟨o', hdrain'⟩ := hreturnsAlone false
    have hmem : ⟨u, []⟩ ∈ (starvedTick devices false path).groups q := by simp [hgroups]
    have hmem' : ⟨u, []⟩ ∈ (starvedTick devices false path).groups alone := by simp [hgroupsAlone]
    refine hcompare false q hdrawn hmem ⟨o, hdrain, ?_⟩ ⟨o', hdrain', ?_⟩ hmem'
    · exact starved_asks_last hmem (by rw [hgroups]; rfl) hserved (by simp [hadapter]) hdev hreclaim
        hdrain
    · exact starved_asks_last hmem' (by rw [hgroupsAlone]; rfl) hserved (by simp [hadapter]) hdev
        hreclaim hdrain'

/-! ## A job that is left unplaced -/

def scanner : Adapter := ⟨"scanner", "scan", [], none, "ram", ["/opt/scan"]⟩

def model : Adapter := ⟨"model", "llm", [], none, "ram", ["/opt/model"]⟩

def plainSpec (name : String) (adapter : Adapter) : TaskSpec :=
  ⟨name, "safe", "\x7b\x7d", "none", Dict.empty.set "near" adapter⟩

def plainJob (name : String) : Prepared where
  preparedId := name
  specId := name
  work := .task name []
  routing := ⟨[], none, false, none⟩
  rootOverride := none
  cost := ⟨none, none, none, none⟩
  memoryLimitMib := none
  inputBytes := 0
  fileCount := 0

/-- Two jobs for one device, by different engines. -/
def twoEngines : Queue where
  specs := fun specId =>
    if specId = "scan" then some (plainSpec "scan" scanner) else some (plainSpec "chat" model)
  rows := [⟨"first", plainJob "scan", none, none, .inl rfl⟩,
    ⟨"second", plainJob "chat", none, none, .inl rfl⟩]
  nodup := by decide

def scanJob : FleetTask := ⟨plainJob "scan", some (plainSpec "scan" scanner), none, "", "first"⟩

def chatJob : FleetTask := ⟨plainJob "chat", some (plainSpec "chat" model), none, "", "second"⟩

/-- The device has the memory for the first job only. -/
def scanMemory : ProfileKey → Option ℚ :=
  twoMemories (preparedProfileKey scanJob "near") (preparedProfileKey chatJob "near")

end Remrun.Fleet.Dispatch
