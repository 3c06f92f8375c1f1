import Remrun.Fleet.Batching

/-!
# Queues that show a mixture

Of jobs under one key that disagree on a pin or on a cost, two can be queued so that a tick with
one device places a job where it is not allowed, or leaves one behind. A third job qualifies the
engine where the first has no paths of its own.
-/

namespace Remrun.Fleet.Dispatch

open Keyed Selection Effect
set_option autoImplicit false

variable {source q : Queue} {u v w : FleetTask} {device : String}
  {siblings others : List FleetTask}

/-! ## Queues of chosen jobs -/

/-- The verified tasks of the queue, in its order. -/
def Queue.verifiedTasks (q : Queue) : List FleetTask :=
  q.rows.filterMap fun row => (rowToTask q.specs row).toOption

theorem exists_rows {tasks : List FleetTask} (hheld : ∀ t ∈ tasks, source.Holds t) :
    ∃ rows : List QueuedRow, (∀ row ∈ rows, row ∈ source.rows) ∧
      rows.map QueuedRow.jobId = tasks.map FleetTask.queueJobId ∧
      rows.filterMap (fun row => (rowToTask source.specs row).toOption) = tasks := by
  induction tasks with
  | nil => exact ⟨[], by simp, rfl, rfl⟩
  | cons t rest ih =>
    obtain ⟨rows, hrows, hids, htasks⟩ := ih fun t ht => hheld t (List.mem_cons_of_mem _ ht)
    obtain ⟨row, hrow, htask⟩ := hheld t List.mem_cons_self
    refine ⟨row :: rows, ?_, ?_, ?_⟩
    · intro row' hrow'
      rcases List.mem_cons.mp hrow' with rfl | hrow'
      · exact hrow
      · exact hrows row' hrow'
    · rw [List.map_cons, List.map_cons, hids, (rowToTask_ok htask).2.1]
    · simp only [List.filterMap_cons, toOption_eq_some.mpr htask, htasks]

/-- Different jobs of a queue are a queue. -/
theorem Queue.exists_drawn {tasks : List FleetTask} (hheld : ∀ t ∈ tasks, source.Holds t)
    (hnodup : tasks.Nodup) : ∃ q : Queue, q.DrawnFrom source ∧ q.verifiedTasks = tasks := by
  obtain ⟨rows, hrows, hids, htasks⟩ := exists_rows hheld
  have hdistinct : (rows.map QueuedRow.jobId).Nodup := by
    rw [hids]
    exact hnodup.map_on fun t ht t' ht' hid => (hheld t ht).unique (hheld t' ht') hid
  exact ⟨⟨source.specs, rows, hdistinct⟩, ⟨rfl, hrows⟩, htasks⟩

theorem Queue.mem_verifiedTasks : u ∈ q.verifiedTasks ↔ q.Holds u := by
  simp [verifiedTasks, Queue.Holds, toOption_eq_some]

/-- Without the forced siblings the other tasks remain. -/
theorem Queue.withoutForced_tasks (q : Queue) (key : CompatKey) :
    (q.withoutForced key).verifiedTasks =
      q.verifiedTasks.filter fun t => !(compatKey t = key && t.forceDevice.isSome) := by
  unfold verifiedTasks withoutForced
  simp only
  induction q.rows with
  | nil => rfl
  | cons row rest ih =>
    cases htask : rowToTask q.specs row with
    | error e =>
      have hnone : (rowToTask q.specs row).toOption = none := by rw [htask]; rfl
      have hkept : q.forcedSibling key row = false := by simp [forcedSibling, htask]
      simp only [List.filter_cons, List.filterMap_cons, hkept, hnone, Bool.not_false, if_true, ih]
    | ok t =>
      have hsome : (rowToTask q.specs row).toOption = some t := toOption_eq_some.mpr htask
      have hforced : q.forcedSibling key row = (compatKey t = key && t.forceDevice.isSome) := by
        simp [forcedSibling, htask]
      simp only [List.filter_cons, List.filterMap_cons, hforced, hsome]
      cases hgone : (decide (compatKey t = key) && t.forceDevice.isSome) with
      | true => simp only [Bool.not_true, Bool.false_eq_true, if_false, ih]
      | false => simp only [Bool.not_false, if_true, List.filterMap_cons, hsome, ih]

/-- A job with its siblings is one group, and a job under another key is the next. -/
theorem groupsOf_lead (u : FleetTask) (siblings others : List FleetTask)
    (hsiblings : ∀ v ∈ siblings, compatKey v = compatKey u)
    (hothers : others.length ≤ 1) (hapart : ∀ w ∈ others, compatKey w ≠ compatKey u) :
    groupsOf (u :: siblings ++ others) = ⟨u, siblings⟩ :: others.map fun w => ⟨w, []⟩ := by
  have hlead : groupOn compatKey (u :: siblings) = [(compatKey u, u :: siblings)] := by
    apply groupOn_uniform (by simp)
    intro t ht
    rcases List.mem_cons.mp ht with rfl | ht
    · rfl
    · exact hsiblings t ht
  cases others with
  | nil => simp [groupsOf, hlead, Group.ofTasks]
  | cons w rest =>
    obtain rfl : rest = [] := by simpa using hothers
    have hkey : compatKey u ≠ compatKey w := fun h => hapart w (by simp) h.symm
    rw [groupsOf, groupOn_append, hlead]
    simp [place, hkey, Group.ofTasks]

theorem exhausted_eq_false {g : Group} (h : device ∈ candidateNames g.head) :
    g.exhausted = false := by
  have hne : candidateNames g.head ≠ [] := List.ne_nil_of_mem h
  simp [Group.exhausted, hne]

/-! ## A job in front -/

/-- The job in front of a queue, its siblings, and at most one job under another key. -/
structure Lineup (q : Queue) (device : String) (u : FleetTask) (siblings others : List FleetTask) :
    Prop where
  tasks : q.verifiedTasks = u :: siblings ++ others
  capable : Capable u device
  adapter : ∃ adapter, frozenAdapter u device = some adapter
  keys : ∀ v ∈ siblings, compatKey v = compatKey u
  few : others.length ≤ 1
  apart : ∀ w ∈ others, compatKey w ≠ compatKey u
  live : ∀ w ∈ others, Group.exhausted ⟨w, []⟩ = false
  configured : ∀ w ∈ others, w.spec ≠ none

/-- The job whose adapter is probed. -/
def prober (u : FleetTask) (others : List FleetTask) : FleetTask := others.headD u

section Drain
variable {memory : ProfileKey → Option ℚ} {answers : Bool}

theorem Lineup.groups (h : Lineup q device u siblings others) :
    (soloTick device memory answers).groups q =
      ⟨u, siblings⟩ :: others.map fun w => ⟨w, []⟩ := by
  have htasks : (soloTick device memory answers).tasks q = u :: siblings ++ others := by
    have hscope : q.rows.filter (soloTick device memory answers).inScope = q.rows :=
      List.filter_eq_self.mpr fun row _ => rfl
    rw [Tick.tasks, hscope, ← h.tasks]
    rfl
  rw [Tick.groups, htasks, groupsOf_lead u siblings others h.keys h.few h.apart]
  apply List.filter_eq_self.mpr
  intro g hg
  rcases List.mem_cons.mp hg with rfl | hg
  · simp [exhausted_eq_false (g := ⟨u, siblings⟩) h.capable.candidate]
  · obtain ⟨w, hw, rfl⟩ := List.mem_map.mp hg
    simp [h.live w hw]

theorem Lineup.last (h : Lineup q device u siblings others) :
    ∃ last : Group, (⟨u, siblings⟩ :: others.map fun w => ⟨w, []⟩ : List Group).getLast? = some last ∧
      last.head = prober u others ∧ last.head.spec ≠ none := by
  have hspec : u.spec ≠ none := by
    obtain ⟨adapter, hadapter⟩ := h.adapter
    intro hnone
    simp [frozenAdapter, FleetTask.adapters, hnone] at hadapter
  cases others with
  | nil => exact ⟨⟨u, siblings⟩, rfl, rfl, hspec⟩
  | cons w rest =>
    obtain rfl : rest = [] := by simpa using h.few
    exact ⟨⟨w, []⟩, rfl, rfl, h.configured w (by simp)⟩

theorem predicted_of_memory {t : FleetTask} {rss : ℚ}
    (h : memory (preparedProfileKey t device) = some rss) :
    ((memoryCosts memory).predictedResources t device).1 = rss := by
  simp [Costs.predictedResources, memoryCosts, h, memoryProfile]

/-- How the device takes the group: by the force of a member where nothing is known of the
engine, or by its qualification where none is forced. -/
def Taken (device : String) (u : FleetTask) (siblings others : List FleetTask) (answers : Bool) :
    Prop :=
  (forcedDevices (u :: siblings) = [device] ∧ answers = false) ∨
    (forcedDevices (u :: siblings) = [] ∧ answers = true ∧
      ∃ adapter ∈ probeAdapterSpecs (prober u others) device,
        engineFor u device = .ok adapter.engine ∧ adapter.capabilityPaths ≠ [])

/-- The snapshot of the device after the probe. -/
abbrev probed (device : String) (memory : ProfileKey → Option ℚ) (answers : Bool)
    (t : FleetTask) : Snapshot :=
  soloSnapshot ((soloTick device memory answers).host.capabilityEngines device
    (probeAdapterSpecs t device))

theorem probed_status {t : FleetTask} {adapter : Adapter}
    (hadapter : frozenAdapter t device = some adapter) :
    (probed device memory answers t).status adapter.engine =
      if answers = true ∧ adapter.capabilityPaths ≠ [] then .present else .unknown := by
  unfold probed probeAdapterSpecs
  rw [hadapter]
  exact solo_status

/-- A host that does not answer leaves every engine unknown. -/
theorem probed_unknown (t : FleetTask) (engine : String) :
    (probed device memory false t).status engine = .unknown := by
  unfold probed probeAdapterSpecs
  cases frozenAdapter t device with
  | none => rfl
  | some adapter =>
    by_cases hengine : engine = adapter.engine
    · rw [hengine]
      exact solo_status
    · simp [Snapshot.status, soloSnapshot, Host.capabilityEngines, Dict.get_set, hengine]

/-- The tick claims the job in front together with its siblings. -/
theorem Lineup.drain (h : Lineup q device u siblings others)
    (hengine : ∃ engine, engineFor u device = .ok engine)
    (hmemory : memory (preparedProfileKey u device) = some 1)
    (htaken : Taken device u siblings others answers) :
    ∃ o, (soloTick device memory answers).drain q = .ok o ∧
      o.snapshots.get device = some (probed device memory answers (prober u others)) ∧
      o.claimed =
        [⟨⟨u, siblings⟩, (memoryCosts memory).batch Dict.empty (u :: siblings) device⟩] := by
  obtain ⟨adapter, hadapter⟩ := h.adapter
  obtain ⟨engine, hengine⟩ := hengine
  obtain ⟨last, hlast, hprober, hspec⟩ := h.last
  have hgroups : (soloTick device memory answers).groups q =
      ⟨u, siblings⟩ :: others.map fun w => ⟨w, []⟩ := h.groups
  have hpredicted := predicted_of_memory hmemory
  have hneed : 0 < (soloTick device memory answers).reclaimNeed device
      ⟨true, false, true, true, 1⟩ (⟨u, siblings⟩ :: others.map fun w => ⟨w, []⟩) := by
    have hroute : routeEligibility u device true true (u.forceDevice = some device) = .ok () := by
      simp [routeEligibility, refuseIf, h.capable.named, hadapter, bind, Except.bind]
    have hle := le_reclaimNeed (soloTick device memory answers) device
      ⟨true, false, true, true, 1⟩ (⟨u, siblings⟩ :: others.map fun w => ⟨w, []⟩)
      List.mem_cons_self hroute h.capable.candidate
    have hone : ((soloTick device memory answers).costs.predictedResources u device).1 = 1 :=
      hpredicted
    rw [hone] at hle
    exact lt_of_lt_of_le one_pos hle
  have hfits : ∀ allowUnknown,
      (allowUnknown = true ∧ answers = false ∨ answers = true ∧
        ∃ adapter ∈ probeAdapterSpecs (prober u others) device,
          engineFor u device = .ok adapter.engine ∧ adapter.capabilityPaths ≠ []) →
      fits (memoryCosts memory) u device (probed device memory answers (prober u others))
        allowUnknown = .ok () := by
    intro allowUnknown hverdict
    refine solo_fits h.capable.named h.capable.provided hadapter hengine ?_ (by rw [hpredicted])
    rcases hverdict with ⟨hallow, rfl⟩ | ⟨rfl, probe, hprobe, hsame, hpaths⟩
    · exact .inr ⟨probed_unknown _ _, hallow⟩
    · rw [hengine, Except.ok.injEq] at hsame
      subst hsame
      left
      change (probed device memory true (prober u others)).status probe.engine = _
      rw [probed_status (Option.mem_toList.mp hprobe), if_pos ⟨rfl, hpaths⟩]
  have htakes : Tick.Takes (soloTick device memory answers) device
      (⟨u, siblings⟩ :: others.map fun w => ⟨w, []⟩)
      (probed device memory answers (prober u others)) ⟨u, siblings⟩ := by
    refine ⟨fun d engine => rfl, ⟨⟨true, false, true, true, 1⟩, Dict.get_set_self ..⟩,
      List.mem_cons_self, h.capable.candidate, fun snaps hget honly => ?_, fun g hg => ?_,
      solo_estimate (by simp [Group.tasks]) device⟩
    · have hplace : (soloTick device memory answers).costs.assignGroup snaps
          (soloTick device memory answers).liveBacklog (u :: siblings) =
          .ok [(soloTick device memory answers).costs.batch
            (soloTick device memory answers).liveBacklog (u :: siblings) device] := by
        unfold Costs.assignGroup
        simp only
        rcases htaken with ⟨hforced, hanswers⟩ | ⟨hnone, hprobe⟩
        · have hverdict : fits (soloTick device memory answers).costs u device
              (probed device memory answers (prober u others)) true = .ok () :=
            hfits true (.inl ⟨rfl, hanswers⟩)
          rw [hforced]
          simp only [Costs.placeForced]
          rw [hget]
          simp only
          rw [hverdict]
          simp [Except.toBool]
        · have hverdict : fits (soloTick device memory answers).costs u device
              (probed device memory answers (prober u others)) false = .ok () :=
            hfits false (.inr hprobe)
          have hunforced : u.forceDevice = none := by
            cases hforce : u.forceDevice with
            | none => rfl
            | some d =>
              have hd : d ∈ forcedDevices (u :: siblings) :=
                mem_forcedDevices.mpr ⟨u, List.mem_cons_self, hforce⟩
              rw [hnone] at hd
              simp at hd
          have hcandidate : device ∈ candidateDevices u := by
            have hknown := (mem_candidateNames.mp h.capable.candidate).1
            rwa [knownCandidates, hunforced] at hknown
          rw [hnone]
          simp only
          have hmem : device ∈ (soloTick device memory answers).costs.fittingDevices u snaps :=
            mem_fittingDevices.mpr ⟨hcandidate, _, hget, hverdict⟩
          have hnodup : ((soloTick device memory answers).costs.fittingDevices u snaps).Nodup :=
            (candidateDevices_nodup u).filter _
          have hall : ∀ d ∈ (soloTick device memory answers).costs.fittingDevices u snaps,
              d = device := by
            intro d hd
            obtain ⟨-, s, hs, -⟩ := mem_fittingDevices.mp hd
            exact honly d s hs
          have hsingle : (soloTick device memory answers).costs.fittingDevices u snaps =
              [device] := by
            generalize (soloTick device memory answers).costs.fittingDevices u snaps = fitting at *
            obtain ⟨d, rest, rfl⟩ := List.exists_cons_of_ne_nil (List.ne_nil_of_mem hmem)
            have h1 := hall d (by simp)
            cases rest with
            | nil => rw [h1]
            | cons d' rest =>
              have h2 := hall d' (by simp)
              simp [h1, h2] at hnodup
          rw [hsingle]
      exact hplace
    · rcases List.mem_cons.mp hg with rfl | hg
      · exact le_refl _
      · obtain ⟨w, -, rfl⟩ := List.mem_map.mp hg
        simp [Group.tasks]
  rw [← hprober] at htakes ⊢
  exact drain_solo hgroups (by simpa using h.few) hlast hspec hneed htakes

/-- If batching is invisible, the device takes every job of the group by itself. -/
theorem Lineup.fits_each (h : Lineup q device u siblings others)
    (hengine : ∃ engine, engineFor u device = .ok engine)
    (hmemory : memory (preparedProfileKey u device) = some 1)
    (htaken : Taken device u siblings others answers)
    (hinvisible : (soloTick device memory answers).Invisible q) {job : FleetTask}
    (hjob : job ∈ u :: siblings) :
    fits (memoryCosts memory) job device (probed device memory answers (prober u others))
      job.forceDevice.isSome = .ok () := by
  obtain ⟨o, hdrain, hget, hclaimed⟩ := h.drain hengine hmemory htaken
  have hallowed := hinvisible.allowed o hdrain
  rw [hclaimed] at hallowed
  obtain ⟨-, -, s, hs, hfits⟩ := hallowed _ (List.mem_singleton_self _) job hjob
  have hs : o.snapshots.get device = some s := hs
  rw [hget] at hs
  rw [Option.some.inj hs]
  exact hfits

end Drain

/-! ## Choosing the jobs -/

/-- Jobs of the source that may stand behind the job in front and its siblings. -/
structure Behind (source : Queue) (u : FleetTask) (others : List FleetTask) : Prop where
  held : ∀ w ∈ others, source.Holds w
  few : others.length ≤ 1
  apart : ∀ w ∈ others, compatKey w ≠ compatKey u
  live : ∀ w ∈ others, Group.exhausted ⟨w, []⟩ = false
  configured : ∀ w ∈ others, w.spec ≠ none

theorem behind_nil : Behind source u [] := ⟨by simp, by simp, by simp, by simp, by simp⟩

/-- A job that qualifies the engine of the task is in front, under its key, or behind it. -/
theorem exists_prober (hu : source.Holds u) (h : source.Qualifies u device) :
    ∃ others, Behind source u others ∧ ∃ adapter ∈ probeAdapterSpecs (prober u others) device,
      engineFor u device = .ok adapter.engine ∧ adapter.capabilityPaths ≠ [] := by
  obtain ⟨w, hw, hlive, adapter, hadapter, hengine, hpaths⟩ := h
  by_cases hkey : compatKey w = compatKey u
  · have hsame := (compatible_of_key hw hu hkey).frozenAdapter device
    refine ⟨[], behind_nil, adapter, ?_, hengine, hpaths⟩
    rwa [probeAdapterSpecs, hsame] at hadapter
  · refine ⟨[w], ⟨?_, ?_, ?_, ?_, ?_⟩, adapter, hadapter, hengine, hpaths⟩
    · simpa using hw
    · simp
    · simpa using hkey
    · simpa using hlive
    · intro w' hw' hnone
      rw [List.mem_singleton] at hw'
      subst hw'
      simp [probeAdapterSpecs, frozenAdapter, FleetTask.adapters, hnone] at hadapter

theorem exists_lineup (hu : source.Holds u) (hcapable : Capable u device)
    (hadapter : ∃ adapter, frozenAdapter u device = some adapter)
    (hsiblings : ∀ v ∈ siblings, source.Holds v ∧ compatKey v = compatKey u)
    (hnodup : (u :: siblings).Nodup) (hbehind : Behind source u others) :
    ∃ q : Queue, q.DrawnFrom source ∧ Lineup q device u siblings others := by
  have hheld : ∀ t ∈ u :: siblings ++ others, source.Holds t := by
    intro t ht
    rcases List.mem_append.mp ht with ht | ht
    · rcases List.mem_cons.mp ht with rfl | ht
      · exact hu
      · exact (hsiblings t ht).1
    · exact hbehind.held t ht
  have hdistinct : (u :: siblings ++ others).Nodup := by
    apply List.Nodup.append hnodup
    · cases others with
      | nil => exact List.nodup_nil
      | cons w rest =>
        obtain rfl : rest = [] := by simpa using hbehind.few
        exact List.nodup_singleton w
    · intro t ht hw
      rcases List.mem_cons.mp ht with rfl | ht
      · exact hbehind.apart _ hw rfl
      · exact hbehind.apart _ hw (hsiblings _ ht).2
  obtain ⟨q, hdrawn, htasks⟩ := Queue.exists_drawn hheld hdistinct
  exact ⟨q, hdrawn, htasks, hcapable, hadapter, fun v hv => (hsiblings v hv).2, hbehind.few,
    hbehind.apart, hbehind.live, hbehind.configured⟩

/-! ## What must agree, from invisible batching -/

/-- Learned memory for two keys: the second needs twice what the device has. -/
def twoMemories (k k' : ProfileKey) : ProfileKey → Option ℚ :=
  fun key => if key = k then some 1 else if key = k' then some 2 else none

variable {d' : String}

theorem forcedDevices_pair (huforce : u.forceDevice = none ∨ u.forceDevice = some d')
    (hvforce : v.forceDevice = some d') : forcedDevices [u, v] = [d'] := by
  rcases huforce with huforce | huforce <;> simp [forcedDevices, huforce, hvforce]

theorem forcedDevices_unforced (huforce : u.forceDevice = none) (hvforce : v.forceDevice = none) :
    forcedDevices [u, v] = [] := by
  simp [forcedDevices, huforce, hvforce]

/-- The cleared job goes with its forced sibling, but by itself it needs a qualified engine. -/
theorem not_invisible_of_forced_here (h : Lineup q device u [v] [])
    (hengine : ∃ engine, engineFor u device = .ok engine) (huforce : u.forceDevice = none)
    (hvforce : v.forceDevice = some device) :
    ¬ (soloTick device (twoMemories (preparedProfileKey u device) (preparedProfileKey u device))
      false).Invisible q := by
  intro hinvisible
  have hfits := h.fits_each hengine (by simp [twoMemories])
    (.inl ⟨forcedDevices_pair (.inl huforce) hvforce, rfl⟩) hinvisible List.mem_cons_self
  rw [huforce, Option.isSome_none] at hfits
  obtain ⟨-, -, -, hgate, -⟩ := fits_ok.mp hfits
  obtain ⟨adapter, hadapter⟩ := h.adapter
  obtain ⟨engine, -, hstatus⟩ := engineGate_ok.mp (engineGate_of_adapterGate hadapter hgate)
  rw [show (probed device _ false (prober u [])).status engine = .unknown from
    probed_unknown _ _] at hstatus
  simp at hstatus

/-- The group of the cleared job is forced to a device that is not configured. -/
theorem not_places_of_forced_elsewhere {memory : ProfileKey → Option ℚ} {answers : Bool}
    {o : Tick.Outcome} (hu : q.Holds u) (hv : q.Holds v) (hkey : compatKey v = compatKey u)
    (hvforce : v.forceDevice = some d') (hne : d' ≠ device)
    (hdrain : (soloTick device memory answers).drain q = .ok o) (d : String) :
    ¬ o.Places u.queueJobId d := by
  rintro ⟨item, hitem, -, job, hjob, hid⟩
  obtain ⟨hgroup, hmembers, -, s, hget, hverdict⟩ := Tick.claimed_checked hdrain hitem
  obtain ⟨hjobHolds, hjobKey⟩ := Tick.mem_group hgroup (hmembers job hjob)
  obtain rfl : job = u := hjobHolds.unique hu hid
  have hv' : v ∈ item.group.tasks := by
    rw [mem_groupsOf.mp (List.mem_filter.mp hgroup).1]
    have htask : v ∈ (soloTick device memory answers).tasks q := by
      obtain ⟨row, hrow, htask⟩ := hv
      exact List.mem_filterMap.mpr ⟨row, List.mem_filter.mpr ⟨hrow, rfl⟩,
        toOption_eq_some.mpr htask⟩
    exact List.mem_filter.mpr ⟨htask, by simp [hkey, hjobKey]⟩
  have hmem : d' ∈ forcedDevices item.group.tasks := mem_forcedDevices.mpr ⟨v, hv', hvforce⟩
  rcases hverdict with ⟨hforced, -⟩ | ⟨hnone, -⟩
  · rw [hforced, List.mem_singleton] at hmem
    obtain ⟨-, hsourced, -, -⟩ := Tick.drain_spec hdrain
    obtain ⟨-, -, dev, -, hdev, -⟩ := hsourced _ s hget
    exact hne (hmem.trans (soloTick_device hdev).1)
  · simp [hnone] at hmem

/-- The cleared job stays behind although the device would take it. -/
theorem leavesBehind_of_forced_elsewhere (hu : q.Holds u) (hv : q.Holds v)
    (h : Lineup q device u [v] others)
    (hengine : ∃ engine, engineFor u device = .ok engine) (huforce : u.forceDevice = none)
    (hpinned : u.prepared.routing.forceDevice ≠ none) (hvforce : v.forceDevice = some d')
    (hne : d' ≠ device)
    (hprobe : ∃ adapter ∈ probeAdapterSpecs (prober u others) device,
      engineFor u device = .ok adapter.engine ∧ adapter.capabilityPaths ≠ []) :
    (soloTick device (twoMemories (preparedProfileKey u device) (preparedProfileKey u device))
      true).LeavesBehind q u := by
  set tick := soloTick device
    (twoMemories (preparedProfileKey u device) (preparedProfileKey u device)) true with htick
  obtain ⟨last, hlast, -, hspec⟩ := h.last
  have hgroups : tick.groups q = ⟨u, [v]⟩ :: others.map fun w => ⟨w, []⟩ := h.groups
  have hvkey : compatKey v = compatKey u := h.keys v (by simp)
  have hreturns : ∃ o, tick.drain q = .ok o := by
    apply Tick.drain_returns
    · intro name
      cases hs : last.head.spec with
      | none => exact absurd hs hspec
      | some spec =>
        refine ⟨probeAdapterSpecs last.head name, ?_⟩
        rw [hgroups, Tick.reclaimSpecs, hlast]
        simp [hs]
    · intro g hg
      rw [hgroups] at hg
      rcases List.mem_cons.mp hg with rfl | hg
      · right
        change forcedDevices [u, v] ≠ []
        rw [forcedDevices_pair (.inl huforce) hvforce]
        simp
      · obtain ⟨w, -, rfl⟩ := List.mem_map.mp hg
        exact .inl rfl
  have hreduced : Lineup (q.withoutForced (compatKey u)) device u [] others := by
    refine ⟨?_, h.capable, h.adapter, by simp, h.few, h.apart, h.live, h.configured⟩
    have hothers : others.filter (fun t => !(compatKey t = compatKey u && t.forceDevice.isSome)) =
        others := List.filter_eq_self.mpr fun w hw => by simp [h.apart w hw]
    rw [Queue.withoutForced_tasks, h.tasks, List.filter_append, hothers]
    simp [huforce, hvforce, hvkey]
  have hmemory : twoMemories (preparedProfileKey u device) (preparedProfileKey u device)
      (preparedProfileKey u device) = some 1 := by simp [twoMemories]
  obtain ⟨o', hdrain', -, hclaimed⟩ := hreduced.drain hengine hmemory
    (.inr ⟨by simp [forcedDevices, huforce], rfl, hprobe⟩)
  obtain ⟨o, hdrain⟩ := hreturns
  refine ⟨huforce, hpinned, ⟨o, hdrain, not_places_of_forced_elsewhere hu hv hvkey hvforce hne
    hdrain⟩, o', device, hdrain', ?_, v, hv, hvkey, by simp [hvforce], by simp [hvforce, hne]⟩
  rw [Tick.Outcome.Places, hclaimed]
  exact ⟨_, List.mem_singleton_self _, rfl, u, by simp [Costs.batch], rfl⟩

/-- Two costs under one key: the device has the memory for the first job only. -/
theorem not_invisible_of_costs {answers : Bool} (h : Lineup q device u [v] others)
    (hengine : ∃ engine, engineFor u device = .ok engine)
    (htaken : Taken device u [v] others answers)
    (hcosts : preparedProfileKey u device ≠ preparedProfileKey v device) :
    ¬ (soloTick device (twoMemories (preparedProfileKey u device) (preparedProfileKey v device))
      answers).Invisible q := by
  intro hinvisible
  have hfits := h.fits_each hengine (by simp [twoMemories]) htaken hinvisible
    (List.mem_cons_of_mem _ (List.mem_singleton_self v))
  have hmemory : twoMemories (preparedProfileKey u device) (preparedProfileKey v device)
      (preparedProfileKey v device) = some 2 := by simp [twoMemories, hcosts.symm]
  refine solo_not_fits ?_ hfits
  rw [predicted_of_memory hmemory]
  exact one_lt_two

/-- A task that may go to a device without being a command there has an adapter. -/
theorem adapter_of_capable (hu : source.Holds u) (h : Capable u device)
    (hcommand : u.prepared.isCommand = false) :
    ∃ adapter, frozenAdapter u device = some adapter := by
  have hknown := (mem_candidateNames.mp h.candidate).1
  unfold knownCandidates at hknown
  cases hforce : u.forceDevice with
  | none =>
    rw [hforce] at hknown
    obtain ⟨adapter, hadapter, -⟩ := mem_candidateDevices hknown hforce
    exact ⟨adapter, hadapter⟩
  | some forced =>
    rw [hforce, List.mem_singleton] at hknown
    subst hknown
    obtain ⟨adapter, hadapter, -⟩ := hu.verified.adapter hcommand device hforce
    exact ⟨adapter, hadapter⟩

theorem homogeneous_of_invisible
    (h : ∀ q : Queue, q.DrawnFrom source → ∀ tick : Tick, tick.Invisible q) :
    source.Homogeneous := by
  -- jobs that disagree are two jobs, and no commands
  have hpair : ∀ {u v : FleetTask}, source.Holds u → source.Holds v →
      compatKey u = compatKey v → u ≠ v → ∀ {d}, Capable u d →
      (∃ engine, engineFor u d = .ok engine) ∧ ∃ adapter, frozenAdapter u d = some adapter := by
    intro u v hu hv hkey hne d hcapable
    refine ⟨engineFor_candidate hu.verified hcapable.candidate, ?_⟩
    cases hcommand : u.prepared.isCommand with
    | true => exact absurd (compatKey_command hu hv hkey hcommand) hne
    | false => exact adapter_of_capable hu hcapable hcommand
  have hsibling : ∀ {u v : FleetTask}, source.Holds v → compatKey u = compatKey v →
      ∀ t ∈ [v], source.Holds t ∧ compatKey t = compatKey u := by
    intro u v hv hkey t ht
    rw [List.mem_singleton] at ht
    subst ht
    exact ⟨hv, hkey.symm⟩
  refine ⟨fun u v hu hv hkey huforce hvforced d hcapable => ?_,
    fun u v hu hv hkey hforce d hcapable hqualifies => ?_⟩
  · obtain ⟨d', hvforce⟩ := Option.ne_none_iff_exists'.mp hvforced
    have hne : u ≠ v := fun heq => hvforced (heq ▸ huforce)
    have hnodup : [u, v].Nodup := by simp [hne]
    obtain ⟨hengine, hadapter⟩ := hpair hu hv hkey hne hcapable
    have helsewhere : v.forceDevice ≠ some d := by
      intro hhere
      obtain ⟨q, hdrawn, hlineup⟩ := exists_lineup hu hcapable hadapter (hsibling hv hkey) hnodup
        behind_nil
      exact not_invisible_of_forced_here hlineup hengine huforce hhere (h q hdrawn _)
    refine ⟨helsewhere, fun hqualifies => ?_⟩
    obtain ⟨others, hbehind, hprobe⟩ := exists_prober hu hqualifies
    obtain ⟨q, hdrawn, hlineup⟩ := exists_lineup hu hcapable hadapter (hsibling hv hkey) hnodup
      hbehind
    have hmem : ∀ t ∈ [u, v], q.Holds t := fun t ht => by
      rw [← Queue.mem_verifiedTasks, hlineup.tasks]
      exact List.mem_append_left _ ht
    have hpinned : u.prepared.routing.forceDevice ≠ none := by
      rw [(compatible_of_key hu hv hkey).forceDevice]
      rcases hv.verified.pinned with hnone | hsame
      · exact absurd hnone hvforced
      · rwa [← hsame]
    have hleft := leavesBehind_of_forced_elsewhere (hmem u (by simp)) (hmem v (by simp)) hlineup
      hengine huforce hpinned hvforce (by rintro rfl; exact helsewhere hvforce) hprobe
    exact (h q hdrawn _).placed u (hmem u (by simp)) hleft
  · by_contra hcosts
    have hne : u ≠ v := fun heq => hcosts (by rw [heq])
    have hnodup : [u, v].Nodup := by simp [hne]
    obtain ⟨hengine, hadapter⟩ := hpair hu hv hkey hne hcapable
    cases huforce : u.forceDevice with
    | some forced =>
      have hforced : forced = d := by
        have hknown := (mem_candidateNames.mp hcapable.candidate).1
        rw [knownCandidates, huforce, List.mem_singleton] at hknown
        exact hknown.symm
      subst hforced
      obtain ⟨q, hdrawn, hlineup⟩ := exists_lineup hu hcapable hadapter (hsibling hv hkey) hnodup
        behind_nil
      have htaken : Taken forced u [v] [] false :=
        .inl ⟨forcedDevices_pair (.inr huforce) (hforce ▸ huforce), rfl⟩
      exact not_invisible_of_costs hlineup hengine htaken hcosts (h q hdrawn _)
    | none =>
      obtain ⟨others, hbehind, hprobe⟩ := exists_prober hu (hqualifies huforce)
      obtain ⟨q, hdrawn, hlineup⟩ := exists_lineup hu hcapable hadapter (hsibling hv hkey) hnodup
        hbehind
      have htaken : Taken d u [v] others true :=
        .inr ⟨forcedDevices_unforced huforce (hforce ▸ huforce), rfl, hprobe⟩
      exact not_invisible_of_costs hlineup hengine htaken hcosts (h q hdrawn _)

/-- Batching is invisible in every tick over every queue of the jobs exactly if the jobs that
share a key agree on pins and costs. -/
theorem batching_invisible_iff (source : Queue) :
    (∀ q : Queue, q.DrawnFrom source → ∀ tick : Tick, tick.Invisible q) ↔ source.Homogeneous :=
  ⟨homogeneous_of_invisible, fun h _ hdrawn _ =>
    Tick.invisible_of_homogeneous (h.drawn hdrawn)⟩

/-! ## A mixture after one failure -/

def tool : Adapter := ⟨"tool", "cpu", [], none, "ram", ["/opt/tool"]⟩

def toolSpec : TaskSpec :=
  ⟨"render", "safe", "\x7b\x7d", "none", (Dict.empty.set "near" tool).set "far" tool⟩

/-- Submitted for one device, with leave to go elsewhere. -/
def toolJob (preparedId : String) : Prepared where
  preparedId := preparedId
  specId := "spec"
  work := .task "render" []
  routing := ⟨[], some "far", true, none⟩
  rootOverride := none
  cost := ⟨none, none, none, none⟩
  memoryLimitMib := none
  inputBytes := 0
  fileCount := 0

/-- The first job lost its force when the transport to the device failed; the second has not been
tried yet. -/
def mixedQueue : Queue where
  specs := fun _ => some toolSpec
  rows := [⟨"first", toolJob "p1", none, none, .inl rfl⟩,
    ⟨"second", toolJob "p2", some "far", none, .inr rfl⟩]
  nodup := by decide

def clearedJob : FleetTask := ⟨toolJob "p1", some toolSpec, none, "", "first"⟩

def pinnedJob : FleetTask := ⟨toolJob "p2", some toolSpec, some "far", "", "second"⟩

theorem excludedDevices_nothing {t : FleetTask} (h : t.excludeDevices = "") :
    excludedDevices t = [] := by
  rw [excludedDevices, h, String.splitOn, if_neg (by decide), String.splitOnAux]
  decide

theorem mixedQueue_tasks : mixedQueue.verifiedTasks = [clearedJob, pinnedJob] := rfl

/-- Over this queue a tick leaves the first job behind. -/
theorem mixedQueue_not_invisible : ¬ ∀ tick : Tick, tick.Invisible mixedQueue := by
  intro hinvisible
  have hheld : ∀ t ∈ [clearedJob, pinnedJob], mixedQueue.Holds t := fun t ht => by
    rwa [← Queue.mem_verifiedTasks, mixedQueue_tasks]
  have hexcluded : excludedDevices clearedJob = [] := excludedDevices_nothing rfl
  have hcapable : Capable clearedJob "near" :=
    ⟨mem_candidateNames.mpr ⟨by decide, by simp [hexcluded]⟩, by decide, by decide⟩
  have hkeys : ∀ t ∈ [pinnedJob], compatKey t = compatKey clearedJob := by
    intro t ht
    rw [List.mem_singleton.mp ht]
    rfl
  have hlineup : Lineup mixedQueue "near" clearedJob [pinnedJob] [] :=
    ⟨mixedQueue_tasks, hcapable, ⟨tool, by decide⟩, hkeys, by simp, by simp, by simp, by simp⟩
  have hpinned : pinnedJob.forceDevice = some "far" := rfl
  have hleft := leavesBehind_of_forced_elsewhere (hheld _ (by simp)) (hheld _ (by simp)) hlineup
    ⟨"cpu", by decide⟩ rfl (by decide) hpinned (by decide) ⟨tool, by decide, by decide⟩
  exact (hinvisible _).placed clearedJob (hheld _ (by simp)) hleft

end Remrun.Fleet.Dispatch
