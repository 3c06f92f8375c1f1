import Remrun.Lib.Effect
import Remrun.Fleet.Placement

/-!
# One tick of the dispatcher

Queued rows become tasks, compatible tasks become groups, and the groups are placed against
snapshots that are cached by device: once to reclaim memory, once to order many groups, and in
the simulation of every order. The best plan is then claimed batch by batch. Job ids are not
empty, and the events, the skip reasons and the explanations of a batch are left out.
-/

namespace Remrun.Fleet.Dispatch

open Keyed Selection
set_option autoImplicit false

/-! ## The queue -/

/-- A row in state `queued`. A failed attempt may clear the forced device; nothing else
changes it. -/
structure QueuedRow where
  jobId : String
  prepared : Prepared
  forceDevice : Option String
  excludeDevices : Option String
  pinned : forceDevice = none ∨ forceDevice = prepared.routing.forceDevice

structure Queue where
  /-- `prepared_specs` by identity -/
  specs : String → Option TaskSpec
  rows : List QueuedRow
  nodup : (rows.map QueuedRow.jobId).Nodup

def raiseIf (condition : Prop) [Decidable condition] (error : String) : Except String Unit :=
  if condition then .error error else .ok ()

/-- `validate_prepared_job`, on the fields that routing reads. -/
def validatePreparedJob (p : Prepared) : Except String Unit := do
  raiseIf (p.routing.forceDevice = some "") "prepared routing force_device is invalid"
  raiseIf (p.routing.engine = some "") "prepared routing engine is invalid"

/-- The forced device has an adapter, with the requested engine if there is one. -/
def forcedAdapterCheck (p : Prepared) (spec : TaskSpec) : Except String Unit :=
  match p.routing.forceDevice with
  | none => .ok ()
  | some forced => match spec.adapters.get forced with
    | none => .error "prepared force_device is not provided by the frozen adapters"
    | some adapter => raiseIf (p.routing.engine.any (· ≠ adapter.engine) = true)
        "prepared force_device does not provide the requested engine"

/-- `validate_prepared_against_spec`, on the fields that routing and placement read. -/
def validatePreparedAgainstSpec (p : Prepared) (name : String) (spec : TaskSpec) :
    Except String Unit := do
  raiseIf (name ≠ spec.taskName) "prepared task name and resolved spec disagree"
  raiseIf (p.routing.engine.any (fun engine =>
      engine ∉ spec.adapters.rows.map fun row => row.2.engine) = true)
    "prepared engine is not provided by the frozen adapters"
  forcedAdapterCheck p spec
  raiseIf (spec.measure = "none" ∧ p.cost.status ≠ .unestimated)
    "prepared cost invents an estimate"
  raiseIf (spec.measure ≠ "none" ∧ p.cost.status = .unestimated)
    "prepared cost provenance disagrees with frozen authority"

/-- The task of a verified row: the frozen record with the row's placement state. -/
def QueuedRow.task (row : QueuedRow) (spec : Option TaskSpec) : FleetTask where
  prepared := row.prepared
  spec := spec
  forceDevice := row.forceDevice
  excludeDevices := row.excludeDevices.getD ""
  queueJobId := row.jobId

def rowToTask (specs : String → Option TaskSpec) (row : QueuedRow) : Except String FleetTask := do
  validatePreparedJob row.prepared
  match row.prepared.work with
  | .command _ => return row.task none
  | .task name _ => match specs row.prepared.specId with
    | none => .error ("prepared job " ++ row.jobId ++ " is missing durable semantics")
    | some spec => do
      validatePreparedAgainstSpec row.prepared name spec
      return row.task (some spec)

/-- `_compat_key`. -/
inductive CompatKey where
  | command (jobId : String)
  | never (specId jobId : String)
  | shared (specId : String) (options : List (String × String)) (requires : List String)
      (engine : String) (forceDevice : Option String) (allowFallback : Bool)
      (outputRoot : String) (bucketId : Option String) (memoryLimitMib : Option Nat)
      (completion : String) (excludeDevices : String)
  deriving DecidableEq

def compatKey (t : FleetTask) : CompatKey :=
  match t.prepared.work, t.spec with
  | .command _, _ => .command t.queueJobId
  | .task _ _, none => .never t.prepared.specId t.queueJobId
  | .task _ options, some spec =>
    if spec.batching = "never" then .never t.prepared.specId t.queueJobId
    else .shared t.prepared.specId options t.requires (t.engine.getD "")
      t.prepared.routing.forceDevice t.prepared.routing.allowFallback
      (t.prepared.rootOverride.getD "") t.prepared.cost.bucketId t.prepared.memoryLimitMib
      spec.completion t.excludeDevices

/-- Jobs that may share one worker invocation. -/
structure Group where
  head : FleetTask
  rest : List FleetTask
  deriving DecidableEq

def Group.tasks (g : Group) : List FleetTask := g.head :: g.rest

def Group.ofTasks : List FleetTask → Option Group
  | [] => none
  | head :: rest => some ⟨head, rest⟩

def groupsOf (tasks : List FleetTask) : List Group :=
  (groupOn compatKey tasks).filterMap fun entry => Group.ofTasks entry.2

/-! ## Candidates -/

/-- `_excluded_devices`. -/
def excludedDevices (t : FleetTask) : List String :=
  (t.excludeDevices.splitOn ",").filter (· ≠ "")

/-- `_known_candidates`. -/
def knownCandidates (t : FleetTask) : List String :=
  match t.forceDevice with
  | some device => [device]
  | none => candidateDevices t

/-- `_candidate_names`. -/
def candidateNames (t : FleetTask) : List String :=
  (knownCandidates t).filter fun name => name ∉ excludedDevices t

/-- `_probe_adapter_specs`. -/
def probeAdapterSpecs (t : FleetTask) (device : String) : List Adapter :=
  (frozenAdapter t device).toList

/-- Every known candidate has refused the group. -/
def Group.exhausted (g : Group) : Bool :=
  !(knownCandidates g.head).isEmpty && (candidateNames g.head).isEmpty

/-! ## Snapshots -/

structure DeviceConf where
  enabled : Bool
  localSim : Bool
  automaticPlacement : Bool
  hasReclaim : Bool
  maxJobs : Nat

structure Reading where
  ramFreeMb : Option ℚ
  vramFreeMb : Option ℚ
  vramTotalMb : Option ℚ
  gpuMemoryTopology : Topology

/-- What the devices answer. A device that cannot be reached has no reading; `freed` is the
reading after its reclaim command, and `pathExists` is none where a path cannot be examined. -/
structure Host where
  reading : String → Option Reading
  freed : String → Option Reading
  reclaims : String → Bool
  answers : String → Bool
  pathExists : String → String → Option Bool

/-- The qualification of one adapter from the paths that it names. -/
def Host.qualify (h : Host) (device : String) (paths : List String) : EngineStatus :=
  if h.answers device = false ∨ paths = [] ∨ none ∈ paths.map (h.pathExists device) then .unknown
  else if ∀ path ∈ paths, h.pathExists device path = some true then .present
  else .absent

/-- `_capability_engines`. -/
def Host.capabilityEngines (h : Host) (device : String) (specs : List Adapter) :
    Roster EngineStatus :=
  specs.foldl (fun status spec => status.set spec.engine (h.qualify device spec.capabilityPaths))
    Dict.empty

/-- The tick's surroundings: the call's arguments, the configuration, and what was read once
from the queue and the devices. -/
structure Tick where
  jobIds : Option (List String)
  maxParallel : Option Nat
  devices : Roster DeviceConf
  host : Host
  costs : Costs
  cooldowns : String × String → Option String
  leaseUsed : Roster (Roster Int)
  activeBatches : Roster Nat
  liveBacklog : Backlog
  /-- the answer of `claim_many`, by job ids and device -/
  claimMany : List String → String → Bool
  /-- whether a stop was requested before the planned batch of this position -/
  stopRequested : Nat → Bool

namespace Tick

/-- `_pool_free`. -/
def poolFree (t : Tick) (device : String) : Roster Int :=
  let used := (t.leaseUsed.get device).getD Dict.empty
  t.costs.fleetCfg.pools.rows.foldl
    (fun free cap => free.set cap.1 (cap.2 - (used.get cap.1).getD 0)) Dict.empty

/-- `build_snapshot`, before or after the device's reclaim command. -/
def buildSnapshot (t : Tick) (reclaimed : Bool) (name : String) (dev : DeviceConf)
    (specs : List Adapter) : Snapshot :=
  match if reclaimed then t.host.freed name else t.host.reading name with
  | none => ⟨false, dev.enabled, dev.automaticPlacement, none, none, none, .auto, 0, 1,
      Dict.empty, Dict.empty⟩
  | some r => ⟨true, dev.enabled, dev.automaticPlacement, r.ramFreeMb, r.vramFreeMb,
      r.vramTotalMb, r.gpuMemoryTopology, (t.activeBatches.get name).getD 0, dev.maxJobs,
      t.poolFree name, t.host.capabilityEngines name specs⟩

/-- A step of planning: it may raise, and the cached snapshots are its state. -/
abbrev Planning (α : Type) := EStateM String (Roster Snapshot) α

/-- `_is_cooled`: a recorded reason that is empty does not count. -/
def isCooled (t : Tick) (device engine : String) : Bool :=
  (t.cooldowns (device, "")).any (· ≠ "") || (t.cooldowns (device, engine)).any (· ≠ "")

/-- The cached snapshot, built from these adapters where there is none yet. -/
def snapshotOf (t : Tick) (name : String) (specs : List Adapter) :
    Planning (Option Snapshot) := do
  match (← get).get name with
  | some s => return some s
  | none => match t.devices.get name with
    | none => return none
    | some dev => do
      modify fun cache => cache.set name (t.buildSnapshot false name dev specs)
      return some (t.buildSnapshot false name dev specs)

/-! ## Reclaim -/

/-- The largest predicted host memory of the groups that could use the device. -/
def reclaimNeed (t : Tick) (name : String) (dev : DeviceConf) (groups : List Group) : ℚ :=
  groups.foldl (fun need g =>
    if (routeEligibility g.head name dev.enabled dev.automaticPlacement
        (g.head.forceDevice = some name)).toBool ∧ name ∈ candidateNames g.head then
      max need (t.costs.predictedResources g.head name).1
    else need) 0

/-- The adapters of the probe: `head` is whatever group the loop before it ended with, and an
intrinsic command has no table of adapters to look into. -/
def reclaimSpecs (groups : List Group) (name : String) : Except String (List Adapter) :=
  match groups.getLast? with
  | none => .error "head"
  | some g => match g.head.spec with
    | none => .error "adapters"
    | some _ => .ok (probeAdapterSpecs g.head name)

/-- The snapshot before a reclaim says that the memory does not suffice. -/
def marginal (t : Tick) (need : ℚ) (s : Snapshot) : Bool := s.reachable && s.ramShort t.costs need

def reclaimable (t : Tick) (name : String) (dev : DeviceConf) : Bool :=
  dev.enabled && !dev.localSim && dev.hasReclaim &&
    ((t.leaseUsed.get name).all fun used => used.rows.isEmpty)

def reclaimDevice (t : Tick) (groups : List Group) (name : String) (dev : DeviceConf) :
    Planning Unit := do
  let specs ← ofExcept (reclaimSpecs groups name)
  modify fun cache => cache.set name (t.buildSnapshot false name dev specs)
  if t.marginal (t.reclaimNeed name dev groups) (t.buildSnapshot false name dev specs) &&
      t.host.reclaims name then
    modify fun cache => cache.set name (t.buildSnapshot true name dev specs)
  else return ()

/-- `_reclaim_marginal_devices`; no device is in the cache before it. -/
def reclaimMarginalDevices (t : Tick) (groups : List Group) : Planning Unit :=
  t.devices.rows.forM fun row =>
    if t.reclaimable row.1 row.2 && 0 < t.reclaimNeed row.1 row.2 groups then
      t.reclaimDevice groups row.1 row.2
    else return ()

/-! ## Plans -/

/-- The snapshots that a group is placed against. -/
def collect (t : Tick) (used : List String) (head : FleetTask) : Planning (Roster Snapshot) :=
  (candidateNames head).foldlM (fun snaps name => do
    let engine ← ofExcept (engineFor head name)
    if t.isCooled name engine || name ∈ used then return snaps
    else match ← t.snapshotOf name (probeAdapterSpecs head name) with
      | none => return snaps
      | some s => return snaps.set name s) Dict.empty

structure Planned where
  group : Group
  batch : PlacedBatch

structure Plan where
  usedDevices : List String
  timeline : Backlog
  planned : List Planned

def full (t : Tick) (batches : Nat) : Bool := t.maxParallel.any fun n => n ≠ 0 && n ≤ batches

/-- The timeline after a batch: no number where one is missing. -/
def extend (timeline : Backlog) (batch : PlacedBatch) : Backlog :=
  timeline.set batch.device (do
    let current ← timeline.orIdle batch.device
    let finish ← batch.estimatedFinishS
    return current + finish)

def addBatch (t : Tick) (g : Group) (plan : Plan) (batch : PlacedBatch) : Plan :=
  if t.full plan.planned.length || batch.device ∈ plan.usedDevices then plan
  else ⟨batch.device :: plan.usedDevices, extend plan.timeline batch, plan.planned ++ [⟨g, batch⟩]⟩

def simulateGroup (t : Tick) (plan : Plan) (g : Group) : Planning Plan := do
  if t.full plan.planned.length then return plan
  else
    let snaps ← t.collect plan.usedDevices g.head
    if snaps.rows.isEmpty then return plan
    else
      let batches ← ofExcept (t.costs.planJobs snaps plan.timeline g.tasks)
      return batches.foldl (t.addBatch g) plan

/-- `_simulate`. -/
def simulate (t : Tick) (order : List Group) : Planning Plan :=
  order.foldlM t.simulateGroup ⟨[], t.liveBacklog, []⟩

end Tick

namespace Tick.Plan

def placedJobs (p : Plan) : Nat := (p.planned.map fun item => item.batch.jobs.length).sum

def makespan (p : Plan) : Option ℚ := do
  let finishes ← p.usedDevices.mapM fun device => (p.timeline.get device).join
  return finishes.tail.foldl max (finishes.headD 0)

/-- Whether the second plan replaces the first. -/
def betterThan (p best : Plan) : Bool :=
  best.placedJobs < p.placedJobs ||
    best.placedJobs = p.placedJobs && (best.planned.length < p.planned.length ||
      best.planned.length = p.planned.length &&
        match p.makespan, best.makespan with
        | some mine, some other => mine < other
        | _, _ => false)

/-- The better of the best plan so far, if there is one, and the next. -/
def better (best : Option Plan) (p : Plan) : Plan :=
  match best with
  | none => p
  | some q => if p.betterThan q then p else q

end Tick.Plan

namespace Tick

/-! ## Orders -/

/-- A missing estimate counts as infinite. -/
def estimateMin : Option ℚ → Option ℚ → Option ℚ
  | some a, some b => some (min a b)
  | some a, none => some a
  | none, b => b

/-- `_constraint_key` without the position: the usable devices and the best estimate. -/
def constraintKey (t : Tick) (g : Group) : Planning (Nat × Option ℚ) := do
  let (usable, best) ← (candidateNames g.head).foldlM (fun (key : Nat × Option ℚ) name => do
    let engine ← ofExcept (engineFor g.head name)
    if t.isCooled name engine then return key
    else match ← t.snapshotOf name (probeAdapterSpecs g.head name) with
      | none => return key
      | some s =>
        if (fits t.costs g.head name s g.head.forceDevice.isSome).toBool then
          return (key.1 + 1, estimateMin (t.costs.estimateFinish g.tasks name) key.2)
        else return key) ((0, none) : Nat × Option ℚ)
  return (if usable = 0 then 999 else usable, best)

def keyLe (a b : Nat × Option ℚ) : Bool :=
  a.1 < b.1 || a.1 = b.1 && match a.2, b.2 with
    | some mine, some other => mine ≤ other
    | some _, none => true
    | none, some _ => false
    | none, none => true

/-- Every order of few groups; of many only the one that starts with the most constrained. -/
def ordersOf (t : Tick) (groups : List Group) : Planning (List (List Group)) := do
  if groups.length ≤ 6 then return orders groups.length groups
  else
    let keyed ← groups.foldlM (fun keyed g => do
      let key ← t.constraintKey g
      return keyed ++ [(key, g)]) ([] : List ((Nat × Option ℚ) × Group))
    return [(keyed.mergeSort fun a b => keyLe a.1 b.1).map Prod.snd]

/-- The best plan of the orders. -/
def bestPlan (t : Tick) (orders : List (List Group)) : Planning (Option Plan) :=
  orders.foldlM (fun best order => do
    let next ← t.simulate order
    return some (Plan.better best next)) none

def planGroups (t : Tick) (groups : List Group) : Planning (List Planned) := do
  let orders ← t.ordersOf groups
  let best ← t.bestPlan orders
  return (best.map Plan.planned).getD []

def plan (t : Tick) (groups : List Group) : Planning (List Planned) := do
  t.reclaimMarginalDevices groups
  t.planGroups groups

/-! ## The tick -/

structure Outcome where
  reviewed : List String
  finalized : List String
  groups : List Group
  snapshots : Roster Snapshot
  planned : List Planned
  claimed : List Planned

/-- The claims in the order of the plan. -/
def claims (t : Tick) : Nat → List Planned → List Planned → List Planned
  | _, claimed, [] => claimed
  | position, claimed, item :: rest =>
    if t.stopRequested position || t.full claimed.length then claimed
    else if t.claimMany (item.batch.jobs.map FleetTask.queueJobId) item.batch.device then
      t.claims (position + 1) (claimed ++ [item]) rest
    else t.claims (position + 1) claimed rest

def inScope (t : Tick) (row : QueuedRow) : Bool := t.jobIds.all fun ids => row.jobId ∈ ids

/-- The tasks of the verified rows in scope. -/
def tasks (t : Tick) (q : Queue) : List FleetTask :=
  (q.rows.filter t.inScope).filterMap fun row => (rowToTask q.specs row).toOption

def groups (t : Tick) (q : Queue) : List Group :=
  (groupsOf (t.tasks q)).filter fun g => !g.exhausted

/-- `drain_once` up to the execution of the claimed batches. -/
def drain (t : Tick) (q : Queue) : Except String Outcome :=
  match (t.plan (t.groups q)).run Dict.empty with
  | .error e _ => .error e
  | .ok planned snapshots => .ok {
      reviewed := ((q.rows.filter t.inScope).filter fun row =>
        !(rowToTask q.specs row).toBool).map QueuedRow.jobId
      finalized := ((groupsOf (t.tasks q)).filter Group.exhausted).flatMap fun g =>
        g.tasks.map FleetTask.queueJobId
      groups := t.groups q
      snapshots := snapshots
      planned := planned
      claimed := t.claims 0 [] planned }

end Tick

end Remrun.Fleet.Dispatch
