import Remrun.Lib.Dict
import Remrun.Lib.Selection
import Mathlib.Data.List.Dedup

/-!
# Placement of prepared work

The projections over a frozen task and its resolved specification, the verdict of one device on
one task, and the choice of devices for a group of tasks. Measured sizes and seconds are exact
rationals; what the source takes from the float library and from hashing is in `Builtins`.
-/

namespace Remrun.Fleet.Dispatch

open Keyed Selection
set_option autoImplicit false

/-- A dictionary by name. -/
abbrev Roster (α : Type) := Dict (id : String → String) α

/-! ## Frozen records -/

structure Adapter where
  adapterId : String
  engine : String
  provides : List String
  pool : Option String
  memoryKind : String
  capabilityPaths : List String
  deriving DecidableEq

/-- The resolved specification of a configured task; `completion` is its canonical text. -/
structure TaskSpec where
  taskName : String
  batching : String
  completion : String
  measure : String
  adapters : Roster Adapter
  deriving DecidableEq

structure Routing where
  requirements : List String
  forceDevice : Option String
  allowFallback : Bool
  engine : Option String
  deriving DecidableEq

inductive CostStatus where
  | exact | unestimated
  deriving DecidableEq, Repr

/-- The cost identity; exactly the unestimated cost has no value. -/
structure Cost where
  unit : Option String
  measureId : Option String
  bucketId : Option String
  value : Option ℚ
  deriving DecidableEq

def Cost.status (c : Cost) : CostStatus := if c.value.isSome then .exact else .unestimated

/-- Options are in the order of their names, with values in canonical text. -/
inductive Work where
  | command (argv : List String)
  | task (name : String) (options : List (String × String))
  deriving DecidableEq

structure Prepared where
  preparedId : String
  specId : String
  work : Work
  routing : Routing
  rootOverride : Option String
  cost : Cost
  memoryLimitMib : Option Nat
  inputBytes : Nat
  fileCount : Nat
  deriving DecidableEq

def Prepared.isCommand (p : Prepared) : Bool :=
  match p.work with
  | .command _ => true
  | .task _ _ => false

/-- A prepared record with its specification, none for an intrinsic command, and the placement
state that its queue row adds. -/
structure FleetTask where
  prepared : Prepared
  spec : Option TaskSpec
  forceDevice : Option String
  excludeDevices : String
  queueJobId : String
  deriving DecidableEq

namespace FleetTask

def requires (t : FleetTask) : List String := t.prepared.routing.requirements

def engine (t : FleetTask) : Option String := t.prepared.routing.engine

def taskName (t : FleetTask) : String :=
  match t.prepared.work with
  | .command _ => "__command__"
  | .task name _ => name

/-- `features.units()`. -/
def units (t : FleetTask) : ℚ := t.prepared.cost.value.getD 0

/-- `resolved_spec.get("adapters") or {}`. -/
def adapters (t : FleetTask) : Roster Adapter := (t.spec.map TaskSpec.adapters).getD Dict.empty

end FleetTask

/-- `_frozen_adapter`. -/
def frozenAdapter (t : FleetTask) (device : String) : Option Adapter := t.adapters.get device

def candidateDevices (t : FleetTask) : List String :=
  if t.prepared.isCommand then t.forceDevice.toList
  else match t.engine with
    | some engine =>
      (t.adapters.rows.filter fun row => row.2.engine = engine).map Prod.fst
    | none => t.adapters.keys

def engineFor (t : FleetTask) (device : String) : Except String String :=
  match t.engine, frozenAdapter t device with
  | some engine, some adapter =>
    if adapter.engine ≠ engine then
      .error ("adapter engine " ++ adapter.engine ++ " does not match requested engine " ++ engine)
    else .ok engine
  | some engine, none => .ok engine
  | none, some adapter => .ok adapter.engine
  | none, none => .ok "command"

def memoryKindFor (t : FleetTask) (device : String) : String :=
  ((frozenAdapter t device).map Adapter.memoryKind).getD "none"

def optionBucket (t : FleetTask) : String × CostStatus :=
  (t.prepared.cost.bucketId.getD "unbucketed", t.prepared.cost.status)

/-! ## Learned costs -/

/-- `prepared_profile_key`. -/
structure ProfileKey where
  specId : String
  adapterId : String
  device : String
  unit : Option String
  measureId : String
  bucketId : Option String
  deriving DecidableEq

def preparedProfileKey (t : FleetTask) (device : String) : ProfileKey where
  specId := t.prepared.specId
  adapterId := ((frozenAdapter t device).map Adapter.adapterId).getD "raw-command"
  device := device
  unit := t.prepared.cost.unit
  measureId := t.prepared.cost.measureId.getD "legacy"
  bucketId := t.prepared.cost.bucketId

structure Profile where
  fixedLoadS : Option ℚ
  varPerUnitS : Option ℚ
  peakRssMb : Option ℚ
  peakVramMb : Option ℚ
  durationN : Nat
  minUnits : Option ℚ
  maxUnits : Option ℚ
  modelReady : Option Bool

/-- What comes from outside the repository: the square root and the rounding of floats, and the
digest of a work family and a prepared identity. -/
structure Builtins where
  sqrt : ℚ → ℚ
  round3 : ℚ → ℚ
  digest : String × Option String × String × Option String → String → Nat

/-- The `[fleet]` table, with its defaults where a key is absent. -/
structure FleetConfig where
  transferMbps : Option ℚ
  sshSetupS : Option ℚ
  perFileOverheadS : Option ℚ
  confidencePenaltyFrac : Option ℚ
  vramReserveMb : Roster ℚ
  gpuNonelasticEngines : List String
  vramFragReserveMb : Option ℚ
  minHysteresisS : Option ℚ
  hysteresisS : Option ℚ
  hysteresisFinishFrac : Option ℚ
  pools : Roster Int

/-- What placement reads besides the tasks and the snapshots. -/
structure Costs where
  builtins : Builtins
  fleetCfg : FleetConfig
  profiles : ProfileKey → Option Profile
  safetyFraction : ℚ

/-- `prepared_profile`. -/
def Costs.profile (c : Costs) (t : FleetTask) (device : String) : Option Profile :=
  if t.prepared.cost.status = .unestimated then none
  else (c.profiles (preparedProfileKey t device)).filter fun p =>
    p.fixedLoadS.isSome && p.modelReady ≠ some false

def Costs.durationObservationCount (c : Costs) (t : FleetTask) (device : String) : Nat :=
  ((c.profiles (preparedProfileKey t device)).map Profile.durationN).getD 0

inductive Unavailable where
  | backlogUnknown | uncalibrated | modelUnfit | outOfRange
  deriving DecidableEq, Repr

def Costs.estimateUnavailableReason (c : Costs) (t : FleetTask) (device : String) (units : ℚ) :
    Unavailable :=
  match c.profiles (preparedProfileKey t device) with
  | none => .uncalibrated
  | some p =>
    if c.durationObservationCount t device < 4 then .uncalibrated
    else if p.modelReady = some false then .modelUnfit
    else match p.minUnits, p.maxUnits with
      | some low, some high => if low ≤ units ∧ units ≤ high then .uncalibrated else .outOfRange
      | _, _ => .uncalibrated

/-- `predicted_resources`: host memory and video memory. -/
def Costs.predictedResources (c : Costs) (t : FleetTask) (device : String) : ℚ × ℚ :=
  match c.profiles (preparedProfileKey t device) with
  | none => (0, 0)
  | some p => (p.peakRssMb.getD 0, p.peakVramMb.getD 0)

def transferSeconds (totalBytes fileCount : Nat) (cfg : FleetConfig) : ℚ :=
  if totalBytes = 0 ∧ fileCount = 0 then 0
  else
    let bytesPerS := max 1 (cfg.transferMbps.getD 200 * 125000)
    cfg.sshSetupS.getD (3 / 5) + totalBytes / bytesPerS
      + fileCount * cfg.perFileOverheadS.getD (1 / 20)

/-- `_confidence_penalty`. -/
def Costs.confidencePenalty (c : Costs) (p : Profile) : ℚ :=
  let cap := max 0 (c.fleetCfg.confidencePenaltyFrac.getD 0)
  if cap ≤ 0 then 0 else if p.durationN = 0 then cap else cap / c.builtins.sqrt p.durationN

/-- The units of the batch are outside the range that the profile was fitted on. -/
def Profile.outsideRange (p : Profile) (units : ℚ) : Bool :=
  match p.minUnits, p.maxUnits with
  | some low, some high => ¬ (low ≤ units ∧ units ≤ high)
  | _, _ => false

def totalUnits (jobs : List FleetTask) : ℚ := (jobs.map FleetTask.units).sum

def Costs.estimateFinish (c : Costs) (jobs : List FleetTask) (device : String) : Option ℚ :=
  match jobs with
  | [] => some 0
  | t0 :: _ =>
    match c.profile t0 device with
    | none => none
    | some p =>
      if p.outsideRange (totalUnits jobs) then none
      else
        let perUnit := (jobs.map fun t => p.varPerUnitS.getD 0 * t.units).sum
        let compute := (p.fixedLoadS.getD 0 + perUnit) * (1 + c.confidencePenalty p)
        let tin := transferSeconds (jobs.map fun t => t.prepared.inputBytes).sum
          (jobs.map fun t => t.prepared.fileCount).sum c.fleetCfg
        some (c.builtins.round3 (compute + tin))

/-- `_exploration_slot`. -/
def Costs.explorationSlot (c : Costs) (t : FleetTask) : Nat :=
  let cost := t.prepared.cost
  c.builtins.digest (t.prepared.specId, cost.unit, cost.measureId.getD "legacy", cost.bucketId)
    t.prepared.preparedId % 4

/-! ## The verdict of a device -/

inductive Topology where
  | auto | discrete | unified | unknown | none
  deriving DecidableEq, Repr

inductive EngineStatus where
  | present | absent | unknown
  deriving DecidableEq, Repr

structure Snapshot where
  reachable : Bool
  enabled : Bool
  automaticPlacement : Bool
  ramFreeMb : Option ℚ
  vramFreeMb : Option ℚ
  vramTotalMb : Option ℚ
  gpuMemoryTopology : Topology
  activeJobs : Nat
  maxJobs : Nat
  poolFree : Roster Int
  engineStatus : Roster EngineStatus

/-- Why a device refuses a task. -/
inductive Refusal where
  | malformed | disabled | explicitOnly | missingAdapter
  | unreachable | atMaxJobs
  | missingCapabilities (missing : List String)
  | noSlotFree (pool : String)
  | engineMismatch (detail : String)
  | notInstalled (engine : String)
  | qualificationUnknown (engine : String)
  | topologyUnknown | noGpu
  | overCard (need cap : ℚ)
  | insufficientFreeVram (vram frag free : ℚ)
  | insufficientHostRam (rss : ℚ)
  | insufficientUnifiedMemory (need : ℚ)
  | insufficientRam (rss : ℚ)
  deriving DecidableEq

def refuseIf (condition : Prop) [Decidable condition] (reason : Refusal) : Except Refusal Unit :=
  if condition then .error reason else .ok ()

/-- `resolved_route_eligibility`, for a configured device and well-typed flags. -/
def routeEligibility (t : FleetTask) (device : String) (enabled automatic explicit : Bool) :
    Except Refusal Unit := do
  refuseIf (device = "") .malformed
  refuseIf (enabled = false) .disabled
  refuseIf (automatic = false ∧ explicit = false) .explicitOnly
  refuseIf (t.prepared.isCommand = false ∧ frozenAdapter t device = none) .missingAdapter

def Snapshot.routeGate (s : Snapshot) (t : FleetTask) (device : String) : Except Refusal Unit :=
  routeEligibility t device s.enabled s.automaticPlacement (t.forceDevice = some device)

def Snapshot.liveGate (s : Snapshot) : Except Refusal Unit := do
  refuseIf (s.reachable = false) .unreachable
  refuseIf (s.activeJobs ≥ s.maxJobs) .atMaxJobs

/-- The required tokens that the adapter does not provide. -/
def missingCapabilities (t : FleetTask) (device : String) : List String :=
  let provided := ((frozenAdapter t device).map Adapter.provides).getD []
  t.requires.filter fun token => token ∉ provided

def capabilityGate (t : FleetTask) (device : String) : Except Refusal Unit :=
  refuseIf (missingCapabilities t device ≠ []) (.missingCapabilities (missingCapabilities t device))

def Snapshot.poolGate (s : Snapshot) (adapter : Adapter) : Except Refusal Unit :=
  match adapter.pool with
  | none => .ok ()
  | some pool => match s.poolFree.get pool with
    | none => .ok ()
    | some free => refuseIf (free ≤ 0) (.noSlotFree pool)

/-- The qualification of an engine in a snapshot. -/
def Snapshot.status (s : Snapshot) (engine : String) : EngineStatus :=
  (s.engineStatus.get engine).getD .unknown

def engineVerdict (engine : String) (status : EngineStatus) (allowUnknown : Bool) :
    Except Refusal Unit :=
  match status with
  | .absent => .error (.notInstalled engine)
  | .unknown => refuseIf (allowUnknown = false) (.qualificationUnknown engine)
  | .present => .ok ()

def Snapshot.engineGate (s : Snapshot) (t : FleetTask) (device : String) (allowUnknown : Bool) :
    Except Refusal Unit :=
  match engineFor t device with
  | .error detail => .error (.engineMismatch detail)
  | .ok engine => engineVerdict engine (s.status engine) allowUnknown

/-- Pool and qualification, for tasks that run through an adapter. -/
def Snapshot.adapterGate (s : Snapshot) (t : FleetTask) (device : String) (allowUnknown : Bool) :
    Except Refusal Unit :=
  match frozenAdapter t device with
  | none => .ok ()
  | some adapter => do
    s.poolGate adapter
    s.engineGate t device allowUnknown

def Snapshot.discreteGpu (s : Snapshot) : Bool :=
  s.gpuMemoryTopology = .discrete ||
    (s.gpuMemoryTopology = .auto && s.vramTotalMb.any fun total => 0 < total)

/-- The known free host memory, scaled, is below the need. -/
def Snapshot.ramShort (s : Snapshot) (c : Costs) (need : ℚ) : Bool :=
  s.ramFreeMb.any fun free => free * c.safetyFraction < need

def Snapshot.cardGate (s : Snapshot) (c : Costs) (engine : String) (vram : ℚ) :
    Except Refusal Unit :=
  let reserves := c.fleetCfg.vramReserveMb
  let reserve := (reserves.get engine).getD ((reserves.get "default").getD 0)
  match s.vramTotalMb with
  | none => .ok ()
  | some cap => refuseIf (cap < vram + reserve) (.overCard (vram + reserve) cap)

def Snapshot.launchGate (s : Snapshot) (c : Costs) (engine : String) (vram : ℚ) :
    Except Refusal Unit :=
  match s.vramFreeMb with
  | none => .ok ()
  | some free =>
    let frag := c.fleetCfg.vramFragReserveMb.getD 512
    refuseIf (engine ∈ c.fleetCfg.gpuNonelasticEngines ∧ free < vram + frag)
      (.insufficientFreeVram vram frag free)

def Snapshot.gpuGate (s : Snapshot) (c : Costs) (t : FleetTask) (device : String) (rss vram : ℚ) :
    Except Refusal Unit := do
  refuseIf (s.gpuMemoryTopology = .unknown) .topologyUnknown
  refuseIf (s.gpuMemoryTopology = .none) .noGpu
  if s.discreteGpu then
    match engineFor t device with
    | .error detail => .error (.engineMismatch detail)
    | .ok engine => do
      s.cardGate c engine vram
      s.launchGate c engine vram
      refuseIf (s.ramShort c rss = true) (.insufficientHostRam rss)
  else refuseIf (s.ramShort c (max vram rss) = true) (.insufficientUnifiedMemory (max vram rss))

def Snapshot.memoryGate (s : Snapshot) (c : Costs) (t : FleetTask) (device : String) :
    Except Refusal Unit :=
  let (rss, vram) := c.predictedResources t device
  if memoryKindFor t device = "gpu" then s.gpuGate c t device rss vram
  else refuseIf (s.ramShort c rss = true) (.insufficientRam rss)

def fits (c : Costs) (t : FleetTask) (device : String) (s : Snapshot) (allowUnknown : Bool) :
    Except Refusal Unit := do
  s.routeGate t device
  s.liveGate
  capabilityGate t device
  s.adapterGate t device allowUnknown
  s.memoryGate c t device

/-! ## Groups -/

structure PlacedBatch where
  device : String
  jobs : List FleetTask
  estimatedFinishS : Option ℚ

/-- Seconds of queued work by device; a device without an entry is idle, one with an entry but
no number has work of unknown length. -/
abbrev Backlog := Roster (Option ℚ)

/-- `bl.get(d, 0.0)`. -/
def Backlog.orIdle (b : Backlog) (device : String) : Option ℚ := (b.get device).getD (some 0)

/-- `bl.get(d)`: none also for a device without an entry. -/
def Backlog.known (b : Backlog) (device : String) : Option ℚ := (b.get device).join

/-- `_fitting_devices`. -/
def Costs.fittingDevices (c : Costs) (t : FleetTask) (snapshots : Roster Snapshot) : List String :=
  (candidateDevices t).filter fun device =>
    (snapshots.get device).any fun s => (fits c t device s false).toBool

/-- `_batch`. -/
def Costs.batch (c : Costs) (backlog : Backlog) (jobs : List FleetTask) (device : String) :
    PlacedBatch where
  device := device
  jobs := jobs
  estimatedFinishS :=
    if backlog.orIdle device = none then none else c.estimateFinish jobs device

/-- `_eff`. -/
def Costs.effective (c : Costs) (backlog : Backlog) (jobs : List FleetTask) (device : String) :
    Option ℚ := do
  let own ← c.estimateFinish jobs device
  let queued ← backlog.orIdle device
  return queued + own

def rankLt (a b : Nat × Nat × String) : Bool :=
  a.1 < b.1 || a.1 = b.1 && (a.2.1 < b.2.1 || a.2.1 = b.2.1 && a.2.2 < b.2.2)

/-- The order in which devices without an estimate are tried. -/
def Costs.trialRank (c : Costs) (t : FleetTask) (snapshots : Roster Snapshot) (device : String) :
    Nat × Nat × String :=
  (c.durationObservationCount t device,
    ((snapshots.get device).map Snapshot.activeJobs).getD 0, device)

/-- The makespan when the job is added to the device; none where a number is missing. -/
def Costs.trialMakespan (c : Costs) (backlog : Backlog) (assign : List (String × List FleetTask))
    (job : FleetTask) (entry : String × List FleetTask) : Option ℚ := do
  let own ← c.estimateFinish (entry.2 ++ [job]) entry.1
  let queued ← backlog.known entry.1
  let others ← (assign.filter fun other => other.1 ≠ entry.1).mapM fun other => do
    let otherOwn ← c.estimateFinish other.2 other.1
    let otherQueued ← backlog.known other.1
    return otherQueued + otherOwn
  return others.foldl max (queued + own)

def Costs.splitStep (c : Costs) (backlog : Backlog) (assign : List (String × List FleetTask))
    (job : FleetTask) : Except String (List (String × List FleetTask)) :=
  let trials := assign.filterMap fun entry =>
    (c.trialMakespan backlog assign job entry).map fun makespan => (entry.1, makespan)
  match least (fun a b : ℚ => a < b) Prod.snd trials with
  | none => .error "split requires known estimates and backlog for every device"
  | some best => .ok (assign.map fun entry =>
      if entry.1 = best.1 then (entry.1, entry.2 ++ [job]) else entry)

/-- `_greedy_split`: the largest job first. -/
def Costs.greedySplit (c : Costs) (backlog : Backlog) (jobs : List FleetTask)
    (devices : List String) : Except String (List (String × List FleetTask)) := do
  let order := jobs.mergeSort fun a b => b.units ≤ a.units
  let assign ← order.foldlM (c.splitStep backlog) (devices.map fun device => (device, []))
  return assign.filter fun entry => !entry.2.isEmpty

/-- `_split_hysteresis`. -/
def Costs.splitHysteresis (c : Costs) (bestFinish : ℚ) : ℚ :=
  let floor := c.fleetCfg.minHysteresisS.getD (c.fleetCfg.hysteresisS.getD 5)
  max floor (c.fleetCfg.hysteresisFinishFrac.getD (1 / 20) * max bestFinish 0)

/-- One device for all, or a split that is faster by more than the hysteresis. -/
def Costs.splitOrSame (c : Costs) (backlog : Backlog) (jobs : List FleetTask)
    (estimable : List String) (best : String) : Except String (List PlacedBatch) := do
  let assign ← c.greedySplit backlog jobs estimable
  let sameEff := (c.effective backlog jobs best).getD 0
  let finishes := assign.map fun entry => (c.effective backlog entry.2 entry.1).getD 0
  let splitMakespan := finishes.tail.foldl max (finishes.headD 0)
  if splitMakespan + c.splitHysteresis (min sameEff splitMakespan) < sameEff then
    return assign.map fun entry => ⟨entry.1, entry.2, c.estimateFinish entry.2 entry.1⟩
  else return [c.batch backlog jobs best]

/-- The devices without an estimate that the stable slot may still explore. -/
def Costs.bounded (c : Costs) (backlog : Backlog) (t0 : FleetTask) (jobs : List FleetTask)
    (unestimated : List String) : List String :=
  unestimated.filter fun device =>
    backlog.orIdle device ≠ none &&
      match c.estimateUnavailableReason t0 device (totalUnits jobs) with
      | .outOfRange => true
      | .uncalibrated | .modelUnfit => c.durationObservationCount t0 device < 8
      | .backlogUnknown => false

/-- The choice among two or more fitting devices. -/
def Costs.choose (c : Costs) (snapshots : Roster Snapshot) (backlog : Backlog) (t0 : FleetTask)
    (jobs : List FleetTask) (fitting : List String) : Except String (List PlacedBatch) :=
  let tried (devices : List String) : Except String (List PlacedBatch) :=
    .ok ((least rankLt (c.trialRank t0 snapshots) devices).toList.map (c.batch backlog jobs))
  let estimable := fitting.filter fun device =>
    (c.estimateFinish jobs device).isSome && (backlog.orIdle device).isSome
  let unestimated := fitting.filter fun device => device ∉ estimable
  let calibration := unestimated.filter fun device =>
    backlog.orIdle device ≠ none && c.durationObservationCount t0 device < 4
  let bounded := c.bounded backlog t0 jobs unestimated
  if estimable = [] then tried fitting
  else if calibration ≠ [] then tried calibration
  else if c.explorationSlot t0 = 0 ∧ bounded ≠ [] then tried bounded
  else match least (fun a b : ℚ => a < b)
      (fun device => (c.effective backlog jobs device).getD 0) estimable with
    | none => .ok []
    | some best =>
      if jobs.length < 2 ∨ estimable.length < 2 ∨ unestimated ≠ [] then
        .ok [c.batch backlog jobs best]
      else c.splitOrSame backlog jobs estimable best

/-- The devices that members of the group are forced to. -/
def forcedDevices (jobs : List FleetTask) : List String :=
  (jobs.filterMap FleetTask.forceDevice).dedup

/-- The branch of a group with one forced device: the first member's verdict decides. -/
def Costs.placeForced (c : Costs) (snapshots : Roster Snapshot) (backlog : Backlog)
    (t0 : FleetTask) (jobs : List FleetTask) (device : String) : List PlacedBatch :=
  match snapshots.get device with
  | none => []
  | some s => if (fits c t0 device s true).toBool then [c.batch backlog jobs device] else []

def Costs.assignGroup (c : Costs) (snapshots : Roster Snapshot) (backlog : Backlog)
    (jobs : List FleetTask) : Except String (List PlacedBatch) :=
  match jobs with
  | [] => .ok []
  | t0 :: _ =>
    match forcedDevices jobs with
    | [device] => .ok (c.placeForced snapshots backlog t0 jobs device)
    | _ :: _ :: _ => .ok []
    | [] =>
      match c.fittingDevices t0 snapshots with
      | [] => .ok []
      | [device] => .ok [c.batch backlog jobs device]
      | fitting => c.choose snapshots backlog t0 jobs fitting

/-- `plan_jobs`. -/
def Costs.planJobs (c : Costs) (snapshots : Roster Snapshot) (backlog : Backlog)
    (jobs : List FleetTask) : Except String (List PlacedBatch) := do
  let groups := groupOn (fun t => (t.taskName, optionBucket t, t.requires)) jobs
  let batches ← groups.mapM fun group => c.assignGroup snapshots backlog group.2
  return batches.flatten

end Remrun.Fleet.Dispatch
