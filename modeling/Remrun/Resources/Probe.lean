import Remrun.Lib.Effect
import Remrun.Lib.JsonReader

/-!
# Resource probes

What a target's probe printed is read as JSON of any shape and normalised into a snapshot: each
number becomes a metric that carries its provenance or the reason why there is none, and the GPU
rows are kept as far as the resolved memory topology vouches for them.

Floating-point arithmetic is that of the rationals; conversions leave the range of a double as they
do in the interpreter. The printed texts of the platform and machine names are left out, since
nothing that is modelled reads them, but not that printing them can fail.
-/

namespace Remrun.Resources

set_option autoImplicit false

open Doubles (InRange overflow)
open JsonReader (Text Value Members text member)

/-- What a call may raise. -/
inductive Raise where
  | valueError
  | recursionError
  | overflowError
  | typeError
  | resourceEnvelopeError (message : String)
deriving DecidableEq

/-- The limits of the interpreter: how deep a JSON text and a printed value may nest, and how many
digits a whole number may have. -/
structure Interpreter where
  depth : Nat
  digits : Nat
  printing : Nat

def Interpreter.limits (host : Interpreter) : JsonReader.Limits :=
  ⟨host.depth, host.digits, true⟩

/-- What a fault of `json.loads` raises, unless it is a `JSONDecodeError`. -/
def raised : JsonReader.Fault → Option Raise
  | .malformed => none
  | .constant | .digits => some .valueError
  | .depth => some .recursionError

/-! ## Metrics -/

inductive MetricStatus where
  | measured
  | configured
  | unavailable
  | malformed
  | timeout
  | notApplicable
deriving DecidableEq

def MetricStatus.name : MetricStatus → String
  | .measured => "measured"
  | .configured => "configured"
  | .unavailable => "unavailable"
  | .malformed => "malformed"
  | .timeout => "timeout"
  | .notApplicable => "not_applicable"

/-- `_VALUE_STATUSES`. -/
def MetricStatus.Valued (status : MetricStatus) : Prop := status = .measured ∨ status = .configured

instance (status : MetricStatus) : Decidable status.Valued := instDecidableOr

/-- A source or a confidence, which has to be explicit. -/
structure Label where
  value : Text
  explicit : value ≠ []
deriving DecidableEq

/-- A number with its provenance. What `__post_init__` refuses cannot be built. -/
structure Metric where
  value : Option ℚ
  status : MetricStatus
  source : Label
  confidence : Label
  valued : value.isSome ↔ status.Valued
  range : ∀ v ∈ value, 0 ≤ v ∧ v < overflow
deriving DecidableEq

namespace Label

def resourceProbe : Label := ⟨text "resource-probe", by decide⟩
def unknown : Label := ⟨text "unknown", by decide⟩
def osCpuCount : Label := ⟨text "os-cpu-count", by decide⟩
def exact : Label := ⟨text "exact", by decide⟩
def totalCapacity : Label := ⟨text "total-capacity", by decide⟩
def kernelInterval : Label := ⟨text "kernel-interval", by decide⟩
def interval : Label := ⟨text "interval", by decide⟩
def kernelTotal : Label := ⟨text "kernel-total", by decide⟩
def kernelAvailable : Label := ⟨text "kernel-available", by decide⟩
def kernelEstimate : Label := ⟨text "kernel-estimate", by decide⟩
def deviceCounter : Label := ⟨text "device-counter", by decide⟩
def nvidiaSmi : Label := ⟨text "nvidia-smi", by decide⟩
def unifiedMemory : Label := ⟨text "unified-memory", by decide⟩
def unresolvedTopology : Label := ⟨text "unresolved-topology", by decide⟩

/-- A member of the probe, unless it is no string or empty. -/
def orElse (default : Label) : Option Value → Label
  | some (.str s) => if h : s = [] then default else ⟨s, h⟩
  | _ => default

end Label

/-- The statuses that `_unknown_metric` is called with. -/
structure Missing where
  status : MetricStatus
  unvalued : ¬ status.Valued

def Missing.unavailable : Missing := ⟨.unavailable, by decide⟩
def Missing.malformed : Missing := ⟨.malformed, by decide⟩
def Missing.notApplicable : Missing := ⟨.notApplicable, by decide⟩

/-- `_unknown_metric`. -/
def unknownMetric (missing : Missing) (source : Label) : Metric where
  value := none
  status := missing.status
  source := source
  confidence := .unknown
  valued := by simpa using missing.unvalued
  range := by simp

/-- The end of `_metric`, once the value is a finite number. -/
def checkedMetric (numeric : ℚ) (range : InRange numeric) (source confidence : Label)
    (maximum : Option ℚ) : Metric :=
  if h : numeric < 0 ∨ ∃ m ∈ maximum, m < numeric then unknownMetric .malformed source
  else {
    value := some numeric
    status := .measured
    source := source
    confidence := confidence
    valued := by simp [MetricStatus.Valued]
    range := by
      rintro v ⟨⟩
      exact ⟨not_lt.mp (not_or.mp h).1, range.2⟩ }

/-- `_metric`. -/
def metric (value : Option Value) (source confidence : Label) (maximum : Option ℚ) :
    Except Raise Metric :=
  match value with
  | some (.int n) =>
    match Doubles.ofInt n with
    | some numeric => .ok (checkedMetric numeric.1 numeric.2 source confidence maximum)
    | none => .error .overflowError
  | some (.float (.finite numeric range)) =>
    .ok (checkedMetric numeric range source confidence maximum)
  | some (.float _) => .ok (unknownMetric .malformed source)
  | _ => .ok (unknownMetric .unavailable source)

/-! ## GPU memory topology -/

inductive Topology where
  | auto
  | discrete
  | unified
  | none
  | unknown
deriving DecidableEq

def Topology.name : Topology → String
  | .auto => "auto"
  | .discrete => "discrete"
  | .unified => "unified"
  | .none => "none"
  | .unknown => "unknown"

/-- `parse_gpu_memory_topology`. -/
def parseGpuMemoryTopology : Option Text → Except String Topology
  | none => .ok .auto
  | some value =>
    if value = text "auto" then .ok .auto
    else if value = text "discrete" then .ok .discrete
    else if value = text "unified" then .ok .unified
    else .error "gpu_memory_topology must be one of auto, discrete, unified"

/-- `resolve_gpu_memory_topology`. -/
def resolveGpuMemoryTopology (declared : Option Text) (raw : Topology) (context : String)
    (observedAuthoritative : Bool) : Except String Topology := do
  let configured ← parseGpuMemoryTopology declared
  if configured ≠ .auto ∧ (raw = .discrete ∨ raw = .unified) ∧ configured ≠ raw ∧
      observedAuthoritative = true then
    .error (context ++ " declares GPU memory topology '" ++ configured.name ++
      "', but the probe reports '" ++ raw.name ++ "'")
  else if configured ≠ .auto ∧ raw = .none then
    .error (context ++ " declares GPU memory topology '" ++ configured.name ++
      "', but the probe reports no GPU")
  else .ok (if configured ≠ .auto then configured else raw)

/-! ## Snapshots -/

structure GPUResourceSnapshot where
  id : Text
  name : Text
  utilPct : Metric
  vramFreeBytes : Metric
  vramTotalBytes : Metric
deriving DecidableEq

inductive ProbeStatus where
  | ok
  | measured
  | incomplete
  | malformed
  | timeout
  | unavailable
deriving DecidableEq

def ProbeStatus.name : ProbeStatus → String
  | .ok => "ok"
  | .measured => "measured"
  | .incomplete => "partial"
  | .malformed => "malformed"
  | .timeout => "timeout"
  | .unavailable => "unavailable"

structure ResourceSnapshot where
  status : ProbeStatus
  logicalCores : Metric
  effectiveCores : Metric
  cpuBusyPct : Metric
  cpuSampleIntervalMs : Option Int
  ramTotalBytes : Metric
  ramAvailableBytes : Metric
  gpuKind : Topology
  gpus : List GPUResourceSnapshot
  detail : Text
  gpuMemoryTopology : Topology
  rawGpuKind : Topology
  rawGpuStatus : ProbeStatus
  rawGpus : List GPUResourceSnapshot

/-- `unavailable_snapshot("malformed", detail)`. -/
def malformedSnapshot (detail : String) : ResourceSnapshot where
  status := .malformed
  logicalCores := unknownMetric .malformed .resourceProbe
  effectiveCores := unknownMetric .malformed .resourceProbe
  cpuBusyPct := unknownMetric .malformed .resourceProbe
  cpuSampleIntervalMs := none
  ramTotalBytes := unknownMetric .malformed .resourceProbe
  ramAvailableBytes := unknownMetric .malformed .resourceProbe
  gpuKind := .unknown
  gpus := []
  detail := text detail
  gpuMemoryTopology := .unknown
  rawGpuKind := .unknown
  rawGpuStatus := .unavailable
  rawGpus := []

/-! ## GPU rows -/

/-- `value in {...}`, which a list or an object cannot be asked. -/
def lookup {α : Type} (names : List (String × α)) : Option Value → Except Raise (Option α)
  | some (.arr _) | some (.obj _) => .error .typeError
  | some (.str s) => .ok ((names.find? fun e => text e.1 = s).map Prod.snd)
  | _ => .ok none

def gpuKinds : List (String × Topology) := [
  ("discrete", .discrete), ("unified", .unified), ("none", .none)]

def gpuStatuses : List (String × ProbeStatus) := [
  ("measured", .measured), ("partial", .incomplete), ("malformed", .malformed),
  ("timeout", .timeout), ("unavailable", .unavailable)]

/-- An available amount beyond the total is not believed. -/
def within (available total : Metric) (source : Label) : Metric :=
  match available.value, total.value with
  | some a, some t => if t < a then unknownMetric .malformed source else available
  | _, _ => available

/-- What one row of the probe's devices gives: the row as it was measured, the row as it is kept,
and what is wrong with it. -/
structure Row where
  device : Option (GPUResourceSnapshot × GPUResourceSnapshot)
  issues : List Text

/-- The body of the loop over `gpu.devices`. -/
def gpuRow (kind : Topology) : Value → Except Raise Row
  | .obj raw =>
    match member raw "id", member raw "name" with
    | some (.str identifier), some (.str name) => do
      let util ← metric (member raw "util_pct") .deviceCounter .deviceCounter (some 100)
      let rawFree ← metric (member raw "vram_free_bytes") .nvidiaSmi .deviceCounter none
      let rawTotal ← metric (member raw "vram_total_bytes") .nvidiaSmi .deviceCounter none
      let measured : GPUResourceSnapshot := ⟨identifier, name, util, rawFree, rawTotal⟩
      if kind = .unified then
        let free := unknownMetric .notApplicable .unifiedMemory
        .ok ⟨some (measured, ⟨identifier, name, util, free, free⟩), []⟩
      else
        let free := within rawFree rawTotal .nvidiaSmi
        let counted := [util, free, rawTotal].all fun m => decide (m.status = .measured)
        .ok ⟨some (measured, ⟨identifier, name, util, free, rawTotal⟩),
          if counted then []
          else [text "gpu " ++ identifier ++ text " has incomplete or malformed counters"]⟩
    | _, _ => .ok ⟨none, [text "gpu probe returned a device row without identity"]⟩
  | _ => .ok ⟨none, [text "gpu probe returned a non-object device row"]⟩

/-- `gpu.devices`, when it is a list. -/
def deviceRows (gpu : Members) : Option (List Value) :=
  match member gpu "devices" with
  | some (.arr items) => some items
  | _ => none

/-- VRAM counters are only kept where the memory is known to be separate. -/
def normalizedDevice (kind : Topology) (gpu : GPUResourceSnapshot) : GPUResourceSnapshot :=
  match kind with
  | .unified =>
    { gpu with
      vramFreeBytes := unknownMetric .notApplicable .unifiedMemory
      vramTotalBytes := unknownMetric .notApplicable .unifiedMemory }
  | .unknown =>
    { gpu with
      vramFreeBytes := unknownMetric .unavailable .unresolvedTopology
      vramTotalBytes := unknownMetric .unavailable .unresolvedTopology }
  | _ => gpu

/-! ## Issues -/

/-- The code points that `str.strip` takes off. -/
def isSpace (c : Nat) : Bool :=
  (0x9 ≤ c && c ≤ 0xd) || (0x1c ≤ c && c ≤ 0x20) || c == 0x85 || c == 0xa0 || c == 0x1680 ||
    (0x2000 ≤ c && c ≤ 0x200a) || c == 0x2028 || c == 0x2029 || c == 0x202f || c == 0x205f ||
    c == 0x3000

def strip (s : Text) : Text :=
  ((s.dropWhile isSpace).reverse.dropWhile isSpace).reverse

/-- What the probe itself says is wrong with its GPU section. -/
def statusIssue (gpu : Members) (status : Option ProbeStatus) (kind : Topology) : List Text :=
  match status with
  | none | some .measured | some .ok => if kind = .unknown then [text "gpu kind is unknown"] else []
  | some status =>
    match member gpu "detail" with
    | some (.str detail) =>
      if strip detail = [] then [text ("gpu probe " ++ status.name)] else [strip detail]
    | _ => [text ("gpu probe " ++ status.name)]

/-- Missing VRAM counters are what shared memory is expected to have. -/
def expectedUnifiedMissingVram (kind : Topology) (raw : List GPUResourceSnapshot) : Prop :=
  kind = .unified ∧ raw ≠ [] ∧ ∀ gpu ∈ raw, gpu.utilPct.status = .measured ∧
    gpu.vramFreeBytes.value = none ∧ gpu.vramTotalBytes.value = none

instance (kind : Topology) (raw : List GPUResourceSnapshot) :
    Decidable (expectedUnifiedMissingVram kind raw) := by
  unfold expectedUnifiedMissingVram
  infer_instance

def excused (issue : Text) : Prop :=
  text "gpu kind is unknown" <:+: issue ∨ text "unavailable counters" <:+: issue ∨
    text "incomplete" <:+: issue

instance (issue : Text) : Decidable (excused issue) := by
  unfold excused
  infer_instance

/-! ## Printed values -/

mutual
def nesting : Value → Nat
  | .arr items => nestingItems items + 1
  | .obj members => nestingMembers members + 1
  | _ => 0

def nestingItems : List Value → Nat
  | [] => 0
  | item :: rest => max (nesting item) (nestingItems rest)

def nestingMembers : List (Text × Value) → Nat
  | [] => 0
  | (_, value) :: rest => max (nesting value) (nestingMembers rest)
end

/-- Whether `str(value or "")` comes to an end; an empty container is not printed. -/
def Printable (host : Interpreter) : Option Value → Prop
  | none | some (.arr []) | some (.obj []) => True
  | some value => nesting value ≤ host.printing

instance (host : Interpreter) (value : Option Value) : Decidable (Printable host value) := by
  unfold Printable
  split <;> infer_instance

def printed (host : Interpreter) (value : Option Value) : Except Raise Unit :=
  if Printable host value then .ok () else .error .recursionError

/-! ## The probe -/

/-- The three sections of a probe's payload. -/
structure Sections where
  payload : Members
  cpu : Members
  ram : Members
  gpu : Members

def sections : Value → Except String Sections
  | .obj payload =>
    match member payload "cpu", member payload "ram", member payload "gpu" with
    | some (.obj cpu), some (.obj ram), some (.obj gpu) => .ok ⟨payload, cpu, ram, gpu⟩
    | _, _, _ => .error "probe output is missing resource objects"
  | _ => .error "probe output must be an object"

/-- The interval is kept when it is a positive whole number. -/
def sampleInterval : Option Value → Option Int
  | some (.int n) => if 0 < n then some n else none
  | _ => none

/-- The GPU section after normalisation. -/
structure GpuSection where
  kind : Topology
  gpus : List GPUResourceSnapshot
  issues : List Text
  topology : Topology
  rawKind : Topology
  rawStatus : ProbeStatus
  rawGpus : List GPUResourceSnapshot

/-- The topology the declaration and the probe agree on, with the complaint if they do not. -/
def resolved (declared : Option Text) (kind : Topology) : Topology × List Text :=
  match resolveGpuMemoryTopology declared kind "resource probe"
      (kind = .unified ∨ kind = .none) with
  | .ok topology => (topology, [])
  | .error message => (.unknown, [text message])

/-- The part of `parse_resource_probe` that reads the GPU section. -/
def gpuSection (declared : Option Text) (gpu : Members) : Except Raise GpuSection := do
  let kind := (← lookup gpuKinds (member gpu "kind")).getD .unknown
  let status ← lookup gpuStatuses (member gpu "status")
  let rows ← ((deviceRows gpu).getD []).mapM (gpuRow kind)
  let devices := (rows.filterMap Row.device).map Prod.snd
  let rawDevices := (rows.filterMap Row.device).map Prod.fst
  let listed := if (deviceRows gpu).isSome then [] else [text "gpu devices must be a list"]
  let empty := if kind = .discrete ∧ devices = [] then
    [text "discrete gpu probe returned no valid device rows"] else []
  let found := resolved declared kind
  let normalizedKind := if found.1 = .auto then .unknown else found.1
  let issues := statusIssue gpu status kind ++ rows.flatMap Row.issues ++ listed ++ empty ++ found.2
  .ok {
    kind := normalizedKind
    gpus := devices.map (normalizedDevice normalizedKind)
    issues :=
      if expectedUnifiedMissingVram normalizedKind rawDevices then
        issues.filter fun issue => ¬ excused issue
      else issues
    topology := found.1
    rawKind := kind
    rawStatus := status.getD (if devices = [] then .unavailable else .measured)
    rawGpus := rawDevices }

/-- The part of `parse_resource_probe` after its checks of the shape. -/
def readSections (host : Interpreter) (declared : Option Text) (s : Sections) :
    Except Raise ResourceSnapshot := do
  let logical ← metric (member s.cpu "logical_cores") .osCpuCount .exact none
  let effective ← metric (member s.cpu "effective_cores")
    (Label.osCpuCount.orElse (member s.cpu "effective_source"))
    (Label.totalCapacity.orElse (member s.cpu "effective_confidence")) none
  let busy ← metric (member s.cpu "busy_pct") .kernelInterval .interval (some 100)
  let total ← metric (member s.ram "total_bytes") .kernelTotal .exact none
  let measuredAvailable ← metric (member s.ram "available_bytes") .kernelAvailable
    .kernelEstimate none
  let available := within measuredAvailable total .kernelAvailable
  let gpu ← gpuSection declared s.gpu
  let essentials := [effective, busy, total, available].all fun m => decide (m.status = .measured)
  printed host (member s.payload "platform")
  printed host (member s.payload "machine")
  printed host (member s.gpu "detail")
  .ok {
    status := if essentials = true ∧ gpu.issues = [] then .ok else .incomplete
    logicalCores := logical
    effectiveCores := effective
    cpuBusyPct := busy
    cpuSampleIntervalMs := sampleInterval (member s.cpu "sample_interval_ms")
    ramTotalBytes := total
    ramAvailableBytes := available
    gpuKind := gpu.kind
    gpus := gpu.gpus
    detail := List.intercalate (text "; ") gpu.issues.eraseDups
    gpuMemoryTopology := gpu.topology
    rawGpuKind := gpu.rawKind
    rawGpuStatus := gpu.rawStatus
    rawGpus := gpu.rawGpus }

def parseResourceProbe (host : Interpreter) (printedText : List Char) (declared : Option Text) :
    Except Raise ResourceSnapshot :=
  match JsonReader.loads host.limits printedText with
  | .error fault =>
    match raised fault with
    | some raise => .error raise
    | none => .ok (malformedSnapshot "probe output is not valid JSON")
  | .ok payload =>
    match sections payload with
    | .ok s => readSections host declared s
    | .error detail => .ok (malformedSnapshot detail)

end Remrun.Resources
