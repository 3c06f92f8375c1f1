import Mathlib.Algebra.Order.Floor.Semiring
import Remrun.Resources.Snapshots

/-!
# Resource envelopes

A snapshot, the device's configuration and its policy give the launch envelope. A number is
offered only where every metric behind it was measured, or configured under a policy that allows
static fallbacks, and never beyond what the reserve and the fraction leave.
-/

namespace Remrun.Resources

set_option autoImplicit false

open Doubles (Double InRange overflow)
open JsonReader (Text Value Members text member)

/-! ## Policies -/

inductive PolicyMode where
  | interactive
  | unattended
deriving DecidableEq

/-- What `parse_device_resource_policy` accepts, in byte units. -/
structure DeviceResourcePolicy where
  mode : PolicyMode
  cpuReserveCores : ℚ
  cpuMaxFraction : ℚ
  ramReserveBytes : ℕ
  ramMaxFraction : ℚ
  gpuBusyCeilingPct : ℚ
  vramReserveBytes : ℕ
  vramMaxFraction : ℚ
  allowStaticFallback : Bool
  reserve : 0 ≤ cpuReserveCores
  cpuFraction : 0 ≤ cpuMaxFraction ∧ cpuMaxFraction ≤ 1
  ramFraction : 0 ≤ ramMaxFraction ∧ ramMaxFraction ≤ 1
  ceiling : 0 ≤ gpuBusyCeilingPct ∧ gpuBusyCeilingPct ≤ 100
  vramFraction : 0 ≤ vramMaxFraction ∧ vramMaxFraction ≤ 1

/-- A policy, or `MissingResourcePolicy`. -/
abbrev ResourcePolicy := Option DeviceResourcePolicy

def allowsFallback (policy : ResourcePolicy) : Bool :=
  policy.any DeviceResourcePolicy.allowStaticFallback

/-! ## Offers -/

inductive MetricLabel where
  | effectiveCpu
  | cpuBusy
  | ramTotal
  | ramAvailable
  | gpuUtil
  | vramTotal
  | vramFree
deriving DecidableEq

def MetricLabel.name : MetricLabel → String
  | .effectiveCpu => "effective_cpu"
  | .cpuBusy => "cpu_busy"
  | .ramTotal => "ram_total"
  | .ramAvailable => "ram_available"
  | .gpuUtil => "gpu_util"
  | .vramTotal => "vram_total"
  | .vramFree => "vram_free"

inductive Reason where
  | policyMissing
  | missing (label : MetricLabel) (status : MetricStatus)
  | staticFallbackDisabled (label : MetricLabel)
  | gpuBusy
deriving DecidableEq

def Reason.text : Reason → String
  | .policyMissing => "policy_missing"
  | .missing label status => label.name ++ "_" ++ status.name
  | .staticFallbackDisabled label => label.name ++ "_static_fallback_disabled"
  | .gpuBusy => "gpu_busy"

inductive OfferStatus where
  | usable
  | zero
  | unavailable
deriving DecidableEq

/-- A launch budget in whole units, or why there is none. -/
inductive OfferedResource where
  | number (value : ℕ)
  | unavailable (reason : Reason)
deriving DecidableEq

def OfferedResource.value : OfferedResource → Option ℕ
  | .number n => some n
  | .unavailable _ => none

def OfferedResource.status : OfferedResource → OfferStatus
  | .number n => if n = 0 then .zero else .usable
  | .unavailable _ => .unavailable

/-- `_usable_metric`: the value, or the reason for the offer to be unavailable. -/
def usableMetric (metric : Metric) (label : MetricLabel) (policy : DeviceResourcePolicy) :
    Except Reason ℚ :=
  match metric.value with
  | none => .error (.missing label metric.status)
  | some value =>
    if metric.status = .configured ∧ policy.allowStaticFallback = false then
      .error (.staticFallbackDisabled label)
    else .ok value

/-- An offer from two metrics, the first of which is asked first. -/
def offerFrom (policy : DeviceResourcePolicy) (first second : Metric) (label label' : MetricLabel)
    (budget : ℚ → ℚ → Except Raise ℚ) : Except Raise OfferedResource :=
  match usableMetric first label policy with
  | .error reason => .ok (.unavailable reason)
  | .ok x =>
    match usableMetric second label' policy with
    | .error reason => .ok (.unavailable reason)
    | .ok y => (budget x y).map fun offered => .number ⌊offered⌋₊

/-- What `offer_cpu` computes from usable values. -/
def cpuBudget (valid : DeviceResourcePolicy) (effective busy : ℚ) : Except Raise ℚ :=
  if 100 < busy then .error (.resourceEnvelopeError "cpu_busy must be between 0 and 100 percent")
  else
    let liveIdle := effective * (1 - busy / 100)
    let policyCap := effective * valid.cpuMaxFraction
    .ok (max 0 (min policyCap (liveIdle - valid.cpuReserveCores)))

/-- What `offer_ram` and `offer_gpu_vram` compute from a total and what is available of it. -/
def memoryBudget (message : String) (reserve : ℕ) (fraction total available : ℚ) :
    Except Raise ℚ :=
  if total < available then .error (.resourceEnvelopeError message)
  else .ok (max 0 (min (available - reserve) (total * fraction)))

def offerCpu (effectiveCores busyPct : Metric) : ResourcePolicy → Except Raise OfferedResource
  | none => .ok (.unavailable .policyMissing)
  | some valid => offerFrom valid effectiveCores busyPct .effectiveCpu .cpuBusy (cpuBudget valid)

def offerRam (totalBytes availableBytes : Metric) : ResourcePolicy → Except Raise OfferedResource
  | none => .ok (.unavailable .policyMissing)
  | some valid => offerFrom valid totalBytes availableBytes .ramTotal .ramAvailable
    (memoryBudget "ram_available cannot exceed ram_total" valid.ramReserveBytes
      valid.ramMaxFraction)

/-- `offer_gpu_vram("discrete", ...)`, the only kind it is called with. -/
def offerGpuVram (totalBytes freeBytes utilPct : Metric) :
    ResourcePolicy → Except Raise OfferedResource
  | none => .ok (.unavailable .policyMissing)
  | some valid =>
    match usableMetric utilPct .gpuUtil valid with
    | .error reason => .ok (.unavailable reason)
    | .ok utilization =>
      if 100 < utilization then
        .error (.resourceEnvelopeError "gpu_util must be between 0 and 100 percent")
      else if valid.gpuBusyCeilingPct < utilization then .ok (.unavailable .gpuBusy)
      else offerFrom valid totalBytes freeBytes .vramTotal .vramFree
        (memoryBudget "vram_free cannot exceed vram_total" valid.vramReserveBytes
          valid.vramMaxFraction)

/-! ## Configured values -/

/-- The part of a device's configuration that the envelope reads. -/
structure Device where
  perfCores : ℤ
  effCores : ℤ
  ramGb : Double
  vramGb : Double

namespace Label

def devicesToml : Label := ⟨JsonReader.text "devices.toml", by decide⟩
def configured : Label := ⟨JsonReader.text "configured", by decide⟩
def staticFallback : Label := ⟨JsonReader.text "static-fallback", by decide⟩
def assumedIdle : Label := ⟨JsonReader.text "assumed-idle", by decide⟩
def configuredCapacity : Label := ⟨JsonReader.text "configured-capacity", by decide⟩

end Label

/-- `Metric(value, "configured", ...)`, whose check fails on a number beyond a double. -/
def configuredValue (value : ℤ) (source confidence : Label) : Except Raise Metric :=
  if range : InRange value then
    if nonneg : 0 ≤ value then .ok {
      value := some value
      status := .configured
      source := source
      confidence := confidence
      valued := by simp [MetricStatus.Valued]
      range := by
        rintro v ⟨⟩
        exact ⟨by exact_mod_cast nonneg, range.2⟩ }
    else .error (.resourceEnvelopeError "configured metric cannot be negative")
  else .error .overflowError

/-- `_configured_metric`. -/
def configuredMetric (value : Option ℤ) (source : Label) : Except Raise Metric :=
  match value with
  | none => .ok (unknownMetric .unavailable source)
  | some value =>
    if value ≤ 0 then .ok (unknownMetric .unavailable source)
    else configuredValue value source .configured

/-- `_static_or_measured`. -/
def staticOrMeasured (measured : Metric) (configured : Option ℤ) (source : Label) :
    Except Raise Metric :=
  if measured.value.isSome then .ok measured else configuredMetric configured source

/-- `int(gb * 1024**3) if gb > 0 else None`, when that is a number. -/
def capacity : Double → Option ℤ
  | .finite gb _ => if 0 < gb then some (Doubles.truncate (gb * 2 ^ 30)) else none
  | _ => none

def configuredBytes (gb : Double) : Except Raise (Option ℤ) :=
  if gb = .infinity then .error .overflowError else .ok (capacity gb)

def zeroMetric (status : MetricStatus) (hstatus : status.Valued) (source confidence : Label) :
    Metric where
  value := some 0
  status := status
  source := source
  confidence := confidence
  valued := by simpa using hstatus
  range := by
    rintro v ⟨⟩
    exact ⟨le_refl _, Doubles.overflow_pos⟩

def assumedIdle : Metric := zeroMetric .configured (by decide) .staticFallback .assumedIdle

/-- The capacity itself, offered as what is available of it. -/
def assumedFree (total : Metric) (h : total.value.isSome) : Metric where
  value := total.value
  status := .configured
  source := .staticFallback
  confidence := .configuredCapacity
  valued := by simpa [MetricStatus.Valued] using h
  range := total.range

def configuredGpu (vram : Metric) : GPUResourceSnapshot where
  id := text "configured"
  name := text "Configured discrete GPU"
  utilPct := assumedIdle
  vramFreeBytes := vram
  vramTotalBytes := vram

/-! ## Envelopes -/

/-- The metrics an envelope is computed from. -/
structure Readings where
  logical : Metric
  effective : Metric
  ramTotal : Metric
  busy : Metric
  available : Metric
  gpus : List GPUResourceSnapshot
  gpuKind : Topology

/-- `configured_cores or None`. -/
def Device.cores (device : Device) : Option ℤ :=
  if device.perfCores + device.effCores = 0 then none else some (device.perfCores + device.effCores)

/-- The card that is configured, where the snapshot has a separate memory and no rows. -/
def staticGpus (snapshot : ResourceSnapshot) (device : Device) :
    Except Raise (List GPUResourceSnapshot) :=
  if snapshot.gpus = [] ∧ (snapshot.gpuKind = .auto ∨ snapshot.gpuKind = .discrete) then do
    match ← configuredBytes device.vramGb with
    | none => .ok []
    | some vram => do
      let metric ← configuredValue vram .devicesToml .configured
      .ok [configuredGpu metric]
  else .ok snapshot.gpus

/-- The first half of `build_resource_envelope`: measured values, and configured ones in the place
of those that are missing. -/
def readings (snapshot : ResourceSnapshot) (policy : ResourcePolicy) (device : Device) :
    Except Raise Readings := do
  let logical ← staticOrMeasured snapshot.logicalCores device.cores .devicesToml
  let effective ← staticOrMeasured snapshot.effectiveCores device.cores .devicesToml
  let ramBytes ← configuredBytes device.ramGb
  let ramTotal ← staticOrMeasured snapshot.ramTotalBytes ramBytes .devicesToml
  let busy := if snapshot.cpuBusyPct.value = none ∧ allowsFallback policy = true then assumedIdle
    else snapshot.cpuBusyPct
  let available :=
    if h : snapshot.ramAvailableBytes.value = none ∧ allowsFallback policy = true ∧
        ramTotal.value.isSome then assumedFree ramTotal h.2.2
    else snapshot.ramAvailableBytes
  let gpus ← staticGpus snapshot device
  .ok {
    logical := logical
    effective := effective
    ramTotal := ramTotal
    busy := busy
    available := available
    gpus := gpus
    gpuKind := if snapshot.gpuKind = .auto ∧ gpus ≠ [] ∧ snapshot.gpus = [] then .discrete
      else snapshot.gpuKind }

/-- The order in which `_cpu_static_document` looks for the status of a pair. -/
def MetricStatus.rank : MetricStatus → ℕ
  | .malformed => 0
  | .timeout => 1
  | .unavailable => 2
  | .configured => 3
  | .measured => 4
  | .notApplicable => 5

/-- The CPU pair with one shared provenance. -/
structure CpuStatic where
  logicalCores : Option ℚ
  effectiveCores : Option ℚ
  status : MetricStatus
  source : Text
  confidence : Text

def cpuStaticDocument (logical effective : Metric) : CpuStatic where
  logicalCores := logical.value
  effectiveCores := effective.value
  status := if logical.status.rank ≤ effective.status.rank then logical.status
    else effective.status
  source := if logical.source = effective.source then logical.source.value
    else logical.source.value ++ text "+" ++ effective.source.value
  confidence := if logical.confidence = effective.confidence then logical.confidence.value
    else text "mixed"

inductive EnvelopeStatus where
  | ok
  | incomplete
  | policyMissing
deriving DecidableEq

def EnvelopeStatus.name : EnvelopeStatus → String
  | .ok => "ok"
  | .incomplete => "partial"
  | .policyMissing => "policy_missing"

structure StaticGpu where
  id : Text
  name : Text
  vramTotalBytes : Option Metric

structure LiveGpu where
  id : Text
  utilPct : Metric
  vramFreeBytes : Option Metric

/-- The document, with the members of its sections. -/
structure ResourceEnvelope where
  status : EnvelopeStatus
  probeStatus : ProbeStatus
  staticCpu : CpuStatic
  staticRam : Metric
  gpuKind : Topology
  staticGpus : List StaticGpu
  capturedAt : Text
  liveBusy : Metric
  sampleIntervalMs : Option ℤ
  liveRam : Metric
  liveGpus : List LiveGpu
  policy : ResourcePolicy
  offeredCpu : OfferedResource
  offeredRam : OfferedResource
  offeredGpus : List (Text × OfferedResource)

/-- The offer of one card, under its identity. -/
def gpuOffer (policy : ResourcePolicy) (gpu : GPUResourceSnapshot) :
    Except Raise (Text × OfferedResource) :=
  (offerGpuVram gpu.vramTotalBytes gpu.vramFreeBytes gpu.utilPct policy).map fun offer =>
    (gpu.id, offer)

/-- Only separate memory is offered. -/
def gpuOffers (r : Readings) (policy : ResourcePolicy) :
    Except Raise (List (Text × OfferedResource)) :=
  if r.gpuKind = .discrete then r.gpus.mapM (gpuOffer policy) else .ok []

def envelopeStatus (policy : ResourcePolicy) (cpu ram : OfferedResource) : EnvelopeStatus :=
  if policy.isNone then .policyMissing
  else if cpu.status = .unavailable ∨ ram.status = .unavailable then .incomplete
  else .ok

/-- The second half of `build_resource_envelope`. -/
def document (r : Readings) (snapshot : ResourceSnapshot) (policy : ResourcePolicy)
    (capturedAt : Text) : Except Raise ResourceEnvelope := do
  let cpuOffer ← offerCpu r.effective r.busy policy
  let ramOffer ← offerRam r.ramTotal r.available policy
  let offers ← gpuOffers r policy
  let separate (metric : Metric) : Option Metric :=
    if r.gpuKind = .discrete then some metric else none
  .ok {
    status := envelopeStatus policy cpuOffer ramOffer
    probeStatus := snapshot.status
    staticCpu := cpuStaticDocument r.logical r.effective
    staticRam := r.ramTotal
    gpuKind := r.gpuKind
    staticGpus := r.gpus.map fun gpu => ⟨gpu.id, gpu.name, separate gpu.vramTotalBytes⟩
    capturedAt := capturedAt
    liveBusy := r.busy
    sampleIntervalMs := snapshot.cpuSampleIntervalMs
    liveRam := r.available
    liveGpus := r.gpus.map fun gpu => ⟨gpu.id, gpu.utilPct, separate gpu.vramFreeBytes⟩
    policy := policy
    offeredCpu := cpuOffer
    offeredRam := ramOffer
    offeredGpus := offers }

def buildResourceEnvelope (snapshot : ResourceSnapshot) (policy : ResourcePolicy) (device : Device)
    (capturedAt : Text) : Except Raise ResourceEnvelope := do
  let r ← readings snapshot policy device
  document r snapshot policy capturedAt

/-! ## What an offer rests on -/

/-- The value is measured, or configured under a policy that allows static fallbacks. -/
def Backed (policy : DeviceResourcePolicy) (metric : Metric) (value : ℚ) : Prop :=
  metric.value = some value ∧ (metric.status = .measured ∨
    metric.status = .configured ∧ policy.allowStaticFallback = true)

theorem usableMetric_eq_ok {metric : Metric} {label : MetricLabel} {policy : DeviceResourcePolicy}
    {value : ℚ} : usableMetric metric label policy = .ok value ↔ Backed policy metric value := by
  rw [usableMetric, Backed]
  cases hvalue : metric.value with
  | none => simp
  | some v =>
    have hvalued : metric.status.Valued := metric.valued.mp (by simp [hvalue])
    rcases hvalued with hmeasured | hconfigured
    · simp [hmeasured]
    · cases hfallback : policy.allowStaticFallback <;> simp [hconfigured]

section Offers
variable {policy : DeviceResourcePolicy} {first second : Metric} {label label' : MetricLabel}
  {budget : ℚ → ℚ → Except Raise ℚ}

theorem offerFrom_returns :
    (∃ offer, offerFrom policy first second label label' budget = .ok offer) ↔
      ∀ x y, Backed policy first x → Backed policy second y → ∃ v, budget x y = .ok v := by
  constructor
  · rintro ⟨offer, h⟩ x y hx hy
    simp only [offerFrom, usableMetric_eq_ok.mpr hx, usableMetric_eq_ok.mpr hy] at h
    cases hbudget : budget x y with
    | error e =>
      rw [hbudget] at h
      exact absurd h nofun
    | ok v => exact ⟨v, rfl⟩
  · intro h
    rw [offerFrom]
    split
    · exact ⟨_, rfl⟩
    · rename_i x hx
      split
      · exact ⟨_, rfl⟩
      · rename_i y hy
        obtain ⟨v, hv⟩ := h x y (usableMetric_eq_ok.mp hx) (usableMetric_eq_ok.mp hy)
        rw [hv]
        exact ⟨_, rfl⟩

theorem offerFrom_value {offer : OfferedResource} {n : ℕ}
    (h : offerFrom policy first second label label' budget = .ok offer)
    (hn : offer.value = some n) :
    ∃ x y v, Backed policy first x ∧ Backed policy second y ∧ budget x y = .ok v ∧ n = ⌊v⌋₊ := by
  rw [offerFrom] at h
  split at h
  · obtain rfl := Except.ok.inj h
    exact absurd hn nofun
  · rename_i x hx
    split at h
    · obtain rfl := Except.ok.inj h
      exact absurd hn nofun
    · rename_i y hy
      cases hbudget : budget x y with
      | error e =>
        rw [hbudget] at h
        exact absurd h nofun
      | ok v =>
        rw [hbudget] at h
        obtain rfl := Except.ok.inj h
        exact ⟨x, y, v, usableMetric_eq_ok.mp hx, usableMetric_eq_ok.mp hy, hbudget,
          (Option.some.inj hn).symm⟩

end Offers

theorem memoryBudget_returns {message : String} {reserve : ℕ} {fraction total available : ℚ} :
    (∃ v, memoryBudget message reserve fraction total available = .ok v) ↔ available ≤ total := by
  rw [memoryBudget]
  split
  · simpa
  · simpa using not_lt.mp ‹_›

theorem memoryBudget_bound {message : String} {reserve : ℕ} {fraction total available v : ℚ}
    (h : memoryBudget message reserve fraction total available = .ok v)
    (htotal : 0 ≤ total * fraction) :
    (⌊v⌋₊ : ℚ) ≤ max 0 (available - reserve) ∧ (⌊v⌋₊ : ℚ) ≤ fraction * total := by
  rw [memoryBudget] at h
  split at h
  · exact absurd h nofun
  · obtain rfl := Except.ok.inj h
    have hfloor := Nat.floor_le (le_max_left 0 (min (available - reserve) (total * fraction)))
    refine ⟨hfloor.trans (max_le_max le_rfl (min_le_left _ _)), hfloor.trans ?_⟩
    rw [mul_comm fraction]
    exact max_le htotal (min_le_right _ _)

theorem cpuBudget_bound {valid : DeviceResourcePolicy} {effective busy v : ℚ}
    (h : cpuBudget valid effective busy = .ok v) (heffective : 0 ≤ effective) :
    (⌊v⌋₊ : ℚ) ≤ max 0 (effective * (1 - busy / 100) - valid.cpuReserveCores) ∧
      (⌊v⌋₊ : ℚ) ≤ valid.cpuMaxFraction * effective := by
  rw [cpuBudget] at h
  split at h
  · exact absurd h nofun
  · obtain rfl := Except.ok.inj h
    have hfloor := Nat.floor_le (le_max_left 0 (min (effective * valid.cpuMaxFraction)
      (effective * (1 - busy / 100) - valid.cpuReserveCores)))
    refine ⟨hfloor.trans (max_le_max le_rfl (min_le_right _ _)), hfloor.trans ?_⟩
    rw [mul_comm valid.cpuMaxFraction]
    exact max_le (mul_nonneg heffective valid.cpuFraction.1) (min_le_left _ _)

theorem Backed.nonneg {policy : DeviceResourcePolicy} {metric : Metric} {value : ℚ}
    (h : Backed policy metric value) : 0 ≤ value := (metric.range value h.1).1

/-- A CPU number keeps to the reserve and the fraction. -/
def CpuBacked (policy : ResourcePolicy) (effective busy : Metric) (n : ℕ) : Prop :=
  ∃ p ∈ policy, ∃ cores pct, Backed p effective cores ∧ Backed p busy pct ∧
    (n : ℚ) ≤ max 0 (cores * (1 - pct / 100) - p.cpuReserveCores) ∧
    (n : ℚ) ≤ p.cpuMaxFraction * cores

/-- A number of bytes keeps to a reserve and a fraction. -/
def MemoryBacked (policy : ResourcePolicy) (reserve : DeviceResourcePolicy → ℕ)
    (fraction : DeviceResourcePolicy → ℚ) (total available : Metric) (n : ℕ) : Prop :=
  ∃ p ∈ policy, ∃ t a, Backed p total t ∧ Backed p available a ∧
    (n : ℚ) ≤ max 0 (a - reserve p) ∧ (n : ℚ) ≤ fraction p * t

def RamBacked (policy : ResourcePolicy) : Metric → Metric → ℕ → Prop :=
  MemoryBacked policy DeviceResourcePolicy.ramReserveBytes DeviceResourcePolicy.ramMaxFraction

/-- A VRAM number also rests on the utilisation. -/
def VramBacked (policy : ResourcePolicy) (gpu : GPUResourceSnapshot) (n : ℕ) : Prop :=
  MemoryBacked policy DeviceResourcePolicy.vramReserveBytes DeviceResourcePolicy.vramMaxFraction
    gpu.vramTotalBytes gpu.vramFreeBytes n ∧
  ∃ p ∈ policy, ∃ pct, Backed p gpu.utilPct pct ∧ pct ≤ p.gpuBusyCeilingPct

theorem offerCpu_value {effective busy : Metric} {policy : ResourcePolicy} {offer : OfferedResource}
    {n : ℕ} (h : offerCpu effective busy policy = .ok offer) (hn : offer.value = some n) :
    CpuBacked policy effective busy n := by
  cases policy with
  | none =>
    obtain rfl := Except.ok.inj h
    exact absurd hn nofun
  | some p =>
    obtain ⟨cores, pct, v, hcores, hpct, hv, rfl⟩ := offerFrom_value h hn
    exact ⟨p, rfl, cores, pct, hcores, hpct, cpuBudget_bound hv hcores.nonneg⟩

theorem offerRam_value {total available : Metric} {policy : ResourcePolicy}
    {offer : OfferedResource} {n : ℕ} (h : offerRam total available policy = .ok offer)
    (hn : offer.value = some n) : RamBacked policy total available n := by
  cases policy with
  | none =>
    obtain rfl := Except.ok.inj h
    exact absurd hn nofun
  | some p =>
    obtain ⟨t, a, v, ht, ha, hv, rfl⟩ := offerFrom_value h hn
    exact ⟨p, rfl, t, a, ht, ha, memoryBudget_bound hv (mul_nonneg ht.nonneg p.ramFraction.1)⟩

theorem offerGpuVram_value {gpu : GPUResourceSnapshot} {policy : ResourcePolicy}
    {offer : OfferedResource} {n : ℕ}
    (h : offerGpuVram gpu.vramTotalBytes gpu.vramFreeBytes gpu.utilPct policy = .ok offer)
    (hn : offer.value = some n) : VramBacked policy gpu n := by
  cases policy with
  | none =>
    obtain rfl := Except.ok.inj h
    exact absurd hn nofun
  | some p =>
    simp only [offerGpuVram] at h
    split at h
    · obtain rfl := Except.ok.inj h
      exact absurd hn nofun
    · rename_i pct hpct
      split at h
      · exact absurd h nofun
      · split at h
        · obtain rfl := Except.ok.inj h
          exact absurd hn nofun
        · rename_i hceiling
          obtain ⟨t, a, v, ht, ha, hv, rfl⟩ := offerFrom_value h hn
          exact ⟨⟨p, rfl, t, a, ht, ha,
              memoryBudget_bound hv (mul_nonneg ht.nonneg p.vramFraction.1)⟩,
            p, rfl, pct, usableMetric_eq_ok.mp hpct, not_lt.mp hceiling⟩

theorem offerCpu_returns {effective busy : Metric} {policy : ResourcePolicy}
    (hbusy : ∀ v ∈ busy.value, v ≤ 100) : ∃ offer, offerCpu effective busy policy = .ok offer := by
  cases policy with
  | none => exact ⟨_, rfl⟩
  | some p =>
    refine offerFrom_returns.mpr fun cores pct _ hpct => ?_
    rw [cpuBudget, if_neg (not_lt.mpr (hbusy pct hpct.1))]
    exact ⟨_, rfl⟩

theorem offerRam_returns {total available : Metric} {policy : ResourcePolicy} :
    (∃ offer, offerRam total available policy = .ok offer) ↔
      ∀ p ∈ policy, ∀ t a, Backed p total t → Backed p available a → a ≤ t := by
  cases policy with
  | none => simp [offerRam]
  | some p =>
    simp only [offerRam, offerFrom_returns, memoryBudget_returns, Option.mem_some_iff,
      forall_eq']

theorem offerGpuVram_returns {gpu : GPUResourceSnapshot} {policy : ResourcePolicy}
    (h : gpu.Orderly) : ∃ offer,
      offerGpuVram gpu.vramTotalBytes gpu.vramFreeBytes gpu.utilPct policy = .ok offer := by
  cases policy with
  | none => exact ⟨_, rfl⟩
  | some p =>
    simp only [offerGpuVram]
    split
    · exact ⟨_, rfl⟩
    · rename_i pct hpct
      rw [if_neg (not_lt.mpr (h.util pct (usableMetric_eq_ok.mp hpct).1))]
      split
      · exact ⟨_, rfl⟩
      · refine offerFrom_returns.mpr fun t a ht ha => ?_
        exact memoryBudget_returns.mpr (h.vram a ha.1 t ht.1)

end Remrun.Resources
