import Remrun.Resources.Envelope

/-!
# Launch envelopes are conservative

A text and a configuration give an envelope exactly if the text is read, the values in it can be
converted and looked up, the configured amounts are numbers of a double's range, and a configured
RAM total that stands in for a missing one is not below what was measured to be available. The
envelope then offers only what its metrics back.
-/

namespace Remrun.Resources

set_option autoImplicit false

open Doubles (Double InRange overflow)
open JsonReader (Text text member)

/-! ## When the readings are there -/

theorem configuredMetric_returns {value : Option ℤ} {source : Label} :
    (∃ m, configuredMetric value source = .ok m) ↔ ∀ n ∈ value, (n : ℚ) < overflow := by
  cases value with
  | none => simp [configuredMetric]
  | some n =>
    rw [configuredMetric]
    by_cases hn : n ≤ 0
    · have hlt : (n : ℚ) < overflow :=
        (Int.cast_nonpos.mpr hn).trans_lt Doubles.overflow_pos
      rw [if_pos hn]
      exact ⟨fun _ m hm => by rwa [← Option.some.inj hm], fun _ => ⟨_, rfl⟩⟩
    · have hpos : 0 ≤ n := (not_le.mp hn).le
      have hrange : InRange n ↔ (n : ℚ) < overflow :=
        Doubles.inRange_of_nonneg (by exact_mod_cast hpos)
      rw [if_neg hn, configuredValue]
      by_cases hlt : InRange (n : ℚ)
      · rw [dif_pos hlt, dif_pos hpos]
        exact ⟨fun _ m hm => by rw [← Option.some.inj hm]; exact hrange.mp hlt, fun _ => ⟨_, rfl⟩⟩
      · rw [dif_neg hlt]
        exact ⟨fun ⟨_, h⟩ => absurd h nofun, fun h => absurd (hrange.mpr (h n rfl)) hlt⟩

theorem configuredMetric_value {value : Option ℤ} {source : Label} {m : Metric}
    (h : configuredMetric value source = .ok m) {q : ℚ} :
    m.value = some q ↔ ∃ n ∈ value, 0 < n ∧ (n : ℚ) = q := by
  cases value with
  | none =>
    obtain rfl := Except.ok.inj h
    simp [unknownMetric]
  | some n =>
    rw [configuredMetric] at h
    split at h
    · rename_i hn
      obtain rfl := Except.ok.inj h
      simp [unknownMetric, not_lt.mpr hn]
    · rename_i hn
      rw [configuredValue] at h
      split at h
      · rw [dif_pos (not_le.mp hn).le] at h
        obtain rfl := Except.ok.inj h
        simp [not_le.mp hn]
      · cases h

theorem configuredMetric_status {value : Option ℤ} {source : Label} {m : Metric}
    (h : configuredMetric value source = .ok m) : m.status ≠ .measured := by
  cases value with
  | none =>
    obtain rfl := Except.ok.inj h
    rintro ⟨⟩
  | some n =>
    rw [configuredMetric] at h
    split at h
    · obtain rfl := Except.ok.inj h
      rintro ⟨⟩
    · rename_i hn
      rw [configuredValue] at h
      split at h
      · rw [dif_pos (not_le.mp hn).le] at h
        obtain rfl := Except.ok.inj h
        rintro ⟨⟩
      · cases h

theorem staticOrMeasured_returns {measured : Metric} {configured : Option ℤ} {source : Label} :
    (∃ m, staticOrMeasured measured configured source = .ok m) ↔
      (measured.value = none → ∀ n ∈ configured, (n : ℚ) < overflow) := by
  rw [staticOrMeasured]
  cases hvalue : measured.value with
  | none => simpa using configuredMetric_returns
  | some v => simp

theorem configuredBytes_returns {gb : Double} :
    (∃ b, configuredBytes gb = .ok b) ↔ gb ≠ .infinity := by
  rw [configuredBytes]
  split <;> simp [*]

theorem configuredBytes_eq_ok {gb : Double} {b : Option ℤ} (h : configuredBytes gb = .ok b) :
    b = capacity gb := by
  rw [configuredBytes] at h
  split at h
  · exact absurd h nofun
  · exact (Except.ok.inj h).symm

theorem capacity_nonneg {gb : Double} {n : ℤ} (h : n ∈ capacity gb) : 0 ≤ n := by
  cases gb with
  | finite q range =>
    rw [capacity] at h
    split at h
    · rename_i hq
      have hq' : 0 ≤ q * 2 ^ 30 := mul_nonneg hq.le (by norm_num)
      obtain rfl := Option.some.inj h
      rw [Doubles.truncate, if_pos hq']
      exact Int.floor_nonneg.mpr hq'
    · cases h
  | _ => cases h

theorem configuredValue_returns {value : ℤ} {source confidence : Label} (h : 0 ≤ value) :
    (∃ m, configuredValue value source confidence = .ok m) ↔ (value : ℚ) < overflow := by
  have hnonneg : (0 : ℚ) ≤ value := by exact_mod_cast h
  rw [← Doubles.inRange_of_nonneg hnonneg, configuredValue]
  by_cases hrange : InRange (value : ℚ)
  · rw [dif_pos hrange, dif_pos h]
    exact ⟨fun _ => hrange, fun _ => ⟨_, rfl⟩⟩
  · rw [dif_neg hrange]
    exact ⟨fun ⟨_, h⟩ => absurd h nofun, fun h => absurd h hrange⟩

/-- The configured card can be described. -/
def CardFits (gb : Double) : Prop := gb ≠ .infinity ∧ ∀ n ∈ capacity gb, (n : ℚ) < overflow

section Readings
variable {snapshot : ResourceSnapshot} {policy : ResourcePolicy} {device : Device}

theorem staticGpus_returns (hkind : snapshot.gpuKind ≠ .auto) :
    (∃ gpus, staticGpus snapshot device = .ok gpus) ↔
      (snapshot.gpus = [] → snapshot.gpuKind = .discrete → CardFits device.vramGb) := by
  rw [staticGpus]
  by_cases hbare : snapshot.gpus = [] ∧ snapshot.gpuKind = .discrete
  · rw [if_pos ⟨hbare.1, Or.inr hbare.2⟩]
    simp only [hbare, true_imp_iff]
    constructor
    · rintro ⟨gpus, h⟩
      obtain ⟨b, hb, h⟩ := Effect.bind_eq_ok.mp h
      refine ⟨configuredBytes_returns.mp ⟨b, hb⟩, fun n hn => ?_⟩
      obtain rfl := configuredBytes_eq_ok hb
      rw [Option.mem_def.mp hn] at h
      obtain ⟨m, hm, -⟩ := Effect.bind_eq_ok.mp h
      exact (configuredValue_returns (capacity_nonneg hn)).mp ⟨m, hm⟩
    · rintro ⟨hfinite, hfits⟩
      have hb : configuredBytes device.vramGb = .ok (capacity device.vramGb) := if_neg hfinite
      rw [hb]
      cases hcapacity : capacity device.vramGb with
      | none => exact ⟨_, rfl⟩
      | some n =>
        obtain ⟨m, hm⟩ := (@configuredValue_returns n .devicesToml .configured
          (capacity_nonneg hcapacity)).mpr (hfits n hcapacity)
        exact ⟨_, Effect.bind_eq_ok.mpr ⟨_, rfl, Effect.bind_eq_ok.mpr ⟨m, hm, rfl⟩⟩⟩
  · rw [if_neg (by simpa [hkind] using hbare)]
    exact ⟨fun _ hgpus hdiscrete => absurd ⟨hgpus, hdiscrete⟩ hbare, fun _ => ⟨_, rfl⟩⟩

theorem orderly_configuredGpu (vram : Metric) : (configuredGpu vram).Orderly := by
  refine ⟨?_, fun a ha t ht => (Option.some.inj (ha.symm.trans ht)).le⟩
  rintro v ⟨⟩
  norm_num

theorem orderly_staticGpus {gpus : List GPUResourceSnapshot}
    (h : staticGpus snapshot device = .ok gpus) (hgpus : ∀ gpu ∈ snapshot.gpus, gpu.Orderly) :
    ∀ gpu ∈ gpus, gpu.Orderly := by
  rw [staticGpus] at h
  split at h
  · obtain ⟨b, -, h⟩ := Effect.bind_eq_ok.mp h
    cases b with
    | none =>
      obtain rfl := Except.ok.inj h
      exact fun _ hgpu => absurd hgpu List.not_mem_nil
    | some n =>
      obtain ⟨m, -, h⟩ := Effect.bind_eq_ok.mp h
      obtain rfl := Except.ok.inj h
      intro gpu hgpu
      obtain rfl := List.mem_singleton.mp hgpu
      exact orderly_configuredGpu m
  · obtain rfl := Except.ok.inj h
    exact hgpus

/-- What the configuration has to be for the readings to be complete. -/
structure Gatherable (snapshot : ResourceSnapshot) (device : Device) : Prop where
  logical : snapshot.logicalCores.value = none → ∀ n ∈ device.cores, (n : ℚ) < overflow
  effective : snapshot.effectiveCores.value = none → ∀ n ∈ device.cores, (n : ℚ) < overflow
  ram : device.ramGb ≠ .infinity
  ramTotal : snapshot.ramTotalBytes.value = none → ∀ n ∈ capacity device.ramGb, (n : ℚ) < overflow
  vram : snapshot.gpus = [] → snapshot.gpuKind = .discrete → CardFits device.vramGb

/-- What the readings are, as far as the offers depend on it. -/
structure Gathered (snapshot : ResourceSnapshot) (policy : ResourcePolicy) (device : Device)
    (r : Readings) : Prop where
  measured : snapshot.ramTotalBytes.value.isSome → r.ramTotal = snapshot.ramTotalBytes
  configured : snapshot.ramTotalBytes.value = none →
    configuredMetric (capacity device.ramGb) .devicesToml = .ok r.ramTotal
  available : r.available = snapshot.ramAvailableBytes ∨
    snapshot.ramAvailableBytes.value = none ∧ r.available.value = r.ramTotal.value
  busy : ∀ v ∈ r.busy.value, v ≤ 100
  gpus : ∀ gpu ∈ r.gpus, gpu.Orderly
  kind : r.gpuKind = snapshot.gpuKind

theorem readings_eq_ok {r : Readings} (h : readings snapshot policy device = .ok r)
    (hsnapshot : snapshot.Orderly) (hkind : snapshot.gpuKind ≠ .auto) :
    Gatherable snapshot device ∧ Gathered snapshot policy device r := by
  obtain ⟨logical, hlogical, h⟩ := Effect.bind_eq_ok.mp h
  obtain ⟨effective, heffective, h⟩ := Effect.bind_eq_ok.mp h
  obtain ⟨ramBytes, hbytes, h⟩ := Effect.bind_eq_ok.mp h
  obtain ⟨ramTotal, htotal, h⟩ := Effect.bind_eq_ok.mp h
  obtain ⟨gpus, hgpus, h⟩ := Effect.bind_eq_ok.mp h
  obtain rfl := Except.ok.inj h
  obtain rfl := configuredBytes_eq_ok hbytes
  refine ⟨⟨staticOrMeasured_returns.mp ⟨_, hlogical⟩, staticOrMeasured_returns.mp ⟨_, heffective⟩,
    configuredBytes_returns.mp ⟨_, hbytes⟩, staticOrMeasured_returns.mp ⟨_, htotal⟩,
    (staticGpus_returns hkind).mp ⟨_, hgpus⟩⟩, ?_, ?_, ?_, ?_, ?_, ?_⟩
  · intro hsome
    rw [staticOrMeasured, if_pos hsome] at htotal
    exact (Except.ok.inj htotal).symm
  · intro hnone
    rw [staticOrMeasured, if_neg (by simp [hnone])] at htotal
    exact htotal
  · by_cases hassumed : snapshot.ramAvailableBytes.value = none ∧ allowsFallback policy = true ∧
        ramTotal.value.isSome
    · rw [dif_pos hassumed]
      exact Or.inr ⟨hassumed.1, rfl⟩
    · rw [dif_neg hassumed]
      exact Or.inl rfl
  · simp only
    split
    · rintro v ⟨⟩
      norm_num
    · exact hsnapshot.busy
  · exact orderly_staticGpus hgpus hsnapshot.gpus
  · exact if_neg fun hauto => hkind hauto.1

theorem readings_returns (hkind : snapshot.gpuKind ≠ .auto) (hsnapshot : snapshot.Orderly) :
    (∃ r, readings snapshot policy device = .ok r) ↔ Gatherable snapshot device := by
  refine ⟨fun ⟨_, h⟩ => (readings_eq_ok h hsnapshot hkind).1, fun h => ?_⟩
  obtain ⟨logical, hlogical⟩ := (@staticOrMeasured_returns _ _ .devicesToml).mpr h.logical
  obtain ⟨effective, heffective⟩ := (@staticOrMeasured_returns _ _ .devicesToml).mpr h.effective
  have hb : configuredBytes device.ramGb = .ok (capacity device.ramGb) := if_neg h.ram
  obtain ⟨total, htotal⟩ := (@staticOrMeasured_returns _ _ .devicesToml).mpr h.ramTotal
  obtain ⟨gpus, hgpus⟩ := (staticGpus_returns hkind).mpr h.vram
  exact ⟨_, Effect.bind_eq_ok.mpr ⟨logical, hlogical, Effect.bind_eq_ok.mpr ⟨effective, heffective,
    Effect.bind_eq_ok.mpr ⟨_, hb, Effect.bind_eq_ok.mpr ⟨total, htotal,
    Effect.bind_eq_ok.mpr ⟨gpus, hgpus, rfl⟩⟩⟩⟩⟩⟩

/-- The RAM that is there and the RAM that is available do not contradict each other. -/
def RamFits (policy : ResourcePolicy) (total available : Metric) : Prop :=
  ∀ p ∈ policy, ∀ t a, Backed p total t → Backed p available a → a ≤ t

/-- A configured total is not below what was measured to be available. -/
def Consistent (policy : ResourcePolicy) (total available : Option ℚ) (ramGb : Double) : Prop :=
  allowsFallback policy = true → total = none →
    ∀ a ∈ available, ∀ n ∈ capacity ramGb, 0 < n → a ≤ n

theorem allowsFallback_iff {policy : ResourcePolicy} :
    allowsFallback policy = true ↔ ∃ p ∈ policy, p.allowStaticFallback = true := by
  cases policy <;> simp [allowsFallback]

theorem Backed.of_fallback {p : DeviceResourcePolicy} (hp : p.allowStaticFallback = true)
    {metric : Metric} {value : ℚ} (h : metric.value = some value) : Backed p metric value :=
  ⟨h, (metric.valued.mp (by simp [h])).imp_right fun hconfigured => ⟨hconfigured, hp⟩⟩

theorem ramFits_iff {r : Readings} (hsnapshot : snapshot.Orderly)
    (h : Gathered snapshot policy device r) : RamFits policy r.ramTotal r.available ↔
      Consistent policy snapshot.ramTotalBytes.value snapshot.ramAvailableBytes.value
        device.ramGb := by
  constructor
  · intro hfits hfallback hnone a ha n hn hpos
    obtain ⟨p, hp, hallowed⟩ := allowsFallback_iff.mp hfallback
    have htotal : r.ramTotal.value = some (n : ℚ) :=
      (configuredMetric_value (h.configured hnone)).mpr ⟨n, hn, hpos, rfl⟩
    rcases h.available with heq | ⟨hempty, -⟩
    · exact hfits p hp n a (.of_fallback hallowed htotal) (.of_fallback hallowed (heq ▸ ha))
    · exact absurd (hempty.symm.trans ha) nofun
  · intro hconsistent p hp t a ht ha
    rcases h.available with heq | ⟨-, hsame⟩
    · rw [heq] at ha
      cases htotal : snapshot.ramTotalBytes.value with
      | some t' =>
        rw [h.measured (by simp [htotal])] at ht
        exact hsnapshot.ram a ha.1 t ht.1
      | none =>
        have hconfigured := h.configured htotal
        obtain ⟨n, hn, hpos, rfl⟩ := (configuredMetric_value hconfigured).mp ht.1
        -- a configured total is only used under a policy that allows the fallback
        have hallowed := (ht.2.resolve_left (configuredMetric_status hconfigured)).2
        exact hconsistent (allowsFallback_iff.mpr ⟨p, hp, hallowed⟩) htotal a ha.1 n hn hpos
    · exact (Option.some.inj (ha.1.symm.trans (hsame.trans ht.1))).le

end Readings


/-! ## The document -/

/-- Every number that is offered is backed by the metrics the envelope shows. -/
structure Conservative (policy : ResourcePolicy) (r : Readings) (e : ResourceEnvelope) : Prop where
  shown : e.staticCpu = cpuStaticDocument r.logical r.effective ∧ e.liveBusy = r.busy ∧
    e.staticRam = r.ramTotal ∧ e.liveRam = r.available
  cpu : ∀ n ∈ e.offeredCpu.value, CpuBacked policy r.effective r.busy n
  ram : ∀ n ∈ e.offeredRam.value, RamBacked policy r.ramTotal r.available n
  vram : ∀ offer ∈ e.offeredGpus, ∀ n ∈ offer.2.value, ∃ gpu ∈ r.gpus, gpu.id = offer.1 ∧
    VramBacked policy gpu n
  separate : r.gpuKind ≠ .discrete → e.offeredGpus = []

section Document
variable {r : Readings} {snapshot : ResourceSnapshot} {policy : ResourcePolicy} {capturedAt : Text}

theorem document_eq_ok {e : ResourceEnvelope} (h : document r snapshot policy capturedAt = .ok e) :
    Conservative policy r e := by
  obtain ⟨cpu, hcpu, h⟩ := Effect.bind_eq_ok.mp h
  obtain ⟨ram, hram, h⟩ := Effect.bind_eq_ok.mp h
  obtain ⟨gpus, hgpus, h⟩ := Effect.bind_eq_ok.mp h
  obtain rfl := Except.ok.inj h
  refine ⟨⟨rfl, rfl, rfl, rfl⟩, fun n hn => offerCpu_value hcpu hn,
    fun n hn => offerRam_value hram hn, ?_, ?_⟩
  · intro offer hoffer n hn
    rw [gpuOffers] at hgpus
    split at hgpus
    · obtain ⟨gpu, hgpu, hof⟩ := (Effect.mem_of_mapM hgpus).mp hoffer
      rw [gpuOffer] at hof
      cases hvalue : offerGpuVram gpu.vramTotalBytes gpu.vramFreeBytes gpu.utilPct policy with
      | error e =>
        rw [hvalue] at hof
        exact absurd hof nofun
      | ok o =>
        rw [hvalue] at hof
        obtain rfl := Except.ok.inj hof
        exact ⟨gpu, hgpu, rfl, offerGpuVram_value hvalue hn⟩
    · obtain rfl := Except.ok.inj hgpus
      exact absurd hoffer List.not_mem_nil
  · intro hkind
    rw [gpuOffers, if_neg hkind] at hgpus
    exact (Except.ok.inj hgpus).symm

theorem document_returns (hbusy : ∀ v ∈ r.busy.value, v ≤ 100)
    (hgpus : ∀ gpu ∈ r.gpus, gpu.Orderly) :
    (∃ e, document r snapshot policy capturedAt = .ok e) ↔
      RamFits policy r.ramTotal r.available := by
  constructor
  · rintro ⟨e, h⟩
    obtain ⟨_, -, h⟩ := Effect.bind_eq_ok.mp h
    obtain ⟨ram, hram, -⟩ := Effect.bind_eq_ok.mp h
    exact offerRam_returns.mp ⟨ram, hram⟩
  · intro hfits
    obtain ⟨cpu, hcpu⟩ := @offerCpu_returns r.effective r.busy policy hbusy
    obtain ⟨ram, hram⟩ := offerRam_returns.mpr hfits
    have hoffers : ∃ gpus, gpuOffers r policy = .ok gpus := by
      rw [gpuOffers]
      split
      · refine Effect.mapM_returns.mpr fun gpu hgpu => ?_
        obtain ⟨offer, hoffer⟩ := @offerGpuVram_returns gpu policy (hgpus gpu hgpu)
        rw [gpuOffer, hoffer]
        exact ⟨_, rfl⟩
      · exact ⟨_, rfl⟩
    obtain ⟨gpus, hgpus⟩ := hoffers
    exact ⟨_, Effect.bind_eq_ok.mpr ⟨cpu, hcpu, Effect.bind_eq_ok.mpr ⟨ram, hram,
      Effect.bind_eq_ok.mpr ⟨gpus, hgpus, rfl⟩⟩⟩⟩

end Document

/-! ## From the text to the envelope -/

theorem topologyOf_ne_auto {declared : Option Text} {s : Option Sections} :
    topologyOf declared s ≠ .auto := by
  cases s with
  | none => rintro ⟨⟩
  | some s =>
    rw [topologyOf, sectionTopology]
    split
    · rintro ⟨⟩
    · assumption

/-- A device whose memory is declared to be shared never has a separate one. -/
theorem topologyOf_unified {s : Option Sections} :
    topologyOf (some (text "unified")) s ≠ .discrete := by
  cases s with
  | none => exact nofun
  | some s =>
    rw [topologyOf, sectionTopology]
    cases observedKind s.gpu <;> decide

/-- The text is read, and its values together with the configuration leave nothing that is out of
range or contradicts itself. -/
structure Answerable (host : Interpreter) (printedText : List Char) (declared : Option Text)
    (device : Device) (policy : ResourcePolicy) : Prop where
  readable : Readable host printedText
  logical : believed (probed host printedText) Sections.cpu "logical_cores" = none →
    ∀ n ∈ device.cores, (n : ℚ) < overflow
  effective : believed (probed host printedText) Sections.cpu "effective_cores" = none →
    ∀ n ∈ device.cores, (n : ℚ) < overflow
  ram : device.ramGb ≠ .infinity
  ramTotal : believed (probed host printedText) Sections.ram "total_bytes" = none →
    ∀ n ∈ capacity device.ramGb, (n : ℚ) < overflow
  consistent : Consistent policy (believed (probed host printedText) Sections.ram "total_bytes")
    (believed (probed host printedText) Sections.ram "available_bytes") device.ramGb
  vram : topologyOf declared (probed host printedText) = .discrete →
    Bare (probed host printedText) → CardFits device.vramGb

/-- A snapshot and an envelope come out, and the envelope is conservative. -/
def Answered (host : Interpreter) (printedText : List Char) (declared : Option Text)
    (device : Device) (policy : ResourcePolicy) (capturedAt : Text) : Prop :=
  ∃ snapshot r e, parseResourceProbe host printedText declared = .ok snapshot ∧
    readings snapshot policy device = .ok r ∧
    buildResourceEnvelope snapshot policy device capturedAt = .ok e ∧ Conservative policy r e ∧
    (snapshot.gpuKind = .unified ∨ snapshot.gpuKind = .unknown ∨
      declared = some (text "unified") → e.offeredGpus = [])

theorem answered_iff (host : Interpreter) (printedText : List Char) (declared : Option Text)
    (device : Device) (policy : ResourcePolicy) (capturedAt : Text) :
    Answered host printedText declared device policy capturedAt ↔
      Answerable host printedText declared device policy := by
  constructor
  · rintro ⟨snapshot, r, e, hparse, hr, he, -, -⟩
    obtain ⟨hreadable, hobserved, horderly⟩ := parse_eq_ok hparse
    obtain ⟨hgatherable, hgathered⟩ :=
      readings_eq_ok hr horderly (hobserved.kind ▸ topologyOf_ne_auto)
    rw [buildResourceEnvelope, hr] at he
    have hfits := (document_returns hgathered.busy hgathered.gpus).mp ⟨e, he⟩
    have hconsistent := (ramFits_iff horderly hgathered).mp hfits
    refine ⟨hreadable, ?_, ?_, hgatherable.ram, ?_, ?_, ?_⟩
    · exact hobserved.logical ▸ hgatherable.logical
    · exact hobserved.effective ▸ hgatherable.effective
    · exact hobserved.total ▸ hgatherable.ramTotal
    · intro hfallback hnone
      rw [← hobserved.available (hobserved.total.trans hnone)]
      exact hconsistent hfallback (hobserved.total.trans hnone)
    · intro hdiscrete hbare
      exact hgatherable.vram (hobserved.bare.mpr hbare) (hobserved.kind.trans hdiscrete)
  · intro h
    obtain ⟨snapshot, hparse⟩ := (@parse_returns host printedText declared).mpr h.readable
    obtain ⟨-, hobserved, horderly⟩ := parse_eq_ok hparse
    have hkind : snapshot.gpuKind ≠ .auto := hobserved.kind ▸ topologyOf_ne_auto
    have hgatherable : Gatherable snapshot device := {
      logical := hobserved.logical ▸ h.logical
      effective := hobserved.effective ▸ h.effective
      ram := h.ram
      ramTotal := hobserved.total ▸ h.ramTotal
      vram := fun hgpus hdiscrete =>
        h.vram (hobserved.kind.symm.trans hdiscrete) (hobserved.bare.mp hgpus) }
    obtain ⟨r, hr⟩ := (@readings_returns snapshot policy device hkind horderly).mpr hgatherable
    obtain ⟨-, hgathered⟩ := readings_eq_ok hr horderly hkind
    have hfits : RamFits policy r.ramTotal r.available := by
      refine (ramFits_iff horderly hgathered).mpr fun hfallback hnone => ?_
      rw [hobserved.available hnone]
      exact h.consistent hfallback (hobserved.total.symm.trans hnone)
    obtain ⟨e, he⟩ := (@document_returns r snapshot policy capturedAt hgathered.busy
      hgathered.gpus).mpr hfits
    have hconservative := document_eq_ok he
    refine ⟨snapshot, r, e, hparse, hr, ?_, hconservative, ?_⟩
    · rw [buildResourceEnvelope, hr]
      exact he
    · intro hshared
      apply hconservative.separate
      rw [hgathered.kind]
      rcases hshared with hunified | hunknown | rfl
      · rw [hunified]
        exact nofun
      · rw [hunknown]
        exact nofun
      · rw [hobserved.kind]
        exact topologyOf_unified

/-! ## A configured total below what is available -/

/-- A target that reports what RAM is available but not how much there is. -/
def withoutTotal : String :=
  "\x7b\"cpu\":\x7b\"logical_cores\":8,\"effective_cores\":8,\"busy_pct\":12.5\x7d," ++
  "\"ram\":\x7b\"total_bytes\":null,\"available_bytes\":17179869184\x7d," ++
  "\"gpu\":\x7b\"kind\":\"none\",\"status\":\"measured\",\"devices\":[]\x7d\x7d"

/-- `ram_gb = 8`. -/
def eightGb : Device := ⟨8, 0, .finite 8 (by decide +kernel), .finite 0 (by decide +kernel)⟩

def fallbackPolicy : DeviceResourcePolicy where
  mode := .unattended
  cpuReserveCores := 1
  cpuMaxFraction := 1
  ramReserveBytes := 1024 * 2 ^ 20
  ramMaxFraction := 1
  gpuBusyCeilingPct := 50
  vramReserveBytes := 0
  vramMaxFraction := 1
  allowStaticFallback := true
  reserve := by norm_num
  cpuFraction := by norm_num
  ramFraction := by norm_num
  ceiling := by norm_num
  vramFraction := by norm_num

/-- The configured total takes the place of the missing one, and the measured amount exceeds it. -/
theorem configured_total_contradicted :
    ¬ Answered ⟨1000, 4300, 1000⟩ withoutTotal.toList (some (text "auto")) eightGb
      (some fallbackPolicy) (text "2026-01-01T00:00:00Z") := by
  have hfails : (parseResourceProbe ⟨1000, 4300, 1000⟩ withoutTotal.toList (some (text "auto"))
      >>= fun snapshot => buildResourceEnvelope snapshot (some fallbackPolicy) eightGb
        (text "2026-01-01T00:00:00Z")).isOk = false := by decide +kernel
  rintro ⟨snapshot, r, e, hparse, -, hbuild, -⟩
  rw [hparse] at hfails
  change (buildResourceEnvelope snapshot _ _ _).isOk = false at hfails
  rw [hbuild] at hfails
  exact absurd hfails nofun

end Remrun.Resources
