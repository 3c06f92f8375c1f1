import Remrun.Resources.Probe

/-!
# Snapshots of a probe's text

When the parser returns, and what its snapshot then has to do with the text: which numbers it
believes, the topology and the rows, and that no two of its measurements contradict each other.
-/

namespace Remrun.Resources

set_option autoImplicit false

open Doubles (InRange overflow)
open JsonReader (Text Value Members text member)

/-! ## When a probe is read -/

/-- A whole number has to be one that `float` takes. -/
def Convertible : Option Value → Prop
  | some (.int n) => InRange n
  | _ => True

def Hashable : Option Value → Prop
  | some (.arr _) | some (.obj _) => False
  | _ => True

/-- The number a member of the probe holds. -/
def numeric : Option Value → Option ℚ
  | some (.int n) => if InRange n then some n else none
  | some (.float (.finite q _)) => some q
  | _ => none

/-- The number that is believed. -/
def reading (maximum : Option ℚ) (value : Option Value) : Option ℚ :=
  (numeric value).filter fun q => decide (0 ≤ q ∧ ∀ m ∈ maximum, q ≤ m)

theorem checkedMetric_value {q : ℚ} (range : InRange q) (source confidence : Label)
    (maximum : Option ℚ) : (checkedMetric q range source confidence maximum).value =
      (some q).filter fun q => decide (0 ≤ q ∧ ∀ m ∈ maximum, q ≤ m) := by
  rw [checkedMetric]
  split
  · rename_i h
    rw [Option.filter_some, if_neg]
    · rfl
    · simp only [decide_eq_true_eq, not_and_or, not_le]
      push Not
      exact h
  · rename_i h
    rw [Option.filter_some, if_pos]
    push Not at h
    exact decide_eq_true h

theorem metric_returns {value : Option Value} {source confidence : Label} {maximum : Option ℚ} :
    (∃ m, metric value source confidence maximum = .ok m) ↔ Convertible value := by
  rcases value with _ | v
  · simp [metric, Convertible]
  cases v with
  | int n =>
    simp only [metric, Convertible, Doubles.ofInt]
    split <;> rename_i h <;> split at h <;> simp_all
  | float x => cases x <;> simp [metric, Convertible]
  | _ => simp [metric, Convertible]

theorem metric_value {value : Option Value} {source confidence : Label} {maximum : Option ℚ}
    {m : Metric} (h : metric value source confidence maximum = .ok m) :
    m.value = reading maximum value := by
  rcases value with _ | v
  · obtain rfl := Except.ok.inj h
    rfl
  cases v with
  | int n =>
    rw [metric] at h
    split at h
    · rename_i q hq
      obtain rfl := Except.ok.inj h
      rw [Doubles.ofInt] at hq
      split at hq
      · rename_i hn
        obtain rfl := Option.some.inj hq
        rw [checkedMetric_value, reading, numeric, if_pos hn]
      · cases hq
    · cases h
  | float x =>
    cases x with
    | finite q range =>
      obtain rfl := Except.ok.inj h
      exact checkedMetric_value range source confidence maximum
    | _ =>
      obtain rfl := Except.ok.inj h
      rfl
  | _ =>
    obtain rfl := Except.ok.inj h
    rfl

theorem le_of_reading {maximum q : ℚ} {value : Option Value}
    (h : reading (some maximum) value = some q) : q ≤ maximum := by
  obtain ⟨-, hq⟩ := Option.filter_eq_some_iff.mp h
  exact (of_decide_eq_true hq).2 maximum rfl

theorem lookup_returns {α : Type} {names : List (String × α)} {value : Option Value} :
    (∃ found, lookup names value = .ok found) ↔ Hashable value := by
  rcases value with _ | v
  · simp [lookup, Hashable]
  · cases v <;> simp [lookup, Hashable]

theorem printed_returns {host : Interpreter} {value : Option Value} :
    (∃ u, printed host value = .ok u) ↔ Printable host value := by
  rw [printed]
  split <;> simp [*]

/-- An available amount that is at most the total, where both are known. -/
def Ordered (available total : Metric) : Prop :=
  ∀ a ∈ available.value, ∀ t ∈ total.value, a ≤ t

theorem ordered_within (available total : Metric) (source : Label) :
    Ordered (within available total source) total := by
  intro a ha t ht
  rw [within] at ha
  split at ha
  · rename_i a' t' ha' ht'
    split at ha
    · exact absurd ha nofun
    · obtain rfl : a' = a := Option.some.inj (ha'.symm.trans ha)
      obtain rfl : t' = t := Option.some.inj (ht'.symm.trans ht)
      exact not_lt.mp ‹_›
  · rename_i hnone
    exact absurd ht (hnone a t ha)

theorem within_eq {available total : Metric} {source : Label} (h : total.value = none) :
    within available total source = available := by
  rw [within]
  split
  · rename_i ht
    exact absurd (h.symm.trans ht) nofun
  · rfl

/-! ## GPU rows -/

/-- A row with an identity, whose counters are read. -/
def identified : Value → Prop
  | .obj raw =>
    (∃ id, member raw "id" = some (.str id)) ∧ ∃ name, member raw "name" = some (.str name)
  | _ => False

def RowConvertible (raw : Value) : Prop :=
  identified raw → ∀ members, raw = .obj members → Convertible (member members "util_pct") ∧
    Convertible (member members "vram_free_bytes") ∧ Convertible (member members "vram_total_bytes")

/-- Counters that cannot be out of their physical range. -/
structure GPUResourceSnapshot.Orderly (gpu : GPUResourceSnapshot) : Prop where
  util : ∀ v ∈ gpu.utilPct.value, v ≤ 100
  vram : Ordered gpu.vramFreeBytes gpu.vramTotalBytes

theorem ordered_unknown {missing : Missing} {source : Label} {total : Metric} :
    Ordered (unknownMetric missing source) total := fun _ ha => absurd ha nofun

/-- What a row gives, apart from its texts. -/
theorem gpuRow_eq_ok {kind : Topology} {raw : Value} {row : Row} (h : gpuRow kind raw = .ok row) :
    (row.device.isSome ↔ identified raw) ∧ RowConvertible raw ∧
      ∀ pair ∈ row.device, pair.2.Orderly := by
  rcases raw with _ | _ | _ | _ | _ | _ | raw
  case obj =>
    rw [gpuRow] at h
    split at h
    · rename_i id name hid hname
      obtain ⟨util, hutil, h⟩ := Effect.bind_eq_ok.mp h
      obtain ⟨free, hfree, h⟩ := Effect.bind_eq_ok.mp h
      obtain ⟨total, htotal, h⟩ := Effect.bind_eq_ok.mp h
      have hbusy : ∀ v ∈ util.value, v ≤ 100 := by
        intro v hv
        rw [metric_value hutil] at hv
        exact le_of_reading hv
      have hidentified : identified (.obj raw) := ⟨⟨id, hid⟩, name, hname⟩
      have hconvertible : RowConvertible (.obj raw) := by
        rintro - members ⟨⟩
        exact ⟨metric_returns.mp ⟨util, hutil⟩, metric_returns.mp ⟨free, hfree⟩,
          metric_returns.mp ⟨total, htotal⟩⟩
      split at h
      · obtain rfl := Except.ok.inj h
        refine ⟨by simpa using hidentified, hconvertible, ?_⟩
        rintro pair ⟨⟩
        exact ⟨hbusy, ordered_unknown⟩
      · obtain rfl := Except.ok.inj h
        refine ⟨by simpa using hidentified, hconvertible, ?_⟩
        rintro pair ⟨⟩
        exact ⟨hbusy, ordered_within free total .nvidiaSmi⟩
    · rename_i hnone
      obtain rfl := Except.ok.inj h
      have hnot : ¬ identified (.obj raw) := by
        rintro ⟨⟨id, hid⟩, name, hname⟩
        exact hnone id name hid hname
      exact ⟨by simpa using hnot, fun hid => absurd hid hnot, by simp⟩
  all_goals
    obtain rfl := Except.ok.inj h
    exact ⟨by simp [identified], fun hid => absurd hid id, by simp⟩

theorem gpuRow_returns {kind : Topology} {raw : Value} :
    (∃ row, gpuRow kind raw = .ok row) ↔ RowConvertible raw := by
  refine ⟨fun ⟨_, h⟩ => (gpuRow_eq_ok h).2.1, fun h => ?_⟩
  rcases raw with _ | _ | _ | _ | _ | _ | raw
  case obj =>
    rw [gpuRow]
    split
    · rename_i id name hid hname
      obtain ⟨hutil, hfree, htotal⟩ := h ⟨⟨id, hid⟩, name, hname⟩ raw rfl
      obtain ⟨util, hutil⟩ := metric_returns.mpr hutil
      obtain ⟨free, hfree⟩ := metric_returns.mpr hfree
      obtain ⟨total, htotal⟩ := metric_returns.mpr htotal
      rw [hutil, hfree, htotal]
      exact ⟨_, (apply_ite Except.ok _ _ _).symm⟩
    · exact ⟨_, rfl⟩
  all_goals exact ⟨_, rfl⟩

theorem orderly_normalizedDevice {gpu : GPUResourceSnapshot} (h : gpu.Orderly) (kind : Topology) :
    (normalizedDevice kind gpu).Orderly := by
  cases kind with
  | unified => exact ⟨h.util, ordered_unknown⟩
  | unknown => exact ⟨h.util, ordered_unknown⟩
  | _ => exact h

/-! ## The GPU section -/

def found {α : Type} (names : List (String × α)) : Option Value → Option α
  | some (.str s) => (names.find? fun e => text e.1 = s).map Prod.snd
  | _ => none

theorem lookup_eq_ok {α : Type} {names : List (String × α)} {value : Option Value} {x : Option α}
    (h : lookup names value = .ok x) : x = found names value := by
  rcases value with _ | v
  · exact (Except.ok.inj h).symm
  · cases v <;> first | exact (Except.ok.inj h).symm | exact absurd h nofun

def observedKind (gpu : Members) : Topology := (found gpuKinds (member gpu "kind")).getD .unknown

/-- The topology a snapshot is given. -/
def sectionTopology (declared : Option Text) (gpu : Members) : Topology :=
  if (resolved declared (observedKind gpu)).1 = .auto then .unknown
  else (resolved declared (observedKind gpu)).1

/-- What the GPU section has to be for `gpuSection` to return. -/
structure GpuClean (gpu : Members) : Prop where
  kind : Hashable (member gpu "kind")
  status : Hashable (member gpu "status")
  rows : ∀ raw ∈ (deviceRows gpu).getD [], RowConvertible raw

structure GpuObserved (declared : Option Text) (gpu : Members) (g : GpuSection) : Prop where
  kind : g.kind = sectionTopology declared gpu
  bare : g.gpus = [] ↔ ∀ raw ∈ (deviceRows gpu).getD [], ¬ identified raw
  orderly : ∀ card ∈ g.gpus, card.Orderly

theorem devices_nil {kind : Topology} {raws : List Value} {rows : List Row}
    (h : raws.mapM (gpuRow kind) = .ok rows) :
    rows.filterMap Row.device = [] ↔ ∀ raw ∈ raws, ¬ identified raw := by
  rw [List.filterMap_eq_nil_iff]
  constructor
  · intro hnone raw hraw hid
    obtain ⟨row, hrow⟩ := Effect.ok_of_mapM h hraw
    have hsome := (gpuRow_eq_ok hrow).1.mpr hid
    rw [hnone row ((Effect.mem_of_mapM h).mpr ⟨raw, hraw, hrow⟩)] at hsome
    exact absurd hsome nofun
  · intro hnot row hmem
    obtain ⟨raw, hraw, hrow⟩ := (Effect.mem_of_mapM h).mp hmem
    exact Option.not_isSome_iff_eq_none.mp fun hsome =>
      hnot raw hraw ((gpuRow_eq_ok hrow).1.mp hsome)

theorem orderly_devices {kind : Topology} {raws : List Value} {rows : List Row}
    (h : raws.mapM (gpuRow kind) = .ok rows) :
    ∀ card ∈ (rows.filterMap Row.device).map Prod.snd, card.Orderly := by
  intro card hcard
  obtain ⟨pair, hpair, rfl⟩ := List.mem_map.mp hcard
  obtain ⟨row, hrow, hdevice⟩ := List.mem_filterMap.mp hpair
  obtain ⟨raw, -, hraw⟩ := (Effect.mem_of_mapM h).mp hrow
  exact (gpuRow_eq_ok hraw).2.2 pair hdevice

theorem gpuSection_eq_ok {declared : Option Text} {gpu : Members} {g : GpuSection}
    (h : gpuSection declared gpu = .ok g) : GpuClean gpu ∧ GpuObserved declared gpu g := by
  obtain ⟨kind, hkind, h⟩ := Effect.bind_eq_ok.mp h
  obtain ⟨status, hstatus, h⟩ := Effect.bind_eq_ok.mp h
  obtain ⟨rows, hrows, h⟩ := Effect.bind_eq_ok.mp h
  obtain rfl := Except.ok.inj h
  refine ⟨⟨lookup_returns.mp ⟨kind, hkind⟩, lookup_returns.mp ⟨status, hstatus⟩, ?_⟩, ?_⟩
  · intro raw hraw
    exact gpuRow_returns.mp (Effect.ok_of_mapM hrows hraw)
  · rw [lookup_eq_ok hkind] at hrows
    refine ⟨?_, ?_, ?_⟩
    · rw [sectionTopology, observedKind, ← lookup_eq_ok hkind]
    · simp only [List.map_eq_nil_iff]
      exact devices_nil hrows
    · intro card hcard
      obtain ⟨card', hcard', rfl⟩ := List.mem_map.mp hcard
      exact orderly_normalizedDevice (orderly_devices hrows card' hcard') _

theorem gpuSection_returns {declared : Option Text} {gpu : Members} :
    (∃ g, gpuSection declared gpu = .ok g) ↔ GpuClean gpu := by
  refine ⟨fun ⟨_, h⟩ => (gpuSection_eq_ok h).1, fun h => ?_⟩
  obtain ⟨kind, hkind⟩ := (@lookup_returns _ gpuKinds _).mpr h.kind
  obtain ⟨status, hstatus⟩ := (@lookup_returns _ gpuStatuses _).mpr h.status
  obtain ⟨rows, hrows⟩ := Effect.mapM_returns.mpr fun raw hraw =>
    (@gpuRow_returns (kind.getD .unknown) raw).mpr (h.rows raw hraw)
  refine ⟨_, Effect.bind_eq_ok.mpr ⟨kind, hkind, Effect.bind_eq_ok.mpr ⟨status, hstatus,
    Effect.bind_eq_ok.mpr ⟨rows, hrows, rfl⟩⟩⟩⟩

/-! ## Snapshots of a text -/

/-- What the sections have to be for a snapshot to come out. -/
structure Sections.Clean (host : Interpreter) (s : Sections) : Prop where
  cpu : ∀ key ∈ ["logical_cores", "effective_cores", "busy_pct"], Convertible (member s.cpu key)
  ram : ∀ key ∈ ["total_bytes", "available_bytes"], Convertible (member s.ram key)
  gpu : GpuClean s.gpu
  names : ∀ key ∈ ["platform", "machine"], Printable host (member s.payload key)
  detail : Printable host (member s.gpu "detail")

/-- The sections of a text, where it has them. -/
def probed (host : Interpreter) (printedText : List Char) : Option Sections :=
  match JsonReader.loads host.limits printedText with
  | .ok payload => (sections payload).toOption
  | .error _ => none

/-- A number of the probe, where there is one to believe. -/
def believed (s : Option Sections) (part : Sections → Members) (key : String) : Option ℚ :=
  s.bind fun s => reading none (member (part s) key)

def topologyOf (declared : Option Text) : Option Sections → Topology
  | some s => sectionTopology declared s.gpu
  | none => .unknown

/-- There is no row with an identity. -/
def Bare (s : Option Sections) : Prop :=
  ∀ s' ∈ s, ∀ raw ∈ (deviceRows s'.gpu).getD [], ¬ identified raw

/-- What a snapshot has to do with the sections it was made from. -/
structure Observed (declared : Option Text) (s : Option Sections) (snapshot : ResourceSnapshot) :
    Prop where
  logical : snapshot.logicalCores.value = believed s Sections.cpu "logical_cores"
  effective : snapshot.effectiveCores.value = believed s Sections.cpu "effective_cores"
  total : snapshot.ramTotalBytes.value = believed s Sections.ram "total_bytes"
  available : snapshot.ramTotalBytes.value = none →
    snapshot.ramAvailableBytes.value = believed s Sections.ram "available_bytes"
  kind : snapshot.gpuKind = topologyOf declared s
  bare : snapshot.gpus = [] ↔ Bare s

/-- Measurements that cannot contradict each other. -/
structure ResourceSnapshot.Orderly (snapshot : ResourceSnapshot) : Prop where
  busy : ∀ v ∈ snapshot.cpuBusyPct.value, v ≤ 100
  ram : Ordered snapshot.ramAvailableBytes snapshot.ramTotalBytes
  gpus : ∀ gpu ∈ snapshot.gpus, gpu.Orderly

theorem readSections_eq_ok {host : Interpreter} {declared : Option Text} {s : Sections}
    {snapshot : ResourceSnapshot} (h : readSections host declared s = .ok snapshot) :
    s.Clean host ∧ Observed declared (some s) snapshot ∧ snapshot.Orderly := by
  obtain ⟨logical, hlogical, h⟩ := Effect.bind_eq_ok.mp h
  obtain ⟨effective, heffective, h⟩ := Effect.bind_eq_ok.mp h
  obtain ⟨busy, hbusy, h⟩ := Effect.bind_eq_ok.mp h
  obtain ⟨total, htotal, h⟩ := Effect.bind_eq_ok.mp h
  obtain ⟨available, havailable, h⟩ := Effect.bind_eq_ok.mp h
  obtain ⟨gpu, hgpu, h⟩ := Effect.bind_eq_ok.mp h
  obtain ⟨_, hplatform, h⟩ := Effect.bind_eq_ok.mp h
  obtain ⟨_, hmachine, h⟩ := Effect.bind_eq_ok.mp h
  obtain ⟨_, hdetail, h⟩ := Effect.bind_eq_ok.mp h
  obtain rfl := Except.ok.inj h
  obtain ⟨hclean, hobserved⟩ := gpuSection_eq_ok hgpu
  refine ⟨⟨?_, ?_, hclean, ?_, printed_returns.mp ⟨_, hdetail⟩⟩, ?_, ?_⟩
  · simp only [List.forall_mem_cons, List.not_mem_nil, false_imp_iff, implies_true, and_true]
    exact ⟨metric_returns.mp ⟨_, hlogical⟩, metric_returns.mp ⟨_, heffective⟩,
      metric_returns.mp ⟨_, hbusy⟩⟩
  · simp only [List.forall_mem_cons, List.not_mem_nil, false_imp_iff, implies_true, and_true]
    exact ⟨metric_returns.mp ⟨_, htotal⟩, metric_returns.mp ⟨_, havailable⟩⟩
  · simp only [List.forall_mem_cons, List.not_mem_nil, false_imp_iff, implies_true, and_true]
    exact ⟨printed_returns.mp ⟨_, hplatform⟩, printed_returns.mp ⟨_, hmachine⟩⟩
  · exact {
      logical := metric_value hlogical
      effective := metric_value heffective
      total := metric_value htotal
      available := fun hnone => (congrArg Metric.value (within_eq hnone)).trans
        (metric_value havailable)
      kind := hobserved.kind
      bare := hobserved.bare.trans (by simp [Bare]) }
  · refine ⟨fun v hv => ?_, ordered_within available total .kernelAvailable, hobserved.orderly⟩
    exact le_of_reading ((metric_value hbusy).symm.trans hv)

theorem readSections_returns {host : Interpreter} {declared : Option Text} {s : Sections} :
    (∃ snapshot, readSections host declared s = .ok snapshot) ↔ s.Clean host := by
  refine ⟨fun ⟨_, h⟩ => (readSections_eq_ok h).1, fun h => ?_⟩
  obtain ⟨logical, hlogical⟩ := metric_returns.mpr (h.cpu "logical_cores" (by simp))
  obtain ⟨effective, heffective⟩ := metric_returns.mpr (h.cpu "effective_cores" (by simp))
  obtain ⟨busy, hbusy⟩ := metric_returns.mpr (h.cpu "busy_pct" (by simp))
  obtain ⟨total, htotal⟩ := metric_returns.mpr (h.ram "total_bytes" (by simp))
  obtain ⟨available, havailable⟩ := metric_returns.mpr (h.ram "available_bytes" (by simp))
  obtain ⟨gpu, hgpu⟩ := (@gpuSection_returns declared _).mpr h.gpu
  obtain ⟨_, hplatform⟩ := printed_returns.mpr (h.names "platform" (by simp))
  obtain ⟨_, hmachine⟩ := printed_returns.mpr (h.names "machine" (by simp))
  obtain ⟨_, hdetail⟩ := printed_returns.mpr h.detail
  rw [readSections, hlogical, heffective, hbusy, htotal, havailable, hgpu, hplatform, hmachine,
    hdetail]
  exact ⟨_, rfl⟩

theorem malformedSnapshot_observed {declared : Option Text} (detail : String) :
    Observed declared none (malformedSnapshot detail) ∧ (malformedSnapshot detail).Orderly :=
  ⟨⟨rfl, rfl, rfl, fun _ => rfl, rfl, by simp [malformedSnapshot, Bare]⟩,
    ⟨fun _ hv => absurd hv nofun, ordered_unknown, fun _ hgpu => absurd hgpu List.not_mem_nil⟩⟩

/-- The text is read within the limits, and the values in the places the parser looks at can be
converted, looked up and printed. -/
structure Readable (host : Interpreter) (printedText : List Char) : Prop where
  reads : ∀ fault, JsonReader.loads host.limits printedText = .error fault → raised fault = none
  clean : ∀ s ∈ probed host printedText, s.Clean host

variable {host : Interpreter} {printedText : List Char} {declared : Option Text}

theorem parse_eq_ok {snapshot : ResourceSnapshot}
    (h : parseResourceProbe host printedText declared = .ok snapshot) :
    Readable host printedText ∧ Observed declared (probed host printedText) snapshot ∧
      snapshot.Orderly := by
  rw [parseResourceProbe] at h
  cases hloads : JsonReader.loads host.limits printedText with
  | error fault =>
    rw [hloads] at h
    have hprobed : probed host printedText = none := by rw [probed, hloads]
    cases hraised : raised fault with
    | some raise =>
      simp only [hraised] at h
      exact absurd h nofun
    | none =>
      simp only [hraised] at h
      obtain rfl := Except.ok.inj h
      refine ⟨⟨?_, by simp [hprobed]⟩, ?_⟩
      · intro fault' hfault'
        obtain rfl := Except.error.inj (hloads.symm.trans hfault')
        exact hraised
      · rw [hprobed]
        exact malformedSnapshot_observed _
  | ok payload =>
    rw [hloads] at h
    have hreads : ∀ fault, JsonReader.loads host.limits printedText = .error fault →
        raised fault = none := fun fault hfault => absurd (hloads.symm.trans hfault) nofun
    cases hsections : sections payload with
    | error detail =>
      simp only [hsections] at h
      obtain rfl := Except.ok.inj h
      have hprobed : probed host printedText = none := by
        simp only [probed, hloads, hsections, Except.toOption]
      refine ⟨⟨hreads, by simp [hprobed]⟩, ?_⟩
      rw [hprobed]
      exact malformedSnapshot_observed _
    | ok s =>
      simp only [hsections] at h
      have hprobed : probed host printedText = some s := by
        simp only [probed, hloads, hsections, Except.toOption]
      obtain ⟨hclean, hobserved⟩ := readSections_eq_ok h
      refine ⟨⟨hreads, by simpa [hprobed] using hclean⟩, ?_⟩
      rw [hprobed]
      exact hobserved

theorem parse_returns : (∃ snapshot, parseResourceProbe host printedText declared = .ok snapshot) ↔
    Readable host printedText := by
  refine ⟨fun ⟨_, h⟩ => (parse_eq_ok h).1, fun h => ?_⟩
  rw [parseResourceProbe]
  cases hloads : JsonReader.loads host.limits printedText with
  | error fault =>
    simp only [h.reads fault hloads]
    exact ⟨_, rfl⟩
  | ok payload =>
    cases hsections : sections payload with
    | error detail =>
      simp only [hsections]
      exact ⟨_, rfl⟩
    | ok s =>
      simp only [hsections]
      exact readSections_returns.mpr (h.clean s (by simp [probed, hloads, hsections,
        Except.toOption]))

end Remrun.Resources
