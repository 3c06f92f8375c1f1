import Mathlib.Algebra.Order.Floor.Defs
import Mathlib.Algebra.Order.Field.Rat
import Mathlib.Data.Rat.Floor
import Mathlib.Order.WithBot
import Mathlib.Tactic
import Remrun.Lib.Dict

/-!
# Learned memory peaks

Placement reads one cost row for each profile key, merged from the local cache, the shared seeds
and the journal of observations (`profiles.py`). After an out-of-memory failure the dispatcher
raises the peak of the local row. The raise starts from the local row wherever that names the
peak, so it has an effect exactly when the local value, raised, passes everything else that is
merged, and for host memory only if the row's metric is the trusted one.
-/

namespace Remrun.Fleet.Profiles

open Keyed
set_option autoImplicit false

/-! ## Rows -/

inductive MemoryKind where
  | host
  | gpu
  deriving DecidableEq

/-- A member of a JSON object. -/
inductive Member (α : Type) where
  | absent
  | null
  | value (v : α)
  deriving DecidableEq

namespace Member
variable {α : Type}

/-- `row.get(name)`. -/
def get : Member α → Option α
  | absent | null => none
  | value v => some v

/-- A member that is written, as null where there is nothing to write. -/
def written : Option α → Member α
  | none => null
  | some v => value v

/-- `{**base, **local}` at one name. -/
def overlay (base loc : Member α) : Member α :=
  match loc with
  | absent => base
  | null => null
  | value v => value v

@[simp] theorem get_written (v : Option α) : (written v).get = v := by
  cases v <;> rfl

end Member

/-- A row of a cost table; the two duration members are merged in the same way as the peaks, and
nothing about a peak is read from them. -/
structure Row where
  peak : MemoryKind → Member ℚ
  memoryMetric : Member String
  n : Option ℤ
  oomN : Option ℤ
  updated : Option String

/-- `{}`. -/
def Row.empty : Row := ⟨fun _ => .absent, .absent, none, none, none⟩

/-- `RESOURCE_MEMORY_METRIC`. -/
def resourceMemoryMetric : String := "private_resident_sum_sampled_v1"

/-- A table keyed by profile; a value that is not an object is `none`. -/
abbrev Table := Dict (id : String → String) (Option Row)

/-- `table.get(key) if isinstance(table.get(key), dict) else {}`. -/
def Table.row (t : Table) (key : String) : Row := ((t.get key).bind id).getD Row.empty

/-! ## The journal -/

/-- A row of `fleet_profile_observations`. -/
structure Observation where
  profileKey : Option String
  memoryMetric : Option String
  peakRss : Option ℚ
  peakVram : Option ℚ
  recordedAt : String

def Observation.trusted (o : Observation) : Bool := o.memoryMetric = some resourceMemoryMetric

/-- The peak of an observation that counts: host memory only under the trusted metric. -/
def Observation.peak (o : Observation) : MemoryKind → Option ℚ
  | .host => if o.trusted then o.peakRss else none
  | .gpu => o.peakVram

/-- What `load_observation_profiles` derives for a key. -/
structure ObservedRow where
  peak : MemoryKind → Option ℚ
  memoryMetric : Option String
  n : ℤ
  updated : String

def rowsOf (journal : List Observation) (key : String) : List Observation :=
  journal.filter fun o => o.profileKey = some key ∧ key ≠ ""

/-- The greatest peak in the rows of a key, if any has one. -/
def peakOf (rows : List Observation) (kind : MemoryKind) : Option ℚ :=
  (rows.filterMap fun o => o.peak kind).max?

/-- `load_observation_profiles` at one key. -/
def loadObservationProfiles (journal : List Observation) (key : String) : Option ObservedRow :=
  let rows := rowsOf journal key
  if rows = [] then none
  else
    some
      { peak := peakOf rows
        memoryMetric :=
          if (peakOf rows .host).isSome ∨ (peakOf rows .gpu).isSome then
            some resourceMemoryMetric
          else none
        n := rows.length
        updated := (rows.getLast?.map Observation.recordedAt).getD "" }

/-! ## Merging -/

/-- `resource_safe`: a host peak under another metric is stripped. -/
def Row.resourceSafe (r : Row) : Row :=
  if r.memoryMetric.get = some resourceMemoryMetric then r
  else
    { r with
      peak := fun
        | .host => .null
        | .gpu => r.peak .gpu
      memoryMetric := .null }

/-- A local row over a shared one. -/
def mergeRow (loc shared : Row) : Row :=
  let s := shared.resourceSafe
  let l := loc.resourceSafe
  { peak := fun kind => .written ((l.peak kind).get <|> (s.peak kind).get)
    memoryMetric := .written (l.memoryMetric.get <|> s.memoryMetric.get)
    n := some (l.n.getD 0)
    oomN := none
    updated := some (match l.updated with
      | some text => if text = "" then s.updated.getD "" else text
      | none => s.updated.getD "") }

/-- `max(values) if values else None`, over the values that are there. -/
def greatest (values : List (Option ℚ)) : Option ℚ := (values.filterMap id).max?

/-- An observed row over what was merged before. -/
def addObserved (prior : Row) (raw : ObservedRow) : Row :=
  let trusted : Bool := raw.memoryMetric = some resourceMemoryMetric
  { peak := fun
      | .gpu => .written (greatest [(prior.peak .gpu).get, raw.peak .gpu])
      | .host =>
        if trusted then .written (greatest [(prior.peak .host).get, raw.peak .host])
        else .written (prior.peak .host).get
    memoryMetric :=
      if trusted then .value resourceMemoryMetric else .written prior.memoryMetric.get
    n := some raw.n
    oomN := prior.oomN
    updated := some raw.updated }

/-- A peak in the order of peaks: one that is not there is below all others. -/
def level : Option ℚ → WithBot ℚ
  | none => ⊥
  | some v => v

/-- The three sources. -/
structure Tables where
  localCache : Table
  shared : Table
  journal : List Observation

namespace Tables
variable (t : Tables)

/-- The row of a key that is in the cache or the seeds. -/
def mergedRow (key : String) : Option Row :=
  if key ∈ t.shared.keys ∨ key ∈ t.localCache.keys then
    some (mergeRow (t.localCache.row key) (t.shared.row key))
  else none

/-- `load_costs`, which is `merge_costs` of the three, at one key. -/
def loadCosts (key : String) : Option Row :=
  match loadObservationProfiles t.journal key with
  | none => t.mergedRow key
  | some raw => some (addObserved ((t.mergedRow key).getD Row.empty) raw)

/-- The peak that the merged row of a key reports. -/
def reported (key : String) (kind : MemoryKind) : WithBot ℚ :=
  level ((t.loadCosts key).bind fun row => (row.peak kind).get)

end Tables

/-! ## The raise -/

/-- `round(x)`: to the nearest, and to the even one of two. -/
def roundHalfEven (x : ℚ) : ℤ :=
  if x - ⌊x⌋ < 1 / 2 then ⌊x⌋
  else if 1 / 2 < x - ⌊x⌋ then ⌊x⌋ + 1
  else if ⌊x⌋ % 2 = 0 then ⌊x⌋
  else ⌊x⌋ + 1

/-- `round(x, 3)`. -/
def round3 (x : ℚ) : ℚ := roundHalfEven (x * 1000) / 1000

/-- The peak that is written in place of one: raised by a factor or a step, and rounded. -/
def stepUp (factor minDelta current : ℚ) : ℚ :=
  round3 (if current ≤ 0 then max 0 minDelta
    else max (current * max 1 factor) (current + max 0 minDelta))

/-- `{**base, **local}`. -/
def Row.view (base loc : Row) : Row where
  peak kind := (base.peak kind).overlay (loc.peak kind)
  memoryMetric := base.memoryMetric.overlay loc.memoryMetric
  n := loc.n <|> base.n
  oomN := loc.oomN <|> base.oomN
  updated := loc.updated <|> base.updated

/-- What a raise is called with. -/
structure Raise where
  key : String
  kind : MemoryKind
  factor : ℚ
  minDelta : ℚ
  now : String
  maxEntries : Nat

/-- The key by which entries are evicted. -/
def updatedOf (entry : String × Option Row) : String := (entry.2.bind Row.updated).getD ""

/-- Entries over the limit go, the least recently updated first. -/
def evict (cache : Table) (maxEntries : Nat) : Table :=
  let ordered := cache.rows.mergeSort fun a b => updatedOf a ≤ updatedOf b
  (ordered.take (cache.rows.length - maxEntries)).foldl (fun d entry => d.pop entry.1) cache

/-- The entry that `raise_prepared_memory_estimate` writes. -/
def Raise.entry (x : Raise) (base loc : Row) : Row :=
  let view := base.view loc
  { view with
    peak := fun kind =>
      if kind = x.kind then
        .value (stepUp x.factor x.minDelta ((view.peak x.kind).get.getD 0))
      else match view.peak kind with
        | .absent => .null
        | .null => .null
        | .value v => .value v
    n := some (view.n.getD 0)
    oomN := some (view.oomN.getD 0 + 1)
    updated := some x.now }

/-- `raise_prepared_memory_estimate` with the base that `_learn_oom_memory` gives it. -/
def Tables.raisePreparedMemoryEstimate (t : Tables) (x : Raise) : Tables :=
  let entry := x.entry ((t.loadCosts x.key).getD Row.empty) (t.localCache.row x.key)
  { t with localCache := evict (t.localCache.set x.key (some entry)) x.maxEntries }

/-! ## When a raise has an effect -/

namespace Tables
variable (t : Tables)

/-- The metric a raise starts from: the local row's own if it has that member. -/
def startingMetric (key : String) : Option String :=
  match (t.localCache.row key).memoryMetric with
  | .absent => (t.loadCosts key).bind fun row => row.memoryMetric.get
  | .null => none
  | .value metric => some metric

/-- The peak a raise starts from: the local row's own if it has that member, null for zero. -/
def startingPeak (key : String) (kind : MemoryKind) : ℚ :=
  match (t.localCache.row key).peak kind with
  | .absent => (t.reported key kind).unbotD 0
  | .null => 0
  | .value v => v

/-- The raise starts under the trusted metric, where it is about host memory, and what it makes of
the starting peak is above everything that is reported. -/
def Effective (x : Raise) : Prop :=
  (x.kind = .host → t.startingMetric x.key = some resourceMemoryMetric) ∧
    t.reported x.key x.kind < (stepUp x.factor x.minDelta (t.startingPeak x.key x.kind) : ℚ)

/-- The peak of the cache and the seeds. -/
def seeded (key : String) (kind : MemoryKind) : WithBot ℚ :=
  level ((t.mergedRow key).bind fun row => (row.peak kind).get)

end Tables

/-- The peak of the journal. -/
def observed (journal : List Observation) (key : String) (kind : MemoryKind) : WithBot ℚ :=
  level ((loadObservationProfiles journal key).bind fun raw => raw.peak kind)

/-! ## What is reported -/

theorem greatest_pair (a b : Option ℚ) : level (greatest [a, b]) = level a ⊔ level b := by
  cases a with
  | none =>
    cases b with
    | none => exact (sup_bot_eq _).symm
    | some b => exact (bot_sup_eq _).symm
  | some a =>
    cases b with
    | none => exact (sup_bot_eq _).symm
    | some b => exact WithBot.coe_max a b

theorem max?_le_iff {values : List ℚ} {b : WithBot ℚ} :
    level values.max? ≤ b ↔ ∀ v ∈ values, (v : WithBot ℚ) ≤ b := by
  cases hmax : values.max? with
  | none =>
    rw [List.max?_eq_none_iff] at hmax
    subst hmax
    exact ⟨fun _ v hv => absurd hv List.not_mem_nil, fun _ => bot_le⟩
  | some m =>
    obtain ⟨hmem, hle⟩ := List.max?_eq_some_iff.mp hmax
    constructor
    · intro h v hv
      exact (WithBot.coe_le_coe.mpr (hle v hv)).trans h
    · intro h
      exact h m hmem

/-- The observed peak is the least bound of the observations that count. -/
theorem observed_le_iff {journal : List Observation} {key : String} {kind : MemoryKind}
    {b : WithBot ℚ} : observed journal key kind ≤ b ↔
      ∀ o ∈ journal, o.profileKey = some key → key ≠ "" → level (o.peak kind) ≤ b := by
  have hpeak : observed journal key kind = level (peakOf (rowsOf journal key) kind) := by
    unfold observed loadObservationProfiles
    by_cases hnil : rowsOf journal key = []
    · simp only [hnil, if_true]
      rfl
    · simp only [hnil, if_false]
      rfl
  rw [hpeak, peakOf, max?_le_iff]
  constructor
  · intro h o ho hkey hne
    cases hvalue : o.peak kind with
    | none => exact bot_le
    | some v =>
      have hrow : o ∈ rowsOf journal key := List.mem_filter.mpr ⟨ho, by simp [hkey, hne]⟩
      exact h v (List.mem_filterMap.mpr ⟨o, hrow, hvalue⟩)
  · intro h v hv
    obtain ⟨o, hrow, hvalue⟩ := List.mem_filterMap.mp hv
    obtain ⟨ho, hkey⟩ := List.mem_filter.mp hrow
    have hkey := of_decide_eq_true hkey
    have hle := h o ho hkey.1 hkey.2
    rw [hvalue] at hle
    exact hle

theorem observed_mono {journal later : List Observation} (h : journal ⊆ later) (key : String)
    (kind : MemoryKind) : observed journal key kind ≤ observed later key kind :=
  observed_le_iff.mpr fun o ho hkey hne => observed_le_iff.mp le_rfl o (h ho) hkey hne

/-- An observed row without the trusted metric has no peaks. -/
theorem observed_untrusted {journal : List Observation} {key : String} {raw : ObservedRow}
    (h : loadObservationProfiles journal key = some raw)
    (hmetric : raw.memoryMetric ≠ some resourceMemoryMetric) (kind : MemoryKind) :
    raw.peak kind = none := by
  unfold loadObservationProfiles at h
  by_cases hnil : rowsOf journal key = []
  · simp [hnil] at h
  · simp only [hnil, if_false, Option.some.injEq] at h
    subst h
    by_contra hsome
    have hsome : (peakOf (rowsOf journal key) kind).isSome := Option.isSome_iff_ne_none.mpr hsome
    apply hmetric
    refine if_pos ?_
    cases kind with
    | host => exact .inl hsome
    | gpu => exact .inr hsome

theorem peak_addObserved {journal : List Observation} {key : String} {raw : ObservedRow}
    (h : loadObservationProfiles journal key = some raw) (prior : Row) (kind : MemoryKind) :
    level ((addObserved prior raw).peak kind).get =
      level (prior.peak kind).get ⊔ level (raw.peak kind) := by
  cases kind with
  | gpu =>
    simp only [addObserved, Member.get_written]
    exact greatest_pair _ _
  | host =>
    unfold addObserved
    by_cases hmetric : raw.memoryMetric = some resourceMemoryMetric
    · simp only [hmetric, decide_true, if_true, Member.get_written]
      exact greatest_pair _ _
    · rw [observed_untrusted h hmetric .host]
      simp only [hmetric, decide_false, Bool.false_eq_true, if_false, Member.get_written]
      exact (sup_bot_eq (level _)).symm

/-- What is reported is the greater of what is seeded and what was observed. -/
theorem Tables.reported_eq (t : Tables) (key : String) (kind : MemoryKind) :
    t.reported key kind = t.seeded key kind ⊔ observed t.journal key kind := by
  unfold Tables.reported Tables.seeded observed Tables.loadCosts
  cases hraw : loadObservationProfiles t.journal key with
  | none => exact (sup_bot_eq (level _)).symm
  | some raw =>
    simp only [Option.bind_some]
    rw [peak_addObserved hraw]
    cases hmerged : t.mergedRow key with
    | none => rfl
    | some row => rfl

/-! ## The row after a raise -/

theorem get_foldl_pop (entries : List (String × Option Row)) (cache : Table) (key : String)
    (h : (entries.foldl (fun d entry => d.pop entry.1) cache).get key ≠ none) :
    (entries.foldl (fun d entry => d.pop entry.1) cache).get key = cache.get key := by
  induction entries generalizing cache with
  | nil => rfl
  | cons entry rest ih =>
    rw [List.foldl_cons] at h ⊢
    rw [ih _ h, Dict.get_pop]
    split
    · rename_i heq
      rw [ih _ h, Dict.get_pop, if_pos heq] at h
      exact absurd rfl h
    · rfl

/-- An entry that is not evicted is the one that was written. -/
theorem row_evict_set {cache : Table} {key : String} {row : Row} {maxEntries : Nat}
    (h : key ∈ (evict (cache.set key (some row)) maxEntries).keys) :
    Table.row (evict (cache.set key (some row)) maxEntries) key = row := by
  obtain ⟨v, hv⟩ := Dict.get_of_mem_keys h
  have hne : (evict (cache.set key (some row)) maxEntries).get key ≠ none := by
    rw [hv]
    exact Option.some_ne_none v
  unfold Table.row
  rw [evict, get_foldl_pop _ _ _ hne, Dict.get_set_self]
  rfl

section Raise
variable {t : Tables} {x : Raise}

/-- The base that the raise is given. -/
def Tables.base (t : Tables) (key : String) : Row := (t.loadCosts key).getD Row.empty

/-- The row that the raise starts from. -/
def Tables.start (t : Tables) (key : String) : Row := (t.base key).view (t.localCache.row key)

theorem startingMetric_eq (t : Tables) (key : String) :
    (t.start key).memoryMetric.get = t.startingMetric key := by
  unfold Tables.startingMetric Tables.start Tables.base Row.view
  cases (t.localCache.row key).memoryMetric with
  | absent => cases t.loadCosts key <;> rfl
  | null => rfl
  | value metric => rfl

theorem startingPeak_eq (t : Tables) (key : String) (kind : MemoryKind) :
    ((t.start key).peak kind).get.getD 0 = t.startingPeak key kind := by
  unfold Tables.startingPeak Tables.start Tables.base Row.view
  cases hpeak : (t.localCache.row key).peak kind with
  | absent =>
    simp only [hpeak, Member.overlay]
    unfold Tables.reported
    cases t.loadCosts key with
    | none => rfl
    | some row =>
      cases hrow : row.peak kind <;> simp [hrow, Member.get, level]
  | null => simp [hpeak, Member.overlay, Member.get]
  | value v => simp [hpeak, Member.overlay, Member.get]

/-- The cache has the entry that was written, unless it was evicted. -/
theorem row_raised
    (hkept : x.key ∈ (t.raisePreparedMemoryEstimate x).localCache.keys) :
    (t.raisePreparedMemoryEstimate x).localCache.row x.key =
      x.entry (t.base x.key) (t.localCache.row x.key) :=
  row_evict_set hkept

theorem mergedRow_raised
    (hkept : x.key ∈ (t.raisePreparedMemoryEstimate x).localCache.keys) :
    (t.raisePreparedMemoryEstimate x).mergedRow x.key =
      some (mergeRow (x.entry (t.base x.key) (t.localCache.row x.key)) (t.shared.row x.key)) := by
  unfold Tables.mergedRow
  rw [if_pos (.inr hkept), row_raised hkept]
  rfl

theorem entry_peak (base loc : Row) : (x.entry base loc).peak x.kind =
    .value (stepUp x.factor x.minDelta (((base.view loc).peak x.kind).get.getD 0)) := by
  simp [Raise.entry]

theorem entry_metric (base loc : Row) :
    (x.entry base loc).memoryMetric = (base.view loc).memoryMetric := rfl

/-- The step of the raise, from what it starts with. -/
theorem entry_step : ((x.entry (t.base x.key) (t.localCache.row x.key)).peak x.kind).get =
    some (stepUp x.factor x.minDelta (t.startingPeak x.key x.kind)) := by
  rw [entry_peak, ← startingPeak_eq]
  rfl

/-- An entry that counts is what the cache and the seeds report afterwards. -/
theorem seeded_raised (hkept : x.key ∈ (t.raisePreparedMemoryEstimate x).localCache.keys)
    (hmetric : x.kind = .host → t.startingMetric x.key = some resourceMemoryMetric) :
    (t.raisePreparedMemoryEstimate x).seeded x.key x.kind =
      (stepUp x.factor x.minDelta (t.startingPeak x.key x.kind) : ℚ) := by
  have hsafe : ((x.entry (t.base x.key) (t.localCache.row x.key)).resourceSafe.peak x.kind).get =
      some (stepUp x.factor x.minDelta (t.startingPeak x.key x.kind)) := by
    rw [← entry_step]
    unfold Row.resourceSafe
    split
    · rfl
    · rename_i hother
      cases hkind : x.kind with
      | gpu => rfl
      | host =>
        rw [entry_metric] at hother
        exact absurd ((startingMetric_eq t x.key).trans (hmetric hkind)) hother
  unfold Tables.seeded
  rw [mergedRow_raised hkept]
  simp only [Option.bind_some, mergeRow, Member.get_written, hsafe]
  rfl

/-- A host entry under another metric is stripped, and so was the row before it. -/
theorem seeded_stripped (hkept : x.key ∈ (t.raisePreparedMemoryEstimate x).localCache.keys)
    (hkind : x.kind = .host) (hmetric : t.startingMetric x.key ≠ some resourceMemoryMetric) :
    (t.raisePreparedMemoryEstimate x).seeded x.key x.kind ≤ t.seeded x.key x.kind := by
  have hstart : ((t.base x.key).view (t.localCache.row x.key)).memoryMetric.get ≠
      some resourceMemoryMetric := startingMetric_eq t x.key ▸ hmetric
  have hlocal : (t.localCache.row x.key).memoryMetric.get ≠ some resourceMemoryMetric := by
    intro h
    apply hstart
    cases hm : (t.localCache.row x.key).memoryMetric with
    | absent =>
      rw [hm] at h
      cases h
    | null =>
      rw [hm] at h
      cases h
    | value metric =>
      rw [hm] at h
      simp only [Row.view, hm, Member.overlay]
      exact h
  have hentry : (x.entry (t.base x.key) (t.localCache.row x.key)).resourceSafe.peak .host =
      .null := by
    rw [Row.resourceSafe, entry_metric, if_neg hstart]
  have hbefore : (t.localCache.row x.key).resourceSafe.peak .host = .null := by
    rw [Row.resourceSafe, if_neg hlocal]
  unfold Tables.seeded
  rw [mergedRow_raised hkept, hkind]
  simp only [Option.bind_some, mergeRow, Member.get_written, hentry]
  unfold Tables.mergedRow
  split
  · simp only [Option.bind_some, mergeRow, Member.get_written, hbefore]
    exact le_rfl
  · rename_i hkeys
    have hnone : t.shared.get x.key = none := Dict.get_eq_none.mpr fun key hkey heq => by
      have heq : key = x.key := heq
      exact hkeys (.inl (heq ▸ hkey))
    have hshared : t.shared.row x.key = Row.empty := by
      rw [Table.row, hnone]
      rfl
    rw [hshared]
    exact bot_le

end Raise

/-! ## The raise takes effect -/

/-- A raise whose entry is kept is reported exactly when it is effective; what later observations
report is never less. -/
theorem raise_takes_effect_iff (t : Tables) (x : Raise)
    (hkept : x.key ∈ (t.raisePreparedMemoryEstimate x).localCache.keys) :
    (t.reported x.key x.kind < (t.raisePreparedMemoryEstimate x).reported x.key x.kind ∧
      ∀ later, t.journal ⊆ later →
        (t.raisePreparedMemoryEstimate x).reported x.key x.kind ≤
          { t.raisePreparedMemoryEstimate x with journal := later }.reported x.key x.kind) ↔
      t.Effective x := by
  have hlater : ∀ later, t.journal ⊆ later →
      (t.raisePreparedMemoryEstimate x).reported x.key x.kind ≤
        { t.raisePreparedMemoryEstimate x with journal := later }.reported x.key x.kind := by
    intro later hsub
    rw [Tables.reported_eq, Tables.reported_eq]
    exact sup_le_sup le_rfl (observed_mono hsub x.key x.kind)
  rw [and_iff_left hlater, Tables.reported_eq (t.raisePreparedMemoryEstimate x)]
  have hobserved : observed (t.raisePreparedMemoryEstimate x).journal x.key x.kind ≤
      t.reported x.key x.kind := by
    rw [Tables.reported_eq]
    exact le_sup_right
  unfold Tables.Effective
  by_cases hmetric : x.kind = .host → t.startingMetric x.key = some resourceMemoryMetric
  · rw [seeded_raised hkept hmetric, and_iff_right hmetric, lt_sup_iff]
    exact or_iff_left (not_lt.mpr hobserved)
  · obtain ⟨hkind, hother⟩ := Classical.not_imp.mp hmetric
    refine iff_of_false (fun hlt => ?_) fun h => hmetric h.1
    have hle := seeded_stripped hkept hkind hother
    have hbefore : t.seeded x.key x.kind ≤ t.reported x.key x.kind := by
      rw [Tables.reported_eq]
      exact le_sup_left
    exact absurd hlt (not_lt.mpr (sup_le (hle.trans hbefore) hobserved))

/-! ## Samples -/

/-- A row with a peak of device memory. -/
def gpuRow (peak : ℚ) : Row where
  peak
    | .gpu => .value peak
    | .host => .null
  memoryMetric := .null
  n := none
  oomN := none
  updated := none

def sampleRaise : Raise := ⟨"k", .gpu, 5 / 4, 512, "now", 256⟩

/-- A seed of 1000 MB and nothing else. -/
def seededTables : Tables := ⟨.empty, Dict.empty.set "k" (some (gpuRow 1000)), []⟩

/-- A correction to 1000 MB that a run of 5000 MB has overtaken. -/
def overtakenTables : Tables :=
  ⟨Dict.empty.set "k" (some (gpuRow 1000)), .empty, [⟨some "k", none, none, some 5000, ""⟩]⟩

theorem raise_takes_effect_seeded :
    seededTables.reported "k" .gpu <
        (seededTables.raisePreparedMemoryEstimate sampleRaise).reported "k" .gpu ∧
      ∀ later, seededTables.journal ⊆ later →
        (seededTables.raisePreparedMemoryEstimate sampleRaise).reported "k" .gpu ≤
          { seededTables.raisePreparedMemoryEstimate sampleRaise with
            journal := later }.reported "k" .gpu :=
  (raise_takes_effect_iff seededTables sampleRaise (by decide +kernel)).mpr
    ⟨fun h => (nomatch h), by decide +kernel⟩

/-- The raise starts from the local 1000 MB, and its 1512 MB stay below the observed peak. -/
theorem overtaken_raise_has_no_effect : ¬ ∀ (t : Tables) (x : Raise), 1 ≤ x.factor →
    0 < x.minDelta → x.key ∈ (t.raisePreparedMemoryEstimate x).localCache.keys →
      t.reported x.key x.kind < (t.raisePreparedMemoryEstimate x).reported x.key x.kind := by
  intro h
  have hlt := h overtakenTables sampleRaise (by decide +kernel) (by decide +kernel)
    (by decide +kernel)
  revert hlt
  decide +kernel

end Remrun.Fleet.Profiles
