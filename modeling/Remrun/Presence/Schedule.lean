import Mathlib.Order.Bounds.Basic
import Mathlib.Tactic
import Remrun.Lib.Effect
import Remrun.Presence.Policy

/-!
# The weekly schedule

A window occurs every week without end. The search over eight days finds its next start, since the
eighth day is the weekday of the first, and a window ends on the day on which it starts, so what
holds an instant is decided on its day. Only where the calendar ends do the queries raise.
-/

namespace Remrun.Presence

open Effect Keyed
set_option autoImplicit false

/-! ## The unbounded repetition -/

/-- The time at which a window ends, from the beginning of its day. -/
def Window.length (w : Window) : Nat := (w.stop.map Time.micros).getD microsPerDay

/-- The window lasts from one instant to another, in some week. -/
def Window.Occurs (w : Window) (opens closes : Nat) : Prop :=
  ∃ day : Nat, (day + 6) % 7 = w.day ∧ opens = day * microsPerDay + w.start.micros ∧
    closes = day * microsPerDay + w.length

/-- A window starts. -/
def Starts (windows : List Window) (t : Nat) : Prop := ∃ w ∈ windows, ∃ closes, w.Occurs t closes

/-- A window that holds the instant `now` ends. -/
def Ends (windows : List Window) (now t : Nat) : Prop :=
  ∃ w ∈ windows, ∃ opens, w.Occurs opens t ∧ opens ≤ now ∧ now < t

/-- The right answer to `next_window_start`. -/
def IsNextStart (windows : List Window) (now : DateTime) : Option DateTime → Prop
  | none => windows = []
  | some t => IsLeast {x | now.instant < x ∧ Starts windows x} t.instant

/-- The right answer to `window_end`. -/
def IsWindowEnd (windows : List Window) (now : DateTime) : Option DateTime → Prop
  | none => ∀ t, ¬ Ends windows now.instant t
  | some t => IsGreatest {x | Ends windows now.instant x} t.instant

section Answers
variable {windows : List Window} {now : DateTime} {answer : Option DateTime} {t : DateTime}

theorem IsNextStart.none_iff (h : IsNextStart windows now answer) :
    answer = none ↔ windows = [] := by
  cases answer with
  | none => exact ⟨fun _ => h, fun _ => rfl⟩
  | some t =>
    refine ⟨nofun, fun hnil => ?_⟩
    obtain ⟨w, hw, -⟩ := h.1.2
    exact absurd (hnil ▸ hw) List.not_mem_nil

/-- The answer is an instant after now, exactly where a window holds now. -/
theorem IsWindowEnd.lt (h : IsWindowEnd windows now (some t)) : now.instant < t.instant := by
  obtain ⟨_, _, _, _, _, hlt⟩ := h.1
  exact hlt

theorem IsWindowEnd.isSome_iff (h : IsWindowEnd windows now answer) :
    answer.isSome = true ↔ ∃ x, Ends windows now.instant x := by
  cases answer with
  | none => exact ⟨nofun, fun ⟨x, hx⟩ => absurd hx (h x)⟩
  | some t => exact ⟨fun _ => ⟨t.instant, h.1⟩, fun _ => rfl⟩

end Answers

/-! ## Earliest and latest -/

section Extremes
variable {times : List DateTime} {t x : DateTime}

theorem foldl_latest (times : List DateTime) (t : DateTime) :
    let best := times.foldl (fun best t => if best.instant < t.instant then t else best) t
    best ∈ t :: times ∧ ∀ x ∈ t :: times, x.instant ≤ best.instant := by
  induction times generalizing t with
  | nil => exact ⟨List.mem_cons_self, fun x hx => List.mem_singleton.mp hx ▸ le_refl _⟩
  | cons next rest ih =>
    obtain ⟨hmem, hle⟩ := ih (if t.instant < next.instant then next else t)
    refine ⟨?_, fun x hx => ?_⟩
    · rcases List.mem_cons.mp hmem with heq | hrest
      · rw [List.foldl_cons, heq]
        split
        · exact List.mem_cons_of_mem _ List.mem_cons_self
        · exact List.mem_cons_self
      · exact List.mem_cons_of_mem _ (List.mem_cons_of_mem _ hrest)
    · have hfirst := hle _ List.mem_cons_self
      rcases List.mem_cons.mp hx with rfl | hx
      · refine le_trans ?_ hfirst
        split
        · next hlt => exact Nat.le_of_lt hlt
        · exact le_refl _
      · rcases List.mem_cons.mp hx with rfl | hx
        · refine le_trans ?_ hfirst
          split
          · exact le_refl _
          · next hnot => exact Nat.le_of_not_lt hnot
        · exact hle x (List.mem_cons_of_mem _ hx)

theorem foldl_earliest (times : List DateTime) (t : DateTime) :
    let best := times.foldl (fun best t => if t.instant < best.instant then t else best) t
    best ∈ t :: times ∧ ∀ x ∈ t :: times, best.instant ≤ x.instant := by
  induction times generalizing t with
  | nil => exact ⟨List.mem_cons_self, fun x hx => List.mem_singleton.mp hx ▸ le_refl _⟩
  | cons next rest ih =>
    obtain ⟨hmem, hle⟩ := ih (if next.instant < t.instant then next else t)
    refine ⟨?_, fun x hx => ?_⟩
    · rcases List.mem_cons.mp hmem with heq | hrest
      · rw [List.foldl_cons, heq]
        split
        · exact List.mem_cons_of_mem _ List.mem_cons_self
        · exact List.mem_cons_self
      · exact List.mem_cons_of_mem _ (List.mem_cons_of_mem _ hrest)
    · have hfirst := hle _ List.mem_cons_self
      rcases List.mem_cons.mp hx with rfl | hx
      · refine le_trans hfirst ?_
        split
        · next hlt => exact Nat.le_of_lt hlt
        · exact le_refl _
      · rcases List.mem_cons.mp hx with rfl | hx
        · refine le_trans hfirst ?_
          split
          · exact le_refl _
          · next hnot => exact Nat.le_of_not_lt hnot
        · exact hle x (List.mem_cons_of_mem _ hx)

theorem latest_eq_none : latest times = none ↔ times = [] := by
  cases times <;> simp [latest]

theorem latest_some (h : latest times = some t) :
    t ∈ times ∧ ∀ x ∈ times, x.instant ≤ t.instant := by
  cases times with
  | nil => exact absurd h nofun
  | cons first rest =>
    obtain rfl := Option.some.inj h
    exact foldl_latest rest first

theorem earliest_eq_none : earliest times = none ↔ times = [] := by
  cases times <;> simp [earliest]

theorem earliest_some (h : earliest times = some t) :
    t ∈ times ∧ ∀ x ∈ times, t.instant ≤ x.instant := by
  cases times with
  | nil => exact absurd h nofun
  | cons first rest =>
    obtain rfl := Option.some.inj h
    exact foldl_earliest rest first

end Extremes

/-! ## Days and instants -/

section Instants
variable {windows : List Window} {w : Window} {now t : DateTime}

theorem day_eq {m n a b : Nat} (ha : a < microsPerDay) (hb : b < microsPerDay)
    (h : m * microsPerDay + a = n * microsPerDay + b) : m = n ∧ a = b := by
  unfold microsPerDay microsPerMinute at *
  omega

/-- The order of datetimes is that of their days, and on one day that of their times. -/
theorem day_le_of_lt {m n a b : Nat} (hb : b < microsPerDay)
    (h : m * microsPerDay + a < n * microsPerDay + b) : m ≤ n := by
  unfold microsPerDay microsPerMinute at *
  omega

theorem Window.start_lt_length (w : Window) : w.start.micros < w.length := by
  unfold Window.length
  cases hstop : w.stop with
  | none => exact w.start.lt
  | some stop => exact w.start_lt stop hstop

theorem Window.length_le (w : Window) : w.length ≤ microsPerDay := by
  unfold Window.length
  cases w.stop with
  | none => exact le_refl _
  | some stop => exact Nat.le_of_lt stop.lt

/-- A window that holds an instant does so on the day of that instant. -/
theorem holds_on_day {day : Nat} (hopens : day * microsPerDay + w.start.micros ≤ now.instant)
    (hcloses : now.instant < day * microsPerDay + w.length) :
    day = now.date.ordinal ∧ w.start.micros ≤ now.time.micros ∧ now.time.micros < w.length := by
  have hlength := w.length_le
  have htime := now.time.lt
  unfold DateTime.instant at hopens hcloses
  have hday : day = now.date.ordinal := by
    unfold microsPerDay microsPerMinute at *
    omega
  subst hday
  exact ⟨rfl, by omega, by omega⟩

theorem contains_iff : w.contains now = true ↔
    (now.date.ordinal + 6) % 7 = w.day ∧ w.start.micros ≤ now.time.micros ∧
      now.time.micros < w.length := by
  have hstop : (w.stop.all fun stop => decide (now.time.micros < stop.micros)) = true ↔
      now.time.micros < w.length := by
    unfold Window.length
    cases w.stop with
    | none => exact ⟨fun _ => now.time.lt, fun _ => rfl⟩
    | some stop => exact decide_eq_true_iff
  unfold Window.contains Date.weekday
  rw [Bool.and_eq_true, Bool.and_eq_true, decide_eq_true_iff, decide_eq_true_iff, hstop, and_assoc]

theorem addDays_ok {d e : Date} {n : Nat} (h : d.addDays n = .ok e) : e.ordinal = d.ordinal + n := by
  unfold Date.addDays at h
  split at h
  · obtain rfl := Except.ok.inj h
    rfl
  · exact absurd h nofun

theorem addDays_error {d : Date} {n : Nat} {e : OverflowError} (h : d.addDays n = .error e) :
    maxOrdinal < d.ordinal + n := by
  unfold Date.addDays at h
  split at h
  · exact absurd h nofun
  · next hnot => exact Nat.lt_of_not_le hnot

theorem endOn_instant (h : w.endOn now = .ok t) :
    t.instant = now.date.ordinal * microsPerDay + w.length := by
  unfold Window.endOn at h
  cases hstop : w.stop with
  | none =>
    rw [hstop] at h
    cases hsum : now.date.addDays 1 with
    | error e =>
      rw [hsum] at h
      exact absurd h nofun
    | ok day =>
      rw [hsum] at h
      obtain rfl := Except.ok.inj h
      simp only [DateTime.instant, Time.midnight, Window.length, hstop, Option.map_none,
        Option.getD_none, addDays_ok hsum]
      ring
  | some stop =>
    rw [hstop] at h
    obtain rfl := Except.ok.inj h
    simp only [DateTime.instant, Window.length, hstop, Option.map_some, Option.getD_some]

/-- What the windows that hold an instant end at. -/
theorem ends_iff {x : Nat} : Ends windows now.instant x ↔
    ∃ w ∈ windows, w.contains now = true ∧ x = now.date.ordinal * microsPerDay + w.length := by
  constructor
  · rintro ⟨w, hw, opens, ⟨day, hday, rfl, rfl⟩, hle, hlt⟩
    obtain ⟨rfl, hstart, hstop⟩ := holds_on_day hle hlt
    exact ⟨w, hw, contains_iff.mpr ⟨hday, hstart, hstop⟩, rfl⟩
  · rintro ⟨w, hw, hcontains, rfl⟩
    obtain ⟨hday, hstart, hstop⟩ := contains_iff.mp hcontains
    refine ⟨w, hw, _, ⟨now.date.ordinal, hday, rfl, rfl⟩, ?_, ?_⟩
    · exact Nat.add_le_add_left hstart _
    · exact Nat.add_lt_add_left hstop _

theorem mem_startsOn {day : Date} : t ∈ startsOn windows now day ↔
    ∃ w ∈ windows, w.day = day.weekday ∧ now.instant < t.instant ∧ t = ⟨day, w.start⟩ := by
  simp only [startsOn, List.mem_map, List.mem_filter, Bool.and_eq_true, decide_eq_true_eq]
  constructor
  · rintro ⟨w, ⟨hw, hday, hlt⟩, rfl⟩
    exact ⟨w, hw, hday, hlt, rfl⟩
  · rintro ⟨w, hw, hday, hlt, rfl⟩
    exact ⟨w, ⟨hw, hday, hlt⟩, rfl⟩

/-- A window starts within eight days, the day of now included. -/
theorem exists_start (w : Window) (now : DateTime) : ∃ n < 8,
    (now.date.ordinal + n + 6) % 7 = w.day ∧
      now.instant < (now.date.ordinal + n) * microsPerDay + w.start.micros := by
  have hday := w.day.isLt
  have htime := now.time.lt
  -- the next day with the weekday of the window, after the day of now
  refine ⟨(w.day + 7 - now.date.ordinal % 7) % 7 + 1, by omega, by omega, ?_⟩
  unfold DateTime.instant
  have hmul : now.date.ordinal * microsPerDay + microsPerDay ≤
      (now.date.ordinal + ((w.day + 7 - now.date.ordinal % 7) % 7 + 1)) * microsPerDay := by
    rw [← Nat.succ_mul]
    exact Nat.mul_le_mul_right _ (by omega)
  omega

end Instants

/-! ## The two queries -/

section Queries
variable {windows : List Window} {p : PresencePolicy} {device : String} {now : DateTime}

/-- The starts of eight days hold the next one. -/
theorem isNextStart_earliest {days : List Date}
    (hdays : ∀ day, day ∈ days ↔ ∃ n ∈ List.range 8, now.date.addDays n = .ok day)
    (hall : ∀ n < 8, ∃ day, now.date.addDays n = .ok day) :
    IsNextStart windows now (earliest (days.flatMap (startsOn windows now))) := by
  have hstart (w : Window) (hw : w ∈ windows) : ∃ n < 8, ∃ t ∈ days.flatMap (startsOn windows now),
      t.instant = (now.date.ordinal + n) * microsPerDay + w.start.micros := by
    obtain ⟨n, hn, hday, hlt⟩ := exists_start w now
    obtain ⟨day, hsum⟩ := hall n hn
    have hordinal := addDays_ok hsum
    have hinstant : (DateTime.mk day w.start).instant =
        (now.date.ordinal + n) * microsPerDay + w.start.micros := by
      rw [DateTime.instant, hordinal]
    have hweekday : w.day = day.weekday := by
      rw [Date.weekday, hordinal]
      exact hday.symm
    have hafter : now.instant < (DateTime.mk day w.start).instant := by
      rw [hinstant]
      exact hlt
    refine ⟨n, hn, ⟨day, w.start⟩, List.mem_flatMap.mpr ⟨day, ?_, ?_⟩, hinstant⟩
    · exact (hdays day).mpr ⟨n, List.mem_range.mpr hn, hsum⟩
    · exact mem_startsOn.mpr ⟨w, hw, hweekday, hafter, rfl⟩
  cases hbest : earliest (days.flatMap (startsOn windows now)) with
  | none =>
    have hnil := earliest_eq_none.mp hbest
    cases windows with
    | nil => rfl
    | cons w rest =>
      obtain ⟨_, _, t, ht, -⟩ := hstart w List.mem_cons_self
      exact absurd (hnil ▸ ht) List.not_mem_nil
  | some t =>
    obtain ⟨hmem, hleast⟩ := earliest_some hbest
    obtain ⟨day, hday, ht⟩ := List.mem_flatMap.mp hmem
    obtain ⟨w, hw, hweekday, hlt, rfl⟩ := mem_startsOn.mp ht
    refine ⟨⟨hlt, w, hw, _, day.ordinal, hweekday.symm, rfl, rfl⟩, ?_⟩
    rintro x ⟨hafter, w', hw', closes, day', hweekday', rfl, -⟩
    by_cases hnear : day' < now.date.ordinal + 8
    · -- the start is on one of the eight days
      have hle : now.date.ordinal ≤ day' := day_le_of_lt w'.start.lt hafter
      obtain ⟨day'', hsum⟩ := hall (day' - now.date.ordinal) (by omega)
      have hordinal : day''.ordinal = day' := by
        rw [addDays_ok hsum]
        omega
      have hin : (⟨day'', w'.start⟩ : DateTime) ∈ days.flatMap (startsOn windows now) := by
        refine List.mem_flatMap.mpr ⟨day'', (hdays day'').mpr ⟨_, ?_, hsum⟩, ?_⟩
        · exact List.mem_range.mpr (by omega)
        · refine mem_startsOn.mpr ⟨w', hw', ?_, ?_, rfl⟩
          · rw [Date.weekday, hordinal]
            exact hweekday'.symm
          · have hinstant : (DateTime.mk day'' w'.start).instant =
                day' * microsPerDay + w'.start.micros := by
              rw [DateTime.instant, hordinal]
            rw [hinstant]
            exact hafter
      have hinstant := hleast _ hin
      rwa [DateTime.instant, DateTime.instant, hordinal] at hinstant
    · obtain ⟨n, hn, t', ht', hinstant⟩ := hstart w' hw'
      refine le_trans (hleast t' ht') ?_
      rw [hinstant]
      exact Nat.add_le_add_right (Nat.mul_le_mul_right _ (by omega)) _

theorem nextWindowStart_ok {answer : Option DateTime} (hvalid : p.status = .valid)
    (h : p.nextWindowStart device now = .ok answer) :
    IsNextStart (p.windowsOf device) now answer := by
  unfold PresencePolicy.nextWindowStart at h
  rw [if_neg (not_not_intro hvalid)] at h
  cases hdays : (List.range 8).mapM now.date.addDays with
  | error e =>
    rw [hdays] at h
    exact absurd h nofun
  | ok days =>
    rw [hdays] at h
    obtain rfl := Except.ok.inj h
    exact isNextStart_earliest (fun day => mem_of_mapM hdays) fun n hn =>
      ok_of_mapM hdays (List.mem_range.mpr hn)

theorem nextWindowStart_error {e : OverflowError} (h : p.nextWindowStart device now = .error e) :
    maxOrdinal < now.date.ordinal + 7 := by
  unfold PresencePolicy.nextWindowStart at h
  split at h
  · exact absurd h nofun
  · cases hdays : (List.range 8).mapM now.date.addDays with
    | error e' =>
      obtain ⟨n, hn, hsum⟩ := mapM_error hdays
      have hlt := List.mem_range.mp hn
      exact Nat.lt_of_lt_of_le (addDays_error hsum) (by omega)
    | ok days =>
      rw [hdays] at h
      exact absurd h nofun

theorem windowEnd_ok {answer : Option DateTime} (hvalid : p.status = .valid)
    (h : p.windowEnd device now = .ok answer) : IsWindowEnd (p.windowsOf device) now answer := by
  unfold PresencePolicy.windowEnd at h
  rw [if_neg (not_not_intro hvalid)] at h
  cases hends : ((p.windowsOf device).filter (·.contains now)).mapM (·.endOn now) with
  | error e =>
    rw [hends] at h
    exact absurd h nofun
  | ok ends =>
    rw [hends] at h
    obtain rfl := Except.ok.inj h
    have hmem {x : Nat} : Ends (p.windowsOf device) now.instant x ↔ ∃ t ∈ ends, t.instant = x := by
      rw [ends_iff]
      constructor
      · rintro ⟨w, hw, hcontains, rfl⟩
        have hin : w ∈ (p.windowsOf device).filter (·.contains now) :=
          List.mem_filter.mpr ⟨hw, hcontains⟩
        obtain ⟨t, ht⟩ := ok_of_mapM hends hin
        exact ⟨t, (mem_of_mapM hends).mpr ⟨w, hin, ht⟩, endOn_instant ht⟩
      · rintro ⟨t, ht, rfl⟩
        obtain ⟨w, hin, hend⟩ := (mem_of_mapM hends).mp ht
        obtain ⟨hw, hcontains⟩ := List.mem_filter.mp hin
        exact ⟨w, hw, hcontains, endOn_instant hend⟩
    cases hbest : latest ends with
    | none =>
      intro x hx
      obtain ⟨t, ht, -⟩ := hmem.mp hx
      exact absurd (latest_eq_none.mp hbest ▸ ht) List.not_mem_nil
    | some t =>
      obtain ⟨ht, hgreatest⟩ := latest_some hbest
      refine ⟨hmem.mpr ⟨t, ht, rfl⟩, fun x hx => ?_⟩
      obtain ⟨t', ht', rfl⟩ := hmem.mp hx
      exact hgreatest t' ht'

theorem le_max_of_nextWindowStart {answer : Option DateTime} (hvalid : p.status = .valid)
    (h : p.nextWindowStart device now = .ok answer) : now.date.ordinal + 7 ≤ maxOrdinal := by
  unfold PresencePolicy.nextWindowStart at h
  rw [if_neg (not_not_intro hvalid)] at h
  cases hdays : (List.range 8).mapM now.date.addDays with
  | error e =>
    rw [hdays] at h
    exact absurd h nofun
  | ok days =>
    obtain ⟨day, hsum⟩ := ok_of_mapM hdays (show 7 ∈ List.range 8 from by decide)
    exact addDays_ok hsum ▸ day.le_max

/-- Now is on the last day of the calendar, in a window that lasts to midnight. -/
def OutlastsCalendar (windows : List Window) (now : DateTime) : Prop :=
  now.date.ordinal = maxOrdinal ∧ ∃ w ∈ windows, w.contains now = true ∧ w.stop = none

theorem windowEnd_error {e : OverflowError} (h : p.windowEnd device now = .error e) :
    OutlastsCalendar (p.windowsOf device) now := by
  unfold PresencePolicy.windowEnd at h
  split at h
  · exact absurd h nofun
  · cases hends : ((p.windowsOf device).filter (·.contains now)).mapM (·.endOn now) with
    | ok ends =>
      rw [hends] at h
      exact absurd h nofun
    | error e' =>
      obtain ⟨w, hin, hend⟩ := mapM_error hends
      obtain ⟨hw, hcontains⟩ := List.mem_filter.mp hin
      unfold Window.endOn at hend
      cases hstop : w.stop with
      | some stop =>
        rw [hstop] at hend
        exact absurd hend nofun
      | none =>
        rw [hstop] at hend
        refine ⟨?_, w, hw, hcontains, hstop⟩
        cases hsum : now.date.addDays 1 with
        | ok day =>
          rw [hsum] at hend
          exact absurd hend nofun
        | error e'' =>
          have hlt := addDays_error hsum
          have hle := now.date.le_max
          omega

theorem not_outlasts_of_windowEnd {answer : Option DateTime} (hvalid : p.status = .valid)
    (h : p.windowEnd device now = .ok answer) : ¬ OutlastsCalendar (p.windowsOf device) now := by
  rintro ⟨hmax, w, hw, hcontains, hstop⟩
  unfold PresencePolicy.windowEnd at h
  rw [if_neg (not_not_intro hvalid)] at h
  cases hends : ((p.windowsOf device).filter (·.contains now)).mapM (·.endOn now) with
  | error e =>
    rw [hends] at h
    exact absurd h nofun
  | ok ends =>
    have hin : w ∈ (p.windowsOf device).filter (·.contains now) :=
      List.mem_filter.mpr ⟨hw, hcontains⟩
    obtain ⟨t, ht⟩ := ok_of_mapM hends hin
    unfold Window.endOn at ht
    rw [hstop] at ht
    cases hsum : now.date.addDays 1 with
    | error e =>
      rw [hsum] at ht
      exact absurd ht nofun
    | ok day =>
      have hle := day.le_max
      rw [addDays_ok hsum, hmax] at hle
      omega

end Queries

/-- The queries answer as the unbounded schedule does. Only a date beyond the calendar makes them
raise: the last of the eight days, or the day after a window that lasts to midnight. -/
theorem presence_queries_agree (p : PresencePolicy) (hvalid : p.status = .valid) (device : String)
    (now : DateTime) :
    (now.date.ordinal + 7 ≤ maxOrdinal → ∃ answer, p.nextWindowStart device now = .ok answer ∧
      IsNextStart (p.windowsOf device) now answer ∧
      (answer = none ↔ p.windowsOf device = [])) ∧
    (maxOrdinal < now.date.ordinal + 7 → p.nextWindowStart device now = .error ⟨⟩) ∧
    (¬ OutlastsCalendar (p.windowsOf device) now → ∃ answer, p.windowEnd device now = .ok answer ∧
      IsWindowEnd (p.windowsOf device) now answer ∧
      (answer.isSome = true ↔ ∃ x, Ends (p.windowsOf device) now.instant x) ∧
      ∀ t, answer = some t → now.instant < t.instant) ∧
    (OutlastsCalendar (p.windowsOf device) now → p.windowEnd device now = .error ⟨⟩) := by
  refine ⟨fun hdate => ?_, fun hdate => ?_, fun hnot => ?_, fun hlasts => ?_⟩
  · cases hanswer : p.nextWindowStart device now with
    | error e => exact absurd (nextWindowStart_error hanswer) (Nat.not_lt.mpr hdate)
    | ok answer =>
      have hright := nextWindowStart_ok hvalid hanswer
      exact ⟨answer, rfl, hright, hright.none_iff⟩
  · cases hanswer : p.nextWindowStart device now with
    | error e => rfl
    | ok answer => exact absurd hdate (Nat.not_lt.mpr (le_max_of_nextWindowStart hvalid hanswer))
  · cases hanswer : p.windowEnd device now with
    | error e => exact absurd (windowEnd_error hanswer) hnot
    | ok answer =>
      have hright := windowEnd_ok hvalid hanswer
      refine ⟨answer, rfl, hright, hright.isSome_iff, ?_⟩
      rintro t rfl
      exact hright.lt
  · cases hanswer : p.windowEnd device now with
    | error e => rfl
    | ok answer => exact absurd hlasts (not_outlasts_of_windowEnd hvalid hanswer)

/-! ## A routing file -/

/-- ASCII. -/
def asciiTables : Unicode where
  casefold := List.map Char.toLower
  decimal := fun c => if '0' ≤ c ∧ c ≤ '9' then some (c.toNat - '0'.toNat) else none

def routing : Text :=
  "## Owner presence\n- macbox, WINBOX: Wed 04:30-09:30; Sat 00:00-20:00 (note)\n- tablet: Sun 00:00-24:00".toList

def routed : PresencePolicy :=
  parsePresence asciiTables routing ["macbox", "winbox", "tablet"] "ROUTING.md"

/-- 9999-12-26, a Sunday, at noon. -/
def lateSunday : DateTime := ⟨⟨3652054, by decide, by decide⟩, ⟨12 * 60 * microsPerMinute, by decide⟩⟩

/-- 2026-10-21, a Wednesday, at six. -/
def wednesday : DateTime := ⟨⟨739910, by decide, by decide⟩, ⟨6 * 60 * microsPerMinute, by decide⟩⟩

theorem routed_valid : routed.status = .valid := by decide +kernel

theorem presence_queries_agree_wednesday :
    ∃ answer, routed.nextWindowStart "macbox" wednesday = .ok answer ∧
      IsNextStart (routed.windowsOf "macbox") wednesday answer ∧
      (answer = none ↔ routed.windowsOf "macbox" = []) :=
  (presence_queries_agree routed routed_valid "macbox" wednesday).1 (by decide)

/-- The file is valid, and the tablet has a window every Sunday. -/
theorem nextWindowStart_not_agrees : routed.status = .valid ∧
    ¬ ∃ answer, routed.nextWindowStart "tablet" lateSunday = .ok answer ∧
      IsNextStart (routed.windowsOf "tablet") lateSunday answer := by
  refine ⟨routed_valid, ?_⟩
  rintro ⟨answer, hanswer, -⟩
  have herror : routed.nextWindowStart "tablet" lateSunday = .error ⟨⟩ := by decide +kernel
  exact absurd (herror.symm.trans hanswer) nofun

end Remrun.Presence
