import Remrun.Fleet.Evidence

/-!
# What escapes from worker evidence

An exception of reading or validating escapes unless it is a `ResultProtocolError`. Escapes are
followed through the checks in their order: the validator raises at the first number that is read
and is too large for a float, and the reader at containers that nest too deep. The envelope that is
selected depends on the staged inputs exactly where one of them has the name of an evidence file.
-/

namespace Remrun.Fleet.Evidence

open JsonReader (Text Value Members text member)
open Doubles (InRange)
open Frames (decodeUtf8)
open Effect (bind_eq_ok pure_eq_ok map_eq_ok)
set_option autoImplicit false

/-! ## Escapes -/

/-- Something else than a `ResultProtocolError` is raised. -/
def Escapes {α : Type} (x : Except Raise α) : Prop :=
  ∃ raised, x = .error raised ∧ ∀ message, raised ≠ .resultProtocolError message

section Calculus
variable {α β : Type} {x : Except Raise α}

theorem not_escapes_ok (a : α) : ¬ Escapes (.ok a : Except Raise α) := by
  rintro ⟨raised, h, -⟩
  exact absurd h nofun

theorem not_escapes_check (c : Check α) : ¬ Escapes (check c) := by
  rintro ⟨raised, h, hraised⟩
  cases c with
  | ok a => exact absurd h nofun
  | error message => exact hraised message (Except.error.inj h).symm

theorem check_ok {c : Check α} {a : α} : check c = .ok a ↔ c = .ok a := by
  cases c with
  | ok b => exact ⟨fun h => congrArg _ (Except.ok.inj h), fun h => congrArg _ (Except.ok.inj h)⟩
  | error message => exact ⟨nofun, nofun⟩

theorem escapes_bind {f : α → Except Raise β} :
    Escapes (x >>= f) ↔ Escapes x ∨ ∃ a, x = .ok a ∧ Escapes (f a) := by
  cases x with
  | ok a =>
    constructor
    · exact fun h => Or.inr ⟨a, rfl, h⟩
    · rintro (h | ⟨b, hb, h⟩)
      · exact absurd h (not_escapes_ok a)
      · rwa [← Except.ok.inj hb] at h
  | error raised =>
    constructor
    · rintro ⟨r, h, hr⟩
      exact Or.inl ⟨raised, rfl, Except.error.inj h ▸ hr⟩
    · rintro (⟨r, h, hr⟩ | ⟨b, hb, -⟩)
      · exact ⟨raised, rfl, Except.error.inj h ▸ hr⟩
      · exact absurd hb nofun

theorem escapes_map {g : α → β} : Escapes (g <$> x) ↔ Escapes x := by
  cases x with
  | ok a => exact ⟨fun h => absurd h (not_escapes_ok _), fun h => absurd h (not_escapes_ok _)⟩
  | error raised => exact ⟨fun ⟨r, h, hr⟩ => ⟨r, congrArg _ (Except.error.inj h), hr⟩,
      fun ⟨r, h, hr⟩ => ⟨r, congrArg _ (Except.error.inj h), hr⟩⟩

/-- A loop escapes at the first item whose step does. -/
theorem escapes_foldlM {f : β → α → Except Raise β} {items : List α} {start : β} :
    Escapes (items.foldlM f start) ↔ ∃ before item after acc, items = before ++ item :: after ∧
      before.foldlM f start = .ok acc ∧ Escapes (f acc item) := by
  induction items generalizing start with
  | nil =>
    constructor
    · exact fun h => absurd h (not_escapes_ok start)
    · rintro ⟨before, item, after, acc, h, -⟩
      exact absurd h (by simp)
  | cons first rest ih =>
    rw [List.foldlM_cons, escapes_bind]
    constructor
    · rintro (h | ⟨acc, hacc, h⟩)
      · exact ⟨[], first, rest, start, rfl, rfl, h⟩
      · obtain ⟨before, item, after, last, rfl, hlast, h⟩ := ih.mp h
        refine ⟨first :: before, item, after, last, rfl, ?_, h⟩
        rw [List.foldlM_cons]
        exact bind_eq_ok.mpr ⟨acc, hacc, hlast⟩
    · rintro ⟨before, item, after, last, hitems, hlast, h⟩
      cases before with
      | nil =>
        obtain ⟨rfl, -⟩ := List.cons.inj hitems
        rw [← Except.ok.inj hlast] at h
        exact Or.inl h
      | cons head before =>
        obtain ⟨rfl, rfl⟩ := List.cons.inj hitems
        rw [List.foldlM_cons] at hlast
        obtain ⟨acc, hacc, hlast⟩ := bind_eq_ok.mp hlast
        exact Or.inr ⟨acc, hacc, ih.mpr ⟨before, item, after, last, rfl, hlast, h⟩⟩

end Calculus

/-! ## Numbers -/

/-- A whole number that no float stands for. -/
def Large (value : Value) : Prop := ∃ n, value = .int n ∧ ¬ InRange n

/-- The number that a value is, unless it is none, not finite or too large. -/
def number : Value → Option ℚ
  | .int n => (Doubles.ofInt n).map Subtype.val
  | .float (.finite q _) => some q
  | _ => none

theorem escapes_finite {value : Value} {field : String} {positive : Bool} :
    Escapes (finite value field positive) ↔ Large value := by
  unfold finite
  split
  · rename_i n
    split
    · rename_i hnone
      exact ⟨fun _ => ⟨n, rfl, Doubles.ofInt_eq_none.mp hnone⟩,
        fun _ => ⟨_, rfl, fun _ => nofun⟩⟩
    · rename_i q hsome
      refine ⟨fun h => absurd h (not_escapes_check _), ?_⟩
      rintro ⟨m, hm, hrange⟩
      obtain rfl := Value.int.inj hm
      exact absurd (hsome.symm.trans (Doubles.ofInt_eq_none.mpr hrange)) nofun
  · refine ⟨fun h => absurd h (not_escapes_check _), ?_⟩
    rintro ⟨m, hm, -⟩
    exact absurd hm nofun
  · rename_i hint hfloat
    refine ⟨fun h => absurd h (not_escapes_check _), ?_⟩
    rintro ⟨m, hm, -⟩
    exact absurd hm (hint m)

theorem signed_ok {field : String} {positive : Bool} {p q : ℚ} :
    signed field positive p = .ok q ↔ p = q ∧ if positive then 0 < q else 0 ≤ q := by
  unfold signed
  cases positive with
  | true =>
    by_cases hp : p ≤ 0
    · rw [if_pos ⟨rfl, hp⟩]
      refine ⟨nofun, ?_⟩
      rintro ⟨rfl, hq⟩
      exact absurd hq (not_lt.mpr hp)
    · rw [if_neg fun h => hp h.2, if_neg fun h => Bool.noConfusion h.1]
      refine ⟨fun h => ?_, fun h => congrArg _ h.1⟩
      obtain rfl := Except.ok.inj h
      exact ⟨rfl, not_le.mp hp⟩
  | false =>
    rw [if_neg fun h => Bool.noConfusion h.1]
    by_cases hp : p < 0
    · rw [if_pos ⟨rfl, hp⟩]
      refine ⟨nofun, ?_⟩
      rintro ⟨rfl, hq⟩
      exact absurd hp (not_lt.mpr hq)
    · rw [if_neg fun h => hp h.2]
      refine ⟨fun h => ?_, fun h => congrArg _ h.1⟩
      obtain rfl := Except.ok.inj h
      exact ⟨rfl, not_lt.mp hp⟩

theorem finite_ok {value : Value} {field : String} {positive : Bool} {q : ℚ} :
    finite value field positive = .ok q ↔
      number value = some q ∧ if positive then 0 < q else 0 ≤ q := by
  unfold finite
  split
  · rename_i n
    rw [number]
    split
    · rename_i hnone
      rw [hnone]
      constructor
      · intro h
        cases h
      · rintro ⟨h, -⟩
        cases h
    · rename_i p hsome
      rw [hsome, check_ok, signed_ok, Option.map_some, Option.some.injEq]
  · rw [check_ok, signed_ok, number, Option.some.injEq]
  · rename_i hint hfloat
    have hnone : number value = none := by
      cases value with
      | int n => exact absurd rfl (hint n)
      | float d =>
        cases d with
        | finite p range => exact absurd rfl (hfloat p range)
        | _ => rfl
      | _ => rfl
    rw [hnone, check_ok]
    constructor
    · intro h
      cases h
    · rintro ⟨h, -⟩
      cases h

/-! ## Items -/

section Items
variable (H : Host) (expected : Expected) (completion : Results.Completion)

/-- `retry_after_s` is right for the disposition. -/
def Timed (a : Account) : Prop :=
  if a.disposition = .retryLater then ∃ q, number a.retryAfter = some q ∧ 0 < q
  else isNull a.retryAfter = true

/-- The work units have a value, and the flag says whether they are not the prepared work. -/
def Measured : Option Work → Bool → Prop
  | none, mismatch => mismatch = false
  | some work, mismatch => ∃ q, number work.value = some q ∧ 0 ≤ q ∧
      mismatch = (work.measured && (work.differs || expected.preparedValue.any fun prepared =>
        H.exceeds q prepared expected.verifyRelativeTolerance))

def Elapsed (value : Value) : Prop := isNull value = true ∨ ∃ q, number value = some q ∧ 0 ≤ q

/-- All that is checked about an item. -/
structure Sound (value : Value) (a : Account) (paths : Paths) (work : Option Work)
    (mismatch : Bool) : Prop where
  accounted : readAccount expected completion value = .ok a
  timed : Timed a
  listed : readPaths expected completion a = .ok paths
  shaped : readWork expected a = .ok work
  measured : Measured H expected work mismatch
  elapsed : Elapsed (field a.members "elapsed_s")
  details : checkDetails H (field a.members "details") = .ok ()

/-- The row of an item that passed. -/
def rowOf (a : Account) (paths : Paths) (mismatch : Bool) : Item :=
  ⟨if mismatch then mismatched a.members else a.members, paths⟩

/-- The item has a number that is too large, and passes the checks that come before it. -/
inductive Overlarge (value : Value) : Prop
  | retryAfter {a : Account} (accounted : readAccount expected completion value = .ok a)
      (later : a.disposition = .retryLater) (large : Large a.retryAfter)
  | workUnits {a : Account} {paths : Paths} {work : Work}
      (accounted : readAccount expected completion value = .ok a) (timed : Timed a)
      (listed : readPaths expected completion a = .ok paths)
      (shaped : readWork expected a = .ok (some work)) (large : Large work.value)
  | elapsed {a : Account} {paths : Paths} {work : Option Work} {mismatch : Bool}
      (accounted : readAccount expected completion value = .ok a) (timed : Timed a)
      (listed : readPaths expected completion a = .ok paths)
      (shaped : readWork expected a = .ok work) (measured : Measured H expected work mismatch)
      (large : Large (field a.members "elapsed_s"))

variable {H expected completion}

theorem checkRetry_ok {a : Account} : checkRetry a = .ok () ↔ Timed a := by
  unfold checkRetry Timed
  split
  · rw [map_eq_ok]
    simp only [finite_ok, if_true, and_true]
  · rw [check_ok, require]
    split
    · rename_i hnull
      exact ⟨fun _ => hnull, fun _ => rfl⟩
    · rename_i hnull
      exact ⟨nofun, fun h => absurd h hnull⟩

theorem escapes_checkRetry {a : Account} :
    Escapes (checkRetry a) ↔ a.disposition = .retryLater ∧ Large a.retryAfter := by
  unfold checkRetry
  split
  · rename_i hlater
    rw [escapes_map, escapes_finite]
    exact ⟨fun h => ⟨hlater, h⟩, And.right⟩
  · rename_i hlater
    exact ⟨fun h => absurd h (not_escapes_check _), fun h => absurd h.1 hlater⟩

theorem workMismatch_ok {work : Option Work} {mismatch : Bool} :
    workMismatch H expected work = .ok mismatch ↔ Measured H expected work mismatch := by
  cases work with
  | none => exact ⟨fun h => (Except.ok.inj h).symm, fun h => congrArg _ (Eq.symm h)⟩
  | some work =>
    rw [workMismatch, bind_eq_ok]
    simp only [finite_ok, pure_eq_ok, Bool.false_eq_true, if_false, Measured]
    constructor
    · rintro ⟨q, ⟨hq, hnonneg⟩, hm⟩
      exact ⟨q, hq, hnonneg, hm.symm⟩
    · rintro ⟨q, hq, hnonneg, hm⟩
      exact ⟨q, ⟨hq, hnonneg⟩, hm.symm⟩

theorem escapes_workMismatch {work : Option Work} :
    Escapes (workMismatch H expected work) ↔ ∃ w, work = some w ∧ Large w.value := by
  cases work with
  | none => exact ⟨fun h => absurd h (not_escapes_ok false), fun ⟨_, h, _⟩ => absurd h nofun⟩
  | some work =>
    rw [workMismatch, escapes_bind, escapes_finite]
    constructor
    · rintro (h | ⟨q, -, h⟩)
      · exact ⟨work, rfl, h⟩
      · exact absurd h (not_escapes_ok _)
    · rintro ⟨w, hw, h⟩
      obtain rfl := Option.some.inj hw
      exact Or.inl h

theorem checkElapsed_ok {value : Value} : checkElapsed value = .ok () ↔ Elapsed value := by
  unfold checkElapsed Elapsed
  split
  · rename_i hnull
    exact ⟨fun _ => Or.inl hnull, fun _ => rfl⟩
  · rename_i hnull
    rw [map_eq_ok]
    simp only [finite_ok, Bool.false_eq_true, if_false, and_true]
    exact ⟨Or.inr, fun h => h.resolve_left hnull⟩

theorem escapes_checkElapsed {value : Value} : Escapes (checkElapsed value) ↔ Large value := by
  unfold checkElapsed
  split
  · rename_i hnull
    refine ⟨fun h => absurd h (not_escapes_ok ()), ?_⟩
    rintro ⟨n, rfl, -⟩
    exact absurd hnull nofun
  · rw [escapes_map, escapes_finite]

theorem validateItem_ok {value : Value} {item : Item} :
    validateItem H expected completion value = .ok item ↔ ∃ a paths work mismatch,
      Sound H expected completion value a paths work mismatch ∧
        rowOf a paths mismatch = item := by
  simp only [validateItem, bind_eq_ok, check_ok, pure_eq_ok]
  constructor
  · rintro ⟨a, ha, ⟨⟩, hretry, paths, hpaths, work, hwork, mismatch, hmismatch, ⟨⟩, helapsed, ⟨⟩,
      hdetails, hitem⟩
    exact ⟨a, paths, work, mismatch, ⟨ha, checkRetry_ok.mp hretry, hpaths, hwork,
      workMismatch_ok.mp hmismatch, checkElapsed_ok.mp helapsed, hdetails⟩, hitem⟩
  · rintro ⟨a, paths, work, mismatch, h, hitem⟩
    exact ⟨a, h.accounted, (), checkRetry_ok.mpr h.timed, paths, h.listed, work, h.shaped, mismatch,
      workMismatch_ok.mpr h.measured, (), checkElapsed_ok.mpr h.elapsed, (), h.details, hitem⟩

theorem escapes_validateItem {value : Value} :
    Escapes (validateItem H expected completion value) ↔
      Overlarge H expected completion value := by
  simp only [validateItem, escapes_bind, check_ok, not_escapes_check, false_or,
    escapes_checkRetry, escapes_workMismatch, escapes_checkElapsed]
  constructor
  · rintro ⟨a, ha, ⟨hlater, hlarge⟩ | ⟨⟨⟩, hretry, paths, hpaths, work, hwork, hrest⟩⟩
    · exact .retryAfter ha hlater hlarge
    have htimed := checkRetry_ok.mp hretry
    rcases hrest with ⟨w, rfl, hlarge⟩ | ⟨mismatch, hmismatch, hlarge | ⟨⟨⟩, -, ⟨⟩, -, h⟩⟩
    · exact .workUnits ha htimed hpaths hwork hlarge
    · exact .elapsed ha htimed hpaths hwork (workMismatch_ok.mp hmismatch) hlarge
    · exact absurd h (not_escapes_ok _)
  · intro h
    cases h with
    | retryAfter ha hlater hlarge => exact ⟨_, ha, Or.inl ⟨hlater, hlarge⟩⟩
    | workUnits ha htimed hpaths hwork hlarge =>
      exact ⟨_, ha, Or.inr ⟨(), checkRetry_ok.mpr htimed, _, hpaths, _, hwork,
        Or.inl ⟨_, rfl, hlarge⟩⟩⟩
    | elapsed ha htimed hpaths hwork hmeasured hlarge =>
      exact ⟨_, ha, Or.inr ⟨(), checkRetry_ok.mpr htimed, _, hpaths, _, hwork,
        Or.inr ⟨_, workMismatch_ok.mpr hmeasured, Or.inl hlarge⟩⟩⟩

end Items

/-! ## Envelopes -/

section Envelopes
variable (H : Host) (batch : Batch)

/-- The items from the first tally on are sound, each for a job of its own and with paths of its
own, and lead to the last tally. -/
inductive Tallied : Tally → List Value → Tally → Prop
  | nil (t : Tally) : Tallied t [] t
  | cons {t last : Tally} {value : Value} {rest : List Value} {expected : Expected} {a : Account}
      {paths : Paths} {work : Option Work} {mismatch : Bool}
      (claimed : claimOf batch t.seen value = .ok expected)
      (sound : Sound H expected batch.completion value a paths work mismatch)
      (unique : checkUnique t (rowOf a paths mismatch) = .ok ())
      (tallied : Tallied (t.add expected (rowOf a paths mismatch)) rest last) :
      Tallied t (value :: rest) last

/-- The header is right, and an item after sound ones has a number that is too large. -/
def EnvelopeOverlarge (members : Members) : Prop :=
  ∃ before item after t expected, readHeader batch (some members) = .ok (before ++ item :: after) ∧
    Tallied H batch .start before t ∧ claimOf batch t.seen item = .ok expected ∧
    Overlarge H expected batch.completion item

variable {H batch}

theorem foldlM_tallyItem {items : List Value} {t last : Tally} :
    items.foldlM (tallyItem H batch) t = .ok last ↔ Tallied H batch t items last := by
  induction items generalizing t with
  | nil =>
    constructor
    · intro h
      obtain rfl := Except.ok.inj h
      exact .nil t
    · intro h
      cases h
      rfl
  | cons value rest ih =>
    rw [List.foldlM_cons, bind_eq_ok]
    simp only [tallyItem, bind_eq_ok, check_ok, validateItem_ok, pure_eq_ok, ih]
    constructor
    · rintro ⟨-, ⟨expected, hclaim, -, ⟨a, paths, work, mismatch, hsound, rfl⟩, ⟨⟩, hunique, rfl⟩,
        hrest⟩
      exact .cons hclaim hsound hunique hrest
    · intro h
      cases h with
      | cons hclaim hsound hunique hrest =>
        exact ⟨_, ⟨_, hclaim, _, ⟨_, _, _, _, hsound, rfl⟩, (), hunique, rfl⟩, hrest⟩

theorem escapes_tallyItem {t : Tally} {value : Value} :
    Escapes (tallyItem H batch t value) ↔ ∃ expected, claimOf batch t.seen value = .ok expected ∧
      Overlarge H expected batch.completion value := by
  simp only [tallyItem, escapes_bind, check_ok, not_escapes_check, false_or,
    escapes_validateItem]
  constructor
  · rintro ⟨expected, hclaim, h | ⟨item, -, ⟨⟩, -, h⟩⟩
    · exact ⟨expected, hclaim, h⟩
    · exact absurd h (not_escapes_ok _)
  · rintro ⟨expected, hclaim, h⟩
    exact ⟨expected, hclaim, Or.inl h⟩

theorem escapes_validateResultEnvelope {envelope : Option Members} :
    Escapes (validateResultEnvelope H batch envelope) ↔
      ∃ members, envelope = some members ∧ EnvelopeOverlarge H batch members := by
  simp only [validateResultEnvelope, escapes_bind, check_ok, not_escapes_check, false_or,
    escapes_foldlM, foldlM_tallyItem, escapes_tallyItem]
  constructor
  · rintro ⟨items, hitems, ⟨before, item, after, t, rfl, ht, expected, hclaim, h⟩ |
      ⟨t, -, ⟨⟩, -, h⟩⟩
    · cases envelope with
      | none => exact absurd hitems nofun
      | some members =>
        exact ⟨members, rfl, before, item, after, t, expected, hitems, ht, hclaim, h⟩
    · exact absurd h (not_escapes_ok _)
  · rintro ⟨members, rfl, before, item, after, t, expected, hitems, ht, hclaim, h⟩
    exact ⟨_, hitems, Or.inl ⟨before, item, after, t, rfl, ht, expected, hclaim, h⟩⟩

end Envelopes

/-! ## Files -/

section Files
variable (H : Host)

def Content.present : Content → Bool
  | .absent => false
  | _ => true

/-- The first file that is there. -/
def held (places : List Content) : Option Content := places.find? Content.present

/-- The file is small enough to be read, and has this text. -/
def Legible (c : Content) (chars : List Char) : Prop :=
  ∃ data, c = .file data ∧ data.length ≤ maxResultEvidenceBytes ∧ decodeUtf8 data = some chars

/-- The containers of the file nest deeper than the interpreter follows. -/
def TooDeep (c : Content) : Prop :=
  ∃ chars, Legible c chars ∧ JsonReader.loads H.limits chars = .error .depth

/-- The file holds an object with these members. -/
def Holds (c : Content) (members : Members) : Prop :=
  ∃ chars, Legible c chars ∧ JsonReader.loads H.limits chars = .ok (.obj members)

variable {H}

/-- What is read where this file comes first. -/
def reading (H : Host) : Option Content → Except Raise (Option Members)
  | none => .ok none
  | some c => pullJson H c

/-- Something is read from a file that is there. -/
theorem pullJson_ne_none {c : Content} (h : c.present = true) : pullJson H c ≠ .ok none := by
  cases c with
  | absent => exact absurd h nofun
  | unavailable why => exact nofun
  | file data =>
    rw [pullJson]
    split
    · exact nofun
    · split
      · exact nofun
      · split <;> exact nofun

theorem firstJson_eq (places : List Content) : firstJson H places = reading H (held places) := by
  induction places with
  | nil => rfl
  | cons place rest ih =>
    rw [firstJson, held, List.find?_cons]
    cases hpresent : place.present with
    | false =>
      cases place with
      | absent => exact ih
      | _ => exact absurd hpresent nofun
    | true =>
      have hread := pullJson_ne_none (H := H) hpresent
      rw [reading]
      cases hpull : pullJson H place with
      | error raised => rfl
      | ok value =>
        cases value with
        | none => exact absurd hpull hread
        | some members => rfl

theorem escapes_pullJson {c : Content} : Escapes (pullJson H c) ↔ TooDeep H c := by
  cases c with
  | absent =>
    exact ⟨fun h => absurd h (not_escapes_ok none), fun ⟨_, ⟨_, h, _⟩, _⟩ => absurd h nofun⟩
  | unavailable why =>
    exact ⟨fun h => absurd h (not_escapes_check _), fun ⟨_, ⟨_, h, _⟩, _⟩ => absurd h nofun⟩
  | file data =>
    have hlegible : ∀ chars, Legible (.file data) chars ↔
        data.length ≤ maxResultEvidenceBytes ∧ decodeUtf8 data = some chars := fun chars =>
      ⟨fun ⟨_, h, hsize, hchars⟩ => by cases h; exact ⟨hsize, hchars⟩,
        fun h => ⟨data, rfl, h.1, h.2⟩⟩
    simp only [TooDeep, hlegible]
    rw [pullJson]
    split
    · rename_i hsize
      exact ⟨fun h => absurd h (not_escapes_check _), fun ⟨_, h, _⟩ => by omega⟩
    · rename_i hsize
      split
      · rename_i hnone
        exact ⟨fun h => absurd h (not_escapes_check _),
          fun ⟨_, h, _⟩ => absurd (hnone.symm.trans h.2) nofun⟩
      · rename_i chars hchars
        have hone : ∀ chars', decodeUtf8 data = some chars' → chars' = chars := fun chars' h =>
          Option.some.inj (h.symm.trans hchars)
        split
        · rename_i members hloads
          refine ⟨fun h => absurd h (not_escapes_ok _), fun ⟨chars', h, hdeep⟩ => ?_⟩
          rw [hone chars' h.2, hloads] at hdeep
          exact absurd hdeep nofun
        · rename_i value hvalue hloads
          refine ⟨fun h => absurd h (not_escapes_check _), fun ⟨chars', h, hdeep⟩ => ?_⟩
          rw [hone chars' h.2, hloads] at hdeep
          exact absurd hdeep nofun
        · rename_i hloads
          exact ⟨fun _ => ⟨chars, ⟨not_lt.mp hsize, hchars⟩, hloads⟩,
            fun _ => ⟨_, rfl, fun _ => nofun⟩⟩
        · rename_i fault hfault hloads
          refine ⟨fun h => absurd h (not_escapes_check _), fun ⟨chars', h, hdeep⟩ => ?_⟩
          rw [hone chars' h.2, hloads] at hdeep
          exact absurd (Except.error.inj hdeep) hfault

theorem pullJson_ok {c : Content} {members : Members} :
    pullJson H c = .ok (some members) ↔ Holds H c members := by
  cases c with
  | absent => exact ⟨nofun, fun ⟨_, ⟨_, h, _⟩, _⟩ => absurd h nofun⟩
  | unavailable why => exact ⟨nofun, fun ⟨_, ⟨_, h, _⟩, _⟩ => absurd h nofun⟩
  | file data =>
    constructor
    · intro h
      rw [pullJson] at h
      split at h
      · exact absurd h nofun
      · rename_i hsize
        split at h
        · exact absurd h nofun
        · rename_i chars hchars
          refine ⟨chars, ⟨data, rfl, not_lt.mp hsize, hchars⟩, ?_⟩
          split at h
          · rename_i members' hloads
            rw [hloads, Option.some.inj (Except.ok.inj h)]
          all_goals exact absurd h nofun
    · rintro ⟨chars, ⟨_, hdata, hsize, hchars⟩, hloads⟩
      obtain rfl := Content.file.inj hdata
      rw [pullJson, if_neg (not_lt.mpr hsize)]
      simp only [hchars, hloads]

end Files

/-! ## A finished batch -/

section Batches
variable (H : Host) (batch : Batch) (run : Finished)

/-- The file that is read nests too deep. -/
def ReadTooDeep : Prop := ∃ c, held (run.places H) = some c ∧ TooDeep H c

/-- The envelope that is read has a number that is too large in a place where it is checked. -/
def ReadOverlarge : Prop :=
  ∃ c members, held (run.places H) = some c ∧ Holds H c members ∧
    EnvelopeOverlarge H batch members

/-- The evidence is rows or a `ResultProtocolError`, and the batch ends with its cleanup and the
exit code of its command. -/
structure Contained (delivered : List Item → List Item × Bool) (exitCode : Int) : Prop where
  evidence : (∃ rows, validatedRows H batch run = .ok rows) ∨
    ∃ message, validatedRows H batch run = .error (.resultProtocolError message)
  response : ∃ r, concludeBatch H delivered batch run exitCode = .ok r ∧
    r.exitCode = exitCode ∧ r.cleanedUp = true

variable {H batch run}

theorem escapes_validatedRows : Escapes (validatedRows H batch run) ↔
    ReadTooDeep H run ∨ ReadOverlarge H batch run := by
  rw [validatedRows, escapes_bind, readWorkerMetrics, firstJson_eq]
  simp only [escapes_validateResultEnvelope, ReadTooDeep, ReadOverlarge, reading]
  cases held (run.places H) with
  | none =>
    constructor
    · rintro (h | ⟨envelope, h, members, rfl, -⟩)
      · exact absurd h (not_escapes_ok none)
      · exact absurd h nofun
    · rintro (⟨c, h, -⟩ | ⟨c, -, h, -⟩) <;> exact absurd h nofun
  | some c =>
    simp only [escapes_pullJson]
    constructor
    · rintro (h | ⟨envelope, h, members, rfl, hlarge⟩)
      · exact Or.inl ⟨c, rfl, h⟩
      · exact Or.inr ⟨c, members, rfl, pullJson_ok.mp h, hlarge⟩
    · rintro (⟨c', hc, h⟩ | ⟨c', members, hc, h, hlarge⟩)
      · obtain rfl := Option.some.inj hc
        exact Or.inl h
      · obtain rfl := Option.some.inj hc
        exact Or.inr ⟨some members, pullJson_ok.mpr h, members, rfl, hlarge⟩

theorem contained_iff_not_escapes {delivered : List Item → List Item × Bool} {exitCode : Int} :
    Contained H batch run delivered exitCode ↔ ¬ Escapes (validatedRows H batch run) := by
  constructor
  · rintro ⟨hevidence, -⟩ ⟨raised, h, hraised⟩
    rcases hevidence with ⟨rows, hrows⟩ | ⟨message, hmessage⟩
    · exact absurd (h.symm.trans hrows) nofun
    · exact hraised message (Except.error.inj (h.symm.trans hmessage))
  · intro hno
    cases hrows : validatedRows H batch run with
    | ok rows =>
      refine ⟨Or.inl ⟨rows, hrows⟩, ?_⟩
      rw [concludeBatch, readEvidence, hrows]
      exact ⟨_, rfl, rfl, rfl⟩
    | error raised =>
      cases raised with
      | resultProtocolError message =>
        refine ⟨Or.inr ⟨message, hrows⟩, ?_⟩
        rw [concludeBatch, readEvidence, hrows]
        exact ⟨_, rfl, rfl, rfl⟩
      | _ => exact absurd ⟨_, hrows, fun _ => nofun⟩ hno

/-! ## The selected envelope -/

theorem readWorkerMetrics_eq (stage : Directory) (inputs : List (String × Content))
    (outputRoot : Option Directory) :
    readWorkerMetrics H ⟨stage, inputs, outputRoot⟩ =
      reading H ((held stage.places).or ((held (stageIn H inputs).places).or
        (held (outputRoot.getD stage).places))) := by
  rw [readWorkerMetrics, firstJson_eq, Finished.places, held, List.find?_append,
    List.find?_append, Option.or_assoc]
  rfl

theorem present_of_held {places : List Content} {c : Content} (h : held places = some c) :
    c.present = true :=
  List.find?_some h

/-- Whatever the worker wrote to the output root, the envelope does not depend on the inputs
exactly if the stage has one, or the two `in` directories have none or ones that read the same. -/
theorem selected_iff (stage : Directory) (inputs inputs' : List (String × Content)) :
    (∀ outputRoot, readWorkerMetrics H ⟨stage, inputs, outputRoot⟩ =
        readWorkerMetrics H ⟨stage, inputs', outputRoot⟩) ↔
      (held stage.places).isSome = true ∨
        (held (stageIn H inputs).places).map (pullJson H) =
          (held (stageIn H inputs').places).map (pullJson H) := by
  simp only [readWorkerMetrics_eq]
  cases held stage.places with
  | some c => simp
  | none =>
    simp only [Option.none_or, Option.isSome_none, Bool.false_eq_true, false_or]
    have hempty : held (Directory.places fun _ => .absent) = none := rfl
    constructor
    · intro h
      have hnone := h (some fun _ => .absent)
      simp only [Option.getD_some, hempty, Option.or_none] at hnone
      cases hheld : held (stageIn H inputs).places with
      | none =>
        cases hheld' : held (stageIn H inputs').places with
        | none => rfl
        | some c' =>
          rw [hheld, hheld'] at hnone
          exact absurd hnone.symm (pullJson_ne_none (present_of_held hheld'))
      | some c =>
        cases hheld' : held (stageIn H inputs').places with
        | none =>
          rw [hheld, hheld'] at hnone
          exact absurd hnone (pullJson_ne_none (present_of_held hheld))
        | some c' =>
          rw [hheld, hheld'] at hnone
          exact congrArg some hnone
    · intro h outputRoot
      cases hheld : held (stageIn H inputs).places with
      | none =>
        rw [hheld] at h
        rw [Option.map_eq_none_iff.mp h.symm]
      | some c =>
        rw [hheld] at h
        obtain ⟨c', hc', hread⟩ := Option.map_eq_some_iff.mp h.symm
        rw [hc']
        exact hread.symm

end Batches

/-! ## Evidence that escapes -/

/-- Containers that nest one deeper than the interpreter follows. -/
theorem scanValue_nested (limits : JsonReader.Limits) (depth : Nat) :
    JsonReader.scanValue limits depth (List.replicate (depth + 1) '[') = .error .depth := by
  induction depth with
  | zero => simp [JsonReader.scanValue]
  | succ depth ih =>
    have harray : ∀ cs, cs = List.replicate (depth + 1) '[' →
        JsonReader.scanArray limits depth cs = .error .depth := by
      rintro cs rfl
      rw [List.replicate_succ] at ih ⊢
      rw [JsonReader.scanArray, if_neg (by decide), JsonReader.scanItems, ih]
      rfl
    rw [List.replicate_succ, JsonReader.scanValue, if_neg (by decide), if_pos rfl,
      harray (JsonText.skipSpace (List.replicate (depth + 1) '[')) rfl]
    rfl

theorem loads_nested (limits : JsonReader.Limits) :
    JsonReader.loads limits (List.replicate (limits.depth + 1) '[') = .error .depth := by
  have hvalue : ∀ cs, cs = List.replicate (limits.depth + 1) '[' →
      JsonReader.scanValue limits limits.depth cs = .error .depth := by
    rintro cs rfl
    exact scanValue_nested limits limits.depth
  rw [JsonReader.loads, hvalue (JsonText.skipSpace (List.replicate (limits.depth + 1) '[')) rfl]
  rfl

def sampleHost : Host where
  depth := 1000
  digits := 4300
  exceptionText _ := []
  canonicalBytes _ := some 2
  exceeds _ _ _ := false
  key := id

def quoted (chars : List Char) : List Char := '"' :: chars ++ ['"']

/-- The text of an object. -/
def printed (members : List (String × List Char)) : List Char :=
  '\x7b' :: [','].intercalate (members.map fun m => quoted m.1.toList ++ ':' :: m.2) ++ ['\x7d']

def null : List Char := ['n', 'u', 'l', 'l']

def sampleId : List Char := "sha256:".toList ++ List.replicate 64 'a'

/-- An envelope for one job, which is to be run again after so many seconds. -/
def sampleEnvelope (retryAfter : List Char) : List Char :=
  printed [("schema", ['2']), ("batch_id", quoted ['b']), ("spec_id", quoted sampleId),
    ("adapter_id", quoted sampleId),
    ("items", '[' :: printed [("job_id", quoted ['j']), ("prepared_id", quoted sampleId),
      ("index", ['0']), ("outcome", quoted "failed".toList),
      ("disposition", quoted "retry-later".toList), ("retry_after_s", retryAfter),
      ("publication", quoted "none".toList), ("work_performed", "false".toList),
      ("outputs", ['[', ']']), ("companion", null), ("message", quoted "busy".toList),
      ("failure_code", null), ("resource", quoted "none".toList), ("work_units", null),
      ("elapsed_s", null)] ++ [']'])]

def sampleBatch : Batch where
  batchId := text "b"
  specId := sampleId.map Char.toNat
  adapterId := sampleId.map Char.toNat
  expectedItems := [⟨text "j", sampleId.map Char.toNat, 0, none, text "exact", text "text",
    sampleId.map Char.toNat, none, none, 0, []⟩]
  completion := ⟨[.none], .forbidden⟩

/-- Only `done.json` is there, with this text. -/
def doneWith (chars : List Char) : Directory := fun name =>
  if name = doneJsonName then .file (Frames.utf8 chars) else .absent

def raisedOf {α : Type} : Except Raise α → Option Raise
  | .ok _ => none
  | .error raised => some raised

theorem length_utf8_le (chars : List Char) : (Frames.utf8 chars).length ≤ 4 * chars.length := by
  induction chars with
  | nil => exact Nat.le_refl _
  | cons c rest ih =>
    have hfirst : (String.utf8EncodeChar c).length ≤ 4 := by
      rw [String.length_utf8EncodeChar]
      exact c.utf8Size_le_four
    have hsplit : Frames.utf8 (c :: rest) = String.utf8EncodeChar c ++ Frames.utf8 rest := rfl
    rw [hsplit, List.length_append, List.length_cons]
    omega

theorem validatedRows_done {chars : List Char} (hsize : 4 * chars.length ≤ maxResultEvidenceBytes)
    {raised : Raise}
    (h : raisedOf (match JsonReader.loads sampleHost.limits chars with
      | .ok (.obj members) => validateResultEnvelope sampleHost sampleBatch (some members)
      | .error .depth => .error .recursionError
      | _ => .ok []) = some raised) :
    validatedRows sampleHost sampleBatch ⟨doneWith chars, [], none⟩ = .error raised := by
  have hread : readWorkerMetrics sampleHost ⟨doneWith chars, [], none⟩ =
      pullJson sampleHost (.file (Frames.utf8 chars)) := by
    rw [readWorkerMetrics, firstJson_eq]
    rfl
  have hsmall := (length_utf8_le chars).trans hsize
  rw [validatedRows, hread, pullJson, if_neg (not_lt.mpr hsmall), Frames.decodeUtf8_utf8]
  simp only
  split at h
  · rename_i members hloads
    rw [hloads]
    change validateResultEnvelope sampleHost sampleBatch (some members) = .error raised
    cases hrows : validateResultEnvelope sampleHost sampleBatch (some members) with
    | ok rows =>
      rw [hrows] at h
      exact absurd h nofun
    | error r =>
      rw [hrows] at h
      exact congrArg _ (Option.some.inj h)
  · rename_i hloads
    rw [hloads]
    exact congrArg _ (Option.some.inj h)
  · exact absurd h nofun

/-- `10 ** 309` seconds, and a list that nests too deep. -/
def longRetry : List Char := '1' :: List.replicate 309 '0'
def nested : List Char := List.replicate 1001 '['

end Remrun.Fleet.Evidence
