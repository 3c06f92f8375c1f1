import Mathlib.Data.List.Infix
import Mathlib.Data.List.Nodup
import Remrun.Lib.Effect

/-!
# Output namespaces

The stems that a prepared task reserves, the part of the validators that fixes them, and the check
of a worker's result that binds output names to stems.
-/

namespace Remrun.Fleet.Namespaces

open Effect
set_option autoImplicit false

/-! ## Names below a stem -/

section Delimited
variable {α : Type} {sep : α} {s t name tail : List α}

/-- The name is the stem, or the stem with a separator and more. -/
def Under (sep : α) (stem name : List α) : Prop := name = stem ∨ stem ++ [sep] <+: name

instance [DecidableEq α] : Decidable (Under sep s name) := inferInstanceAs (Decidable (_ ∨ _))

/-- Two stems share a name exactly when one lies below the other. -/
theorem exists_under_both : (∃ name, Under sep s name ∧ Under sep t name) ↔
    s = t ∨ s ++ [sep] <+: t ∨ t ++ [sep] <+: s := by
  constructor
  · rintro ⟨name, rfl | hs, rfl | ht⟩
    · exact Or.inl rfl
    · exact Or.inr (Or.inr ht)
    · exact Or.inr (Or.inl hs)
    · rcases List.prefix_or_prefix_of_prefix hs ht with h | h
      · rcases List.prefix_concat_iff.mp h with h | h
        · exact Or.inl (List.append_cancel_right h)
        · exact Or.inr (Or.inl h)
      · rcases List.prefix_concat_iff.mp h with h | h
        · exact Or.inl (List.append_cancel_right h).symm
        · exact Or.inr (Or.inr h)
  · rintro (rfl | h | h)
    · exact ⟨s, Or.inl rfl, Or.inl rfl⟩
    · exact ⟨t, Or.inr h, Or.inl rfl⟩
    · exact ⟨s, Or.inl rfl, Or.inr h⟩

/-- What ends in a separator begins before a tail that has none. -/
theorem prefix_of_append (hsep : sep ∉ tail) : s ++ [sep] <+: t ++ tail ↔ s ++ [sep] <+: t := by
  refine ⟨fun h => ?_, fun h => h.trans (List.prefix_append t tail)⟩
  rcases List.prefix_or_prefix_of_prefix h (List.prefix_append t tail) with h' | ⟨r, hr⟩
  · exact h'
  · rw [← hr, List.prefix_append_right_inj] at h
    rcases List.eq_nil_or_concat r with rfl | ⟨init, last, rfl⟩
    · rw [List.append_nil] at hr
      rw [hr]
    · rw [List.concat_eq_append, ← List.append_assoc] at hr
      have hlast : last = sep := by simpa using (List.append_inj' hr rfl).2
      refine absurd (h.subset ?_) hsep
      simp [hlast]

end Delimited

/-! ## Reserved stems -/

/-- `Path(path).stem` of the controller's platform, and `str.isalnum` beyond ASCII. -/
structure Platform where
  stem : String → List Char
  alnumBeyond : Char → Bool

def Platform.isalnum (p : Platform) (c : Char) : Bool :=
  if c.toNat < 128 then c.isAlphanum else p.alnumBeyond c

def Platform.safeChar (p : Platform) (c : Char) : Bool := p.isalnum c || c ∈ ['.', '_', '-']

/-- `(safe or "item")[:80]`, what a stem shows of the file name. -/
def Platform.safeStem (p : Platform) (path : String) : List Char :=
  let safe := (p.stem path).map fun c => if p.safeChar c then c else '_'
  (if safe = [] then ['i', 't', 'e', 'm'] else safe).take 80

/-- `{index:04d}`. -/
def pad4 (n : Nat) : List Char :=
  List.replicate (4 - (Nat.toDigits 10 n).length) '0' ++ Nat.toDigits 10 n

/-- `_source_stem`. -/
def Platform.sourceStem (p : Platform) (path : String) (index : Nat) : List Char :=
  p.safeStem path ++ '-' :: pad4 index

inductive Mode where
  | none | text | files
  deriving DecidableEq, Repr

structure Item where
  index : Nat
  sourcePath : String
  deriving DecidableEq

structure Reservation where
  itemIndex : Nat
  stem : List Char
  deriving DecidableEq

/-- What the names depend on in a prepared task. -/
structure TaskJob where
  mode : Mode
  items : List Item
  reservations : List Reservation
  workId : List Char
  deriving DecidableEq

def scheme : List Char := ['s', 'h', 'a', '2', '5', '6', ':']

def isHex (c : Char) : Bool := c.isDigit || c ∈ ['a', 'b', 'c', 'd', 'e', 'f']

/-- `verify_id`. -/
def verifyId (id : List Char) : Bool :=
  id.take 7 = scheme && (id.drop 7).length = 64 && (id.drop 7).all isHex

/-- `work_id.removeprefix("sha256:")`, for a verified id. -/
def TaskJob.digest (j : TaskJob) : List Char := j.workId.drop 7

def Platform.reservationOf (p : Platform) (j : TaskJob) (item : Item) : Reservation :=
  ⟨item.index, p.sourceStem item.sourcePath item.index ++ '-' :: j.digest⟩

def ensure (accepted : Bool) (text : String) : Except String Unit :=
  if accepted then .ok () else .error text

/-- The checks of `validate_prepared_job` and `validate_prepared_against_spec` on the work id, the
shape of the payload and the reservations; `reserves` says that the frozen policy is not `none`. -/
def Platform.validate (p : Platform) (reserves : Bool) (j : TaskJob) : Except String Unit := do
  ensure (j.mode = .files ↔ j.items ≠ []) "prepared payload union is inconsistent"
  ensure (j.items.map Item.index = List.range j.items.length)
    "prepared payload item index or source path is invalid"
  ensure (verifyId j.workId) "prepared work_id must be sha256:<64 lowercase hex>"
  ensure (j.reservations ≠ [] ↔ reserves = true ∧ j.items ≠ [])
    "prepared reservations disagree with the frozen output policy"
  if j.reservations ≠ [] then
    ensure (j.reservations.length = j.items.length)
      "prepared reservations do not cover every input item"
    ensure ((j.reservations.zip j.items).all fun pair => pair.1 = p.reservationOf j pair.2)
      "prepared reservation is not the frozen collision-safe name"

/-- A task that the validators accept. -/
structure ValidatedJob (p : Platform) extends TaskJob where
  reserves : Bool
  valid : p.validate reserves toTaskJob = .ok ()

/-! ## The check of a result -/

/-- `_text_output_stem`. -/
def TaskJob.textOutputStem (j : TaskJob) : Option (List Char) :=
  if j.mode = .text then some (['t', 'e', 'x', 't', '-'] ++ j.digest) else none

/-- `_safe_path`. An absolute path has an empty part, and without an empty part or a dot the path
is its own canonical text. -/
def safePath (field : String) (value : List Char) : Except String Unit := do
  ensure (value ≠ [] && '\x00' ∉ value && '\\' ∉ value)
    (field ++ " must be a canonical safe relative path")
  ensure ((value.splitOn '/').all fun part => part ≠ [] && part ≠ ['.'] && part ≠ ['.', '.'])
    (field ++ " must be a canonical safe relative path")

/-- `PurePosixPath(path).name`. -/
def fileName (path : List Char) : List Char := (path.splitOn '/').getLastD []

def underAny (stems : List (List Char)) (name : List Char) : Bool :=
  stems.any fun stem => Under '.' stem name

/-- The stems that may carry the outputs. -/
def TaskJob.allowedStems (j : TaskJob) (outputs : List (List Char)) :
    Except String (List (List Char)) :=
  if outputs ≠ [] ∧ j.reservations = [] then
    match j.textOutputStem with
    | none => .error "result output has no prepared reservation"
    | some stem => .ok [stem]
  else .ok (j.reservations.map Reservation.stem)

/-- The reservation and text-binding checks of `_validate_item`. -/
def TaskJob.bindOutputs (j : TaskJob) (outputs : List (List Char))
    (companion : Option (List Char)) : Except String Unit := do
  outputs.forM (safePath "result output")
  ensure outputs.Nodup "result outputs contain duplicates"
  companion.toList.forM (safePath "result companion")
  let stems ← j.allowedStems outputs
  let text := j.mode = .text && j.reservations = []
  ensure (outputs.all fun output => underAny stems (fileName output))
    (if text then "result output does not match text output binding"
      else "result output does not match a prepared reservation stem")
  ensure (companion.toList.all fun path => underAny stems (fileName path))
    (if text then "result companion does not match text output binding"
      else "result companion does not match a prepared reservation stem")

/-- Some accepted result publishes an output or a companion of this name. -/
def TaskJob.Accepts (j : TaskJob) (name : List Char) : Prop :=
  ∃ outputs companion, j.bindOutputs outputs companion = .ok () ∧
    name ∈ (outputs ++ companion.toList).map fileName

/-- The stems below which the task may publish. -/
def TaskJob.stems (j : TaskJob) : List (List Char) :=
  if j.reservations = [] then j.textOutputStem.toList else j.reservations.map Reservation.stem

/-- The file name of an input of `b` begins with a stem of `a` and a dot. -/
def Nests (p : Platform) (a b : TaskJob) : Prop :=
  b.reservations ≠ [] ∧ ∃ stem ∈ a.stems, ∃ item ∈ b.items,
    stem ++ ['.'] <+: p.safeStem item.sourcePath

/-! ## Stems of validated tasks -/

section Ensure
variable {accepted : Bool} {text : String}

theorem ensure_ok : ensure accepted text = .ok () ↔ accepted = true := by
  unfold ensure
  split <;> simp [*]

end Ensure

section Digest
variable {id id' : List Char}

theorem verifyId_drop (h : verifyId id = true) :
    id = scheme ++ id.drop 7 ∧ (id.drop 7).length = 64 ∧ ∀ c ∈ id.drop 7, isHex c = true := by
  unfold verifyId at h
  simp only [Bool.and_eq_true, decide_eq_true_eq, List.all_eq_true] at h
  obtain ⟨⟨hscheme, hlength⟩, hhex⟩ := h
  refine ⟨?_, hlength, hhex⟩
  rw [← hscheme, List.take_append_drop]

theorem digest_ne (h : verifyId id = true) (h' : verifyId id' = true) (hne : id ≠ id') :
    id.drop 7 ≠ id'.drop 7 := by
  intro hdrop
  apply hne
  rw [(verifyId_drop h).1, (verifyId_drop h').1, hdrop]

theorem isHex_plain {c : Char} (h : isHex c = true) :
    c ≠ '.' ∧ c ≠ '/' ∧ c ≠ '\\' ∧ c ≠ '\x00' := by
  refine ⟨?_, ?_, ?_, ?_⟩ <;> (rintro rfl; exact absurd h (by decide))

end Digest

theorem pad4_digit {n : Nat} {c : Char} (h : c ∈ pad4 n) : c.isDigit = true := by
  rcases List.mem_append.mp h with h | h
  · rw [List.eq_of_mem_replicate h]
    rfl
  · exact Nat.isDigit_of_mem_toDigits (by omega) (by omega) h

variable {p : Platform} {j a b : TaskJob}

/-- What the validators establish about a task. -/
structure TaskJob.Sound (p : Platform) (j : TaskJob) : Prop where
  files : j.mode = .files ↔ j.items ≠ []
  workId : verifyId j.workId = true
  reserved : j.reservations = [] ∨ j.reservations = j.items.map (p.reservationOf j)
  items : j.reservations ≠ [] → j.items ≠ []

theorem eq_map_of_zip {α β : Type} (f : β → α) : ∀ {xs : List α} {ys : List β},
    xs.length = ys.length → (∀ pair ∈ xs.zip ys, pair.1 = f pair.2) → xs = ys.map f
  | [], [], _, _ => rfl
  | x :: xs, y :: ys, hlength, h => by
    rw [List.map_cons, ← h (x, y) List.mem_cons_self]
    exact congrArg _ (eq_map_of_zip f (Nat.succ.inj hlength) fun pair hpair =>
      h pair (List.mem_cons_of_mem _ hpair))

theorem ValidatedJob.sound (j : ValidatedJob p) : j.toTaskJob.Sound p := by
  have h := j.valid
  unfold Platform.validate at h
  obtain ⟨_, hfiles, h⟩ := bind_eq_ok.mp h
  obtain ⟨_, -, h⟩ := bind_eq_ok.mp h
  obtain ⟨_, hid, h⟩ := bind_eq_ok.mp h
  obtain ⟨_, hpolicy, h⟩ := bind_eq_ok.mp h
  have hpolicy := of_decide_eq_true (ensure_ok.mp hpolicy)
  refine ⟨of_decide_eq_true (ensure_ok.mp hfiles), ensure_ok.mp hid, ?_,
    fun hne => (hpolicy.mp hne).2⟩
  by_cases hempty : j.reservations = []
  · exact Or.inl hempty
  · rw [if_pos hempty] at h
    obtain ⟨_, hlength, h⟩ := bind_eq_ok.mp h
    refine Or.inr (eq_map_of_zip _ (of_decide_eq_true (ensure_ok.mp hlength)) fun pair hpair => ?_)
    exact of_decide_eq_true (List.all_eq_true.mp (ensure_ok.mp h) pair hpair)

/-- A stem is made of what the file name shows and of a tail with the digest and without dots. -/
theorem Sound.stem_cases (h : j.Sound p) {stem : List Char} (hstem : stem ∈ j.stems) :
    ∃ shown tail, stem = shown ++ tail ∧ '.' ∉ tail ∧ j.digest <:+ tail ∧
      ((shown = [] ∧ j.reservations = []) ∨
        ∃ item ∈ j.items, shown = p.safeStem item.sourcePath ∧ j.reservations ≠ []) := by
  have hplain : '.' ∉ j.digest := fun hdot =>
    (isHex_plain ((verifyId_drop h.workId).2.2 _ hdot)).1 rfl
  unfold TaskJob.stems at hstem
  split at hstem
  · rename_i hnone
    unfold TaskJob.textOutputStem at hstem
    split at hstem
    · rw [Option.toList_some, List.mem_singleton] at hstem
      refine ⟨[], _, hstem, ?_, List.suffix_append ['t', 'e', 'x', 't', '-'] _, Or.inl ⟨rfl, hnone⟩⟩
      simp [hplain]
    · simp at hstem
  · rename_i hsome
    rw [h.reserved.resolve_left hsome, List.map_map] at hstem
    obtain ⟨item, hitem, rfl⟩ := List.mem_map.mp hstem
    refine ⟨p.safeStem item.sourcePath, '-' :: pad4 item.index ++ '-' :: j.digest, ?_, ?_, ?_,
      Or.inr ⟨item, hitem, rfl, hsome⟩⟩
    · simp [Platform.reservationOf, Platform.sourceStem]
    · have hpad : '.' ∉ pad4 item.index := fun hdot => absurd (pad4_digit hdot) (by decide)
      simp [hplain, hpad]
    · exact ⟨'-' :: pad4 item.index ++ ['-'], by simp⟩

theorem Sound.stem_ne (ha : a.Sound p) (hb : b.Sound p) (hne : a.workId ≠ b.workId)
    {s t : List Char} (hs : s ∈ a.stems) (ht : t ∈ b.stems) : s ≠ t := by
  rintro rfl
  obtain ⟨_, _, hsplit, -, ⟨r, hr⟩, -⟩ := Sound.stem_cases ha hs
  obtain ⟨_, _, hsplit', -, ⟨r', hr'⟩, -⟩ := Sound.stem_cases hb ht
  rw [← hr, ← List.append_assoc] at hsplit
  rw [← hr', ← List.append_assoc] at hsplit'
  have hlength : a.digest.length = b.digest.length :=
    (verifyId_drop ha.workId).2.1.trans (verifyId_drop hb.workId).2.1.symm
  exact digest_ne ha.workId hb.workId hne
    (List.append_inj' (hsplit.symm.trans hsplit') hlength).2

/-- One stem lies below another exactly when the file name shows it. -/
theorem Sound.below_iff (hb : b.Sound p) : (∃ s ∈ a.stems, ∃ t ∈ b.stems, s ++ ['.'] <+: t) ↔
    Nests p a b := by
  constructor
  · rintro ⟨s, hs, t, ht, hbelow⟩
    obtain ⟨shown, tail, rfl, htail, -, hshown⟩ := Sound.stem_cases hb ht
    rw [prefix_of_append htail] at hbelow
    rcases hshown with ⟨rfl, -⟩ | ⟨item, hitem, rfl, hsome⟩
    · simp at hbelow
    · exact ⟨hsome, s, hs, item, hitem, hbelow⟩
  · rintro ⟨hsome, s, hs, item, hitem, hbelow⟩
    refine ⟨s, hs, (p.reservationOf b item).stem, ?_, ?_⟩
    · unfold TaskJob.stems
      rw [if_neg hsome, hb.reserved.resolve_left hsome, List.map_map]
      exact List.mem_map.mpr ⟨item, hitem, rfl⟩
    · simp only [Platform.reservationOf, Platform.sourceStem, List.append_assoc]
      exact hbelow.trans (List.prefix_append _ _)

/-! ## Accepted names -/

/-- A name that is a safe path of one component. -/
def Plain (name : List Char) : Prop :=
  name ≠ [] ∧ '\x00' ∉ name ∧ '\\' ∉ name ∧ '/' ∉ name ∧ name ≠ ['.'] ∧ name ≠ ['.', '.']

theorem safePath_plain {name : List Char} (h : Plain name) (field : String) :
    safePath field name = .ok () := by
  obtain ⟨hne, hnul, hback, hslash, hdot, hdots⟩ := h
  unfold safePath
  rw [List.splitOn_eq_singleton hslash]
  simp [ensure, hne, hnul, hback, hdot, hdots, bind, Except.bind]

theorem fileName_plain {name : List Char} (h : Plain name) : fileName name = name := by
  unfold fileName
  rw [List.splitOn_eq_singleton h.2.2.2.1]
  rfl

theorem underAny_iff {stems : List (List Char)} {name : List Char} :
    underAny stems name = true ↔ ∃ stem ∈ stems, Under '.' stem name := by
  simp [underAny]

theorem allowedStems_ok {outputs stems : List (List Char)}
    (h : j.allowedStems outputs = .ok stems) : stems ⊆ j.stems := by
  unfold TaskJob.allowedStems at h
  unfold TaskJob.stems
  split at h
  · rename_i hcase
    rw [if_pos hcase.2]
    split at h
    · exact absurd h nofun
    · rename_i stem hstem
      rw [← Except.ok.inj h, hstem]
      exact List.Subset.refl _
  · rename_i hcase
    rw [← Except.ok.inj h]
    by_cases hnone : j.reservations = []
    · simp [hnone]
    · rw [if_neg hnone]
      exact List.Subset.refl _

theorem allowedStems_of_ne_nil {outputs : List (List Char)} (houtputs : outputs ≠ [])
    (hstems : j.stems ≠ []) : j.allowedStems outputs = .ok j.stems := by
  unfold TaskJob.stems at hstems ⊢
  unfold TaskJob.allowedStems
  by_cases hnone : j.reservations = []
  · rw [if_pos hnone] at hstems ⊢
    rw [if_pos ⟨houtputs, hnone⟩]
    cases htext : j.textOutputStem with
    | none => simp [htext] at hstems
    | some stem => rfl
  · rw [if_neg hnone, if_neg fun h => hnone h.2]

theorem Accepts.under {name : List Char} (h : j.Accepts name) :
    ∃ stem ∈ j.stems, Under '.' stem name := by
  obtain ⟨outputs, companion, h, hname⟩ := h
  unfold TaskJob.bindOutputs at h
  obtain ⟨_, -, h⟩ := bind_eq_ok.mp h
  obtain ⟨_, -, h⟩ := bind_eq_ok.mp h
  obtain ⟨_, -, h⟩ := bind_eq_ok.mp h
  obtain ⟨stems, hstems, h⟩ := bind_eq_ok.mp h
  obtain ⟨_, houtputs, hcompanion⟩ := bind_eq_ok.mp h
  obtain ⟨path, hpath, rfl⟩ := List.mem_map.mp hname
  have hunder : underAny stems (fileName path) = true := by
    rcases List.mem_append.mp hpath with hpath | hpath
    · exact List.all_eq_true.mp (ensure_ok.mp houtputs) path hpath
    · exact List.all_eq_true.mp (ensure_ok.mp hcompanion) path hpath
  obtain ⟨stem, hstem, hname⟩ := underAny_iff.mp hunder
  exact ⟨stem, allowedStems_ok hstems hstem, hname⟩

theorem accepts_of_under {name stem : List Char} (hplain : Plain name) (hstem : stem ∈ j.stems)
    (hunder : Under '.' stem name) : j.Accepts name := by
  refine ⟨[name], none, ?_, by simp [fileName_plain hplain]⟩
  have hany : underAny j.stems name = true := underAny_iff.mpr ⟨stem, hstem, hunder⟩
  unfold TaskJob.bindOutputs
  rw [allowedStems_of_ne_nil (List.cons_ne_nil name []) (List.ne_nil_of_mem hstem)]
  simp [ensure, safePath_plain hplain, fileName_plain hplain, hany, bind, Except.bind, pure,
    Except.pure]

/-! ## Stems are plain names -/

theorem safeChar_plain {c : Char} (h : p.safeChar c = true) : c ≠ '/' ∧ c ≠ '\\' ∧ c ≠ '\x00' := by
  refine ⟨?_, ?_, ?_⟩ <;>
    (rintro rfl; simp [Platform.safeChar, Platform.isalnum, Char.isAlphanum] at h)

theorem safeStem_plain {path : String} {c : Char} (h : c ∈ p.safeStem path) :
    c ≠ '/' ∧ c ≠ '\\' ∧ c ≠ '\x00' := by
  have h := List.mem_of_mem_take h
  split at h
  · have hitem : ∀ c ∈ ['i', 't', 'e', 'm'], c ≠ '/' ∧ c ≠ '\\' ∧ c ≠ '\x00' := by simp
    exact hitem c h
  · obtain ⟨c', -, rfl⟩ := List.mem_map.mp h
    split
    · exact safeChar_plain ‹_›
    · decide

theorem Sound.stem_plain (h : j.Sound p) {stem : List Char} (hstem : stem ∈ j.stems) :
    Plain stem := by
  have hdigest : ∀ c ∈ j.digest, c ≠ '/' ∧ c ≠ '\\' ∧ c ≠ '\x00' := fun c hc =>
    (isHex_plain ((verifyId_drop h.workId).2.2 c hc)).2
  have hchars : '-' ∈ stem ∧ ∀ c ∈ stem, c ≠ '/' ∧ c ≠ '\\' ∧ c ≠ '\x00' := by
    unfold TaskJob.stems at hstem
    split at hstem
    · unfold TaskJob.textOutputStem at hstem
      split at hstem
      · rw [Option.toList_some, List.mem_singleton] at hstem
        rw [hstem]
        refine ⟨by simp, fun c hc => ?_⟩
        rcases List.mem_append.mp hc with hc | hc
        · have htext : ∀ c ∈ ['t', 'e', 'x', 't', '-'], c ≠ '/' ∧ c ≠ '\\' ∧ c ≠ '\x00' := by
            simp
          exact htext c hc
        · exact hdigest c hc
      · simp at hstem
    · rename_i hsome
      rw [h.reserved.resolve_left hsome, List.map_map] at hstem
      obtain ⟨item, -, rfl⟩ := List.mem_map.mp hstem
      refine ⟨by simp [Platform.reservationOf], fun c hc => ?_⟩
      simp only [Function.comp_apply, Platform.reservationOf, Platform.sourceStem,
        List.mem_append, List.mem_cons] at hc
      rcases hc with (hc | rfl | hc) | rfl | hc
      · exact safeStem_plain hc
      · decide
      · refine ⟨?_, ?_, ?_⟩ <;> (rintro rfl; exact absurd (pad4_digit hc) (by decide))
      · decide
      · exact hdigest c hc
  obtain ⟨hdash, hchars⟩ := hchars
  refine ⟨List.ne_nil_of_mem hdash, fun hc => (hchars _ hc).2.2 rfl,
    fun hc => (hchars _ hc).2.1 rfl, fun hc => (hchars _ hc).1 rfl, ?_, ?_⟩ <;>
    (rintro rfl; simp at hdash)

/-! ## Disjointness -/

/-- No name is accepted for both tasks. -/
def DisjointNames (a b : TaskJob) : Prop := ∀ name, ¬ (a.Accepts name ∧ b.Accepts name)

/-- A stem of one task below a stem of the other is a name that both publish. -/
theorem shared_of_below (hb : b.Sound p) {s t : List Char} (hs : s ∈ a.stems)
    (ht : t ∈ b.stems) (hbelow : s ++ ['.'] <+: t) : a.Accepts t ∧ b.Accepts t :=
  have hplain := Sound.stem_plain hb ht
  ⟨accepts_of_under hplain hs (Or.inr hbelow), accepts_of_under hplain ht (Or.inl rfl)⟩

/-- Different work shares a name exactly when the file name of an input of one task begins with a
stem of the other and a dot. -/
theorem namespaces_disjoint_iff (a b : ValidatedJob p) (hne : a.workId ≠ b.workId) :
    DisjointNames a.toTaskJob b.toTaskJob ↔
      ¬ Nests p a.toTaskJob b.toTaskJob ∧ ¬ Nests p b.toTaskJob a.toTaskJob := by
  have ha := a.sound
  have hb := b.sound
  constructor
  · intro hdisjoint
    constructor
    · intro hnests
      obtain ⟨s, hs, t, ht, hbelow⟩ := (Sound.below_iff hb).mpr hnests
      exact hdisjoint t (shared_of_below hb hs ht hbelow)
    · intro hnests
      obtain ⟨s, hs, t, ht, hbelow⟩ := (Sound.below_iff ha).mpr hnests
      exact hdisjoint t (shared_of_below ha hs ht hbelow).symm
  · rintro ⟨hab, hba⟩ name ⟨hname, hname'⟩
    obtain ⟨s, hs, hunder⟩ := Accepts.under hname
    obtain ⟨t, ht, hunder'⟩ := Accepts.under hname'
    rcases exists_under_both.mp ⟨name, hunder, hunder'⟩ with heq | hbelow | hbelow
    · exact Sound.stem_ne ha hb hne hs ht heq
    · exact hab ((Sound.below_iff hb).mp ⟨s, hs, t, ht, hbelow⟩)
    · exact hba ((Sound.below_iff ha).mp ⟨t, ht, s, hs, hbelow⟩)

section Inputs

/-- `Path(path).stem` where the last component is not a dot; the trailing dot is no suffix. -/
def posixStem (path : String) : List Char :=
  let parts := (path.toList.splitOn '/').filter fun part => part ≠ [] && part ≠ ['.']
  let name := parts.getLastD []
  let suffix := (name.reverse.takeWhile (· ≠ '.')).length
  if suffix + 1 < name.length ∧ suffix ≠ 0 then name.take (name.length - suffix - 1) else name

def posix : Platform := ⟨posixStem, fun _ => true⟩

/-- A task with one input file and the work id of one repeated digit. -/
def inputJob (path : String) (digit : Char) : TaskJob :=
  let job : TaskJob := ⟨.files, [⟨0, path⟩], [], scheme ++ List.replicate 64 digit⟩
  { job with reservations := [posix.reservationOf job ⟨0, path⟩] }

def plainJob : ValidatedJob posix := ⟨inputJob "/in/a.txt" '0', true, by decide +kernel⟩

def otherJob : ValidatedJob posix := ⟨inputJob "/in/b.txt" '1', true, by decide +kernel⟩

/-- Its input is an output of `plainJob`. -/
def outputJob : ValidatedJob posix :=
  ⟨inputJob ("/out/a-0000-" ++ String.ofList (List.replicate 64 '0') ++ ".en.srt") '1', true,
    by decide +kernel⟩

theorem namespaces_disjoint_plainJob : DisjointNames plainJob.toTaskJob otherJob.toTaskJob ↔
    ¬ Nests posix plainJob.toTaskJob otherJob.toTaskJob ∧
      ¬ Nests posix otherJob.toTaskJob plainJob.toTaskJob :=
  namespaces_disjoint_iff plainJob otherJob (by decide +kernel)

theorem outputs_shared : plainJob.workId ≠ outputJob.workId ∧
    ∃ name, plainJob.Accepts name ∧ outputJob.Accepts name :=
  have hbelow : ∃ s ∈ plainJob.stems, ∃ t ∈ outputJob.stems, s ++ ['.'] <+: t := by decide +kernel
  ⟨by decide +kernel, let ⟨_, hs, _, ht, hst⟩ := hbelow
    ⟨_, shared_of_below outputJob.sound hs ht hst⟩⟩

end Inputs

end Remrun.Fleet.Namespaces
