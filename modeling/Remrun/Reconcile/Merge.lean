import Remrun.Reconcile.Quiet
import Remrun.Reconcile.Refusals

/-!
# Preflight as a three-way merge

Without other writers and with every file hashed, a plan is the comparison of the two
contents of each path with the content of the baseline, and applying it leaves the merge on
both sides.
-/

namespace Remrun.Reconcile

open Keyed Effect
set_option autoImplicit false

/-! ## Three-way merge -/

/-- The merge of two values that come from one base; `none` is a conflict. -/
def merge3 {α : Type} [DecidableEq α] (base left right : α) : Option α :=
  if left = right then some left
  else if left = base then some right
  else if right = base then some left
  else none

section Merge3
variable {α : Type} [DecidableEq α] {base left right : α}

theorem merge3_eq_none :
    merge3 base left right = none ↔ left ≠ right ∧ left ≠ base ∧ right ≠ base := by
  unfold merge3
  split_ifs with h1 h2 h3 <;> simp [*]

theorem merge3_same (h : left = right) : merge3 base left right = some left := if_pos h

theorem merge3_takes_right (h : left = base) : merge3 base left right = some right := by
  unfold merge3
  split_ifs with heq
  · rw [heq]
  · rfl

theorem merge3_mem {merged : α} (h : merge3 base left right = some merged) :
    merged = left ∨ merged = right := by
  unfold merge3 at h
  split_ifs at h
  · exact Or.inl (Option.some.inj h).symm
  · exact Or.inr (Option.some.inj h).symm
  · exact Or.inl (Option.some.inj h).symm

theorem merge3_takes_left (h : right = base) : merge3 base left right = some left := by
  unfold merge3
  split_ifs with heq hleft
  · rfl
  · rw [hleft, h]
  · rfl

end Merge3

/-! ## Entries and contents -/

/-- The entry records the content: both are absent, or it has its size and its digest. -/
def Describes (P : Platform) : Option Bytes → Option FileEntry → Prop
  | none, none => True
  | some bytes, some entry => entry.kind = "file" ∧ entry.size = bytes.length ∧
      entry.sha256 = some (P.sha256 bytes)
  | _, _ => False

/-- No two different contents of the set have one digest. -/
def CollisionFree (P : Platform) (occurs : Bytes → Prop) : Prop :=
  ∀ x y, occurs x → occurs y → P.sha256 x = P.sha256 y → x = y

section Entries
variable {P : Platform} {occurs : Bytes → Prop} {x y b : Option Bytes}
  {ex ey eb eb' : Option FileEntry}

/-- Entries are the same where the contents are. -/
theorem entriesSame_iff (hfree : CollisionFree P occurs) (hx : ∀ bytes ∈ x, occurs bytes)
    (hy : ∀ bytes ∈ y, occurs bytes) (hex : Describes P x ex) (hey : Describes P y ey) :
    entriesSame ex ey = true ↔ x = y := by
  cases x with
  | none =>
    cases ex with
    | some entry => exact hex.elim
    | none =>
      rw [entriesSame_none_left]
      cases y <;> cases ey <;> simp_all [Describes]
  | some bytes =>
    cases ex with
    | none => exact hex.elim
    | some entry =>
      cases y with
      | none =>
        cases ey with
        | some entry' => exact hey.elim
        | none => simp [entriesSame]
      | some bytes' =>
        cases ey with
        | none => exact hey.elim
        | some entry' =>
          obtain ⟨hk, hs, hd⟩ := hex
          obtain ⟨hk', hs', hd'⟩ := hey
          rw [entriesSame_some]
          constructor
          · rintro ⟨_, _, ⟨digest, h, h'⟩ | ⟨h | h, _⟩⟩
            · rw [hd, Option.some.injEq] at h
              rw [hd', Option.some.injEq] at h'
              rw [hfree bytes bytes' (hx bytes rfl) (hy bytes' rfl) (h.trans h'.symm)]
            · rw [hd] at h
              exact absurd h (by simp)
            · rw [hd'] at h
              exact absurd h (by simp)
          · rintro h
            obtain rfl := Option.some.inj h
            exact ⟨hk.trans hk'.symm, hs.trans hs'.symm, Or.inl ⟨_, hd, hd'⟩⟩

theorem changedSince_iff (hfree : CollisionFree P occurs) (hx : ∀ bytes ∈ x, occurs bytes)
    (hy : ∀ bytes ∈ y, occurs bytes) (hex : Describes P x ex) (hey : Describes P y ey) :
    changedSince ex ey = true ↔ x ≠ y := by
  rw [changedSince, Bool.not_eq_true', ← Bool.not_eq_true,
    entriesSame_iff hfree hx hy hex hey]

theorem entriesContentSame_iff {bytes bytes' : Bytes} {entry entry' : FileEntry}
    (hfree : CollisionFree P occurs) (hx : occurs bytes) (hy : occurs bytes')
    (hex : Describes P (some bytes) (some entry)) (hey : Describes P (some bytes') (some entry')) :
    entriesContentSame entry entry' = true ↔ bytes = bytes' := by
  obtain ⟨hk, hs, hd⟩ := hex
  obtain ⟨hk', hs', hd'⟩ := hey
  simp only [entriesContentSame, hk, hk', hs, hs', hd, hd', decide_true, Bool.true_and,
    Option.isSome_some, Bool.and_true, Bool.and_eq_true, decide_eq_true_eq, Option.some.injEq]
  constructor
  · exact fun h => hfree bytes bytes' hx hy h.2
  · rintro rfl
    exact ⟨rfl, rfl⟩

/-! ## Classification -/

/-- What the action of an item means for the contents of its path. -/
def Fits (base left right : Option Bytes) : Action → Prop
  | .none => left = right
  | .push => left.isSome = true ∧ right = base
  | .pull => right.isSome = true ∧ left = base
  | .deleteLocal => left.isSome = true ∧ right = none ∧ left = base
  | .deleteRemote => right.isSome = true ∧ left = none ∧ right = base
  | .abortConflict => merge3 base left right = none

/-- What may be recorded as the baseline of a path. -/
def BaseDescribes (P : Platform) (havePrev : Bool) (b : Option Bytes)
    (pl pr : Option FileEntry) : Prop :=
  if havePrev then Describes P b pl ∧ Describes P b pr else b = none

theorem describes_isSome (h : Describes P x ex) : ex.isSome = x.isSome := by
  cases x <;> cases ex <;> simp_all [Describes]

theorem classify_fits {path : String} {havePrev : Bool} {item : ClassifiedPath}
    (hfree : CollisionFree P occurs) (hx : ∀ bytes ∈ x, occurs bytes)
    (hy : ∀ bytes ∈ y, occurs bytes) (hb : ∀ bytes ∈ b, occurs bytes)
    (hex : Describes P x ex) (hey : Describes P y ey) (hbase : BaseDescribes P havePrev b eb eb')
    (h : classify path ex ey havePrev eb eb' = some item) : Fits b x y item.action := by
  cases x with
  | none =>
    cases ex with
    | some entry => exact hex.elim
    | none =>
      cases y with
      | none =>
        cases ey with
        | some entry => exact hey.elim
        | none => simp [classify] at h
      | some bytes =>
        cases ey with
        | none => exact hey.elim
        | some entry =>
          simp only [classify, Option.some.injEq] at h
          subst h
          unfold classifyRemote
          cases havePrev with
          | false =>
            simp only [BaseDescribes, Bool.false_eq_true, if_false] at hbase
            simp [Fits, hbase]
          | true =>
            simp only [BaseDescribes, if_true] at hbase
            rw [describes_isSome hbase.1]
            split_ifs with h1 h2
            · rw [changedSince_iff hfree hb hy hbase.2 hey] at h2
              cases b with
              | none => simp at h1
              | some bytes' =>
                exact merge3_eq_none.mpr ⟨by simp, by simp, fun heq => h2 heq.symm⟩
            · rw [changedSince_iff hfree hb hy hbase.2 hey, not_not] at h2
              exact ⟨rfl, rfl, h2.symm⟩
            · refine ⟨rfl, ?_⟩
              cases b with
              | none => rfl
              | some bytes' => simp at h1
  | some bytes =>
    cases ex with
    | none => exact hex.elim
    | some entry =>
      cases y with
      | none =>
        cases ey with
        | some entry' => exact hey.elim
        | none =>
          simp only [classify, Option.some.injEq] at h
          subst h
          unfold classifyLocal
          cases havePrev with
          | false =>
            simp only [BaseDescribes, Bool.false_eq_true, if_false] at hbase
            simp [Fits, hbase]
          | true =>
            simp only [BaseDescribes, if_true] at hbase
            rw [describes_isSome hbase.2]
            split_ifs with h1 h2
            · rw [changedSince_iff hfree hb hx hbase.1 hex] at h2
              cases b with
              | none => simp at h1
              | some bytes' =>
                exact merge3_eq_none.mpr ⟨by simp, fun heq => h2 heq.symm, by simp⟩
            · rw [changedSince_iff hfree hb hx hbase.1 hex, not_not] at h2
              exact ⟨rfl, rfl, h2.symm⟩
            · refine ⟨rfl, ?_⟩
              cases b with
              | none => rfl
              | some bytes' => simp at h1
      | some bytes' =>
        cases ey with
        | none => exact hey.elim
        | some entry' =>
          cases havePrev with
          | false =>
            simp only [BaseDescribes, Bool.false_eq_true, if_false] at hbase
            simp only [classify, Bool.false_eq_true, if_false, Option.some.injEq] at h
            subst h
            unfold heuristicDiff
            rw [hex.2.2, hey.2.2]
            dsimp only
            split_ifs with h1
            · exact congrArg some (hfree _ _ (hx _ rfl) (hy _ rfl) h1)
            · refine merge3_eq_none.mpr ⟨fun heq => h1 ?_, by simp [hbase], by simp [hbase]⟩
              rw [Option.some.inj heq]
          | true =>
            simp only [BaseDescribes, if_true] at hbase
            simp only [classify, if_true, Option.some.injEq] at h
            subst h
            have hl := changedSince_iff hfree hb hx hbase.1 hex
            have hr := changedSince_iff hfree hb hy hbase.2 hey
            unfold classifyBoth
            dsimp only
            split_ifs with h1 h2 h3 h4
            · rw [entriesContentSame_iff hfree (hx _ rfl) (hy _ rfl) hex hey] at h2
              exact congrArg some h2
            · rw [entriesContentSame_iff hfree (hx _ rfl) (hy _ rfl) hex hey] at h2
              rw [Bool.and_eq_true, hl, hr] at h1
              exact merge3_eq_none.mpr ⟨fun heq => h2 (Option.some.inj heq),
                fun heq => h1.1 heq.symm, fun heq => h1.2 heq.symm⟩
            · rw [Bool.and_eq_true, not_and, hr, not_not] at h1
              exact ⟨rfl, (h1 h3).symm⟩
            · rw [hl, not_not] at h3
              exact ⟨rfl, h3.symm⟩
            · rw [hl, not_not] at h3
              rw [hr, not_not] at h4
              exact h3.symm.trans h4

/-- A path with different contents has an item. -/
theorem classify_isSome {path : String} {havePrev : Bool} (hex : Describes P x ex)
    (hey : Describes P y ey) (h : classify path ex ey havePrev eb eb' = none) :
    x = none ∧ y = none := by
  cases ex with
  | some entry => cases ey <;> cases havePrev <;> simp [classify] at h
  | none =>
    cases ey with
    | some entry => simp [classify] at h
    | none => cases x <;> cases y <;> simp_all [Describes]

end Entries

/-! ## The plan of a still pair of trees -/

/-- The contents that a merge compares. -/
def Occurs {P : Platform} (base : String → Option Bytes) (L : Root P.localKey)
    (R : Root P.remoteKey) (bytes : Bytes) : Prop :=
  ∃ rel, base rel = some bytes ∨ L.file rel = some bytes ∨ R.file rel = some bytes

/-- A call on two existing roots with case-sensitive names, without other writers, failing
steps, exact inclusions or a fallback; every covered file is hashed, and the baseline, if
there is one, records the contents `base` for both sides. -/
structure Merging {P : Platform} (env : Env P) (a : PreflightArgs) (base : String → Option Bytes)
    (L : Root P.localKey) (R : Root P.remoteKey) : Prop where
  calm : env.Calm
  localCase : P.localInsensitive = false
  remoteCase : P.remoteInsensitive = false
  noInclude : a.surface.includePaths = []
  ordinary : a.isFallback = false
  localDir : ∃ files, L = .directory files
  remoteDir : ∃ files, R = .directory files
  hashedLocal : ∀ rel bytes, a.surface.covers P rel = true → L.file rel = some bytes →
    a.surface.hashes bytes.length = true
  hashedRemote : ∀ rel bytes, a.surface.covers P rel = true → R.file rel = some bytes →
    a.surface.hashes bytes.length = true
  baseline : ∀ rel, BaseDescribes P a.havePrev (base rel) (prevEntry a.prevLocal rel)
    (prevEntry a.prevRemote rel)
  collisionFree : CollisionFree P (Occurs base L R)

theorem Root.lists_iff {key : String → String} (hkey : ∀ k, key k = k) (root : Root key)
    (rel : String) : root.Lists rel ↔ ∃ node, root.get rel = some node := by
  cases root with
  | missing => simp [Root.Lists, Root.get]
  | blocked => simp [Root.Lists, Root.get]
  | directory files =>
    constructor
    · exact Dict.get_of_mem_keys
    · rintro ⟨node, hnode⟩
      obtain ⟨rel', hmem, hrel'⟩ := Dict.mem_keys_of_get hnode
      rw [hkey, hkey] at hrel'
      exact hrel' ▸ hmem

/-- The manifest of a tree describes the contents of its covered paths. -/
theorem describes_manifestOf {P : Platform} {key : String → String} (hkey : ∀ k, key k = k)
    {s : Surface} (side : Side) (root : Root key) {rel : String} (hcover : s.covers P rel = true)
    (hhash : ∀ bytes, root.file rel = some bytes → s.hashes bytes.length = true) :
    Describes P (root.file rel) ((manifestOf P s side root).get rel) := by
  have hlists := Root.lists_iff hkey root rel
  rw [get_manifestOf]
  cases hget : root.get rel with
  | none =>
    rw [if_neg fun hin => by simpa [hget] using hlists.mp hin.1, Root.file, hget]
    trivial
  | some node =>
    rw [if_pos ⟨hlists.mpr ⟨node, hget⟩, hcover⟩]
    cases node with
    | file bytes mtimeNs mode =>
      have hfile : root.file rel = some bytes := by rw [Root.file, hget]; rfl
      rw [hfile]
      exact ⟨rfl, rfl, by simp only [hhash bytes hfile, if_true]⟩
    | link target =>
      rw [Root.file, hget]
      trivial
    | other =>
      rw [Root.file, hget]
      trivial

theorem get_manifestOf_uncovered {P : Platform} {key : String → String} {s : Surface}
    (side : Side) (root : Root key) {rel : String} (hcover : ¬ s.covers P rel = true) :
    (manifestOf P s side root).get rel = none := by
  rw [get_manifestOf, if_neg fun h => hcover h.2]

section Plan
variable {P : Platform} {env : Env P} {a : PreflightArgs} {base : String → Option Bytes}
  {L : Root P.localKey} {R : Root P.remoteKey}

theorem Merging.localKey (h : Merging env a base L R) (k : String) : P.localKey k = k := by
  simp [Platform.localKey, h.localCase]

theorem Merging.remoteKey (h : Merging env a base L R) (k : String) : P.remoteKey k = k := by
  simp [Platform.remoteKey, h.remoteCase]

/-- The two manifests of planning. -/
def localManifestOf (P : Platform) (a : PreflightArgs) (L : Root P.localKey) : Manifest :=
  manifestOf P a.surface .controller L

def remoteManifestOf (P : Platform) (a : PreflightArgs) (R : Root P.remoteKey) : Manifest :=
  manifestOf P a.surface .target R

def planOf (P : Platform) (a : PreflightArgs) (L : Root P.localKey) (R : Root P.remoteKey) :
    List ClassifiedPath :=
  compareManifests (localManifestOf P a L) (remoteManifestOf P a R) a.prevLocal a.prevRemote

theorem Merging.describesLocal (h : Merging env a base L R) {rel : String}
    (hcover : a.surface.covers P rel = true) :
    Describes P (L.file rel) ((localManifestOf P a L).get rel) :=
  describes_manifestOf h.localKey _ L hcover fun bytes => h.hashedLocal rel bytes hcover

theorem Merging.describesRemote (h : Merging env a base L R) {rel : String}
    (hcover : a.surface.covers P rel = true) :
    Describes P (R.file rel) ((remoteManifestOf P a R).get rel) :=
  describes_manifestOf h.remoteKey _ R hcover fun bytes => h.hashedRemote rel bytes hcover

/-- Every item of the plan is of a covered path and fits its contents. -/
theorem Merging.plan_fits (h : Merging env a base L R) {item : ClassifiedPath}
    (hitem : item ∈ planOf P a L R) :
    a.surface.covers P item.path = true ∧
      Fits (base item.path) (L.file item.path) (R.file item.path) item.action := by
  have hclass := mem_compareManifests.mp hitem
  by_cases hcover : a.surface.covers P item.path = true
  · refine ⟨hcover, classify_fits h.collisionFree ?_ ?_ ?_ (h.describesLocal hcover)
      (h.describesRemote hcover) (h.baseline item.path) hclass⟩
    · exact fun bytes hbytes => ⟨item.path, Or.inr (Or.inl hbytes)⟩
    · exact fun bytes hbytes => ⟨item.path, Or.inr (Or.inr hbytes)⟩
    · exact fun bytes hbytes => ⟨item.path, Or.inl hbytes⟩
  · rw [localManifestOf, remoteManifestOf, get_manifestOf_uncovered _ _ hcover,
      get_manifestOf_uncovered _ _ hcover] at hclass
    simp [classify] at hclass

theorem Merging.plan_covers (h : Merging env a base L R) {rel : String}
    (hcover : a.surface.covers P rel = true) :
    (∃ item ∈ planOf P a L R, item.path = rel) ∨ (L.file rel = none ∧ R.file rel = none) := by
  cases hclass : classify rel ((localManifestOf P a L).get rel) ((remoteManifestOf P a R).get rel)
      (a.prevLocal.isSome && a.prevRemote.isSome) (prevEntry a.prevLocal rel)
      (prevEntry a.prevRemote rel) with
  | none => exact Or.inr (classify_isSome (h.describesLocal hcover) (h.describesRemote hcover) hclass)
  | some item =>
    have hpath := classify_path hclass
    refine Or.inl ⟨item, mem_compareManifests.mpr ?_, hpath⟩
    rw [hpath]
    exact hclass

theorem fits_merge {b l r : Option Bytes} {action : Action} (h : Fits b l r action)
    (hno : action ≠ .abortConflict) : merge3 b l r ≠ none := by
  intro hnone
  obtain ⟨h1, h2, h3⟩ := merge3_eq_none.mp hnone
  cases action with
  | none => exact h1 h
  | push => exact h3 h.2
  | pull => exact h2 h.2
  | deleteLocal => exact h2 h.2.2
  | deleteRemote => exact h3 h.2.2
  | abortConflict => exact hno rfl

/-- The conflicts are the covered paths without a merge. -/
theorem Merging.mem_conflicts (h : Merging env a base L R) {rel : String} :
    rel ∈ (planConflicts (planOf P a L R)).map ClassifiedPath.path ↔
      a.surface.covers P rel = true ∧ merge3 (base rel) (L.file rel) (R.file rel) = none := by
  rw [List.mem_map]
  constructor
  · rintro ⟨item, hitem, rfl⟩
    obtain ⟨hplan, hact⟩ := List.mem_filter.mp hitem
    obtain ⟨hcover, hfits⟩ := h.plan_fits hplan
    rw [of_decide_eq_true hact] at hfits
    exact ⟨hcover, hfits⟩
  · rintro ⟨hcover, hmerge⟩
    rcases h.plan_covers hcover with ⟨item, hitem, rfl⟩ | ⟨hl, hr⟩
    · refine ⟨item, List.mem_filter.mpr ⟨hitem, ?_⟩, rfl⟩
      by_contra hact
      exact fits_merge (h.plan_fits hitem).2 (by simpa using hact) hmerge
    · rw [hl, hr] at hmerge
      exact absurd rfl (merge3_eq_none.mp hmerge).1

/-! ## Planning -/

/-- The trees are these. -/
def Still (L : Root P.localKey) (R : Root P.remoteKey) (w : World P) : Prop :=
  w.localRoot = L ∧ w.remoteRoot = R

theorem steady_still (h : env.Quiet) : Steady env (Still L R) := steady_of_quiet h fun _ _ hw => hw

variable {E : Fault → World P → Prop}

theorem still_node {w : World P} (hw : Still L R w) (rel : String) :
    w.node .controller rel = L.get rel ∧ w.node .target rel = R.get rel := by
  obtain ⟨rfl, rfl⟩ := hw
  exact ⟨rfl, rfl⟩

theorem Merging.returns_localManifest (h : Merging env a base L R) :
    Returns (Still L R) E (buildManifest env a.surface .controller) (localManifestOf P a L) := by
  refine returns_buildManifest (steady_still h.calm.toQuiet) h.calm.excuses ?_ ?_ ?_
  · rintro w ⟨rfl, _⟩
    rfl
  · exact fun w rel hw => (still_node hw rel).1
  · obtain ⟨files, rfl⟩ := h.localDir
    exact fun _ heq => nomatch heq

theorem Merging.returns_remoteManifest (h : Merging env a base L R) :
    Returns (Still L R) E (buildManifest env a.surface .target) (remoteManifestOf P a R) := by
  refine returns_buildManifest (steady_still h.calm.toQuiet) h.calm.excuses ?_ ?_ ?_
  · rintro w ⟨_, rfl⟩
    rfl
  · exact fun w rel hw => (still_node hw rel).2
  · exact fun heq => nomatch heq

theorem returns_remoteRootPresent (hcalm : env.Calm) (hdir : ∃ files, R = .directory files) :
    Returns (Still L R) E (remoteRootPresent env) true := by
  have hlook : Returns (Still L R) (fun _ _ => False) (remoteRootExists env) true := by
    refine returns_look (steady_still hcalm.toQuiet) hcalm.excuses fun w hw => ?_
    obtain ⟨files, rfl⟩ := hdir
    rw [hw.2]
  exact triple_tryCatch hlook fun _ _ hfalse => hfalse.elim

theorem returns_probeGone {suspect : Bool} {present : M P Bool}
    (h : Returns (Still L R) E present true) :
    Returns (Still L R) E (probeGone suspect present) false := by
  unfold probeGone
  split
  · exact returns_map h
  · exact returns_pure _

theorem Merging.returns_vanishedRoot (h : Merging env a base L R)
    (localManifest remoteManifest : Manifest) :
    Returns (Still L R) E (vanishedRoot env a localManifest remoteManifest) none := by
  have hlocal : Returns (Still L R) E (localRootExists env) true := by
    refine returns_look (steady_still h.calm.toQuiet) h.calm.excuses fun w hw => ?_
    obtain ⟨files, rfl⟩ := h.localDir
    rw [hw.1]
  unfold vanishedRoot
  split
  · refine returns_bind (returns_probeGone (returns_remoteRootPresent h.calm h.remoteDir)) ?_
    rw [if_neg (by simp)]
    refine returns_bind (returns_probeGone hlocal) ?_
    rw [if_neg (by simp)]
    exact returns_pure _
  · exact returns_pure _

/-- No conflict is disproved: its two contents have different digests. -/
theorem Merging.returns_survives (h : Merging env a base L R) {item : ClassifiedPath}
    (hitem : item ∈ planConflicts (planOf P a L R)) :
    Returns (Still L R) E
      (survives env (localManifestOf P a L) (remoteManifestOf P a R) item) true := by
  have hmem : item.path ∈ (planConflicts (planOf P a L R)).map ClassifiedPath.path :=
    List.mem_map_of_mem hitem
  obtain ⟨hcover, hmerge⟩ := h.mem_conflicts.mp hmem
  obtain ⟨hdiffer, _⟩ := merge3_eq_none.mp hmerge
  have hl := h.describesLocal hcover
  have hr := h.describesRemote hcover
  unfold survives
  split
  · exact returns_pure _
  · split
    · rename_i le re hle hre
      rw [hle] at hl
      rw [hre] at hr
      split
      · exact returns_pure _
      · cases hx : L.file item.path with
        | none =>
          rw [hx] at hl
          exact hl.elim
        | some x =>
          cases hy : R.file item.path with
          | none =>
            rw [hy] at hr
            exact hr.elim
          | some y =>
            rw [hx] at hl
            rw [hy] at hr
            have hsha : P.sha256 x ≠ P.sha256 y := by
              intro heq
              have hxy := h.collisionFree x y ⟨_, Or.inr (Or.inl hx)⟩ ⟨_, Or.inr (Or.inr hy)⟩ heq
              exact hdiffer (by rw [hx, hy, hxy])
            rw [hl.2.2, hr.2.2]
            refine returns_bind (b := some (P.sha256 x, P.sha256 y)) (returns_expected ?_) ?_
            · refine returns_bind (returns_orHash (digest_ne_empty (P.sha256_digest x))) ?_
              refine returns_bind (returns_orHash (digest_ne_empty (P.sha256_digest y))) ?_
              exact returns_pure _
            · have htext : (P.sha256 x).toList ≠ (P.sha256 y).toList :=
                fun heq => hsha (String.toList_inj.mp heq)
              dsimp only
              rw [normalDigest_eq (P.sha256_digest x), normalDigest_eq (P.sha256_digest y)]
              simp only [htext, ne_eq, not_false_eq_true, decide_true, Bool.or_true]
              exact returns_pure _
    · exact returns_pure _

theorem foldl_append_singleton {α : Type} (items init : List α) :
    items.foldl (fun acc item => acc ++ [item]) init = init ++ items := by
  induction items generalizing init with
  | nil => simp
  | cons item rest ih => rw [List.foldl_cons, ih, List.append_assoc, List.singleton_append]

theorem Merging.returns_dropIdenticalConflicts (h : Merging env a base L R) :
    Returns (Still L R) E (dropIdenticalConflicts env (localManifestOf P a L)
      (remoteManifestOf P a R) (planConflicts (planOf P a L R)))
      (planConflicts (planOf P a L R)) := by
  have hlist := foldl_append_singleton (planConflicts (planOf P a L R)) []
  rw [List.nil_append] at hlist
  have hfold : Returns (Still L R) E (dropIdenticalConflicts env (localManifestOf P a L)
      (remoteManifestOf P a R) (planConflicts (planOf P a L R)))
      ((planConflicts (planOf P a L R)).foldl (fun acc item => acc ++ [item]) []) := by
    refine returns_foldlM fun acc item hitem => ?_
    refine returns_bind (h.returns_survives hitem) ?_
    rw [if_pos rfl]
    exact returns_pure _
  rwa [hlist] at hfold

/-- Without exact inclusions, a fallback or case-insensitive names nothing else is refused. -/
theorem Merging.settlePlan_eq (h : Merging env a base L R) (result : ReconcileResult)
    (plan : List ClassifiedPath) : settlePlan a P result plan = .ready result plan := by
  have hitems : plan.map (bootstrapItem a result.localManifest result.remoteManifest) =
      plan.map Except.ok := by
    refine List.map_congr_left fun item _ => ?_
    rw [bootstrapItem, if_pos (by rw [h.noInclude]; exact List.not_mem_nil)]
  have hok : okItems (plan.map Except.ok) = plan := by
    simp [okItems, List.filterMap_map]
  have hrefused : refusedItems (plan.map Except.ok) = [] := by
    simp [refusedItems, List.filterMap_map]
  have hfallback : localMutations a plan = [] := by
    simp [localMutations, h.ordinary]
  have hcollide : (plannedCollisions P result.localManifest result.remoteManifest plan).rows = [] := by
    simp only [plannedCollisions, h.localCase, h.remoteCase, Bool.false_eq_true, if_false,
      List.append_nil]
    rfl
  unfold settlePlan
  dsimp only
  rw [hitems, hrefused, if_neg (by simp), hok, hfallback, if_neg (by simp), hcollide,
    if_neg (by simp)]

/-- The outcome of planning. -/
def plannedOf (P : Platform) (a : PreflightArgs) (L : Root P.localKey) (R : Root P.remoteKey) :
    Planned :=
  let result := ReconcileResult.ofManifests (localManifestOf P a L) (remoteManifestOf P a R)
  if planConflicts (planOf P a L R) = [] then .ready result (planOf P a L R)
  else .refused { result with conflicts := planConflicts (planOf P a L R) }

theorem Merging.returns_planReconcile (h : Merging env a base L R) :
    Returns (Still L R) E (planReconcile env a) (plannedOf P a L R) := by
  refine returns_bind h.returns_localManifest ?_
  refine returns_bind h.returns_remoteManifest ?_
  refine returns_bind (h.returns_vanishedRoot _ _) ?_
  change Returns _ _ (resolvePlan env a _ (planOf P a L R)) _
  unfold resolvePlan plannedOf
  dsimp only
  split
  · rw [h.settlePlan_eq]
    exact returns_pure _
  · rename_i hconflicts
    refine returns_bind h.returns_dropIdenticalConflicts ?_
    rw [if_pos hconflicts]
    exact returns_pure _

/-! ## Applying -/

/-- Something other than a file stands where a file has to be written. -/
def BlockedAt (L : Root P.localKey) (R : Root P.remoteKey) (rel : String) : Prop :=
  ((R.file rel).isSome = true ∧ L.get rel = some .other) ∨
    ((L.file rel).isSome = true ∧ R.get rel = some .other)

/-- The paths done hold the merge on both sides, the others are as before. -/
structure Applied (base : String → Option Bytes) (L : Root P.localKey) (R : Root P.remoteKey)
    (done : List String) (w : World P) : Prop where
  localDir : ∃ files, w.localRoot = .directory files
  remoteDir : ∃ files, w.remoteRoot = .directory files
  rest : ∀ rel, rel ∉ done → w.localRoot.get rel = L.get rel ∧ w.remoteRoot.get rel = R.get rel
  merged : ∀ rel ∈ done,
    merge3 (base rel) (L.file rel) (R.file rel) = some (w.localRoot.file rel) ∧
    merge3 (base rel) (L.file rel) (R.file rel) = some (w.remoteRoot.file rel)

theorem steady_applied (h : env.Quiet) (done : List String) :
    Steady env (Applied base L R done) :=
  steady_of_quiet h fun _ _ hw => ⟨hw.localDir, hw.remoteDir, hw.rest, hw.merged⟩

/-- A path joins the done ones when both sides hold its merge and no other path changed. -/
theorem Applied.extend {done : List String} {w w' : World P} (h : Applied base L R done w)
    {rel : String} (localDir : ∃ files, w'.localRoot = .directory files)
    (remoteDir : ∃ files, w'.remoteRoot = .directory files)
    (others : ∀ rel', rel' ≠ rel → w'.localRoot.get rel' = w.localRoot.get rel' ∧
      w'.remoteRoot.get rel' = w.remoteRoot.get rel') (hfresh : rel ∉ done)
    (hleft : merge3 (base rel) (L.file rel) (R.file rel) = some (w'.localRoot.file rel))
    (hright : merge3 (base rel) (L.file rel) (R.file rel) = some (w'.remoteRoot.file rel)) :
    Applied base L R (done ++ [rel]) w' := by
  refine ⟨localDir, remoteDir, fun rel' hrel' => ?_, fun rel' hrel' => ?_⟩
  · rw [List.mem_append, not_or, List.mem_singleton] at hrel'
    obtain ⟨hl, hr⟩ := others rel' hrel'.2
    obtain ⟨hl', hr'⟩ := h.rest rel' hrel'.1
    exact ⟨hl.trans hl', hr.trans hr'⟩
  · rcases List.mem_append.mp hrel' with hdone | hself
    · obtain ⟨hl, hr⟩ := others rel' fun heq => hfresh (heq ▸ hdone)
      obtain ⟨hl', hr'⟩ := h.merged rel' hdone
      simp only [Root.file] at hl' hr' ⊢
      rw [hl, hr]
      exact ⟨hl', hr'⟩
    · rw [List.mem_singleton.mp hself]
      exact ⟨hleft, hright⟩

/-- The outcome of a raised call: something blocks a covered path. -/
def BlockedSomewhere (a : PreflightArgs) (L : Root P.localKey) (R : Root P.remoteKey)
    (_ : Fault) (_ : World P) : Prop :=
  ∃ rel, a.surface.covers P rel = true ∧ BlockedAt L R rel

theorem not_blocked {key : String → String} {root : Root key}
    (h : ∃ files, root = .directory files) : root ≠ .blocked := by
  obtain ⟨files, rfl⟩ := h
  exact fun heq => nomatch heq

section Items
variable {done : List String} {rel : String}

/-- A skipped transfer is one of equal contents. -/
theorem Merging.triple_alreadyConverged (h : Merging env a base L R)
    (hcover : a.surface.covers P rel = true) (hfresh : rel ∉ done) :
    Triple (Applied base L R done)
      (alreadyConverged env rel ((remoteManifestOf P a R).get rel))
      (fun converged w => Applied base L R done w ∧
        (converged = true → L.file rel = R.file rel)) E := by
  have hr := h.describesRemote hcover
  unfold alreadyConverged
  split
  · exact triple_pure fun w hw => ⟨hw, by simp⟩
  · rename_i entry hentry
    rw [hentry] at hr
    cases hy : R.file rel with
    | none =>
      rw [hy] at hr
      exact hr.elim
    | some y =>
      rw [hy] at hr
      rw [hr.2.2]
      dsimp only
      rw [if_neg (by simp [hr.1])]
      refine triple_bind (returns_freshLocalEntry (steady_applied h.calm.toQuiet done)
        h.calm.excuses fun w hw => (hw.rest rel hfresh).1) fun fresh => ?_
      rintro w ⟨rfl, hw⟩
      cases hget : L.get rel with
      | none => exact ⟨hw, by simp⟩
      | some node =>
        cases node with
        | link target => exact ⟨hw, by simp⟩
        | other => exact ⟨hw, by simp⟩
        | file x mtimeNs mode =>
          refine ⟨hw, fun hconverged => ?_⟩
          have hx : L.file rel = some x := by rw [Root.file, hget]; rfl
          have hsha : P.sha256 x = P.sha256 y := by
            have := of_decide_eq_true hconverged
            split at this
            · exact Option.some.inj this
            · simp at this
          rw [hx, h.collisionFree x y ⟨rel, Or.inr (Or.inl hx)⟩ ⟨rel, Or.inr (Or.inr hy)⟩ hsha]

/-- Skipping leaves the merge where the contents are equal. -/
theorem Applied.skip {w : World P} (hw : Applied base L R done w) (hfresh : rel ∉ done)
    (heq : L.file rel = R.file rel) : Applied base L R (done ++ [rel]) w := by
  obtain ⟨hl, hr⟩ := hw.rest rel hfresh
  refine hw.extend hw.localDir hw.remoteDir (fun _ _ => ⟨rfl, rfl⟩) hfresh ?_ ?_
  · rw [merge3_same heq, Root.file, Root.file, hl]
  · rw [merge3_same heq, heq, Root.file, Root.file, hr]

theorem Merging.triple_backup (h : Merging env a base L R)
    (hcover : a.surface.covers P rel = true) (hfresh : rel ∉ done) (maxBytes : Nat)
    (hneed : (R.file rel).isSome = true ∨ (L.file rel).isSome = true) :
    Triple (Applied base L R done) (backupLocal env rel maxBytes)
      (fun _ => Applied base L R done) (BlockedSomewhere a L R) := by
  refine triple_backupLocal maxBytes (steady_applied h.calm.toQuiet done) h.calm.excuses
    (fun w hw => (hw.rest rel hfresh).1)
    (fun w area hw => ⟨hw.localDir, hw.remoteDir, hw.rest, hw.merged⟩) ?_
  intro hother w _
  rcases hneed with hneed | hneed
  · exact ⟨rel, hcover, Or.inl ⟨hneed, hother⟩⟩
  · obtain ⟨bytes, hbytes⟩ := Option.isSome_iff_exists.mp hneed
    exact absurd hother (get_of_file hbytes).2

theorem Merging.triple_pull (h : Merging env a base L R)
    (hcover : a.surface.covers P rel = true) (hfresh : rel ∉ done) {bytes : Bytes}
    (hbytes : R.file rel = some bytes) (hbase : L.file rel = base rel) :
    Triple (Applied base L R done) (pullFile env rel)
      (fun _ => Applied base L R (done ++ [rel])) (BlockedSomewhere a L R) := by
  refine triple_pullFile (steady_applied h.calm.toQuiet done) h.calm.excuses h.calm.excuses
    bytes ?_ (fun w hw => not_blocked hw.localDir) ?_ ?_
  · intro w hw
    rw [(hw.rest rel hfresh).2]
    exact (get_of_file hbytes).1
  · intro w hw hother
    rw [(hw.rest rel hfresh).1] at hother
    exact ⟨rel, hcover, Or.inl ⟨by rw [hbytes]; rfl, hother⟩⟩
  · intro n w root hw _ hreplaced
    refine hw.extend hreplaced.directory hw.remoteDir (fun rel' hne => ⟨?_, rfl⟩) hfresh ?_ ?_
    · exact hreplaced.others rel' (by rw [h.localKey, h.localKey]; exact hne)
    · rw [merge3_takes_right hbase, hbytes, Root.file, hreplaced.self]
      rfl
    · rw [merge3_takes_right hbase, Root.file, Root.file, (hw.rest rel hfresh).2]

theorem Merging.triple_push (h : Merging env a base L R)
    (hcover : a.surface.covers P rel = true) (hfresh : rel ∉ done) {bytes : Bytes}
    (hbytes : L.file rel = some bytes) (hbase : R.file rel = base rel) :
    Triple (Applied base L R done) (pushFile env rel)
      (fun _ => Applied base L R (done ++ [rel])) (BlockedSomewhere a L R) := by
  refine triple_pushFile (steady_applied h.calm.toQuiet done) h.calm.excuses h.calm.excuses
    bytes ?_ (fun w hw => not_blocked hw.remoteDir) ?_ ?_
  · intro w hw
    rw [(hw.rest rel hfresh).1]
    exact (get_of_file hbytes).1
  · intro w hw hother
    rw [(hw.rest rel hfresh).2] at hother
    exact ⟨rel, hcover, Or.inr ⟨by rw [hbytes]; rfl, hother⟩⟩
  · intro n w root hw hreplaced
    refine hw.extend hw.localDir hreplaced.directory (fun rel' hne => ⟨rfl, ?_⟩) hfresh ?_ ?_
    · exact hreplaced.others rel' (by rw [h.remoteKey, h.remoteKey]; exact hne)
    · rw [merge3_takes_left hbase, Root.file, Root.file, (hw.rest rel hfresh).1]
    · rw [merge3_takes_left hbase, hbytes, Root.file, hreplaced.self]
      rfl

theorem Merging.triple_deleteLocal (h : Merging env a base L R) (hfresh : rel ∉ done)
    {bytes : Bytes} (hbytes : L.file rel = some bytes) (hgone : R.file rel = none)
    (hbase : L.file rel = base rel) :
    Triple (Applied base L R done) (deleteLocal env rel)
      (fun _ => Applied base L R (done ++ [rel])) E := by
  refine Reconcile.triple_deleteLocal (steady_applied h.calm.toQuiet done) h.calm.excuses
    h.calm.excuses (fun w hw => hw.localDir) ?_ ?_
  · intro w hw hother
    rw [(hw.rest rel hfresh).1] at hother
    exact absurd hother (get_of_file hbytes).2
  · intro w root hw hreplaced
    refine hw.extend hreplaced.directory hw.remoteDir (fun rel' hne => ⟨?_, rfl⟩) hfresh ?_ ?_
    · exact hreplaced.others rel' (by rw [h.localKey, h.localKey]; exact hne)
    · rw [merge3_takes_right hbase, hgone, Root.file, hreplaced.self]
      rfl
    · rw [merge3_takes_right hbase, Root.file, Root.file, (hw.rest rel hfresh).2]

theorem Merging.triple_deleteRemote (h : Merging env a base L R) (hfresh : rel ∉ done)
    {bytes : Bytes} (hbytes : R.file rel = some bytes) (hgone : L.file rel = none)
    (hbase : R.file rel = base rel) :
    Triple (Applied base L R done) (deleteRemote env rel)
      (fun _ => Applied base L R (done ++ [rel])) E := by
  refine Reconcile.triple_deleteRemote (steady_applied h.calm.toQuiet done) h.calm.excuses
    h.calm.excuses (fun w hw => hw.remoteDir) ?_ ?_
  · intro w hw hother
    rw [(hw.rest rel hfresh).2] at hother
    exact absurd hother (get_of_file hbytes).2
  · intro w root hw hreplaced
    refine hw.extend hw.localDir hreplaced.directory (fun rel' hne => ⟨rfl, ?_⟩) hfresh ?_ ?_
    · exact hreplaced.others rel' (by rw [h.remoteKey, h.remoteKey]; exact hne)
    · rw [merge3_takes_left hbase, Root.file, Root.file, (hw.rest rel hfresh).1]
    · rw [merge3_takes_left hbase, hgone, Root.file, hreplaced.self]
      rfl

/-- One round of the apply loop. -/
theorem Merging.triple_applyItem (h : Merging env a base L R) {item : ClassifiedPath}
    (hitem : item ∈ planOf P a L R) (hact : item.action ≠ .none)
    (hno : item.action ≠ .abortConflict) (hfresh : item.path ∉ done) (acc : ReconcileResult) :
    Triple (Applied base L R done) (applyItem env a (remoteManifestOf P a R) acc item)
      (fun acc' w => acc'.conflicts = acc.conflicts ∧ Applied base L R (done ++ [item.path]) w)
      (BlockedSomewhere a L R) := by
  obtain ⟨hcover, hfits⟩ := h.plan_fits hitem
  unfold applyItem
  cases haction : item.action with
  | none => exact absurd haction hact
  | abortConflict => exact absurd haction hno
  | pull =>
    rw [haction] at hfits
    obtain ⟨bytes, hbytes⟩ := Option.isSome_iff_exists.mp hfits.1
    refine triple_bind (h.triple_alreadyConverged hcover hfresh) fun converged => ?_
    refine triple_of_pure_right fun hskip => ?_
    split
    · rename_i hconverged
      exact triple_pure fun w hw => ⟨rfl, hw.skip hfresh (hskip hconverged)⟩
    · refine triple_bind (h.triple_backup hcover hfresh _ (Or.inl hfits.1)) fun _ => ?_
      refine triple_bind (h.triple_pull hcover hfresh hbytes hfits.2) fun _ => ?_
      exact triple_pure fun w hw => ⟨rfl, hw⟩
  | push =>
    rw [haction] at hfits
    obtain ⟨bytes, hbytes⟩ := Option.isSome_iff_exists.mp hfits.1
    refine triple_bind (h.triple_alreadyConverged hcover hfresh) fun converged => ?_
    refine triple_of_pure_right fun hskip => ?_
    split
    · rename_i hconverged
      exact triple_pure fun w hw => ⟨rfl, hw.skip hfresh (hskip hconverged)⟩
    · refine triple_bind (h.triple_push hcover hfresh hbytes hfits.2) fun _ => ?_
      exact triple_pure fun w hw => ⟨rfl, hw⟩
  | deleteLocal =>
    rw [haction] at hfits
    obtain ⟨bytes, hbytes⟩ := Option.isSome_iff_exists.mp hfits.1
    refine triple_bind (h.triple_backup hcover hfresh _ (Or.inr hfits.1)) fun _ => ?_
    refine triple_bind (h.triple_deleteLocal hfresh hbytes hfits.2.1 hfits.2.2) fun _ => ?_
    exact triple_pure fun w hw => ⟨rfl, hw⟩
  | deleteRemote =>
    rw [haction] at hfits
    obtain ⟨bytes, hbytes⟩ := Option.isSome_iff_exists.mp hfits.1
    refine triple_bind (h.triple_deleteRemote hfresh hbytes hfits.2.1 hfits.2.2) fun _ => ?_
    exact triple_pure fun w hw => ⟨rfl, hw⟩

end Items

/-! ## The whole call -/

/-- Both sides hold the merge at every covered path. -/
structure Merged (a : PreflightArgs) (base : String → Option Bytes) (L : Root P.localKey)
    (R : Root P.remoteKey) (w : World P) : Prop where
  localDir : ∃ files, w.localRoot = .directory files
  remoteDir : ∃ files, w.remoteRoot = .directory files
  merge : ∀ rel, a.surface.covers P rel = true →
    merge3 (base rel) (L.file rel) (R.file rel) = some (w.localRoot.file rel) ∧
    merge3 (base rel) (L.file rel) (R.file rel) = some (w.remoteRoot.file rel)

theorem Merging.triple_applyPlan (h : Merging env a base L R)
    (hclean : planConflicts (planOf P a L R) = []) {result : ReconcileResult}
    (hresult : result.conflicts = []) :
    Triple (Still L R) (applyPlan env a (remoteManifestOf P a R) result (planOf P a L R))
      (fun applied w => applied.conflicts = [] ∧ Merged a base L R w) (BlockedSomewhere a L R) := by
  refine (triple_foldlM (fun done (acc : ReconcileResult) w => acc.conflicts = [] ∧
    Applied base L R (done.map ClassifiedPath.path) w) ?_).conseq ?_ ?_ fun _ _ => id
  · intro done item rest acc hsplit
    have hmem : item ∈ (planOf P a L R).filter fun item => item.action ≠ .none := by
      rw [hsplit]
      exact List.mem_append_right _ List.mem_cons_self
    obtain ⟨hitem, hact⟩ := List.mem_filter.mp hmem
    have hno : item.action ≠ .abortConflict := by
      intro habort
      have : item ∈ planConflicts (planOf P a L R) :=
        List.mem_filter.mpr ⟨hitem, by simp [habort]⟩
      rw [hclean] at this
      exact absurd this List.not_mem_nil
    have hnodup : ((done ++ item :: rest).map ClassifiedPath.path).Nodup := by
      rw [← hsplit]
      exact (compareManifests_nodup _ _ _ _).sublist (List.filter_sublist.map _)
    have hfresh : item.path ∉ done.map ClassifiedPath.path := by
      rw [List.map_append, List.nodup_append] at hnodup
      exact fun hin => hnodup.2.2 _ hin _ List.mem_cons_self rfl
    refine triple_of_pure fun hacc => ?_
    refine (h.triple_applyItem hitem (by simpa using hact) hno hfresh acc).post fun acc' w hw => ?_
    rw [List.map_append]
    exact ⟨hw.1.trans hacc, hw.2⟩
  · rintro w ⟨rfl, rfl⟩
    exact ⟨hresult, h.localDir, h.remoteDir, fun _ _ => ⟨rfl, rfl⟩,
      fun _ hrel => absurd hrel List.not_mem_nil⟩
  · rintro applied w ⟨hconflicts, hw⟩
    refine ⟨hconflicts, hw.localDir, hw.remoteDir, fun rel hcover => ?_⟩
    by_cases hdone : rel ∈ ((planOf P a L R).filter fun item => item.action ≠ .none).map
        ClassifiedPath.path
    · exact hw.merged rel hdone
    · obtain ⟨hl, hr⟩ := hw.rest rel hdone
      have heq : L.file rel = R.file rel := by
        rcases h.plan_covers hcover with ⟨item, hitem, rfl⟩ | ⟨hl, hr⟩
        · have hnone : item.action = .none := by
            by_contra hact
            exact hdone (List.mem_map_of_mem (List.mem_filter.mpr ⟨hitem, by simpa using hact⟩))
          have hfits := (h.plan_fits hitem).2
          rw [hnone] at hfits
          exact hfits
        · rw [hl, hr]
      rw [merge3_same heq]
      exact ⟨by rw [Root.file, Root.file, hl], by rw [heq, Root.file, Root.file, hr]⟩

/-- A merged pair passes the final verification. -/
theorem Merging.hashesAgree_merged (h : Merging env a base L R) {w : World P}
    (hw : Merged a base L R w) {rel : String}
    (hrel : rel ∈ unionPaths (localManifestOf P a w.localRoot)
      (remoteManifestOf P a w.remoteRoot)) :
    ∃ left right, (localManifestOf P a w.localRoot).get rel = some left ∧
      (remoteManifestOf P a w.remoteRoot).get rel = some right ∧ hashesAgree left right = true := by
  have hcover : a.surface.covers P rel = true := by
    by_contra hno
    rw [mem_unionPaths, localManifestOf, remoteManifestOf, get_manifestOf_uncovered _ _ hno,
      get_manifestOf_uncovered _ _ hno] at hrel
    simp at hrel
  obtain ⟨hl, hr⟩ := hw.merge rel hcover
  have hsame : w.localRoot.file rel = w.remoteRoot.file rel :=
    Option.some.inj (hl.symm.trans hr)
  have hhash : ∀ bytes, w.localRoot.file rel = some bytes →
      a.surface.hashes bytes.length = true := by
    intro bytes hbytes
    rcases merge3_mem hl with hfrom | hfrom
    · exact h.hashedLocal rel bytes hcover (hfrom.symm.trans hbytes)
    · exact h.hashedRemote rel bytes hcover (hfrom.symm.trans hbytes)
  have hleft : Describes P (w.localRoot.file rel) ((localManifestOf P a w.localRoot).get rel) :=
    describes_manifestOf h.localKey _ _ hcover hhash
  have hright : Describes P (w.remoteRoot.file rel)
      ((remoteManifestOf P a w.remoteRoot).get rel) :=
    describes_manifestOf h.remoteKey _ _ hcover fun bytes hbytes => hhash bytes (hsame.trans hbytes)
  rw [← hsame] at hright
  cases hbytes : w.localRoot.file rel with
  | none =>
    rw [hbytes] at hleft hright
    rw [mem_unionPaths] at hrel
    rcases hrel with ⟨entry, hentry⟩ | ⟨entry, hentry⟩
    · rw [hentry] at hleft
      exact hleft.elim
    · rw [hentry] at hright
      exact hright.elim
  | some bytes =>
    rw [hbytes] at hleft hright
    cases hle : (localManifestOf P a w.localRoot).get rel with
    | none =>
      rw [hle] at hleft
      exact hleft.elim
    | some left =>
      cases hre : (remoteManifestOf P a w.remoteRoot).get rel with
      | none =>
        rw [hre] at hright
        exact hright.elim
      | some right =>
        rw [hle] at hleft
        rw [hre] at hright
        refine ⟨left, right, rfl, rfl, ?_⟩
        simp [hashesAgree, hleft.1, hleft.2.1, hleft.2.2, hright.1, hright.2.1, hright.2.2]

theorem Merging.triple_verifyFinal (h : Merging env a base L R) (planned : Manifest × Manifest)
    {applied : ReconcileResult} (happlied : applied.conflicts = []) :
    Triple (Merged a base L R) (verifyFinal env a planned applied)
      (fun result w => result.conflicts = [] ∧ Merged a base L R w) E := by
  intro w hw
  have hstill : Steady env (Still w.localRoot w.remoteRoot) := steady_still h.calm.toQuiet
  have hlocal : Returns (Still w.localRoot w.remoteRoot) E (buildManifest env a.surface .controller)
      (localManifestOf P a w.localRoot) := by
    refine returns_buildManifest hstill h.calm.excuses ?_ (fun w' rel hw' => (still_node hw' rel).1) ?_
    · rintro w' ⟨hroot, _⟩
      change w'.localRoot.listing = _
      rw [hroot]
    · obtain ⟨files, hfiles⟩ := hw.localDir
      rw [hfiles]
      exact fun _ heq => nomatch heq
  have hremote : Returns (Still w.localRoot w.remoteRoot) E (buildManifest env a.surface .target)
      (remoteManifestOf P a w.remoteRoot) := by
    refine returns_buildManifest hstill h.calm.excuses ?_ (fun w' rel hw' => (still_node hw' rel).2) ?_
    · rintro w' ⟨_, hroot⟩
      change w'.remoteRoot.listing = _
      rw [hroot]
    · exact fun heq => nomatch heq
  have hgone : Returns (Still w.localRoot w.remoteRoot) E
      (rootGone env planned.2 (remoteManifestOf P a w.remoteRoot)) false := by
    refine returns_bind (b := true) (returns_look hstill h.calm.excuses fun w' hw' => ?_) ?_
    · obtain ⟨files, hfiles⟩ := hw.localDir
      rw [hw'.1, hfiles]
    · rw [if_pos rfl]
      exact returns_probeGone (returns_remoteRootPresent h.calm hw.remoteDir)
  have hall : Returns (Still w.localRoot w.remoteRoot) E (verifyFinal env a planned applied)
      (applied.rebased (localManifestOf P a w.localRoot) (remoteManifestOf P a w.remoteRoot)
        false) := by
    refine returns_bind hlocal (returns_bind hremote (returns_bind hgone ?_))
    refine returns_foldlM_const fun rel hrel => ?_
    obtain ⟨left, right, hleft, hright, hagree⟩ := h.hashesAgree_merged hw hrel
    have hpass : verifyPath env a planned applied.touched
        (applied.rebased (localManifestOf P a w.localRoot) (remoteManifestOf P a w.remoteRoot)
          false) rel = pure (applied.rebased (localManifestOf P a w.localRoot)
            (remoteManifestOf P a w.remoteRoot) false) := by
      simp only [verifyPath, ReconcileResult.rebased, hleft, hright, if_pos hagree]
    rw [hpass]
    exact returns_pure _
  have hpost : Triple (Still w.localRoot w.remoteRoot) (verifyFinal env a planned applied)
      (fun result w' => result.conflicts = [] ∧ Merged a base L R w') E := by
    refine hall.post ?_
    rintro result w' ⟨rfl, hl, hr⟩
    exact ⟨happlied, by rw [hl]; exact hw.localDir, by rw [hr]; exact hw.remoteDir,
      by rw [hl, hr]; exact hw.merge⟩
  exact hpost w ⟨rfl, rfl⟩

/-- Where both roots exist, making the remote one changes nothing. -/
theorem Merging.triple_ensureRemoteDir (h : Merging env a base L R) :
    Triple (Still L R) (ensureRemoteDir env) (fun _ => Still L R) E := by
  refine triple_act (steady_still h.calm.toQuiet) h.calm.excuses h.calm.excuses ?_
  rintro n w ⟨hl, hr⟩
  obtain ⟨files, hfiles⟩ := h.remoteDir
  rw [hr, hfiles]
  exact ⟨hl, rfl⟩

/-- The two ways a call ends: with the merge in both trees, or with the conflicts and both
trees as they were. -/
structure MergeOutcome (a : PreflightArgs) (base : String → Option Bytes) (L : Root P.localKey)
    (R : Root P.remoteKey) (result : ReconcileResult) (w : World P) : Prop where
  merged : result.conflicts = [] → ∀ rel, a.surface.covers P rel = true →
    w.localRoot.file rel = w.remoteRoot.file rel ∧
    merge3 (base rel) (L.file rel) (R.file rel) = some (w.localRoot.file rel)
  refused : result.conflicts ≠ [] →
    (∀ rel, rel ∈ result.conflicts.map ClassifiedPath.path ↔
      a.surface.covers P rel = true ∧ L.file rel ≠ R.file rel ∧ L.file rel ≠ base rel ∧
        R.file rel ≠ base rel) ∧ w.localRoot = L ∧ w.remoteRoot = R

theorem Merging.triple_preflight (h : Merging env a base L R) :
    Triple (Still L R) (preflightReconcile env a) (MergeOutcome a base L R)
      (BlockedSomewhere a L R) := by
  refine triple_bind h.returns_planReconcile fun outcome => triple_of_pure ?_
  rintro rfl
  by_cases hclean : planConflicts (planOf P a L R) = []
  · rw [show plannedOf P a L R = .ready (.ofManifests (localManifestOf P a L)
      (remoteManifestOf P a R)) (planOf P a L R) from if_pos hclean]
    refine triple_bind h.triple_ensureRemoteDir fun _ => ?_
    refine triple_bind (h.triple_applyPlan hclean rfl) fun applied => triple_of_pure ?_
    intro happlied
    refine (h.triple_verifyFinal _ happlied).post ?_
    rintro result w ⟨hresult, hw⟩
    refine ⟨fun _ rel hcover => ?_, fun hne => absurd hresult hne⟩
    obtain ⟨hl, hr⟩ := hw.merge rel hcover
    exact ⟨Option.some.inj (hl.symm.trans hr), hl⟩
  · rw [show plannedOf P a L R = .refused { ReconcileResult.ofManifests (localManifestOf P a L)
      (remoteManifestOf P a R) with conflicts := planConflicts (planOf P a L R) } from
        if_neg hclean]
    refine triple_pure fun w hw => ⟨fun hnil => absurd hnil hclean, fun _ => ⟨fun rel => ?_, hw⟩⟩
    rw [← merge3_eq_none]
    exact h.mem_conflicts

end Plan

/-! ## A concrete merge -/

/-- `f` was changed on the target, `g` on the controller. -/
def divergedArgs : PreflightArgs where
  surface := ⟨[], [], 10⟩
  prevLocal := some ((Dict.empty.set "f" ⟨"f", "file", 1, 5, some (sampleSha256 [97]), none⟩).set
    "g" ⟨"g", "file", 1, 5, some (sampleSha256 [97]), none⟩)
  prevRemote := some ((Dict.empty.set "f" ⟨"f", "file", 1, 5, some (sampleSha256 [97]), none⟩).set
    "g" ⟨"g", "file", 1, 5, some (sampleSha256 [97]), none⟩)
  backupBelowBytes := 0
  isFallback := false

def divergedBase (rel : String) : Option Bytes := if rel = "f" ∨ rel = "g" then some [97] else none

def divergedWorld : World (samplePlatform false) :=
  .ofTrees _ [("f", .file [97] 5 420), ("g", .file [98] 6 420)]
    [("f", .file [98] 6 420), ("g", .file [97] 5 420)]

theorem diverged_get (rel : String) :
    (divergedWorld.localRoot.get rel = if rel = "g" then some (.file [98] 6 420) else
      if rel = "f" then some (.file [97] 5 420) else none) ∧
    (divergedWorld.remoteRoot.get rel = if rel = "g" then some (.file [97] 5 420) else
      if rel = "f" then some (.file [98] 6 420) else none) := by
  have hlocal : ∀ k, (samplePlatform false).localKey k = k := fun _ => rfl
  have hremote : ∀ k, (samplePlatform false).remoteKey k = k := fun _ => rfl
  constructor <;>
    simp only [divergedWorld, World.ofTrees, ofNodes, List.foldl, Root.get, Dict.get_set,
      Dict.get_empty, hlocal, hremote]

theorem diverged_occurs {bytes : Bytes}
    (h : Occurs divergedBase divergedWorld.localRoot divergedWorld.remoteRoot bytes) :
    bytes = [97] ∨ bytes = [98] := by
  obtain ⟨rel, h | h | h⟩ := h
  · unfold divergedBase at h
    split_ifs at h
    simp_all
  · rw [Root.file, (diverged_get rel).1] at h
    split_ifs at h <;> simp_all [Node.fileBytes]
  · rw [Root.file, (diverged_get rel).2] at h
    split_ifs at h <;> simp_all [Node.fileBytes]

theorem diverged_merging : Merging (calmEnv (samplePlatform false)) divergedArgs divergedBase
    divergedWorld.localRoot divergedWorld.remoteRoot where
  calm := calmEnv_calm _
  localCase := rfl
  remoteCase := rfl
  noInclude := rfl
  ordinary := rfl
  localDir := ⟨_, rfl⟩
  remoteDir := ⟨_, rfl⟩
  hashedLocal := by
    intro rel bytes _ hfile
    rcases diverged_occurs ⟨rel, Or.inr (Or.inl hfile)⟩ with rfl | rfl <;> rfl
  hashedRemote := by
    intro rel bytes _ hfile
    rcases diverged_occurs ⟨rel, Or.inr (Or.inr hfile)⟩ with rfl | rfl <;> rfl
  baseline := by
    intro rel
    change Describes _ _ (((Dict.empty.set "f" _).set "g" _).get rel) ∧
      Describes _ _ (((Dict.empty.set "f" _).set "g" _).get rel)
    simp only [Dict.get_set, Dict.get_empty, id_eq]
    unfold divergedBase
    by_cases hg : rel = "g"
    · rw [if_pos hg, if_pos (Or.inr hg)]
      exact ⟨⟨rfl, rfl, rfl⟩, ⟨rfl, rfl, rfl⟩⟩
    · by_cases hf : rel = "f"
      · rw [if_neg hg, if_pos hf, if_pos (Or.inl hf)]
        exact ⟨⟨rfl, rfl, rfl⟩, ⟨rfl, rfl, rfl⟩⟩
      · rw [if_neg hg, if_neg hf, if_neg (not_or.mpr ⟨hf, hg⟩)]
        exact ⟨trivial, trivial⟩
  collisionFree := by
    intro x y hx hy hsha
    rcases diverged_occurs hx with rfl | rfl <;> rcases diverged_occurs hy with rfl | rfl
    · rfl
    · exact absurd hsha (by decide +kernel)
    · exact absurd hsha (by decide +kernel)
    · rfl

end Remrun.Reconcile
