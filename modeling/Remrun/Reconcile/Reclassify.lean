import Remrun.Reconcile.Listed

/-!
# Planning again

The item of a path against a content-equal baseline, and what planning finds when nobody else
writes: a function of what the two trees list.
-/

namespace Remrun.Reconcile

open Keyed Effect
set_option autoImplicit false

/-! ## The item of a path -/

/-- The loop bodies of `compare_manifests` and `classify_sync`. -/
def SyncArgs.classifyAt (a : SyncArgs) (rel : String) (le re : Option FileEntry) :
    Option ClassifiedPath :=
  match a.baseline with
  | some prev => classify rel le re true (prev.1.get rel) (prev.2.get rel)
  | none => classifySyncPath a.winner rel le re

/-- Both sides of the baseline list the same contents. -/
def ContentEqual (left right : Manifest) : Prop :=
  ∀ rel, match left.get rel, right.get rel with
    | some l, some r => entriesContentSame l r = true
    | none, none => True
    | _, _ => False

def SyncArgs.PrevEqual (a : SyncArgs) : Prop :=
  ∀ prev, a.prev = some prev → ContentEqual prev.1 prev.2

section Items
variable {a : SyncArgs} {localManifest remoteManifest : Manifest} {item : ClassifiedPath}
  {rel : String} {le re : FileEntry}

theorem mem_classified : item ∈ a.classified localManifest remoteManifest ↔
    a.classifyAt item.path (localManifest.get item.path) (remoteManifest.get item.path) =
      some item := by
  unfold SyncArgs.classified SyncArgs.classifyAt
  cases a.baseline with
  | some prev => exact mem_compareManifests
  | none =>
    unfold classifySync
    rw [List.mem_filterMap]
    constructor
    · rintro ⟨path, _, h⟩
      rw [classifySyncPath_path h]
      exact h
    · intro h
      refine ⟨item.path, mem_unionPaths.mpr ?_, h⟩
      cases hl : localManifest.get item.path with
      | some entry => exact Or.inl ⟨entry, rfl⟩
      | none =>
        cases hr : remoteManifest.get item.path with
        | some entry => exact Or.inr ⟨entry, rfl⟩
        | none =>
          rw [hl, hr] at h
          cases h

/-- What the action of an item says about the two entries it was made from. -/
def ClassifiedPath.Concerns (item : ClassifiedPath) (le re : Option FileEntry) : Prop :=
  match item.action with
  | .pull => re.isSome = true
  | .push => le.isSome = true
  | .deleteLocal => le.isSome = true ∧ re = none
  | .deleteRemote => le = none ∧ re.isSome = true
  | .abortConflict | .none => True

theorem classifyAt_concerns {le re : Option FileEntry} (h : a.classifyAt rel le re = some item) :
    item.Concerns le re := by
  unfold SyncArgs.classifyAt at h
  cases hbase : a.baseline with
  | some prev =>
    rw [hbase] at h
    cases le with
    | some le =>
      cases re with
      | some re =>
        obtain rfl := Option.some.inj h
        unfold classifyBoth
        dsimp only
        split
        · split <;> trivial
        · split
          · rfl
          · split
            · rfl
            · trivial
      | none =>
        obtain rfl := Option.some.inj h
        unfold classifyLocal
        split
        · split
          · trivial
          · exact ⟨rfl, rfl⟩
        · rfl
    | none =>
      cases re with
      | some re =>
        obtain rfl := Option.some.inj h
        unfold classifyRemote
        split
        · split
          · trivial
          · exact ⟨rfl, rfl⟩
        · rfl
      | none => cases h
  | none =>
    rw [hbase] at h
    dsimp only at h
    unfold classifySyncPath at h
    split at h
    · split at h
      · obtain rfl := Option.some.inj h
        trivial
      · split at h
        · obtain rfl := Option.some.inj h
          rfl
        · obtain rfl := Option.some.inj h
          trivial
        · obtain rfl := Option.some.inj h
          rfl
    · obtain rfl := Option.some.inj h
      rfl
    · obtain rfl := Option.some.inj h
      rfl
    · cases h

theorem classifyAt_path {le re : Option FileEntry} (h : a.classifyAt rel le re = some item) :
    item.path = rel := by
  unfold SyncArgs.classifyAt at h
  split at h
  · exact classify_path h
  · exact classifySyncPath_path h

theorem entriesContentSame_eq_true : entriesContentSame le re = true ↔
    le.kind = re.kind ∧ le.size = re.size ∧ ∃ digest, le.sha256 = some digest ∧
      re.sha256 = some digest := by
  simp only [entriesContentSame, Bool.and_eq_true, decide_eq_true_eq, Option.isSome_iff_exists]
  constructor
  · rintro ⟨⟨⟨hkind, hsize⟩, digest, hdigest⟩, hsame⟩
    exact ⟨hkind, hsize, digest, hdigest, hsame ▸ hdigest⟩
  · rintro ⟨hkind, hsize, digest, hle, hre⟩
    exact ⟨⟨⟨hkind, hsize⟩, digest, hle⟩, hle.trans hre.symm⟩

/-- Entries with digests are the same if their contents are. -/
theorem entriesSame_of_content (h : entriesContentSame le re = true) :
    entriesSame (some le) (some re) = true := by
  obtain ⟨hkind, hsize, digest, hle, hre⟩ := entriesContentSame_eq_true.mp h
  exact entriesSame_some.mpr ⟨hkind, hsize, Or.inl ⟨digest, hle, hre⟩⟩

theorem content_of_entriesSame {digest digest' : String}
    (h : entriesSame (some le) (some re) = true) (hle : le.sha256 = some digest) (hre : re.sha256 = some digest') :
    entriesContentSame le re = true := by
  obtain ⟨hkind, hsize, -⟩ := entriesSame_some.mp h
  exact entriesContentSame_eq_true.mpr ⟨hkind, hsize, digest, hle,
    by rw [hre, entriesSame_digest h hle hre]⟩

theorem entriesContentSame_trans {x y z : FileEntry} (h : entriesContentSame x y = true)
    (h' : entriesContentSame y z = true) : entriesContentSame x z = true := by
  obtain ⟨hkind, hsize, digest, hx, hy⟩ := entriesContentSame_eq_true.mp h
  obtain ⟨hkind', hsize', digest', hy', hz⟩ := entriesContentSame_eq_true.mp h'
  refine entriesContentSame_eq_true.mpr ⟨hkind.trans hkind', hsize.trans hsize', digest, hx, ?_⟩
  rw [hz, ← hy', hy]

theorem entriesContentSame_symm (h : entriesContentSame le re = true) :
    entriesContentSame re le = true := by
  obtain ⟨hkind, hsize, digest, hle, hre⟩ := entriesContentSame_eq_true.mp h
  exact entriesContentSame_eq_true.mpr ⟨hkind.symm, hsize.symm, digest, hre, hle⟩

/-- Against a content-equal baseline, equal contents changed on both sides or on none. -/
theorem changedSince_content {prev : Manifest × Manifest} (hprev : ContentEqual prev.1 prev.2)
    (rel : String) (h : entriesContentSame le re = true) :
    changedSince (prev.1.get rel) (some le) = changedSince (prev.2.get rel) (some re) := by
  have hrel := hprev rel
  obtain ⟨_, _, digest, hle, hre⟩ := entriesContentSame_eq_true.mp h
  cases hpl : prev.1.get rel with
  | none =>
    cases hpr : prev.2.get rel with
    | none => rfl
    | some pr =>
      rw [hpl, hpr] at hrel
      exact hrel.elim
  | some pl =>
    cases hpr : prev.2.get rel with
    | none =>
      rw [hpl, hpr] at hrel
      exact hrel.elim
    | some pr =>
      rw [hpl, hpr] at hrel
      obtain ⟨_, _, old, hold, hold'⟩ := entriesContentSame_eq_true.mp hrel
      unfold changedSince
      congr 1
      rw [Bool.eq_iff_iff]
      constructor
      · intro hsame
        exact entriesSame_of_content (entriesContentSame_trans (entriesContentSame_symm hrel)
          (entriesContentSame_trans (content_of_entriesSame hsame hold hle) h))
      · intro hsame
        exact entriesSame_of_content (entriesContentSame_trans hrel
          (entriesContentSame_trans (content_of_entriesSame hsame hold' hre)
            (entriesContentSame_symm h)))

theorem prevEqual_baseline (h : a.PrevEqual) {prev : Manifest × Manifest}
    (hbase : a.baseline = some prev) : ContentEqual prev.1 prev.2 := by
  unfold SyncArgs.baseline at hbase
  split at hbase
  · exact h prev hbase
  · cases hbase

/-- Equal contents are settled whatever the baseline says. -/
theorem classifyAt_content (hprev : a.PrevEqual) (rel : String)
    (h : entriesContentSame le re = true) :
    ∃ item, a.classifyAt rel (some le) (some re) = some item ∧ item.action = .none := by
  unfold SyncArgs.classifyAt
  cases hbase : a.baseline with
  | some prev =>
    have hchanged := changedSince_content (prevEqual_baseline hprev hbase) rel h
    refine ⟨_, rfl, ?_⟩
    unfold classifyBoth
    dsimp only
    rw [hchanged]
    cases changedSince (prev.2.get rel) (some re) with
    | true => simp [h]
    | false => simp
  | none =>
    refine ⟨⟨rel, .same, .none, "identical content"⟩, ?_, rfl⟩
    obtain ⟨_, hsize, digest, hle, hre⟩ := entriesContentSame_eq_true.mp h
    simp [classifySyncPath, sameContent, hsize, hle, hre]

/-- What is missing on the controller gets an action. -/
theorem classifyAt_remoteOnly (a : SyncArgs) (rel : String) (re : FileEntry) :
    ∃ item, a.classifyAt rel none (some re) = some item ∧ item.action ≠ .none := by
  unfold SyncArgs.classifyAt
  split
  · refine ⟨_, rfl, ?_⟩
    unfold classifyRemote
    split
    · split <;> rintro ⟨⟩
    · rintro ⟨⟩
  · refine ⟨_, rfl, ?_⟩
    rintro ⟨⟩

/-- A remote file that was pulled and has no digest gets an action, whatever stands beside it. -/
theorem classifyAt_unhashed (hprev : a.PrevEqual) {before : Option FileEntry}
    (hpull : a.classifyAt rel before (some re) = some item) (haction : item.action = .pull)
    (hsha : re.sha256 = none) (le : FileEntry) :
    ∃ item, a.classifyAt rel (some le) (some re) = some item ∧ item.action ≠ .none := by
  have hcontent : entriesContentSame le re = false := by
    rw [← Bool.not_eq_true, entriesContentSame_eq_true]
    rintro ⟨_, _, digest, _, hre⟩
    rw [hsha] at hre
    cases hre
  unfold SyncArgs.classifyAt at hpull ⊢
  cases hbase : a.baseline with
  | some prev =>
    rw [hbase] at hpull
    -- the pull says that the remote file changed since the baseline
    have hchanged : changedSince (prev.2.get rel) (some re) = true := by
      cases before with
      | some le₀ =>
        obtain rfl := Option.some.inj hpull
        unfold classifyBoth at haction
        dsimp only at haction
        cases hremote : changedSince (prev.2.get rel) (some re) with
        | true => rfl
        | false =>
          rw [hremote] at haction
          cases hlocal : changedSince (prev.1.get rel) (some le₀) <;> simp [hlocal] at haction
      | none =>
        obtain rfl := Option.some.inj hpull
        unfold classifyRemote at haction
        split at haction
        · split at haction <;> cases haction
        · rename_i hno
          have hrel := prevEqual_baseline hprev hbase rel
          have hnone : prev.1.get rel = none := by simpa using hno
          rw [hnone] at hrel
          cases hpr : prev.2.get rel with
          | none => rfl
          | some pr =>
            rw [hpr] at hrel
            exact hrel.elim
    refine ⟨_, rfl, ?_⟩
    unfold classifyBoth
    dsimp only
    rw [hchanged, hcontent]
    cases changedSince (prev.1.get rel) (some le) <;> simp
  | none =>
    dsimp only
    have hno : sameContent le re = false := by
      unfold sameContent
      rw [hsha]
      split
      · rfl
      · cases le.sha256 <;> rfl
    unfold classifySyncPath
    simp only [hno, Bool.false_eq_true, if_false]
    cases a.winner <;> refine ⟨_, rfl, ?_⟩ <;> rintro ⟨⟩

theorem classified_sorted (a : SyncArgs) (localManifest remoteManifest : Manifest) :
    (a.classified localManifest remoteManifest).Pairwise fun x y => x.path ≤ y.path := by
  have hsub : ((a.classified localManifest remoteManifest).map ClassifiedPath.path).Sublist
      (unionPaths localManifest remoteManifest) := by
    unfold SyncArgs.classified
    split
    · exact paths_filterMap_sublist (fun _ _ => classify_path) _
    · exact paths_filterMap_sublist (fun _ _ => classifySyncPath_path) _
  have hsorted : (unionPaths localManifest remoteManifest).Pairwise (· ≤ ·) :=
    List.pairwise_insertionSort _ _
  exact List.pairwise_map.mp (hsorted.sublist hsub)

/-- Plans in the order of their paths are equal if they have the same items. -/
theorem plan_ext {plan plan' : List ClassifiedPath}
    (hnodup : (plan.map ClassifiedPath.path).Nodup)
    (hnodup' : (plan'.map ClassifiedPath.path).Nodup)
    (hsorted : plan.Pairwise fun x y => x.path ≤ y.path)
    (hsorted' : plan'.Pairwise fun x y => x.path ≤ y.path)
    (hmem : ∀ item, item ∈ plan ↔ item ∈ plan') : plan = plan' := by
  have hperm : plan.Perm plan' :=
    (List.perm_ext_iff_of_nodup (List.Nodup.of_map _ hnodup) (List.Nodup.of_map _ hnodup')).mpr hmem
  refine hperm.eq_of_pairwise (fun x y hx hy hxy hyx => ?_) hsorted hsorted'
  exact List.inj_on_of_nodup_map hnodup hx ((hmem y).mpr hy) (le_antisymm hxy hyx)

end Items

/-! ## Planning when nobody else writes -/

section Planning
variable {P : Platform} {env : Env P} {a : SyncArgs} {w w' : World P} {seen : Observed}

/-- The manifests of the two trees. -/
def SyncArgs.seenOf (a : SyncArgs) (w : World P) : Observed :=
  (manifestOf P a.surface .controller w.localRoot, manifestOf P a.surface .target w.remoteRoot)

def SyncArgs.planOf (a : SyncArgs) (w : World P) : List ClassifiedPath :=
  a.toApply (a.seenOf w).1 (a.seenOf w).2

/-- The trees are those of `w`. -/
def SameTrees (w w' : World P) : Prop :=
  w'.localRoot = w.localRoot ∧ w'.remoteRoot = w.remoteRoot

theorem steady_sameTrees (hquiet : env.Quiet) : Steady env (SameTrees w) :=
  steady_of_quiet hquiet fun _ _ h => h

theorem excuses_true (env : Env P) {I : World P → Prop} : Excuses env I fun _ _ => True :=
  fun _ _ _ _ => trivial

theorem returns_seenOf {E : Fault → World P → Prop} (hquiet : env.Quiet)
    (hE : Excuses env (SameTrees w) E)
    (hblocked : w.localRoot = .blocked → ∀ fault w', E fault w') :
    Returns (SameTrees w) E (buildManifest env a.surface .controller) (a.seenOf w).1 ∧
      Returns (SameTrees w) E (buildManifest env a.surface .target) (a.seenOf w).2 := by
  constructor
  · refine returns_buildManifest (steady_sameTrees hquiet) hE (fun w' h => ?_) (fun w' rel h => ?_)
      fun _ hroot fault w' _ => hblocked hroot fault w'
    · rw [World.listing, h.1]
    · rw [World.node, h.1]
  · refine returns_buildManifest (steady_sameTrees hquiet) hE (fun w' h => ?_) (fun w' rel h => ?_)
      (by rintro ⟨⟩)
    · rw [World.listing, h.2]
    · rw [World.node, h.2]

/-- A controller's root that cannot be scanned ends planning. -/
theorem buildManifest_blocked (hquiet : env.Quiet) (hblocked : w.localRoot = .blocked) :
    Triple (SameTrees w) (buildManifest env a.surface .controller) (fun _ _ => False)
      fun _ _ => True := by
  refine triple_bind (returns_inspect (steady_sameTrees hquiet) (excuses_true env) (v := .blocked)
    fun w' h => ?_) fun listing => ?_
  · rw [World.listing, h.1, hblocked]
    rfl
  · rintro w' ⟨rfl, _⟩
    trivial

/-- What planning in a quiet environment found. -/
structure PlannedFrom (P : Platform) (a : SyncArgs) (w : World P) (seen : Observed) (w' : World P) :
    Prop where
  seen : seen = a.seenOf w
  trees : SameTrees w w'
  scanned : w.localRoot ≠ .blocked
  present : ∀ prev, a.baseline = some prev → prev.1.rows ≠ [] → (a.seenOf w).1.rows = [] →
    w.localRoot ≠ .missing
  distinct : (plannedCollisions P (a.seenOf w).1 (a.seenOf w).2 (a.planOf w)).rows = []

theorem planSync_quiet (hquiet : env.Quiet) (h : planSync env a w = .ok (.ok seen) w') :
    PlannedFrom P a w seen w' := by
  obtain ⟨w₀, w₁, w₂, hprobe, hleft, hright, hgone, hcollide⟩ := planSync_ok h
  have hsteady : Steady env (SameTrees w) := steady_sameTrees hquiet
  have hprobed : SameTrees w w₀ := by
    have hreading : Reading env (syncProbe env a) := by
      unfold syncProbe
      split
      · exact reading_pure _
      · refine reading_tryCatch (reading_look _) fun fault => ?_
        cases fault <;> first | exact reading_pure _ | exact reading_throw _
    exact Triple.ok (hreading _ hsteady) ⟨rfl, rfl⟩ hprobe
  have hmanifests := returns_seenOf (a := a) (w := w) hquiet (excuses_true env)
    fun _ _ _ => trivial
  obtain ⟨hseen₁, htrees₁⟩ := Triple.ok hmanifests.1 hprobed hleft
  obtain ⟨hseen₂, htrees₂⟩ := Triple.ok hmanifests.2 htrees₁ hright
  have hseen : seen = a.seenOf w := Prod.ext hseen₁ hseen₂
  subst hseen
  refine ⟨rfl, Triple.ok (reading_localVanished _ _ hsteady) htrees₂ hgone, fun hblocked => ?_,
    fun prev hbase hrows hempty hmissing => ?_, hcollide⟩
  · exact Triple.ok (buildManifest_blocked hquiet hblocked) hprobed hleft
  · unfold localVanished at hgone
    rw [hbase] at hgone
    have hsuspect : decide (prev.1.rows ≠ [] ∧ (a.seenOf w).1.rows = []) = true :=
      decide_eq_true ⟨hrows, hempty⟩
    dsimp only at hgone
    rw [hsuspect] at hgone
    have hlook : Returns (SameTrees w) (fun _ _ => True) (probeGone true (localRootExists env))
        true := by
      refine returns_map (returns_look hsteady (excuses_true env) (v := false) fun w' htrees => ?_)
      rw [htrees.1, hmissing]
    exact absurd (Triple.ok hlook htrees₂ hgone).1 (by decide)

theorem casefoldCollisions_of_distinct {paths : List String} (h : Distinct P.casefold paths) :
    casefoldCollisions P paths = [] := by
  unfold casefoldCollisions
  rw [List.filterMap_eq_nil_iff]
  intro folded _
  refine if_neg ?_
  have hsame : ∀ x ∈ sortPaths (paths.filter fun path => P.casefold path = folded),
      ∀ y ∈ sortPaths (paths.filter fun path => P.casefold path = folded), x = y := by
    intro x hx y hy
    obtain ⟨hx, hfold⟩ := List.mem_filter.mp (mem_sortPaths.mp hx)
    obtain ⟨hy, hfold'⟩ := List.mem_filter.mp (mem_sortPaths.mp hy)
    exact h x hx y hy ((of_decide_eq_true hfold).trans (of_decide_eq_true hfold').symm)
  have hnodup := sortPaths_nodup (paths.filter fun path => P.casefold path = folded)
  intro hlength
  match hgroup : sortPaths (paths.filter fun path => P.casefold path = folded) with
  | [] =>
    rw [hgroup] at hlength
    simp at hlength
  | [x] =>
    rw [hgroup] at hlength
    simp at hlength
  | x :: y :: rest =>
    rw [hgroup] at hsame hnodup
    refine (List.nodup_cons.mp hnodup).1 ?_
    rw [hsame x List.mem_cons_self y (List.mem_cons_of_mem _ List.mem_cons_self)]
    exact List.mem_cons_self

/-- A plan that transfers nothing writes no file under two names. -/
theorem plannedCollisions_nil {localManifest remoteManifest : Manifest}
    {plan : List ClassifiedPath} (hlocal : Distinct P.localKey localManifest.keys)
    (hremote : Distinct P.remoteKey remoteManifest.keys) (hpull : pathsFor .pull plan = [])
    (hpush : pathsFor .push plan = []) :
    (plannedCollisions P localManifest remoteManifest plan).rows = [] := by
  have hguard : ∀ {insensitive : Bool} {key : String → String} {paths : List String},
      key = (if insensitive then P.casefold else id) → Distinct key paths →
      (if insensitive then casefoldCollisions P paths else []) = [] := by
    intro insensitive key paths hkey hdistinct
    subst hkey
    cases insensitive with
    | true => exact casefoldCollisions_of_distinct hdistinct
    | false => rfl
  unfold plannedCollisions
  rw [hpull, hpush, List.append_nil, List.append_nil, hguard rfl hlocal, hguard rfl hremote]
  rfl

theorem distinct_manifestOf {s : Surface} {side : Side} {key : String → String} (root : Root key) :
    Distinct key (manifestOf P s side root).keys := by
  have hlists : ∀ rel ∈ (manifestOf P s side root).keys, root.Lists rel := by
    intro rel hrel
    obtain ⟨entry, hget⟩ := mem_keys_iff.mp hrel
    obtain ⟨_, bytes, mtimeNs, mode, hlisted, _⟩ := listed_of_manifestOf hget
    exact (Root.listed_eq_some.mp hlisted).1
  exact fun p hp q hq hkey => Root.lists_unique (hlists p hp) (hlists q hq) hkey

/-- Without failures the call plans, unless it has to refuse. -/
theorem planSync_returns (hcalm : env.Calm) (hboth : a.direction = .both)
    (hmissing : w.remoteRoot ≠ .missing) (hscanned : w.localRoot ≠ .blocked)
    (hpresent : ∀ prev, a.baseline = some prev → prev.1.rows ≠ [] → (a.seenOf w).1.rows = [] →
      w.localRoot ≠ .missing)
    (hdistinct : (plannedCollisions P (a.seenOf w).1 (a.seenOf w).2 (a.planOf w)).rows = []) :
    ∃ w', planSync env a w = .ok (.ok (a.seenOf w)) w' := by
  have hsteady : Steady env (SameTrees w) := steady_sameTrees hcalm.toQuiet
  have hexcuses : Excuses env (SameTrees w) fun _ _ => False := hcalm.excuses
  have hmanifests := returns_seenOf (a := a) hcalm.toQuiet hexcuses
    fun hblocked => absurd hblocked hscanned
  have hprobe : Returns (SameTrees w) (fun _ _ => False) (syncProbe env a) true := by
    unfold syncProbe
    rw [if_neg (by rw [hboth]; decide)]
    have hlook : Returns (SameTrees w) (fun _ _ => False) (remoteRootExists env) true := by
      refine returns_look hsteady hexcuses fun w' htrees => ?_
      rw [htrees.2]
      cases hroot : w.remoteRoot with
      | missing => exact absurd hroot hmissing
      | blocked => rfl
      | directory files => rfl
    exact triple_tryCatch hlook fun _ _ hfalse => hfalse.elim
  have hremote : Returns (SameTrees w) (fun _ _ => False)
      (transported (buildManifest env a.surface .target)) (some (a.seenOf w).2) :=
    triple_tryCatch (returns_map hmanifests.2) fun _ _ hfalse => hfalse.elim
  have hgone : Returns (SameTrees w) (fun _ _ => False) (localVanished env a (a.seenOf w).1)
      false := by
    unfold localVanished
    cases hbase : a.baseline with
    | none => exact returns_pure _
    | some prev =>
      dsimp only
      unfold probeGone
      by_cases hsuspect : prev.1.rows ≠ [] ∧ (a.seenOf w).1.rows = []
      · rw [if_pos (by simpa using hsuspect)]
        refine returns_map (b := true) (returns_look hsteady hexcuses fun w' htrees => ?_)
        rw [htrees.1]
        cases hroot : w.localRoot with
        | missing => exact absurd hroot (hpresent prev hbase hsuspect.1 hsuspect.2)
        | blocked => rfl
        | directory files => rfl
      · rw [if_neg (by simpa using hsuspect)]
        exact returns_pure _
  have hplan : Returns (SameTrees w) (fun _ _ => False) (planSync env a) (.ok (a.seenOf w)) := by
    refine returns_bind hprobe (returns_bind hmanifests.1 (returns_bind hremote ?_))
    refine returns_bind hgone ?_
    rw [if_neg (by decide)]
    exact (if_neg (not_not.mpr hdistinct) : _ = _) ▸ returns_pure _
  obtain ⟨planned, w', hrun, rfl, _⟩ := Triple.returns hplan ⟨rfl, rfl⟩
  exact ⟨w', hrun⟩

end Planning

end Remrun.Reconcile
