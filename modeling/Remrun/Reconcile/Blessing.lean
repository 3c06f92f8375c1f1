import Remrun.Reconcile.Interference
import Remrun.Reconcile.Refusals

/-!
# The baseline of a synchronization

What the baseline of `run_sync_result` says, path by path, and when its two sides agree.
After a push the plan is from one remote manifest and the baseline from a later one, so the
paths that stand in both must not have been written in between.
-/

namespace Remrun.Reconcile

open Keyed Effect
set_option autoImplicit false

/-- The two sides list the same paths with equal digests. -/
structure Alike (left right : Manifest) : Prop where
  same : ∀ rel, digestAt left rel = digestAt right rel
  hashed : ∀ rel, digestAt left rel ≠ some none

/-- Every entry carries a digest. -/
def AllHashed (manifest : Manifest) : Prop :=
  ∀ rel entry, manifest.get rel = some entry → ∃ digest, entry.sha256 = some digest

theorem Alike.left {left right : Manifest} (h : Alike left right) : AllHashed left := by
  intro rel entry hget
  have hdigest := h.hashed rel
  rw [digestAt, hget] at hdigest
  cases hsha : entry.sha256 with
  | none => exact absurd (congrArg some hsha) hdigest
  | some digest => exact ⟨digest, rfl⟩

theorem Alike.right {left right : Manifest} (h : Alike left right) : AllHashed right := by
  intro rel entry hget
  have hdigest := h.hashed rel
  rw [h.same, digestAt, hget] at hdigest
  cases hsha : entry.sha256 with
  | none => exact absurd (congrArg some hsha) hdigest
  | some digest => exact ⟨digest, rfl⟩

/-! ## What an item says about the two manifests -/

/-- What the action of an item says about the manifests it was planned from. -/
def ClassifiedPath.Fits (localManifest remoteManifest : Manifest) (item : ClassifiedPath) : Prop :=
  match item.action with
  | .none => digestAt localManifest item.path = digestAt remoteManifest item.path
  | .pull => (remoteManifest.get item.path).isSome = true
  | .push => (localManifest.get item.path).isSome = true
  | .deleteLocal => remoteManifest.get item.path = none
  | .deleteRemote => localManifest.get item.path = none ∧
      (remoteManifest.get item.path).isSome = true
  | .abortConflict => True

theorem sameContent_digest {le re : FileEntry} (h : sameContent le re = true) :
    le.sha256 = re.sha256 := by
  unfold sameContent at h
  split at h
  · simp at h
  · split at h
    · rename_i x y hx hy
      rw [hx, hy, of_decide_eq_true h]
    · simp at h

/-- AllHashed entries that are the same have one digest. -/
theorem entriesSame_digest {a b : FileEntry} {x y : String} (h : entriesSame (some a) (some b) = true)
    (ha : a.sha256 = some x) (hb : b.sha256 = some y) : x = y := by
  obtain ⟨_, _, ⟨z, hz, hz'⟩ | ⟨hnone | hnone, _⟩⟩ := entriesSame_some.mp h
  · exact Option.some.inj ((ha.symm.trans hz).trans (hz'.symm.trans hb))
  · simp [ha] at hnone
  · simp [hb] at hnone

section Facts
variable {localManifest remoteManifest : Manifest} {item : ClassifiedPath}

theorem classifyBoth_fits {path : String} {le re : FileEntry} {prevLocal prevRemote : Manifest}
    (hprev : Alike prevLocal prevRemote) (hleft : AllHashed localManifest)
    (hright : AllHashed remoteManifest) (hle : localManifest.get path = some le)
    (hre : remoteManifest.get path = some re) :
    (classifyBoth path le re (prevLocal.get path) (prevRemote.get path)).Fits localManifest
      remoteManifest := by
  have hdigest : le.sha256 = re.sha256 →
      digestAt localManifest path = digestAt remoteManifest path := by
    intro h
    rw [digestAt, digestAt, hle, hre, Option.map_some, Option.map_some, h]
  unfold classifyBoth
  dsimp only
  split
  · split
    · rename_i hsame
      refine hdigest ?_
      simp only [entriesContentSame, Bool.and_eq_true, decide_eq_true_eq] at hsame
      exact hsame.2
    · trivial
  · split
    · simp only [ClassifiedPath.Fits, hle]
      rfl
    · split
      · simp only [ClassifiedPath.Fits, hre]
        rfl
      · rename_i hlocal hremote
        refine hdigest ?_
        simp only [changedSince, Bool.not_eq_true', Bool.not_eq_false] at hlocal hremote
        cases hpl : prevLocal.get path with
        | none =>
          rw [hpl] at hlocal
          simp [entriesSame] at hlocal
        | some pl =>
          cases hpr : prevRemote.get path with
          | none =>
            rw [hpr] at hremote
            simp [entriesSame] at hremote
          | some pr =>
            obtain ⟨x, hx⟩ := hprev.left path pl hpl
            obtain ⟨y, hy⟩ := hprev.right path pr hpr
            obtain ⟨u, hu⟩ := hleft path le hle
            obtain ⟨v, hv⟩ := hright path re hre
            have hxy : x = y := by
              have hsame := hprev.same path
              rw [digestAt, digestAt, hpl, hpr, Option.map_some, Option.map_some, hx, hy] at hsame
              exact Option.some.inj (Option.some.inj hsame)
            rw [hpl] at hlocal
            rw [hpr] at hremote
            rw [hu, hv, ← entriesSame_digest hlocal hx hu, hxy, entriesSame_digest hremote hy hv]

theorem compareManifests_fits {prev : Manifest × Manifest} (hprev : Alike prev.1 prev.2)
    (hleft : AllHashed localManifest) (hright : AllHashed remoteManifest)
    (hitem : item ∈ compareManifests localManifest remoteManifest (some prev.1) (some prev.2)) :
    item.Fits localManifest remoteManifest := by
  have hclassify := mem_compareManifests.mp hitem
  simp only [prevEntry, Option.bind_some, Option.isSome_some, Bool.and_self] at hclassify
  cases hle : localManifest.get item.path with
  | some le =>
    cases hre : remoteManifest.get item.path with
    | some re =>
      rw [hle, hre] at hclassify
      simp only [classify, if_true] at hclassify
      rw [← Option.some.inj hclassify]
      exact classifyBoth_fits hprev hleft hright hle hre
    | none =>
      rw [hle, hre] at hclassify
      simp only [classify, classifyLocal] at hclassify
      rw [← Option.some.inj hclassify]
      split
      · split
        · trivial
        · exact hre
      · simp only [ClassifiedPath.Fits, hle]
        rfl
  | none =>
    cases hre : remoteManifest.get item.path with
    | some re =>
      rw [hle, hre] at hclassify
      simp only [classify, classifyRemote] at hclassify
      rw [← Option.some.inj hclassify]
      split
      · split
        · trivial
        · simp only [ClassifiedPath.Fits, hle, hre]
          exact ⟨trivial, rfl⟩
      · simp only [ClassifiedPath.Fits, hre]
        rfl
    | none =>
      rw [hle, hre] at hclassify
      simp [classify] at hclassify

theorem classifySyncPath_path {authority : SyncAuthority} {path : String}
    {le re : Option FileEntry} (h : classifySyncPath authority path le re = some item) :
    item.path = path := by
  unfold classifySyncPath at h
  split at h
  · split at h
    · rw [← Option.some.inj h]
    · split at h <;> rw [← Option.some.inj h]
  · rw [← Option.some.inj h]
  · rw [← Option.some.inj h]
  · simp at h

theorem classifySync_fits {authority : SyncAuthority}
    (hitem : item ∈ classifySync authority localManifest remoteManifest) :
    item.Fits localManifest remoteManifest := by
  obtain ⟨path, _, hclassify⟩ := List.mem_filterMap.mp hitem
  unfold classifySyncPath at hclassify
  split at hclassify
  · rename_i le re hle hre
    split at hclassify
    · rename_i hsame
      rw [← Option.some.inj hclassify]
      simp only [ClassifiedPath.Fits, digestAt, hle, hre, Option.map_some,
        sameContent_digest hsame]
    · split at hclassify <;> rw [← Option.some.inj hclassify] <;>
        simp [ClassifiedPath.Fits, hle, hre]
  · rename_i re hle hre
    rw [← Option.some.inj hclassify]
    simp [ClassifiedPath.Fits, hre]
  · rename_i le hle hre
    rw [← Option.some.inj hclassify]
    simp [ClassifiedPath.Fits, hle]
  · simp at hclassify

theorem classifySync_nodup (authority : SyncAuthority) (localManifest remoteManifest : Manifest) :
    ((classifySync authority localManifest remoteManifest).map ClassifiedPath.path).Nodup :=
  (sortPaths_nodup _).sublist (paths_filterMap_sublist (fun _ _ => classifySyncPath_path) _)

theorem classified_nodup (a : SyncArgs) (localManifest remoteManifest : Manifest) :
    ((a.classified localManifest remoteManifest).map ClassifiedPath.path).Nodup := by
  unfold SyncArgs.classified
  split
  · exact compareManifests_nodup _ _ _ _
  · exact classifySync_nodup _ _ _

/-- The stored baseline is content-equal. -/
def SyncArgs.PrevAlike (a : SyncArgs) : Prop := ∀ prev, a.prev = some prev → Alike prev.1 prev.2

theorem baseline_alike {a : SyncArgs} (h : a.PrevAlike) {prev : Manifest × Manifest}
    (hprev : a.baseline = some prev) : Alike prev.1 prev.2 := by
  unfold SyncArgs.baseline at hprev
  split at hprev
  · exact h prev hprev
  · simp at hprev

theorem classified_fits {a : SyncArgs} (hprev : a.PrevAlike) (hleft : AllHashed localManifest)
    (hright : AllHashed remoteManifest) (hitem : item ∈ a.classified localManifest remoteManifest) :
    item.Fits localManifest remoteManifest := by
  unfold SyncArgs.classified at hitem
  split at hitem
  · rename_i prev hbase
    exact compareManifests_fits (baseline_alike hprev hbase) hleft hright hitem
  · exact classifySync_fits hitem

/-- Every path of the two manifests has an item. -/
theorem exists_classified (a : SyncArgs) {rel : String}
    (h : rel ∈ unionPaths localManifest remoteManifest) :
    ∃ item ∈ a.classified localManifest remoteManifest, item.path = rel := by
  have hsome : ∀ le re, localManifest.get rel = le → remoteManifest.get rel = re →
      le.isSome = true ∨ re.isSome = true := by
    rintro le re rfl rfl
    rcases mem_unionPaths.mp h with ⟨entry, hget⟩ | ⟨entry, hget⟩
    · exact Or.inl (by rw [hget]; rfl)
    · exact Or.inr (by rw [hget]; rfl)
  unfold SyncArgs.classified
  split
  · rename_i prev hbase
    cases hclassify : classify rel (localManifest.get rel) (remoteManifest.get rel) true
        (prev.1.get rel) (prev.2.get rel) with
    | some item =>
      refine ⟨item, List.mem_filterMap.mpr ⟨rel, h, ?_⟩, classify_path hclassify⟩
      exact hclassify
    | none =>
      cases hle : localManifest.get rel <;> cases hre : remoteManifest.get rel <;>
        simp [hle, hre, classify] at hclassify
      simpa using hsome _ _ hle hre
  · cases hclassify : classifySyncPath a.winner rel (localManifest.get rel)
        (remoteManifest.get rel) with
    | some item =>
      exact ⟨item, List.mem_filterMap.mpr ⟨rel, h, hclassify⟩, classifySyncPath_path hclassify⟩
    | none =>
      unfold classifySyncPath at hclassify
      split at hclassify
      · split at hclassify
        · simp at hclassify
        · split at hclassify <;> simp at hclassify
      · simp at hclassify
      · simp at hclassify
      · rename_i hle hre
        simpa using hsome _ _ hle hre

end Facts

/-! ## The baseline, path by path -/

/-- The entry of the controller's side after an item. -/
def localAfter (remoteManifest : Manifest) (item : ClassifiedPath) (entry : Option FileEntry) :
    Option FileEntry :=
  match item.action with
  | .pull => remoteManifest.get item.path
  | .deleteLocal => none
  | _ => entry

/-- The entry of the target's side after an item. -/
def remoteAfter (localManifest : Manifest) (item : ClassifiedPath) (entry : Option FileEntry) :
    Option FileEntry :=
  match item.action with
  | .push => localManifest.get item.path
  | .deleteRemote => none
  | _ => entry

section Converged
variable {localManifest remoteManifest : Manifest} {pair pair' : Manifest × Manifest}

theorem convergedStep_ok {item : ClassifiedPath}
    (h : convergedStep localManifest remoteManifest pair item = .ok pair') (rel : String) :
    pair'.1.get rel = (if rel = item.path then localAfter remoteManifest item (pair.1.get rel)
      else pair.1.get rel) ∧
    pair'.2.get rel = if rel = item.path then remoteAfter localManifest item (pair.2.get rel)
      else pair.2.get rel := by
  unfold convergedStep at h
  unfold localAfter remoteAfter
  cases hact : item.action <;> rw [hact] at h <;> dsimp only at h ⊢
  case none => rw [← Except.ok.inj h]; simp
  case abortConflict => rw [← Except.ok.inj h]; simp
  case pull =>
    split at h
    · rename_i entry hentry
      rw [← Except.ok.inj h, Dict.get_set, hentry]
      simp
    · simp at h
  case push =>
    split at h
    · rename_i entry hentry
      rw [← Except.ok.inj h, Dict.get_set, hentry]
      simp
    · simp at h
  case deleteLocal =>
    rw [← Except.ok.inj h, Dict.get_pop]
    simp
  case deleteRemote =>
    rw [← Except.ok.inj h, Dict.get_pop]
    simp

theorem foldlM_convergedStep {items : List ClassifiedPath}
    (hnodup : (items.map ClassifiedPath.path).Nodup)
    (h : items.foldlM (convergedStep localManifest remoteManifest) pair = .ok pair') :
    (∀ item ∈ items,
      pair'.1.get item.path = localAfter remoteManifest item (pair.1.get item.path) ∧
      pair'.2.get item.path = remoteAfter localManifest item (pair.2.get item.path)) ∧
    ∀ rel, rel ∉ items.map ClassifiedPath.path →
      pair'.1.get rel = pair.1.get rel ∧ pair'.2.get rel = pair.2.get rel := by
  induction items generalizing pair with
  | nil =>
    obtain rfl : pair = pair' := Except.ok.inj h
    exact ⟨fun _ hmem => absurd hmem List.not_mem_nil, fun _ _ => ⟨rfl, rfl⟩⟩
  | cons first rest ih =>
    rw [List.foldlM_cons] at h
    cases hstep : convergedStep localManifest remoteManifest pair first with
    | error path => simp [hstep, bind, Except.bind] at h
    | ok mid =>
      simp only [hstep, bind, Except.bind] at h
      rw [List.map_cons, List.nodup_cons] at hnodup
      obtain ⟨hitems, hothers⟩ := ih hnodup.2 h
      have hmid := convergedStep_ok hstep
      refine ⟨fun item hmem => ?_, fun rel hrel => ?_⟩
      · rcases List.mem_cons.mp hmem with rfl | hmem
        · rw [(hothers _ hnodup.1).1, (hothers _ hnodup.1).2, (hmid _).1, (hmid _).2]
          simp
        · have hne : item.path ≠ first.path := fun heq =>
            hnodup.1 (heq ▸ List.mem_map_of_mem hmem)
          rw [(hitems item hmem).1, (hitems item hmem).2, (hmid _).1, (hmid _).2]
          simp [hne]
      · rw [List.map_cons, List.mem_cons, not_or] at hrel
        rw [(hothers rel hrel.2).1, (hothers rel hrel.2).2, (hmid rel).1, (hmid rel).2]
        simp [hrel.1]

/-- Where every transferred path is in the manifest it is read from, no key is missing. -/
theorem foldlM_convergedStep_ok {items : List ClassifiedPath}
    (hpull : ∀ item ∈ items, item.action = .pull → (remoteManifest.get item.path).isSome = true)
    (hpush : ∀ item ∈ items, item.action = .push → (localManifest.get item.path).isSome = true) :
    ∃ pair', items.foldlM (convergedStep localManifest remoteManifest) pair = .ok pair' := by
  induction items generalizing pair with
  | nil => exact ⟨pair, rfl⟩
  | cons first rest ih =>
    have hfirst : ∃ mid, convergedStep localManifest remoteManifest pair first = .ok mid := by
      unfold convergedStep
      cases hact : first.action <;> dsimp only
      case pull =>
        obtain ⟨entry, hentry⟩ :=
          Option.isSome_iff_exists.mp (hpull first List.mem_cons_self hact)
        rw [hentry]
        exact ⟨_, rfl⟩
      case push =>
        obtain ⟨entry, hentry⟩ :=
          Option.isSome_iff_exists.mp (hpush first List.mem_cons_self hact)
        rw [hentry]
        exact ⟨_, rfl⟩
      all_goals exact ⟨_, rfl⟩
    obtain ⟨mid, hmid⟩ := hfirst
    obtain ⟨pair', hrest⟩ := ih (fun item hmem => hpull item (List.mem_cons_of_mem _ hmem))
      (fun item hmem => hpush item (List.mem_cons_of_mem _ hmem))
    refine ⟨pair', ?_⟩
    rw [List.foldlM_cons, hmid]
    exact hrest

end Converged

/-! ## The collision guard -/

section Guard
variable {P : Platform} {localManifest remoteManifest : Manifest} {plan : List ClassifiedPath}

theorem casefoldCollisions_nil {paths : List String} (h : casefoldCollisions P paths = []) :
    Distinct P.casefold paths := by
  intro p hp q hq hfold
  by_contra hne
  have hgroup : ∀ x ∈ paths, P.casefold x = P.casefold p →
      x ∈ sortPaths (paths.filter fun path => P.casefold path = P.casefold p) := by
    intro x hx hfold
    exact mem_sortPaths.mpr (List.mem_filter.mpr ⟨hx, by simpa using hfold⟩)
  have hlength : 1 < (sortPaths (paths.filter fun path => P.casefold path = P.casefold p)).length := by
    by_contra hle
    refine hne ?_
    have hle' := Nat.le_of_not_lt hle
    cases hgroups : sortPaths (paths.filter fun path => P.casefold path = P.casefold p) with
    | nil =>
      have := hgroup p hp rfl
      rw [hgroups] at this
      exact absurd this List.not_mem_nil
    | cons x rest =>
      rw [hgroups, List.length_cons] at hle'
      obtain rfl : rest = [] := List.eq_nil_of_length_eq_zero (by omega)
      have hpx := hgroup p hp rfl
      have hqx := hgroup q hq hfold.symm
      rw [hgroups, List.mem_singleton] at hpx hqx
      rw [hpx, hqx]
  unfold casefoldCollisions at h
  rw [List.filterMap_eq_nil_iff] at h
  have hnone := h (P.casefold p) (List.mem_eraseDups.mpr (List.mem_map_of_mem hp))
  rw [if_pos hlength] at hnone
  simp at hnone

theorem foldl_set_nil {groups : List (String × List String)}
    {dict : Dict (id : String → String) (List String)}
    (h : (groups.foldl (fun dict group => dict.set group.1 group.2) dict).rows = []) :
    groups = [] := by
  have hkeep : ∀ (groups : List (String × List String))
      (dict : Dict (id : String → String) (List String)), dict.rows ≠ [] →
      (groups.foldl (fun dict group => dict.set group.1 group.2) dict).rows ≠ [] := by
    intro groups
    induction groups with
    | nil => exact fun _ h => h
    | cons group rest ih =>
      intro dict hdict
      refine ih _ fun hnil => ?_
      have hget := Dict.get_set_self dict group.1 group.2
      simp [Dict.get, hnil] at hget
  cases groups with
  | nil => rfl
  | cons group rest =>
    refine absurd h (hkeep rest _ fun hnil => ?_)
    have hget := Dict.get_set_self dict group.1 group.2
    simp [Dict.get, hnil] at hget

theorem distinct_of_guard {insensitive : Bool} {key : String → String} {paths : List String}
    (hkey : key = if insensitive then P.casefold else id)
    (h : (if insensitive then casefoldCollisions P paths else []) = []) : Distinct key paths := by
  subst hkey
  cases insensitive with
  | true => exact casefoldCollisions_nil h
  | false => exact fun _ _ _ _ heq => heq

/-- A plan that passes the guard writes no file under two names. -/
theorem distinct_of_planned (h : (plannedCollisions P localManifest remoteManifest plan).rows = []) :
    Distinct P.localKey (localManifest.keys ++ pathsFor .pull plan) ∧
      Distinct P.remoteKey (remoteManifest.keys ++ pathsFor .push plan) := by
  have hnil := List.append_eq_nil_iff.mp (foldl_set_nil h)
  exact ⟨distinct_of_guard rfl hnil.1, distinct_of_guard rfl hnil.2⟩

end Guard

/-! ## The planning of a call -/

section Run
variable {P : Platform} {env : Env P} {a : SyncArgs} {w w' : World P} {seen : Observed}

/-- The planning manifests of a call, and the number of the step before which its remote
manifest begins. -/
def Observes (env : Env P) (a : SyncArgs) (w : World P) (seen : Observed) (start : Nat) : Prop :=
  ∃ w₀ w₁ w₂, syncProbe env a w = .ok true w₀ ∧
    buildManifest env a.surface .controller w₀ = .ok seen.1 w₁ ∧
    buildManifest env a.surface .target w₁ = .ok seen.2 w₂ ∧ start = w₁.calls

theorem transported_some {α : Type} {m : M P α} {v : α} (h : transported m w = .ok (some v) w') :
    m w = .ok v w' := by
  rcases tryCatch_returns h with hm | ⟨fault, w₁, _, hhandle⟩
  · obtain ⟨v', hv, heq⟩ := map_returns hm
    cases heq
    exact hv
  · cases fault <;> cases hhandle

theorem reading_localVanished (localManifest : Manifest) :
    Reading env (localVanished env a localManifest) := by
  unfold localVanished
  split
  · exact reading_probeGone (reading_look _)
  · exact reading_pure _

/-- A plan is applied only after both manifests, the guards and nothing else. -/
theorem planSync_ok (h : planSync env a w = .ok (.ok seen) w') :
    ∃ w₀ w₁ w₂, syncProbe env a w = .ok true w₀ ∧
      buildManifest env a.surface .controller w₀ = .ok seen.1 w₁ ∧
      buildManifest env a.surface .target w₁ = .ok seen.2 w₂ ∧
      localVanished env a seen.1 w₂ = .ok false w' ∧
      (plannedCollisions P seen.1 seen.2 (a.toApply seen.1 seen.2)).rows = [] := by
  obtain ⟨goes, w₀, hprobe, h⟩ := bind_returns h
  cases goes with
  | false => cases h
  | true =>
    obtain ⟨localManifest, w₁, hleft, h⟩ := bind_returns h
    obtain ⟨remote, w₂, hright, h⟩ := bind_returns h
    cases remote with
    | none => cases h
    | some remoteManifest =>
      obtain ⟨gone, w₃, hgone, h⟩ := bind_returns h
      cases gone with
      | true => cases h
      | false =>
        simp only [Bool.false_eq_true, if_false] at h
        split at h
        · cases h
        · rename_i hcollide
          cases h
          exact ⟨w₀, w₁, w₂, hprobe, hleft, transported_some hright, hgone, not_not.mp hcollide⟩

/-- An exit of planning. -/
theorem planSync_exit : Yields (planSync env a) fun planned => match planned with
    | .error result => result.written = none ∧ result.exitCode ≠ .ok
    | .ok _ => True := by
  refine yields_bind (yields_any _) fun goes _ => ?_
  cases goes with
  | false => exact yields_pure ⟨rfl, by decide⟩
  | true =>
    refine yields_bind (yields_any _) fun localManifest _ => ?_
    refine yields_bind (yields_any _) fun remote _ => ?_
    cases remote with
    | none => exact yields_pure ⟨rfl, by decide⟩
    | some remoteManifest =>
      refine yields_bind (yields_any _) fun gone _ => ?_
      split
      · exact yields_pure ⟨rfl, nofun⟩
      · split
        · exact yields_pure ⟨rfl, nofun⟩
        · exact yields_pure trivial

/-! ## The apply phase, at one path -/

/-- The condition where no exit was taken. -/
def OnOk {α : Type} (Q : α → World P → Prop) (out : Except SyncResult α) (w : World P) : Prop :=
  ∀ x, out = .ok x → Q x w

theorem triple_transported {α : Type} {I : World P → Prop} {Q : α → World P → Prop} {m : M P α}
    (h : Triple I m Q fun _ _ => True) :
    Triple I (transported m) (fun out w => ∀ v, out = some v → Q v w) fun _ _ => True := by
  refine triple_tryCatch (triple_map (h.post fun v w hq v' heq => ?_)) fun fault => ?_
  · exact Option.some.inj heq ▸ hq
  · cases fault with
    | transportError message => exact triple_pure fun _ _ _ heq => nomatch heq
    | _ => exact triple_throw fun _ _ => trivial

theorem triple_attempt {I Q : World P → Prop} {m : M P Unit}
    (h : Triple I m (fun _ => Q) fun _ _ => True) (before after : SyncResult) :
    Triple I (attempt m before after) (OnOk fun r w => r = after ∧ Q w) fun _ _ => True := by
  refine triple_bind (triple_transported h) fun out => ?_
  cases out with
  | some v => exact triple_pure fun w hw r heq => ⟨(Except.ok.inj heq).symm, hw v rfl⟩
  | none => exact triple_pure fun w _ r heq => nomatch heq

theorem triple_continuing {α β : Type} {Q : α → World P → Prop} {R : β → World P → Prop}
    {f : α → M P (Except SyncResult β)}
    (h : ∀ x, Triple (Q x) (f x) (OnOk R) fun _ _ => True) (acc : Except SyncResult α) :
    Triple (OnOk Q acc) (continuing f acc) (OnOk R) fun _ _ => True := by
  cases acc with
  | ok x => exact (h x).pre fun w hw => hw x rfl
  | error result => exact triple_pure fun w _ r heq => nomatch heq

theorem keeps_to_triple {α : Type} {I : World P → Prop} {m : M P α} (h : Keeps I m) :
    Triple I m (fun _ => I) fun _ _ => True :=
  h.conseq (fun _ => id) (fun _ _ => id) fun _ _ _ => trivial

section Path
variable {start : Nat} {rel : String} {bytes : Option Bytes}
  (hleaves : env.Leaves start rel) (hlocal : ∀ n root, env.disturbLocal n root = root)
include hleaves

theorem triple_syncItems (remoteManifest : Manifest) (result : SyncResult)
    {plan : List ClassifiedPath} (hdelete : ∀ item ∈ plan, item.action = .deleteRemote →
      P.remoteKey rel = P.remoteKey item.path → bytes = none) :
    Triple (Shows start rel bytes) (syncItems env a remoteManifest result plan)
      (OnOk fun _ => Shows start rel bytes) fun _ _ => True := by
  refine (triple_foldlM (fun _ acc => OnOk (fun _ => Shows start rel bytes) acc) ?_).pre
    fun w hw _ _ => hw
  intro done item rest acc hsplit
  have hitem : item ∈ plan := by
    rw [hsplit]
    exact List.mem_append_right _ List.mem_cons_self
  refine triple_continuing (fun result => ?_) acc
  have hkeeps : Keeps (Shows start rel bytes) (itemEffect env a remoteManifest item) :=
    keeps_shows_itemEffect hleaves a remoteManifest (hdelete item hitem)
  exact (triple_attempt (keeps_to_triple hkeeps) _ _).post fun out w h r heq => (h r heq).2

include hlocal

theorem triple_syncPulls {paths : List String} (result : SyncResult)
    (hsome : rel ∈ paths → bytes ≠ none)
    (hkeys : ∀ name ∈ paths, name ≠ rel → rel ∈ paths → P.localKey rel ≠ P.localKey name) :
    Triple (Shows start rel bytes) (syncPulls env paths result)
      (OnOk fun _ => Pulled start rel bytes paths) fun _ _ => True := by
  unfold syncPulls
  split
  · rename_i hnil
    exact triple_pure fun w hw _ _ => ⟨hw, fun hin => absurd hin (hnil ▸ List.not_mem_nil)⟩
  · have hpulls : Triple (Shows start rel bytes) (pullFiles env paths)
        (fun _ => Pulled start rel bytes paths) fun _ _ => True := by
      by_cases hin : rel ∈ paths
      · obtain ⟨b, rfl⟩ := Option.ne_none_iff_exists'.mp (hsome hin)
        exact triple_shows_pullFiles hleaves hlocal fun name hname hne => hkeys name hname hne hin
      · have hkeeps : Keeps (Shows start rel bytes) (pullFiles env paths) :=
          keeps_foldlM fun _ name _ => keeps_pullFile name (steady_shows hleaves)
            fun _ _ hw => ⟨hw.within, hw.shown⟩
        exact (keeps_to_triple hkeeps).post fun _ w hw => ⟨hw, fun h => absurd h hin⟩
    exact (triple_attempt hpulls _ _).post fun out w h r heq => (h r heq).2

/-- The pushes leave the pulled files of the controller alone. -/
theorem triple_pushFiles {done pushes : List String}
    (hkeys : ∀ name ∈ pushes, P.remoteKey rel ≠ P.remoteKey name) :
    Triple (Pulled start rel bytes done) (do ensureRemoteDir env; pushFiles env pushes)
      (fun _ => Pulled start rel bytes done) fun _ _ => True := by
  have hshows : Keeps (Shows start rel bytes) (do ensureRemoteDir env; pushFiles env pushes) :=
    keeps_bind (keeps_shows_ensureRemoteDir hleaves) fun _ =>
      keeps_foldlM fun _ name hname => keeps_shows_pushFile hleaves (hkeys name hname)
  have hfile : Keeps (fun w : World P => rel ∈ done → w.localRoot.file rel = bytes)
      (do ensureRemoteDir env; pushFiles env pushes) := by
    have hsteady : Steady env fun w : World P => rel ∈ done → w.localRoot.file rel = bytes := by
      intro w hw hin
      change (env.disturbLocal _ _).file rel = _
      rw [hlocal]
      exact hw hin
    exact keeps_bind (keeps_ensureRemoteDir hsteady fun _ _ hw => hw) fun _ =>
      keeps_foldlM fun _ name _ => keeps_pushFile name hsteady fun _ _ hw => hw
  exact (Triple.and hshows hfile).conseq (fun w hw => ⟨hw.toShows, hw.pulled⟩)
    (fun _ w hw => ⟨hw.1, hw.2⟩) fun _ _ _ => trivial

theorem triple_verifiedRemote (localManifest : Manifest) (hcovers : a.surface.covers P rel = true)
    {done pushes : List String} :
    Triple (Pulled start rel bytes done) (verifiedRemote env a localManifest pushes)
      (fun out w => ∀ verified, out = some verified → Pulled start rel bytes done w ∧
        digestAt verified rel = bytes.map (digestOf P a.surface)) fun _ _ => True := by
  have hread : Triple (Pulled start rel bytes done) (buildManifest env a.surface .target)
      (fun verified w => Pulled start rel bytes done w ∧
        digestAt verified rel = bytes.map (digestOf P a.surface)) fun _ _ => True :=
    (Triple.and (reading_buildManifest a.surface .target _ (steady_pulled hleaves hlocal))
      (triple_manifest hleaves hcovers)).conseq (fun w hw => ⟨hw, hw.toShows⟩)
      (fun _ w hw => ⟨hw.1, hw.2.2⟩) fun _ _ _ => trivial
  refine triple_tryCatch (triple_bind hread fun verified => ?_) fun fault => ?_
  · split
    · exact triple_throw fun _ _ => trivial
    · exact triple_pure fun w hw v heq => Option.some.inj heq ▸ hw
  · cases fault with
    | transportError message => exact triple_pure fun _ _ _ heq => nomatch heq
    | notImplemented => exact triple_pure fun _ _ _ heq => nomatch heq
    | valueError => exact triple_pure fun _ _ _ heq => nomatch heq
    | _ => exact triple_throw fun _ _ => trivial

/-- What the apply phase leaves at a path that others leave alone. -/
theorem triple_applySync (hcovers : a.surface.covers P rel = true)
    (hdelete : ∀ item ∈ a.toApply seen.1 seen.2, item.action = .deleteRemote →
      P.remoteKey rel = P.remoteKey item.path → bytes = none)
    (hsome : rel ∈ pathsFor .pull (a.toApply seen.1 seen.2) → bytes ≠ none)
    (hpull : Distinct P.localKey (pathsFor .pull (a.toApply seen.1 seen.2)))
    (hpush : ∀ name ∈ pathsFor .push (a.toApply seen.1 seen.2),
      P.remoteKey rel ≠ P.remoteKey name)
    (hseen : digestAt seen.2 rel = bytes.map (digestOf P a.surface)) :
    Triple (Shows start rel bytes) (applySync env a seen)
      (OnOk fun out w =>
        (rel ∈ pathsFor .pull (a.toApply seen.1 seen.2) → w.localRoot.file rel = bytes) ∧
        digestAt out.2 rel = bytes.map (digestOf P a.surface)) fun _ _ => True := by
  refine triple_bind (triple_syncItems hleaves seen.2 (a.opened seen) hdelete) fun acc => ?_
  refine triple_bind (triple_continuing (fun result => triple_syncPulls hleaves hlocal result hsome
    fun name hname hne hin heq => hne (hpull name hname rel hin heq.symm)) acc) fun acc' => ?_
  refine triple_continuing (fun result => ?_) acc'
  unfold syncPushes
  split
  · refine triple_pure fun w hw out heq => ?_
    obtain rfl := Except.ok.inj heq
    exact ⟨hw.pulled, hseen⟩
  · refine triple_bind (triple_attempt (triple_pushFiles hleaves hlocal hpush) result result)
      fun out => ?_
    cases out with
    | error failed => exact triple_pure fun w _ out heq => nomatch heq
    | ok result' =>
      dsimp only
      refine triple_bind ((triple_verifiedRemote hleaves hlocal seen.1 hcovers).pre
        fun w hw => (hw result' rfl).2) fun verified => ?_
      cases verified with
      | none => exact triple_pure fun w _ out heq => nomatch heq
      | some verified =>
        refine triple_pure fun w hw out heq => ?_
        obtain rfl := Except.ok.inj heq
        exact ⟨(hw verified rfl).1.pulled, (hw verified rfl).2⟩

end Path

/-! ## What the apply phase reports -/

/-- An exit of the apply phase. -/
structure SyncResult.Failed (result : SyncResult) : Prop where
  written : result.written = none
  exitCode : result.exitCode = .transfer

/-- What is reported before the pushes, once the items of `done` are applied. -/
structure SyncResult.Begun (pulls : List String) (done : List ClassifiedPath)
    (result : SyncResult) : Prop where
  pulled : result.pulled = pulls
  verifiedPushed : result.verifiedPushed = []
  conflicts : result.conflicts = pathsFor .abortConflict done
  exitCode : result.exitCode = .ok
  written : result.written = none

def Ends {α : Type} (Q : α → Prop) : Except SyncResult α → Prop
  | .ok x => Q x
  | .error result => result.Failed

theorem SyncResult.Begun.fails {pulls : List String} {done : List ClassifiedPath}
    {result : SyncResult} (h : result.Begun pulls done) : (result.exit .transfer).Failed := ⟨h.written, rfl⟩

theorem yields_attempt {Q : SyncResult → Prop} {m : M P Unit} {before after : SyncResult}
    (hafter : Q after) (hbefore : (before.exit .transfer).Failed) :
    Yields (attempt m before after) (Ends Q) := by
  refine yields_bind (yields_any _) fun out _ => ?_
  cases out with
  | some _ => exact yields_pure hafter
  | none => exact yields_pure hbefore

theorem yields_continuing {α β : Type} {Q : α → Prop} {R : β → Prop}
    {f : α → M P (Except SyncResult β)} (h : ∀ x, Q x → Yields (f x) (Ends R))
    {acc : Except SyncResult α} (hacc : Ends Q acc) : Yields (continuing f acc) (Ends R) := by
  cases acc with
  | ok x => exact h x hacc
  | error result => exact yields_pure hacc

theorem SyncResult.Begun.applied {pulls : List String} {done : List ClassifiedPath}
    {result : SyncResult} (h : result.Begun pulls done) (item : ClassifiedPath) :
    (result.applied item).Begun pulls (done ++ [item]) := by
  unfold SyncResult.applied
  have hpaths : pathsFor .abortConflict (done ++ [item]) = pathsFor .abortConflict done ++
      if item.action = .abortConflict then [item.path] else [] := by
    simp only [pathsFor, List.filter_append, List.map_append]
    split <;> rename_i hact <;> simp [hact]
  cases hact : item.action <;> dsimp only <;>
    refine ⟨h.pulled, h.verifiedPushed, ?_, h.exitCode, h.written⟩ <;>
    rw [hpaths] <;> simp [hact, h.conflicts]

theorem yields_syncItems (remoteManifest : Manifest) {result : SyncResult}
    (h : result.Begun [] []) (plan : List ClassifiedPath) :
    Yields (syncItems env a remoteManifest result plan) (Ends (SyncResult.Begun [] plan)) := by
  refine yields_foldlM (fun done => Ends (SyncResult.Begun [] done)) h ?_
  intro done item rest acc _ hacc
  exact yields_continuing (fun result hresult =>
    yields_attempt (hresult.applied item) hresult.fails) hacc

/-- What the apply phase reports, and what it knows of the manifest after the pushes. -/
structure SyncReported (P : Platform) (a : SyncArgs) (seen : Observed) (pulls pushes : List String)
    (out : SyncResult × Manifest) : Prop where
  pulled : out.1.pulled = pulls
  verifiedPushed : out.1.verifiedPushed = pushes
  conflicts : out.1.conflicts = pathsFor .abortConflict (a.toApply seen.1 seen.2)
  exitCode : out.1.exitCode = .ok
  written : out.1.written = none
  unchanged : pushes = [] → out.2 = seen.2
  built : pushes ≠ [] → out.2.Built P a.surface
  distinct : pushes ≠ [] → Distinct P.remoteKey out.2.keys
  visible : ∀ name ∈ pushes, mismatched seen.1 out.2 name = false

theorem yields_verifiedRemote (localManifest : Manifest) (pushes : List String) :
    Yields (verifiedRemote env a localManifest pushes) fun out => ∀ verified, out = some verified →
      verified.Built P a.surface ∧ Distinct P.remoteKey verified.keys ∧
      ∀ name ∈ pushes, mismatched localManifest verified name = false := by
  have hread : Yields (buildManifest env a.surface .target) fun verified =>
      verified.Built P a.surface ∧ Distinct P.remoteKey verified.keys :=
    (Triple.and (buildManifest_built env a.surface .target)
      (buildManifest_distinct env a.surface)).conseq (fun _ _ => ⟨trivial, trivial⟩)
      (fun _ _ h => h) fun _ _ _ => trivial
  refine yields_tryCatch (yields_bind hread fun verified hverified => ?_) fun fault => ?_
  · split
    · exact yields_throw _
    · rename_i hshown
      refine yields_pure fun v heq => ?_
      obtain rfl := Option.some.inj heq
      refine ⟨hverified.1, hverified.2, fun name hname => ?_⟩
      simpa using fun h => hshown (List.any_eq_true.mpr ⟨name, hname, h⟩)
  · cases fault with
    | transportError message => exact yields_pure fun _ heq => nomatch heq
    | notImplemented => exact yields_pure fun _ heq => nomatch heq
    | valueError => exact yields_pure fun _ heq => nomatch heq
    | _ => exact yields_throw _

theorem yields_syncPulls {plan : List ClassifiedPath} (paths : List String) {result : SyncResult}
    (h : result.Begun [] plan) :
    Yields (syncPulls env paths result) (Ends (SyncResult.Begun paths plan)) := by
  unfold syncPulls
  split
  · rename_i hnil
    exact yields_pure (hnil ▸ h)
  · refine yields_attempt ⟨?_, h.verifiedPushed, h.conflicts, h.exitCode, h.written⟩ h.fails
    change result.pulled ++ paths = paths
    rw [h.pulled, List.nil_append]

theorem yields_syncPushes {pulls : List String} (pushes : List String) {result : SyncResult}
    (h : result.Begun pulls (a.toApply seen.1 seen.2)) :
    Yields (syncPushes env a seen pushes result) (Ends (SyncReported P a seen pulls pushes)) := by
  unfold syncPushes
  split
  · rename_i hnil
    subst hnil
    exact yields_pure ⟨h.pulled, h.verifiedPushed, h.conflicts, h.exitCode, h.written,
      fun _ => rfl, fun hne => absurd rfl hne, fun hne => absurd rfl hne,
      fun _ hmem => absurd hmem List.not_mem_nil⟩
  · rename_i hne
    refine yields_bind (yields_attempt h h.fails) fun out hout => ?_
    cases out with
    | error failed => exact yields_pure hout
    | ok result' =>
      have hresult : result'.Begun pulls (a.toApply seen.1 seen.2) := hout
      refine yields_bind (yields_verifiedRemote seen.1 pushes) fun verified hverified => ?_
      cases verified with
      | none => exact yields_pure hresult.fails
      | some verified =>
        obtain ⟨hbuilt, hdistinct, hvisible⟩ := hverified verified rfl
        refine yields_pure ⟨hresult.pulled, ?_, hresult.conflicts, hresult.exitCode,
          hresult.written, fun hnil => absurd hnil hne, fun _ => hbuilt, fun _ => hdistinct,
          hvisible⟩
        change result'.verifiedPushed ++ pushes = pushes
        rw [hresult.verifiedPushed, List.nil_append]

theorem yields_applySync : Yields (applySync env a seen) (Ends (SyncReported P a seen
    (pathsFor .pull (a.toApply seen.1 seen.2)) (pathsFor .push (a.toApply seen.1 seen.2)))) := by
  have hopened : (a.opened seen).Begun [] [] := ⟨rfl, rfl, rfl, rfl, rfl⟩
  refine yields_bind (yields_syncItems seen.2 hopened _) fun acc hacc => ?_
  refine yields_bind (yields_continuing (fun _ => yields_syncPulls _) hacc) fun acc' hacc' => ?_
  exact yields_continuing (fun _ => yields_syncPushes _) hacc'

/-! ## The condition on other writers -/

/-- A covered path that stands in the plan and in the baseline with the same remote content:
it is pulled, or something is pushed and it is neither pushed nor deleted remotely. -/
def SyncArgs.Exposed (P : Platform) (a : SyncArgs) (seen : Observed) (rel : String) : Prop :=
  a.surface.covers P rel = true ∧ (rel ∈ pathsFor .pull (a.toApply seen.1 seen.2) ∨
    (pathsFor .push (a.toApply seen.1 seen.2) ≠ [] ∧
      rel ∉ pathsFor .push (a.toApply seen.1 seen.2) ∧
      rel ∉ pathsFor .deleteRemote (a.toApply seen.1 seen.2)))

/-- From the remote manifest on, other writers leave the exposed paths alone; and no file is
too large to be hashed. -/
structure Spared (env : Env P) (a : SyncArgs) (w : World P) : Prop where
  leaves : ∀ seen start, Observes env a w seen start → ∀ rel, a.Exposed P seen rel →
    env.Leaves start rel
  sizes : ∀ seen start, Observes env a w seen start → ∀ rel entry,
    seen.1.get rel = some entry ∨ seen.2.get rel = some entry → entry.size ≤ hashAll

/-- The two sides of a baseline agree, and each entry is what the call observed or wrote on
its side. -/
structure Blessed (P : Platform) (seen : Observed) (result : SyncResult) (w' : World P)
    (pair : Manifest × Manifest) : Prop where
  alike : Alike pair.1 pair.2
  controller : ∀ rel digest, digestAt pair.1 rel = some digest → digestAt seen.1 rel = some digest ∨
    (rel ∈ result.pulled ∧ (w'.localRoot.file rel).map P.sha256 = digest)
  target : ∀ rel digest, digestAt pair.2 rel = some digest → digestAt seen.2 rel = some digest ∨
    (rel ∈ result.verifiedPushed ∧ digestAt seen.1 rel = some digest)

/-- A call that exits with success blesses no divergent pair, and none ends in a `KeyError`. -/
def BlessesAlike (env : Env P) (a : SyncArgs) (w : World P) : Prop :=
  match runSyncResult env a w with
  | .ok (.ok result) w' =>
    (result.exitCode = .ok → a.dryRun = false → result.written ≠ none) ∧
    ∀ pair, result.written = some pair →
      ∃ seen start, Observes env a w seen start ∧ Blessed P seen result w' pair
  | .ok (.error _) _ => False
  | .error _ _ => True

theorem mem_pathsFor {action : Action} {plan : List ClassifiedPath} {rel : String} :
    rel ∈ pathsFor action plan ↔ ∃ item ∈ plan, item.action = action ∧ item.path = rel := by
  simp only [pathsFor, List.mem_map, List.mem_filter, decide_eq_true_eq, and_assoc]

theorem mem_toApply (hboth : a.direction = .both) {localManifest remoteManifest : Manifest}
    {item : ClassifiedPath} : item ∈ a.toApply localManifest remoteManifest ↔
      item ∈ a.classified localManifest remoteManifest ∧ item.action ≠ .none := by
  simp [SyncArgs.toApply, hboth, Direction.skips]

theorem toApply_nodup (a : SyncArgs) (localManifest remoteManifest : Manifest) :
    ((a.toApply localManifest remoteManifest).map ClassifiedPath.path).Nodup :=
  (classified_nodup a localManifest remoteManifest).sublist (List.filter_sublist.map _)

/-- A path has one action. -/
theorem action_unique {localManifest remoteManifest : Manifest} {item item' : ClassifiedPath}
    (hitem : item ∈ a.classified localManifest remoteManifest)
    (hitem' : item' ∈ a.classified localManifest remoteManifest) (hpath : item.path = item'.path) :
    item = item' :=
  List.inj_on_of_nodup_map (classified_nodup a _ _) hitem hitem' hpath

/-- The facts that planning leaves for the apply phase. -/
structure Ready (env : Env P) (a : SyncArgs) (w : World P) (seen : Observed) (w₃ : World P) :
    Prop where
  observes : ∃ start, Observes env a w seen start
  hashed : AllHashed seen.1 ∧ AllHashed seen.2
  built : seen.2.Built P a.surface
  localKeys : Distinct P.localKey (seen.1.keys ++ pathsFor .pull (a.toApply seen.1 seen.2))
  remoteKeys : Distinct P.remoteKey (seen.2.keys ++ pathsFor .push (a.toApply seen.1 seen.2))
  shows : ∀ rel, a.Exposed P seen rel → ∃ start bytes, env.Leaves start rel ∧
    Shows start rel bytes w₃ ∧ digestAt seen.2 rel = bytes.map (digestOf P a.surface)

theorem allHashed_of_built {manifest : Manifest} (hbuilt : manifest.Built P a.surface)
    (hsizes : ∀ rel entry, manifest.get rel = some entry → entry.size ≤ hashAll) :
    AllHashed manifest := by
  intro rel entry hget
  refine hbuilt.hashed rel entry hget ?_
  rw [Surface.hashes, Bool.and_eq_true]
  exact ⟨decide_eq_true (by decide : hashAll ≠ 0), decide_eq_true (hsizes rel entry hget)⟩

theorem ready_of_planSync (hspared : Spared env a w) {w₃ : World P}
    (h : planSync env a w = .ok (.ok seen) w₃) : Ready env a w seen w₃ := by
  obtain ⟨w₀, w₁, w₂, hprobe, hleft, hright, hgone, hcollide⟩ := planSync_ok h
  have hobserves : Observes env a w seen w₁.calls := ⟨w₀, w₁, w₂, hprobe, hleft, hright, rfl⟩
  have hsizes := hspared.sizes seen _ hobserves
  have hbuilt : seen.2.Built P a.surface := (buildManifest_built env a.surface .target).ok hright
  have hkeys := distinct_of_planned hcollide
  refine ⟨⟨_, hobserves⟩, ⟨?_, ?_⟩, hbuilt, hkeys.1, hkeys.2, fun rel hrel => ?_⟩
  · exact allHashed_of_built ((buildManifest_built env a.surface .controller).ok hleft)
      fun rel entry hget => hsizes rel entry (Or.inl hget)
  · exact allHashed_of_built hbuilt fun rel entry hget => hsizes rel entry (Or.inr hget)
  · have hleaves := hspared.leaves seen _ hobserves rel hrel
    have hshows : Shows w₁.calls rel (w₁.remoteRoot.shown rel) w₁ := ⟨le_refl _, rfl⟩
    obtain ⟨hshows₂, hdigest⟩ := (triple_manifest hleaves hrel.1).ok hshows hright
    exact ⟨w₁.calls, w₁.remoteRoot.shown rel, hleaves,
      Triple.ok (reading_localVanished seen.1 _ (steady_shows hleaves)) hshows₂ hgone, hdigest⟩

theorem digestAt_ne_none {manifest : Manifest} {rel : String} :
    digestAt manifest rel ≠ none ↔ rel ∈ manifest.keys := by
  rw [mem_keys_iff, digestAt, Ne, Option.map_eq_none_iff, ← Ne, Option.ne_none_iff_exists']

section Ready
variable {w₃ w₄ : World P} {out : SyncResult × Manifest} (hready : Ready env a w seen w₃)
  (hboth : a.direction = .both) (hprev : a.PrevAlike)
  (hlocal : ∀ n root, env.disturbLocal n root = root)
  (hrun : applySync env a seen w₃ = .ok (.ok out) w₄)
include hready hboth hprev

theorem Ready.fits {action : Action} {rel : String}
    (h : rel ∈ pathsFor action (a.toApply seen.1 seen.2)) :
    ∃ item ∈ a.classified seen.1 seen.2, item.action = action ∧ item.path = rel ∧
      item.Fits seen.1 seen.2 := by
  obtain ⟨item, hitem, haction, hpath⟩ := mem_pathsFor.mp h
  have hclassified := ((mem_toApply hboth).mp hitem).1
  exact ⟨item, hclassified, haction, hpath,
    classified_fits hprev hready.hashed.1 hready.hashed.2 hclassified⟩

theorem Ready.pull_mem {rel : String}
    (h : rel ∈ pathsFor .pull (a.toApply seen.1 seen.2)) : rel ∈ seen.2.keys := by
  obtain ⟨item, _, haction, rfl, hfits⟩ := hready.fits hboth hprev h
  simp only [ClassifiedPath.Fits, haction] at hfits
  exact mem_keys_iff.mpr (Option.isSome_iff_exists.mp hfits)

theorem Ready.push_mem {rel : String}
    (h : rel ∈ pathsFor .push (a.toApply seen.1 seen.2)) : rel ∈ seen.1.keys := by
  obtain ⟨item, _, haction, rfl, hfits⟩ := hready.fits hboth hprev h
  simp only [ClassifiedPath.Fits, haction] at hfits
  exact mem_keys_iff.mpr (Option.isSome_iff_exists.mp hfits)

theorem Ready.deleteRemote_mem {rel : String}
    (h : rel ∈ pathsFor .deleteRemote (a.toApply seen.1 seen.2)) : rel ∈ seen.2.keys := by
  obtain ⟨item, _, haction, rfl, hfits⟩ := hready.fits hboth hprev h
  simp only [ClassifiedPath.Fits, haction] at hfits
  exact mem_keys_iff.mpr (Option.isSome_iff_exists.mp hfits.2)

omit hready hboth hprev in
theorem pathsFor_unique {action action' : Action} {rel : String} (hboth : a.direction = .both)
    (h : rel ∈ pathsFor action (a.toApply seen.1 seen.2))
    (h' : rel ∈ pathsFor action' (a.toApply seen.1 seen.2)) : action = action' := by
  obtain ⟨item, hitem, haction, hpath⟩ := mem_pathsFor.mp h
  obtain ⟨item', hitem', haction', hpath'⟩ := mem_pathsFor.mp h'
  have heq := action_unique ((mem_toApply hboth).mp hitem).1 ((mem_toApply hboth).mp hitem').1
    (hpath.trans hpath'.symm)
  rw [← haction, ← haction', heq]

omit hready hboth hprev in
/-- An exposed path is not one that the call writes on the target. -/
theorem Exposed.unwritten (hboth : a.direction = .both) {rel : String}
    (h : a.Exposed P seen rel) : rel ∉ pathsFor .push (a.toApply seen.1 seen.2) ∧
      rel ∉ pathsFor .deleteRemote (a.toApply seen.1 seen.2) := by
  rcases h.2 with hpull | ⟨_, hpush, hdelete⟩
  · exact ⟨fun hpush => absurd (pathsFor_unique hboth hpull hpush) (by decide),
      fun hdelete => absurd (pathsFor_unique hboth hpull hdelete) (by decide)⟩
  · exact ⟨hpush, hdelete⟩

include hlocal hrun

/-- The manifest that the baseline starts from shows an exposed path as planning did. -/
theorem Ready.agrees {rel : String} (hexposed : a.Exposed P seen rel) :
    digestAt out.2 rel = digestAt seen.2 rel ∧
    (rel ∈ pathsFor .pull (a.toApply seen.1 seen.2) → ∃ bytes, w₄.localRoot.file rel = some bytes ∧
      digestAt seen.2 rel = some (digestOf P a.surface bytes)) := by
  have hunwritten := Exposed.unwritten hboth hexposed
  have hreported : SyncReported P a seen _ _ out := yields_applySync.ok hrun
  by_cases hcase : ∃ name ∈ pathsFor .push (a.toApply seen.1 seen.2),
      P.remoteKey rel = P.remoteKey name
  · obtain ⟨name, hname, hkey⟩ := hcase
    have hne : rel ≠ name := fun heq => hunwritten.1 (heq ▸ hname)
    have hseen : rel ∉ seen.2.keys := fun hin => hne (hready.remoteKeys rel
      (List.mem_append_left _ hin) name (List.mem_append_right _ hname) hkey)
    have hout : rel ∉ out.2.keys := by
      intro hin
      have hvisible := hreported.visible name hname
      have hmem : name ∈ out.2.keys := by
        rw [mem_keys_iff]
        unfold mismatched at hvisible
        split at hvisible
        · rename_i re _ hre
          exact ⟨re, hre⟩
        · simp at hvisible
      exact hne (hreported.distinct (List.ne_nil_of_mem hname) rel hin name hmem hkey)
    refine ⟨?_, fun hpull => absurd (hready.pull_mem hboth hprev hpull) hseen⟩
    rw [not_not.mp (mt digestAt_ne_none.mp hseen), not_not.mp (mt digestAt_ne_none.mp hout)]
  · push Not at hcase
    obtain ⟨start, bytes, hleaves, hshows, hdigest⟩ := hready.shows rel hexposed
    have hbytes : rel ∈ seen.2.keys → bytes ≠ none := by
      intro hin
      have hsome := digestAt_ne_none.mpr hin
      rw [hdigest] at hsome
      rintro rfl
      exact hsome rfl
    have hdelete : ∀ item ∈ a.toApply seen.1 seen.2, item.action = .deleteRemote →
        P.remoteKey rel = P.remoteKey item.path → bytes = none := by
      intro item hitem haction hkey
      by_contra hsome
      have hdeleted := mem_pathsFor.mpr ⟨item, hitem, haction, rfl⟩
      have hrel : rel ∈ seen.2.keys := digestAt_ne_none.mp (by rw [hdigest]; simpa using hsome)
      have heq := hready.remoteKeys rel (List.mem_append_left _ hrel) item.path
        (List.mem_append_left _ (hready.deleteRemote_mem hboth hprev hdeleted)) hkey
      exact hunwritten.2 (heq ▸ hdeleted)
    have hpulls : Distinct P.localKey (pathsFor .pull (a.toApply seen.1 seen.2)) :=
      fun p hp q hq => hready.localKeys p (List.mem_append_right _ hp) q
        (List.mem_append_right _ hq)
    have happly := triple_applySync hleaves hlocal hexposed.1 hdelete
      (fun hpull => hbytes (hready.pull_mem hboth hprev hpull)) hpulls hcase hdigest
    have hpost := happly.ok hshows hrun out rfl
    refine ⟨hpost.2.trans hdigest.symm, fun hpull => ?_⟩
    obtain ⟨b, hb⟩ := Option.ne_none_iff_exists'.mp (hbytes (hready.pull_mem hboth hprev hpull))
    exact ⟨b, (hpost.1 hpull).trans hb, by rw [hdigest, hb]; rfl⟩

/-- It shows every path as planning did, except where the call itself wrote the target. -/
theorem Ready.unwritten_agrees {rel : String}
    (hpush : rel ∉ pathsFor .push (a.toApply seen.1 seen.2))
    (hdelete : rel ∉ pathsFor .deleteRemote (a.toApply seen.1 seen.2)) :
    digestAt out.2 rel = digestAt seen.2 rel := by
  have hreported : SyncReported P a seen _ _ out := yields_applySync.ok hrun
  by_cases hnil : pathsFor .push (a.toApply seen.1 seen.2) = []
  · rw [hreported.unchanged hnil]
  · by_cases hcovers : a.surface.covers P rel = true
    · exact (hready.agrees hboth hprev hlocal hrun
        ⟨hcovers, Or.inr ⟨hnil, hpush, hdelete⟩⟩).1
    · have hnone : ∀ manifest : Manifest, manifest.Built P a.surface → digestAt manifest rel = none := by
        intro manifest hbuilt
        by_contra hsome
        obtain ⟨entry, hget⟩ := mem_keys_iff.mp (digestAt_ne_none.mp hsome)
        exact hcovers (hbuilt.covered rel entry hget)
      rw [hnone _ (hreported.built hnil), hnone _ hready.built]

theorem Ready.pulled_agrees {rel : String}
    (hpull : rel ∈ pathsFor .pull (a.toApply seen.1 seen.2)) :
    digestAt out.2 rel = digestAt seen.2 rel ∧ ∃ bytes, w₄.localRoot.file rel = some bytes ∧
      digestAt seen.2 rel = some (some (P.sha256 bytes)) := by
  obtain ⟨entry, hget⟩ := mem_keys_iff.mp (hready.pull_mem hboth hprev hpull)
  have hexposed : a.Exposed P seen rel := ⟨hready.built.covered rel entry hget, Or.inl hpull⟩
  obtain ⟨hsame, hpulled⟩ := hready.agrees hboth hprev hlocal hrun hexposed
  obtain ⟨bytes, hfile, hdigest⟩ := hpulled hpull
  refine ⟨hsame, bytes, hfile, ?_⟩
  obtain ⟨digest, hsha⟩ := hready.hashed.2 rel entry hget
  rw [hdigest, digestOf]
  rw [digestAt, hget, Option.map_some, hsha, digestOf] at hdigest
  split at hdigest
  · rename_i hhash
    rw [if_pos hhash]
  · simp at hdigest

/-- What the baseline says of one path, with `L` and `R` its two digests. -/
structure PathBlessed (P : Platform) (a : SyncArgs) (seen : Observed) (w' : World P) (rel : String)
    (L R : Option (Option String)) : Prop where
  same : L = R
  hashed : L ≠ some none
  controller : L = none ∨ L = digestAt seen.1 rel ∨
    (rel ∈ pathsFor .pull (a.toApply seen.1 seen.2) ∧
      L = some ((w'.localRoot.file rel).map P.sha256))
  target : R = none ∨ R = digestAt seen.2 rel ∨
    (rel ∈ pathsFor .push (a.toApply seen.1 seen.2) ∧ R = digestAt seen.1 rel)

omit hready hboth hprev hlocal hrun in
theorem AllHashed.digestAt_ne {manifest : Manifest} (h : AllHashed manifest) (rel : String) :
    digestAt manifest rel ≠ some none := by
  intro hnone
  rw [digestAt, Option.map_eq_some_iff] at hnone
  obtain ⟨entry, hget, hsha⟩ := hnone
  obtain ⟨digest, hdigest⟩ := h rel entry hget
  rw [hdigest] at hsha
  simp at hsha

/-- A path that the plan leaves alone has one digest on both sides. -/
theorem Ready.untouched {rel : String}
    (hout : rel ∉ (a.toApply seen.1 seen.2).map ClassifiedPath.path) :
    PathBlessed P a seen w₄ rel (digestAt seen.1 rel) (digestAt out.2 rel) := by
  have hnot : ∀ action, rel ∉ pathsFor action (a.toApply seen.1 seen.2) := by
    intro action hin
    obtain ⟨item, hitem, _, rfl⟩ := mem_pathsFor.mp hin
    exact hout (List.mem_map_of_mem hitem)
  have hagrees := hready.unwritten_agrees hboth hprev hlocal hrun (hnot _) (hnot _)
  have hsame : digestAt seen.1 rel = digestAt seen.2 rel := by
    by_cases hin : rel ∈ unionPaths seen.1 seen.2
    · obtain ⟨item, hitem, rfl⟩ := exists_classified a hin
      have haction : item.action = .none := by
        by_contra hne
        exact hout (List.mem_map_of_mem ((mem_toApply hboth).mpr ⟨hitem, hne⟩))
      have hfits := classified_fits hprev hready.hashed.1 hready.hashed.2 hitem
      simpa only [ClassifiedPath.Fits, haction] using hfits
    · rw [mem_unionPaths, ← mem_keys_iff, ← mem_keys_iff, not_or] at hin
      rw [not_not.mp (mt digestAt_ne_none.mp hin.1), not_not.mp (mt digestAt_ne_none.mp hin.2)]
  exact ⟨hsame.trans hagrees.symm, hready.hashed.1.digestAt_ne rel, Or.inr (Or.inl rfl),
    Or.inr (Or.inl hagrees)⟩

/-- A path that the plan writes has one digest on both sides, one case for each action. -/
theorem Ready.applied {item : ClassifiedPath} (hitem : item ∈ a.toApply seen.1 seen.2)
    (hclear : item.action ≠ .abortConflict) :
    PathBlessed P a seen w₄ item.path
      ((localAfter out.2 item (seen.1.get item.path)).map FileEntry.sha256)
      ((remoteAfter seen.1 item (out.2.get item.path)).map FileEntry.sha256) := by
  obtain ⟨hclassified, hne⟩ := (mem_toApply hboth).mp hitem
  have hfits := classified_fits hprev hready.hashed.1 hready.hashed.2 hclassified
  have hmem : ∀ action, item.action = action →
      item.path ∈ pathsFor action (a.toApply seen.1 seen.2) :=
    fun action haction => mem_pathsFor.mpr ⟨item, hitem, haction, rfl⟩
  cases haction : item.action with
  | none => exact absurd haction hne
  | abortConflict => exact absurd haction hclear
  | pull =>
    simp only [localAfter, remoteAfter, haction]
    obtain ⟨hsame, bytes, hfile, hdigest⟩ :=
      hready.pulled_agrees hboth hprev hlocal hrun (hmem _ haction)
    change PathBlessed P a seen w₄ item.path (digestAt out.2 item.path) (digestAt out.2 item.path)
    refine ⟨rfl, ?_, Or.inr (Or.inr ⟨hmem _ haction, ?_⟩), Or.inr (Or.inl hsame)⟩
    · rw [hsame]
      exact hready.hashed.2.digestAt_ne _
    · rw [hsame, hdigest, hfile]
      rfl
  | push =>
    simp only [localAfter, remoteAfter, haction]
    change PathBlessed P a seen w₄ item.path (digestAt seen.1 item.path) (digestAt seen.1 item.path)
    exact ⟨rfl, hready.hashed.1.digestAt_ne _, Or.inr (Or.inl rfl),
      Or.inr (Or.inr ⟨hmem _ haction, rfl⟩)⟩
  | deleteLocal =>
    simp only [localAfter, remoteAfter, haction]
    simp only [ClassifiedPath.Fits, haction] at hfits
    have hagrees := hready.unwritten_agrees hboth hprev hlocal hrun
      (fun hin => absurd (pathsFor_unique hboth (hmem _ haction) hin) (by decide))
      (fun hin => absurd (pathsFor_unique hboth (hmem _ haction) hin) (by decide))
    have hnone : digestAt out.2 item.path = none := by
      rw [hagrees, digestAt, hfits]
      rfl
    change PathBlessed P a seen w₄ item.path none (digestAt out.2 item.path)
    rw [hnone]
    exact ⟨rfl, by simp, Or.inl rfl, Or.inl rfl⟩
  | deleteRemote =>
    simp only [localAfter, remoteAfter, haction]
    simp only [ClassifiedPath.Fits, haction] at hfits
    rw [hfits.1]
    exact ⟨rfl, by simp, Or.inl rfl, Or.inl rfl⟩

theorem Ready.pathBlessed {pair : Manifest × Manifest}
    (hclear : pathsFor .abortConflict (a.toApply seen.1 seen.2) = [])
    (h : converged seen.1 out.2 (a.toApply seen.1 seen.2) = .ok pair) (rel : String) :
    PathBlessed P a seen w₄ rel (digestAt pair.1 rel) (digestAt pair.2 rel) := by
  obtain ⟨hitems, hothers⟩ := foldlM_convergedStep (toApply_nodup a seen.1 seen.2) h
  by_cases hin : rel ∈ (a.toApply seen.1 seen.2).map ClassifiedPath.path
  · obtain ⟨item, hitem, rfl⟩ := List.mem_map.mp hin
    have haction : item.action ≠ .abortConflict := by
      intro hconflict
      have hmem := mem_pathsFor.mpr ⟨item, hitem, hconflict, rfl⟩
      rw [hclear] at hmem
      exact absurd hmem List.not_mem_nil
    rw [digestAt, digestAt, (hitems item hitem).1, (hitems item hitem).2]
    exact hready.applied hboth hprev hlocal hrun hitem haction
  · rw [digestAt, digestAt, (hothers rel hin).1, (hothers rel hin).2]
    exact hready.untouched hboth hprev hlocal hrun hin

/-- The baseline that is computed after the apply phase. -/
theorem Ready.blessed {pair : Manifest × Manifest} {result : SyncResult}
    (hpulled : result.pulled = pathsFor .pull (a.toApply seen.1 seen.2))
    (hpushed : result.verifiedPushed = pathsFor .push (a.toApply seen.1 seen.2))
    (hclear : pathsFor .abortConflict (a.toApply seen.1 seen.2) = [])
    (h : converged seen.1 out.2 (a.toApply seen.1 seen.2) = .ok pair) :
    Blessed P seen result w₄ pair := by
  have hpath := hready.pathBlessed hboth hprev hlocal hrun hclear h
  refine ⟨⟨fun rel => (hpath rel).same, fun rel => (hpath rel).hashed⟩, fun rel digest hdigest => ?_,
    fun rel digest hdigest => ?_⟩
  · rcases (hpath rel).controller with hnone | hseen | ⟨hin, hfile⟩
    · rw [hnone] at hdigest
      simp at hdigest
    · exact Or.inl (hseen ▸ hdigest)
    · exact Or.inr ⟨hpulled ▸ hin, Option.some.inj (hfile ▸ hdigest)⟩
  · rcases (hpath rel).target with hnone | hseen | ⟨hin, hwrote⟩
    · rw [hnone] at hdigest
      simp at hdigest
    · exact Or.inl (hseen ▸ hdigest)
    · exact Or.inr ⟨hpushed ▸ hin, hwrote ▸ hdigest⟩

/-- No key is missing when the baseline is computed. -/
theorem Ready.converges : ∃ pair, converged seen.1 out.2 (a.toApply seen.1 seen.2) = .ok pair := by
  refine foldlM_convergedStep_ok (fun item hitem haction => ?_) fun item hitem haction => ?_
  · have hpull := mem_pathsFor.mpr ⟨item, hitem, haction, rfl⟩
    obtain ⟨hsame, bytes, _, hdigest⟩ := hready.pulled_agrees hboth hprev hlocal hrun hpull
    have hsome : item.path ∈ out.2.keys := digestAt_ne_none.mp (by rw [hsame, hdigest]; simp)
    exact Option.isSome_iff_exists.mpr (mem_keys_iff.mp hsome)
  · have hpush := mem_pathsFor.mpr ⟨item, hitem, haction, rfl⟩
    exact Option.isSome_iff_exists.mpr (mem_keys_iff.mp (hready.push_mem hboth hprev hpush))

end Ready

end Run

/-! ## Runs beside a writer -/

/-- The value of a run. -/
def valueOr {P : Platform} {α : Type} (default : α) : EStateM.Result Fault (World P) α → α
  | .ok v _ => v
  | .error _ _ => default

/-- A writer that stores a file under a name before the ninth step. -/
def writerOf (name : String) (bytes : Bytes) : Env (samplePlatform false) :=
  { calmEnv (samplePlatform false) with
    disturbRemote := fun n root => if n = 9 then
        match root.put name (.file bytes 9 420) with
        | .ok root' => root'
        | .error _ => root
      else root }

/-- Both sides hold `keep`, only the controller holds `new`. -/
def pushWorld : World (samplePlatform false) :=
  World.ofTrees (samplePlatform false)
    [("keep", .file [97] 1 420), ("new", .file [98] 1 420)] [("keep", .file [97] 1 420)]

def keepBaseline : Manifest :=
  Dict.empty.set "keep" ⟨"keep", "file", 1, 1, some (sampleSha256 [97]), none⟩

def pushArgs : SyncArgs := ⟨.both, .remote, [], some (keepBaseline, keepBaseline), 0, false⟩

theorem pushArgs_prevAlike : pushArgs.PrevAlike := by
  intro prev hprev
  obtain rfl : (keepBaseline, keepBaseline) = prev := Option.some.inj hprev
  refine ⟨fun _ => rfl, fun rel => ?_⟩
  rw [keepBaseline, digestAt_set]
  split <;> simp [digestAt]

/-- The two digests of a path in the baseline that a run wrote. -/
def writtenDigests {P : Platform} (rel : String) :
    EStateM.Result Fault (World P) (Except String SyncResult) →
      Option (Option (Option String) × Option (Option String))
  | .ok (.ok result) _ =>
    result.written.map fun pair => (digestAt pair.1 rel, digestAt pair.2 rel)
  | _ => none

theorem writerOf_leaves {name rel : String} (bytes : Bytes) (start : Nat) (h : rel ≠ name) :
    (writerOf name bytes).Leaves start rel := by
  intro n root _
  simp only [writerOf]
  split
  · split
    · rename_i root' hput
      have hreplaced := Root.put_replaced hput
      exact ⟨by rw [Root.file, Root.file, hreplaced.others rel h], hreplaced.names rel h⟩
    · exact ⟨rfl, Iff.rfl⟩
  · exact ⟨rfl, Iff.rfl⟩

/-- The planning manifests as the two runs that make them return them. -/
def observedBy {P : Platform} (env : Env P) (a : SyncArgs) (w : World P) : Observed :=
  let probed := endState (syncProbe env a w)
  let left := buildManifest env a.surface .controller probed
  (valueOr Dict.empty left, valueOr Dict.empty (buildManifest env a.surface .target (endState left)))

theorem Observes.eq {P : Platform} {env : Env P} {a : SyncArgs} {w : World P} {seen : Observed}
    {start : Nat} (h : Observes env a w seen start) : observedBy env a w = seen := by
  obtain ⟨w₀, w₁, w₂, hprobe, hleft, hright, _⟩ := h
  simp only [observedBy, hprobe, hleft, hright, endState, valueOr]

/-- The writer stores the very path that the plan pushes. -/
theorem spared_pushed : Spared (writerOf "new" [99]) pushArgs pushWorld where
  leaves := by
    intro seen start hobserves rel hexposed
    refine writerOf_leaves _ _ ?_
    rintro rfl
    obtain rfl := hobserves.eq
    have hpush : "new" ∈ pathsFor .push (pushArgs.toApply
      (observedBy (writerOf "new" [99]) pushArgs pushWorld).1
      (observedBy (writerOf "new" [99]) pushArgs pushWorld).2) := by decide +kernel
    exact (Exposed.unwritten rfl hexposed).1 hpush
  sizes := by
    intro seen start hobserves rel entry hget
    obtain rfl := hobserves.eq
    have hsizes : ∀ row ∈ (observedBy (writerOf "new" [99]) pushArgs pushWorld).1.rows ++
        (observedBy (writerOf "new" [99]) pushArgs pushWorld).2.rows, row.2.size ≤ hashAll := by
      decide +kernel
    rcases hget with hget | hget
    · obtain ⟨name, hrow, _⟩ := Dict.get_eq_some.mp hget
      exact hsizes _ (List.mem_append_left _ hrow)
    · obtain ⟨name, hrow, _⟩ := Dict.get_eq_some.mp hget
      exact hsizes _ (List.mem_append_right _ hrow)

end Remrun.Reconcile
