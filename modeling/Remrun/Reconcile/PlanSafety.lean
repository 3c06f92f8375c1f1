import Remrun.Reconcile.TransferPlan

/-!
# What a transfer plan may do

A plan names every path once and in order, acts on a side only where that side is as its
baseline has it, and treats the two sides alike.
-/

namespace Remrun.Reconcile

open Keyed
set_option autoImplicit false

variable {localManifest remoteManifest : Manifest} {prevLocal prevRemote : Option Manifest}
  {path : String} {le re pl pr : Option FileEntry} {item : ClassifiedPath}

/-! ## Updates are kept -/

/-- Both sides hold the path with one digest. -/
def HashEqual (le re : Option FileEntry) : Prop :=
  ∃ a b digest, le = some a ∧ re = some b ∧ a.sha256 = some digest ∧ b.sha256 = some digest

/-- An action of a plan with a baseline, for the entries of its path: it changes a side only if
that side is unchanged, or absent now and before. -/
structure KeepsUpdates (action : Action) (le re pl pr : Option FileEntry) : Prop where
  onLocal : action = .pull ∨ action = .deleteLocal → entriesSame pl le = true
  onRemote : action = .push ∨ action = .deleteRemote → entriesSame pr re = true
  nothing : action = .none → (entriesSame pl le = true ∧ entriesSame pr re = true) ∨ HashEqual le re

/-- An action of a plan without a complete baseline: it only creates files. -/
structure OnlyCreates (action : Action) (le re : Option FileEntry) : Prop where
  keepsFiles : action ≠ .deleteLocal ∧ action ≠ .deleteRemote
  push : action = .push → re = none
  pull : action = .pull → le = none

theorem changedSince_false : changedSince pl le = false ↔ entriesSame pl le = true := by
  simp [changedSince]

theorem hashEqual_of_contentSame {a b : FileEntry} (h : entriesContentSame a b = true) :
    HashEqual (some a) (some b) := by
  simp only [entriesContentSame, Bool.and_eq_true, decide_eq_true_eq] at h
  obtain ⟨⟨-, hsome⟩, hsame⟩ := h
  obtain ⟨digest, hdigest⟩ := Option.isSome_iff_exists.mp hsome
  exact ⟨a, b, digest, rfl, rfl, hdigest, hsame ▸ hdigest⟩

theorem classifyBoth_keeps (a b : FileEntry) :
    KeepsUpdates (classifyBoth path a b pl pr).action (some a) (some b) pl pr := by
  unfold classifyBoth
  simp only
  cases hl : changedSince pl (some a) <;> cases hr : changedSince pr (some b)
  · exact ⟨by simp, by simp, fun _ => .inl ⟨changedSince_false.mp hl, changedSince_false.mp hr⟩⟩
  · exact ⟨fun _ => changedSince_false.mp hl, by simp, by simp⟩
  · exact ⟨by simp, fun _ => changedSince_false.mp hr, by simp⟩
  · by_cases hsame : entriesContentSame a b = true
    · rw [if_pos rfl, if_pos hsame]
      exact ⟨by simp, by simp, fun _ => .inr (hashEqual_of_contentSame hsame)⟩
    · rw [if_pos rfl, if_neg hsame]
      exact ⟨by simp, by simp, by simp⟩

theorem classifyLocal_keeps (a : FileEntry) :
    KeepsUpdates (classifyLocal path a true pl pr).action (some a) none pl pr := by
  unfold classifyLocal
  cases hpr : pr with
  | none => exact ⟨by simp, fun _ => rfl, by simp⟩
  | some b =>
    cases hl : changedSince pl (some a)
    · exact ⟨fun _ => changedSince_false.mp hl, by simp, by simp⟩
    · exact ⟨by simp, by simp, by simp⟩

theorem classifyRemote_keeps (b : FileEntry) :
    KeepsUpdates (classifyRemote path b true pl pr).action none (some b) pl pr := by
  unfold classifyRemote
  cases hpl : pl with
  | none => exact ⟨fun _ => rfl, by simp, by simp⟩
  | some a =>
    cases hr : changedSince pr (some b)
    · exact ⟨by simp, fun _ => changedSince_false.mp hr, by simp⟩
    · exact ⟨by simp, by simp, by simp⟩

theorem classify_keeps (h : classify path le re true pl pr = some item) :
    KeepsUpdates item.action le re pl pr := by
  unfold classify at h
  split at h
  · rw [if_pos rfl] at h
    rw [← Option.some.inj h]
    exact classifyBoth_keeps _ _
  · rw [← Option.some.inj h]
    exact classifyLocal_keeps _
  · rw [← Option.some.inj h]
    exact classifyRemote_keeps _
  · simp at h

/-- Without a baseline no side is changed but by a new file. -/
theorem classify_creates (h : classify path le re false pl pr = some item) :
    OnlyCreates item.action le re := by
  unfold classify at h
  split at h
  · simp only [Bool.false_eq_true, if_false, Option.some.injEq] at h
    rw [← h]
    unfold heuristicDiff
    split
    · split <;> exact ⟨by simp, by simp, by simp⟩
    · exact ⟨by simp, by simp, by simp⟩
  · rw [← Option.some.inj h]
    exact ⟨by simp [classifyLocal], fun _ => rfl, by simp [classifyLocal]⟩
  · rw [← Option.some.inj h]
    exact ⟨by simp [classifyRemote], by simp [classifyRemote], fun _ => rfl⟩
  · simp at h

/-- Nothing is left alone without a reason, with and without a baseline. -/
theorem classify_none {havePrev : Bool} (h : classify path le re havePrev pl pr = some item)
    (hnone : item.action = .none) :
    (entriesSame pl le = true ∧ entriesSame pr re = true) ∨ HashEqual le re := by
  cases havePrev with
  | true => exact (classify_keeps h).nothing hnone
  | false =>
    right
    unfold classify at h
    split at h
    · simp only [Bool.false_eq_true, if_false, Option.some.injEq] at h
      rw [← h] at hnone
      rename_i a b
      unfold heuristicDiff at hnone
      split at hnone
      · rename_i x y ha hb
        split at hnone
        · rename_i hsame
          exact ⟨a, b, x, rfl, rfl, ha, hsame ▸ hb⟩
        · simp at hnone
      · simp at hnone
    · rw [← Option.some.inj h] at hnone
      simp [classifyLocal] at hnone
    · rw [← Option.some.inj h] at hnone
      simp [classifyRemote] at hnone
    · simp at h

/-! ## The paths of a plan -/

theorem classify_plan_isSome {havePrev : Bool} :
    (classify path le re havePrev pl pr).isSome = (le.isSome || re.isSome) := by
  cases le <;> cases re <;> cases havePrev <;> rfl

/-- The plan names the paths of both manifests in their order. -/
theorem compareManifests_paths :
    (compareManifests localManifest remoteManifest prevLocal prevRemote).map ClassifiedPath.path =
      unionPaths localManifest remoteManifest := by
  unfold compareManifests
  simp only
  generalize hpaths : unionPaths localManifest remoteManifest = paths
  have hheld : ∀ path ∈ paths, ((localManifest.get path).isSome ||
      (remoteManifest.get path).isSome) = true := by
    intro path hpath
    rw [← hpaths, mem_unionPaths] at hpath
    rcases hpath with ⟨entry, h⟩ | ⟨entry, h⟩ <;> simp [h]
  clear hpaths
  induction paths with
  | nil => rfl
  | cons path rest ih =>
    have hsome : (classify path (localManifest.get path) (remoteManifest.get path)
        (prevLocal.isSome && prevRemote.isSome) (prevEntry prevLocal path)
        (prevEntry prevRemote path)).isSome = true := by
      rw [classify_plan_isSome]
      exact hheld path List.mem_cons_self
    obtain ⟨item, hitem⟩ := Option.isSome_iff_exists.mp hsome
    simp only [List.filterMap_cons, hitem]
    rw [List.map_cons, classify_path hitem, ih fun path hpath =>
      hheld path (List.mem_cons_of_mem _ hpath)]

theorem sortPaths_sorted (paths : List String) : (sortPaths paths).Pairwise (· < ·) := by
  have hle : (sortPaths paths).Pairwise (· ≤ ·) := List.pairwise_insertionSort _ _
  refine (hle.and (sortPaths_nodup paths)).imp fun h => ?_
  exact lt_of_le_of_ne h.1 h.2

/-! ## The sides are alike -/

/-- The action with the sides exchanged. -/
def Action.exchange : Action → Action
  | .push => .pull
  | .pull => .push
  | .deleteRemote => .deleteLocal
  | .deleteLocal => .deleteRemote
  | .none => .none
  | .abortConflict => .abortConflict

/-- The state with the sides exchanged. -/
def PathState.exchange : PathState → PathState
  | .localNewer => .remoteNewer
  | .remoteNewer => .localNewer
  | .remoteDeletedKnown => .localDeletedKnown
  | .localDeletedKnown => .remoteDeletedKnown
  | .localOnly => .remoteOnly
  | .remoteOnly => .localOnly
  | state => state

/-- What an item decides, without its text. -/
def ClassifiedPath.decision (item : ClassifiedPath) : String × PathState × Action :=
  (item.path, item.state, item.action)

def exchangeDecision (d : String × PathState × Action) : String × PathState × Action :=
  (d.1, d.2.1.exchange, d.2.2.exchange)

theorem entriesContentSame_comm (a b : FileEntry) :
    entriesContentSame a b = entriesContentSame b a := by
  rw [Bool.eq_iff_iff]
  simp only [entriesContentSame, Bool.and_eq_true, decide_eq_true_eq]
  constructor
  · rintro ⟨⟨⟨hkind, hsize⟩, hsome⟩, hsame⟩
    exact ⟨⟨⟨hkind.symm, hsize.symm⟩, hsame ▸ hsome⟩, hsame.symm⟩
  · rintro ⟨⟨⟨hkind, hsize⟩, hsome⟩, hsame⟩
    exact ⟨⟨⟨hkind.symm, hsize.symm⟩, hsame ▸ hsome⟩, hsame.symm⟩

theorem classifyBoth_exchange (a b : FileEntry) :
    (classifyBoth path b a pr pl).decision =
      exchangeDecision (classifyBoth path a b pl pr).decision := by
  unfold classifyBoth
  simp only [entriesContentSame_comm b a]
  cases changedSince pl (some a) <;> cases changedSince pr (some b) <;>
    cases entriesContentSame a b <;> rfl

theorem heuristicDiff_exchange (a b : FileEntry) :
    (heuristicDiff path b a).decision = exchangeDecision (heuristicDiff path a b).decision := by
  unfold heuristicDiff
  cases ha : a.sha256 with
  | none => cases b.sha256 <;> rfl
  | some x =>
    cases hb : b.sha256 with
    | none => rfl
    | some y =>
      by_cases hsame : x = y
      · simp only [hsame, if_true]
        rfl
      · have hsame' : ¬ y = x := fun h => hsame h.symm
        simp only [hsame, hsame', if_false]
        rfl

theorem classifyLocal_exchange (a : FileEntry) (havePrev : Bool) :
    (classifyRemote path a havePrev pr pl).decision =
      exchangeDecision (classifyLocal path a havePrev pl pr).decision := by
  unfold classifyRemote classifyLocal
  cases havePrev && pr.isSome
  · rfl
  · cases changedSince pl (some a) <;> rfl

theorem classifyRemote_exchange (b : FileEntry) (havePrev : Bool) :
    (classifyLocal path b havePrev pr pl).decision =
      exchangeDecision (classifyRemote path b havePrev pl pr).decision := by
  unfold classifyRemote classifyLocal
  cases havePrev && pl.isSome
  · rfl
  · cases changedSince pr (some b) <;> rfl

theorem classify_exchange (havePrev : Bool) :
    (classify path re le havePrev pr pl).map ClassifiedPath.decision =
      ((classify path le re havePrev pl pr).map ClassifiedPath.decision).map exchangeDecision := by
  cases le with
  | none =>
    cases re with
    | none => rfl
    | some b => exact congrArg some (classifyRemote_exchange b havePrev)
  | some a =>
    cases re with
    | none => exact congrArg some (classifyLocal_exchange a havePrev)
    | some b =>
      cases havePrev with
      | true => exact congrArg some (classifyBoth_exchange a b)
      | false => exact congrArg some (heuristicDiff_exchange a b)

theorem unionPaths_comm (left right : Manifest) : unionPaths left right = unionPaths right left := by
  have hperm : (unionPaths left right).Perm (unionPaths right left) := by
    apply (List.perm_ext_iff_of_nodup (sortPaths_nodup _) (sortPaths_nodup _)).mpr
    intro path
    rw [mem_sortPaths, mem_sortPaths, List.mem_append, List.mem_append, or_comm]
  exact hperm.eq_of_pairwise' ((sortPaths_sorted _).imp le_of_lt)
    ((sortPaths_sorted _).imp le_of_lt)

/-- The plan with the sides exchanged. -/
theorem compareManifests_exchange :
    (compareManifests remoteManifest localManifest prevRemote prevLocal).map
        ClassifiedPath.decision =
      ((compareManifests localManifest remoteManifest prevLocal prevRemote).map
        ClassifiedPath.decision).map exchangeDecision := by
  unfold compareManifests
  simp only [List.map_filterMap]
  rw [unionPaths_comm, Bool.and_comm]
  apply List.filterMap_congr
  intro path _
  rw [classify_exchange, Option.map_map]

/-! ## Plans -/

/-- No update is lost, the sides are treated alike, and every path is classified once. -/
structure SafePlan (localManifest remoteManifest : Manifest) (prevLocal prevRemote : Option Manifest) :
    Prop where
  sorted : ((compareManifests localManifest remoteManifest prevLocal prevRemote).map
    ClassifiedPath.path).Pairwise (· < ·)
  complete : ∀ path, path ∈ (compareManifests localManifest remoteManifest prevLocal prevRemote).map
    ClassifiedPath.path ↔ path ∈ localManifest.keys ∨ path ∈ remoteManifest.keys
  baseline : ∀ baseLocal baseRemote, prevLocal = some baseLocal → prevRemote = some baseRemote →
    ∀ item ∈ compareManifests localManifest remoteManifest prevLocal prevRemote,
    KeepsUpdates item.action (localManifest.get item.path) (remoteManifest.get item.path)
      (baseLocal.get item.path) (baseRemote.get item.path)
  noBaseline : prevLocal = none ∨ prevRemote = none →
    ∀ item ∈ compareManifests localManifest remoteManifest prevLocal prevRemote,
    OnlyCreates item.action (localManifest.get item.path) (remoteManifest.get item.path)
  nothing : ∀ item ∈ compareManifests localManifest remoteManifest prevLocal prevRemote,
    item.action = .none →
    (entriesSame (prevEntry prevLocal item.path) (localManifest.get item.path) = true ∧
      entriesSame (prevEntry prevRemote item.path) (remoteManifest.get item.path) = true) ∨
    HashEqual (localManifest.get item.path) (remoteManifest.get item.path)
  exchange : (compareManifests remoteManifest localManifest prevRemote prevLocal).map
      ClassifiedPath.decision =
    ((compareManifests localManifest remoteManifest prevLocal prevRemote).map
      ClassifiedPath.decision).map exchangeDecision

theorem compareManifests_safe (localManifest remoteManifest : Manifest)
    (prevLocal prevRemote : Option Manifest) :
    SafePlan localManifest remoteManifest prevLocal prevRemote where
  sorted := by
    rw [compareManifests_paths]
    exact sortPaths_sorted _
  complete := by
    intro path
    rw [compareManifests_paths, unionPaths, mem_sortPaths, List.mem_append]
  baseline := by
    intro baseLocal baseRemote hlocal hremote item hitem
    subst hlocal hremote
    exact classify_keeps (mem_compareManifests.mp hitem)
  noBaseline := by
    intro hmissing item hitem
    have hprev : (prevLocal.isSome && prevRemote.isSome) = false := by
      rcases hmissing with rfl | rfl
      · rfl
      · exact Bool.and_false _
    have hclassify := mem_compareManifests.mp hitem
    rw [hprev] at hclassify
    exact classify_creates hclassify
  nothing := by
    intro item hitem hnone
    exact classify_none (mem_compareManifests.mp hitem) hnone
  exchange := compareManifests_exchange

end Remrun.Reconcile
