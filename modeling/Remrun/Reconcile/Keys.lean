import Mathlib.Data.List.TakeWhile
import Remrun.Reconcile.Pullback
import Remrun.Reconcile.Stored
import Remrun.Reconcile.Verification

/-!
# The paths that entries carry

A walk stores every entry under its own path, and a pullback gives an entry that it looked up
afresh the path it stores it under. The final verification of a preflight stores a fresh entry as
it is, and that one carries only the last part of its path.
-/

namespace Remrun.Reconcile

open Keyed Effect
set_option autoImplicit false

/-! ## The last part of a path -/

theorem baseName_eq_iff (rel : String) : baseName rel = rel ↔ '/' ∉ rel.toList := by
  have hname : baseName rel = rel ↔
      rel.toList.reverse.takeWhile (· ≠ '/') = rel.toList.reverse := by
    rw [baseName, ← String.toList_inj, String.toList_ofList, List.reverse_eq_iff]
  rw [hname, List.takeWhile_eq_self_iff]
  simp only [List.mem_reverse, decide_eq_true_eq]
  constructor
  · exact fun h hmem => h '/' hmem rfl
  · exact fun h c hc heq => h (heq ▸ hc)

section Keys
variable {P : Platform} (env : Env P) (a : PreflightArgs)

/-! ## Walks -/

theorem buildManifest_ownPaths (s : Surface) (side : Side) :
    Yields (buildManifest env s side) OwnPaths := by
  refine yields_bind (yields_any _) fun listing _ => ?_
  split
  · exact yields_pure ownPaths_empty
  · split
    · exact yields_throw _
    · exact yields_pure ownPaths_empty
  · refine yields_foldlM (fun _ => OwnPaths) ownPaths_empty fun done rel rest manifest _ h => ?_
    refine yields_bind (yields_any _) fun node _ => ?_
    split
    · split
      · exact yields_pure h
      · exact yields_throw _
    · exact yields_bind (yields_any _) fun digest _ => yields_pure (h.set rfl)
    · exact yields_pure h

theorem freshLocalEntry_path (rel : String) (hashIfSize : Option Nat) :
    Yields (freshLocalEntry env rel hashIfSize) fun fresh =>
      ∀ entry, fresh = some entry → entry.path = baseName rel := by
  refine yields_bind (yields_any _) fun node _ => ?_
  split
  · refine yields_bind (yields_any _) fun digest _ => yields_pure ?_
    rintro entry heq
    rw [← Option.some.inj heq]
  · exact yields_pure fun entry heq => absurd heq (by simp)

/-! ## The verification, with the paths it rereads -/

/-- What the final verification finds at a path. -/
inductive Verdict where
  | accepted
  | reread (fresh hashed : FileEntry)
  | diverged

def verdict (planned : Manifest × Manifest) (touched : List String) (result : ReconcileResult)
    (rel : String) : M P Verdict :=
  match result.localManifest.get rel, result.remoteManifest.get rel with
  | some left, some right =>
    if hashesAgree left right then return .accepted
    else if ¬ (left.sha256.isSome ∧ right.sha256.isSome) ∧
        keptGeneration a rel touched (planned.1.get rel, planned.2.get rel)
          (some left, some right) = true then return .accepted
    else do
      match ← expected (rehash env rel right) with
      | some (some (fresh, hashed)) => return .reread fresh hashed
      | _ => return .diverged
  | _, _ => return .diverged

/-- A result, and the paths whose entries were replaced by reread ones. -/
abbrev Traced := ReconcileResult × List String

def Traced.record (traced : Traced) (rel : String) : Verdict → Traced
  | .accepted => traced
  | .reread fresh hashed => ({ traced.1 with
      localManifest := traced.1.localManifest.set rel fresh
      remoteManifest := traced.1.remoteManifest.set rel hashed }, traced.2 ++ [rel])
  | .diverged => (traced.1.conflict (changedConflict rel), traced.2)

/-- `verifyPath`, with the paths it rereads. -/
def tracePath (planned : Manifest × Manifest) (touched : List String) (traced : Traced)
    (rel : String) : M P Traced :=
  traced.record rel <$> verdict env a planned touched traced.1 rel

/-- `verifyFinal`, with the paths it rereads. -/
def traceFinal (planned : Manifest × Manifest) (result : ReconcileResult) : M P Traced := do
  let localManifest ← buildManifest env a.surface .controller
  let remoteManifest ← buildManifest env a.surface .target
  let gone ← rootGone env planned.2 remoteManifest
  (unionPaths localManifest remoteManifest).foldlM (tracePath env a planned result.touched)
    (result.rebased localManifest remoteManifest gone, [])

/-- `preflightReconcile`, with the paths it rereads. -/
def tracePreflight : M P Traced := do
  match ← planReconcile env a with
  | .refused result => return (result, [])
  | .ready result plan => do
    ensureRemoteDir env
    let applied ← applyPlan env a result.remoteManifest result plan
    traceFinal env a (result.localManifest, result.remoteManifest) applied

theorem tracePath_fst (planned : Manifest × Manifest) (touched : List String) (traced : Traced)
    (rel : String) :
    Prod.fst <$> tracePath env a planned touched traced rel =
      verifyPath env a planned touched traced.1 rel := by
  unfold tracePath verdict verifyPath
  cases traced.1.localManifest.get rel with
  | none => rfl
  | some left =>
    cases traced.1.remoteManifest.get rel with
    | none => rfl
    | some right =>
      dsimp only
      split
      · rfl
      · split
        · rfl
        · rw [map_bind, map_bind]
          refine congrArg _ (funext fun pair => ?_)
          rcases pair with _ | _ | ⟨fresh, hashed⟩ <;> rfl

theorem traceFinal_fst (planned : Manifest × Manifest) (result : ReconcileResult) :
    Prod.fst <$> traceFinal env a planned result = verifyFinal env a planned result := by
  have hloop : ∀ (paths : List String) traced,
      Prod.fst <$> paths.foldlM (tracePath env a planned result.touched) traced =
        paths.foldlM (verifyPath env a planned result.touched) traced.1 := by
    intro paths
    induction paths with
    | nil => exact fun _ => rfl
    | cons rel rest ih =>
      intro traced
      rw [List.foldlM_cons, List.foldlM_cons, ← tracePath_fst, map_bind, bind_map_left]
      exact congrArg _ (funext ih)
  unfold traceFinal verifyFinal
  simp only [map_bind, hloop]

/-- Leaving the paths out gives the run of the source. -/
theorem tracePreflight_fst : Prod.fst <$> tracePreflight env a = preflightReconcile env a := by
  unfold tracePreflight preflightReconcile
  rw [map_bind]
  refine congrArg _ (funext fun planned => ?_)
  cases planned with
  | refused result => rfl
  | ready result plan => simp only [map_bind, traceFinal_fst]

/-- Every run of the source is traced. -/
theorem traced_of_run {w w' : World P} {result : ReconcileResult}
    (hrun : preflightReconcile env a w = .ok result w') :
    ∃ reread, tracePreflight env a w = .ok (result, reread) w' := by
  rw [← tracePreflight_fst] at hrun
  obtain ⟨traced, htraced, rfl⟩ := map_returns hrun
  exact ⟨traced.2, htraced⟩

/-! ## Preflight -/

/-- The local entries carry their own paths, but those reread carry the last parts. -/
structure TraceInv (traced : Traced) : Prop where
  remote : OwnPaths traced.1.remoteManifest
  own : ∀ rel entry, rel ∉ traced.2 → traced.1.localManifest.get rel = some entry →
    entry.path = rel
  reread : ∀ rel ∈ traced.2, ∃ entry, traced.1.localManifest.get rel = some entry ∧
    entry.path = baseName rel

theorem traceInv_of_ownPaths {result : ReconcileResult} (hlocal : OwnPaths result.localManifest)
    (hremote : OwnPaths result.remoteManifest) : TraceInv (result, []) :=
  ⟨hremote, fun rel entry _ => hlocal rel entry, fun _ hmem => absurd hmem List.not_mem_nil⟩

theorem TraceInv.replace {traced : Traced} (h : TraceInv traced) {rel : String}
    {fresh hashed : FileEntry} (hfresh : fresh.path = baseName rel) (hhashed : hashed.path = rel) :
    TraceInv (traced.record rel (.reread fresh hashed)) := by
  refine ⟨h.remote.set hhashed, fun other entry hother hget => ?_, fun other hother => ?_⟩
  · obtain ⟨hout, hne⟩ := not_or.mp fun hmem => hother (List.mem_append.mpr hmem)
    have hne : other ≠ rel := fun heq => hne (List.mem_singleton.mpr heq)
    exact h.own other entry hout ((Dict.get_set_other traced.1.localManifest fresh hne) ▸ hget)
  · by_cases heq : other = rel
    · subst heq
      exact ⟨fresh, Dict.get_set_self _ _ _, hfresh⟩
    · obtain ⟨entry, hget, hpath⟩ :=
        h.reread other ((List.mem_append.mp hother).resolve_right (by simpa using heq))
      exact ⟨entry, (Dict.get_set_other traced.1.localManifest fresh heq).trans hget, hpath⟩

theorem rehash_paths (rel : String) {right : FileEntry} (hright : right.path = rel) :
    Yields (rehash env rel right) fun pair => ∀ fresh hashed, pair = some (fresh, hashed) →
      fresh.path = baseName rel ∧ hashed.path = rel := by
  refine yields_bind (freshLocalEntry_path env rel _) fun fresh hfresh => ?_
  refine yields_bind (yields_any _) fun remoteHash _ => ?_
  split
  · exact yields_pure fun _ _ heq => absurd heq (by simp)
  · rename_i entry
    split
    · refine yields_pure fun fresh hashed heq => ?_
      obtain ⟨rfl, rfl⟩ := Prod.mk.inj (Option.some.inj heq)
      exact ⟨hfresh entry rfl, hright⟩
    · exact yields_pure fun _ _ heq => absurd heq (by simp)

theorem verdict_paths (planned : Manifest × Manifest) (touched : List String)
    {result : ReconcileResult} (hremote : OwnPaths result.remoteManifest) (rel : String) :
    Yields (verdict env a planned touched result rel) fun found =>
      ∀ fresh hashed, found = .reread fresh hashed →
        fresh.path = baseName rel ∧ hashed.path = rel := by
  unfold verdict
  split
  · rename_i left right hleft hright
    split
    · exact yields_pure fun _ _ heq => absurd heq (by simp)
    · split
      · exact yields_pure fun _ _ heq => absurd heq (by simp)
      · refine yields_bind (yields_expected (rehash_paths env rel (hremote rel right hright)))
          fun pair hpair => ?_
        split
        · refine yields_pure fun fresh hashed heq => ?_
          obtain ⟨rfl, rfl⟩ := Verdict.reread.inj heq
          exact hpair _ rfl _ _ rfl
        · exact yields_pure fun _ _ heq => absurd heq (by simp)
  · exact yields_pure fun _ _ heq => absurd heq (by simp)

theorem tracePath_inv (planned : Manifest × Manifest) (touched : List String) {traced : Traced}
    (h : TraceInv traced) (rel : String) :
    Yields (tracePath env a planned touched traced rel) TraceInv := by
  refine yields_map ((verdict_paths env a planned touched h.remote rel).post
    fun found _ hfound => ?_)
  cases found with
  | accepted => exact h
  | reread fresh hashed =>
    obtain ⟨hfresh, hhashed⟩ := hfound fresh hashed rfl
    exact h.replace hfresh hhashed
  | diverged => exact ⟨h.remote, h.own, h.reread⟩

theorem traceFinal_inv (planned : Manifest × Manifest) (result : ReconcileResult) :
    Yields (traceFinal env a planned result) TraceInv := by
  refine yields_bind (buildManifest_ownPaths env _ _) fun localManifest hlocal => ?_
  refine yields_bind (buildManifest_ownPaths env _ _) fun remoteManifest hremote => ?_
  refine yields_bind (yields_any _) fun gone _ => ?_
  exact yields_foldlM (fun _ => TraceInv) (traceInv_of_ownPaths hlocal hremote)
    fun _ rel _ _ _ h => tracePath_inv env a planned _ h rel

def Planned.result : Planned → ReconcileResult
  | .refused result => result
  | .ready result _ => result

theorem settlePlan_manifests (result : ReconcileResult) (plan : List ClassifiedPath) :
    (settlePlan a P result plan).result.localManifest = result.localManifest ∧
      (settlePlan a P result plan).result.remoteManifest = result.remoteManifest := by
  unfold settlePlan
  dsimp only
  split
  · exact ⟨rfl, rfl⟩
  · split
    · exact ⟨rfl, rfl⟩
    · split <;> exact ⟨rfl, rfl⟩

/-- The manifests of a plan are those of the walks. -/
theorem planReconcile_ownPaths : Yields (planReconcile env a) fun planned =>
    OwnPaths planned.result.localManifest ∧ OwnPaths planned.result.remoteManifest := by
  refine yields_bind (buildManifest_ownPaths env _ _) fun localManifest hlocal => ?_
  refine yields_bind (buildManifest_ownPaths env _ _) fun remoteManifest hremote => ?_
  have hsettle : ∀ result plan, result.localManifest = localManifest →
      result.remoteManifest = remoteManifest →
      OwnPaths (settlePlan a P result plan).result.localManifest ∧
        OwnPaths (settlePlan a P result plan).result.remoteManifest := by
    rintro result plan rfl rfl
    obtain ⟨hl, hr⟩ := settlePlan_manifests (P := P) a result plan
    exact ⟨hl ▸ hlocal, hr ▸ hremote⟩
  refine yields_bind (yields_any _) fun vanished _ => ?_
  split
  · exact yields_pure ⟨hlocal, hremote⟩
  · unfold resolvePlan
    split
    · exact yields_pure (hsettle _ _ rfl rfl)
    · refine yields_bind (yields_any _) fun resolved _ => ?_
      split
      · exact yields_pure ⟨hlocal, hremote⟩
      · exact yields_pure (hsettle _ _ rfl rfl)

theorem tracePreflight_inv : Yields (tracePreflight env a) TraceInv := by
  refine yields_bind (planReconcile_ownPaths env a) fun planned hplanned => ?_
  cases planned with
  | refused result => exact yields_pure (traceInv_of_ownPaths hplanned.1 hplanned.2)
  | ready result plan =>
    refine yields_bind (yields_any _) fun _ _ => ?_
    exact yields_bind (yields_any _) fun applied _ => traceFinal_inv env a _ applied

/-! ## Pullback -/

structure Progress.OwnPaths (acc : Progress) : Prop where
  nextLocal : Reconcile.OwnPaths acc.nextLocal
  nextRemote : Reconcile.OwnPaths acc.nextRemote

variable {b : PullbackArgs}

theorem Progress.OwnPaths.advance {acc : Progress} (h : acc.OwnPaths) {rel : String}
    (localEntry : FileEntry) {remoteEntry : FileEntry} (hremote : remoteEntry.path = rel) :
    (acc.advance rel localEntry remoteEntry).OwnPaths :=
  ⟨h.nextLocal.set rfl, h.nextRemote.set hremote⟩

theorem Progress.OwnPaths.forget {acc : Progress} (h : acc.OwnPaths) (rel : String) :
    (acc.forget rel).OwnPaths :=
  ⟨h.nextLocal.pop rel, h.nextRemote.pop rel⟩

theorem preserveRemote_ownPaths {acc : Progress} (h : acc.OwnPaths) (rel : String) :
    Yields (preserveRemote env acc rel) Progress.OwnPaths :=
  yields_bind (yields_any _) fun _ _ => yields_pure ⟨h.nextLocal, h.nextRemote⟩

theorem pullOutput_ownPaths {acc : Progress} (h : acc.OwnPaths) {rel : String}
    {manifested : FileEntry} (hremote : manifested.path = rel) (remoteEntry : FileEntry) :
    Yields (pullOutput env b acc rel manifested remoteEntry) Progress.OwnPaths := by
  refine yields_bind (yields_any _) fun _ _ => ?_
  refine yields_bind (yields_any _) fun _ _ => ?_
  refine yields_bind (yields_any _) fun verify _ => ?_
  split
  · rename_i entry _
    obtain ⟨hlocal, hremote⟩ := h.advance entry hremote
    exact yields_pure ⟨hlocal, hremote⟩
  · exact yields_throw _

theorem settleOutput_ownPaths {acc : Progress} (h : acc.OwnPaths) {rel : String}
    {manifested : FileEntry} (hremote : manifested.path = rel) (remoteEntry : FileEntry) :
    Yields (settleOutput env b acc rel manifested remoteEntry) Progress.OwnPaths := by
  refine yields_bind (yields_any _) fun localNow _ => ?_
  split
  · rename_i entry _
    obtain ⟨hlocal, hremote⟩ := h.advance entry hremote
    exact yields_pure ⟨hlocal, hremote⟩
  · split
    · exact preserveRemote_ownPaths env h rel
    · exact pullOutput_ownPaths env h hremote remoteEntry

theorem changedStep_ownPaths {postRemote : Manifest} (hpost : Reconcile.OwnPaths postRemote)
    (collide : List String) {acc : Progress} (h : acc.OwnPaths) (rel : String) :
    Yields (changedStep env b postRemote collide acc rel) Progress.OwnPaths := by
  unfold changedStep
  split
  · exact yields_pure ⟨h.nextLocal, h.nextRemote⟩
  · split
    · exact yields_pure ⟨h.nextLocal, h.nextRemote⟩
    · rename_i manifested hmanifested
      refine yields_bind (yields_any _) fun strong _ => ?_
      split
      · exact preserveRemote_ownPaths env h rel
      · exact settleOutput_ownPaths env h (hpost rel manifested hmanifested) _

theorem deletedStep_ownPaths {acc : Progress} (h : acc.OwnPaths) (rel : String) :
    Yields (deletedStep env b acc rel) Progress.OwnPaths := by
  refine yields_bind (yields_any _) fun localNow _ => ?_
  split
  · exact yields_pure (h.forget rel)
  · split
    · exact yields_pure ⟨h.nextLocal, h.nextRemote⟩
    · refine yields_bind (yields_any _) fun _ _ => ?_
      refine yields_bind (yields_any _) fun _ _ => ?_
      refine yields_bind (yields_any _) fun verify _ => ?_
      split
      · exact yields_throw _
      · obtain ⟨hlocal, hremote⟩ := h.forget rel
        exact yields_pure ⟨hlocal, hremote⟩

theorem pullChanges_ownPaths (hlocal : OwnPaths b.preLocal) (hremote : OwnPaths b.preRemote)
    {postRemote : Manifest} (hpost : OwnPaths postRemote) (curLocal : Manifest) :
    Yields (pullChanges env b postRemote curLocal) Progress.OwnPaths := by
  refine yields_bind (r := Progress.OwnPaths) ?_ fun acc hacc => ?_
  · exact yields_foldlM (fun _ => Progress.OwnPaths) ⟨hlocal, hremote⟩
      fun _ rel _ _ _ h => changedStep_ownPaths env hpost _ h rel
  · exact yields_foldlM (fun _ => Progress.OwnPaths) hacc
      fun _ rel _ _ _ h => deletedStep_ownPaths env h rel

/-- What a pullback returns and hands on. -/
structure PullbackResult.Represented (parse : String → Option Int) (post : PullbackResult) :
    Prop where
  after : Reconcile.Represented parse post.localManifestAfter post.postRemoteManifest
  next : ∀ next, post.nextBaseline = some next →
    Reconcile.Represented parse next.localManifest next.remoteManifest

theorem postrunPullback_represented (parse : String → Option Int) (hlocal : OwnPaths b.preLocal)
    (hremote : OwnPaths b.preRemote) :
    Yields (postrunPullback env b) (PullbackResult.Represented parse) := by
  refine yields_bind (buildManifest_ownPaths env _ _) fun postRemote hpost => ?_
  refine yields_bind (buildManifest_ownPaths env _ _) fun curLocal hcur => ?_
  split
  · refine yields_bind (yields_any _) fun _ _ => yields_pure ?_
    refine ⟨(represented_iff parse).mpr ⟨hcur, hpost⟩, fun _ heq => ?_⟩
    exact absurd heq (by simp [escapeResult])
  · refine yields_bind (pullChanges_ownPaths env hlocal hremote hpost curLocal) fun acc hacc => ?_
    refine yields_bind (buildManifest_ownPaths env _ _) fun localAfter hafter => yields_pure ?_
    refine ⟨(represented_iff parse).mpr ⟨hafter, hpost⟩, fun next heq => ?_⟩
    unfold Progress.result at heq
    dsimp only at heq
    split at heq
    · rw [← Option.some.inj heq]
      exact (represented_iff parse).mpr ⟨hacc.nextLocal, hacc.nextRemote⟩
    · exact absurd heq (by simp)

/-- The pullbacks after a preflight: of the same run, or of a recovery, which reads the
manifests of the run back. -/
def Follows (parse : String → Option Int) (result : ReconcileResult) (b : PullbackArgs) : Prop :=
  (b.preLocal = result.localManifest ∧ b.preRemote = result.remoteManifest) ∨
    (readManifest parse (some (writeManifest result.localManifest)) = some b.preLocal ∧
      readManifest parse (some (writeManifest result.remoteManifest)) = some b.preRemote)

theorem Follows.ownPaths {parse : String → Option Int} {result : ReconcileResult}
    (h : Follows parse result b) (hlocal : OwnPaths result.localManifest)
    (hremote : OwnPaths result.remoteManifest) : OwnPaths b.preLocal ∧ OwnPaths b.preRemote := by
  rcases h with ⟨hl, hr⟩ | ⟨hl, hr⟩
  · exact ⟨hl ▸ hlocal, hr ▸ hremote⟩
  · rw [readManifest_written] at hl hr
    rw [← Option.some.inj hl, ← Option.some.inj hr]
    exact ⟨ownPaths_restored _, ownPaths_restored _⟩

end Keys

/-! ## Concrete runs -/

/-- A first run that hashes nothing while it scans. -/
def unhashedArgs : PreflightArgs where
  surface := ⟨[], [], 0⟩
  prevLocal := none
  prevRemote := none
  backupBelowBytes := 0
  isFallback := false

/-- A file below a directory that the target does not have. -/
def nestedWorld : World (samplePlatform false) := .ofTrees _ [("d/f", .file [97] 5 420)] []

/-- The run ends without conflicts, stores this path under the key and rereads the key. -/
def stores {P : Platform} (key path : String) :
    EStateM.Result Fault (World P) Traced → Bool
  | .ok traced _ => traced.1.conflicts = [] && traced.2 = [key] &&
      (traced.1.localManifest.get key).map FileEntry.path = some path
  | .error _ _ => false

theorem nested_stored : ∃ traced w',
    tracePreflight (calmEnv (samplePlatform false)) unhashedArgs nestedWorld = .ok traced w' ∧
      traced.1.conflicts = [] ∧ traced.2 = ["d/f"] ∧
      (traced.1.localManifest.get "d/f").map FileEntry.path = some "f" := by
  have hstores : stores "d/f" "f"
      (tracePreflight (calmEnv (samplePlatform false)) unhashedArgs nestedWorld) = true := by
    decide +kernel
  cases hrun : tracePreflight (calmEnv (samplePlatform false)) unhashedArgs nestedWorld with
  | error fault w' =>
    rw [hrun] at hstores
    exact absurd hstores (by simp [stores])
  | ok traced w' =>
    rw [hrun] at hstores
    simp only [stores, Bool.and_eq_true, decide_eq_true_eq] at hstores
    exact ⟨traced, w', rfl, hstores.1.1, hstores.1.2, hstores.2⟩

theorem nested_run : ∃ result w',
    preflightReconcile (calmEnv (samplePlatform false)) unhashedArgs nestedWorld =
      .ok result w' ∧ result.conflicts = [] ∧
      (result.localManifest.get "d/f").map FileEntry.path = some "f" := by
  obtain ⟨traced, w', hrun, hclean, _, hpath⟩ := nested_stored
  refine ⟨traced.1, w', ?_, hclean, hpath⟩
  rw [← tracePreflight_fst]
  change EStateM.map Prod.fst _ nestedWorld = _
  rw [EStateM.map, hrun]

end Remrun.Reconcile
