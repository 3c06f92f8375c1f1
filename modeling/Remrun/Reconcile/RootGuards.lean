import Remrun.Reconcile.Blessing

/-!
# Deletions and roots

An empty manifest is a wiped tree or a root that is gone. When the two engines delete on the
other side, and which probes of the root stand behind it.
-/

namespace Remrun.Reconcile

open Keyed Effect
set_option autoImplicit false

section RootGuards
variable {P : Platform}

def Mutation.DeletesLocal : Mutation → Prop
  | .deleteLocal _ _ => True
  | _ => False

def Mutation.DeletesRemote : Mutation → Prop
  | .deleteRemote _ => True
  | _ => False

/-- The call deleted no file of the controller. -/
def SparesLocal (w w' : World P) : Prop := Made (fun m => ¬ m.DeletesLocal) w w'

/-- The call deleted no file of the target. -/
def SparesRemote (w w' : World P) : Prop := Made (fun m => ¬ m.DeletesRemote) w w'

/-- A probe of the remote root in that state finds it. -/
def RemoteSeen (env : Env P) (s : World P) : Prop := ∃ s', remoteRootExists env s = .ok true s'

/-- A probe of the local root in that state finds it. -/
def LocalSeen (env : Env P) (s : World P) : Prop := ∃ s', localRootExists env s = .ok true s'

/-! ## Planned deletions -/

section Plans
variable {localManifest remoteManifest : Manifest} {prevLocal prevRemote : Option Manifest}
  {item : ClassifiedPath}

/-- A planned local deletion is of a file that the baseline records on both sides, and that is
still what the baseline records. -/
structure Mirrors (localManifest : Manifest) (prevLocal prevRemote : Option Manifest)
    (rel : String) : Prop where
  havePrev : prevLocal.isSome = true ∧ prevRemote.isSome = true
  recorded : (prevEntry prevRemote rel).isSome = true
  unchanged : ∃ entry, localManifest.get rel = some entry ∧
    changedSince (prevEntry prevLocal rel) (some entry) = false

/-- What is known where a deletion is planned. -/
theorem classify_deletes {path : String} {le re pl pr : Option FileEntry} {havePrev : Bool}
    (h : classify path le re havePrev pl pr = some item) :
    (item.action = .deleteLocal → havePrev = true ∧ pr.isSome = true ∧
      ∃ entry, le = some entry ∧ changedSince pl (some entry) = false) ∧
    (item.action = .deleteRemote → havePrev = true ∧ pl.isSome = true) := by
  unfold classify at h
  split at h
  · split at h <;> rw [← Option.some.inj h]
    · unfold classifyBoth
      dsimp only
      split_ifs <;> exact ⟨nofun, nofun⟩
    · unfold heuristicDiff
      split
      · split <;> exact ⟨nofun, nofun⟩
      · exact ⟨nofun, nofun⟩
  · rename_i entry
    rw [← Option.some.inj h]
    unfold classifyLocal
    split
    · rename_i hprev
      rw [Bool.and_eq_true] at hprev
      split
      · exact ⟨nofun, nofun⟩
      · rename_i hchanged
        exact ⟨fun _ => ⟨hprev.1, hprev.2, entry, rfl, by simpa using hchanged⟩, nofun⟩
    · exact ⟨nofun, nofun⟩
  · rw [← Option.some.inj h]
    unfold classifyRemote
    split
    · rename_i hprev
      rw [Bool.and_eq_true] at hprev
      split
      · exact ⟨nofun, nofun⟩
      · exact ⟨nofun, fun _ => hprev⟩
    · exact ⟨nofun, nofun⟩
  · simp at h

theorem compareManifests_deleteLocal
    (hitem : item ∈ compareManifests localManifest remoteManifest prevLocal prevRemote)
    (haction : item.action = .deleteLocal) :
    Mirrors localManifest prevLocal prevRemote item.path := by
  obtain ⟨hprev, hrecorded, hentry⟩ := (classify_deletes (mem_compareManifests.mp hitem)).1 haction
  rw [Bool.and_eq_true] at hprev
  exact ⟨hprev, hrecorded, hentry⟩

/-- A planned remote deletion needs a baseline whose local side records the path. -/
theorem compareManifests_deleteRemote
    (hitem : item ∈ compareManifests localManifest remoteManifest prevLocal prevRemote)
    (haction : item.action = .deleteRemote) :
    (prevLocal.isSome = true ∧ prevRemote.isSome = true) ∧
      (prevEntry prevLocal item.path).isSome = true := by
  have hdeletes := (classify_deletes (mem_compareManifests.mp hitem)).2 haction
  rwa [Bool.and_eq_true] at hdeletes

theorem classifySync_deletes {authority : SyncAuthority}
    (hitem : item ∈ classifySync authority localManifest remoteManifest) :
    item.action ≠ .deleteLocal ∧ item.action ≠ .deleteRemote := by
  obtain ⟨path, _, hclassify⟩ := List.mem_filterMap.mp hitem
  unfold classifySyncPath at hclassify
  split at hclassify
  · split at hclassify
    · rw [← Option.some.inj hclassify]
      exact ⟨nofun, nofun⟩
    · split at hclassify <;> rw [← Option.some.inj hclassify] <;> exact ⟨nofun, nofun⟩
  · rw [← Option.some.inj hclassify]
    exact ⟨nofun, nofun⟩
  · rw [← Option.some.inj hclassify]
    exact ⟨nofun, nofun⟩
  · simp at hclassify

end Plans

/-! ## Preflight -/

section Preflight
variable {env : Env P} {a : PreflightArgs} {w : World P}

/-- The planning manifests of a preflight, with the states after each. -/
def PreflightReads (env : Env P) (a : PreflightArgs) (w : World P) (seen : Observed)
    (w₁ w₂ : World P) : Prop :=
  buildManifest env a.surface .controller w = .ok seen.1 w₁ ∧
    buildManifest env a.surface .target w₁ = .ok seen.2 w₂

/-- The states in which the vanished-root guard of preflight probes the remote root. -/
def PreflightProbesRemote (env : Env P) (a : PreflightArgs) (w s : World P) : Prop :=
  ∃ seen w₁ prevLocal prevRemote, PreflightReads env a w seen w₁ s ∧
    a.prevLocal = some prevLocal ∧ a.prevRemote = some prevRemote ∧ prevRemote.rows ≠ [] ∧
    seen.2.rows = []

/-- The states in which it probes the local root. -/
def PreflightProbesLocal (env : Env P) (a : PreflightArgs) (w s : World P) : Prop :=
  ∃ seen w₁ w₂ prevLocal prevRemote, PreflightReads env a w seen w₁ w₂ ∧
    a.prevLocal = some prevLocal ∧ a.prevRemote = some prevRemote ∧
    probeGone (prevRemote.rows ≠ [] ∧ seen.2.rows = []) (remoteRootPresent env) w₂ = .ok false s ∧
    prevLocal.rows ≠ [] ∧ seen.1.rows = []

/-- An empty manifest leads to deletions on the other side only where the call itself found
the root, at or after that manifest. -/
structure PreflightProves (env : Env P) (a : PreflightArgs) (w : World P) : Prop where
  remote : ∀ seen w₁ w₂ prev, PreflightReads env a w seen w₁ w₂ → a.prevRemote = some prev →
    prev.rows ≠ [] → seen.2.rows = [] →
    SparesLocal w (endState (preflightReconcile env a w)) ∨
      ∃ s, PreflightProbesRemote env a w s ∧ w₂.calls ≤ s.calls ∧ RemoteSeen env s
  controller : ∀ seen w₁ w₂, PreflightReads env a w seen w₁ w₂ → seen.1.rows = [] →
    SparesRemote w (endState (preflightReconcile env a w)) ∨
      ∃ s, PreflightProbesLocal env a w s ∧ w₁.calls ≤ s.calls ∧ LocalSeen env s

theorem PreflightReads.unique {seen seen' : Observed} {w₁ w₁' w₂ w₂' : World P}
    (h : PreflightReads env a w seen w₁ w₂) (h' : PreflightReads env a w seen' w₁' w₂') :
    seen = seen' ∧ w₂ = w₂' := by
  obtain ⟨hleft, rfl⟩ := EStateM.Result.ok.inj (h.1.symm.trans h'.1)
  obtain ⟨hright, rfl⟩ := EStateM.Result.ok.inj (h.2.symm.trans h'.2)
  exact ⟨Prod.ext hleft hright, rfl⟩

theorem remoteRootPresent_true {s s' : World P} (h : remoteRootPresent env s = .ok true s') :
    remoteRootExists env s = .ok true s' := by
  rcases tryCatch_returns h with hexists | ⟨fault, s₁, _, hhandle⟩
  · exact hexists
  · split at hhandle <;> cases hhandle

theorem probeGone_false {suspect : Bool} {present : M P Bool} {s s' : World P}
    (h : probeGone suspect present s = .ok false s') (hsuspect : suspect = true) :
    present s = .ok true s' := by
  rw [probeGone, if_pos hsuspect] at h
  obtain ⟨seen, hseen, heq⟩ := map_returns h
  cases seen with
  | true => exact hseen
  | false => cases heq

/-- A guard that lets the plan pass. -/
theorem vanishedRoot_none {seen : Observed} {w₂ w₃ : World P}
    (h : vanishedRoot env a seen.1 seen.2 w₂ = .ok none w₃) {prevLocal prevRemote : Manifest}
    (hlocal : a.prevLocal = some prevLocal) (hremote : a.prevRemote = some prevRemote) :
    ∃ s, probeGone (prevRemote.rows ≠ [] ∧ seen.2.rows = []) (remoteRootPresent env) w₂ =
        .ok false s ∧
      probeGone (prevLocal.rows ≠ [] ∧ seen.1.rows = []) (localRootExists env) s = .ok false w₃ := by
  unfold vanishedRoot at h
  rw [hlocal, hremote] at h
  obtain ⟨remoteGone, s, hgone, h⟩ := bind_returns h
  cases remoteGone with
  | true => cases h
  | false =>
    obtain ⟨localGone, s', hgone', h⟩ := bind_returns h
    cases localGone with
    | true => cases h
    | false =>
      cases h
      exact ⟨s, hgone, hgone'⟩

theorem settlePlan_ready {result result' : ReconcileResult} {plan plan' : List ClassifiedPath}
    (h : settlePlan a P result plan = .ready result' plan') {item : ClassifiedPath}
    (hitem : item ∈ plan') (hdelete : item.action = .deleteLocal ∨ item.action = .deleteRemote) :
    item ∈ plan := by
  unfold settlePlan at h
  dsimp only at h
  split at h
  · cases h
  · split at h
    · cases h
    · split at h
      · cases h
      · cases h
        obtain ⟨source, hsource, hkept⟩ := List.mem_map.mp (mem_okItems.mp hitem)
        unfold bootstrapItem at hkept
        split at hkept
        · exact Except.ok.inj hkept ▸ hsource
        · split at hkept
          · rw [← Except.ok.inj hkept] at hdelete
            rcases hdelete with hdelete | hdelete <;> cases hdelete
          · split at hkept
            · cases hkept
            · exact Except.ok.inj hkept ▸ hsource

/-- What a plan that is applied was made from. -/
theorem planReconcile_ready {result : ReconcileResult} {plan : List ClassifiedPath} {w' : World P}
    (h : planReconcile env a w = .ok (.ready result plan) w') :
    ∃ seen w₁ w₂ w₃, PreflightReads env a w seen w₁ w₂ ∧
      vanishedRoot env a seen.1 seen.2 w₂ = .ok none w₃ ∧
      ∀ item ∈ plan, item.action = .deleteLocal ∨ item.action = .deleteRemote →
        item ∈ compareManifests seen.1 seen.2 a.prevLocal a.prevRemote := by
  obtain ⟨localManifest, w₁, hleft, h⟩ := bind_returns h
  obtain ⟨remoteManifest, w₂, hright, h⟩ := bind_returns h
  obtain ⟨vanished, w₃, hvanished, h⟩ := bind_returns h
  cases vanished with
  | some conflict => cases h
  | none =>
    refine ⟨(localManifest, remoteManifest), w₁, w₂, w₃, ⟨hleft, hright⟩, hvanished, ?_⟩
    intro item hitem hdelete
    dsimp only at h
    unfold resolvePlan at h
    split at h
    · exact settlePlan_ready (EStateM.Result.ok.inj h).1 hitem hdelete
    · obtain ⟨resolved, w₄, _, h⟩ := bind_returns h
      split at h
      · cases h
      · exact (List.mem_filter.mp (settlePlan_ready (EStateM.Result.ok.inj h).1 hitem hdelete)).1

/-- A preflight writes only what its plan allows, and nothing where planning ends it. -/
theorem keeps_made_preflight {ok : Mutation → Prop} (hensure : ok .ensureRemoteDir)
    (hbackup : ∀ rel, ok (.backup rel)) (hpush : ∀ rel, ok (.push rel))
    (hpull : ∀ rel node, ok (.pull rel node))
    (hlocal : ∀ result plan w', planReconcile env a w = .ok (.ready result plan) w' →
      ∀ item ∈ plan, item.action = .deleteLocal → ∀ node, ok (.deleteLocal item.path node))
    (hremote : ∀ result plan w', planReconcile env a w = .ok (.ready result plan) w' →
      ∀ item ∈ plan, item.action = .deleteRemote → ok (.deleteRemote item.path)) :
    Made ok w (endState (preflightReconcile env a w)) := by
  have hplan : Made ok w (endState (planReconcile env a w)) :=
    Triple.endState (reading_planReconcile a _ steady_made) (Made.refl ok w)
  change Made ok w (endState (EStateM.bind (planReconcile env a) _ w))
  unfold EStateM.bind
  cases hrun : planReconcile env a w with
  | error fault w' =>
    rw [hrun] at hplan
    exact hplan
  | ok planned w' =>
    rw [hrun] at hplan
    cases planned with
    | refused result => exact hplan
    | ready result plan =>
      have hI : Steady env (Made ok w) := steady_made
      have hrest : Keeps (Made ok w) (ensureRemoteDir env >>= fun _ =>
          applyPlan env a result.remoteManifest result plan >>=
            verifyFinal env a (result.localManifest, result.remoteManifest)) := by
        refine keeps_bind (keeps_ensureRemoteDir hI fun _ _ h => h.append rfl hensure) fun _ => ?_
        refine keeps_bind (keeps_applyPlan _ _ hI (fun rel _ _ h => h.append rfl (hbackup rel))
          (fun rel _ _ h => h.append rfl (hpush rel))
          (fun item _ _ _ _ h => h.append rfl (hpull item.path _))
          (fun item hitem hact _ _ h => h.append rfl (hlocal result plan w' hrun item hitem hact _))
          fun item hitem hact _ _ h => h.append rfl (hremote result plan w' hrun item hitem hact))
          fun applied => ?_
        exact reading_verifyFinal _ _ _ _ hI
      exact Triple.endState hrest hplan

theorem preflight_proves (env : Env P) (a : PreflightArgs) (w : World P) :
    PreflightProves env a w where
  remote := by
    intro seen w₁ w₂ prevRemote hreads hremote hfiles hempty
    by_cases hseen : RemoteSeen env w₂ ∧ ∃ prevLocal, a.prevLocal = some prevLocal
    · obtain ⟨hseen, prevLocal, hlocal⟩ := hseen
      exact Or.inr ⟨w₂, ⟨seen, w₁, prevLocal, prevRemote, hreads, hlocal, hremote, hfiles, hempty⟩,
        le_refl _, hseen⟩
    · refine Or.inl (keeps_made_preflight id (fun _ => id) (fun _ => id) (fun _ _ => id) ?_
        fun _ _ _ _ _ _ _ => id)
      intro result plan w' hplan item hitem haction
      obtain ⟨seen', w₁', w₂', w₃, hreads', hvanished, hplanned⟩ := planReconcile_ready hplan
      obtain ⟨rfl, rfl⟩ : seen' = seen ∧ w₂' = w₂ := hreads'.unique hreads
      have hmirrors := compareManifests_deleteLocal (hplanned item hitem (Or.inl haction)) haction
      obtain ⟨prevLocal, hlocal⟩ := Option.isSome_iff_exists.mp hmirrors.havePrev.1
      obtain ⟨s, hprobe, _⟩ := vanishedRoot_none hvanished hlocal hremote
      have hpresent := probeGone_false hprobe (decide_eq_true ⟨hfiles, hempty⟩)
      exact absurd ⟨⟨s, remoteRootPresent_true hpresent⟩, prevLocal, hlocal⟩ hseen
  controller := by
    intro seen w₁ w₂ hreads hempty
    by_cases hseen : ∃ s, PreflightProbesLocal env a w s ∧ w₁.calls ≤ s.calls ∧ LocalSeen env s
    · exact Or.inr hseen
    · refine Or.inl (keeps_made_preflight id (fun _ => id) (fun _ => id) (fun _ _ => id)
        (fun _ _ _ _ _ _ _ _ => id) ?_)
      intro result plan w' hplan item hitem haction
      obtain ⟨seen', w₁', w₂', w₃, hreads', hvanished, hplanned⟩ := planReconcile_ready hplan
      obtain ⟨rfl, rfl⟩ : seen' = seen ∧ w₂' = w₂ := hreads'.unique hreads
      obtain ⟨hprev, hrecorded⟩ :=
        compareManifests_deleteRemote (hplanned item hitem (Or.inr haction)) haction
      obtain ⟨prevLocal, hlocal⟩ := Option.isSome_iff_exists.mp hprev.1
      obtain ⟨prevRemote, hremote⟩ := Option.isSome_iff_exists.mp hprev.2
      obtain ⟨s, hprobe, hgone⟩ := vanishedRoot_none hvanished hlocal hremote
      have hfiles : prevLocal.rows ≠ [] := by
        intro hnil
        simp [prevEntry, hlocal, Dict.get, hnil] at hrecorded
      have hpresent := probeGone_false hgone (decide_eq_true ⟨hfiles, hempty⟩)
      have hcalls : w₁.calls ≤ s.calls := by
        have hsteady : Steady env fun w : World P => w₁.calls ≤ w.calls := fun _ h =>
          Nat.le_succ_of_le h
        have hread := (reading_buildManifest a.surface .target _ hsteady).ok (le_refl _) hreads.2
        exact (reading_probeGone reading_remoteRootPresent _ hsteady).ok hread hprobe
      exact absurd ⟨s, ⟨_, w₁, _, prevLocal, prevRemote, hreads, hlocal, hremote, hprobe, hfiles,
        hempty⟩, hcalls, w₃, hpresent⟩ hseen

end Preflight

/-! ## Synchronization -/

section Sync
variable {env : Env P} {a : SyncArgs} {w : World P}

/-- The planning manifests of a synchronization, with the states after each. -/
def SyncReads (env : Env P) (a : SyncArgs) (w : World P) (seen : Observed) (w₁ w₂ : World P) :
    Prop :=
  ∃ w₀, syncProbe env a w = .ok true w₀ ∧
    buildManifest env a.surface .controller w₀ = .ok seen.1 w₁ ∧
    buildManifest env a.surface .target w₁ = .ok seen.2 w₂

/-- The states in which a synchronization probes the remote root. -/
def SyncProbesRemote (a : SyncArgs) (w s : World P) : Prop := a.direction ≠ .push ∧ s = w

/-- The states in which it probes the local root. -/
def SyncProbesLocal (env : Env P) (a : SyncArgs) (w s : World P) : Prop :=
  ∃ seen w₁ prev, SyncReads env a w seen w₁ s ∧ a.baseline = some prev ∧ prev.1.rows ≠ [] ∧
    seen.1.rows = []

/-- An empty remote manifest leads to local deletions only where the call itself found the
remote root, at or after that manifest. -/
def SyncProvesRemote (env : Env P) (a : SyncArgs) (w : World P) : Prop :=
  ∀ seen w₁ w₂ prev, SyncReads env a w seen w₁ w₂ → a.baseline = some prev → prev.2.rows ≠ [] →
    seen.2.rows = [] → SparesLocal w (endState (runSyncResult env a w)) ∨
      ∃ s, SyncProbesRemote a w s ∧ w₂.calls ≤ s.calls ∧ RemoteSeen env s

/-- An empty local manifest leads to remote deletions only where the call itself found the
local root, at or after that manifest. -/
def SyncProvesLocal (env : Env P) (a : SyncArgs) (w : World P) : Prop :=
  ∀ seen w₁ w₂, SyncReads env a w seen w₁ w₂ → seen.1.rows = [] →
    SparesRemote w (endState (runSyncResult env a w)) ∨
      ∃ s, SyncProbesLocal env a w s ∧ w₁.calls ≤ s.calls ∧ LocalSeen env s

/-- Where the remote manifest comes back empty against a baseline with remote files, no local
file is one that the baseline records on both sides and that is unchanged since. -/
def NoneMirrored (env : Env P) (a : SyncArgs) (w : World P) : Prop :=
  ∀ seen w₁ w₂ prev, SyncReads env a w seen w₁ w₂ → a.baseline = some prev → prev.2.rows ≠ [] →
    seen.2.rows = [] → ∀ rel, ¬ Mirrors seen.1 (some prev.1) (some prev.2) rel

theorem SyncReads.unique {seen seen' : Observed} {w₁ w₁' w₂ w₂' : World P}
    (h : SyncReads env a w seen w₁ w₂) (h' : SyncReads env a w seen' w₁' w₂') :
    seen = seen' ∧ w₂ = w₂' := by
  obtain ⟨w₀, hprobe, hleft, hright⟩ := h
  obtain ⟨w₀', hprobe', hleft', hright'⟩ := h'
  obtain ⟨_, rfl⟩ := EStateM.Result.ok.inj (hprobe.symm.trans hprobe')
  obtain ⟨hl, rfl⟩ := EStateM.Result.ok.inj (hleft.symm.trans hleft')
  obtain ⟨hr, rfl⟩ := EStateM.Result.ok.inj (hright.symm.trans hright')
  exact ⟨Prod.ext hl hr, rfl⟩

theorem reading_transported {α : Type} {m : M P α} (h : Reading env m) :
    Reading env (transported m) := by
  refine reading_tryCatch (reading_map h) fun fault => ?_
  cases fault with
  | transportError message => exact reading_pure _
  | _ => exact reading_throw _

theorem reading_planSync : Reading env (planSync env a) := by
  have hprobe : Reading env (syncProbe env a) := by
    unfold syncProbe
    split
    · exact reading_pure _
    · refine reading_tryCatch (reading_look _) fun fault => ?_
      cases fault with
      | transportError message => exact reading_pure _
      | notImplemented => exact reading_pure _
      | _ => exact reading_throw _
  refine reading_bind hprobe fun goes => ?_
  split
  · refine reading_bind (reading_buildManifest _ _) fun localManifest => ?_
    refine reading_bind (reading_transported (reading_buildManifest _ _)) fun remote => ?_
    split
    · exact reading_pure _
    · refine reading_bind (reading_localVanished _) fun gone => ?_
      split
      · exact reading_pure _
      · split <;> exact reading_pure _
  · exact reading_pure _

theorem keeps_transported {α : Type} {I : World P → Prop} {m : M P α} (h : Keeps I m) :
    Keeps I (transported m) := by
  refine keeps_tryCatch (keeps_map h) fun fault => ?_
  cases fault with
  | transportError message => exact keeps_pure _
  | _ => exact keeps_throw _

theorem keeps_attempt {I : World P → Prop} {m : M P Unit} (h : Keeps I m)
    (before after : SyncResult) : Keeps I (attempt m before after) := by
  refine keeps_bind (keeps_transported h) fun out => ?_
  cases out <;> exact keeps_pure _

theorem keeps_continuing {α β : Type} {I : World P → Prop} {f : α → M P (Except SyncResult β)}
    (h : ∀ x, Keeps I (f x)) (acc : Except SyncResult α) : Keeps I (continuing f acc) := by
  cases acc with
  | ok x => exact h x
  | error result => exact keeps_pure _

section Made
variable {ok : Mutation → Prop} (hensure : ok .ensureRemoteDir) (hbackup : ∀ rel, ok (.backup rel))
  (hpush : ∀ rel, ok (.push rel)) (hpull : ∀ rel node, ok (.pull rel node))
  (hsave : ∀ rel, ok (.save rel))

include hbackup hsave in
theorem keeps_made_itemEffect (remoteManifest : Manifest) {item : ClassifiedPath}
    (hlocal : item.action = .deleteLocal → ∀ node, ok (.deleteLocal item.path node))
    (hremote : item.action = .deleteRemote → ok (.deleteRemote item.path)) :
    Keeps (Made ok w) (itemEffect env a remoteManifest item) := by
  have hI : Steady env (Made ok w) := steady_made
  have hsnapshot : Keeps (Made ok w) (backupLocal env item.path a.backupBelowBytes) :=
    keeps_backupLocal _ _ hI fun _ _ h => h.append rfl (hbackup _)
  unfold itemEffect
  cases hact : item.action with
  | none => exact keeps_pure _
  | push => exact keeps_pure _
  | pull => exact keeps_map hsnapshot
  | deleteLocal =>
    exact keeps_bind hsnapshot fun _ => keeps_deleteLocal _ hI fun _ _ h =>
      h.append rfl (hlocal hact _)
  | deleteRemote => exact keeps_deleteRemote _ hI fun _ _ h => h.append rfl (hremote hact)
  | abortConflict =>
    dsimp only
    split
    · exact keeps_saveRemote _ hI fun _ _ h => h.append rfl (hsave _)
    · exact keeps_pure _

include hensure hbackup hpush hpull hsave

theorem keeps_made_applySync {seen : Observed}
    (hlocal : ∀ item ∈ a.toApply seen.1 seen.2, item.action = .deleteLocal →
      ∀ node, ok (.deleteLocal item.path node))
    (hremote : ∀ item ∈ a.toApply seen.1 seen.2, item.action = .deleteRemote →
      ok (.deleteRemote item.path)) : Keeps (Made ok w) (applySync env a seen) := by
  have hI : Steady env (Made ok w) := steady_made
  refine keeps_bind (keeps_foldlM fun acc item hitem => ?_) fun acc => ?_
  · exact keeps_continuing (fun result => keeps_attempt (keeps_made_itemEffect hbackup hsave _
      (hlocal item hitem) (hremote item hitem)) _ _) acc
  refine keeps_bind (keeps_continuing (fun result => ?_) acc) fun acc' => ?_
  · unfold syncPulls
    split
    · exact keeps_pure _
    · exact keeps_attempt (keeps_foldlM fun _ rel _ => keeps_pullFile rel hI fun _ _ h =>
        h.append rfl (hpull _ _)) _ _
  · refine keeps_continuing (fun result => ?_) acc'
    unfold syncPushes
    split
    · exact keeps_pure _
    · refine keeps_bind (keeps_attempt (keeps_bind (keeps_ensureRemoteDir hI fun _ _ h =>
        h.append rfl hensure) fun _ => keeps_foldlM fun _ rel _ => keeps_pushFile rel hI
        fun _ _ h => h.append rfl (hpush _)) _ _) fun out => ?_
      cases out with
      | error failed => exact keeps_pure _
      | ok result' =>
        refine keeps_bind (keeps_tryCatch ?_ fun fault => ?_) fun verified => ?_
        · refine keeps_bind (reading_buildManifest _ _ _ hI) fun verified => ?_
          split
          · exact keeps_throw _
          · exact keeps_pure _
        · cases fault with
          | transportError message => exact keeps_pure _
          | notImplemented => exact keeps_pure _
          | valueError => exact keeps_pure _
          | _ => exact keeps_throw _
        · cases verified <;> exact keeps_pure _

/-- A synchronization writes only what its plan allows, and nothing where planning ends it. -/
theorem keeps_made_sync
    (hlocal : ∀ seen w', planSync env a w = .ok (.ok seen) w' → ∀ item ∈ a.toApply seen.1 seen.2,
      item.action = .deleteLocal → ∀ node, ok (.deleteLocal item.path node))
    (hremote : ∀ seen w', planSync env a w = .ok (.ok seen) w' → ∀ item ∈ a.toApply seen.1 seen.2,
      item.action = .deleteRemote → ok (.deleteRemote item.path)) :
    Made ok w (endState (runSyncResult env a w)) := by
  have hplan : Made ok w (endState (planSync env a w)) :=
    Triple.endState (reading_planSync _ steady_made) (Made.refl ok w)
  change Made ok w (endState (EStateM.bind (planSync env a) _ w))
  unfold EStateM.bind
  cases hrun : planSync env a w with
  | error fault w' =>
    rw [hrun] at hplan
    exact hplan
  | ok planned w' =>
    rw [hrun] at hplan
    cases planned with
    | error result => exact hplan
    | ok seen =>
      have hrest : Keeps (Made ok w) (carryOut env a seen) := by
        unfold carryOut
        split
        · exact keeps_pure _
        · refine keeps_bind (keeps_made_applySync hensure hbackup hpush hpull hsave
            (hlocal seen w' hrun) (hremote seen w' hrun)) fun applied => ?_
          split <;> exact keeps_pure _
      exact Triple.endState hrest hplan

end Made

/-- A local deletion of a synchronization is of a mirrored file. -/
theorem toApply_deleteLocal {seen : Observed} {item : ClassifiedPath}
    (hitem : item ∈ a.toApply seen.1 seen.2) (haction : item.action = .deleteLocal) :
    ∃ prev, a.baseline = some prev ∧ Mirrors seen.1 (some prev.1) (some prev.2) item.path := by
  have hclassified := (List.mem_filter.mp hitem).1
  unfold SyncArgs.classified at hclassified
  split at hclassified
  · rename_i prev hbase
    exact ⟨prev, hbase, compareManifests_deleteLocal hclassified haction⟩
  · exact absurd haction (classifySync_deletes hclassified).1

theorem toApply_deleteRemote {seen : Observed} {item : ClassifiedPath}
    (hitem : item ∈ a.toApply seen.1 seen.2) (haction : item.action = .deleteRemote) :
    ∃ prev, a.baseline = some prev ∧ prev.1.rows ≠ [] := by
  have hclassified := (List.mem_filter.mp hitem).1
  unfold SyncArgs.classified at hclassified
  split at hclassified
  · rename_i prev hbase
    refine ⟨prev, hbase, fun hnil => ?_⟩
    have hrecorded := (compareManifests_deleteRemote hclassified haction).2
    simp [prevEntry, Dict.get, hnil] at hrecorded
  · exact absurd haction (classifySync_deletes hclassified).2

theorem sync_provesLocal (env : Env P) (a : SyncArgs) (w : World P) : SyncProvesLocal env a w := by
  intro seen w₁ w₂ hreads hempty
  by_cases hseen : ∃ s, SyncProbesLocal env a w s ∧ w₁.calls ≤ s.calls ∧ LocalSeen env s
  · exact Or.inr hseen
  · refine Or.inl (keeps_made_sync id (fun _ => id) (fun _ => id) (fun _ _ => id) (fun _ => id)
      (fun _ _ _ _ _ _ _ => id) ?_)
    intro seen' w' hplan item hitem haction
    obtain ⟨w₀, w₁', w₂', hprobe, hleft, hright, hgone, _⟩ := planSync_ok hplan
    obtain ⟨rfl, rfl⟩ : seen' = seen ∧ w₂' = w₂ :=
      SyncReads.unique ⟨w₀, hprobe, hleft, hright⟩ hreads
    obtain ⟨prev, hbase, hfiles⟩ := toApply_deleteRemote hitem haction
    unfold localVanished at hgone
    rw [hbase] at hgone
    have hpresent := probeGone_false hgone (decide_eq_true ⟨hfiles, hempty⟩)
    have hcalls : w₁.calls ≤ w₂'.calls := by
      obtain ⟨_, _, _, hread⟩ := hreads
      have hsteady : Steady env fun w : World P => w₁.calls ≤ w.calls := fun _ h =>
        Nat.le_succ_of_le h
      exact (reading_buildManifest a.surface .target _ hsteady).ok (le_refl _) hread
    exact absurd ⟨w₂', ⟨_, w₁, prev, hreads, hbase, hfiles, hempty⟩, hcalls, w', hpresent⟩ hseen

theorem sync_provesRemote (h : NoneMirrored env a w) : SyncProvesRemote env a w := by
  intro seen w₁ w₂ prev hreads hbase hfiles hempty
  refine Or.inl (keeps_made_sync id (fun _ => id) (fun _ => id) (fun _ _ => id) (fun _ => id) ?_
    fun _ _ _ _ _ _ => id)
  intro seen' w' hplan item hitem haction
  obtain ⟨w₀, w₁', w₂', hprobe, hleft, hright, _, _⟩ := planSync_ok hplan
  obtain ⟨rfl, rfl⟩ : seen' = seen ∧ w₂' = w₂ :=
    SyncReads.unique ⟨w₀, hprobe, hleft, hright⟩ hreads
  obtain ⟨prev', hbase', hmirrors⟩ := toApply_deleteLocal hitem haction
  obtain rfl : prev = prev' := Option.some.inj (hbase.symm.trans hbase')
  exact absurd hmirrors (h seen' w₁ w₂' prev hreads hbase hfiles hempty item.path)

end Sync

/-- Preflight, and a synchronization towards the target, delete on the other side of an empty
manifest only where they found its root at or after it. Towards the controller, a
synchronization deletes nothing in that case if no local file mirrors the baseline. -/
theorem deletions_prove_roots (env : Env P) (pre : PreflightArgs) (a : SyncArgs) (w : World P) :
    PreflightProves env pre w ∧ SyncProvesLocal env a w ∧
      (NoneMirrored env a w → SyncProvesRemote env a w) :=
  ⟨preflight_proves env pre w, sync_provesLocal env a w, sync_provesRemote⟩

end RootGuards

/-! ## Runs against a remote root that disappears -/

/-- The remote root is gone after the first step, the probe. -/
def vanishingEnv : Env (samplePlatform false) :=
  { calmEnv (samplePlatform false) with
    disturbRemote := fun n root => if n = 0 then root else .missing }

/-- The two trees hold `keep`, the controller's with the given content. -/
def keepWorld (bytes : Bytes) : World (samplePlatform false) :=
  World.ofTrees (samplePlatform false) [("keep", .file bytes 1 420)] [("keep", .file [97] 1 420)]

/-- The local file was edited since the baseline. -/
theorem noneMirrored_edited : NoneMirrored vanishingEnv pushArgs (keepWorld [98]) := by
  rintro seen w₁ w₂ prev ⟨w₀, hprobe, hleft, hright⟩ hbase _ _ rel hmirrors
  obtain rfl : (keepBaseline, keepBaseline) = prev := Option.some.inj hbase
  obtain rfl := Observes.eq ⟨w₀, w₁, w₂, hprobe, hleft, hright, rfl⟩
  have hrel : rel = "keep" := by
    have hrecorded := hmirrors.recorded
    simp only [prevEntry, Option.bind_some, keepBaseline, Dict.get_set] at hrecorded
    split at hrecorded
    · rename_i heq
      exact heq
    · simp at hrecorded
  subst hrel
  obtain ⟨entry, hget, hchanged⟩ := hmirrors.unchanged
  rw [← hget] at hchanged
  exact absurd hchanged (by decide +kernel)

theorem deletions_prove_roots_edited :
    NoneMirrored vanishingEnv pushArgs (keepWorld [98]) ∧
      SyncProvesRemote vanishingEnv pushArgs (keepWorld [98]) :=
  ⟨noneMirrored_edited, (deletions_prove_roots vanishingEnv
    ⟨pushArgs.surface, some keepBaseline, some keepBaseline, 0, false⟩ pushArgs (keepWorld [98])).2.2
    noneMirrored_edited⟩

theorem ok_of_value {P : Platform} {α : Type} {r : EStateM.Result Fault (World P) α} {v : α}
    (h : (match r with | .ok v' _ => some v' | .error _ _ => none) = some v) :
    r = .ok v (endState r) := by
  cases r with
  | ok v' s =>
    obtain rfl := Option.some.inj h
    rfl
  | error fault s => cases h

theorem sync_not_provesRemote : ∃ (env : Env (samplePlatform false)) (a : SyncArgs)
    (w : World (samplePlatform false)), a.direction = .both ∧ ¬ SyncProvesRemote env a w := by
  refine ⟨vanishingEnv, pushArgs, keepWorld [97], rfl, fun hproves => ?_⟩
  have hprobe := ok_of_value (v := true)
    (r := syncProbe vanishingEnv pushArgs (keepWorld [97])) (by decide +kernel)
  have hleft := ok_of_value (v := (observedBy vanishingEnv pushArgs (keepWorld [97])).1)
    (r := buildManifest vanishingEnv pushArgs.surface .controller
      (endState (syncProbe vanishingEnv pushArgs (keepWorld [97])))) (by decide +kernel)
  have hright := ok_of_value (v := (observedBy vanishingEnv pushArgs (keepWorld [97])).2)
    (r := buildManifest vanishingEnv pushArgs.surface .target
      (endState (buildManifest vanishingEnv pushArgs.surface .controller
        (endState (syncProbe vanishingEnv pushArgs (keepWorld [97])))))) (by decide +kernel)
  have hlog : (endState (runSyncResult vanishingEnv pushArgs (keepWorld [97]))).log =
      [.backup "keep", .deleteLocal "keep" (some (.file [97] 1 420))] := by decide +kernel
  rcases hproves _ _ _ (keepBaseline, keepBaseline) ⟨_, hprobe, hleft, hright⟩ rfl
    (by decide +kernel) (by decide +kernel) with ⟨made, hmade, hspares⟩ | ⟨s, ⟨_, rfl⟩, hcalls, _⟩
  · rw [hlog] at hmade
    refine hspares (.deleteLocal "keep" (some (.file [97] 1 420))) ?_ trivial
    rw [show (keepWorld [97]).log = [] from rfl, List.nil_append] at hmade
    rw [← hmade]
    decide
  · exact absurd hcalls (by decide +kernel)

end Remrun.Reconcile
