import Remrun.Reconcile.Steps

/-!
# Refusals of preflight

Planning only reads, so a refusal leaves everything as the surroundings alone would have
left it. A plan that is ready has no item that a later stage would have to refuse.
-/

namespace Remrun.Reconcile

open Keyed Effect
set_option autoImplicit false

section Refusals
variable {P : Platform}

/-- What `count` steps of the surroundings alone make of a root. -/
def drift {α : Type} (disturb : Nat → α → α) (start : Nat) : Nat → α → α
  | 0, root => root
  | count + 1, root => disturb (start + count) (drift disturb start count root)

/-- The controller's tree is what the surroundings alone made of it. -/
structure LocalUntouched (env : Env P) (w w' : World P) : Prop where
  calls : w.calls ≤ w'.calls
  localRoot : w'.localRoot = drift env.disturbLocal w.calls (w'.calls - w.calls) w.localRoot

/-- The call wrote nothing: both trees and both roots are what the surroundings alone made
of them, and the areas of the call are as before. -/
structure Untouched (env : Env P) (w w' : World P) : Prop extends LocalUntouched env w w' where
  remoteRoot : w'.remoteRoot = drift env.disturbRemote w.calls (w'.calls - w.calls) w.remoteRoot
  backup : w'.backup = w.backup
  saved : w'.saved = w.saved
  log : w'.log = w.log

/-- The writes made between two states all satisfy `ok`. -/
def Made (ok : Mutation → Prop) (w w' : World P) : Prop :=
  ∃ made, w'.log = w.log ++ made ∧ ∀ m ∈ made, ok m

variable {env : Env P} {w : World P}

theorem LocalUntouched.refl (env : Env P) (w : World P) : LocalUntouched env w w :=
  ⟨le_refl _, by rw [Nat.sub_self]; rfl⟩

theorem Untouched.refl (env : Env P) (w : World P) : Untouched env w w :=
  ⟨.refl env w, by rw [Nat.sub_self]; rfl, rfl, rfl, rfl⟩

theorem steady_localUntouched : Steady env (LocalUntouched env w) := by
  intro w' h
  have hle := h.calls
  refine ⟨Nat.le_succ_of_le hle, ?_⟩
  change env.disturbLocal w'.calls w'.localRoot = drift _ _ (w'.calls + 1 - w.calls) _
  rw [Nat.succ_sub hle, drift, Nat.add_sub_cancel' hle, h.localRoot]

theorem steady_untouched : Steady env (Untouched env w) := by
  intro w' h
  have hle := h.calls
  refine ⟨steady_localUntouched w' h.toLocalUntouched, ?_, h.backup, h.saved, h.log⟩
  change env.disturbRemote w'.calls w'.remoteRoot = drift _ _ (w'.calls + 1 - w.calls) _
  rw [Nat.succ_sub hle, drift, Nat.add_sub_cancel' hle, h.remoteRoot]

theorem Made.refl (ok : Mutation → Prop) (w : World P) : Made ok w w :=
  ⟨[], (List.append_nil _).symm, fun _ h => absurd h List.not_mem_nil⟩

theorem Made.append {ok : Mutation → Prop} {w' w'' : World P} {m : Mutation} (h : Made ok w w')
    (hlog : w''.log = w'.log ++ [m]) (hm : ok m) : Made ok w w'' := by
  obtain ⟨made, hmade, hall⟩ := h
  refine ⟨made ++ [m], by rw [hlog, hmade, List.append_assoc], ?_⟩
  intro x hx
  rcases List.mem_append.mp hx with hx | hx
  · exact hall x hx
  · rw [List.mem_singleton.mp hx]
    exact hm

theorem steady_made {ok : Mutation → Prop} : Steady env (Made ok w) := fun _ h => h

/-! ## What a ready plan may hold -/

/-- The item writes the controller's file. -/
def ClassifiedPath.WritesLocal (item : ClassifiedPath) : Prop :=
  item.action = .pull ∨ item.action = .deleteLocal

/-- No later stage has to refuse the item. -/
structure ItemAllowed (a : PreflightArgs) (item : ClassifiedPath) : Prop where
  fallback : a.isFallback = true → ¬ item.WritesLocal
  bootstrap : item.path ∈ a.surface.includePaths →
    ¬ item.WritesLocal ∧ item.action ≠ .deleteRemote

def Planned.Sound (a : PreflightArgs) : Planned → Prop
  | .refused result => result.conflicts ≠ []
  | .ready result plan => result.conflicts = [] ∧ ∀ item ∈ plan, ItemAllowed a item

theorem mem_okItems {items : List (Except ClassifiedPath ClassifiedPath)} {item : ClassifiedPath} :
    item ∈ okItems items ↔ .ok item ∈ items := by
  simp only [okItems, List.mem_filterMap]
  constructor
  · rintro ⟨x, hx, h⟩
    cases x with
    | ok y => exact (Option.some.inj h) ▸ hx
    | error y => simp at h
  · exact fun h => ⟨_, h, rfl⟩

theorem bootstrapItem_ok {a : PreflightArgs} {localManifest remoteManifest : Manifest}
    {item item' : ClassifiedPath} (h : bootstrapItem a localManifest remoteManifest item = .ok item')
    (hpath : item'.path ∈ a.surface.includePaths) :
    ¬ item'.WritesLocal ∧ item'.action ≠ .deleteRemote := by
  unfold bootstrapItem at h
  split at h
  · rename_i hout
    rw [Except.ok.inj h] at hout
    exact absurd hpath hout
  · split at h
    · rw [← Except.ok.inj h]
      exact ⟨by rintro (h | h) <;> simp at h, by simp⟩
    · split at h
      · simp at h
      · rename_i hno
        rw [Except.ok.inj h] at hno
        push Not at hno
        exact ⟨by rintro (h | h); exacts [hno.1 h, hno.2.1 h], hno.2.2⟩

theorem settlePlan_sound {a : PreflightArgs} {result : ReconcileResult}
    {plan : List ClassifiedPath} (hresult : result.conflicts = []) :
    (settlePlan a P result plan).Sound a := by
  unfold settlePlan
  dsimp only
  split
  · rename_i hrefused
    exact hrefused
  · split
    · rename_i hmutations
      exact fun h => hmutations (List.map_eq_nil_iff.mp h)
    · rename_i hfallback
      split
      · rename_i hcollisions
        exact fun h => hcollisions (List.map_eq_nil_iff.mp h)
      · refine ⟨hresult, fun item hitem => ⟨fun hfb hwrites => ?_, fun hpath => ?_⟩⟩
        · have hmem : item ∈ localMutations a (okItems (plan.map
              (bootstrapItem a result.localManifest result.remoteManifest))) := by
            refine List.mem_filter.mpr ⟨hitem, ?_⟩
            rcases hwrites with h | h <;> simp [hfb, h]
          exact hfallback (List.ne_nil_of_mem hmem)
        · obtain ⟨source, _, hsource⟩ := List.mem_map.mp (mem_okItems.mp hitem)
          exact bootstrapItem_ok hsource hpath

theorem planReconcile_sound (env : Env P) (a : PreflightArgs) :
    Yields (planReconcile env a) (Planned.Sound a) := by
  refine yields_bind (yields_any _) fun localManifest _ => ?_
  refine yields_bind (yields_any _) fun remoteManifest _ => ?_
  refine yields_bind (yields_any _) fun vanished _ => ?_
  split
  · exact yields_pure (List.cons_ne_nil _ _)
  · unfold resolvePlan
    split
    · exact yields_pure (settlePlan_sound rfl)
    · refine yields_bind (yields_any _) fun resolved _ => ?_
      split
      · rename_i hresolved
        exact yields_pure hresolved
      · exact yields_pure (settlePlan_sound rfl)

/-! ## The apply loop -/

/-- The apply loop keeps what every write of an allowed item keeps. -/
theorem keeps_applyPlan {I : World P → Prop} {a : PreflightArgs} {plan : List ClassifiedPath}
    (remoteManifest : Manifest) (result : ReconcileResult) (hI : Steady env I)
    (hbackup : ∀ rel w area, I w → I { w with backup := area, log := w.log ++ [.backup rel] })
    (hpush : ∀ rel w root, I w → I { w with remoteRoot := root, log := w.log ++ [.push rel] })
    (hpull : ∀ item ∈ plan, item.action = .pull → ∀ w root, I w → I { w with
      localRoot := root, log := w.log ++ [.pull item.path (w.localRoot.get item.path)] })
    (hdeleteLocal : ∀ item ∈ plan, item.action = .deleteLocal → ∀ w root, I w → I { w with
      localRoot := root, log := w.log ++ [.deleteLocal item.path (w.localRoot.get item.path)] })
    (hdeleteRemote : ∀ item ∈ plan, item.action = .deleteRemote → ∀ w root, I w → I { w with
      remoteRoot := root, log := w.log ++ [.deleteRemote item.path] }) :
    Keeps I (applyPlan env a remoteManifest result plan) := by
  refine keeps_foldlM fun acc item hmem => ?_
  have hitem := (List.mem_filter.mp hmem).1
  unfold applyItem
  cases hact : item.action with
  | none => exact keeps_pure _
  | abortConflict => exact keeps_pure _
  | pull =>
    refine keeps_bind (reading_alreadyConverged _ _ I hI) fun converged => ?_
    split
    · exact keeps_pure _
    · refine keeps_bind (keeps_backupLocal _ _ hI (hbackup item.path)) fun _ => ?_
      refine keeps_bind (keeps_pullFile _ hI (hpull item hitem hact)) fun _ => ?_
      exact keeps_pure _
  | push =>
    refine keeps_bind (reading_alreadyConverged _ _ I hI) fun converged => ?_
    split
    · exact keeps_pure _
    · exact keeps_bind (keeps_pushFile _ hI (hpush item.path)) fun _ => keeps_pure _
  | deleteRemote =>
    exact keeps_bind (keeps_deleteRemote _ hI (hdeleteRemote item hitem hact)) fun _ =>
      keeps_pure _
  | deleteLocal =>
    refine keeps_bind (keeps_backupLocal _ _ hI (hbackup item.path)) fun _ => ?_
    exact keeps_bind (keeps_deleteLocal _ hI (hdeleteLocal item hitem hact)) fun _ =>
      keeps_pure _

theorem applyPlan_conflicts (env : Env P) (a : PreflightArgs) (remoteManifest : Manifest)
    {result : ReconcileResult} (plan : List ClassifiedPath) (h : result.conflicts = []) :
    Yields (applyPlan env a remoteManifest result plan) fun applied => applied.conflicts = [] := by
  refine yields_foldlM (fun _ (acc : ReconcileResult) => acc.conflicts = []) h
    fun done item rest acc _ hacc => ?_
  unfold applyItem
  split
  · refine yields_bind (yields_any _) fun converged _ => ?_
    split
    · exact yields_pure hacc
    · refine yields_bind (yields_any _) fun _ _ => ?_
      exact yields_bind (yields_any _) fun _ _ => yields_pure hacc
  · refine yields_bind (yields_any _) fun converged _ => ?_
    split
    · exact yields_pure hacc
    · exact yields_bind (yields_any _) fun _ _ => yields_pure hacc
  · exact yields_bind (yields_any _) fun _ _ => yields_pure hacc
  · refine yields_bind (yields_any _) fun _ _ => ?_
    exact yields_bind (yields_any _) fun _ _ => yields_pure hacc
  · exact yields_pure hacc
  · exact yields_pure hacc

/-! ## Final verification -/

/-- Every conflict of the final verification is a change during preflight. -/
def OnlyChanged (result : ReconcileResult) : Prop :=
  ∀ conflict ∈ result.conflicts, conflict.state = .preflightChanged

theorem OnlyChanged.conflict {result : ReconcileResult} (h : OnlyChanged result) (rel : String) :
    OnlyChanged (result.conflict (changedConflict rel)) := by
  intro conflict hmem
  rcases List.mem_append.mp hmem with hmem | hmem
  · exact h conflict hmem
  · rw [List.mem_singleton.mp hmem]
    rfl

theorem verifyFinal_onlyChanged (env : Env P) (a : PreflightArgs) (planned : Manifest × Manifest)
    {result : ReconcileResult} (h : result.conflicts = []) :
    Yields (verifyFinal env a planned result) OnlyChanged := by
  refine yields_bind (yields_any _) fun localManifest _ => ?_
  refine yields_bind (yields_any _) fun remoteManifest _ => ?_
  refine yields_bind (yields_any _) fun gone _ => ?_
  refine yields_foldlM (fun _ => OnlyChanged) ?_ fun done rel rest acc _ hacc => ?_
  · intro conflict hmem
    simp only [ReconcileResult.rebased, h, List.nil_append] at hmem
    split at hmem
    · rw [List.mem_singleton.mp hmem]
      rfl
    · exact absurd hmem List.not_mem_nil
  · unfold verifyPath
    split
    · split
      · exact yields_pure hacc
      · split
        · exact yields_pure hacc
        · refine yields_bind (yields_any _) fun pair _ => ?_
          split
          · exact yields_pure hacc
          · exact yields_pure (hacc.conflict rel)
    · exact yields_pure (hacc.conflict rel)

/-! ## The whole call -/

/-- The state in which a call ends, returning or raising. -/
def endState {α : Type} : EStateM.Result Fault (World P) α → World P
  | .ok _ w => w
  | .error _ w => w

theorem Triple.endState {I J : World P → Prop} {α : Type} {m : M P α}
    (h : Triple I m (fun _ => J) fun _ => J) (hw : I w) : J (endState (m w)) := by
  have hrun := h w hw
  cases hm : m w with
  | ok a w' =>
    rw [hm] at hrun
    exact hrun
  | error fault w' =>
    rw [hm] at hrun
    exact hrun

/-- After planning the call keeps what the writes of an allowed plan keep. -/
theorem keeps_preflight {I : World P → Prop} {a : PreflightArgs} (hI : Steady env I)
    (hensure : ∀ w root, I w → I { w with
      remoteRoot := root, log := w.log ++ [.ensureRemoteDir] })
    (happly : ∀ remoteManifest result plan, (∀ item ∈ plan, ItemAllowed a item) →
      Keeps I (applyPlan env a remoteManifest result plan)) :
    Keeps I (preflightReconcile env a) := by
  refine triple_bind ((reading_planReconcile a I hI).and (planReconcile_sound env a) |>.conseq
    (fun w hw => ⟨hw, trivial⟩) (fun _ _ => id) fun _ _ h => h.1) fun planned => ?_
  cases planned with
  | refused result => exact triple_pure fun _ h => h.1
  | ready result plan =>
    intro w hw
    have hrest : Keeps I (ensureRemoteDir env >>= fun _ =>
        applyPlan env a result.remoteManifest result plan >>=
          verifyFinal env a (result.localManifest, result.remoteManifest)) := by
      refine keeps_bind (keeps_ensureRemoteDir hI hensure) fun _ => ?_
      refine keeps_bind (happly _ _ _ hw.2.2) fun applied => ?_
      exact reading_verifyFinal _ _ _ I hI
    exact hrest w hw.1

/-- A conflict that is not a change during preflight comes from planning. -/
theorem preflight_refusal (env : Env P) (a : PreflightArgs) (w : World P) :
    Triple (fun s => s = w) (preflightReconcile env a)
      (fun result w' => OnlyChanged result ∨ Untouched env w w') fun _ _ => True := by
  refine triple_bind (R := fun planned w' => planned.Sound a ∧ Untouched env w w') ?_ ?_
  · refine ((reading_planReconcile a _ (steady_untouched (w := w))).and
      (planReconcile_sound env a)).conseq ?_ (fun _ _ h => ⟨h.2, h.1⟩) fun _ _ _ => trivial
    rintro s rfl
    exact ⟨.refl env s, trivial⟩
  · intro planned
    cases planned with
    | refused result => exact triple_pure fun _ h => Or.inr h.2
    | ready result plan =>
      intro w' hw'
      have hrest : Yields (ensureRemoteDir env >>= fun _ =>
          applyPlan env a result.remoteManifest result plan >>=
            verifyFinal env a (result.localManifest, result.remoteManifest)) OnlyChanged := by
        refine yields_bind (yields_any _) fun _ _ => ?_
        refine yields_bind (applyPlan_conflicts env a _ plan hw'.1.1) fun applied happlied => ?_
        exact verifyFinal_onlyChanged env a _ happlied
      exact (hrest.post fun _ _ => Or.inl) w' trivial

/-- The write does not name a path of the list, other than to push it. -/
def Mutation.Spares (paths : List String) : Mutation → Prop
  | .pull rel _ => rel ∉ paths
  | .deleteLocal rel _ => rel ∉ paths
  | .deleteRemote rel => rel ∉ paths
  | _ => True

theorem preflight_fallback {a : PreflightArgs} (hfallback : a.isFallback = true) :
    Keeps (LocalUntouched env w) (preflightReconcile env a) := by
  refine keeps_preflight steady_localUntouched (fun _ _ h => ⟨h.1, h.2⟩) ?_
  intro remoteManifest result plan hplan
  refine keeps_applyPlan remoteManifest result steady_localUntouched
    (fun _ _ _ h => ⟨h.1, h.2⟩) (fun _ _ _ h => ⟨h.1, h.2⟩) ?_ ?_ fun _ _ _ _ _ h => ⟨h.1, h.2⟩
  · intro item hitem hact
    exact absurd (Or.inl hact) ((hplan item hitem).fallback hfallback)
  · intro item hitem hact
    exact absurd (Or.inr hact) ((hplan item hitem).fallback hfallback)

theorem preflight_spares (a : PreflightArgs) :
    Keeps (Made (Mutation.Spares a.surface.includePaths) w) (preflightReconcile env a) := by
  refine keeps_preflight steady_made (fun _ _ h => h.append rfl trivial) ?_
  intro remoteManifest result plan hplan
  refine keeps_applyPlan remoteManifest result steady_made
    (fun _ _ _ h => h.append rfl trivial) (fun _ _ _ h => h.append rfl trivial) ?_ ?_ ?_
  · intro item hitem hact _ _ h
    exact h.append rfl fun hpath => ((hplan item hitem).bootstrap hpath).1 (Or.inl hact)
  · intro item hitem hact _ _ h
    exact h.append rfl fun hpath => ((hplan item hitem).bootstrap hpath).1 (Or.inr hact)
  · intro item hitem hact _ _ h
    exact h.append rfl fun hpath => ((hplan item hitem).bootstrap hpath).2 hact

end Refusals

end Remrun.Reconcile
