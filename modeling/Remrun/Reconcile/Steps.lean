import Remrun.Reconcile.Preflight

/-!
# Rules for the steps of a call

A program of looks keeps every condition that other writers do not disturb. A write keeps
it if the change itself does.
-/

namespace Remrun.Reconcile

open Keyed Effect
set_option autoImplicit false

section Steps
variable {P : Platform} {env : Env P} {α β : Type}

/-- A condition that other writers do not disturb. -/
def Steady (env : Env P) (I : World P → Prop) : Prop := ∀ w, I w → I (w.disturbed env)

/-- The program only reads. -/
def Reading (env : Env P) (m : M P α) : Prop := ∀ I, Steady env I → Keeps I m

theorem reading_look (read : World P → α) : Reading env (look env read) := by
  intro I hI w hw
  unfold look
  cases env.failure w.calls <;> exact hI w hw

theorem reading_pure (a : α) : Reading env (pure a : M P α) := fun _ _ => keeps_pure a

theorem reading_throw (fault : Fault) : Reading env (throw fault : M P α) :=
  fun _ _ => keeps_throw fault

theorem reading_bind {m : M P β} {f : β → M P α} (hm : Reading env m)
    (hf : ∀ b, Reading env (f b)) : Reading env (m >>= f) :=
  fun I hI => keeps_bind (hm I hI) fun b => hf b I hI

theorem reading_map {m : M P β} {f : β → α} (hm : Reading env m) : Reading env (f <$> m) :=
  fun I hI => keeps_map (hm I hI)

theorem reading_tryCatch {m : M P α} {handle : Fault → M P α} (hm : Reading env m)
    (hh : ∀ fault, Reading env (handle fault)) : Reading env (tryCatch m handle) :=
  fun I hI => keeps_tryCatch (hm I hI) fun fault => hh fault I hI

theorem reading_foldlM {f : α → β → M P α} {items : List β} {init : α}
    (hstep : ∀ acc item, Reading env (f acc item)) : Reading env (items.foldlM f init) :=
  fun I hI => keeps_foldlM fun acc item _ => hstep acc item I hI

/-- A write keeps what its change keeps. -/
theorem keeps_act {I : World P → Prop} {change : Nat → World P → Except Fault (World P)}
    (hI : Steady env I) (hchange : ∀ n w w', I w → change n w = .ok w' → I w') :
    Keeps I (act env change) := by
  intro w hw
  unfold act
  cases hf : env.failure w.calls with
  | none =>
    cases hc : change w.calls (w.disturbed env) with
    | ok w' => exact hchange _ _ _ (hI w hw) hc
    | error fault => exact hI w hw
  | some failure =>
    obtain ⟨fault, landed⟩ := failure
    cases landed with
    | false => exact hI w hw
    | true =>
      cases hc : change w.calls (w.disturbed env) with
      | ok w' => exact hchange _ _ _ (hI w hw) hc
      | error fault' => exact hI w hw

/-! ## Looks -/

theorem reading_inspect (message : String) (read : World P → α) :
    Reading env (inspect env message read) :=
  reading_tryCatch (reading_look read) fun _ => reading_throw _

theorem reading_hashOrRaise (side : Side) (rel message : String) :
    Reading env (hashOrRaise env side rel message) := by
  refine reading_bind (reading_inspect _ _) fun answer => ?_
  cases answer with
  | none => exact reading_throw _
  | some bytes => exact reading_pure _

theorem reading_hashIf (wanted : Bool) (side : Side) (rel message : String) :
    Reading env (hashIf env wanted side rel message) := by
  unfold hashIf
  split
  · exact reading_map (reading_hashOrRaise _ _ _)
  · exact reading_pure _

theorem reading_hashFile (rel : String) : Reading env (hashFile env rel) := by
  refine reading_bind (reading_look _) fun answer => ?_
  cases answer with
  | none => exact reading_throw _
  | some text => exact reading_pure _

theorem reading_remoteRootPresent : Reading env (remoteRootPresent env) := by
  refine reading_tryCatch (reading_look _) fun fault => ?_
  split
  · exact reading_pure _
  · exact reading_throw _

theorem reading_addEntry (s : Surface) (side : Side) (manifest : Manifest) (rel : String) :
    Reading env (addEntry env s side manifest rel) := by
  refine reading_bind (reading_inspect _ _) fun node => ?_
  split
  · split
    · exact reading_pure _
    · exact reading_throw _
  · exact reading_bind (reading_hashIf _ _ _ _) fun digest => reading_pure _
  · exact reading_pure _

theorem reading_buildManifest (s : Surface) (side : Side) :
    Reading env (buildManifest env s side) := by
  refine reading_bind (reading_inspect _ _) fun listing => ?_
  split
  · exact reading_pure _
  · split
    · exact reading_throw _
    · exact reading_pure _
  · exact reading_foldlM fun manifest rel => reading_addEntry s side manifest rel

theorem reading_freshLocalEntry (rel : String) (hashIfSize : Option Nat) :
    Reading env (freshLocalEntry env rel hashIfSize) := by
  refine reading_bind (reading_inspect _ _) fun node => ?_
  split
  · exact reading_bind (reading_hashIf _ _ _ _) fun digest => reading_pure _
  · exact reading_pure _

theorem reading_orHash {known : Option String} {compute : M P String}
    (h : Reading env compute) : Reading env (orHash known compute) := by
  unfold orHash
  split
  · split
    · exact reading_pure _
    · exact h
  · exact h

theorem reading_expected {m : M P α} (h : Reading env m) : Reading env (expected m) := by
  refine reading_tryCatch (reading_map h) fun fault => ?_
  split
  · exact reading_pure _
  · exact reading_throw _

theorem reading_probeGone {suspect : Bool} {present : M P Bool} (h : Reading env present) :
    Reading env (probeGone suspect present) := by
  unfold probeGone
  split
  · exact reading_map h
  · exact reading_pure _

theorem reading_vanishedRoot (a : PreflightArgs) (localManifest remoteManifest : Manifest) :
    Reading env (vanishedRoot env a localManifest remoteManifest) := by
  unfold vanishedRoot
  split
  · refine reading_bind (reading_probeGone reading_remoteRootPresent) fun remoteGone => ?_
    split
    · exact reading_pure _
    · refine reading_bind (reading_probeGone (reading_look _)) fun localGone => ?_
      split <;> exact reading_pure _
  · exact reading_pure _

theorem reading_survives (localManifest remoteManifest : Manifest) (item : ClassifiedPath) :
    Reading env (survives env localManifest remoteManifest item) := by
  unfold survives
  split
  · exact reading_pure _
  · split
    · split
      · exact reading_pure _
      · refine reading_bind (reading_expected ?_) fun hashes => ?_
        · refine reading_bind (reading_orHash ?_) fun localHash => ?_
          · refine reading_bind (reading_look _) fun answer => ?_
            cases answer with
            | none => exact reading_throw _
            | some bytes => exact reading_pure _
          · exact reading_bind (reading_orHash (reading_hashFile _)) fun _ => reading_pure _
        · split <;> exact reading_pure _
    · exact reading_pure _

theorem reading_dropIdenticalConflicts (localManifest remoteManifest : Manifest)
    (conflicts : List ClassifiedPath) :
    Reading env (dropIdenticalConflicts env localManifest remoteManifest conflicts) := by
  refine reading_foldlM fun survivors item => ?_
  refine reading_bind (reading_survives _ _ _) fun stays => ?_
  split <;> exact reading_pure _

theorem reading_planReconcile (a : PreflightArgs) : Reading env (planReconcile env a) := by
  refine reading_bind (reading_buildManifest _ _) fun localManifest => ?_
  refine reading_bind (reading_buildManifest _ _) fun remoteManifest => ?_
  refine reading_bind (reading_vanishedRoot _ _ _) fun vanished => ?_
  split
  · exact reading_pure _
  · unfold resolvePlan
    split
    · exact reading_pure _
    · refine reading_bind (reading_dropIdenticalConflicts _ _ _) fun resolved => ?_
      split <;> exact reading_pure _

theorem reading_alreadyConverged (rel : String) (remoteEntry : Option FileEntry) :
    Reading env (alreadyConverged env rel remoteEntry) := by
  unfold alreadyConverged
  split
  · exact reading_pure _
  · split
    · exact reading_pure _
    · split
      · exact reading_pure _
      · refine reading_bind (reading_freshLocalEntry _ _) fun localNow => ?_
        split <;> exact reading_pure _

theorem reading_rehash (rel : String) (right : FileEntry) : Reading env (rehash env rel right) := by
  refine reading_bind (reading_freshLocalEntry _ _) fun fresh => ?_
  refine reading_bind (reading_orHash (reading_hashFile _)) fun remoteHash => ?_
  split
  · exact reading_pure _
  · split <;> exact reading_pure _

theorem reading_verifyPath (a : PreflightArgs) (planned : Manifest × Manifest)
    (touched : List String) (result : ReconcileResult) (rel : String) :
    Reading env (verifyPath env a planned touched result rel) := by
  unfold verifyPath
  split
  · split
    · exact reading_pure _
    · split
      · exact reading_pure _
      · refine reading_bind (reading_expected (reading_rehash _ _)) fun pair => ?_
        split <;> exact reading_pure _
  · exact reading_pure _

theorem reading_rootGone (remoteManifest finalRemote : Manifest) :
    Reading env (rootGone env remoteManifest finalRemote) := by
  refine reading_bind (reading_look _) fun isDir => ?_
  split
  · exact reading_probeGone reading_remoteRootPresent
  · exact reading_pure _

theorem reading_verifyFinal (a : PreflightArgs) (planned : Manifest × Manifest)
    (result : ReconcileResult) : Reading env (verifyFinal env a planned result) := by
  refine reading_bind (reading_buildManifest _ _) fun localManifest => ?_
  refine reading_bind (reading_buildManifest _ _) fun remoteManifest => ?_
  refine reading_bind (reading_rootGone _ _) fun gone => ?_
  exact reading_foldlM fun result rel => reading_verifyPath _ _ _ _ _

/-! ## Writes -/

section Writes
variable {I : World P → Prop}

theorem keeps_ensureRemoteDir (hI : Steady env I)
    (h : ∀ w root, I w → I { w with remoteRoot := root, log := w.log ++ [.ensureRemoteDir] }) :
    Keeps I (ensureRemoteDir env) := by
  refine keeps_act hI fun n w w' hw hchange => ?_
  split at hchange
  · rw [← Except.ok.inj hchange]
    exact h w _ hw
  · simp at hchange
  · rw [← Except.ok.inj hchange]
    exact h w w.remoteRoot hw

theorem keeps_pullFile (rel : String) (hI : Steady env I)
    (h : ∀ w root, I w → I { w with
      localRoot := root, log := w.log ++ [.pull rel (w.localRoot.get rel)] }) :
    Keeps I (pullFile env rel) := by
  refine keeps_act hI fun n w w' hw hchange => ?_
  split at hchange
  · simp at hchange
  · obtain ⟨root, _, heq⟩ := bind_eq_ok.mp hchange
    rw [← Except.ok.inj heq]
    exact h w root hw

theorem keeps_saveRemote (rel : String) (hI : Steady env I)
    (h : ∀ w area, I w → I { w with saved := area, log := w.log ++ [.save rel] }) :
    Keeps I (saveRemote env rel) := by
  refine keeps_act hI fun n w w' hw hchange => ?_
  split at hchange
  · simp at hchange
  · obtain ⟨area, _, heq⟩ := bind_eq_ok.mp hchange
    rw [← Except.ok.inj heq]
    exact h w area hw

theorem keeps_pushFile (rel : String) (hI : Steady env I)
    (h : ∀ w root, I w → I { w with remoteRoot := root, log := w.log ++ [.push rel] }) :
    Keeps I (pushFile env rel) := by
  refine keeps_act hI fun n w w' hw hchange => ?_
  split at hchange
  · simp at hchange
  · obtain ⟨root, _, heq⟩ := bind_eq_ok.mp hchange
    rw [← Except.ok.inj heq]
    exact h w root hw

theorem keeps_deleteRemote (rel : String) (hI : Steady env I)
    (h : ∀ w root, I w → I { w with remoteRoot := root, log := w.log ++ [.deleteRemote rel] }) :
    Keeps I (deleteRemote env rel) := by
  refine keeps_act hI fun n w w' hw hchange => ?_
  obtain ⟨root, _, heq⟩ := bind_eq_ok.mp hchange
  rw [← Except.ok.inj heq]
  exact h w root hw

theorem keeps_deleteLocal (rel : String) (hI : Steady env I)
    (h : ∀ w root, I w → I { w with
      localRoot := root, log := w.log ++ [.deleteLocal rel (w.localRoot.get rel)] }) :
    Keeps I (deleteLocal env rel) := by
  refine keeps_act hI fun n w w' hw hchange => ?_
  obtain ⟨root, _, heq⟩ := bind_eq_ok.mp hchange
  rw [← Except.ok.inj heq]
  exact h w root hw

theorem keeps_backupLocal (rel : String) (maxBytes : Nat) (hI : Steady env I)
    (h : ∀ w area, I w → I { w with backup := area, log := w.log ++ [.backup rel] }) :
    Keeps I (backupLocal env rel maxBytes) := by
  refine keeps_bind (reading_look _ I hI) fun node => ?_
  split
  · exact keeps_pure _
  · exact keeps_pure _
  · split
    · exact keeps_pure _
    · refine keeps_bind (keeps_act hI fun n w w' hw hchange => ?_) fun _ => keeps_pure _
      split at hchange
      · simp at hchange
      · rw [← Except.ok.inj hchange]
        exact h w _ hw

end Writes

end Steps

end Remrun.Reconcile
