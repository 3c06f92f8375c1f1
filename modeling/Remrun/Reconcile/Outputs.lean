import Remrun.Reconcile.PullbackSteps

/-!
# The outputs of a command

A pullback that returns accounts for every path that the command changed or deleted, and
saves the remote version of the conflicting ones.
-/

namespace Remrun.Reconcile

open Keyed Effect
set_option autoImplicit false

section Outputs
variable {P : Platform}

/-! ## What is promised -/

/-- The bytes of a file of an area outside the trees. -/
def areaFile {key : String → String} (area : Dict key Node) (rel : String) : Option Bytes :=
  (area.get rel).bind Node.fileBytes

/-- A pullback loses no change of the command. Where no path leaves its scope, each changed or
deleted path is in exactly one list, or deleted remotely and absent locally; where one does,
the conflicts are the paths that left it and nothing local changes. The remote version of
every conflict is saved. -/
structure LosesNothing (a : PullbackArgs) (w : World P) (result : PullbackResult)
    (w' : World P) : Prop where
  post : result.postRemoteManifest = postOf P a w
  accounted : escapedAt a w = [] → ∃ absent,
    (result.pulled ++ result.skippedIdentical ++ result.deletedLocal ++ result.conflicts ++
      absent).Perm (changedAt a w ++ deletedAt a w) ∧
    (result.pulled ++ result.skippedIdentical ++ result.deletedLocal ++ result.conflicts ++
      absent).Nodup ∧
    ∀ rel ∈ absent, rel ∈ deletedAt a w ∧ w'.localRoot.file rel = none
  escaped : escapedAt a w ≠ [] → result.conflicts = escapedAt a w ∧
    w'.localRoot = w.localRoot ∧ result.nextBaseline = none
  saved : ∀ rel ∈ result.conflicts, ∀ entry, (postOf P a w).get rel = some entry →
    ∃ bytes, w.remoteRoot.file rel = some bytes ∧ areaFile w'.saved rel = some bytes

/-- The saved area has a place for every conflict: the remote version of an output that
collides with another local name is there already, and no two outputs that left the scope
fold onto one name, unless they are the same. -/
structure Savable (a : PullbackArgs) (w : World P) : Prop where
  collisions : escapedAt a w = [] → ∀ rel ∈ collideAt a w,
    areaFile w.saved rel = w.remoteRoot.file rel
  escapes : ∀ rel ∈ escapedAt a w, ∀ rel' ∈ escapedAt a w,
    (postOf P a w).get rel ≠ none → (postOf P a w).get rel' ≠ none →
    P.localKey rel = P.localKey rel' → w.remoteRoot.file rel = w.remoteRoot.file rel'

/-! ## Changed paths -/

section Loops
variable {env : Env P} {a : PullbackArgs} {rel : String} {start w w' : World P}
  {done : List String} {acc acc' : Progress}

theorem areaFile_set_self {key : String → String} (area : Dict key Node) (n : Nat)
    (bytes : Bytes) : areaFile (area.set rel (env.written n bytes)) rel = some bytes := by
  rw [areaFile, Dict.get_set_self]
  rfl

structure OutputInv (a : PullbackArgs) (start : World P) (done : List String) (acc : Progress)
    (w : World P) : Prop where
  frame : Frame start done w
  sorted : (acc.pulled ++ acc.skippedIdentical ++ acc.conflicts).Perm done
  noneDeleted : acc.deletedLocal = []
  collided : ∀ rel ∈ done, rel ∈ collideAt a start → rel ∈ acc.conflicts
  unsaved : ∀ rel ∈ collideAt a start, w.saved.get rel = start.saved.get rel
  saved : ∀ rel ∈ acc.conflicts, rel ∉ collideAt a start →
    areaFile w.saved rel = start.remoteRoot.file rel

theorem mem_changedAt_of_collide (h : rel ∈ collideAt a start) : rel ∈ changedAt a start := by
  unfold collideAt PullbackArgs.collide at h
  split at h
  · exact (List.mem_filter.mp h).1
  · exact absurd h List.not_mem_nil

/-- A list of the accumulator grows at its end. -/
theorem perm_snoc_middle {α : Type} (front back : List α) (x : α) :
    (front ++ [x] ++ back).Perm (front ++ back ++ [x]) := by
  rw [List.append_assoc, List.append_assoc]
  exact List.Perm.append_left front List.perm_append_comm

theorem OutputInv.step (h : OutputInv a start done acc w) {rest : List String}
    (hsplit : changedAt a start = done ++ rel :: rest) {bytes : Bytes} {entry : FileEntry}
    (hbytes : start.remoteRoot.file rel = some bytes)
    (hok : ChangedOk env a (collideAt a start) rel bytes entry acc w acc' w') :
    OutputInv a start (done ++ [rel]) acc' w' := by
  have hframe := hok.frame h.frame
  have hrel := mem_of_split hsplit
  have hconflict : (acc.pulled ++ acc.skippedIdentical ++ (acc.conflicts ++ [rel])).Perm
      (done ++ [rel]) := by
    rw [← List.append_assoc]
    exact h.sorted.append_right [rel]
  have hdone : ∀ q ∈ acc.conflicts, q ∈ done := fun q hq =>
    h.sorted.mem_iff.mp (List.mem_append_right _ hq)
  cases hok with
  | collided hmem idle =>
    refine ⟨hframe, hconflict, h.noneDeleted, fun q hq hin => ?_, fun q hin => ?_,
      fun q hq hclear => ?_⟩
    · rcases List.mem_append.mp hq with hq | hq
      · exact List.mem_append_left _ (h.collided q hq hin)
      · exact List.mem_append_right _ hq
    · rw [idle.saved]
      exact h.unsaved q hin
    · rcases List.mem_append.mp hq with hq | hq
      · rw [idle.saved]
        exact h.saved q hq hclear
      · rw [List.mem_singleton.mp hq] at hclear
        exact absurd hmem hclear
  | preserved hclear reason saves =>
    obtain ⟨n, hsaved⟩ := saves.saved
    have hother : ∀ q ∈ changedAt a start, q ≠ rel → w'.saved.get q = w.saved.get q := by
      intro q hq hne
      rw [hsaved, Dict.get_set_other _ _ (localKey_ne hrel hclear hq hne)]
    refine ⟨hframe, hconflict, h.noneDeleted, fun q hq hin => ?_, fun q hin => ?_,
      fun q hq hnot => ?_⟩
    · rcases List.mem_append.mp hq with hq | hq
      · exact List.mem_append_left _ (h.collided q hq hin)
      · exact List.mem_append_right _ hq
    · rw [hother q (mem_changedAt_of_collide hin) fun heq => hclear (heq ▸ hin)]
      exact h.unsaved q hin
    · rcases List.mem_append.mp hq with hq | hq
      · have hmem : q ∈ changedAt a start := by
          rw [hsplit]
          exact List.mem_append_left _ (hdone q hq)
        have hne : q ≠ rel := by
          have hnodup := changedAt_nodup a start
          rw [hsplit, List.nodup_append] at hnodup
          exact hnodup.2.2 q (hdone q hq) rel List.mem_cons_self
        rw [areaFile, hother q hmem hne]
        exact h.saved q hq hnot
      · rw [List.mem_singleton.mp hq, hsaved, areaFile_set_self, hbytes]
  | skipped hclear reason idle =>
    refine ⟨hframe, ?_, h.noneDeleted, fun q hq hin => ?_, fun q hin => ?_, fun q hq hnot => ?_⟩
    · rw [Progress.skip, ← List.append_assoc]
      exact (perm_snoc_middle _ _ _).trans (h.sorted.append_right [rel])
    · rcases List.mem_append.mp hq with hq | hq
      · exact h.collided q hq hin
      · rw [List.mem_singleton.mp hq] at hin
        exact absurd hin hclear
    · rw [idle.saved]
      exact h.unsaved q hin
    · rw [idle.saved]
      exact h.saved q hq hnot
  | pulled hclear reason pulls _ =>
    refine ⟨hframe, ?_, h.noneDeleted, fun q hq hin => ?_, fun q hin => ?_, fun q hq hnot => ?_⟩
    · rw [Progress.pull, List.append_assoc (acc.pulled ++ [rel])]
      refine (perm_snoc_middle _ _ _).trans ?_
      rw [← List.append_assoc acc.pulled]
      exact h.sorted.append_right [rel]
    · rcases List.mem_append.mp hq with hq | hq
      · exact h.collided q hq hin
      · rw [List.mem_singleton.mp hq] at hin
        exact absurd hin hclear
    · rw [pulls.saved]
      exact h.unsaved q hin
    · rw [pulls.saved]
      exact h.saved q hq hnot

theorem triple_outputLoop (hquiet : env.Quiet) (hroot : start.localRoot ≠ .blocked) :
    Triple (Idle start) ((changedAt a start).foldlM
      (changedStep env a (postOf P a start) (collideAt a start)) (Progress.start a))
      (OutputInv a start (changedAt a start)) (fun _ _ => True) := by
  refine (triple_foldlM (OutputInv a start) ?_).pre fun w hw => ?_
  · intro done rel rest acc hsplit w hw
    obtain ⟨bytes, entry, hbytes, hpost, hentry⟩ :=
      mem_changedAt (mem_of_split hsplit)
    exact ((triple_changedRound hquiet hbytes hpost hentry acc hw.frame).conseq (fun _ => id)
      (fun acc' w' hok => hw.step hsplit hbytes hok) fun _ _ _ => trivial) w rfl
  · exact ⟨.of_idle hw hroot, List.Perm.refl _, rfl, fun q hq => absurd hq List.not_mem_nil,
      fun q _ => by rw [hw.saved], fun q hq => absurd hq List.not_mem_nil⟩

/-! ## Deleted paths -/

/-- What the loops have accounted for; `absent` are the deleted paths that no longer are files
of the controller. -/
structure AccountInv (a : PullbackArgs) (start : World P) (done : List String) (acc : Progress)
    (w : World P) : Prop where
  sorted : ∃ absent, (acc.pulled ++ acc.skippedIdentical ++ acc.deletedLocal ++ acc.conflicts ++
      absent).Perm (changedAt a start ++ done) ∧
    ∀ rel ∈ absent, rel ∈ done ∧ w.localRoot.file rel = none
  collided : ∀ rel ∈ collideAt a start, rel ∈ acc.conflicts
  unsaved : ∀ rel ∈ collideAt a start, w.saved.get rel = start.saved.get rel
  saved : ∀ rel ∈ acc.conflicts, rel ∈ changedAt a start → rel ∉ collideAt a start →
    areaFile w.saved rel = start.remoteRoot.file rel

theorem AccountInv.step (h : AccountInv a start done acc w) (hnew : rel ∉ changedAt a start)
    (hok : DeletedOk a rel acc w acc' w') : AccountInv a start (done ++ [rel]) acc' w' := by
  obtain ⟨absent, hperm, habsent⟩ := h.sorted
  have hperm' := hperm.append_right [rel]
  rw [List.append_assoc (changedAt a start)] at hperm'
  cases hok with
  | absent gone idle =>
    refine ⟨⟨absent ++ [rel], ?_, fun q hq => ?_⟩, h.collided, ?_, ?_⟩
    · rw [← List.append_assoc]
      exact hperm'
    · rw [idle.localRoot]
      rcases List.mem_append.mp hq with hq | hq
      · exact ⟨List.mem_append_left _ (habsent q hq).1, (habsent q hq).2⟩
      · rw [List.mem_singleton.mp hq]
        exact ⟨List.mem_append_right _ List.mem_cons_self, file_of_freshEntry_none gone⟩
    · rw [idle.saved]
      exact h.unsaved
    · rw [idle.saved]
      exact h.saved
  | edited present reason idle =>
    refine ⟨⟨absent, ?_, fun q hq => ?_⟩, fun q hq => List.mem_append_left _ (h.collided q hq),
      ?_, ?_⟩
    · rw [Progress.conflict, ← List.append_assoc]
      exact (perm_snoc_middle _ _ _).trans hperm'
    · rw [idle.localRoot]
      exact ⟨List.mem_append_left _ (habsent q hq).1, (habsent q hq).2⟩
    · rw [idle.saved]
      exact h.unsaved
    · intro q hq hchanged hclear
      rw [idle.saved]
      rcases List.mem_append.mp hq with hq | hq
      · exact h.saved q hq hchanged hclear
      · rw [List.mem_singleton.mp hq] at hchanged
        exact absurd hchanged hnew
  | deleted present reason deletes =>
    refine ⟨⟨absent, ?_, fun q hq => ?_⟩, h.collided, ?_, ?_⟩
    · change (acc.pulled ++ acc.skippedIdentical ++ (acc.deletedLocal ++ [rel]) ++ acc.conflicts ++
        absent).Perm _
      rw [← List.append_assoc, List.append_assoc _ acc.conflicts]
      refine (perm_snoc_middle _ _ _).trans ?_
      rw [← List.append_assoc]
      exact hperm'
    · exact ⟨List.mem_append_left _ (habsent q hq).1, deletes.file_none (habsent q hq).2⟩
    · rw [deletes.saved]
      exact h.unsaved
    · rw [deletes.saved]
      exact h.saved

theorem deleted_not_changed (h : rel ∈ deletedAt a start) : rel ∉ changedAt a start := by
  intro hchanged
  obtain ⟨_, entry, _, hentry, _⟩ := mem_changedAt hchanged
  rw [mem_deletedAt h] at hentry
  exact nomatch hentry

theorem triple_pullChanges_outputs (hquiet : env.Quiet) (hroot : start.localRoot ≠ .blocked) :
    Triple (Idle start) (pullChanges env a (postOf P a start)
      (manifestOf P a.surface .controller start.localRoot))
      (AccountInv a start (deletedAt a start)) (fun _ _ => True) := by
  refine triple_bind (triple_outputLoop hquiet hroot) fun acc => ?_
  refine (triple_foldlM (AccountInv a start) ?_).pre fun w hw => ?_
  · intro done rel rest acc hsplit w hw
    have hrel := mem_of_split hsplit
    exact ((triple_deletedStep hquiet acc).conseq (fun _ => id)
      (fun acc' w' hok => hw.step (deleted_not_changed hrel) hok) fun _ _ _ => trivial) w rfl
  · refine ⟨⟨[], ?_, fun q hq => absurd hq List.not_mem_nil⟩, fun q hq => ?_, hw.unsaved,
      fun q hq _ => hw.saved q hq⟩
    · rw [hw.noneDeleted, List.append_nil, List.append_nil, List.append_nil]
      exact hw.sorted
    · exact hw.collided q (mem_changedAt_of_collide hq) hq

/-! ## Escaped outputs -/

/-- Each output saved so far holds the remote version of some output of its local name. -/
structure EscapeInv (start : World P) (done : List String) (w : World P) : Prop where
  localRoot : w.localRoot = start.localRoot
  remoteRoot : w.remoteRoot = start.remoteRoot
  saved : ∀ rel ∈ done, ∃ rel' ∈ done, P.localKey rel' = P.localKey rel ∧
    areaFile w.saved rel = start.remoteRoot.file rel'

theorem triple_saveEscaped (hquiet : env.Quiet) (escaped : List String) :
    Triple (Idle start) (saveEscaped env (postOf P a start) escaped)
      (fun _ => EscapeInv start (escaped.filter fun rel => ((postOf P a start).get rel).isSome))
      (fun _ _ => True) := by
  refine (triple_foldlM (fun done _ => EscapeInv start done) ?_).pre fun w hw => ?_
  · intro done rel rest _ hsplit
    have hmem := mem_of_split hsplit
    obtain ⟨entry, hentry⟩ := Option.isSome_iff_exists.mp (List.mem_filter.mp hmem).2
    obtain ⟨bytes, hbytes, _⟩ := entry_of_manifestOf hentry
    refine triple_saveRemote (steady_of_quiet hquiet fun _ _ hw =>
      ⟨hw.localRoot, hw.remoteRoot, hw.saved⟩) (fun _ _ _ _ => trivial) (fun _ _ _ _ => trivial)
      bytes (fun w hw => ?_) (fun _ _ _ => trivial) fun n w hw _ => ?_
    · rw [hw.remoteRoot]
      exact (get_of_file hbytes).1
    · refine ⟨hw.localRoot, hw.remoteRoot, fun q hq => ?_⟩
      by_cases hkey : P.localKey q = P.localKey rel
      · refine ⟨rel, List.mem_append_right _ List.mem_cons_self, hkey.symm, ?_⟩
        rw [areaFile, Dict.get_congr _ hkey, ← areaFile, areaFile_set_self, hbytes]
      · rcases List.mem_append.mp hq with hq | hq
        · obtain ⟨q', hq', hkey', hsaved⟩ := hw.saved q hq
          refine ⟨q', List.mem_append_left _ hq', hkey', ?_⟩
          rw [areaFile, Dict.get_set_other _ _ hkey]
          exact hsaved
        · rw [List.mem_singleton.mp hq] at hkey
          exact absurd rfl hkey
  · exact ⟨hw.localRoot, hw.remoteRoot, fun q hq => absurd hq List.not_mem_nil⟩

end Loops

/-! ## The whole call -/

section Calls
variable {env : Env P} {a : PullbackArgs} {w w' : World P} {result : PullbackResult}

/-- What a call has done when it returns. -/
inductive Ended (a : PullbackArgs) (w : World P) : PullbackResult → World P → Prop
  | inScope {acc : Progress} {localAfter : Manifest} {w' : World P} (h : escapedAt a w = [])
    (inv : AccountInv a w (deletedAt a w) acc w') :
    Ended a w (acc.result (postOf P a w) localAfter) w'
  | escaped {w' : World P} (h : escapedAt a w ≠ [])
    (inv : EscapeInv w ((escapedAt a w).filter fun rel => ((postOf P a w).get rel).isSome) w') :
    Ended a w (escapeResult (escapedAt a w) (postOf P a w)
      (manifestOf P a.surface .controller w.localRoot)) w'

theorem postrun_ended (hquiet : env.Quiet) (hrun : postrunPullback env a w = .ok result w') :
    Ended a w result w' := by
  have htriple : Triple (fun s => s = w) (postrunPullback env a) (Ended a w) fun _ _ => True := by
    refine triple_postrun (fun acc w' => escapedAt a w = [] ∧
      AccountInv a w (deletedAt a w) acc w') hquiet (fun _ _ _ _ => trivial) (fun hescaped => ?_)
      (fun hscope hroot => ?_) (fun acc => ?_) (fun _ _ _ _ => trivial) fun acc localAfter w' hw' =>
        .inScope hw'.1 hw'.2
    · exact (triple_saveEscaped hquiet _).post fun _ w' hw' => .escaped hescaped hw'
    · exact (triple_pullChanges_outputs hquiet hroot).post fun acc w' hw' => ⟨hscope, hw'⟩
    · exact steady_of_quiet hquiet fun _ _ hw' =>
        ⟨hw'.1, hw'.2.sorted, hw'.2.collided, hw'.2.unsaved, hw'.2.saved⟩
  exact htriple.ok rfl hrun

theorem paths_nodup (a : PullbackArgs) (w : World P) :
    (changedAt a w ++ deletedAt a w).Nodup := by
  rw [List.nodup_append]
  refine ⟨changedAt_nodup a w, deletedAt_nodup a w, ?_⟩
  rintro rel hchanged _ hdeleted rfl
  exact deleted_not_changed hdeleted hchanged

/-- An output is a file of the remote tree. -/
theorem mem_changed_of_conflict {acc : Progress} (h : AccountInv a w (deletedAt a w) acc w')
    {rel : String} (hrel : rel ∈ acc.conflicts) {entry : FileEntry}
    (hentry : (postOf P a w).get rel = some entry) : rel ∈ changedAt a w := by
  obtain ⟨absent, hperm, _⟩ := h.sorted
  have hmem : rel ∈ changedAt a w ++ deletedAt a w :=
    hperm.mem_iff.mp (List.mem_append_left _ (List.mem_append_right _ hrel))
  refine (List.mem_append.mp hmem).resolve_right fun hdeleted => ?_
  rw [mem_deletedAt hdeleted] at hentry
  exact nomatch hentry

theorem Ended.losesNothing (h : Ended a w result w') (hsavable : Savable a w) :
    LosesNothing a w result w' := by
  cases h with
  | inScope hscope inv =>
    obtain ⟨absent, hperm, habsent⟩ := inv.sorted
    refine ⟨rfl, fun _ => ⟨absent, hperm, hperm.nodup_iff.mpr (paths_nodup a w), habsent⟩,
      fun hescaped => absurd hscope hescaped, fun rel hrel entry hentry => ?_⟩
    obtain ⟨bytes, hbytes, _⟩ := entry_of_manifestOf hentry
    refine ⟨bytes, hbytes, ?_⟩
    rw [← hbytes]
    by_cases hcollide : rel ∈ collideAt a w
    · rw [← hsavable.collisions hscope rel hcollide, areaFile, areaFile,
        inv.unsaved rel hcollide]
    · exact inv.saved rel hrel (mem_changed_of_conflict inv hrel hentry) hcollide
  | escaped hescaped inv =>
    refine ⟨rfl, fun hscope => absurd hscope hescaped, fun _ => ⟨rfl, inv.localRoot, rfl⟩,
      fun rel hrel entry hentry => ?_⟩
    obtain ⟨bytes, hbytes, _⟩ := entry_of_manifestOf hentry
    refine ⟨bytes, hbytes, ?_⟩
    obtain ⟨rel', hrel', hkey, hsaved⟩ := inv.saved rel
      (List.mem_filter.mpr ⟨hrel, by rw [hentry]; rfl⟩)
    obtain ⟨hmem', hpost'⟩ := List.mem_filter.mp hrel'
    rw [hsaved, ← hbytes]
    refine hsavable.escapes rel' hmem' rel hrel ?_ (by rw [hentry]; simp) hkey
    exact Option.isSome_iff_ne_none.mp hpost'

theorem Ended.savable (h : Ended a w result w') (hloses : LosesNothing a w result w') :
    Savable a w := by
  cases h with
  | inScope hscope inv =>
    refine ⟨fun _ rel hrel => ?_, fun rel hrel => ?_⟩
    · obtain ⟨_, entry, _, hentry, _⟩ := mem_changedAt (mem_changedAt_of_collide hrel)
      obtain ⟨bytes, hbytes, hsaved⟩ := hloses.saved rel (inv.collided rel hrel) entry hentry
      rw [hbytes, ← hsaved, areaFile, areaFile, inv.unsaved rel hrel]
    · rw [hscope] at hrel
      exact absurd hrel List.not_mem_nil
  | escaped hescaped inv =>
    refine ⟨fun hscope => absurd hscope hescaped, ?_⟩
    intro rel hrel rel' hrel' hpost hpost' hkey
    obtain ⟨entry, hentry⟩ := Option.ne_none_iff_exists'.mp hpost
    obtain ⟨entry', hentry'⟩ := Option.ne_none_iff_exists'.mp hpost'
    obtain ⟨bytes, hbytes, hsaved⟩ := hloses.saved rel hrel entry hentry
    obtain ⟨bytes', hbytes', hsaved'⟩ := hloses.saved rel' hrel' entry' hentry'
    rw [areaFile, Dict.get_congr _ hkey] at hsaved
    rw [hbytes, hbytes', ← hsaved, ← hsaved', areaFile]

/-- A pullback that returns loses no change of the command exactly if the saved area has a
place for every conflict. -/
theorem pullback_losesNothing (env : Env P) (a : PullbackArgs) (w w' : World P)
    (result : PullbackResult) (hquiet : env.Quiet)
    (hrun : postrunPullback env a w = .ok result w') :
    LosesNothing a w result w' ↔ Savable a w :=
  ⟨(postrun_ended hquiet hrun).savable, (postrun_ended hquiet hrun).losesNothing⟩

end Calls

end Outputs

/-! ## Concrete runs -/

/-- A command that creates files, on a controller without distinction of case. -/
def freshArgs : PullbackArgs where
  surface := ⟨[], [], 10⟩
  preRemote := Dict.empty
  preLocal := Dict.empty
  backupBelowBytes := 0
  writeScope := []

def outputWorld (remoteNodes : List (String × Node)) : World (samplePlatform true) :=
  .ofTrees _ [] remoteNodes

/-- The result has these conflicts, and the saved area these names. -/
def endsWith {P : Platform} (conflicts savedNames : List String) :
    EStateM.Result Fault (World P) PullbackResult → Bool
  | .ok result w => result.conflicts = conflicts && w.saved.keys = savedNames
  | .error _ _ => false

theorem endsWith_ok {P : Platform} (conflicts savedNames : List String)
    (outcome : EStateM.Result Fault (World P) PullbackResult)
    (h : endsWith conflicts savedNames outcome = true) : ∃ result w', outcome = .ok result w' ∧
      result.conflicts = conflicts ∧ w'.saved.keys = savedNames := by
  cases outcome with
  | error fault w' => simp [endsWith] at h
  | ok result w' =>
    simp only [endsWith, Bool.and_eq_true, decide_eq_true_eq] at h
    exact ⟨result, w', rfl, h.1, h.2⟩

theorem pullback_losesNothing_oneOutput : ∃ result w',
    postrunPullback (calmEnv (samplePlatform true)) freshArgs
      (outputWorld [("f", .file [97] 5 420)]) = .ok result w' ∧
    LosesNothing freshArgs (outputWorld [("f", .file [97] 5 420)]) result w' := by
  obtain ⟨result, w', hrun, _⟩ := endsWith_ok [] []
    (postrunPullback (calmEnv (samplePlatform true)) freshArgs
      (outputWorld [("f", .file [97] 5 420)])) (by decide +kernel)
  refine ⟨result, w', hrun, (pullback_losesNothing _ _ _ _ _ (calmEnv_calm _).toQuiet hrun).mpr
    ⟨fun _ rel hrel => ?_, fun rel hrel => ?_⟩⟩
  · rw [show collideAt freshArgs (outputWorld [("f", .file [97] 5 420)]) = [] by
      decide +kernel] at hrel
    exact absurd hrel List.not_mem_nil
  · rw [show escapedAt freshArgs (outputWorld [("f", .file [97] 5 420)]) = [] by
      decide +kernel] at hrel
    exact absurd hrel List.not_mem_nil

/-- Two outputs that differ in case are conflicts, and neither is saved. -/
theorem pullback_losesOutput : ∃ result w',
    postrunPullback (calmEnv (samplePlatform true)) freshArgs
      (outputWorld [("F", .file [97] 5 420), ("f", .file [98] 5 420)]) = .ok result w' ∧
    ¬ LosesNothing freshArgs (outputWorld [("F", .file [97] 5 420), ("f", .file [98] 5 420)])
      result w' := by
  obtain ⟨result, w', hrun, hconflicts, hsaved⟩ := endsWith_ok ["F", "f"] []
    (postrunPullback (calmEnv (samplePlatform true)) freshArgs
      (outputWorld [("F", .file [97] 5 420), ("f", .file [98] 5 420)])) (by decide +kernel)
  refine ⟨result, w', hrun, fun hloses => ?_⟩
  have hpost : ((postOf (samplePlatform true) freshArgs
      (outputWorld [("F", .file [97] 5 420), ("f", .file [98] 5 420)])).get "f").isSome = true := by
    decide +kernel
  obtain ⟨entry, hentry⟩ := Option.isSome_iff_exists.mp hpost
  obtain ⟨bytes, _, harea⟩ := hloses.saved "f" (by rw [hconflicts]; simp) entry hentry
  have hempty : w'.saved.get "f" = none := by
    rw [Dict.get_eq_none, hsaved]
    exact fun _ hin => absurd hin List.not_mem_nil
  rw [areaFile, hempty] at harea
  exact nomatch harea

end Remrun.Reconcile
