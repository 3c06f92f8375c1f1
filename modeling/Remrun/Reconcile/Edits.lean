import Remrun.Reconcile.PullbackSteps

/-!
# Local edits and the pullback

Before a local file is overwritten or deleted it is compared with the manifest from before
the run. The comparison is by digest where the file is hashed, and by modification time
otherwise.
-/

namespace Remrun.Reconcile

open Keyed Effect
set_option autoImplicit false

section Edits
variable {P : Platform}

/-! ## What is promised -/

/-- The manifest from before the run records the bytes of the node, if it is a file. -/
def RecordedAt (P : Platform) (a : PullbackArgs) (rel : String) : Option Node → Prop
  | some (.file bytes _ _) =>
    ∃ entry, a.preLocal.get rel = some entry ∧ entry.sha256 = some (P.sha256 bytes)
  | _ => True

/-- The write replaces no local file but one that is recorded. -/
def Recorded (P : Platform) (a : PullbackArgs) : Mutation → Prop
  | .pull rel replaced => RecordedAt P a rel replaced
  | .deleteLocal rel removed => RecordedAt P a rel removed
  | _ => True

/-- No entry from before the run, under any name of the file, records these bytes. -/
def Edited (P : Platform) (a : PullbackArgs) (rel : String) (bytes : Bytes) : Prop :=
  ∀ q entry, P.localKey q = P.localKey rel → a.preLocal.get q = some entry →
    entry.sha256 ≠ some (P.sha256 bytes)

/-- The file is a conflict, or it already has the digest of the remote output. -/
def Reported (start : World P) (rel : String) (bytes : Bytes)
    (conflicts skippedIdentical : List String) : Prop :=
  rel ∈ conflicts ∨ (rel ∈ skippedIdentical ∧ ∃ output,
    start.remoteRoot.file rel = some output ∧ P.sha256 bytes = P.sha256 output)

/-- A pullback destroys no local edit: only recorded bytes are overwritten or deleted, an
edited file stays in place however the call ends, and where the call returns it is reported
for every path that the command changed or deleted. -/
structure KeepsEdits (env : Env P) (a : PullbackArgs) (w : World P) : Prop where
  replaced : Made (Recorded P a) w (endState (postrunPullback env a w))
  kept : ∀ rel bytes, w.localRoot.file rel = some bytes → Edited P a rel bytes →
    (endState (postrunPullback env a w)).localRoot.get rel = w.localRoot.get rel
  reported : ∀ result w', postrunPullback env a w = .ok result w' → escapedAt a w = [] →
    ∀ rel ∈ changedAt a w ++ deletedAt a w, ∀ bytes, w.localRoot.file rel = some bytes →
      Edited P a rel bytes → Reported w rel bytes result.conflicts result.skippedIdentical

/-- The entries from before the run carry digests. -/
def Hashed (manifest : Manifest) : Prop :=
  ∀ rel entry, manifest.get rel = some entry → entry.sha256 ≠ none

/-- An edit that the comparison misses: the file has the size and the modification time that
are recorded, but other bytes, and a size other than that of the remote output. -/
structure Exposed (a : PullbackArgs) (w : World P) (rel : String) : Prop where
  inScope : escapedAt a w = []
  changed : rel ∈ changedAt a w
  clear : rel ∉ collideAt a w
  edit : ∃ bytes mtimeNs mode entry output,
    w.localRoot.get rel = some (.file bytes mtimeNs mode) ∧
    w.remoteRoot.file rel = some output ∧ output.length ≠ bytes.length ∧
    a.preLocal.get rel = some entry ∧ entry.kind = "file" ∧ entry.size = bytes.length ∧
    entry.mtimeNs = mtimeNs ∧ entry.sha256 ≠ some (P.sha256 bytes)

/-- A changed path at which the loop cannot go on, as a directory stands in the way. -/
def StopsAt (a : PullbackArgs) (w : World P) (rel : String) : Prop :=
  rel ∉ collideAt a w ∧ ∃ bytes entry, w.remoteRoot.file rel = some bytes ∧
    (postOf P a w).get rel = some entry ∧ Stops P a rel bytes entry w

/-- The loop gets to the path. -/
def Reached (a : PullbackArgs) (w : World P) (rel : String) : Prop :=
  ∀ before after, changedAt a w = before ++ rel :: after → ∀ q ∈ before, ¬ StopsAt a w q

/-! ## Comparisons -/

section Compare
variable {a : PullbackArgs} {rel : String} {bytes : Bytes} {entry : FileEntry}

theorem decided_pull {node : Option Node} (h : decided P a rel bytes entry node = .pull) :
    changedSince (a.preLocal.get rel) (freshEntry P rel (some bytes.length) node) = false := by
  unfold decided decision at h
  split at h
  · cases h
  · split at h
    · cases h
    · rename_i hchanged
      simpa using hchanged

theorem decided_edited {node : Option Node} (h : decided P a rel bytes entry node = .edited) :
    changedSince (a.preLocal.get rel) (freshEntry P rel (some bytes.length) node) = true := by
  unfold decided decision at h
  split at h
  · cases h
  · split at h
    · rename_i hchanged
      exact hchanged
    · cases h

/-- A skipped file has the digest of the remote output. -/
theorem decided_skip {node : Option Node} {localEntry : FileEntry}
    (h : decided P a rel bytes entry node = .skip localEntry)
    (hentry : ManifestEntry P rel bytes entry) :
    ∃ current mtimeNs mode, node = some (.file current mtimeNs mode) ∧
      P.sha256 current = P.sha256 bytes := by
  unfold decided decision at h
  split at h
  · rename_i found hfound
    obtain ⟨hfresh, hsame⟩ := Option.filter_eq_some_iff.mp hfound
    obtain ⟨current, mtimeNs, mode, rfl, rfl⟩ := freshEntry_some hfresh
    refine ⟨current, mtimeNs, mode, rfl, ?_⟩
    obtain ⟨_, hsize, hdigest⟩ := entriesSame_some.mp hsame
    have hlength : some bytes.length = some current.length := by
      rw [show current.length = bytes.length from hsize.trans hentry.size]
    rw [if_pos hlength] at hdigest
    rcases hdigest with ⟨digest, hl, hr⟩ | ⟨hl | hr, _⟩
    · rw [Option.some.inj hl]
      exact (Option.some.inj hr).symm
    · cases hl
    · cases hr
  · split at h <;> cases h

/-- An entry that is unchanged since it was recorded with a digest has that digest, unless
the look at the file did not hash it. -/
theorem recordedAt_of_unchanged (hhashed : Hashed a.preLocal) {size : Option Nat}
    {current : Bytes} {mtimeNs : Int} {mode : Nat}
    (h : changedSince (a.preLocal.get rel)
      (freshEntry P rel size (some (.file current mtimeNs mode))) = false) :
    ∃ entry, a.preLocal.get rel = some entry ∧ entry.kind = "file" ∧
      entry.size = current.length ∧ (entry.sha256 = some (P.sha256 current) ∨
        (size ≠ some current.length ∧ entry.mtimeNs = mtimeNs)) := by
  rw [changedSince, Bool.not_eq_false'] at h
  cases hpre : a.preLocal.get rel with
  | none =>
    rw [hpre, entriesSame_none_left] at h
    exact nomatch h
  | some entry =>
    rw [hpre] at h
    obtain ⟨hkind, hsize, hdigest⟩ := entriesSame_some.mp h
    refine ⟨entry, rfl, hkind, hsize, ?_⟩
    rcases hdigest with ⟨digest, hl, hr⟩ | ⟨hnone, hmtime⟩
    · left
      dsimp only at hr
      split at hr
      · rw [hl, ← Option.some.inj hr]
      · exact nomatch hr
    · right
      refine ⟨fun hlook => ?_, hmtime⟩
      rcases hnone with hl | hr
      · exact hhashed rel entry hpre hl
      · dsimp only at hr
        rw [if_pos hlook] at hr
        exact nomatch hr

/-- A path that is pulled has recorded bytes, unless it is exposed. -/
theorem recordedAt_of_pull (hhashed : Hashed a.preLocal) {w : World P}
    (hscope : escapedAt a w = []) (hrel : rel ∈ changedAt a w) (hclear : rel ∉ collideAt a w)
    (hbytes : w.remoteRoot.file rel = some bytes)
    (h : decided P a rel bytes entry (w.localRoot.get rel) = .pull)
    (hsafe : ¬ Exposed a w rel) : RecordedAt P a rel (w.localRoot.get rel) := by
  have hunchanged := decided_pull h
  unfold RecordedAt
  split
  · rename_i current mtimeNs mode hnode
    rw [hnode] at hunchanged
    obtain ⟨pre, hpre, hkind, hsize, hsha⟩ := recordedAt_of_unchanged hhashed hunchanged
    refine ⟨pre, hpre, ?_⟩
    by_contra hedit
    obtain ⟨hlength, hmtime⟩ := hsha.resolve_left hedit
    refine hsafe ⟨hscope, hrel, hclear, current, mtimeNs, mode, pre, bytes, hnode, hbytes,
      fun heq => hlength (congrArg some heq), hpre, hkind, hsize, hmtime, hedit⟩
  · trivial

/-- A path that is deleted has recorded bytes. -/
theorem recordedAt_of_delete (hhashed : Hashed a.preLocal) {node : Option Node}
    {localNow : FileEntry} (present : deletedNow P a rel node = some localNow)
    (reason : changedSince (a.preLocal.get rel) (some localNow) = false) :
    RecordedAt P a rel node := by
  obtain ⟨current, mtimeNs, mode, rfl, _⟩ := freshEntry_some present
  rw [← present] at reason
  obtain ⟨pre, hpre, _, hsize, hsha⟩ := recordedAt_of_unchanged hhashed reason
  refine ⟨pre, hpre, hsha.resolve_right fun hlook => hlook.1 ?_⟩
  rw [hpre, Option.map_some, hsize]

/-- An edited file is not recorded. -/
theorem Edited.not_recordedAt {q : String} {node : Option Node}
    (h : Edited P a rel bytes) (hkey : P.localKey q = P.localKey rel)
    (hnode : node.bind Node.fileBytes = some bytes) : ¬ RecordedAt P a q node := by
  intro hrecorded
  cases node with
  | none => exact nomatch hnode
  | some node =>
    cases node with
    | link target => exact nomatch hnode
    | other => exact nomatch hnode
    | file current mtimeNs mode =>
      obtain ⟨pre, hpre, hsha⟩ := hrecorded
      rw [show current = bytes from Option.some.inj hnode] at hsha
      exact h q pre hkey hpre hsha

end Compare

/-! ## Edits are kept -/

/-- What the steps so far have kept. -/
structure EditsKept (a : PullbackArgs) (start w : World P) : Prop where
  made : Made (Recorded P a) start w
  kept : ∀ rel bytes, start.localRoot.file rel = some bytes → Edited P a rel bytes →
    w.localRoot.get rel = start.localRoot.get rel

section Kept
variable {env : Env P} {a : PullbackArgs} {rel : String} {bytes : Bytes} {entry : FileEntry}
  {start w w' : World P}

theorem recorded_of_isBackup {m : Mutation} (h : m.IsBackup) : Recorded P a m := by
  cases m with
  | backup rel => trivial
  | _ => exact h.elim

theorem EditsKept.refl (a : PullbackArgs) (w : World P) : EditsKept a w w :=
  ⟨.refl _ w, fun _ _ _ _ => rfl⟩

theorem EditsKept.idle (h : EditsKept a start w) (hidle : Idle w w') : EditsKept a start w' where
  made := h.made.trans (hidle.made.mono fun _ => recorded_of_isBackup)
  kept := fun rel bytes hfile hedit => by
    rw [hidle.localRoot]
    exact h.kept rel bytes hfile hedit

theorem EditsKept.saves (h : EditsKept a start w) (hsaves : Saves env rel bytes w w') :
    EditsKept a start w' where
  made := h.made.trans (hsaves.made.mono fun m hm => by
    rcases hm with hm | rfl
    · exact recorded_of_isBackup hm
    · trivial)
  kept := fun rel bytes hfile hedit => by
    rw [hsaves.localRoot]
    exact h.kept rel bytes hfile hedit

/-- Replacing a recorded file leaves every edited one. -/
theorem EditsKept.replaces (h : EditsKept a start w) {node : Option Node}
    (hreplaced : w.localRoot.Replaced w'.localRoot rel node)
    (hrecorded : RecordedAt P a rel (w.localRoot.get rel)) {q : String} {current : Bytes}
    (hfile : start.localRoot.file q = some current) (hedit : Edited P a q current) :
    w'.localRoot.get q = start.localRoot.get q := by
  have hkept := h.kept q current hfile hedit
  rw [hreplaced.others q ?_, hkept]
  intro hkey
  refine hedit.not_recordedAt (q := rel) hkey.symm ?_ hrecorded
  rw [← Root.get_congr _ hkey, hkept]
  exact hfile

theorem EditsKept.pulls (h : EditsKept a start w) (hpulls : Pulls env rel bytes w w')
    (hrecorded : RecordedAt P a rel (w.localRoot.get rel)) : EditsKept a start w' where
  made := h.made.trans (hpulls.made.mono fun m hm => by
    rcases hm with hm | rfl
    · exact recorded_of_isBackup hm
    · exact hrecorded)
  kept := fun q current hfile hedit => by
    obtain ⟨n, hreplaced⟩ := hpulls.localRoot
    exact h.replaces hreplaced hrecorded hfile hedit

theorem EditsKept.deletes (h : EditsKept a start w) (hdeletes : Deletes rel w w')
    (hrecorded : RecordedAt P a rel (w.localRoot.get rel)) : EditsKept a start w' where
  made := h.made.trans (hdeletes.made.mono fun m hm => by
    rcases hm with hm | rfl
    · exact recorded_of_isBackup hm
    · exact hrecorded)
  kept := fun q current hfile hedit => h.replaces hdeletes.localRoot hrecorded hfile hedit

end Kept

/-! ## The two loops -/

section Loops
variable {env : Env P} {a : PullbackArgs} {rel : String} {start w w' : World P}
  {done : List String} {acc acc' : Progress}

/-- Every edited file among the paths done is reported. -/
def AllReported (a : PullbackArgs) (start : World P) (done : List String) (acc : Progress) : Prop :=
  ∀ rel ∈ done, ∀ bytes, start.localRoot.file rel = some bytes → Edited P a rel bytes →
    Reported start rel bytes acc.conflicts acc.skippedIdentical

theorem AllReported.snoc (h : AllReported a start done acc)
    (hconflicts : acc.conflicts ⊆ acc'.conflicts)
    (hskipped : acc.skippedIdentical ⊆ acc'.skippedIdentical)
    (hrel : ∀ bytes, start.localRoot.file rel = some bytes → Edited P a rel bytes →
      Reported start rel bytes acc'.conflicts acc'.skippedIdentical) :
    AllReported a start (done ++ [rel]) acc' := by
  intro q hq bytes hfile hedit
  rcases List.mem_append.mp hq with hq | hq
  · rcases h q hq bytes hfile hedit with hin | ⟨hin, hsame⟩
    · exact Or.inl (hconflicts hin)
    · exact Or.inr ⟨hskipped hin, hsame⟩
  · rw [List.mem_singleton.mp hq] at hfile hedit ⊢
    exact hrel bytes hfile hedit

theorem AllReported.conflict (h : AllReported a start done acc) :
    AllReported a start (done ++ [rel]) (acc.conflict rel) :=
  h.snoc (List.subset_append_left _ _) (List.Subset.refl _) fun _ _ _ =>
    Or.inl (List.mem_append_right _ List.mem_cons_self)

structure ChangedInv (env : Env P) (a : PullbackArgs) (start : World P) (done : List String)
    (acc : Progress) (w : World P) : Prop where
  frame : Frame start done w
  edits : EditsKept a start w
  reported : AllReported a start done acc
  passed : env.Calm → ∀ q ∈ done, ¬ StopsAt a start q

theorem Env.Calm.no_mishap (h : env.Calm) : ¬ Mishap env := by
  rintro ⟨n, hn | hn⟩
  · exact hn (h.works n)
  · exact hn (h.answers n)

/-- No exposed path is reached. -/
def Safe (env : Env P) (a : PullbackArgs) (w : World P) : Prop :=
  ∀ rel, Exposed a w rel → env.Calm ∧ ¬ Reached a w rel

/-- The paths before one of a list without repetitions are determined. -/
theorem before_unique {items before after done rest : List String} (hnodup : items.Nodup)
    (h : items = before ++ rel :: after) (h' : items = done ++ rel :: rest) : before = done := by
  have hfresh : ∀ front back, items = front ++ rel :: back → rel ∉ front := by
    intro front back hsplit hin
    rw [hsplit, List.nodup_append] at hnodup
    exact hnodup.2.2 rel hin rel List.mem_cons_self rfl
  have hindex : ∀ front back, items = front ++ rel :: back → items.idxOf rel = front.length := by
    intro front back hsplit
    rw [hsplit, List.idxOf_append_of_notMem (hfresh front back hsplit), List.idxOf_cons_self,
      Nat.add_zero]
  have hlength : before.length = done.length :=
    (hindex before after h).symm.trans (hindex done rest h')
  exact (List.append_inj (h.symm.trans h') hlength).1

/-- A path at its turn is not exposed. -/
theorem ChangedInv.not_exposed (h : ChangedInv env a start done acc w) {rest : List String}
    (hsplit : changedAt a start = done ++ rel :: rest) (hsafe : Safe env a start) :
    ¬ Exposed a start rel := by
  intro hexposed
  obtain ⟨hcalm, hreached⟩ := hsafe rel hexposed
  refine hreached fun before after hsplit' q hq => ?_
  rw [before_unique (changedAt_nodup a start) hsplit' hsplit] at hq
  exact h.passed hcalm q hq

theorem ChangedInv.step (h : ChangedInv env a start done acc w) (hhashed : Hashed a.preLocal)
    (hscope : escapedAt a start = []) {rest : List String}
    (hsplit : changedAt a start = done ++ rel :: rest) (hsafe : Safe env a start)
    {bytes : Bytes} {entry : FileEntry} (hbytes : start.remoteRoot.file rel = some bytes)
    (hpost : (postOf P a start).get rel = some entry) (hentry : ManifestEntry P rel bytes entry)
    (hok : ChangedOk env a (collideAt a start) rel bytes entry acc w acc' w') :
    ChangedInv env a start (done ++ [rel]) acc' w' := by
  have hpassed : (env.Calm → rel ∉ collideAt a start → ¬ Stops P a rel bytes entry start) →
      env.Calm → ∀ q ∈ done ++ [rel], ¬ StopsAt a start q := by
    intro hrel hcalm q hq
    rcases List.mem_append.mp hq with hq | hq
    · exact h.passed hcalm q hq
    · rw [List.mem_singleton.mp hq]
      rintro ⟨hclear, bytes', entry', hbytes', hentry', hstops⟩
      rw [hbytes] at hbytes'
      rw [hpost] at hentry'
      rw [← Option.some.inj hbytes', ← Option.some.inj hentry'] at hstops
      exact hrel hcalm hclear hstops
  have hturn := h.frame.at_turn hsplit
  have hrel := mem_of_split hsplit
  have hframe := hok.frame h.frame
  cases hok with
  | collided hmem idle =>
    exact ⟨hframe, h.edits.idle idle, h.reported.conflict,
      hpassed fun _ hclear => absurd hmem hclear⟩
  | preserved hclear reason saves =>
    refine ⟨hframe, h.edits.saves saves, h.reported.conflict, hpassed ?_⟩
    rintro hcalm _ (⟨_, hother⟩ | ⟨hpull, _⟩)
    · exact saves.free ((hturn hclear).2.trans hother)
    · have hedited := reason.resolve_left hcalm.no_mishap
      rw [(hturn hclear).1, hpull] at hedited
      cases hedited
  | skipped hclear reason idle =>
    rw [(hturn hclear).1] at reason
    refine ⟨hframe, h.edits.idle idle, h.reported.snoc (List.Subset.refl _)
      (List.subset_append_left _ _) fun current hfile _ => Or.inr ⟨?_, bytes, hbytes, ?_⟩,
      hpassed ?_⟩
    · exact List.mem_append_right _ List.mem_cons_self
    · obtain ⟨found, mtimeNs, mode, hnode, hsha⟩ := decided_skip reason hentry
      rw [Root.file, hnode] at hfile
      rw [← hsha, show found = current from Option.some.inj hfile]
    · rintro _ _ (⟨hedited, _⟩ | ⟨hpull, _⟩)
      · cases reason.symm.trans hedited
      · cases reason.symm.trans hpull
  | pulled hclear reason pulls _ =>
    rw [(hturn hclear).1] at reason
    have hrecorded := recordedAt_of_pull hhashed hscope hrel hclear hbytes reason
      (h.not_exposed hsplit hsafe)
    refine ⟨hframe, h.edits.pulls pulls (by rw [(hturn hclear).1]; exact hrecorded),
      h.reported.snoc (List.Subset.refl _) (List.Subset.refl _) fun current hfile hedit => ?_,
      hpassed ?_⟩
    · exact absurd hrecorded (hedit.not_recordedAt rfl hfile)
    · rintro _ _ (⟨hedited, _⟩ | ⟨_, hother⟩)
      · cases reason.symm.trans hedited
      · exact pulls.free ((hturn hclear).1.trans hother)

theorem ChangedInv.fail (h : ChangedInv env a start done acc w) (hhashed : Hashed a.preLocal)
    (hscope : escapedAt a start = []) {rest : List String}
    (hsplit : changedAt a start = done ++ rel :: rest) (hsafe : Safe env a start)
    {bytes : Bytes} {entry : FileEntry} (hbytes : start.remoteRoot.file rel = some bytes)
    (hfail : ChangedFail env a (collideAt a start) rel bytes entry w w') :
    EditsKept a start w' := by
  cases hfail with
  | stopped _ _ idle => exact h.edits.idle idle
  | saved _ _ saves => exact h.edits.saves saves
  | pulled hclear _ reason pulls =>
    have hrel := mem_of_split hsplit
    have hturn := (h.frame.at_turn hsplit hclear).1
    refine h.edits.pulls pulls ?_
    rw [hturn] at reason ⊢
    exact recordedAt_of_pull hhashed hscope hrel hclear hbytes reason (h.not_exposed hsplit hsafe)

theorem triple_changedLoop (hquiet : env.Quiet) (hhashed : Hashed a.preLocal)
    (hscope : escapedAt a start = []) (hsafe : Safe env a start)
    (hroot : start.localRoot ≠ .blocked) :
    Triple (Idle start) ((changedAt a start).foldlM
      (changedStep env a (postOf P a start) (collideAt a start)) (Progress.start a))
      (ChangedInv env a start (changedAt a start)) (fun _ => EditsKept a start) := by
  refine (triple_foldlM (ChangedInv env a start) ?_).pre fun w hw => ?_
  · intro done rel rest acc hsplit w hw
    obtain ⟨bytes, entry, hbytes, hpost, hentry⟩ :=
      mem_changedAt (mem_of_split hsplit)
    refine ((triple_changedRound hquiet hbytes hpost hentry acc hw.frame).conseq (fun _ => id)
      (fun acc' w' hok => ?_) fun _ w' hfail => ?_) w rfl
    · exact hw.step hhashed hscope hsplit hsafe hbytes hpost hentry hok
    · exact hw.fail hhashed hscope hsplit hsafe hbytes hfail
  · exact ⟨.of_idle hw hroot, (EditsKept.refl a start).idle hw,
      fun q hq => absurd hq List.not_mem_nil, fun _ q hq => absurd hq List.not_mem_nil⟩

/-- The invariant of the loop over the deleted paths. -/
structure DeletedInv (a : PullbackArgs) (start : World P) (done : List String)
    (acc : Progress) (w : World P) : Prop where
  edits : EditsKept a start w
  reported : AllReported a start (changedAt a start ++ done) acc

theorem DeletedInv.step (h : DeletedInv a start done acc w) (hhashed : Hashed a.preLocal)
    (hok : DeletedOk a rel acc w acc' w') : DeletedInv a start (done ++ [rel]) acc' w' := by
  have hkept : ∀ bytes, start.localRoot.file rel = some bytes → Edited P a rel bytes →
      (w.localRoot.get rel).bind Node.fileBytes = some bytes := by
    intro bytes hfile hedit
    rw [h.edits.kept rel bytes hfile hedit]
    exact hfile
  cases hok with
  | absent gone idle =>
    refine ⟨h.edits.idle idle, ?_⟩
    rw [← List.append_assoc]
    refine h.reported.snoc (List.Subset.refl _) (List.Subset.refl _) fun bytes hfile hedit => ?_
    have hnode := hkept bytes hfile hedit
    unfold deletedNow freshEntry at gone
    split at gone
    · exact nomatch gone
    · rename_i hno
      cases hget : w.localRoot.get rel with
      | none => exact nomatch hget ▸ hnode
      | some node =>
        cases node with
        | file current mtimeNs mode => exact absurd hget (hno current mtimeNs mode)
        | link target => exact nomatch hget ▸ hnode
        | other => exact nomatch hget ▸ hnode
  | edited present reason idle =>
    refine ⟨h.edits.idle idle, ?_⟩
    rw [← List.append_assoc]
    exact h.reported.conflict
  | deleted present reason deletes =>
    have hrecorded := recordedAt_of_delete hhashed present reason
    refine ⟨h.edits.deletes deletes hrecorded, ?_⟩
    rw [← List.append_assoc]
    refine h.reported.snoc (List.Subset.refl _) (List.Subset.refl _) fun bytes hfile hedit => ?_
    exact absurd hrecorded (hedit.not_recordedAt rfl (hkept bytes hfile hedit))

theorem DeletedInv.fail (h : DeletedInv a start done acc w) (hhashed : Hashed a.preLocal)
    (hfail : DeletedFail a rel w w') : EditsKept a start w' := by
  cases hfail with
  | idle idle => exact h.edits.idle idle
  | deleted present reason deletes =>
    exact h.edits.deletes deletes (recordedAt_of_delete hhashed present reason)

/-- The loops keep every edit and report it. -/
theorem triple_pullChanges_edits (hquiet : env.Quiet) (hhashed : Hashed a.preLocal)
    (hscope : escapedAt a start = []) (hsafe : Safe env a start)
    (hroot : start.localRoot ≠ .blocked) :
    Triple (Idle start) (pullChanges env a (postOf P a start)
      (manifestOf P a.surface .controller start.localRoot))
      (DeletedInv a start (deletedAt a start)) (fun _ => EditsKept a start) := by
  refine triple_bind (triple_changedLoop hquiet hhashed hscope hsafe hroot) fun acc => ?_
  refine (triple_foldlM (DeletedInv a start) ?_).pre fun w hw => ?_
  · intro done rel rest acc hsplit w hw
    exact ((triple_deletedStep hquiet acc).conseq (fun _ => id)
      (fun acc' w' hok => hw.step hhashed hok) fun _ w' hfail => hw.fail hhashed hfail) w rfl
  · exact ⟨hw.edits, by rw [List.append_nil]; exact hw.reported⟩

end Loops

/-! ## Calls that keep every edit -/

section Calls
variable {env : Env P} {a : PullbackArgs} {w : World P}

theorem EditsKept.savedOnly {w' : World P} (h : SavedOnly w w') : EditsKept a w w' where
  made := h.made.mono fun m hm => by
    rcases hm with hm | ⟨rel, rfl⟩
    · exact recorded_of_isBackup hm
    · trivial
  kept := fun rel bytes _ _ => by rw [h.localRoot]

/-- What a call has done for the edits when it returns. -/
def EditsReported (a : PullbackArgs) (w : World P) (result : PullbackResult) : Prop :=
  escapedAt a w = [] → ∀ rel ∈ changedAt a w ++ deletedAt a w, ∀ bytes,
    w.localRoot.file rel = some bytes → Edited P a rel bytes →
      Reported w rel bytes result.conflicts result.skippedIdentical

theorem triple_postrun_edits (hquiet : env.Quiet) (hhashed : Hashed a.preLocal)
    (hsafe : Safe env a w) :
    Triple (fun s => s = w) (postrunPullback env a)
      (fun result w' => EditsKept a w w' ∧ EditsReported a w result)
      (fun _ => EditsKept a w) := by
  refine triple_postrun (DeletedInv a w (deletedAt a w)) hquiet
    (fun _ fault w' hw' => (EditsKept.refl a w).idle hw') (fun hescaped => ?_)
    (fun hscope hroot => triple_pullChanges_edits hquiet hhashed hscope hsafe hroot)
    (fun acc => steady_of_quiet hquiet fun _ _ hw' => ⟨⟨hw'.edits.made, hw'.edits.kept⟩, hw'.reported⟩)
    (fun acc fault w' hw' => hw'.edits) fun acc localAfter w' hw' => ?_
  · exact (keeps_saveEscaped hquiet w _ _).conseq (fun w' hw' => .of_idle hw')
      (fun _ w' hw' => ⟨.savedOnly hw', fun hscope => absurd hscope hescaped⟩)
      fun _ w' hw' => .savedOnly hw'
  · exact ⟨hw'.edits, fun _ => hw'.reported⟩

theorem keepsEdits_of_safe (hquiet : env.Quiet) (hhashed : Hashed a.preLocal)
    (hsafe : Safe env a w) : KeepsEdits env a w := by
  have hrun := triple_postrun_edits hquiet hhashed hsafe
  have hend : EditsKept a w (endState (postrunPullback env a w)) :=
    Triple.endState (hrun.post fun _ _ => And.left) rfl
  exact ⟨hend.made, hend.kept, fun result w' hcall => (hrun.ok rfl hcall).2⟩

/-! ## Calls that lose an edit -/

section Lost
variable {rel : String} {acc acc' : Progress}

/-- Once it had its turn, the exposed path is pulled. -/
structure LostInv (start : World P) (rel : String) (done : List String) (_acc : Progress)
    (w : World P) : Prop where
  frame : Frame start done w
  after : rel ∈ done → Logged (.pull rel (start.localRoot.get rel)) start w

theorem ChangedOk.grows {q : String} {bytes : Bytes} {entry : FileEntry} {collide : List String}
    {w' : World P} (h : ChangedOk env a collide q bytes entry acc w acc' w') :
    Made (fun _ => True) w w' := by
  cases h with
  | collided _ idle => exact idle.made.mono fun _ _ => trivial
  | preserved _ _ saves => exact saves.made.mono fun _ _ => trivial
  | skipped _ _ idle => exact idle.made.mono fun _ _ => trivial
  | pulled _ _ pulls _ => exact pulls.made.mono fun _ _ => trivial

theorem ChangedFail.grows {q : String} {bytes : Bytes} {entry : FileEntry} {collide : List String}
    {w' : World P} (h : ChangedFail env a collide q bytes entry w w') :
    Made (fun _ => True) w w' := by
  cases h with
  | stopped _ _ idle => exact idle.made.mono fun _ _ => trivial
  | saved _ _ saves => exact saves.made.mono fun _ _ => trivial
  | pulled _ _ _ pulls => exact pulls.made.mono fun _ _ => trivial

/-- An exposed path is decided to be pulled. -/
theorem Exposed.decided (h : Exposed a w rel) {bytes : Bytes} {entry : FileEntry}
    (hbytes : w.remoteRoot.file rel = some bytes) (hentry : ManifestEntry P rel bytes entry) :
    Reconcile.decided P a rel bytes entry (w.localRoot.get rel) = .pull ∧
      w.localRoot.get rel ≠ some .other := by
  obtain ⟨current, mtimeNs, mode, pre, output, hnode, houtput, hlength, hpre, hkind, hsize,
    hmtime, _⟩ := h.edit
  obtain rfl : bytes = output := Option.some.inj (hbytes.symm.trans houtput)
  have hsame : sameEntry (freshEntry P rel (some bytes.length) (w.localRoot.get rel))
      (hashed P bytes entry) = none := by
    rw [hnode, sameEntry, Option.filter_eq_none_iff]
    rintro fresh hfresh
    obtain rfl := Option.some.inj hfresh
    rw [Bool.not_eq_true, ← Bool.not_eq_true, entriesSame_some]
    rintro ⟨_, heq, _⟩
    exact hlength (hentry.size.symm.trans heq.symm)
  have hunchanged : changedSince (a.preLocal.get rel)
      (freshEntry P rel (some bytes.length) (w.localRoot.get rel)) = false := by
    rw [changedSince, Bool.not_eq_false', hpre, hnode, freshEntry, entriesSame_some]
    refine ⟨hkind, hsize, Or.inr ⟨Or.inr ?_, hmtime⟩⟩
    exact if_neg fun heq => hlength (Option.some.inj heq)
  constructor
  · rw [Reconcile.decided, decision, hsame]
    exact if_neg (by rw [hunchanged]; simp)
  · rw [hnode]
    simp

/-- A stop at its turn is a stop at the start. -/
theorem Stops.at_start {q : String} {bytes : Bytes} {entry : FileEntry} {start : World P}
    (h : Stops P a q bytes entry w) (hlocal : w.localRoot.get q = start.localRoot.get q)
    (hsaved : w.saved.get q = start.saved.get q) : Stops P a q bytes entry start := by
  unfold Stops at h ⊢
  rwa [hlocal, hsaved] at h

theorem LostInv.step {start w' : World P} {done rest : List String} {q : String} {bytes : Bytes}
    {entry : FileEntry} (h : LostInv start rel done acc w) (hcalm : env.Calm)
    (hexposed : Exposed a start rel) (hsplit : changedAt a start = done ++ q :: rest)
    (hbytes : start.remoteRoot.file q = some bytes) (hentry : ManifestEntry P q bytes entry)
    (hok : ChangedOk env a (collideAt a start) q bytes entry acc w acc' w') :
    LostInv start rel (done ++ [q]) acc' w' := by
  refine ⟨hok.frame h.frame, fun hin => ?_⟩
  rcases List.mem_append.mp hin with hin | hin
  · exact (h.after hin).extend hok.grows
  · obtain rfl := List.mem_singleton.mp hin
    obtain ⟨hpull, _⟩ := hexposed.decided hbytes hentry
    have hturn := (h.frame.at_turn hsplit hexposed.clear).1
    cases hok with
    | collided hmem _ => exact absurd hmem hexposed.clear
    | preserved _ reason _ =>
      have hedited := reason.resolve_left hcalm.no_mishap
      rw [hturn, hpull] at hedited
      exact nomatch hedited
    | skipped _ reason _ =>
      rw [hturn, hpull] at reason
      exact nomatch reason
    | pulled _ _ pulls _ =>
      rw [← hturn]
      exact .after h.frame.made pulls.logged

theorem LostInv.fail {start w' : World P} {done rest : List String} {q : String} {bytes : Bytes}
    {entry : FileEntry} (h : LostInv start rel done acc w) (hcalm : env.Calm)
    (hexposed : Exposed a start rel) (hreached : Reached a start rel)
    (hsplit : changedAt a start = done ++ q :: rest)
    (hbytes : start.remoteRoot.file q = some bytes)
    (hpost : (postOf P a start).get q = some entry) (hentry : ManifestEntry P q bytes entry)
    (hfail : ChangedFail env a (collideAt a start) q bytes entry w w') :
    Logged (.pull rel (start.localRoot.get rel)) start w' := by
  by_cases hin : rel ∈ done
  · exact (h.after hin).extend hfail.grows
  · cases hfail with
    | saved _ mishap _ => exact absurd mishap hcalm.no_mishap
    | pulled _ mishap _ _ => exact absurd mishap hcalm.no_mishap
    | stopped hclear reason _ =>
      obtain ⟨hlocal, hsaved⟩ := h.frame.at_turn hsplit hclear
      have hstops := (reason.resolve_left hcalm.no_mishap).at_start hlocal hsaved
      have hmem : rel ∈ q :: rest := by
        have hchanged := hexposed.changed
        rw [hsplit] at hchanged
        exact (List.mem_append.mp hchanged).resolve_left hin
      rcases List.mem_cons.mp hmem with rfl | hmem
      · obtain ⟨hpull, hother⟩ := hexposed.decided hbytes hentry
        rcases hstops with ⟨hedited, _⟩ | ⟨_, hblocked⟩
        · rw [hpull] at hedited
          exact nomatch hedited
        · exact absurd hblocked hother
      · obtain ⟨front, back, rfl⟩ := List.append_of_mem hmem
        refine absurd ⟨hclear, bytes, entry, hbytes, hpost, hstops⟩
          (hreached (done ++ q :: front) back ?_ q ?_)
        · rw [hsplit, List.append_assoc, List.cons_append]
        · exact List.mem_append_right _ List.mem_cons_self

theorem triple_lostLoop (hcalm : env.Calm) (hexposed : Exposed a w rel)
    (hreached : Reached a w rel) (hroot : w.localRoot ≠ .blocked) :
    Triple (Idle w) ((changedAt a w).foldlM
      (changedStep env a (postOf P a w) (collideAt a w)) (Progress.start a))
      (LostInv w rel (changedAt a w))
      (fun _ => Logged (.pull rel (w.localRoot.get rel)) w) := by
  refine (triple_foldlM (LostInv w rel) ?_).pre fun w' hw' => ?_
  · intro done q rest acc hsplit w1 hw1
    obtain ⟨bytes, entry, hbytes, hpost, hentry⟩ :=
      mem_changedAt (mem_of_split hsplit)
    refine ((triple_changedRound hcalm.toQuiet hbytes hpost hentry acc hw1.frame).conseq
      (fun _ => id) (fun acc' w' hok => ?_) fun _ w' hfail => ?_) w1 rfl
    · exact hw1.step hcalm hexposed hsplit hbytes hentry hok
    · exact hw1.fail hcalm hexposed hreached hsplit hbytes hpost hentry hfail
  · exact ⟨.of_idle hw' hroot, fun hin => absurd hin List.not_mem_nil⟩

theorem DeletedOk.grows {q : String} {w' : World P} (h : DeletedOk a q acc w acc' w') :
    Made (fun _ => True) w w' := by
  cases h with
  | absent _ idle => exact idle.made.mono fun _ _ => trivial
  | edited _ _ idle => exact idle.made.mono fun _ _ => trivial
  | deleted _ _ deletes => exact deletes.made.mono fun _ _ => trivial

theorem DeletedFail.grows {q : String} {w' : World P} (h : DeletedFail a q w w') :
    Made (fun _ => True) w w' := by
  cases h with
  | idle idle => exact idle.made.mono fun _ _ => trivial
  | deleted _ _ deletes => exact deletes.made.mono fun _ _ => trivial

/-- An exposed path that is reached is overwritten. -/
theorem exposed_overwritten (hcalm : env.Calm) (hexposed : Exposed a w rel)
    (hreached : Reached a w rel) : Logged (.pull rel (w.localRoot.get rel)) w
      (endState (postrunPullback env a w)) := by
  obtain ⟨_, _, _, _, _, hnode, _⟩ := hexposed.edit
  have hroot : w.localRoot ≠ .blocked := by
    obtain ⟨files, hfiles⟩ := directory_of_get hnode
    rw [hfiles]
    exact fun heq => nomatch heq
  refine Triple.endState (I := fun s => s = w) ?_ rfl
  refine triple_postrun (fun _ => Logged (.pull rel (w.localRoot.get rel)) w) hcalm.toQuiet
    ?_ (fun hescaped => absurd hexposed.inScope hescaped) (fun _ _ => ?_)
    (fun _ => steady_of_quiet hcalm.toQuiet fun _ _ => id) (fun _ _ _ => id) fun _ _ _ => id
  · rintro (⟨n, hn⟩ | hblocked)
    · exact absurd (hcalm.works n) hn
    · exact absurd hblocked hroot
  · refine triple_bind (triple_lostLoop hcalm hexposed hreached hroot) fun acc => ?_
    refine (triple_foldlM (fun _ _ => Logged (.pull rel (w.localRoot.get rel)) w) ?_).pre
      fun w' hw' => hw'.after hexposed.changed
    intro done q rest acc _ w1 hw1
    exact ((triple_deletedStep hcalm.toQuiet acc).conseq (fun _ => id)
      (fun acc' w' hok => hw1.extend hok.grows) fun _ w' hfail => hw1.extend hfail.grows) w1 rfl

theorem Exposed.not_recorded (h : Exposed a w rel) :
    ¬ Recorded P a (.pull rel (w.localRoot.get rel)) := by
  obtain ⟨bytes, mtimeNs, mode, pre, _, hnode, _, _, hpre, _, _, _, hsha⟩ := h.edit
  rw [hnode]
  rintro ⟨entry, hentry, hrecorded⟩
  rw [hpre] at hentry
  exact hsha (Option.some.inj hentry ▸ hrecorded)

end Lost

end Calls

end Edits

/-! ## Concrete runs -/

/-- One file, recorded on both sides before the run. -/
def oneFileArgs : PullbackArgs where
  surface := ⟨[], [], 10⟩
  preRemote := Dict.empty.set "f" ⟨"f", "file", 1, 5, some (sampleSha256 [97]), none⟩
  preLocal := Dict.empty.set "f" ⟨"f", "file", 1, 5, some (sampleSha256 [97]), some 420⟩
  backupBelowBytes := 0
  writeScope := []

theorem oneFileArgs_hashed : Hashed oneFileArgs.preLocal := by
  intro rel entry hentry
  rw [show oneFileArgs.preLocal = Dict.empty.set "f" _ from rfl, Dict.get_set] at hentry
  split at hentry
  · rw [← Option.some.inj hentry]
    simp
  · simp at hentry

/-- The command wrote two bytes; the local file was edited at `mtimeNs`. -/
def editedWorld (mtimeNs : Int) : World (samplePlatform false) :=
  .ofTrees _ [("f", .file [98] mtimeNs 420)] [("f", .file [97, 98] 6 420)]

end Remrun.Reconcile
