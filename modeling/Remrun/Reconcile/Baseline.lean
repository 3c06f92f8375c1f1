import Remrun.Reconcile.PullbackSteps

/-!
# The baseline after a pullback

The next baseline keeps the entries from before the run for every path that the command did
not touch, and advances the others to what the pullback verified. The next comparison then
finds nothing to do for an untouched path, and finds the work of a local writer.
-/

namespace Remrun.Reconcile

open Keyed Effect
set_option autoImplicit false

section Baseline
variable {P : Platform}

/-! ## What is recorded -/

/-- The content and the modification time of a file that the manifest of the tree lists. -/
def Root.regular {key : String → String} (P : Platform) (s : Surface) (root : Root key)
    (rel : String) : Option (Bytes × Int) :=
  if root.Lists rel ∧ s.covers P rel = true then
    match root.get rel with
    | some (.file bytes mtimeNs _) => some (bytes, mtimeNs)
    | _ => none
  else none

/-- The entry records the file, with or without its digest. -/
def Records (P : Platform) : Option (Bytes × Int) → Option FileEntry → Prop
  | none, none => True
  | some (bytes, mtimeNs), some entry => entry.kind = "file" ∧ entry.size = bytes.length ∧
      entry.mtimeNs = mtimeNs ∧ (entry.sha256 = none ∨ entry.sha256 = some (P.sha256 bytes))
  | _, _ => False

theorem records_manifestOf {key : String → String} (s : Surface) (side : Side) (root : Root key)
    (rel : String) : Records P (root.regular P s rel) ((manifestOf P s side root).get rel) := by
  rw [get_manifestOf, Root.regular]
  split
  · cases hnode : root.get rel with
    | none => trivial
    | some node =>
      cases node with
      | link target => trivial
      | other => trivial
      | file bytes mtimeNs mode =>
        refine ⟨rfl, rfl, rfl, ?_⟩
        dsimp only
        split
        · exact Or.inr rfl
        · exact Or.inl rfl
  · trivial

section Entries
variable {file : Option (Bytes × Int)} {before now : Option FileEntry}

theorem Records.isSome (h : Records P file now) : now.isSome = file.isSome := by
  cases file <;> cases now <;> simp_all [Records]

/-- Two records of one file are the same. -/
theorem Records.same (h : Records P file before) (h' : Records P file now) :
    entriesSame before now = true := by
  cases file with
  | none =>
    cases before with
    | some entry => exact h.elim
    | none =>
      cases now with
      | some entry => exact h'.elim
      | none => rfl
  | some pair =>
    obtain ⟨bytes, mtimeNs⟩ := pair
    cases before with
    | none => exact h.elim
    | some left =>
      cases now with
      | none => exact h'.elim
      | some right =>
        obtain ⟨hkind, hsize, hmtime, hsha⟩ := h
        obtain ⟨hkind', hsize', hmtime', hsha'⟩ := h'
        rw [entriesSame_some]
        refine ⟨hkind.trans hkind'.symm, hsize.trans hsize'.symm, ?_⟩
        rcases hsha with hsha | hsha
        · exact Or.inr ⟨Or.inl hsha, hmtime.trans hmtime'.symm⟩
        · rcases hsha' with hsha' | hsha'
          · exact Or.inr ⟨Or.inr hsha', hmtime.trans hmtime'.symm⟩
          · exact Or.inl ⟨_, hsha, hsha'⟩

theorem entriesSame_refl (entry : Option FileEntry) : entriesSame entry entry = true := by
  cases entry with
  | none => rfl
  | some entry =>
    rw [entriesSame_some]
    refine ⟨rfl, rfl, ?_⟩
    cases hsha : entry.sha256 with
    | none => exact Or.inr ⟨Or.inl rfl, rfl⟩
    | some digest => exact Or.inl ⟨digest, rfl, rfl⟩

end Entries

/-! ## What is promised -/

/-- No other name of the local tree, and no other path of the command, is the local file of
the path. -/
def Alone (a : PullbackArgs) (w : World P) (rel : String) : Prop :=
  ∀ q, P.localKey q = P.localKey rel → q ≠ rel →
    ¬ w.localRoot.Lists q ∧ q ∉ changedAt a w ∧ q ∉ deletedAt a w

/-- The manifests from before the run record the local tree `before`, and list the same
paths on both sides. -/
structure PreRun (a : PullbackArgs) (before : Root P.localKey) : Prop where
  records : ∀ rel, Records P (before.regular P a.surface rel) (a.preLocal.get rel)
  samePaths : ∀ rel, (a.preLocal.get rel).isSome = (a.preRemote.get rel).isSome

/-- The comparison of the trees with the next baseline. -/
def nextPlan (a : PullbackArgs) (w : World P) (next : NextBaseline) : List ClassifiedPath :=
  compareManifests (manifestOf P a.surface .controller w.localRoot)
    (manifestOf P a.surface .target w.remoteRoot) (some next.localManifest)
    (some next.remoteManifest)

/-- An edit that the comparison of entries can see: the size differs; or the digest does, and
both digests are recorded or the modification time differs too. -/
def VisibleEdit (P : Platform) (a : PullbackArgs) (rel : String) (before now : Bytes × Int) :
    Prop :=
  before.1.length ≠ now.1.length ∨ (P.sha256 before.1 ≠ P.sha256 now.1 ∧ (before.2 ≠ now.2 ∨
    (a.surface.hashes now.1.length = true ∧
      ∃ entry digest, a.preLocal.get rel = some entry ∧ entry.sha256 = some digest)))

/-- The command touched the path. -/
def CommandTouched (a : PullbackArgs) (w : World P) (rel : String) : Prop :=
  rel ∈ changedAt a w ∨ rel ∈ deletedAt a w

/-- The next baseline is attributed path by path, and makes the next comparison quiescent. -/
structure Advances (a : PullbackArgs) (before : Root P.localKey) (w w' : World P)
    (next : NextBaseline) : Prop where
  attributed : ∀ rel, ¬ CommandTouched a w rel →
    next.localManifest.get rel = a.preLocal.get rel ∧
      next.remoteManifest.get rel = a.preRemote.get rel
  quiescent : ∀ rel, Alone a w rel →
    before.regular P a.surface rel = w.localRoot.regular P a.surface rel →
    ∀ item ∈ nextPlan a w' next, item.path = rel → item.action = .none
  created : ∀ rel, Alone a w rel → ¬ CommandTouched a w rel →
    before.regular P a.surface rel = none → w.localRoot.regular P a.surface rel ≠ none →
    ∃ item ∈ nextPlan a w' next, item.path = rel ∧ item.action = .push
  edited : ∀ rel old new, Alone a w rel → ¬ CommandTouched a w rel →
    before.regular P a.surface rel = some old → w.localRoot.regular P a.surface rel = some new →
    VisibleEdit P a rel old new → ∃ item ∈ nextPlan a w' next, item.path = rel ∧ item.action = .push
  deleted : ∀ rel, Alone a w rel → ¬ CommandTouched a w rel →
    before.regular P a.surface rel ≠ none → w.localRoot.regular P a.surface rel = none →
    ∃ item ∈ nextPlan a w' next, item.path = rel ∧ item.action = .deleteRemote

/-! ## The loops -/

section Loops
variable {env : Env P} {a : PullbackArgs} {rel : String} {start w w' : World P}
  {done : List String} {acc acc' : Progress}

/-- The path is stored in the tree under no other name. -/
def OwnName (root : Root P.localKey) (rel : String) : Prop :=
  ∀ q, root.Lists q → P.localKey q = P.localKey rel → q = rel

/-- The entries of both sides advanced to what was verified. -/
structure Settled (a : PullbackArgs) (start : World P) (rel : String) (acc : Progress)
    (w : World P) : Prop where
  localEntry : ∃ bytes mtimeNs mode, w.localRoot.get rel = some (.file bytes mtimeNs mode) ∧
    acc.nextLocal.get rel =
      some ⟨rel, "file", bytes.length, mtimeNs, some (P.sha256 bytes), none⟩
  remoteEntry : acc.nextRemote.get rel = (postOf P a start).get rel
  spelled : OwnName start.localRoot rel → w.localRoot.Lists rel

structure ChangedBase (a : PullbackArgs) (start : World P) (done : List String) (acc : Progress)
    (w : World P) : Prop where
  frame : Frame start done w
  kept : ∀ rel ∉ done, acc.nextLocal.get rel = a.preLocal.get rel ∧
    acc.nextRemote.get rel = a.preRemote.get rel
  settled : ∀ rel ∈ done, rel ∈ acc.conflicts ∨ Settled a start rel acc w

theorem get_advance {acc : Progress} (localEntry remoteEntry : FileEntry) (q : String) :
    ((acc.advance rel localEntry remoteEntry).nextLocal.get q =
      if q = rel then some { localEntry with path := rel } else acc.nextLocal.get q) ∧
    ((acc.advance rel localEntry remoteEntry).nextRemote.get q =
      if q = rel then some remoteEntry else acc.nextRemote.get q) :=
  ⟨Dict.get_set _ _ _ _, Dict.get_set _ _ _ _⟩

/-- What a later round leaves of a settled path. -/
theorem Settled.mono (h : Settled a start rel acc w)
    (hlocal : acc'.nextLocal.get rel = acc.nextLocal.get rel)
    (hremote : acc'.nextRemote.get rel = acc.nextRemote.get rel)
    (hnode : w'.localRoot.get rel = w.localRoot.get rel)
    (hname : w'.localRoot.Lists rel ↔ w.localRoot.Lists rel) : Settled a start rel acc' w' where
  localEntry := by
    rw [hlocal, hnode]
    exact h.localEntry
  remoteEntry := hremote.trans h.remoteEntry
  spelled := fun hown => hname.mpr (h.spelled hown)

/-- A round over a changed path that is no conflict settles it. -/
theorem settled_of_advance {localEntry : FileEntry} {entry : FileEntry} {bytes : Bytes}
    (hlocal : acc'.nextLocal = (acc.advance rel localEntry entry).nextLocal)
    (hremote : acc'.nextRemote = (acc.advance rel localEntry entry).nextRemote)
    (hpost : (postOf P a start).get rel = some entry)
    (hfresh : freshEntry P rel (some bytes.length) (w'.localRoot.get rel) = some localEntry)
    (hsize : localEntry.size = bytes.length)
    (hname : OwnName start.localRoot rel → w'.localRoot.Lists rel) :
    Settled a start rel acc' w' := by
  obtain ⟨current, mtimeNs, mode, hnode, rfl⟩ := freshEntry_some hfresh
  refine ⟨⟨current, mtimeNs, mode, hnode, ?_⟩, ?_, hname⟩
  · rw [hlocal, (get_advance _ _ _).1, if_pos rfl]
    have hlength : some bytes.length = some current.length := congrArg some hsize.symm
    simp only [hlength, if_true]
  · rw [hremote, (get_advance _ _ _).2, if_pos rfl, hpost]

theorem ownName_lists {root : Root P.localKey} {node : Node} (h : OwnName root rel)
    (hnode : root.get rel = some node) : root.Lists rel := by
  obtain ⟨files, rfl⟩ := directory_of_get hnode
  obtain ⟨q, hq, hkey⟩ := Dict.mem_keys_of_get (show files.get rel = some node from hnode)
  exact h q hq hkey ▸ hq

/-- A skipped path is a local file of the size of the remote one. -/
theorem decided_skip_fresh {bytes : Bytes} {entry localEntry : FileEntry} {node : Option Node}
    (h : decided P a rel bytes entry node = .skip localEntry)
    (hentry : ManifestEntry P rel bytes entry) :
    freshEntry P rel (some bytes.length) node = some localEntry ∧
      localEntry.size = bytes.length := by
  unfold decided decision at h
  split at h
  · rename_i found hfound
    obtain ⟨hfresh, hsame⟩ := Option.filter_eq_some_iff.mp hfound
    obtain rfl : found = localEntry := Decision.skip.inj h
    exact ⟨hfresh, (entriesSame_some.mp hsame).2.1.trans hentry.size⟩
  · split at h <;> cases h

theorem ChangedBase.step (h : ChangedBase a start done acc w) {rest : List String}
    (hsplit : changedAt a start = done ++ rel :: rest) {bytes : Bytes} {entry : FileEntry}
    (hpost : (postOf P a start).get rel = some entry) (hentry : ManifestEntry P rel bytes entry)
    (hok : ChangedOk env a (collideAt a start) rel bytes entry acc w acc' w') :
    ChangedBase a start (done ++ [rel]) acc' w' := by
  have hframe := hok.frame h.frame
  have hrel := mem_of_split hsplit
  have hdone : ∀ q ∈ done, q ∈ changedAt a start ∧ q ≠ rel := by
    intro q hq
    have hnodup := changedAt_nodup a start
    rw [hsplit, List.nodup_append] at hnodup
    exact ⟨by rw [hsplit]; exact List.mem_append_left _ hq,
      hnodup.2.2 q hq rel List.mem_cons_self⟩
  have hconflict : (∀ q ∈ done, w'.localRoot.get q = w.localRoot.get q ∧
      (w'.localRoot.Lists q ↔ w.localRoot.Lists q)) →
      ChangedBase a start (done ++ [rel]) (acc.conflict rel) w' := by
    intro hsame
    refine ⟨hframe, fun q hq => h.kept q fun hin => hq (List.mem_append_left _ hin),
      fun q hq => ?_⟩
    rcases List.mem_append.mp hq with hq | hq
    · refine (h.settled q hq).imp (List.mem_append_left _) fun hsettled => ?_
      exact hsettled.mono rfl rfl (hsame q hq).1 (hsame q hq).2
    · exact Or.inl (List.mem_append_right _ hq)
  have hadvance : ∀ localEntry, acc'.nextLocal = (acc.advance rel localEntry entry).nextLocal →
      acc'.nextRemote = (acc.advance rel localEntry entry).nextRemote →
      acc'.conflicts = acc.conflicts →
      (∀ q ∈ done, w'.localRoot.get q = w.localRoot.get q ∧
        (w'.localRoot.Lists q ↔ w.localRoot.Lists q)) →
      Settled a start rel acc' w' → ChangedBase a start (done ++ [rel]) acc' w' := by
    intro localEntry hlocal hremote hconflicts hsame hself
    have hget : ∀ q, q ≠ rel → acc'.nextLocal.get q = acc.nextLocal.get q ∧
        acc'.nextRemote.get q = acc.nextRemote.get q := by
      intro q hne
      rw [hlocal, hremote, (get_advance _ _ _).1, (get_advance _ _ _).2, if_neg hne, if_neg hne]
      exact ⟨rfl, rfl⟩
    refine ⟨hframe, fun q hq => ?_, fun q hq => ?_⟩
    · rw [List.mem_append, not_or, List.mem_singleton] at hq
      rw [(hget q hq.2).1, (hget q hq.2).2]
      exact h.kept q hq.1
    · rcases List.mem_append.mp hq with hq | hq
      · rw [hconflicts]
        refine (h.settled q hq).imp_right fun hsettled => ?_
        obtain ⟨hl, hr⟩ := hget q (hdone q hq).2
        exact hsettled.mono hl hr (hsame q hq).1 (hsame q hq).2
      · rw [List.mem_singleton.mp hq]
        exact Or.inr hself
  cases hok with
  | collided hmem idle =>
    exact hconflict fun q _ => by rw [idle.localRoot]; exact ⟨rfl, Iff.rfl⟩
  | preserved hclear reason saves =>
    exact hconflict fun q _ => by rw [saves.localRoot]; exact ⟨rfl, Iff.rfl⟩
  | skipped hclear reason idle =>
    obtain ⟨hfresh, hsize⟩ := decided_skip_fresh reason hentry
    refine hadvance _ rfl rfl rfl (fun q _ => by rw [idle.localRoot]; exact ⟨rfl, Iff.rfl⟩) ?_
    refine settled_of_advance rfl rfl hpost (by rw [idle.localRoot]; exact hfresh) hsize ?_
    intro hown
    obtain ⟨current, mtimeNs, mode, hnode, _⟩ := freshEntry_some hfresh
    have hkeys : ∀ q ∈ done, P.localKey q ≠ P.localKey rel := fun q hq =>
      localKey_ne hrel hclear (hdone q hq).1 (hdone q hq).2
    rw [idle.localRoot, h.frame.namesRest rel hkeys]
    exact ownName_lists hown ((h.frame.localRest rel hkeys).symm.trans hnode)
  | pulled hclear reason pulls verified =>
    obtain ⟨n, hreplaced⟩ := pulls.localRoot
    have hkeys : ∀ q ∈ done, P.localKey q ≠ P.localKey rel := fun q hq =>
      localKey_ne hrel hclear (hdone q hq).1 (hdone q hq).2
    refine hadvance _ rfl rfl rfl (fun q hq => ⟨hreplaced.others q (hkeys q hq),
      hreplaced.names q (hkeys q hq)⟩) ?_
    refine settled_of_advance rfl rfl hpost verified ?_ fun hown => ?_
    · rw [hreplaced.self] at verified
      rw [← Option.some.inj verified]
    · refine hreplaced.spelled rfl fun q hq hkey => ?_
      refine hown q ((h.frame.namesRest q fun q' hq' => ?_).mp hq) hkey
      rw [hkey]
      exact hkeys q' hq'

theorem triple_changedBase (hquiet : env.Quiet) (hroot : start.localRoot ≠ .blocked) :
    Triple (Idle start) ((changedAt a start).foldlM
      (changedStep env a (postOf P a start) (collideAt a start)) (Progress.start a))
      (ChangedBase a start (changedAt a start)) (fun _ _ => True) := by
  refine (triple_foldlM (ChangedBase a start) ?_).pre fun w hw => ?_
  · intro done rel rest acc hsplit w hw
    obtain ⟨bytes, entry, hbytes, hpost, hentry⟩ :=
      mem_changedAt (mem_of_split hsplit)
    exact ((triple_changedRound hquiet hbytes hpost hentry acc hw.frame).conseq (fun _ => id)
      (fun acc' w' hok => hw.step hsplit hpost hentry hok) fun _ _ _ => trivial) w rfl
  · exact ⟨.of_idle hw hroot, fun _ _ => ⟨rfl, rfl⟩, fun q hq => absurd hq List.not_mem_nil⟩

/-- The path left both baselines, and is no local file. -/
structure Dropped (rel : String) (acc : Progress) (w : World P) : Prop where
  localEntry : acc.nextLocal.get rel = none
  remoteEntry : acc.nextRemote.get rel = none
  noFile : w.localRoot.file rel = none

structure DeletedBase (a : PullbackArgs) (start : World P) (done : List String) (acc : Progress)
    (w : World P) : Prop where
  frame : Frame start (changedAt a start ++ done) w
  kept : ∀ rel, rel ∉ changedAt a start → rel ∉ done →
    acc.nextLocal.get rel = a.preLocal.get rel ∧ acc.nextRemote.get rel = a.preRemote.get rel
  settled : ∀ rel ∈ changedAt a start, Alone a start rel →
    rel ∈ acc.conflicts ∨ Settled a start rel acc w
  dropped : ∀ rel ∈ done, rel ∈ acc.conflicts ∨ Dropped rel acc w

theorem get_forget (acc : Progress) (rel q : String) :
    ((acc.forget rel).nextLocal.get q = if q = rel then none else acc.nextLocal.get q) ∧
    ((acc.forget rel).nextRemote.get q = if q = rel then none else acc.nextRemote.get q) :=
  ⟨Dict.get_pop _ _ _, Dict.get_pop _ _ _⟩

theorem deleted_ne_changed (hrel : rel ∈ deletedAt a start) {q : String}
    (hq : q ∈ changedAt a start) : q ≠ rel := by
  rintro rfl
  obtain ⟨_, entry, _, hentry, _⟩ := mem_changedAt hq
  rw [mem_deletedAt hrel] at hentry
  exact nomatch hentry

theorem DeletedBase.step (h : DeletedBase a start done acc w) (hrel : rel ∈ deletedAt a start)
    (hok : DeletedOk a rel acc w acc' w') : DeletedBase a start (done ++ [rel]) acc' w' := by
  have hforget : acc'.nextLocal = (acc.forget rel).nextLocal →
      acc'.nextRemote = (acc.forget rel).nextRemote → acc'.conflicts = acc.conflicts →
      Frame start (changedAt a start ++ done ++ [rel]) w' →
      (∀ q ∈ changedAt a start, Alone a start q → w'.localRoot.get q = w.localRoot.get q ∧
        (w'.localRoot.Lists q ↔ w.localRoot.Lists q)) →
      (∀ q, w.localRoot.file q = none → w'.localRoot.file q = none) →
      w'.localRoot.file rel = none → DeletedBase a start (done ++ [rel]) acc' w' := by
    intro hlocal hremote hconflicts hframe hsame hnone hself
    have hget : ∀ q, q ≠ rel → acc'.nextLocal.get q = acc.nextLocal.get q ∧
        acc'.nextRemote.get q = acc.nextRemote.get q := by
      intro q hne
      rw [hlocal, hremote, (get_forget _ _ _).1, (get_forget _ _ _).2, if_neg hne, if_neg hne]
      exact ⟨rfl, rfl⟩
    have hdropped : Dropped rel acc' w' := by
      refine ⟨?_, ?_, hself⟩
      · rw [hlocal, (get_forget _ _ _).1, if_pos rfl]
      · rw [hremote, (get_forget _ _ _).2, if_pos rfl]
    refine ⟨by rw [← List.append_assoc]; exact hframe, fun q hq hnot => ?_, fun q hq halone => ?_,
      fun q hq => ?_⟩
    · rw [List.mem_append, not_or, List.mem_singleton] at hnot
      rw [(hget q hnot.2).1, (hget q hnot.2).2]
      exact h.kept q hq hnot.1
    · rw [hconflicts]
      refine (h.settled q hq halone).imp_right fun hsettled => ?_
      obtain ⟨hl, hr⟩ := hget q (deleted_ne_changed hrel hq)
      exact hsettled.mono hl hr (hsame q hq halone).1 (hsame q hq halone).2
    · by_cases heq : q = rel
      · rw [heq]
        exact Or.inr hdropped
      · rcases List.mem_append.mp hq with hq | hq
        · rw [hconflicts]
          refine (h.dropped q hq).imp_right fun hold => ?_
          exact ⟨(hget q heq).1.trans hold.localEntry, (hget q heq).2.trans hold.remoteEntry,
            hnone q hold.noFile⟩
        · exact absurd (List.mem_singleton.mp hq) heq
  cases hok with
  | absent gone idle =>
    refine hforget rfl rfl rfl (h.frame.idle idle)
      (fun q _ _ => by rw [idle.localRoot]; exact ⟨rfl, Iff.rfl⟩) (fun q hq => ?_) ?_
    · rw [idle.localRoot]
      exact hq
    · rw [idle.localRoot]
      exact file_of_freshEntry_none gone
  | edited present reason idle =>
    refine ⟨by rw [← List.append_assoc]; exact h.frame.idle idle,
      fun q hq hnot => h.kept q hq fun hin => hnot (List.mem_append_left _ hin),
      fun q hq halone => ?_, fun q hq => ?_⟩
    · refine (h.settled q hq halone).imp (List.mem_append_left _) fun hsettled => ?_
      exact hsettled.mono rfl rfl (by rw [idle.localRoot]) (by rw [idle.localRoot])
    · rcases List.mem_append.mp hq with hq | hq
      · exact (h.dropped q hq).imp (List.mem_append_left _) fun hold =>
          ⟨hold.localEntry, hold.remoteEntry, by rw [idle.localRoot]; exact hold.noFile⟩
      · exact Or.inl (List.mem_append_right _ hq)
  | deleted present reason deletes =>
    refine hforget rfl rfl rfl (h.frame.deletes deletes) (fun q hq halone => ?_)
      (fun q => deletes.file_none) ?_
    · have hne : P.localKey q ≠ P.localKey rel := fun hkey =>
        (halone rel hkey.symm (deleted_ne_changed hrel hq).symm).2.2 hrel
      exact ⟨deletes.localRoot.others q hne, deletes.localRoot.names q hne⟩
    · rw [Root.file, deletes.localRoot.self]
      rfl

theorem triple_pullChanges_base (hquiet : env.Quiet) (hroot : start.localRoot ≠ .blocked) :
    Triple (Idle start) (pullChanges env a (postOf P a start)
      (manifestOf P a.surface .controller start.localRoot))
      (DeletedBase a start (deletedAt a start)) (fun _ _ => True) := by
  refine triple_bind (triple_changedBase hquiet hroot) fun acc => ?_
  refine (triple_foldlM (DeletedBase a start) ?_).pre fun w hw => ?_
  · intro done rel rest acc hsplit w hw
    have hrel := mem_of_split hsplit
    exact ((triple_deletedStep hquiet acc).conseq (fun _ => id)
      (fun acc' w' hok => hw.step hrel hok) fun _ _ _ => trivial) w rfl
  · exact ⟨by rw [List.append_nil]; exact hw.frame, fun q hq _ => hw.kept q hq,
      fun q hq _ => hw.settled q hq, fun q hq => absurd hq List.not_mem_nil⟩

end Loops

/-! ## The next comparison -/

section Plan
variable {a : PullbackArgs} {w w' : World P} {rel : String}

/-- Where neither side changed and both have the path or lack it, there is nothing to do. -/
theorem classify_quiet {path : String} {le re pl pr : Option FileEntry} {item : ClassifiedPath}
    (hl : entriesSame pl le = true) (hr : entriesSame pr re = true)
    (hboth : le.isSome = re.isSome) (h : classify path le re true pl pr = some item) :
    item.action = .none := by
  cases le with
  | none =>
    cases re with
    | none => exact nomatch h
    | some re => exact nomatch hboth
  | some le =>
    cases re with
    | none => exact nomatch hboth
    | some re =>
      simp only [classify, if_true, Option.some.injEq] at h
      rw [← h]
      simp [classifyBoth, changedSince, hl, hr]

/-- The entries of a path that the command did not touch are the same. -/
theorem untouched_remote (h : ¬ CommandTouched a w rel) :
    entriesSame (a.preRemote.get rel) ((postOf P a w).get rel) = true := by
  have hmem : ∀ manifest entry, (manifest = a.preRemote ∨ manifest = postOf P a w) →
      manifest.get rel = some entry → rel ∈ unionPaths a.preRemote (postOf P a w) := by
    rintro manifest entry (rfl | rfl) hentry
    · exact mem_unionPaths.mpr (Or.inl ⟨entry, hentry⟩)
    · exact mem_unionPaths.mpr (Or.inr ⟨entry, hentry⟩)
  cases hpost : (postOf P a w).get rel with
  | none =>
    cases hpre : a.preRemote.get rel with
    | none => rfl
    | some entry =>
      refine absurd (Or.inr ?_) h
      exact List.mem_filter.mpr ⟨hmem _ entry (Or.inl rfl) hpre, by simp [hpre, hpost]⟩
  | some entry =>
    by_contra hno
    refine h (Or.inl (List.mem_filter.mpr ⟨hmem _ entry (Or.inr rfl) hpost, ?_⟩))
    simpa [hpost] using hno

theorem entriesSame_isSome {left right : Option FileEntry} (h : entriesSame left right = true) :
    left.isSome = right.isSome := by
  cases left <;> cases right <;> simp_all [entriesSame]

theorem mem_nextPlan {next : NextBaseline} {item : ClassifiedPath} :
    item ∈ nextPlan a w next ↔ classify item.path
      ((manifestOf P a.surface .controller w.localRoot).get item.path)
      ((manifestOf P a.surface .target w.remoteRoot).get item.path) true
      (next.localManifest.get item.path) (next.remoteManifest.get item.path) = some item :=
  mem_compareManifests

/-- The item of a path that the comparison classifies. -/
theorem exists_nextPlan {next : NextBaseline} (item : ClassifiedPath) (hpath : item.path = rel)
    (h : classify rel ((manifestOf P a.surface .controller w.localRoot).get rel)
      ((manifestOf P a.surface .target w.remoteRoot).get rel) true
      (next.localManifest.get rel) (next.remoteManifest.get rel) = some item) :
    item ∈ nextPlan a w next := by
  subst hpath
  exact mem_nextPlan.mpr h

/-- The local file of a path that stands alone and that the command did not touch stays. -/
theorem regular_untouched {done : List String} (hframe : Frame w done w')
    (hkeys : ∀ q ∈ done, P.localKey q ≠ P.localKey rel) :
    w'.localRoot.regular P a.surface rel = w.localRoot.regular P a.surface rel := by
  simp only [Root.regular, hframe.namesRest rel hkeys, hframe.localRest rel hkeys]

theorem Alone.keys (h : Alone a w rel) (hnot : ¬ CommandTouched a w rel) :
    ∀ q ∈ changedAt a w ++ deletedAt a w, P.localKey q ≠ P.localKey rel := by
  intro q hq hkey
  by_cases heq : q = rel
  · rw [heq] at hq
    exact hnot (List.mem_append.mp hq)
  · obtain ⟨_, hchanged, hdeleted⟩ := h q hkey heq
    rcases List.mem_append.mp hq with hq | hq
    · exact hchanged hq
    · exact hdeleted hq

/-- What the next comparison sees of a path that the command did not touch. -/
structure Standing (a : PullbackArgs) (w w' : World P) (next : NextBaseline) (rel : String) :
    Prop where
  localNow : Records P (w.localRoot.regular P a.surface rel)
    ((manifestOf P a.surface .controller w'.localRoot).get rel)
  remoteNow : entriesSame (a.preRemote.get rel)
    ((manifestOf P a.surface .target w'.remoteRoot).get rel) = true
  localBase : next.localManifest.get rel = a.preLocal.get rel
  remoteBase : next.remoteManifest.get rel = a.preRemote.get rel

section Standing
variable {before : Root P.localKey} {next : NextBaseline}

theorem Standing.quiescent (h : Standing a w w' next rel) (hpre : PreRun a before)
    (hsame : before.regular P a.surface rel = w.localRoot.regular P a.surface rel)
    {item : ClassifiedPath} (hitem : item ∈ nextPlan a w' next) (hpath : item.path = rel) :
    item.action = .none := by
  subst hpath
  have hclass := mem_nextPlan.mp hitem
  rw [h.localBase, h.remoteBase] at hclass
  have hrecords := hpre.records item.path
  rw [hsame] at hrecords
  refine classify_quiet (hrecords.same h.localNow) h.remoteNow ?_ hclass
  rw [h.localNow.isSome, ← hrecords.isSome, hpre.samePaths, entriesSame_isSome h.remoteNow]

theorem Standing.created (h : Standing a w w' next rel) (hpre : PreRun a before)
    (hbefore : before.regular P a.surface rel = none)
    (hnow : w.localRoot.regular P a.surface rel ≠ none) :
    ∃ item ∈ nextPlan a w' next, item.path = rel ∧ item.action = .push := by
  have hnone : a.preLocal.get rel = none := by
    have hrecords := (hpre.records rel).isSome
    rw [hbefore] at hrecords
    exact Option.not_isSome_iff_eq_none.mp (by simp [hrecords])
  have hremote : a.preRemote.get rel = none := by
    have hpaths := hpre.samePaths rel
    rw [hnone] at hpaths
    exact Option.not_isSome_iff_eq_none.mp (by simp [← hpaths])
  have hpost := h.remoteNow
  rw [hremote, entriesSame_none_left] at hpost
  have hsome : ((manifestOf P a.surface .controller w'.localRoot).get rel).isSome = true := by
    rw [h.localNow.isSome]
    exact Option.isSome_iff_ne_none.mpr hnow
  obtain ⟨le, hle⟩ := Option.isSome_iff_exists.mp hsome
  refine ⟨_, exists_nextPlan ⟨rel, .localOnly, .push,
    "file exists only locally"⟩ rfl ?_, rfl, rfl⟩
  rw [hle, hpost, h.localBase, h.remoteBase, hnone, hremote]
  rfl

theorem Standing.deleted (h : Standing a w w' next rel) (hpre : PreRun a before)
    (hbefore : before.regular P a.surface rel ≠ none)
    (hnow : w.localRoot.regular P a.surface rel = none) :
    ∃ item ∈ nextPlan a w' next, item.path = rel ∧ item.action = .deleteRemote := by
  have hsome : (a.preLocal.get rel).isSome = true := by
    rw [(hpre.records rel).isSome]
    exact Option.isSome_iff_ne_none.mpr hbefore
  have hpost : ((manifestOf P a.surface .target w'.remoteRoot).get rel).isSome = true := by
    rw [← entriesSame_isSome h.remoteNow, ← hpre.samePaths]
    exact hsome
  obtain ⟨pl, hpl⟩ := Option.isSome_iff_exists.mp hsome
  obtain ⟨re, hre⟩ := Option.isSome_iff_exists.mp hpost
  have hle : (manifestOf P a.surface .controller w'.localRoot).get rel = none := by
    have hrecords := h.localNow.isSome
    rw [hnow] at hrecords
    exact Option.not_isSome_iff_eq_none.mp (by simp [hrecords])
  have hsame := h.remoteNow
  rw [hre] at hsame
  refine ⟨_, exists_nextPlan ⟨rel, .localDeletedKnown, .deleteRemote,
    "local deleted file; remote unchanged"⟩ rfl ?_, rfl, rfl⟩
  rw [hle, hre, h.localBase, h.remoteBase, hpl]
  simp [classify, classifyRemote, changedSince, hsame]

/-- A visible edit changes the entry. -/
theorem changedSince_of_visibleEdit {old new : Bytes × Int} {pl le : FileEntry}
    (hpl : a.preLocal.get rel = some pl) (hold : Records P (some old) (some pl))
    (hnew : Records P (some new) (some le))
    (hhash : a.surface.hashes new.1.length = true → le.sha256 = some (P.sha256 new.1))
    (hedit : VisibleEdit P a rel old new) : changedSince (some pl) (some le) = true := by
  obtain ⟨oldBytes, oldTime⟩ := old
  obtain ⟨newBytes, newTime⟩ := new
  obtain ⟨_, hsize, hmtime, hsha⟩ := hold
  obtain ⟨_, hsize', hmtime', hsha'⟩ := hnew
  rw [changedSince, Bool.not_eq_true', ← Bool.not_eq_true, entriesSame_some]
  rintro ⟨_, hsizes, hdigest⟩
  rcases hedit with hlength | ⟨hdiffer, hseen⟩
  · exact hlength (hsize.symm.trans (hsizes.trans hsize'))
  · rcases hdigest with ⟨digest, hl, hr⟩ | ⟨hnone, htimes⟩
    · have hold := hsha.resolve_left (by rw [hl]; simp)
      have hnew := hsha'.resolve_left (by rw [hr]; simp)
      rw [hl] at hold
      rw [hr] at hnew
      exact hdiffer ((Option.some.inj hold).symm.trans (Option.some.inj hnew))
    · rcases hseen with htime | ⟨hhashed, entry, digest, hentry, hdigest⟩
      · exact htime (hmtime.symm.trans (htimes.trans hmtime'))
      · rcases hnone with hnone | hnone
        · rw [hpl] at hentry
          rw [Option.some.inj hentry, hdigest] at hnone
          exact nomatch hnone
        · rw [hhash hhashed] at hnone
          exact nomatch hnone

theorem Standing.edited (h : Standing a w w' next rel) (hpre : PreRun a before)
    {old new : Bytes × Int} (hbefore : before.regular P a.surface rel = some old)
    (hnow : w.localRoot.regular P a.surface rel = some new)
    (hafter : w'.localRoot.regular P a.surface rel = some new)
    (hedit : VisibleEdit P a rel old new) :
    ∃ item ∈ nextPlan a w' next, item.path = rel ∧ item.action = .push := by
  have hold := hpre.records rel
  rw [hbefore] at hold
  have hnew := h.localNow
  rw [hnow] at hnew
  cases hpl : a.preLocal.get rel with
  | none =>
    rw [hpl] at hold
    exact hold.elim
  | some pl =>
    cases hle : (manifestOf P a.surface .controller w'.localRoot).get rel with
    | none =>
      rw [hle] at hnew
      exact hnew.elim
    | some le =>
      rw [hpl] at hold
      rw [hle] at hnew
      have hhash : a.surface.hashes new.1.length = true → le.sha256 = some (P.sha256 new.1) := by
        intro hhashed
        rw [get_manifestOf] at hle
        unfold Root.regular at hafter
        split at hle
        · rename_i hlisted
          rw [if_pos hlisted] at hafter
          cases hnode : w'.localRoot.get rel with
          | none => exact nomatch hnode ▸ hle
          | some node =>
            cases node with
            | link target => exact nomatch hnode ▸ hle
            | other => exact nomatch hnode ▸ hle
            | file bytes mtimeNs mode =>
              rw [hnode] at hle hafter
              rw [← Option.some.inj hafter] at hhashed ⊢
              rw [← Option.some.inj hle]
              exact if_pos hhashed
        · exact nomatch hle
      have hchanged := changedSince_of_visibleEdit hpl hold hnew hhash hedit
      have hpost : ((manifestOf P a.surface .target w'.remoteRoot).get rel).isSome = true := by
        rw [← entriesSame_isSome h.remoteNow, ← hpre.samePaths, hpl]
        rfl
      obtain ⟨re, hre⟩ := Option.isSome_iff_exists.mp hpost
      have hsame := h.remoteNow
      rw [hre] at hsame
      have hstill : changedSince (a.preRemote.get rel) (some re) = false := by
        rw [changedSince, hsame]
        rfl
      refine ⟨_, exists_nextPlan ⟨rel, .localNewer, .push,
        "local changed since last run"⟩ rfl ?_, rfl, rfl⟩
      rw [hle, hre, h.localBase, h.remoteBase, hpl]
      simp [classify, classifyBoth, hchanged, hstill]

end Standing

/-- A settled path is where the next baseline says. -/
theorem settled_quiescent {acc : Progress} {next : NextBaseline}
    (h : Settled a w rel acc w') (hremote : w'.remoteRoot = w.remoteRoot)
    (hrel : rel ∈ changedAt a w) (hown : OwnName w.localRoot rel)
    (hlocal : next.localManifest = acc.nextLocal) (hnext : next.remoteManifest = acc.nextRemote)
    {item : ClassifiedPath} (hitem : item ∈ nextPlan a w' next) (hpath : item.path = rel) :
    item.action = .none := by
  subst hpath
  obtain ⟨bytes, mtimeNs, mode, hnode, hentry⟩ := h.localEntry
  obtain ⟨_, entry, _, hpost, _⟩ := mem_changedAt hrel
  have hcovers : a.surface.covers P item.path = true := by
    by_contra hno
    rw [postOf, get_manifestOf, if_neg fun hin => hno hin.2] at hpost
    exact nomatch hpost
  have hregular : w'.localRoot.regular P a.surface item.path = some (bytes, mtimeNs) := by
    rw [Root.regular, if_pos ⟨h.spelled hown, hcovers⟩, hnode]
  have hrecords : Records P (some (bytes, mtimeNs))
      ((manifestOf P a.surface .controller w'.localRoot).get item.path) := by
    rw [← hregular]
    exact records_manifestOf _ _ _ _
  have hbase : Records P (some (bytes, mtimeNs)) (next.localManifest.get item.path) := by
    rw [hlocal, hentry]
    exact ⟨rfl, rfl, rfl, Or.inr rfl⟩
  have hsame : next.remoteManifest.get item.path =
      (manifestOf P a.surface .target w'.remoteRoot).get item.path := by
    rw [hnext, h.remoteEntry, hremote, postOf]
  refine classify_quiet (hbase.same hrecords) (by rw [hsame]; exact entriesSame_refl _) ?_
    (mem_nextPlan.mp hitem)
  rw [hrecords.isSome, hremote]
  exact (Option.isSome_iff_exists.mpr ⟨entry, hpost⟩).symm

/-- A dropped path is in no tree. -/
theorem dropped_quiescent {acc : Progress} {next : NextBaseline} (h : Dropped rel acc w')
    (hremote : w'.remoteRoot = w.remoteRoot) (hrel : rel ∈ deletedAt a w)
    {item : ClassifiedPath} (hitem : item ∈ nextPlan a w' next) (hpath : item.path = rel) :
    item.action = .none := by
  subst hpath
  have hregular : w'.localRoot.regular P a.surface item.path = none := by
    have hfile := h.noFile
    unfold Root.file at hfile
    unfold Root.regular
    split
    · split
      · rename_i bytes mtimeNs mode hnode
        rw [hnode] at hfile
        cases hfile
      · rfl
    · rfl
  have hlocal : (manifestOf P a.surface .controller w'.localRoot).get item.path = none := by
    have hrecords := (records_manifestOf (P := P) a.surface .controller w'.localRoot
      item.path).isSome
    rw [hregular] at hrecords
    exact Option.not_isSome_iff_eq_none.mp (by simp [hrecords])
  have hclass := mem_nextPlan.mp hitem
  rw [hlocal, hremote, show (manifestOf P a.surface .target w.remoteRoot).get item.path = none from
    mem_deletedAt hrel] at hclass
  cases hclass

end Plan

/-! ## The whole call -/

theorem DeletedBase.advances {a : PullbackArgs} {w w' : World P} {acc : Progress}
    {before : Root P.localKey} (h : DeletedBase a w (deletedAt a w) acc w')
    (hclean : acc.conflicts = []) (hpre : PreRun a before) :
    Advances a before w w' ⟨acc.nextLocal, acc.nextRemote⟩ := by
  have hremote := h.frame.remoteRoot
  have hstanding : ∀ rel, Alone a w rel → ¬ CommandTouched a w rel →
      Standing a w w' ⟨acc.nextLocal, acc.nextRemote⟩ rel := by
    intro rel halone hnot
    obtain ⟨hl, hr⟩ := h.kept rel (fun hin => hnot (Or.inl hin)) fun hin => hnot (Or.inr hin)
    refine ⟨?_, ?_, hl, hr⟩
    · rw [← regular_untouched h.frame (halone.keys hnot)]
      exact records_manifestOf _ _ _ _
    · rw [hremote]
      exact untouched_remote hnot
  refine ⟨fun rel hnot => h.kept rel (fun hin => hnot (Or.inl hin)) fun hin => hnot (Or.inr hin),
    ?_, ?_, ?_, ?_⟩
  · intro rel halone hsame item hitem hpath
    by_cases hchanged : rel ∈ changedAt a w
    · have hsettled := (h.settled rel hchanged halone).resolve_left
        (by rw [hclean]; exact List.not_mem_nil)
      refine settled_quiescent hsettled hremote hchanged ?_ rfl rfl hitem hpath
      intro q hq hkey
      by_contra hne
      exact (halone q hkey hne).1 hq
    · by_cases hdeleted : rel ∈ deletedAt a w
      · have hdropped := (h.dropped rel hdeleted).resolve_left
          (by rw [hclean]; exact List.not_mem_nil)
        exact dropped_quiescent hdropped hremote hdeleted hitem hpath
      · have hnot : ¬ CommandTouched a w rel := not_or.mpr ⟨hchanged, hdeleted⟩
        exact (hstanding rel halone hnot).quiescent hpre hsame hitem hpath
  · exact fun rel halone hnot => (hstanding rel halone hnot).created hpre
  · intro rel old new halone hnot hold hnew hedit
    refine (hstanding rel halone hnot).edited hpre hold hnew ?_ hedit
    rw [regular_untouched h.frame (halone.keys hnot)]
    exact hnew
  · exact fun rel halone hnot => (hstanding rel halone hnot).deleted hpre

end Baseline

/-! ## Concrete runs -/

/-- One file `f`, recorded on both sides; digests are taken up to the given size. -/
def recordedArgs (hashBelowBytes : Nat) (digest : Option String) : PullbackArgs where
  surface := ⟨[], [], hashBelowBytes⟩
  preRemote := Dict.empty.set "f" ⟨"f", "file", 1, 5, digest, none⟩
  preLocal := Dict.empty.set "f" ⟨"f", "file", 1, 5, digest, some 420⟩
  backupBelowBytes := 0
  writeScope := []

def beforeRun (P : Platform) : Root P.localKey := .directory (ofNodes [("f", .file [97] 5 420)])

theorem recordedArgs_preRun (insensitive : Bool) (hashBelowBytes : Nat) {digest : Option String}
    (hdigest : digest = none ∨ digest = some (sampleSha256 [97])) :
    PreRun (P := samplePlatform insensitive) (recordedArgs hashBelowBytes digest)
      (beforeRun (samplePlatform insensitive)) where
  records := by
    intro rel
    have hlists : (beforeRun (samplePlatform insensitive)).Lists rel ↔ rel = "f" := by
      change rel ∈ ["f"] ↔ _
      rw [List.mem_singleton]
    have hget : (recordedArgs hashBelowBytes digest).preLocal.get rel =
        if rel = "f" then some ⟨"f", "file", 1, 5, digest, some 420⟩ else none :=
      Dict.get_set _ _ _ _
    rw [hget, Root.regular]
    by_cases hrel : rel = "f"
    · subst hrel
      have hcovers : (recordedArgs hashBelowBytes digest).surface.covers
          (samplePlatform insensitive) "f" = true := by
        simp [Surface.covers, Surface.excluded, shouldExclude, recordedArgs]
      have hnode : (beforeRun (samplePlatform insensitive)).get "f" = some (.file [97] 5 420) := by
        change (Dict.set Dict.empty "f" (Node.file [97] 5 420)).get "f" = _
        exact Dict.get_set_self _ _ _
      rw [if_pos rfl, if_pos ⟨hlists.mpr rfl, hcovers⟩, hnode]
      exact ⟨rfl, rfl, rfl, hdigest⟩
    · rw [if_neg hrel, if_neg fun hin => hrel (hlists.mp hin.1)]
      trivial
  samePaths := by
    intro rel
    change ((Dict.empty.set "f" _).get rel).isSome = ((Dict.empty.set "f" _).get rel).isSome
    rw [Dict.get_set, Dict.get_set]
    split <;> rfl

/-- The actions of the next comparison. -/
def nextActions {P : Platform} (a : PullbackArgs) :
    EStateM.Result Fault (World P) PullbackResult → Option (List (String × Action))
  | .ok result w => result.nextBaseline.map fun next =>
      (nextPlan a w next).map fun item => (item.path, item.action)
  | .error _ _ => none

theorem nextActions_some {P : Platform} (a : PullbackArgs)
    (outcome : EStateM.Result Fault (World P) PullbackResult) (actions : List (String × Action))
    (h : nextActions a outcome = some actions) : ∃ result w' next, outcome = .ok result w' ∧
      result.nextBaseline = some next ∧
      (nextPlan a w' next).map (fun item => (item.path, item.action)) = actions := by
  cases outcome with
  | error fault w' => simp [nextActions] at h
  | ok result w' =>
    obtain ⟨next, hnext, hactions⟩ := Option.map_eq_some_iff.mp h
    exact ⟨result, w', next, rfl, hnext, hactions⟩

/-- The command did nothing; the local file was edited at `mtimeNs`. -/
def idleCommandWorld (mtimeNs : Int) : World (samplePlatform false) :=
  .ofTrees _ [("f", .file [98] mtimeNs 420)] [("f", .file [97] 5 420)]

/-- The same of every path and of every edit. -/
structure AdvancesEverywhere {P : Platform} (a : PullbackArgs) (before : Root P.localKey)
    (w w' : World P) (next : NextBaseline) : Prop where
  quiescent : ∀ rel, before.regular P a.surface rel = w.localRoot.regular P a.surface rel →
    ∀ item ∈ nextPlan a w' next, item.path = rel → item.action = .none
  edited : ∀ rel old new, ¬ CommandTouched a w rel →
    before.regular P a.surface rel = some old → w.localRoot.regular P a.surface rel = some new →
    old.1 ≠ new.1 → ∃ item ∈ nextPlan a w' next, item.path = rel ∧ item.action = .push

/-- The command renamed `f` to `F`, and the local file was deleted meanwhile. -/
def renamedWorld : World (samplePlatform true) := .ofTrees _ [] [("F", .file [97] 6 420)]

end Remrun.Reconcile
