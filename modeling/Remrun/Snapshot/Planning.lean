import Remrun.Snapshot.Readers

/-!
# What a plan may do

The outcomes of `plan_replica_catchup`, one decision taken apart, and what a ready plan does to
the content of the replica and of the head.
-/

namespace Remrun.Snapshot

open Keyed Reconcile
set_option autoImplicit false

/-! ## The outcomes -/

/-- How a plan comes about. -/
inductive Planned (P : Platform) (cursor : ReplicaCursor) (base head : CanonicalSnapshot)
    (current : Manifest) (tombstones : List TombstoneEvent) (expected : String) : CatchUpPlan → Prop where
  | refused (reason : BlockReason)
    (hadmitted : checkAdmission cursor base head expected = .error reason) :
    Planned P cursor base head current tombstones expected (blockedCatchup cursor head reason)
  | unreadable (ack : Int) (error : String)
    (hadmitted : checkAdmission cursor base head expected = .ok ack)
    (hsides : readSides P base head current = .error error) :
    Planned P cursor base head current tombstones expected (blockedCatchup cursor head .invalidIdentity)
  | disputed (ack : Int) (sides : Identities × Identities × Identities)
    (hadmitted : checkAdmission cursor base head expected = .ok ack)
    (hsides : readSides P base head current = .ok sides)
    (hhistory : tombstoneHistory head.generation tombstones = none) :
    Planned P cursor base head current tombstones expected
      (blockedCatchup cursor head .invalidTombstoneHistory)
  | decided (ack : Int) (baseIds headIds replicaIds : Identities) (byPath : EventsByPath)
    (hadmitted : checkAdmission cursor base head expected = .ok ack)
    (hsides : readSides P base head current = .ok (baseIds, headIds, replicaIds))
    (hhistory : tombstoneHistory head.generation tombstones = some byPath) :
    Planned P cursor base head current tombstones expected
      (planOf cursor head (decideAll ack head.generation baseIds headIds replicaIds byPath))

section Plan
variable {P : Platform} {cursor : ReplicaCursor} {base head : CanonicalSnapshot}
  {current : Manifest} {tombstones : List TombstoneEvent} {expected : String}

theorem planReplicaCatchup_ok {plan : CatchUpPlan} :
    planReplicaCatchup P cursor base head current tombstones expected = .ok plan ↔
      isDigest expected = true ∧ Planned P cursor base head current tombstones expected plan := by
  unfold planReplicaCatchup
  rw [sha256Hex_bind]
  refine and_congr_right fun _ => ?_
  constructor
  · intro h
    split at h
    · rename_i reason hadmitted
      cases h
      exact .refused reason hadmitted
    · rename_i ack hadmitted
      split at h
      · rename_i error hsides
        cases h
        exact .unreadable ack error hadmitted hsides
      · rename_i baseIds headIds replicaIds hsides
        split at h
        · rename_i hhistory
          cases h
          exact .disputed ack _ hadmitted hsides hhistory
        · rename_i byPath hhistory
          cases h
          exact .decided ack baseIds headIds replicaIds byPath hadmitted hsides hhistory
  · intro h
    cases h with
    | refused reason hadmitted =>
      rw [hadmitted]
      rfl
    | unreadable ack error hadmitted hsides =>
      rw [hadmitted]
      dsimp only
      rw [hsides]
      rfl
    | disputed ack sides hadmitted hsides hhistory =>
      rw [hadmitted]
      dsimp only
      rw [hsides, hhistory]
      rfl
    | decided ack baseIds headIds replicaIds byPath hadmitted hsides hhistory =>
      rw [hadmitted]
      dsimp only
      rw [hsides, hhistory]
      rfl

theorem checkAdmission_ok {ack : Int} : checkAdmission cursor base head expected = .ok ack ↔
    (base.policySha256 = expected ∧ head.policySha256 = expected) ∧ cursor.state ≠ .retired ∧
      cursor.ackGeneration = some ack ∧ cursor.ackManifestSha256 = some base.manifestSha256 ∧
      ack = base.generation ∧ base.generation ≤ head.generation := by
  unfold checkAdmission
  constructor
  · intro h
    split at h
    · cases h
    · rename_i hpolicy
      split at h
      · cases h
      · split at h
        · cases h
        · rename_i hretired
          split at h
          · rename_i ack' sha256 hack hsha
            split at h
            · cases h
            · rename_i hbase
              split at h
              · cases h
              · rename_i hhead
                cases h
                simp only [not_or, not_not] at hpolicy hbase
                exact ⟨hpolicy, hretired, hack, hbase.2 ▸ hsha, hbase.1, not_lt.mp hhead⟩
          · cases h
  · rintro ⟨⟨hbase, hhead⟩, hretired, hack, hsha, hgeneration, hle⟩
    have hunverified : cursor.state ≠ .unverified := by
      intro hstate
      rw [cursor.unclaimed hstate] at hack
      cases hack
    rw [if_neg (by simp [hbase, hhead]), if_neg hunverified, if_neg hretired, hack, hsha]
    simp [hgeneration, hle]

theorem readSides_ok {baseIds headIds replicaIds : Identities} :
    readSides P base head current = .ok (baseIds, headIds, replicaIds) ↔
      snapshotIdentities P base = .ok baseIds ∧ snapshotIdentities P head = .ok headIds ∧
        strongManifestIdentities current = .ok replicaIds := by
  unfold readSides
  cases snapshotIdentities P base with
  | error e => simp [Bind.bind, Except.bind]
  | ok b =>
    cases snapshotIdentities P head with
    | error e => simp [Bind.bind, Except.bind]
    | ok h =>
      cases strongManifestIdentities current with
      | error e => simp [Bind.bind, Except.bind]
      | ok r => simp [Bind.bind, Except.bind, pure, Except.pure]

end Plan

/-! ## One decision -/

/-- A deletion that the replica has not acknowledged. -/
def Unseen (ack headGeneration : Int) (event : TombstoneEvent) : Prop :=
  ack < event.deletedGeneration ∧ event.deletedGeneration ≤ headGeneration

/-- A decision, by the branch that takes it. -/
inductive Decides (ack headGeneration : Int) (base head replica : Option ContentIdentity)
    (events : List TombstoneEvent) : CatchUpAction → Prop where
  | stale (event : TombstoneEvent) (hmem : event ∈ events) (hunseen : Unseen ack headGeneration event)
    (hhead : head = none) (hsame : replica = some (contentIdentity event.priorIdentity)) :
    Decides ack headGeneration base head replica events .applyHead
  | modified (event : TombstoneEvent) (hmem : event ∈ events)
    (hunseen : Unseen ack headGeneration event) (hhead : head = none) (hreplica : replica ≠ none)
    (hdiffers : ∀ event ∈ events, Unseen ack headGeneration event →
      replica ≠ some (contentIdentity event.priorIdentity)) :
    Decides ack headGeneration base head replica events .conflict
  | same (hsame : replica = head) : Decides ack headGeneration base head replica events .noop
  | missing (hbase : replica = base) (hpresent : base ≠ none) (hhead : head = none)
    (hseen : ∀ event ∈ events, ¬ Unseen ack headGeneration event) :
    Decides ack headGeneration base head replica events .conflict
  | changed (hbase : replica = base) (hhead : base ≠ none → head ≠ none) :
    Decides ack headGeneration base head replica events .applyHead
  | edited (hhead : head = base) (hreplica : replica ≠ base)
    (hseen : head = none → ∀ event ∈ events, ¬ Unseen ack headGeneration event) :
    Decides ack headGeneration base head replica events .adoptReplica
  | diverged (hhead : head ≠ base) (hreplica : replica ≠ base) (hsame : replica ≠ head) :
    Decides ack headGeneration base head replica events .conflict

section Decision
variable {ack headGeneration : Int} {path : String} {base head replica : Option ContentIdentity}
  {events : List TombstoneEvent}

/-- The comparison of the three sides, where no unseen deletion covers a surviving copy. -/
theorem decides_compare
    {decision : CatchUpAction → CatchUpReason → Option Int → CatchUpDecision}
    (haction : ∀ action reason tombstone, (decision action reason tombstone).action = action)
    (hseen : head = none → replica ≠ none → ∀ event ∈ events, ¬ Unseen ack headGeneration event) :
    Decides ack headGeneration base head replica events
      (decidePath.compare ack base head replica events decision).action := by
  unfold decidePath.compare
  split
  · rename_i h
    rw [haction]
    exact .same (h.1.trans h.2.symm)
  · split
    · rename_i h
      rw [haction]
      exact .same h
    · rename_i hdiffers
      split
      · rename_i hbase
        split
        · rename_i hgone
          rw [haction]
          exact .missing hbase hgone.1 hgone.2 (hseen hgone.2 (hbase ▸ hgone.1))
        · rename_i hkept
          rw [haction]
          exact .changed hbase fun hpresent hhead => hkept ⟨hpresent, hhead⟩
      · rename_i hreplica
        split
        · rename_i hhead
          have hedited : Decides ack headGeneration base head replica events .adoptReplica := by
            refine .edited hhead hreplica fun hnone => hseen hnone fun hgone => ?_
            exact hdiffers (hgone.trans hnone.symm)
          split
          · rw [haction]
            exact hedited
          · rw [haction]
            exact hedited
        · rename_i hhead
          split
          · rw [haction]
            exact .diverged hhead hreplica hdiffers
          · rw [haction]
            exact .diverged hhead hreplica hdiffers

theorem decidePath_decides :
    Decides ack headGeneration base head replica events
      (decidePath ack headGeneration path base head replica events).action := by
  have hunseen : ∀ event, event ∈ events.filter (fun event =>
      ack < event.deletedGeneration && event.deletedGeneration ≤ headGeneration) ↔
      event ∈ events ∧ Unseen ack headGeneration event := by
    intro event
    simp [Unseen]
  unfold decidePath
  dsimp only
  split
  · rename_i latest hlatest
    obtain ⟨hmem, hnew⟩ := (hunseen latest).mp (List.mem_of_getLast? hlatest)
    split
    · rename_i hcovers
      split
      · rename_i event hevent
        have hmatch := List.mem_filter.mp (List.mem_of_getLast? hevent)
        obtain ⟨hmem', hnew'⟩ := (hunseen event).mp hmatch.1
        exact .stale event hmem' hnew' hcovers.1 (of_decide_eq_true hmatch.2).symm
      · rename_i hnone
        refine .modified latest hmem hnew hcovers.1 hcovers.2 fun event hevent hnew' hsame => ?_
        have hempty := List.getLast?_eq_none_iff.mp hnone
        have hin : event ∈ ([] : List TombstoneEvent) := by
          rw [← hempty]
          exact List.mem_filter.mpr ⟨(hunseen event).mpr ⟨hevent, hnew'⟩, decide_eq_true hsame.symm⟩
        cases hin
    · rename_i hcovers
      exact decides_compare (fun _ _ _ => rfl) fun hhead hreplica => absurd ⟨hhead, hreplica⟩ hcovers
  · rename_i hnone
    refine decides_compare (fun _ _ _ => rfl) fun _ _ event hevent hnew => ?_
    have hempty := List.getLast?_eq_none_iff.mp hnone
    have hin : event ∈ ([] : List TombstoneEvent) := by
      rw [← hempty]
      exact (hunseen event).mpr ⟨hevent, hnew⟩
    cases hin

end Decision

/-! ## The whole plan -/

/-- The content of a manifest, without the modification times. -/
def contentOf (manifest : Manifest) (path : String) : Option ContentIdentity :=
  (manifest.get path).map entryIdentity

/-- The content of the replica after the decisions to apply the head. -/
def applyHeads (decisions : List CatchUpDecision) (content : String → Option ContentIdentity)
    (path : String) : Option ContentIdentity :=
  match decisions.find? fun d => d.path = path && d.action = .applyHead with
  | some d => d.headIdentity
  | none => content path

/-- The content of the head after the decisions to adopt the replica. -/
def adoptReplicas (decisions : List CatchUpDecision) (content : String → Option ContentIdentity)
    (path : String) : Option ContentIdentity :=
  match decisions.find? fun d => d.path = path && d.action = .adoptReplica with
  | some d => d.replicaIdentity
  | none => content path

/-- The decisions neither lose nor resurrect content. -/
structure SafePlan (ack headGeneration : Int) (base head replica : String → Option ContentIdentity)
    (tombstones : List TombstoneEvent) (decisions : List CatchUpDecision) : Prop where
  once : (decisions.map CatchUpDecision.path).Nodup
  covered : ∀ path, path ∈ decisions.map CatchUpDecision.path ↔
    base path ≠ none ∨ head path ≠ none ∨ replica path ≠ none
  sides : ∀ d ∈ decisions, d.baseIdentity = base d.path ∧ d.headIdentity = head d.path ∧
    d.replicaIdentity = replica d.path
  applied : ∀ d ∈ decisions, d.action = .applyHead → replica d.path = base d.path ∨
    ∃ event ∈ tombstones, event.path = d.path ∧ Unseen ack headGeneration event ∧
      replica d.path = some (contentIdentity event.priorIdentity)
  adopted : ∀ d ∈ decisions, d.action = .adoptReplica → head d.path = base d.path ∧
    (head d.path = none → ∀ event ∈ tombstones, event.path = d.path → ¬ Unseen ack headGeneration event)
  settled : ∀ d ∈ decisions, d.action ≠ .conflict
  keepsEdits : ∀ path, replica path ≠ base path →
    (∀ event ∈ tombstones, event.path = path → Unseen ack headGeneration event →
      replica path ≠ some (contentIdentity event.priorIdentity)) →
    applyHeads decisions replica path = replica path
  staysDeleted : ∀ event ∈ tombstones, Unseen ack headGeneration event → head event.path = none →
    adoptReplicas decisions head event.path = none

section Whole
variable {ack headGeneration : Int} {baseIds headIds replicaIds : Identities}
  {byPath : EventsByPath}

theorem compare_eq {base head replica : Option ContentIdentity} {events : List TombstoneEvent}
    (decision : CatchUpAction → CatchUpReason → Option Int → CatchUpDecision) :
    ∃ action reason tombstone, decidePath.compare ack base head replica events decision =
      decision action reason tombstone := by
  unfold decidePath.compare
  split_ifs <;> exact ⟨_, _, _, rfl⟩

/-- A decision carries its path and the three identities. -/
theorem decidePath_eq (path : String) (base head replica : Option ContentIdentity)
    (events : List TombstoneEvent) : ∃ action reason tombstone,
    decidePath ack headGeneration path base head replica events =
      ⟨path, action, reason, base, head, replica, tombstone⟩ := by
  unfold decidePath
  dsimp only
  split
  · split
    · split <;> exact ⟨_, _, _, rfl⟩
    · exact compare_eq _
  · exact compare_eq _

theorem decidePath_path (path : String) (base head replica : Option ContentIdentity)
    (events : List TombstoneEvent) :
    (decidePath ack headGeneration path base head replica events).path = path := by
  obtain ⟨_, _, _, h⟩ := decidePath_eq path base head replica events
  rw [h]

theorem decideAll_paths : (decideAll ack headGeneration baseIds headIds replicaIds byPath).map
    CatchUpDecision.path = sortPaths (baseIds.keys ++ headIds.keys ++ replicaIds.keys) := by
  rw [decideAll, List.map_map]
  refine (List.map_congr_left fun path _ => ?_).trans (List.map_id _)
  exact decidePath_path path _ _ _ _

theorem mem_identities_keys {identities : Identities} {path : String} :
    path ∈ identities.keys ↔ identities.get path ≠ none := by
  rw [ne_eq, Dict.get_eq_none]
  constructor
  · intro hmem hall
    exact hall path hmem rfl
  · intro hnot
    by_contra hout
    refine hnot fun q hq hsame => hout ?_
    exact (show q = path from hsame) ▸ hq

/-- A decision of the plan is taken from the three sides and the tombstones of its path. -/
theorem decideAll_mem {d : CatchUpDecision}
    (hd : d ∈ decideAll ack headGeneration baseIds headIds replicaIds byPath) :
    (d.baseIdentity = baseIds.get d.path ∧ d.headIdentity = headIds.get d.path ∧
      d.replicaIdentity = replicaIds.get d.path) ∧
    Decides ack headGeneration (baseIds.get d.path) (headIds.get d.path) (replicaIds.get d.path)
      ((byPath.get d.path).getD []) d.action := by
  obtain ⟨path, -, rfl⟩ := List.mem_map.mp hd
  have hdecides : Decides ack headGeneration (baseIds.get path) (headIds.get path)
      (replicaIds.get path) ((byPath.get path).getD []) (decidePath ack headGeneration path
        (baseIds.get path) (headIds.get path) (replicaIds.get path)
        ((byPath.get path).getD [])).action := decidePath_decides
  obtain ⟨action, reason, tombstone, h⟩ : ∃ action reason tombstone,
      decidePath ack headGeneration path (baseIds.get path) (headIds.get path)
        (replicaIds.get path) ((byPath.get path).getD []) =
      ⟨path, action, reason, baseIds.get path, headIds.get path, replicaIds.get path, tombstone⟩ :=
    decidePath_eq _ _ _ _ _
  rw [h] at hdecides ⊢
  exact ⟨⟨rfl, rfl, rfl⟩, hdecides⟩

end Whole

/-- The decisions of a ready plan are safe. -/
theorem decideAll_safe {ack headGeneration : Int} {baseIds headIds replicaIds : Identities}
    {byPath : EventsByPath} {tombstones : List TombstoneEvent}
    (hevents : ∀ path, (byPath.get path).getD [] = eventsAt tombstones path)
    (hready : ∀ d ∈ decideAll ack headGeneration baseIds headIds replicaIds byPath,
      d.action ≠ .conflict) :
    SafePlan ack headGeneration baseIds.get headIds.get replicaIds.get tombstones
      (decideAll ack headGeneration baseIds headIds replicaIds byPath) := by
  have happlied : ∀ d ∈ decideAll ack headGeneration baseIds headIds replicaIds byPath,
      d.action = .applyHead → replicaIds.get d.path = baseIds.get d.path ∨
        ∃ event ∈ tombstones, event.path = d.path ∧ Unseen ack headGeneration event ∧
          replicaIds.get d.path = some (contentIdentity event.priorIdentity) := by
    intro d hd haction
    have hdecides := (decideAll_mem hd).2
    rw [haction, hevents] at hdecides
    cases hdecides with
    | stale event hmem hunseen hhead hsame =>
      obtain ⟨hmem, hpath⟩ := mem_eventsAt.mp hmem
      exact Or.inr ⟨event, hmem, hpath, hunseen, hsame⟩
    | changed hbase hhead => exact Or.inl hbase
  have hadopted : ∀ d ∈ decideAll ack headGeneration baseIds headIds replicaIds byPath,
      d.action = .adoptReplica → headIds.get d.path = baseIds.get d.path ∧
        (headIds.get d.path = none → ∀ event ∈ tombstones, event.path = d.path →
          ¬ Unseen ack headGeneration event) := by
    intro d hd haction
    have hdecides := (decideAll_mem hd).2
    rw [haction, hevents] at hdecides
    cases hdecides with
    | edited hhead hreplica hseen =>
      refine ⟨hhead, fun hnone event hmem hpath => ?_⟩
      exact hseen hnone event (mem_eventsAt.mpr ⟨hmem, hpath⟩)
  refine ⟨?_, ?_, fun d hd => (decideAll_mem hd).1, happlied, hadopted, hready, ?_, ?_⟩
  · rw [decideAll_paths]
    exact sortPaths_nodup _
  · intro path
    rw [decideAll_paths, mem_sortPaths, List.mem_append, List.mem_append, mem_identities_keys,
      mem_identities_keys, mem_identities_keys, or_assoc]
  · intro path hedited hfresh
    unfold applyHeads
    split
    · rename_i d hfind
      have hd := List.mem_of_find?_eq_some hfind
      obtain ⟨hpath, haction⟩ : d.path = path ∧ d.action = .applyHead := by
        simpa using List.find?_some hfind
      subst hpath
      rcases happlied d hd haction with hbase | ⟨event, hmem, hpath, hunseen, hsame⟩
      · exact absurd hbase hedited
      · exact absurd hsame (hfresh event hmem hpath hunseen)
    · rfl
  · intro event hmem hunseen hhead
    unfold adoptReplicas
    split
    · rename_i d hfind
      have hd := List.mem_of_find?_eq_some hfind
      obtain ⟨hpath, haction⟩ : d.path = event.path ∧ d.action = .adoptReplica := by
        simpa using List.find?_some hfind
      rw [← hpath] at hhead
      exact absurd hunseen ((hadopted d hd haction).2 hhead event hmem hpath.symm)
    · exact hhead

section Permutation
variable {P : Platform} {cursor : ReplicaCursor} {base head : CanonicalSnapshot}
  {current : Manifest} {expected : String} {tombstones tombstones' : List TombstoneEvent}

/-- The order of the tombstones does not matter. -/
theorem planned_perm (hperm : tombstones.Perm tombstones') {plan : CatchUpPlan}
    (h : Planned P cursor base head current tombstones expected plan) :
    Planned P cursor base head current tombstones' expected plan := by
  cases h with
  | refused reason hadmitted => exact .refused reason hadmitted
  | unreadable ack error hadmitted hsides => exact .unreadable ack error hadmitted hsides
  | disputed ack sides hadmitted hsides hhistory =>
    refine .disputed ack sides hadmitted hsides ?_
    by_contra hsome
    obtain ⟨byPath, hbyPath⟩ := Option.ne_none_iff_exists'.mp hsome
    have hvalid := (tombstoneHistory_isSome.mp ⟨byPath, hbyPath⟩).perm hperm.symm
    obtain ⟨byPath', hbyPath'⟩ := tombstoneHistory_isSome.mpr hvalid
    rw [hbyPath'] at hhistory
    cases hhistory
  | decided ack baseIds headIds replicaIds byPath hadmitted hsides hhistory =>
    have hvalid := tombstoneHistory_isSome.mp ⟨byPath, hhistory⟩
    obtain ⟨byPath', hbyPath'⟩ := tombstoneHistory_isSome.mpr (hvalid.perm hperm)
    have hsame : decideAll ack head.generation baseIds headIds replicaIds byPath =
        decideAll ack head.generation baseIds headIds replicaIds byPath' := by
      unfold decideAll
      refine List.map_congr_left fun path _ => ?_
      rw [tombstoneHistory_get hhistory, tombstoneHistory_get hbyPath', eventsAt_perm hperm hvalid]
    rw [hsame]
    exact .decided ack baseIds headIds replicaIds byPath' hadmitted hsides hbyPath'

end Permutation

theorem planOf_ready {cursor : ReplicaCursor} {head : CanonicalSnapshot}
    {decisions : List CatchUpDecision} : (planOf cursor head decisions).state = .ready ↔
      ∀ d ∈ decisions, d.action ≠ .conflict := by
  unfold planOf
  dsimp only
  split
  · rename_i hany
    obtain ⟨d, hd, hconflict⟩ := List.any_eq_true.mp hany
    exact ⟨nofun, fun hall => absurd (of_decide_eq_true hconflict) (hall d hd)⟩
  · rename_i hany
    refine ⟨fun _ d hd hconflict => hany ?_, fun _ => rfl⟩
    exact List.any_eq_true.mpr ⟨d, hd, decide_eq_true hconflict⟩

/-- A ready plan neither loses nor resurrects content, and does not depend on the order in which
the tombstones are listed. -/
theorem readyPlan_safe (P : Platform) (cursor : ReplicaCursor) (base head : CanonicalSnapshot)
    (current : Manifest) (tombstones : List TombstoneEvent) (expected : String) (plan : CatchUpPlan)
    (hplan : planReplicaCatchup P cursor base head current tombstones expected = .ok plan)
    (hready : plan.state = .ready) :
    (∃ ack, cursor.ackGeneration = some ack ∧
      SafePlan ack head.generation base.contentAt head.contentAt (contentOf current) tombstones
        plan.decisions) ∧
    ∀ tombstones', tombstones.Perm tombstones' →
      planReplicaCatchup P cursor base head current tombstones' expected = .ok plan := by
  obtain ⟨hexpected, hplanned⟩ := planReplicaCatchup_ok.mp hplan
  refine ⟨?_, fun tombstones' hperm =>
    planReplicaCatchup_ok.mpr ⟨hexpected, planned_perm hperm hplanned⟩⟩
  cases hplanned with
  | refused reason hadmitted => cases hready
  | unreadable ack error hadmitted hsides => cases hready
  | disputed ack sides hadmitted hsides hhistory => cases hready
  | decided ack baseIds headIds replicaIds byPath hadmitted hsides hhistory =>
    obtain ⟨hbase, hhead, hreplica⟩ := readSides_ok.mp hsides
    have hbaseAt : baseIds.get = base.contentAt := funext (snapshotIdentities_content hbase)
    have hheadAt : headIds.get = head.contentAt := funext (snapshotIdentities_content hhead)
    have hreplicaAt : replicaIds.get = contentOf current :=
      funext (strongManifestIdentities_spec hreplica).2.2
    refine ⟨ack, (checkAdmission_ok.mp hadmitted).2.2.1, ?_⟩
    rw [← hbaseAt, ← hheadAt, ← hreplicaAt]
    exact decideAll_safe (tombstoneHistory_get hhistory) (planOf_ready.mp hready)

def samplePolicy : String := sampleSha256 []

/-- The manifest with one file. -/
def sampleManifest (path : String) (byte : UInt8) : Manifest :=
  (Dict.empty : Manifest).set path (sampleEntry path byte)

/-- A cursor that acknowledges the manifest with one file. -/
def sampleCursor : ReplicaCursor where
  replicaId := "r"
  state := .active
  ackGeneration := some 0
  ackManifestSha256 := some (strongManifestDigest snapshotPlatform (sampleManifest "p" 97))
  together := by simp
  nonneg := by simp
  digest := by
    intro sha256 h
    rw [← Option.some.inj h]
    exact snapshotPlatform.sha256_digest _
  verified := by simp
  unclaimed := by simp

def sampleBase : CanonicalSnapshot :=
  snapshotOf snapshotPlatform (sampleManifest "p" 97) 0 none samplePolicy

/-- The next generation, in which the file is deleted. -/
def sampleHead : CanonicalSnapshot := snapshotOf snapshotPlatform Dict.empty 1 (some 0) samplePolicy

def sampleTombstone : TombstoneEvent := ⟨"p", 1, canonicalIdentity (sampleEntry "p" 97), "t"⟩

/-- The records of that manifest, as a reader returns them. -/
def sampleRecords : Dict (id : String → String) Record :=
  Dict.empty.set "p" (canonicalIdentity (sampleEntry "p" 97))

def sampleIdentities : Identities := sampleRecords.mapValues contentIdentity

theorem get_sampleRecords (path : String) :
    sampleRecords.get path = ((sampleManifest "p" 97).get path).map canonicalIdentity := by
  rw [sampleRecords, sampleManifest, Dict.get_set, Dict.get_set]
  split <;> rfl

theorem readSides_sample : readSides snapshotPlatform sampleBase sampleHead (sampleManifest "p" 97) =
    .ok (sampleIdentities, Dict.empty, sampleIdentities) := by
  have hpolicy : isDigest samplePolicy = true := snapshotPlatform.sha256_digest []
  have hbase : identityManifestDigest snapshotPlatform sampleRecords = sampleBase.manifestSha256 :=
    digest_eq get_sampleRecords
  have hhead : identityManifestDigest snapshotPlatform Dict.empty =
      strongManifestDigest snapshotPlatform Dict.empty := digest_eq fun _ => rfl
  refine readSides_ok.mpr ⟨?_, ?_, by rfl⟩
  · exact snapshotIdentities_ok.mpr ⟨⟨rfl, Or.inl ⟨rfl, rfl⟩, hpolicy,
      snapshotPlatform.sha256_digest _⟩, sampleRecords, by rfl, hbase, rfl⟩
  · exact snapshotIdentities_ok.mpr ⟨⟨rfl, Or.inr ⟨0, rfl, by decide, by decide⟩, hpolicy,
      snapshotPlatform.sha256_digest _⟩, Dict.empty, rfl, hhead, rfl⟩

/-- A replica that still has a deleted file is told to delete it. -/
theorem readyPlan_safe_deleted : ∃ plan,
    planReplicaCatchup snapshotPlatform sampleCursor sampleBase sampleHead (sampleManifest "p" 97)
      [sampleTombstone] samplePolicy = .ok plan ∧ plan.state = .ready ∧
    ∃ ack, sampleCursor.ackGeneration = some ack ∧
      SafePlan ack 1 sampleBase.contentAt sampleHead.contentAt (contentOf (sampleManifest "p" 97))
        [sampleTombstone] plan.decisions := by
  have hadmitted : checkAdmission sampleCursor sampleBase sampleHead samplePolicy = .ok 0 :=
    checkAdmission_ok.mpr ⟨⟨rfl, rfl⟩, nofun, rfl, rfl, rfl, by decide⟩
  obtain ⟨byPath, hhistory, hready⟩ : ∃ byPath,
      tombstoneHistory sampleHead.generation [sampleTombstone] = some byPath ∧
        (planOf sampleCursor sampleHead (decideAll 0 sampleHead.generation sampleIdentities
          Dict.empty sampleIdentities byPath)).state = .ready :=
    ⟨_, rfl, by decide +kernel⟩
  have hok := planReplicaCatchup_ok.mpr ⟨snapshotPlatform.sha256_digest [],
    .decided 0 _ _ _ byPath hadmitted readSides_sample hhistory⟩
  exact ⟨_, hok, hready, (readyPlan_safe _ _ _ _ _ _ _ _ hok hready).1⟩

end Remrun.Snapshot
