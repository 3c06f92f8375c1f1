import Remrun.Snapshot.Planning

/-!
# Clean replicas over a history of snapshots

A history of full manifests with the tombstones recorded at each generation. A replica whose
content is that of an earlier manifest is brought to the last one, unless a path of it was edited
before every one of its later deletions.
-/

namespace Remrun.Snapshot

open Keyed Reconcile
set_option autoImplicit false

/-! ## Histories -/

/-- The manifests `manifest 0 … manifest length`, each with its snapshot, and the tombstones
`recorded i` of the step from `i` to `i + 1`. -/
structure History (P : Platform) (policy : String) where
  length : Nat
  manifest : Nat → Manifest
  generation : Nat → Int
  parent : Nat → Option Int
  snapshot : Nat → CanonicalSnapshot
  txnId : Nat → String
  recorded : Nat → List TombstoneEvent
  increasing : ∀ i < length, generation i < generation (i + 1)
  built : ∀ i ≤ length,
    buildCanonicalSnapshot P (manifest i) (generation i) (parent i) policy = .ok (snapshot i)
  deletions : ∀ i < length,
    deletionTombstones (manifest i) (manifest (i + 1)) (generation (i + 1)) (txnId (i + 1)) =
      .ok (recorded i)

/-- All recorded tombstones. -/
def History.tombstones {P : Platform} {policy : String} (H : History P policy) : List TombstoneEvent :=
  (List.range H.length).flatMap H.recorded

theorem tombstoneOf_ok {generation : Int} {txnId path : String} {entry : FileEntry}
    {event : TombstoneEvent} : tombstoneOf generation txnId path entry = .ok event ↔
      (entry.sha256 ≠ none ∧ entry.mode ≠ none) ∧
        event = ⟨path, generation, canonicalIdentity entry, txnId⟩ := by
  unfold tombstoneOf
  split
  · rename_i hweak
    exact ⟨nofun, fun h => absurd hweak (not_or.mpr h.1)⟩
  · rename_i hstrong
    exact ⟨fun h => ⟨not_or.mp hstrong, (Except.ok.inj h).symm⟩, fun h => congrArg _ h.2.symm⟩

/-- What a successful call records: one tombstone for each path that is gone. -/
theorem deletionTombstones_ok {parent current : Manifest} {generation : Int} {txnId : String}
    {events : List TombstoneEvent} (h : deletionTombstones parent current generation txnId = .ok events) :
    0 < generation ∧ txnId ≠ "" ∧ (events.map TombstoneEvent.path).Nodup ∧
      ∀ event, event ∈ events ↔ ∃ path entry, parent.get path = some entry ∧
        current.get path = none ∧ event = ⟨path, generation, canonicalIdentity entry, txnId⟩ := by
  unfold deletionTombstones at h
  split at h
  · cases h
  · rename_i hpositive
    split at h
    · cases h
    · rename_i htxn
      dsimp only at h
      obtain ⟨-, rfl⟩ := (mapM_ok (fun item event => tombstoneOf_ok) (entriesAt parent
        (sortPaths (parent.keys.filter fun path => current.get path = none))) events).mp h
      refine ⟨not_le.mp hpositive, htxn, ?_, fun event => ?_⟩
      · rw [List.map_map]
        exact entriesAt_nodup (sortPaths_nodup _)
      · rw [List.mem_map]
        constructor
        · rintro ⟨⟨path, entry⟩, hmem, rfl⟩
          obtain ⟨hpath, hget⟩ := mem_entriesAt.mp hmem
          have hgone := (List.mem_filter.mp (mem_sortPaths.mp hpath)).2
          exact ⟨path, entry, hget, of_decide_eq_true hgone, rfl⟩
        · rintro ⟨path, entry, hget, hgone, rfl⟩
          refine ⟨(path, entry), mem_entriesAt.mpr ⟨mem_sortPaths.mpr (List.mem_filter.mpr
            ⟨mem_keys_iff.mpr ⟨entry, hget⟩, decide_eq_true hgone⟩), hget⟩, rfl⟩

section History
variable {P : Platform} {policy : String} (H : History P policy)

theorem History.generation_lt {i j : Nat} (hij : i < j) (hj : j ≤ H.length) :
    H.generation i < H.generation j := by
  induction j with
  | zero => cases hij
  | succ j ih =>
    have hstep := H.increasing j hj
    rcases Nat.lt_succ_iff_lt_or_eq.mp hij with hlt | rfl
    · exact (ih hlt (Nat.le_of_succ_le hj)).trans hstep
    · exact hstep

theorem History.strong {i : Nat} (hi : i ≤ H.length) : StrongManifest (H.manifest i) :=
  (buildCanonicalSnapshot_ok.mp (H.built i hi)).2.2.1

theorem History.snapshot_eq {i : Nat} (hi : i ≤ H.length) :
    H.snapshot i = snapshotOf P (H.manifest i) (H.generation i) (H.parent i) policy :=
  (buildCanonicalSnapshot_ok.mp (H.built i hi)).2.2.2

/-- A path is deleted in the step from `i` to `i + 1`, with that entry. -/
structure History.Deletes (i : Nat) (path : String) (entry : FileEntry) : Prop where
  step : i < H.length
  before : (H.manifest i).get path = some entry
  after : (H.manifest (i + 1)).get path = none

def History.event (i : Nat) (path : String) (entry : FileEntry) : TombstoneEvent :=
  ⟨path, H.generation (i + 1), canonicalIdentity entry, H.txnId (i + 1)⟩

theorem History.mem_tombstones {event : TombstoneEvent} : event ∈ H.tombstones ↔
    ∃ i path entry, H.Deletes i path entry ∧ event = H.event i path entry := by
  unfold History.tombstones
  rw [List.mem_flatMap]
  constructor
  · rintro ⟨i, hi, hevent⟩
    have hi := List.mem_range.mp hi
    obtain ⟨path, entry, hbefore, hafter, rfl⟩ :=
      ((deletionTombstones_ok (H.deletions i hi)).2.2.2 event).mp hevent
    exact ⟨i, path, entry, ⟨hi, hbefore, hafter⟩, rfl⟩
  · rintro ⟨i, path, entry, ⟨hi, hbefore, hafter⟩, rfl⟩
    exact ⟨i, List.mem_range.mpr hi,
      ((deletionTombstones_ok (H.deletions i hi)).2.2.2 _).mpr ⟨path, entry, hbefore, hafter, rfl⟩⟩

/-- A deletion is recorded at one generation for one path. -/
theorem History.tombstones_once : (H.tombstones.map eventKey).Nodup := by
  unfold History.tombstones
  rw [List.map_flatMap, List.nodup_flatMap]
  constructor
  · intro i hi
    have hnodup := (deletionTombstones_ok (H.deletions i (List.mem_range.mp hi))).2.2.1
    apply List.Nodup.of_map Prod.fst
    rw [List.map_map]
    exact hnodup
  · refine List.Pairwise.imp_of_mem ?_ (List.pairwise_lt_range (n := H.length))
    intro i j hi hj hij key hleft hright
    obtain ⟨left, hin, rfl⟩ := List.mem_map.mp hleft
    obtain ⟨right, hin', hsame⟩ := List.mem_map.mp hright
    obtain ⟨_, _, _, _, rfl⟩ :=
      ((deletionTombstones_ok (H.deletions i (List.mem_range.mp hi))).2.2.2 left).mp hin
    obtain ⟨_, _, _, _, rfl⟩ :=
      ((deletionTombstones_ok (H.deletions j (List.mem_range.mp hj))).2.2.2 right).mp hin'
    have hgeneration : H.generation (j + 1) = H.generation (i + 1) := (Prod.mk.inj hsame).2
    have hlt := H.generation_lt (Nat.succ_lt_succ hij) (List.mem_range.mp hj)
    exact absurd hgeneration (ne_of_gt hlt)

/-- The recorded tombstones are a valid history if the reader takes every deleted entry. -/
theorem History.valid_iff : ValidHistory (H.generation H.length) H.tombstones ↔
    ∀ i path entry, H.Deletes i path entry → Accepted path entry := by
  constructor
  · intro h i path entry hdeletes
    have hvalid := h.valid _ (H.mem_tombstones.mpr ⟨i, path, entry, hdeletes, rfl⟩)
    exact (validate_canonical (H.strong hdeletes.step.le path entry hdeletes.before)).mp hvalid.prior
  · intro haccepted
    refine ⟨H.tombstones_once, fun event hevent => ?_⟩
    obtain ⟨i, path, entry, hdeletes, rfl⟩ := H.mem_tombstones.mp hevent
    obtain ⟨hpositive, htxn, -, -⟩ := deletionTombstones_ok (H.deletions i hdeletes.step)
    refine ⟨htxn, hpositive, ?_, ?_⟩
    · rcases Nat.lt_or_eq_of_le (Nat.succ_le_of_lt hdeletes.step) with hlt | heq
      · exact (H.generation_lt hlt le_rfl).le
      · exact le_of_eq (congrArg H.generation heq)
    · exact (validate_canonical (H.strong hdeletes.step.le path entry hdeletes.before)).mpr
        (haccepted i path entry hdeletes)

/-- The deletions that a replica at `k` has not seen are those of the later steps. -/
theorem History.unseen_iff {k i : Nat} {path : String} {entry : FileEntry} (hk : k ≤ H.length)
    (hi : i < H.length) : Unseen (H.generation k) (H.generation H.length) (H.event i path entry) ↔
      k ≤ i := by
  constructor
  · rintro ⟨hafter, -⟩
    by_contra hlt
    rcases Nat.lt_or_eq_of_le (Nat.succ_le_of_lt (not_le.mp hlt)) with h | h
    · exact absurd hafter (not_lt.mpr (H.generation_lt h hk).le)
    · exact absurd hafter (not_lt.mpr (le_of_eq (congrArg H.generation h)))
  · intro hle
    refine ⟨H.generation_lt (Nat.lt_succ_of_le hle) hi, ?_⟩
    rcases Nat.lt_or_eq_of_le (Nat.succ_le_of_lt hi) with hlt | heq
    · exact (H.generation_lt hlt le_rfl).le
    · exact le_of_eq (congrArg H.generation heq)

end History

/-! ## Clean replicas -/

/-- Equal up to the modification times. -/
def SameContent (left right : Manifest) : Prop :=
  ∀ path, (left.get path).map (fun entry => { entry with mtimeNs := 0 }) =
    (right.get path).map fun entry => { entry with mtimeNs := 0 }

theorem SameContent.contentOf_eq {left right : Manifest} (h : SameContent left right) :
    contentOf left = contentOf right := by
  funext path
  have hpath := congrArg (Option.map entryIdentity) (h path)
  rw [Option.map_map, Option.map_map] at hpath
  exact hpath

theorem SameContent.strong {left right : Manifest} (h : SameContent left right)
    (hstrong : StrongManifest right) : StrongManifest left := by
  intro path entry hget
  have hpath := h path
  rw [hget] at hpath
  cases hright : right.get path with
  | none => rw [hright] at hpath; cases hpath
  | some entry' =>
    rw [hright] at hpath
    simp only [Option.map_some, Option.some.injEq, FileEntry.mk.injEq, true_and] at hpath
    obtain ⟨hpath, hkind, -, hsha, hmode⟩ := hpath
    obtain ⟨hkeyed, hfile, hsome, hdigest⟩ := hstrong path entry' hright
    exact ⟨hpath.trans hkeyed, hkind.trans hfile, hmode ▸ hsome, hsha ▸ hdigest⟩

/-- The plan is ready, keeps nothing of the replica, and leads to the target. -/
def FastForwards (P : Platform) (cursor : ReplicaCursor) (base head : CanonicalSnapshot)
    (current target : Manifest) (tombstones : List TombstoneEvent) (policy : String) : Prop :=
  ∃ plan, planReplicaCatchup P cursor base head current tombstones policy = .ok plan ∧
    plan.state = .ready ∧
    (∀ d ∈ plan.decisions, d.action ≠ .conflict ∧ d.action ≠ .adoptReplica) ∧
    ∀ path, applyHeads plan.decisions (contentOf current) path = contentOf target path

/-- The replica is not retired, the readers take all identities that are read, and each path that
is gone from the head was deleted, after the acknowledgement, with the content of the base. -/
structure Replayable {P : Platform} {policy : String} (H : History P policy) (k : Nat)
    (cursor : ReplicaCursor) (current : Manifest) : Prop where
  kept : cursor.state ≠ .retired
  base : AcceptedManifest (H.manifest k)
  head : AcceptedManifest (H.manifest H.length)
  replica : AcceptedManifest current
  deleted : ∀ i path entry, H.Deletes i path entry → Accepted path entry
  unedited : ∀ path entry, (H.manifest k).get path = some entry →
    (H.manifest H.length).get path = none →
    ∃ i entry', k ≤ i ∧ H.Deletes i path entry' ∧ entryIdentity entry' = entryIdentity entry

section Clean
variable {P : Platform} {policy : String} {H : History P policy} {k : Nat} {cursor : ReplicaCursor}
  {current : Manifest} {tombstones : List TombstoneEvent}

/-- What the readers return for the replica and the two snapshots. -/
theorem readSides_history (hk : k ≤ H.length) (hclean : SameContent current (H.manifest k)) :
    (AcceptedManifest (H.manifest k) → AcceptedManifest (H.manifest H.length) →
      AcceptedManifest current → ∃ sides,
        readSides P (H.snapshot k) (H.snapshot H.length) current = .ok sides) ∧
    ∀ baseIds headIds replicaIds,
      readSides P (H.snapshot k) (H.snapshot H.length) current =
        .ok (baseIds, headIds, replicaIds) →
      (AcceptedManifest (H.manifest k) ∧ AcceptedManifest (H.manifest H.length) ∧
        AcceptedManifest current) ∧ baseIds.get = contentOf (H.manifest k) ∧
        headIds.get = contentOf (H.manifest H.length) ∧
        replicaIds.get = contentOf (H.manifest k) := by
  obtain ⟨hgeneration, hpolicy, hstrong, hbase⟩ := buildCanonicalSnapshot_ok.mp (H.built k hk)
  obtain ⟨hgeneration', -, hstrong', hhead⟩ := buildCanonicalSnapshot_ok.mp (H.built H.length le_rfl)
  obtain ⟨hread, honly⟩ := snapshotIdentities_snapshotOf (P := P) hgeneration hpolicy hstrong
  obtain ⟨hread', honly'⟩ := snapshotIdentities_snapshotOf (P := P) hgeneration' hpolicy hstrong'
  rw [hbase, hhead]
  constructor
  · intro haccepted haccepted' hreplica
    obtain ⟨baseIds, hbaseIds, -⟩ := hread haccepted
    obtain ⟨headIds, hheadIds, -⟩ := hread' haccepted'
    obtain ⟨replicaIds, hreplicaIds⟩ :=
      strongManifestIdentities_ok (hclean.strong hstrong) hreplica
    exact ⟨_, readSides_ok.mpr ⟨hbaseIds, hheadIds, hreplicaIds⟩⟩
  · intro baseIds headIds replicaIds hsides
    obtain ⟨hbaseIds, hheadIds, hreplicaIds⟩ := readSides_ok.mp hsides
    have haccepted := honly _ hbaseIds
    have haccepted' := honly' _ hheadIds
    obtain ⟨-, hreplica, hget⟩ := strongManifestIdentities_spec hreplicaIds
    obtain ⟨_, hsame, hbaseGet⟩ := hread haccepted
    obtain ⟨_, hsame', hheadGet⟩ := hread' haccepted'
    rw [hbaseIds] at hsame
    rw [hheadIds] at hsame'
    rw [← Except.ok.inj hsame] at hbaseGet
    rw [← Except.ok.inj hsame'] at hheadGet
    refine ⟨⟨haccepted, haccepted', hreplica⟩, funext hbaseGet, funext hheadGet, ?_⟩
    exact (funext hget : replicaIds.get = contentOf current).trans hclean.contentOf_eq

theorem contentOf_ne_none {manifest : Manifest} {path : String} :
    contentOf manifest path ≠ none ↔ ∃ entry, manifest.get path = some entry := by
  unfold contentOf
  cases manifest.get path <;> simp

theorem contentOf_eq_none {manifest : Manifest} {path : String} :
    contentOf manifest path = none ↔ manifest.get path = none := Option.map_eq_none_iff

/-- The tombstones of a path that a replica at `k` has not seen. -/
theorem unseen_eventsAt (hk : k ≤ H.length) (hall : tombstones.Perm H.tombstones) {path : String}
    {event : TombstoneEvent} : (event ∈ eventsAt tombstones path ∧
      Unseen (H.generation k) (H.generation H.length) event) ↔
      ∃ i entry, k ≤ i ∧ H.Deletes i path entry ∧ event = H.event i path entry := by
  rw [mem_eventsAt, hall.mem_iff, H.mem_tombstones]
  constructor
  · rintro ⟨⟨⟨i, q, entry, hdeletes, rfl⟩, hpath⟩, hunseen⟩
    obtain rfl : q = path := hpath
    exact ⟨i, entry, (H.unseen_iff hk hdeletes.step).mp hunseen, hdeletes, rfl⟩
  · rintro ⟨i, entry, hle, hdeletes, rfl⟩
    exact ⟨⟨⟨i, path, entry, hdeletes, rfl⟩, rfl⟩, (H.unseen_iff hk hdeletes.step).mpr hle⟩

/-- On a clean replica, a decision applies the head or finds it in place, if each deletion was of
the content of the base. -/
theorem decides_clean (hk : k ≤ H.length) (hall : tombstones.Perm H.tombstones)
    (hunedited : ∀ path entry, (H.manifest k).get path = some entry →
      (H.manifest H.length).get path = none →
      ∃ i entry', k ≤ i ∧ H.Deletes i path entry' ∧ entryIdentity entry' = entryIdentity entry)
    {path : String} {action : CatchUpAction}
    (hdecides : Decides (H.generation k) (H.generation H.length) (contentOf (H.manifest k) path)
      (contentOf (H.manifest H.length) path) (contentOf (H.manifest k) path)
      (eventsAt tombstones path) action) :
    action = .applyHead ∨
      (action = .noop ∧ contentOf (H.manifest k) path = contentOf (H.manifest H.length) path) := by
  have hdeleted : contentOf (H.manifest k) path ≠ none →
      contentOf (H.manifest H.length) path = none → ∃ event ∈ eventsAt tombstones path,
        Unseen (H.generation k) (H.generation H.length) event ∧
          contentOf (H.manifest k) path = some (contentIdentity event.priorIdentity) := by
    intro hpresent hgone
    obtain ⟨entry, hget⟩ := contentOf_ne_none.mp hpresent
    obtain ⟨i, entry', hle, hdeletes, hsame⟩ := hunedited path entry hget (contentOf_eq_none.mp hgone)
    obtain ⟨hmem, hunseen⟩ := (unseen_eventsAt hk hall).mpr ⟨i, entry', hle, hdeletes, rfl⟩
    refine ⟨_, hmem, hunseen, ?_⟩
    rw [contentOf, hget]
    exact congrArg some hsame.symm
  cases hdecides with
  | stale event hmem hunseen hhead hsame => exact Or.inl rfl
  | modified event hmem hunseen hhead hreplica hdiffers =>
    obtain ⟨event', hmem', hunseen', hsame⟩ := hdeleted hreplica hhead
    exact absurd hsame (hdiffers event' hmem' hunseen')
  | same hsame => exact Or.inr ⟨rfl, hsame⟩
  | missing hbase hpresent hhead hseen =>
    obtain ⟨event', hmem', hunseen', -⟩ := hdeleted hpresent hhead
    exact absurd hunseen' (hseen event' hmem')
  | changed hbase hhead => exact Or.inl rfl
  | edited hhead hreplica hseen => exact absurd rfl hreplica
  | diverged hhead hreplica hsame => exact absurd rfl hreplica

/-- Conversely, a path that is gone and not in conflict was deleted with the content of the base. -/
theorem unedited_of_decides (hk : k ≤ H.length) (hall : tombstones.Perm H.tombstones)
    {path : String} {entry : FileEntry} {action : CatchUpAction}
    (hget : (H.manifest k).get path = some entry) (hgone : (H.manifest H.length).get path = none)
    (hdecides : Decides (H.generation k) (H.generation H.length) (contentOf (H.manifest k) path)
      (contentOf (H.manifest H.length) path) (contentOf (H.manifest k) path)
      (eventsAt tombstones path) action) (hsettled : action ≠ .conflict) :
    ∃ i entry', k ≤ i ∧ H.Deletes i path entry' ∧ entryIdentity entry' = entryIdentity entry := by
  have hbase : contentOf (H.manifest k) path = some (entryIdentity entry) := by
    rw [contentOf, hget]
    rfl
  have hhead : contentOf (H.manifest H.length) path = none := contentOf_eq_none.mpr hgone
  rw [hbase, hhead] at hdecides
  cases hdecides with
  | stale event hmem hunseen _ hsame =>
    obtain ⟨i, entry', hle, hdeletes, rfl⟩ := (unseen_eventsAt hk hall).mp ⟨hmem, hunseen⟩
    exact ⟨i, entry', hle, hdeletes, (Option.some.inj hsame).symm⟩
  | modified => exact absurd rfl hsettled
  | same hsame => cases hsame
  | missing => exact absurd rfl hsettled
  | changed _ hkept => exact absurd rfl (hkept (Option.some_ne_none _))
  | edited hsame => cases hsame
  | diverged => exact absurd rfl hsettled

theorem checkAdmission_history (hk : k ≤ H.length) (hack : cursor.ackGeneration = some (H.generation k))
    (hdigest : cursor.ackManifestSha256 = some (H.snapshot k).manifestSha256) (ack : Int) :
    checkAdmission cursor (H.snapshot k) (H.snapshot H.length) policy = .ok ack ↔
      cursor.state ≠ .retired ∧ ack = H.generation k := by
  have hle : H.generation k ≤ H.generation H.length := by
    rcases Nat.lt_or_eq_of_le hk with hlt | heq
    · exact (H.generation_lt hlt le_rfl).le
    · exact le_of_eq (congrArg H.generation heq)
  rw [checkAdmission_ok, hack, hdigest, H.snapshot_eq hk, H.snapshot_eq le_rfl]
  constructor
  · rintro ⟨-, hretired, -, -, hsame, -⟩
    exact ⟨hretired, hsame⟩
  · rintro ⟨hretired, rfl⟩
    exact ⟨⟨rfl, rfl⟩, hretired, rfl, rfl, rfl, hle⟩

/-- What applying the decisions leaves, where each applies the head or finds it in place. -/
theorem applyHeads_target {decisions : List CatchUpDecision}
    {head replica : String → Option ContentIdentity}
    (hcovered : ∀ path, head path ≠ none ∨ replica path ≠ none →
      path ∈ decisions.map CatchUpDecision.path)
    (hhead : ∀ d ∈ decisions, d.headIdentity = head d.path)
    (hsettled : ∀ d ∈ decisions, d.action = .applyHead ∨ replica d.path = head d.path)
    (path : String) : applyHeads decisions replica path = head path := by
  unfold applyHeads
  split
  · rename_i d hfind
    obtain ⟨hpath, -⟩ : d.path = path ∧ d.action = .applyHead := by
      simpa using List.find?_some hfind
    rw [hhead d (List.mem_of_find?_eq_some hfind), hpath]
  · rename_i hnone
    by_cases hmem : path ∈ decisions.map CatchUpDecision.path
    · obtain ⟨d, hd, rfl⟩ := List.mem_map.mp hmem
      refine (hsettled d hd).resolve_left fun haction => ?_
      exact List.find?_eq_none.mp hnone d hd (by simp [haction])
    · have hempty := mt (hcovered path) hmem
      simp only [not_or, not_not] at hempty
      rw [hempty.1, hempty.2]

/-- A history can be replayed on a clean replica that fast-forwards. -/
theorem replayable_of_fastForwards (hk : k ≤ H.length)
    (hack : cursor.ackGeneration = some (H.generation k))
    (hdigest : cursor.ackManifestSha256 = some (H.snapshot k).manifestSha256)
    (hclean : SameContent current (H.manifest k)) (hall : tombstones.Perm H.tombstones)
    (h : FastForwards P cursor (H.snapshot k) (H.snapshot H.length) current (H.manifest H.length)
      tombstones policy) : Replayable H k cursor current := by
  have hgeneration : (H.snapshot H.length).generation = H.generation H.length := by
    rw [H.snapshot_eq le_rfl]
    rfl
  have hadmitted := checkAdmission_history hk hack hdigest
  obtain ⟨-, hsidesOnly⟩ := readSides_history hk hclean
  obtain ⟨plan, hplan, hready, -, -⟩ := h
  cases (planReplicaCatchup_ok.mp hplan).2 with
  | refused reason => cases hready
  | unreadable => cases hready
  | disputed => cases hready
  | decided ack baseIds headIds replicaIds byPath hack' hsides hhistory =>
    obtain ⟨hretired, rfl⟩ := (hadmitted ack).mp hack'
    obtain ⟨⟨h1, h2, h3⟩, hbaseAt, hheadAt, hreplicaAt⟩ := hsidesOnly _ _ _ hsides
    have hvalid := tombstoneHistory_isSome.mp ⟨byPath, hhistory⟩
    rw [hgeneration] at hvalid
    have hsettled := planOf_ready.mp hready
    refine ⟨hretired, h1, h2, h3, H.valid_iff.mp (hvalid.perm hall), ?_⟩
    intro path entry hget hgone
    have hsafe := decideAll_safe (tombstoneHistory_get hhistory) hsettled
    have hcovered : path ∈ (decideAll (H.generation k) (H.snapshot H.length).generation baseIds
        headIds replicaIds byPath).map CatchUpDecision.path := by
      refine (hsafe.covered path).mpr (Or.inl ?_)
      rw [hbaseAt]
      exact contentOf_ne_none.mpr ⟨entry, hget⟩
    obtain ⟨d, hd, rfl⟩ := List.mem_map.mp hcovered
    have hdecides := (decideAll_mem hd).2
    rw [tombstoneHistory_get hhistory, hbaseAt, hheadAt, hreplicaAt, hgeneration] at hdecides
    exact unedited_of_decides hk hall hget hgone hdecides (hsettled d hd)

/-- A clean replica fast-forwards if the history can be replayed on it. -/
theorem fastForwards_of_replayable (hk : k ≤ H.length)
    (hack : cursor.ackGeneration = some (H.generation k))
    (hdigest : cursor.ackManifestSha256 = some (H.snapshot k).manifestSha256)
    (hclean : SameContent current (H.manifest k)) (hall : tombstones.Perm H.tombstones)
    (h : Replayable H k cursor current) : FastForwards P cursor (H.snapshot k)
      (H.snapshot H.length) current (H.manifest H.length) tombstones policy := by
  have hpolicy := (buildCanonicalSnapshot_ok.mp (H.built k hk)).2.1
  have hgeneration : (H.snapshot H.length).generation = H.generation H.length := by
    rw [H.snapshot_eq le_rfl]
    rfl
  have hadmitted := checkAdmission_history hk hack hdigest
  obtain ⟨hread, hsidesOnly⟩ := readSides_history hk hclean
  obtain ⟨hretired, h1, h2, h3, hdeleted, hunedited⟩ := h
  obtain ⟨⟨baseIds, headIds, replicaIds⟩, hsides⟩ := hread h1 h2 h3
  obtain ⟨-, hbaseAt, hheadAt, hreplicaAt⟩ := hsidesOnly _ _ _ hsides
  have hvalid : ValidHistory (H.snapshot H.length).generation tombstones := by
    rw [hgeneration]
    exact (H.valid_iff.mpr hdeleted).perm hall.symm
  obtain ⟨byPath, hhistory⟩ := tombstoneHistory_isSome.mpr hvalid
  have hactions : ∀ d ∈ decideAll (H.generation k) (H.snapshot H.length).generation baseIds
      headIds replicaIds byPath, d.action = .applyHead ∨
      (d.action = .noop ∧ contentOf (H.manifest k) d.path =
        contentOf (H.manifest H.length) d.path) := by
    intro d hd
    have hdecides := (decideAll_mem hd).2
    rw [tombstoneHistory_get hhistory, hbaseAt, hheadAt, hreplicaAt, hgeneration] at hdecides
    exact decides_clean hk hall hunedited hdecides
  have hsettled : ∀ d ∈ decideAll (H.generation k) (H.snapshot H.length).generation baseIds
      headIds replicaIds byPath, d.action ≠ .conflict ∧ d.action ≠ .adoptReplica := by
    intro d hd
    rcases hactions d hd with h | ⟨h, -⟩ <;> rw [h] <;> exact ⟨nofun, nofun⟩
  have hsafe := decideAll_safe (tombstoneHistory_get hhistory) fun d hd => (hsettled d hd).1
  refine ⟨_, planReplicaCatchup_ok.mpr ⟨hpolicy, .decided _ _ _ _ _
    ((hadmitted _).mpr ⟨hretired, rfl⟩) hsides hhistory⟩,
    planOf_ready.mpr fun d hd => (hsettled d hd).1, hsettled, fun path => ?_⟩
  rw [hclean.contentOf_eq, ← hheadAt]
  refine applyHeads_target ?_ (fun d hd => (hsafe.sides d hd).2.1) (fun d hd => ?_) path
  · intro path hpresent
    rw [← hreplicaAt] at hpresent
    exact (hsafe.covered path).mpr (Or.inr hpresent)
  · rw [hheadAt]
    exact (hactions d hd).imp_right And.right

/-- A clean replica fast-forwards exactly if the history can be replayed on it. -/
theorem clean_fastForwards_iff (hk : k ≤ H.length)
    (hack : cursor.ackGeneration = some (H.generation k))
    (hdigest : cursor.ackManifestSha256 = some (H.snapshot k).manifestSha256)
    (hclean : SameContent current (H.manifest k)) (hall : tombstones.Perm H.tombstones) :
    FastForwards P cursor (H.snapshot k) (H.snapshot H.length) current (H.manifest H.length)
      tombstones policy ↔ Replayable H k cursor current :=
  ⟨replayable_of_fastForwards hk hack hdigest hclean hall,
    fastForwards_of_replayable hk hack hdigest hclean hall⟩

end Clean

/-! ## Concrete histories -/

section Sequence
variable {P : Platform} {policy : String} {manifest : Nat → Manifest}

def generationBefore : Nat → Option Int
  | 0 => none
  | i + 1 => some i

/-- What the transition after a generation deletes. -/
def recordedAfter (manifest : Nat → Manifest) (i : Nat) : List TombstoneEvent :=
  (entriesAt (manifest i) (sortPaths ((manifest i).keys.filter fun path =>
    (manifest (i + 1)).get path = none))).map fun item =>
      ⟨item.1, (i + 1 : Nat), canonicalIdentity item.2, "t"⟩

theorem snapshot_built (hpolicy : isDigest policy = true)
    (hstrong : ∀ i, StrongManifest (manifest i)) (length : Nat) : ∀ i ≤ length,
    buildCanonicalSnapshot P (manifest i) i (generationBefore i) policy =
      .ok (snapshotOf P (manifest i) i (generationBefore i) policy) := by
  intro i _
  refine buildCanonicalSnapshot_ok.mpr ⟨?_, hpolicy, hstrong i, rfl⟩
  cases i with
  | zero => exact Or.inl ⟨rfl, rfl⟩
  | succ i => exact Or.inr ⟨i, rfl, by omega, by omega⟩

theorem deletions_recorded (hstrong : ∀ i, StrongManifest (manifest i)) (length : Nat) :
    ∀ i < length, deletionTombstones (manifest i) (manifest (i + 1)) (i + 1 : Nat) "t" =
      .ok (recordedAfter manifest i) := by
  intro i _
  unfold deletionTombstones
  rw [if_neg (by omega), if_neg (by decide)]
  refine (mapM_ok (fun item event => tombstoneOf_ok) _ _).mpr ⟨?_, rfl⟩
  rintro ⟨path, entry⟩ hmem
  obtain ⟨-, -, hmode, sha256, hsha, -⟩ := hstrong i path entry (mem_entriesAt.mp hmem).2
  exact ⟨hsha ▸ Option.some_ne_none _, hmode⟩

theorem generations_increase (length : Nat) : ∀ i < length, (i : Int) < (i + 1 : Nat) := by
  intro i _
  omega

/-- The history of a sequence of strong manifests, at the generations `0, 1, …`. -/
def History.ofManifests (P : Platform) (hpolicy : isDigest policy = true) (length : Nat)
    (manifest : Nat → Manifest) (hstrong : ∀ i, StrongManifest (manifest i)) :
    History P policy where
  length := length
  manifest := manifest
  generation := fun i => i
  parent := generationBefore
  snapshot := fun i => snapshotOf P (manifest i) i (generationBefore i) policy
  txnId := fun _ => "t"
  recorded := recordedAfter manifest
  increasing := generations_increase length
  built := snapshot_built hpolicy hstrong length
  deletions := deletions_recorded hstrong length

end Sequence

theorem sampleManifest_get {path q : String} {byte : UInt8} {entry : FileEntry}
    (h : (sampleManifest path byte).get q = some entry) : q = path ∧ entry = sampleEntry path byte := by
  unfold sampleManifest at h
  rw [Dict.get_set] at h
  split at h
  · rename_i hkey
    exact ⟨hkey, (Option.some.inj h).symm⟩
  · cases h

theorem sampleManifest_strong (path : String) (byte : UInt8) : StrongManifest (sampleManifest path byte) := by
  intro q entry hget
  obtain ⟨rfl, rfl⟩ := sampleManifest_get hget
  exact ⟨rfl, rfl, nofun, _, rfl, (samplePlatform false).sha256_digest [byte]⟩

/-- The file `p` is created, perhaps edited, and deleted. -/
def sampleHistory (edits : List UInt8) : History snapshotPlatform samplePolicy :=
  .ofManifests snapshotPlatform (snapshotPlatform.sha256_digest []) (edits.length + 1)
    (fun i => match (97 :: edits)[i]? with
      | some byte => sampleManifest "p" byte
      | none => Dict.empty)
    (fun i => by
      split
      · exact sampleManifest_strong _ _
      · exact nofun)

theorem sampleManifest_accepted (byte : UInt8) : AcceptedManifest (sampleManifest "p" byte) := by
  intro q entry hget
  obtain ⟨rfl, rfl⟩ := sampleManifest_get hget
  refine ⟨by decide +kernel, Int.one_nonneg, fun mode hmode => ?_⟩
  rw [← Option.some.inj hmode]
  decide

/-- A replica with the file fast-forwards over its deletion. -/
theorem clean_fastForwards_iff_deleted :
    Replayable (sampleHistory []) 0 sampleCursor (sampleManifest "p" 97) ∧
    FastForwards snapshotPlatform sampleCursor ((sampleHistory []).snapshot 0)
      ((sampleHistory []).snapshot 1) (sampleManifest "p" 97) Dict.empty
      (sampleHistory []).tombstones samplePolicy := by
  have hreplay : Replayable (sampleHistory []) 0 sampleCursor (sampleManifest "p" 97) := by
    refine ⟨nofun, sampleManifest_accepted 97, nofun, sampleManifest_accepted 97, ?_, ?_⟩
    · rintro i path entry ⟨hstep, hbefore, -⟩
      obtain rfl : i = 0 := Nat.lt_one_iff.mp hstep
      exact sampleManifest_accepted 97 path entry hbefore
    · intro path entry hget hgone
      exact ⟨0, entry, le_rfl, ⟨Nat.one_pos, hget, hgone⟩, rfl⟩
  exact ⟨hreplay, (clean_fastForwards_iff (H := sampleHistory []) (k := 0) (Nat.zero_le _) rfl rfl
    (fun _ => rfl) (List.Perm.refl _)).mpr hreplay⟩

/-- A file that is edited and then deleted: the clean replica is in conflict. -/
theorem edited_not_fastForwards : ∃ (H : History snapshotPlatform samplePolicy) (k : Nat)
    (cursor : ReplicaCursor) (current : Manifest), k ≤ H.length ∧ cursor.state = .active ∧
    cursor.ackGeneration = some (H.generation k) ∧
    cursor.ackManifestSha256 = some (H.snapshot k).manifestSha256 ∧
    SameContent current (H.manifest k) ∧
    ¬ FastForwards snapshotPlatform cursor (H.snapshot k) (H.snapshot H.length) current
      (H.manifest H.length) H.tombstones samplePolicy := by
  refine ⟨sampleHistory [98], 0, sampleCursor, sampleManifest "p" 97, Nat.zero_le _, rfl, rfl, rfl,
    fun _ => rfl, fun h => ?_⟩
  have hreplay := replayable_of_fastForwards (H := sampleHistory [98]) (k := 0) (Nat.zero_le _) rfl
    rfl (fun _ => rfl) (List.Perm.refl _) h
  obtain ⟨i, entry, -, ⟨hstep, hbefore, hafter⟩, hsame⟩ := hreplay.unedited "p" (sampleEntry "p" 97)
    (by rfl) (by rfl)
  -- The first step keeps the file, the second deletes it with the other content.
  match i with
  | 0 => exact absurd hafter nofun
  | 1 =>
    have hentry : "p" = "p" ∧ entry = sampleEntry "p" 98 := sampleManifest_get hbefore
    obtain ⟨-, rfl⟩ := hentry
    exact absurd (congrArg ContentIdentity.sha256 hsame) (by decide +kernel)
  | i + 2 =>
    have hlength : i + 2 < 2 := hstep
    omega

end Remrun.Snapshot
