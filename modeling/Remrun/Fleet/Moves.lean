import Remrun.Lib.Effect
import Remrun.Fleet.Calls

/-!
# What a transaction of the fleet queue does to a batch

A rule for each transition: a relation that holds between every row and itself, and between a row
that the transition's own condition selects and the row that it writes, holds between the rows of
one batch before and after. Later modules use these rules and do not unfold a transition.
-/

namespace Remrun.Fleet

open Keyed Relational Effect
set_option autoImplicit false

section Rows
variable {τ : Type} {db db' db₁ : Database τ} {R : Batch τ → Batch τ → Prop}

/-! ## Primary keys -/

theorem Database.batch_unique (db : Database τ) {a b : Batch τ} (ha : a ∈ db.batches)
    (hb : b ∈ db.batches) (h : a.batchId = b.batchId) : a = b :=
  Table.eq_of_clash ha hb h h.symm

theorem Database.job_unique (db : Database τ) {i j : Job τ} (hi : i ∈ db.jobs) (hj : j ∈ db.jobs)
    (h : i.jobId = j.jobId) : i = j :=
  Table.eq_of_clash hi hj (Or.inl h) (Or.inl h.symm)

theorem batch_eq_some {batchId : String} {b : Batch τ} :
    db.batch batchId = some b ↔ b ∈ db.batches ∧ b.batchId = batchId := by
  constructor
  · exact fun h => ⟨Table.lookup_mem h, of_decide_eq_true
      (Table.lookup_sat (p := fun x : Batch τ => decide (x.batchId = batchId)) h)⟩
  · rintro ⟨hb, rfl⟩
    refine Table.lookup_eq_some hb (decide_eq_true rfl) fun c hc hid => ?_
    exact db.batch_unique hc hb (of_decide_eq_true hid)

/-! ## Statements -/

/-- Every row of `db'` comes from a row of the same batch in `db`. -/
def RowsRelated (R : Batch τ → Batch τ → Prop) (db db' : Database τ) : Prop :=
  ∀ b' ∈ db'.batches, ∃ b ∈ db.batches, b.batchId = b'.batchId ∧ R b b'

/-- The rows of one batch before and after are related. -/
theorem RowsRelated.pair (h : RowsRelated R db db') {b b' : Batch τ} (hb : b ∈ db.batches)
    (hb' : b' ∈ db'.batches) (hid : b.batchId = b'.batchId) : R b b' := by
  obtain ⟨c, hc, hkey, hR⟩ := h b' hb'
  obtain rfl := db.batch_unique hb hc (hid.trans hkey.symm)
  exact hR

theorem RowsRelated.imp {S : Batch τ → Batch τ → Prop} (h : RowsRelated R db db')
    (himp : ∀ b b', R b b' → S b b') : RowsRelated S db db' := by
  intro b' hb'
  obtain ⟨b, hb, hid, hR⟩ := h b' hb'
  exact ⟨b, hb, hid, himp b b' hR⟩

theorem rowsRelated_subset (hsub : ∀ b ∈ db'.batches, b ∈ db.batches)
    (hrefl : ∀ b ∈ db.batches, R b b) : RowsRelated R db db' :=
  fun b hb => ⟨b, hsub b hb, rfl, hrefl b (hsub b hb)⟩

theorem rowsRelated_same (hsame : db'.batches = db.batches) (hrefl : ∀ b ∈ db.batches, R b b) :
    RowsRelated R db db' := by
  refine rowsRelated_subset (fun b hb => ?_) hrefl
  rw [hsame] at hb
  exact hb

theorem rowsRelated_update {p : Batch τ → Bool} {f : Batch τ → Batch τ}
    (hsame : db'.batches.rows = db.batches.rows.map (Table.setWhere p f))
    (hf : ∀ b, (f b).batchId = b.batchId) (hrefl : ∀ b ∈ db.batches, R b b)
    (hstep : ∀ b ∈ db.batches, p b = true → R b (f b)) : RowsRelated R db db' := by
  intro b' hb'
  rw [Table.mem_def, hsame] at hb'
  obtain ⟨b, hb, rfl⟩ := List.mem_map.mp hb'
  refine ⟨b, hb, (Table.setWhere_column Batch.batchId p f hf b).symm, ?_⟩
  by_cases hp : p b = true
  · rw [Table.setWhere_pos hp]
    exact hstep b hb hp
  · rw [Table.setWhere_neg hp]
    exact hrefl b hb

/-- A transaction that raises is rolled back. -/
theorem after_rows {α : Type} {outcome : Except Fault (α × Database τ)}
    (hrefl : ∀ b ∈ db.batches, R b b)
    (hok : ∀ a db', outcome = .ok (a, db') → RowsRelated R db db') :
    RowsRelated R db (db.after outcome) := by
  cases outcome with
  | ok result => exact hok result.1 result.2 rfl
  | error fault => exact rowsRelated_same rfl hrefl

theorem updateJobs_batches {p : Job τ → Bool} {f : Job τ → Job τ}
    (h : db.updateJobs p f = .ok db') : db'.batches = db.batches := by
  obtain ⟨jobs, -, hdb⟩ := bind_eq_ok.mp h
  obtain rfl := pure_eq_ok.mp hdb
  rfl

theorem updateJobs_observations {p : Job τ → Bool} {f : Job τ → Job τ}
    (h : db.updateJobs p f = .ok db') : db'.observations = db.observations := by
  obtain ⟨jobs, -, hdb⟩ := bind_eq_ok.mp h
  obtain rfl := pure_eq_ok.mp hdb
  rfl

theorem mem_updateJobs {p : Job τ → Bool} {f : Job τ → Job τ} (h : db.updateJobs p f = .ok db')
    {j : Job τ} : j ∈ db'.jobs ↔ ∃ i ∈ db.jobs, Table.setWhere p f i = j := by
  obtain ⟨jobs, hjobs, hdb⟩ := bind_eq_ok.mp h
  obtain rfl := pure_eq_ok.mp hdb
  exact Table.mem_updateChecked (checked_eq_ok.mp hjobs)

theorem insertObservation_batches {batchId : String} {observation : Option Bool}
    (h : insertObservation batchId observation db = .ok db') : db'.batches = db.batches := by
  unfold insertObservation at h
  split at h
  · cases h
    rfl
  · cases h
  · obtain ⟨observations, -, hdb⟩ := bind_eq_ok.mp h
    obtain rfl := pure_eq_ok.mp hdb
    rfl

/-- An observation that `insertObservation` stores. -/
def Database.observable (db : Database τ) (batchId : String) : Option Bool → Bool
  | none => true
  | some false => false
  | some true => decide (¬ batchId ∈ db.observations)

theorem insertObservation_observable {batchId : String} {observation : Option Bool}
    (h : insertObservation batchId observation db = .ok db') :
    db.observable batchId observation = true := by
  unfold insertObservation at h
  split at h
  · rfl
  · cases h
  · obtain ⟨observations, hinsert, -⟩ := bind_eq_ok.mp h
    exact decide_eq_true fun hmem =>
      Table.insert_no_clash (checked_eq_ok.mp hinsert) hmem rfl

theorem observable_congr {db' : Database τ} (h : db'.observations = db.observations)
    (batchId : String) (observation : Option Bool) :
    db'.observable batchId observation = db.observable batchId observation := by
  cases observation with
  | none => rfl
  | some valid => cases valid with
    | false => rfl
    | true => simp only [Database.observable, h]

end Rows

/-! ## Enqueue and claims -/

section Claims
variable {τ : Type} {db db' : Database τ} {now : τ} {R : Batch τ → Batch τ → Prop}

theorem enqueueRecords_batches {specId : String} {records : List PreparedRecord}
    {jobIds : List String} (h : enqueueRecords specId now records db = .ok (jobIds, db')) :
    db'.batches = db.batches := by
  induction records generalizing db jobIds with
  | nil =>
    cases h
    rfl
  | cons record rest ih =>
    obtain ⟨⟨jobId, db₁⟩, hfirst, h⟩ := bind_eq_ok.mp h
    obtain ⟨⟨others, db₂⟩, hrest, hdb⟩ := bind_eq_ok.mp h
    obtain ⟨-, rfl⟩ := Prod.mk.inj (pure_eq_ok.mp hdb)
    refine (ih hrest).trans ?_
    unfold enqueueRecord at hfirst
    split at hfirst
    · split at hfirst
      · cases hfirst
      · cases hfirst
        rfl
    · obtain ⟨jobs, -, hdb⟩ := bind_eq_ok.mp hfirst
      obtain ⟨-, rfl⟩ := Prod.mk.inj (pure_eq_ok.mp hdb)
      rfl

theorem enqueue_batches {specId : String} {spec : PreparedSpec} {records : List PreparedRecord}
    {jobIds : List String} (h : enqueue specId spec records now db = .ok (jobIds, db')) :
    db'.batches = db.batches := by
  unfold enqueue at h
  split at h
  · split at h
    · cases h
    · exact enqueueRecords_batches h
  · exact (enqueueRecords_batches h).trans rfl

theorem finishQueued_batches {jobId error : String} {state : State} {done : Bool}
    (h : finishQueued jobId state error now db = .ok (done, db')) :
    db'.batches = db.batches := by
  obtain ⟨db₁, hjobs, hdb⟩ := bind_eq_ok.mp h
  obtain ⟨-, rfl⟩ := Prod.mk.inj (pure_eq_ok.mp hdb)
  exact updateJobs_batches hjobs

theorem reviewRows_batches {refused : List (Job τ × String)}
    (h : reviewRows now refused db = some db') : db'.batches = db.batches := by
  induction refused generalizing db with
  | nil =>
    cases h
    rfl
  | cons first rest ih =>
    obtain ⟨jobs, -, h⟩ := Option.bind_eq_some_iff.mp h
    exact (ih h).trans rfl

variable [LinearOrder τ]

theorem freeSlot_batches {c : Claim τ} (h : freeSlot c now db = some db') :
    db'.batches = db.batches := by
  unfold freeSlot at h
  split at h
  · cases h
    rfl
  · dsimp only at h
    split at h
    · cases h
      rfl
    · cases h

omit [LinearOrder τ] in
/-- The row of a new claim. -/
theorem insertClaim_batches {c : Claim τ} (h : insertClaim c now db = some db') :
    ∃ row : Batch τ, row.batchId = c.batchId ∧
      row.targetProtocolVersion = c.targetProtocolVersion ∧
      db.batches.insert row = some db'.batches := by
  obtain ⟨batches, hbatches, h⟩ := Option.bind_eq_some_iff.mp h
  refine ⟨_, rfl, rfl, hbatches.trans (congrArg some ?_)⟩
  dsimp only at h
  split at h
  · obtain ⟨leases, -, h⟩ := Option.bind_eq_some_iff.mp h
    obtain ⟨jobs, -, hdb⟩ := Option.bind_eq_some_iff.mp h
    cases hdb
    rfl
  · obtain ⟨leases, -, h⟩ := Option.bind_eq_some_iff.mp h
    obtain ⟨jobs, -, hdb⟩ := Option.bind_eq_some_iff.mp h
    cases hdb
    rfl

/-- A claim keeps every row; the row it adds is leased and carries the protocol of the claim. -/
theorem claimMany_batches (c : Claim τ) :
    (claimMany c now db).2.batches = db.batches ∨
      ((∀ b ∈ db.batches, b.batchId ≠ c.batchId) ∧
        ∃ row : Batch τ, row.batchId = c.batchId ∧
          row.targetProtocolVersion = c.targetProtocolVersion ∧
          ∀ b, b ∈ (claimMany c now db).2.batches ↔ b ∈ db.batches ∨ b = row) := by
  unfold claimMany
  split
  · exact Or.inl rfl
  · cases hbody : claimBody c now db with
    | none => exact Or.inl rfl
    | some result =>
      obtain ⟨db₁, hslot, h⟩ := Option.bind_eq_some_iff.mp hbody
      have hsame := freeSlot_batches hslot
      dsimp only at h
      split at h
      · cases h
      · split at h
        · obtain ⟨db₂, hinsert, hresult⟩ := Option.bind_eq_some_iff.mp h
          cases hresult
          obtain ⟨row, hid, hprotocol, hbatches⟩ := insertClaim_batches hinsert
          rw [hsame] at hbatches
          refine Or.inr ⟨fun b hb hclash => ?_, row, hid, hprotocol, fun b =>
            Table.mem_insert hbatches⟩
          exact Table.insert_no_clash hbatches hb (hclash.trans hid.symm)
        · obtain ⟨db₂, hreview, hresult⟩ := Option.bind_eq_some_iff.mp h
          cases hresult
          exact Or.inl ((reviewRows_batches hreview).trans hsame)

end Claims

/-! ## Owner transitions -/

section Owner
variable {τ : Type} [LinearOrder τ] {db db' : Database τ} {now : τ} {batchId ownerToken : String}
  {expectedState : State} {done : Bool} {R : Batch τ → Batch τ → Prop}

theorem owned_iff {b : Batch τ} : b.owned batchId expectedState ownerToken now = true ↔
    b.batchId = batchId ∧ b.state = expectedState ∧ b.ownerToken = some ownerToken ∧
      now < b.leaseUntil := by
  simp [Batch.owned, and_assoc]

theorem setBatchState_rows {state : State} (hrefl : ∀ b ∈ db.batches, R b b)
    (hstep : ∀ b ∈ db.batches, b.owned batchId expectedState ownerToken now = true →
      R b { b with state, updatedAt := now })
    (h : setBatchState batchId state expectedState ownerToken now db = .ok (done, db')) :
    RowsRelated R db db' := by
  unfold setBatchState at h
  split at h
  · cases h
    exact rowsRelated_same rfl hrefl
  · obtain ⟨db₁, hjobs, hdb⟩ := bind_eq_ok.mp h
    obtain ⟨-, rfl⟩ := Prod.mk.inj (pure_eq_ok.mp hdb)
    exact rowsRelated_update (congrArg Table.rows (updateJobs_batches hjobs)) (fun _ => rfl)
        hrefl hstep

theorem heartbeat_rows {leaseUntil : τ} (hrefl : ∀ b ∈ db.batches, R b b)
    (hstep : ∀ b ∈ db.batches, b.owned batchId expectedState ownerToken now = true →
      R b { b with leaseUntil, heartbeatAt := some now, updatedAt := now })
    (h : heartbeat batchId leaseUntil expectedState ownerToken now db = .ok (done, db')) :
    RowsRelated R db db' := by
  unfold heartbeat at h
  split at h
  · cases h
    exact rowsRelated_same rfl hrefl
  · split at h
    · cases h
      exact rowsRelated_same rfl hrefl
    · obtain ⟨db₁, hjobs, hdb⟩ := bind_eq_ok.mp h
      obtain ⟨-, rfl⟩ := Prod.mk.inj (pure_eq_ok.mp hdb)
      exact rowsRelated_update (congrArg Table.rows (updateJobs_batches hjobs)) (fun _ => rfl)
        hrefl hstep

theorem completeBatch_rows {report : Report} (hrefl : ∀ b ∈ db.batches, R b b)
    (hstep : ∀ b ∈ db.batches, b.owned batchId expectedState ownerToken now = true →
      db.observable batchId report.observation = true →
      ∀ disposition,
        terminalDisposition db batchId report.finalizationDisposition .pending = .ok disposition →
        R b { b with
          state := .done
          targetFinalizationDisposition := disposition
          updatedAt := now })
    (h : completeBatch batchId expectedState ownerToken report now db = .ok (done, db')) :
    RowsRelated R db db' := by
  obtain ⟨disposition, hdisposition, h⟩ := bind_eq_ok.mp h
  split at h
  · obtain ⟨-, rfl⟩ := Prod.mk.inj (pure_eq_ok.mp h)
    exact rowsRelated_same rfl hrefl
  · obtain ⟨db₁, hjobs, h⟩ := bind_eq_ok.mp h
    obtain ⟨db₂, hobserved, hdb⟩ := bind_eq_ok.mp h
    obtain ⟨-, rfl⟩ := Prod.mk.inj (pure_eq_ok.mp hdb)
    have hobservable := insertObservation_observable hobserved
    rw [observable_congr (updateJobs_observations hjobs)] at hobservable
    exact rowsRelated_update (congrArg Table.rows
      ((insertObservation_batches hobserved).trans (updateJobs_batches hjobs))) (fun _ => rfl) hrefl
      fun b hb howned => hstep b hb howned hobservable disposition hdisposition

omit [LinearOrder τ] in
theorem finishDoneItems_same {items : ItemResults} {resultRecord : Option String}
    {rows : List (Job τ)}
    (h : finishDoneItems items batchId expectedState resultRecord now rows db = .ok db') :
    db'.batches = db.batches ∧ db'.observations = db.observations := by
  induction rows generalizing db with
  | nil =>
    cases h
    exact ⟨rfl, rfl⟩
  | cons row rest ih =>
    obtain ⟨db₁, hfirst, hrest⟩ := bind_eq_ok.mp h
    obtain ⟨hbatches, hobservations⟩ := ih hrest
    exact ⟨hbatches.trans (updateJobs_batches hfirst),
      hobservations.trans (updateJobs_observations hfirst)⟩

omit [LinearOrder τ] in
theorem finishFailedItems_same {items : ItemResults} {rules : FailureRules} {rows : List (Job τ)}
    (h : finishFailedItems items batchId now rules rows db = .ok db') :
    db'.batches = db.batches ∧ db'.observations = db.observations := by
  induction rows generalizing db with
  | nil =>
    cases h
    exact ⟨rfl, rfl⟩
  | cons row rest ih =>
    obtain ⟨db₁, hfirst, hrest⟩ := bind_eq_ok.mp h
    obtain ⟨hbatches, hobservations⟩ := ih hrest
    exact ⟨hbatches.trans (updateJobs_batches hfirst),
      hobservations.trans (updateJobs_observations hfirst)⟩

theorem completeBatchItems_rows {items : ItemResults} {rules : FailureRules} {report : Report}
    (hrefl : ∀ b ∈ db.batches, R b b)
    (hstep : ∀ b ∈ db.batches, b.owned batchId expectedState ownerToken now = true →
      db.observable batchId report.observation = true →
      (∃ j ∈ db.jobs, j.inBatch batchId expectedState = true) →
      ∀ disposition,
        terminalDisposition db batchId report.finalizationDisposition .pending = .ok disposition →
        ∀ state error, R b { b with
          state
          error
          targetFinalizationDisposition := disposition
          updatedAt := now })
    (h : completeBatchItems batchId items expectedState ownerToken rules report now db =
      .ok (done, db')) : RowsRelated R db db' := by
  obtain ⟨disposition, hdisposition, h⟩ := bind_eq_ok.mp h
  split at h
  · obtain ⟨-, rfl⟩ := Prod.mk.inj (pure_eq_ok.mp h)
    exact rowsRelated_same rfl hrefl
  · dsimp only at h
    split at h
    · obtain ⟨-, rfl⟩ := Prod.mk.inj (pure_eq_ok.mp h)
      exact rowsRelated_same rfl hrefl
    · rename_i hrows
      obtain ⟨j, hj⟩ := List.exists_mem_of_ne_nil _ (List.isEmpty_iff.not.mp hrows)
      obtain ⟨db₁, hdoneItems, h⟩ := bind_eq_ok.mp h
      obtain ⟨db₂, hfailedItems, h⟩ := bind_eq_ok.mp h
      obtain ⟨db₃, hobserved, hdb⟩ := bind_eq_ok.mp h
      obtain ⟨-, rfl⟩ := Prod.mk.inj (pure_eq_ok.mp hdb)
      obtain ⟨hbatches₁, hobservations₁⟩ := finishDoneItems_same hdoneItems
      obtain ⟨hbatches₂, hobservations₂⟩ := finishFailedItems_same hfailedItems
      have hobservable := insertObservation_observable hobserved
      rw [observable_congr (hobservations₂.trans hobservations₁)] at hobservable
      exact rowsRelated_update (congrArg Table.rows
        ((insertObservation_batches hobserved).trans (hbatches₂.trans hbatches₁))) (fun _ => rfl) hrefl
        fun b hb howned => hstep b hb howned hobservable ⟨j, Table.mem_select.mp hj⟩ disposition
          hdisposition _ _

omit [LinearOrder τ] in
theorem finishBatchFailure_same {error : String} {rules : FailureRules}
    {resultRecord : Option String}
    (h : finishBatchFailure batchId error now rules resultRecord db = .ok db') :
    db'.batches = db.batches ∧ db'.observations = db.observations := by
  obtain ⟨db₁, hjobs, hdb⟩ := bind_eq_ok.mp h
  obtain rfl := pure_eq_ok.mp hdb
  have hbatches := updateJobs_batches hjobs
  have hobservations := updateJobs_observations hjobs
  exact ⟨hbatches, hobservations⟩

theorem failBatch_rows {error : String} {rules : FailureRules} {report : Report}
    (hrefl : ∀ b ∈ db.batches, R b b)
    (hstep : ∀ b ∈ db.batches, b.owned batchId expectedState ownerToken now = true →
      db.observable batchId report.observation = true →
      ∀ disposition,
        terminalDisposition db batchId report.finalizationDisposition .pending = .ok disposition →
        R b { b with
          state := .failed
          error := some error
          targetFinalizationDisposition := disposition
          updatedAt := now })
    (h : failBatch batchId error expectedState ownerToken rules report now db = .ok (done, db')) :
    RowsRelated R db db' := by
  obtain ⟨disposition, hdisposition, h⟩ := bind_eq_ok.mp h
  split at h
  · obtain ⟨-, rfl⟩ := Prod.mk.inj (pure_eq_ok.mp h)
    exact rowsRelated_same rfl hrefl
  · obtain ⟨db₁, hfailure, h⟩ := bind_eq_ok.mp h
    obtain ⟨db₂, hobserved, hdb⟩ := bind_eq_ok.mp h
    obtain ⟨-, rfl⟩ := Prod.mk.inj (pure_eq_ok.mp hdb)
    obtain ⟨hbatches, hobservations⟩ := finishBatchFailure_same hfailure
    have hobservable := insertObservation_observable hobserved
    rw [observable_congr hobservations] at hobservable
    exact rowsRelated_update (congrArg Table.rows
      ((insertObservation_batches hobserved).trans hbatches)) (fun _ => rfl) hrefl
      fun b hb howned => hstep b hb howned hobservable disposition hdisposition

theorem markCompletionUnknown_rows {error : String} {resultRecord : Option String}
    {observation : Option Bool} {disposition : Disposition} (hrefl : ∀ b ∈ db.batches, R b b)
    (hstep : ∀ b ∈ db.batches, b.owned batchId expectedState ownerToken now = true →
      (expectedState = .running ∨ expectedState = .fetching) → disposition.supported = true →
      db.observable batchId observation = true →
      R b { b with
        state := .failed
        error := some error
        targetFinalizationDisposition := some disposition
        updatedAt := now })
    (h : markCompletionUnknown batchId error expectedState ownerToken resultRecord observation
      disposition now db = .ok (done, db')) : RowsRelated R db db' := by
  unfold markCompletionUnknown at h
  split at h
  · cases h
    exact rowsRelated_same rfl hrefl
  · rename_i hstate
    split at h
    · cases h
      exact rowsRelated_same rfl hrefl
    · rename_i hsupported
      split at h
      · cases h
        exact rowsRelated_same rfl hrefl
      · obtain ⟨db₁, hjobs, h⟩ := bind_eq_ok.mp h
        obtain ⟨db₂, hobserved, hdb⟩ := bind_eq_ok.mp h
        obtain ⟨-, rfl⟩ := Prod.mk.inj (pure_eq_ok.mp hdb)
        have hobservable := insertObservation_observable hobserved
        rw [observable_congr (updateJobs_observations hjobs)] at hobservable
        exact rowsRelated_update (congrArg Table.rows
          ((insertObservation_batches hobserved).trans (updateJobs_batches hjobs))) (fun _ => rfl) hrefl
          fun b hb howned => hstep b hb howned (by tauto) (by simpa using hsupported) hobservable

/-- The rows that `revoke_prelaunch_batch` fails. -/
def Batch.revocable (batchId ownerToken : String) (now : τ) (b : Batch τ) : Bool :=
  b.batchId = batchId && b.state.prelaunch && b.ownerToken = some ownerToken && now < b.leaseUntil

theorem revocable_id {b : Batch τ} (h : b.revocable batchId ownerToken now = true) :
    b.batchId = batchId := by
  simp only [Batch.revocable, Bool.and_eq_true, decide_eq_true_eq] at h
  exact h.1.1.1

theorem revokePrelaunchBatch_rows {reason : String} {argument : Option Disposition}
    (hrefl : ∀ b ∈ db.batches, R b b)
    (hstep : ∀ b ∈ db.batches, b.revocable batchId ownerToken now = true →
      ∀ disposition, terminalDisposition db batchId argument .pending = .ok disposition →
        R b { b with
          state := .failed
          error := some reason
          targetFinalizationDisposition := disposition
          updatedAt := now })
    (h : revokePrelaunchBatch batchId ownerToken reason argument now db = .ok (done, db')) :
    RowsRelated R db db' := by
  obtain ⟨disposition, hdisposition, h⟩ := bind_eq_ok.mp h
  dsimp only at h
  split at h
  · obtain ⟨-, rfl⟩ := Prod.mk.inj (pure_eq_ok.mp h)
    exact rowsRelated_same rfl hrefl
  · obtain ⟨db₁, hjobs, hdb⟩ := bind_eq_ok.mp h
    obtain ⟨-, rfl⟩ := Prod.mk.inj (pure_eq_ok.mp hdb)
    exact rowsRelated_update (congrArg Table.rows (updateJobs_batches hjobs)) (fun _ => rfl)
        hrefl
      fun b hb hrevoked => hstep b hb hrevoked disposition hdisposition

omit [LinearOrder τ] in
theorem recordRevokedPrelaunchResult_batches {resultRecord : String}
    (h : recordRevokedPrelaunchResult batchId ownerToken resultRecord now db = .ok (done, db')) :
    db'.batches = db.batches := by
  unfold recordRevokedPrelaunchResult at h
  split at h
  · cases h
    rfl
  · obtain ⟨db₁, hjobs, hdb⟩ := bind_eq_ok.mp h
    obtain ⟨-, rfl⟩ := Prod.mk.inj (pure_eq_ok.mp hdb)
    exact updateJobs_batches hjobs

end Owner

/-! ## Cancellation -/

section Cancellation
variable {τ : Type} {db db' : Database τ} {now : τ} {batchId : String} {jobIds : List String}
  {done : Bool} {R : Batch τ → Batch τ → Prop}

theorem beginActiveCancellation_rows (hrefl : ∀ b ∈ db.batches, R b b)
    (hstep : ∀ b ∈ db.batches, b.batchId = batchId → b.targetProtocolVersion = some 1 →
      b.targetFinalizationDisposition ≠ some .finalized →
      R b { b with
        state := .cancelling
        error := some "cancellation requested by operator"
        targetFinalizationDisposition := some .fenced
        updatedAt := now })
    (h : beginActiveCancellation batchId jobIds now db = .ok (done, db')) :
    RowsRelated R db db' := by
  unfold beginActiveCancellation at h
  split at h
  · cases h
    exact rowsRelated_same rfl hrefl
  · split at h
    · cases h
      exact rowsRelated_same rfl hrefl
    · rename_i batch hbatch
      split at h
      · cases h
        exact rowsRelated_same rfl hrefl
      · rename_i hfinal
        obtain ⟨hmem, hid⟩ := batch_eq_some.mp hbatch
        split at h
        · cases h
          exact rowsRelated_same rfl hrefl
        · split at h
          · cases h
            exact rowsRelated_same rfl hrefl
          · split at h
            · cases h
              exact rowsRelated_same rfl hrefl
            · cases h
              refine rowsRelated_update rfl (fun _ => rfl) hrefl fun b hb hp => ?_
              simp only [Bool.and_eq_true, decide_eq_true_eq] at hp
              obtain rfl := db.batch_unique hb hmem (hp.1.1.trans hid.symm)
              exact hstep b hb hid hp.2 (by tauto)

theorem closeSelected_batches {state : State} {error : String}
    (h : closeSelected batchId jobIds state error now db = .ok db') : db'.batches = db.batches := by
  obtain ⟨db₁, hjobs, h⟩ := bind_eq_ok.mp h
  split at h
  · cases h
  · obtain rfl := pure_eq_ok.mp h
    have hbatches := updateJobs_batches hjobs
    exact hbatches

theorem markActiveCancellationUnknown_rows {reason : String} (hrefl : ∀ b ∈ db.batches, R b b)
    (hstep : ∀ b ∈ db.batches, b.batchId = batchId →
      R b { b with state := .failed, error := some reason, updatedAt := now })
    (h : markActiveCancellationUnknown batchId jobIds reason now db = .ok (done, db')) :
    RowsRelated R db db' := by
  unfold markActiveCancellationUnknown at h
  split at h
  · cases h
    exact rowsRelated_same rfl hrefl
  · split at h
    · cases h
      exact rowsRelated_same rfl hrefl
    · split at h
      · cases h
        exact rowsRelated_same rfl hrefl
      · split at h
        · cases h
          exact rowsRelated_same rfl hrefl
        · obtain ⟨db₁, hclosed, hdb⟩ := bind_eq_ok.mp h
          obtain ⟨-, rfl⟩ := Prod.mk.inj (pure_eq_ok.mp hdb)
          refine rowsRelated_update (congrArg Table.rows (closeSelected_batches hclosed)) (fun _ => rfl) hrefl fun b hb hp => ?_
          simp only [Bool.and_eq_true, decide_eq_true_eq] at hp
          exact hstep b hb hp.1

theorem cancelActiveBatch_rows {cleanupState : String} (hrefl : ∀ b ∈ db.batches, R b b)
    (hstep : ∀ b ∈ db.batches, b.batchId = batchId →
      b.targetFinalizationDisposition = some .fenced →
      R b { b with
        state := .failed
        error := some "cancelled by operator"
        targetCleanupState := some cleanupState
        targetCleanupAt := some now
        targetFinalizationDisposition := some .fenced
        updatedAt := now })
    (h : cancelActiveBatch batchId jobIds cleanupState now db = .ok (done, db')) :
    RowsRelated R db db' := by
  unfold cancelActiveBatch at h
  split at h
  · cases h
    exact rowsRelated_same rfl hrefl
  · split at h
    · cases h
      exact rowsRelated_same rfl hrefl
    · rename_i batch hbatch
      split at h
      · cases h
        exact rowsRelated_same rfl hrefl
      · rename_i hguard
        obtain ⟨hmem, hid⟩ := batch_eq_some.mp hbatch
        split at h
        · cases h
          exact rowsRelated_same rfl hrefl
        · obtain ⟨db₁, hclosed, hdb⟩ := bind_eq_ok.mp h
          obtain ⟨-, rfl⟩ := Prod.mk.inj (pure_eq_ok.mp hdb)
          refine rowsRelated_update (congrArg Table.rows (closeSelected_batches hclosed)) (fun _ => rfl) hrefl fun b hb hp => ?_
          simp only [Bool.and_eq_true, decide_eq_true_eq] at hp
          obtain rfl := db.batch_unique hb hmem (hp.1.trans hid.symm)
          exact hstep b hb hid (by tauto)

theorem recordFencedCancellation_rows {cleanupState : String} (hrefl : ∀ b ∈ db.batches, R b b)
    (hstep : ∀ b ∈ db.batches, b.batchId = batchId →
      R b { b with
        targetCleanupState := some cleanupState
        targetCleanupAt := some now
        updatedAt := now })
    (h : recordFencedCancellation batchId cleanupState now db = .ok (done, db')) :
    RowsRelated R db db' := by
  unfold recordFencedCancellation at h
  dsimp only at h
  split at h
  · cases h
    exact rowsRelated_same rfl hrefl
  · cases h
    refine rowsRelated_update rfl (fun _ => rfl) hrefl fun b hb hp => ?_
    simp only [Bool.and_eq_true, decide_eq_true_eq] at hp
    exact hstep b hb hp.1.1.1.1

end Cancellation

/-! ## Stale recovery and removal -/

section Recovery
variable {τ : Type} [LinearOrder τ] {db db' : Database τ} {now : τ} {batchId : String}
  {done : Bool} {R : Batch τ → Batch τ → Prop}

/-- The rows that `_expire_batch` may fail. -/
def Batch.Expirable (batchId : String) (replaySafe : Option Bool) (now : τ) (b : Batch τ) : Prop :=
  b.batchId = batchId ∧ b.leaseUntil < now ∧ b.state.active = true ∧
    ¬ (replaySafe = some true ∧ b.targetProtocolVersion = some 1 ∧ b.targetOperationId ≠ none ∧
      b.targetFinalizedAt = none)

/-- The disposition that `_expire_batch` writes to a protocol-v1 row. -/
def expiredDisposition : Option Bool → Disposition
  | some true => .finalized
  | some false => .fenced
  | none => .pending

omit [LinearOrder τ] in
theorem markUnknown_batches {p : Job τ → Bool} (h : markUnknown p batchId now db = .ok db') :
    db'.batches = db.batches := by
  obtain ⟨db₁, hjobs, hdb⟩ := bind_eq_ok.mp h
  obtain rfl := pure_eq_ok.mp hdb
  have hbatches := updateJobs_batches hjobs
  exact hbatches

omit [LinearOrder τ] in
theorem expireJobs_batches {state : State} {replaySafe : Option Bool} {maxAttempts : Int}
    (h : expireJobs batchId state replaySafe maxAttempts now db = .ok db') :
    db'.batches = db.batches := by
  unfold expireJobs at h
  split at h
  · exact (finishBatchFailure_same h).1
  · exact markUnknown_batches h
  · split at h
    · exact (finishBatchFailure_same h).1
    · split at h
      · exact (finishBatchFailure_same h).1
      · exact markUnknown_batches h

/-- An expired batch: the row, and what follows for its jobs. -/
theorem expireBatch_ok {maxAttempts : Int} {replaySafe : Option Bool}
    (h : expireBatch batchId maxAttempts replaySafe now db = .ok (done, db')) :
    db' = db ∨ ∃ b ∈ db.batches, b.Expirable batchId replaySafe now ∧
      ∃ db₁ : Database τ, db₁.jobs = db.jobs ∧
        expireJobs batchId b.state replaySafe maxAttempts now db₁ = .ok db' ∧
        db₁.batches.rows = db.batches.rows.map (Table.setWhere
          (fun c => c.batchId = batchId && c.state = b.state && c.leaseUntil < now)
          fun c => { c with
            state := .failed
            error := some "lease expired (stale recovery)"
            targetFinalizationDisposition := if b.targetProtocolVersion = some 1 then
              some (expiredDisposition replaySafe) else c.targetFinalizationDisposition
            updatedAt := now }) := by
  unfold expireBatch at h
  split at h
  · cases h
    exact Or.inl rfl
  · rename_i row hrow
    have hmem := Table.lookup_mem hrow
    have hsat := Table.lookup_sat hrow
    simp only [Bool.and_eq_true, decide_eq_true_eq] at hsat
    split at h
    · cases h
      exact Or.inl rfl
    · rename_i hactive
      split at h
      · cases h
        exact Or.inl rfl
      · rename_i hreplay
        obtain ⟨db₁, hjobs, hdb⟩ := bind_eq_ok.mp h
        obtain ⟨-, rfl⟩ := Prod.mk.inj (pure_eq_ok.mp hdb)
        refine Or.inr ⟨row, hmem, ?_, _, ?_, hjobs, ?_⟩
        · exact ⟨hsat.1, hsat.2, by simpa using hactive, hreplay⟩
        · rfl
        · refine List.map_congr_left fun c _ => ?_
          unfold Table.setWhere
          split
          · by_cases hprotocol : row.targetProtocolVersion = some 1
            · cases replaySafe with
              | none => simp [hprotocol, expiredDisposition]
              | some safe => cases safe <;> simp [hprotocol, expiredDisposition]
            · simp [hprotocol]
          · rfl

theorem expireBatch_rows {maxAttempts : Int} {replaySafe : Option Bool}
    (hrefl : ∀ b ∈ db.batches, R b b)
    (hstep : ∀ b ∈ db.batches, b.Expirable batchId replaySafe now →
      R b { b with
        state := .failed
        error := some "lease expired (stale recovery)"
        targetFinalizationDisposition := if b.targetProtocolVersion = some 1 then
          some (expiredDisposition replaySafe) else b.targetFinalizationDisposition
        updatedAt := now })
    (h : expireBatch batchId maxAttempts replaySafe now db = .ok (done, db')) :
    RowsRelated R db db' := by
  rcases expireBatch_ok h with rfl | ⟨b, hb, hexpirable, db₁, -, hjobs, hrows⟩
  · exact rowsRelated_same rfl hrefl
  · rw [← expireJobs_batches hjobs] at hrows
    refine rowsRelated_update hrows (fun _ => rfl) hrefl fun c hc hp => ?_
    simp only [Bool.and_eq_true, decide_eq_true_eq] at hp
    obtain rfl := db.batch_unique hc hb (hp.1.1.trans hexpirable.1.symm)
    exact hstep c hc hexpirable

omit [LinearOrder τ] in
theorem clear_rows {includeFinal : Bool} (hrefl : ∀ b ∈ db.batches, R b b) :
    RowsRelated R db (clear includeFinal db).2 :=
  rowsRelated_subset (fun _ hb => (Table.mem_delete.mp hb).1) hrefl

omit [LinearOrder τ] in
theorem pruneVictims_rows {victims : List String} (hrefl : ∀ b ∈ db.batches, R b b) :
    RowsRelated R db (pruneVictims victims db) :=
  rowsRelated_subset (fun _ hb => (Table.mem_delete.mp hb).1) hrefl

end Recovery

/-! ## Target operations -/

section Targets
variable {τ : Type} [LinearOrder τ] {db : Database τ} {now : τ} {batchId ownerToken : String}
  {operation : Operation} {cleanupState : String} {expectedState : State}
  {R : Batch τ → Batch τ → Prop}

theorem ownedBatch_eq_some {b : Batch τ}
    (h : db.ownedBatch batchId expectedState ownerToken now = some b) :
    b ∈ db.batches ∧ b.owned batchId expectedState ownerToken now = true :=
  ⟨Table.lookup_mem h, Table.lookup_sat h⟩

theorem recordTargetReservation_rows {resumeToken : String} (hrefl : ∀ b ∈ db.batches, R b b)
    (hstep : ∀ b ∈ db.batches, b.unreserved = true →
      R b { b with
        targetOperationId := some operation.operationId
        targetRequestSha256 := some operation.requestSha256
        targetResumeToken := some resumeToken
        targetReservedAt := some now
        updatedAt := now }) :
    RowsRelated R db (recordTargetReservation batchId operation resumeToken expectedState ownerToken
      now db).2 := by
  unfold recordTargetReservation
  split
  · exact rowsRelated_same rfl hrefl
  · split
    · exact rowsRelated_same rfl hrefl
    · split
      · exact rowsRelated_same rfl hrefl
      · split
        · exact rowsRelated_same rfl hrefl
        · refine rowsRelated_update rfl (fun _ => rfl) hrefl fun b hb hp => ?_
          exact hstep b hb (Bool.and_eq_true _ _ ▸ hp).2

theorem recordTargetAcceptance_rows (hrefl : ∀ b ∈ db.batches, R b b)
    (hstep : ∀ b ∈ db.batches, b.targetAcceptedAt = none →
      R b { b with targetAcceptedAt := some now, updatedAt := now }) :
    RowsRelated R db
      (recordTargetAcceptance batchId operation expectedState ownerToken now db).2 := by
  unfold recordTargetAcceptance
  split
  · exact rowsRelated_same rfl hrefl
  · split
    · exact rowsRelated_same rfl hrefl
    · split
      · exact rowsRelated_same rfl hrefl
      · refine rowsRelated_update rfl (fun _ => rfl) hrefl fun b hb hp => ?_
        simp only [Bool.and_eq_true, Option.isNone_iff_eq_none] at hp
        exact hstep b hb hp.2

theorem authorizeTargetCleanup_rows (hrefl : ∀ b ∈ db.batches, R b b)
    (hstep : ∀ b ∈ db.batches, b.targetFinalizationDisposition = none →
      R b { b with
        targetCleanupState := some cleanupState
        targetCleanupAt := some now
        targetFinalizationDisposition := some .pending
        updatedAt := now }) :
    RowsRelated R db
      (authorizeTargetCleanup batchId operation cleanupState expectedState ownerToken now db).2 := by
  unfold authorizeTargetCleanup
  split
  · exact rowsRelated_same rfl hrefl
  · split
    · exact rowsRelated_same rfl hrefl
    · split
      · exact rowsRelated_same rfl hrefl
      · split
        · exact rowsRelated_same rfl hrefl
        · split
          · exact rowsRelated_same rfl hrefl
          · refine rowsRelated_update rfl (fun _ => rfl) hrefl fun b hb hp => ?_
            simp only [Bool.and_eq_true, Option.isNone_iff_eq_none] at hp
            exact hstep b hb hp.2

/-- The rows that `record_target_finalization` finalizes. -/
def Batch.Finishable (batchId : String) (operation : Operation) (cleanupState : String)
    (expectedState : State) (ownerToken : String) (now : τ) (b : Batch τ) : Prop :=
  b.owned batchId expectedState ownerToken now = true ∧ b.hasOperation operation = true ∧
    b.targetFinalizedAt = none ∧
    (b.targetCleanupState = none ∨ b.targetCleanupState = some cleanupState)

theorem recordTargetFinalization_rows {stageCleaned durableCleaned : Bool}
    (hrefl : ∀ b ∈ db.batches, R b b)
    (hstep : ∀ b ∈ db.batches,
      b.Finishable batchId operation cleanupState expectedState ownerToken now →
      (terminalCleanup cleanupState && stageCleaned && durableCleaned) = true →
      R b { b with
        targetCleanupState := some cleanupState
        targetCleanupAt := b.targetCleanupAt.or (some now)
        targetStageCleanedAt := some now
        targetDurableCleanedAt := some now
        targetFinalizedAt := some now
        targetFinalizationDisposition := some .finalized
        updatedAt := now }) :
    RowsRelated R db (recordTargetFinalization batchId operation cleanupState stageCleaned
      durableCleaned expectedState ownerToken now db).2 := by
  unfold recordTargetFinalization
  split
  · exact rowsRelated_same rfl hrefl
  · rename_i hproof
    split
    · exact rowsRelated_same rfl hrefl
    · rename_i row hrow
      obtain ⟨hmem, howned⟩ := ownedBatch_eq_some hrow
      split
      · exact rowsRelated_same rfl hrefl
      · split
        · exact rowsRelated_same rfl hrefl
        · rename_i hstate
          split
          · exact rowsRelated_same rfl hrefl
          · refine rowsRelated_update rfl (fun _ => rfl) hrefl fun b hb hp => ?_
            simp only [Bool.and_eq_true, Option.isNone_iff_eq_none] at hp
            obtain rfl := db.batch_unique hb hmem
              ((owned_iff.mp hp.1.1).1.trans (owned_iff.mp howned).1.symm)
            refine hstep b hb ⟨hp.1.1, hp.1.2, hp.2, ?_⟩ (by simpa [and_assoc] using hproof)
            cases hcleanup : b.targetCleanupState with
            | none => exact Or.inl rfl
            | some stored => simpa [hcleanup] using hstate

/-- The arguments that `record_target_cleanup_progress` accepts. -/
def Progress.Valid (progress : Progress) : Prop :=
  (∀ state, progress.cleanupState = some state → terminalCleanup state = true) ∧
    (progress.stageCleaned = true ∨ progress.durableCleaned = true ∨ progress.cleanupState ≠ none)

/-- The rows on which `record_target_cleanup_progress` records a proof. -/
def Batch.Progresses (batchId : String) (operation : Operation) (progress : Progress)
    (b : Batch τ) : Prop :=
  b.batchId = batchId ∧ b.targetProtocolVersion = some 1 ∧ b.hasOperation operation = true ∧
    (b.targetCleanupState = none ∨ progress.cleanupState = none ∨
      b.targetCleanupState = progress.cleanupState) ∧
    (b.targetFinalizationDisposition = some .fenced →
      progress.ownerRelease = true ∧ b.targetReleaseAuthorizedAt ≠ none)

omit [LinearOrder τ] in
theorem recordTargetCleanupProgress_rows {progress : Progress} (hrefl : ∀ b ∈ db.batches, R b b)
    (hstep : ∀ b ∈ db.batches, progress.Valid → b.Progresses batchId operation progress →
      R b { b with
        targetCleanupState := progress.cleanupState.or b.targetCleanupState
        targetCleanupAt := if progress.cleanupState.isSome then b.targetCleanupAt.or (some now)
          else b.targetCleanupAt
        targetStageCleanedAt := if progress.stageCleaned then
          b.targetStageCleanedAt.or (some now) else b.targetStageCleanedAt
        targetDurableCleanedAt := if progress.durableCleaned then
          b.targetDurableCleanedAt.or (some now) else b.targetDurableCleanedAt
        targetFinalizationDisposition := if progress.replayable then some .replayable
          else b.targetFinalizationDisposition.or (some .pending)
        updatedAt := now }) :
    RowsRelated R db (recordTargetCleanupProgress batchId operation progress now db).2 := by
  unfold recordTargetCleanupProgress
  split
  · exact rowsRelated_same rfl hrefl
  · rename_i hterminal
    split
    · exact rowsRelated_same rfl hrefl
    · rename_i hproof
      have hvalid : progress.Valid := by
        refine ⟨fun state hstate => by simpa [hstate] using hterminal, ?_⟩
        cases hstage : progress.stageCleaned with
        | true => exact Or.inl rfl
        | false => cases hdurable : progress.durableCleaned with
          | true => exact Or.inr (Or.inl rfl)
          | false => exact Or.inr (Or.inr (by simpa [hstage, hdurable] using hproof))
      split
      · exact rowsRelated_same rfl hrefl
      · rename_i row hrow
        obtain ⟨hmem, hid⟩ := batch_eq_some.mp hrow
        split
        · exact rowsRelated_same rfl hrefl
        · rename_i hidentity
          split
          · exact rowsRelated_same rfl hrefl
          · rename_i hstate
            split
            · exact rowsRelated_same rfl hrefl
            · split
              · exact rowsRelated_same rfl hrefl
              · rename_i hfenced
                refine rowsRelated_update rfl (fun _ => rfl) hrefl fun b hb hp => ?_
                simp only [Bool.and_eq_true, decide_eq_true_eq] at hp
                obtain rfl := db.batch_unique hb hmem (hp.1.1.trans hid.symm)
                refine hstep b hb hvalid ⟨hid, hp.1.2, hp.2, ?_, fun hdisposition => ?_⟩
                · cases hcleanup : b.targetCleanupState with
                  | none => exact Or.inl rfl
                  | some stored => cases hproof : progress.cleanupState with
                    | none => exact Or.inr (Or.inl rfl)
                    | some state => simpa [hcleanup, hproof] using hstate
                · simpa [hdisposition, Option.isSome_iff_ne_none] using hfenced

theorem recordExpiredTargetFinalization_rows {ownerRelease : Bool}
    (hrefl : ∀ b ∈ db.batches, R b b)
    (hstep : ∀ b ∈ db.batches,
      b.finalizable batchId operation cleanupState ownerRelease now = true →
      terminalCleanup cleanupState = true →
      R b { b with
        targetCleanupState := some cleanupState
        targetCleanupAt := b.targetCleanupAt.or (some now)
        targetStageCleanedAt := b.targetStageCleanedAt.or (some now)
        targetDurableCleanedAt := b.targetDurableCleanedAt.or (some now)
        targetFinalizedAt := b.targetFinalizedAt.or (some now)
        targetFinalizationDisposition := some .finalized
        updatedAt := now }) :
    RowsRelated R db
      (recordExpiredTargetFinalization batchId operation cleanupState ownerRelease now db).2 := by
  unfold recordExpiredTargetFinalization
  dsimp only
  split
  · exact rowsRelated_same rfl hrefl
  · rename_i hterminal
    exact rowsRelated_update rfl (fun _ => rfl) hrefl fun b hb hp =>
      hstep b hb hp (by simpa using hterminal)

omit [LinearOrder τ] in
theorem authorizeTargetRelease_rows {acknowledgeEffects : Bool} (hrefl : ∀ b ∈ db.batches, R b b)
    (hstep : ∀ b ∈ db.batches, b.targetFinalizationDisposition = some .fenced →
      R b { b with
        targetReleaseAuthorizedAt := b.targetReleaseAuthorizedAt.or (some now)
        targetReleaseEffectsAcknowledgedAt := if acknowledgeEffects then
          b.targetReleaseEffectsAcknowledgedAt.or (some now)
          else b.targetReleaseEffectsAcknowledgedAt
        updatedAt := now }) :
    RowsRelated R db (authorizeTargetRelease operation acknowledgeEffects now db).2 := by
  unfold authorizeTargetRelease
  split
  · exact rowsRelated_same rfl hrefl
  · split
    · dsimp only
      split
      · exact rowsRelated_same rfl hrefl
      · split
        · exact rowsRelated_same rfl hrefl
        · refine rowsRelated_update rfl (fun _ => rfl) hrefl fun b hb hp => ?_
          simp only [Bool.and_eq_true, decide_eq_true_eq] at hp
          exact hstep b hb hp.2
    · exact rowsRelated_same rfl hrefl

end Targets

end Remrun.Fleet
