import Remrun.Lib.Register
import Remrun.Lib.Transition
import Remrun.Fleet.Moves

/-!
# Finalization fences

What a batch has recorded about its target operation stays, its fence is left only after the owner
released it, and a finalized row stays finalized. The first holds of every call; the fences hold of
the calls that `Call.KeepsFences` describes.
-/

namespace Remrun.Fleet

open Keyed Relational Effect Register
set_option autoImplicit false

section Rows
variable {τ : Type}

/-! ## Rows -/

/-- The record of the target operation in `b'` continues the one in `b`. -/
structure Batch.Continues (b b' : Batch τ) : Prop where
  protocol : b'.targetProtocolVersion = b.targetProtocolVersion
  operationId : Stays b.targetOperationId b'.targetOperationId
  requestSha256 : Stays b.targetRequestSha256 b'.targetRequestSha256
  resumeToken : Stays b.targetResumeToken b'.targetResumeToken
  reservedAt : Stays b.targetReservedAt b'.targetReservedAt
  acceptedAt : Stays b.targetAcceptedAt b'.targetAcceptedAt
  cleanupAt : Remains b.targetCleanupAt b'.targetCleanupAt
  stageCleanedAt : Remains b.targetStageCleanedAt b'.targetStageCleanedAt
  durableCleanedAt : Remains b.targetDurableCleanedAt b'.targetDurableCleanedAt
  finalizedAt : Remains b.targetFinalizedAt b'.targetFinalizedAt
  releaseAuthorizedAt : Remains b.targetReleaseAuthorizedAt b'.targetReleaseAuthorizedAt
  releaseEffectsAcknowledgedAt :
    Remains b.targetReleaseEffectsAcknowledgedAt b'.targetReleaseEffectsAcknowledgedAt

@[refl] theorem Batch.Continues.refl (b : Batch τ) : b.Continues b := by
  constructor <;> rfl

theorem Batch.Continues.trans {b b' b'' : Batch τ} (h : b.Continues b') (h' : b'.Continues b'') :
    b.Continues b'' where
  protocol := h'.protocol.trans h.protocol
  operationId := h.operationId.trans h'.operationId
  requestSha256 := h.requestSha256.trans h'.requestSha256
  resumeToken := h.resumeToken.trans h'.resumeToken
  reservedAt := h.reservedAt.trans h'.reservedAt
  acceptedAt := h.acceptedAt.trans h'.acceptedAt
  cleanupAt := h.cleanupAt.trans h'.cleanupAt
  stageCleanedAt := h.stageCleanedAt.trans h'.stageCleanedAt
  durableCleanedAt := h.durableCleanedAt.trans h'.durableCleanedAt
  finalizedAt := h.finalizedAt.trans h'.finalizedAt
  releaseAuthorizedAt := h.releaseAuthorizedAt.trans h'.releaseAuthorizedAt
  releaseEffectsAcknowledgedAt :=
    h.releaseEffectsAcknowledgedAt.trans h'.releaseEffectsAcknowledgedAt

/-- The fence of `b` holds in `b'`, unless the release of `b` was authorized; a finalized row stays
finalized. -/
structure Batch.KeepsFence (b b' : Batch τ) : Prop where
  fenced : b.targetFinalizationDisposition = some .fenced →
    b'.targetFinalizationDisposition = some .fenced ∨ b.targetReleaseAuthorizedAt ≠ none
  finalized :
    Absorbs .finalized b.targetFinalizationDisposition b'.targetFinalizationDisposition

theorem Batch.KeepsFence.of_same {b b' : Batch τ}
    (h : b'.targetFinalizationDisposition = b.targetFinalizationDisposition) : b.KeepsFence b' :=
  ⟨fun hb => Or.inl (h.trans hb), fun hb => h.trans hb⟩

theorem Batch.KeepsFence.of_none {b b' : Batch τ}
    (h : b.targetFinalizationDisposition = none) : b.KeepsFence b' := by
  constructor
  · intro hb
    rw [h] at hb
    cases hb
  · intro hb
    rw [h] at hb
    cases hb

/-- A row that is not fenced may be finalized. -/
theorem Batch.KeepsFence.of_finalized {b b' : Batch τ}
    (hfence : b.targetFinalizationDisposition = some .fenced → b.targetReleaseAuthorizedAt ≠ none)
    (hb' : b'.targetFinalizationDisposition = some .finalized) : b.KeepsFence b' :=
  ⟨fun hb => Or.inr (hfence hb), fun _ => hb'⟩

/-- One transaction: what is recorded stays, and on a protocol-v1 row the fence does. -/
structure Batch.Advances (b b' : Batch τ) : Prop extends b.Continues b' where
  fence : b.targetProtocolVersion = some 1 → b.KeepsFence b'

theorem Batch.Advances.refl (b : Batch τ) : b.Advances b :=
  ⟨Batch.Continues.refl b, fun _ => .of_same rfl⟩

/-- Any number of transactions: the fence is left only after a release was recorded. -/
structure Batch.Outlives (b b' : Batch τ) : Prop extends b.Continues b' where
  fenced : b.targetProtocolVersion = some 1 → b.targetFinalizationDisposition = some .fenced →
    b'.targetFinalizationDisposition = some .fenced ∨ b'.targetReleaseAuthorizedAt ≠ none
  finalized : b.targetProtocolVersion = some 1 →
    Absorbs .finalized b.targetFinalizationDisposition b'.targetFinalizationDisposition

theorem Batch.Outlives.refl (b : Batch τ) : b.Outlives b :=
  ⟨Batch.Continues.refl b, fun _ => Or.inl, fun _ => id⟩

theorem Batch.Continues.released {b b' : Batch τ} (h : b.Continues b')
    (hb : b.targetReleaseAuthorizedAt ≠ none) : b'.targetReleaseAuthorizedAt ≠ none := by
  rw [← Option.isSome_iff_ne_none] at hb ⊢
  exact h.releaseAuthorizedAt hb

theorem Batch.Advances.outlives {b b' : Batch τ} (h : b.Advances b') : b.Outlives b' := by
  refine ⟨h.toContinues, fun hprotocol hfenced => ?_, fun hprotocol => (h.fence hprotocol).finalized⟩
  rcases (h.fence hprotocol).fenced hfenced with hkept | hreleased
  · exact Or.inl hkept
  · exact Or.inr (h.released hreleased)

theorem Batch.Outlives.trans {b b' b'' : Batch τ} (h : b.Outlives b') (h' : b'.Outlives b'') :
    b.Outlives b'' := by
  refine ⟨h.toContinues.trans h'.toContinues, fun hprotocol hfenced => ?_, fun hprotocol => ?_⟩
  · rcases h.fenced hprotocol hfenced with hkept | hreleased
    · exact h'.fenced (h.protocol.trans hprotocol) hkept
    · exact Or.inr (h'.released hreleased)
  · exact (h.finalized hprotocol).trans (h'.finalized (h.protocol.trans hprotocol))

end Rows

/-! ## Calls -/

section Calls
variable {τ : Type} [LinearOrder τ] {db db' : Database τ} {now : τ}

/-- A fenced protocol-v1 row whose release no owner has authorized. -/
structure Batch.Fenced (b : Batch τ) : Prop where
  protocol : b.targetProtocolVersion = some 1
  disposition : b.targetFinalizationDisposition = some .fenced
  unreleased : b.targetReleaseAuthorizedAt = none

omit [LinearOrder τ] in
theorem released_of_not_fenced {b : Batch τ} (hprotocol : b.targetProtocolVersion = some 1)
    (h : ¬ b.Fenced) (hfenced : b.targetFinalizationDisposition = some .fenced) :
    b.targetReleaseAuthorizedAt ≠ none :=
  fun hnone => h ⟨hprotocol, hfenced, hnone⟩

/-- With this argument `_terminal_disposition` leaves a fenced row fenced, or raises. -/
def Batch.Withstands (argument : Option Disposition) (b : Batch τ) : Prop :=
  b.Fenced → argument = some .fenced ∨ (∃ name, argument = some (.unsupported name)) ∨
    (argument = none ∧ b.targetOperationId ≠ none)

/-- A job of the batch that a retry puts back to `queued`. -/
def Database.Retriable (db : Database τ) (batchId : String) (maxAttempts : Int) : Prop :=
  ∃ j ∈ db.jobs, j.batchId = some batchId ∧ j.state.final = false ∧ j.state ≠ .queued ∧
    (j.attempts : Int) < maxAttempts

/-- The call takes none of the branches that write over a fence or replay behind one. -/
def Call.KeepsFences (now : τ) (db : Database τ) : Call τ → Prop
  | .completeBatch batchId expectedState ownerToken report =>
    db.observable batchId report.observation = true →
    ∀ b ∈ db.batches, b.owned batchId expectedState ownerToken now = true →
      b.Withstands report.finalizationDisposition
  | .completeBatchItems batchId _ expectedState ownerToken _ report =>
    db.observable batchId report.observation = true →
    (∃ j ∈ db.jobs, j.inBatch batchId expectedState = true) →
    ∀ b ∈ db.batches, b.owned batchId expectedState ownerToken now = true →
      b.Withstands report.finalizationDisposition
  | .failBatch batchId _ expectedState ownerToken _ report =>
    db.observable batchId report.observation = true →
    ∀ b ∈ db.batches, b.owned batchId expectedState ownerToken now = true →
      b.Withstands report.finalizationDisposition
  | .revokePrelaunchBatch batchId ownerToken _ argument =>
    ∀ b ∈ db.batches, b.revocable batchId ownerToken now = true → b.Withstands argument
  | .markCompletionUnknown batchId _ expectedState ownerToken _ observation disposition =>
    db.observable batchId observation = true → disposition.supported = true →
    (expectedState = .running ∨ expectedState = .fetching) →
    ∀ b ∈ db.batches, b.owned batchId expectedState ownerToken now = true →
      (b.Fenced → disposition = .fenced) ∧
      (b.targetProtocolVersion = some 1 → b.targetFinalizationDisposition = some .finalized →
        disposition = .finalized)
  | .recordTargetFinalization batchId operation cleanupState stageCleaned durableCleaned
      expectedState ownerToken =>
    (terminalCleanup cleanupState && stageCleaned && durableCleaned) = true →
    ∀ b ∈ db.batches, b.Finishable batchId operation cleanupState expectedState ownerToken now →
      ¬ b.Fenced
  | .recordTargetCleanupProgress batchId operation progress =>
    progress.Valid → progress.replayable = true →
    ∀ b ∈ db.batches, b.Progresses batchId operation progress →
      b.targetFinalizationDisposition ≠ some .finalized
  | .recordExpiredTargetFinalization batchId operation cleanupState ownerRelease =>
    terminalCleanup cleanupState = true →
    ∀ b ∈ db.batches, b.finalizable batchId operation cleanupState ownerRelease now = true →
      ¬ b.Fenced
  | .expireStaleBatch batchId true maxAttempts =>
    ∀ b ∈ db.batches, b.Expirable batchId (some true) now → b.targetProtocolVersion = some 1 →
      ¬ b.Fenced ∧
      (b.state = .cancelling ∨ b.targetFinalizationDisposition = some .fenced →
        ¬ db.Retriable batchId maxAttempts)
  | .expireStaleBatch batchId false _ =>
    ∀ b ∈ db.batches, b.Expirable batchId (some false) now → b.targetProtocolVersion = some 1 →
      b.targetFinalizationDisposition ≠ some .finalized
  | _ => True

/-! ## One call -/

/-- A row that a call writes: what is recorded stays, only a release authorizes a release, and if
`ok` the fence stays. -/
structure Batch.Moves (releases ok : Prop) (b b' : Batch τ) : Prop extends b.Continues b' where
  unreleased : ¬ releases → b'.targetReleaseAuthorizedAt = b.targetReleaseAuthorizedAt
  fence : ok → b.targetProtocolVersion = some 1 → b.KeepsFence b'

omit [LinearOrder τ] in
theorem Batch.Moves.refl (releases ok : Prop) (b : Batch τ) : b.Moves releases ok b :=
  ⟨Batch.Continues.refl b, fun _ => rfl, fun _ _ => .of_same rfl⟩

omit [LinearOrder τ] in
/-- What `_terminal_disposition` computes for a protocol-v1 row. -/
theorem terminalDisposition_row {argument disposition : Option Disposition} {b : Batch τ}
    (hb : b ∈ db.batches) (hprotocol : b.targetProtocolVersion = some 1)
    (h : terminalDisposition db b.batchId argument .pending = .ok disposition) :
    (((supplied argument).or b.targetFinalizationDisposition).getD .pending).supported = true ∧
      disposition = if b.targetFinalizationDisposition = some .finalized then some .finalized
        else if argument = none ∧ b.targetOperationId = none then some .finalized
        else some (((supplied argument).or b.targetFinalizationDisposition).getD .pending) := by
  unfold terminalDisposition at h
  rw [batch_eq_some.mpr ⟨hb, rfl⟩] at h
  simp only [hprotocol, ne_eq, not_true_eq_false, if_false] at h
  split at h
  · cases h
  · rename_i hsupported
    refine ⟨by simpa using hsupported, ?_⟩
    split at h
    · rename_i hfinalized
      cases h
      rw [if_pos hfinalized]
    · rename_i hfinalized
      rw [if_neg hfinalized]
      split at h
      · rename_i hnone
        cases h
        rw [if_pos hnone]
      · rename_i hnone
        cases h
        rw [if_neg hnone]

omit [LinearOrder τ] in
theorem terminalDisposition_keepsFence {argument disposition : Option Disposition}
    {b b' : Batch τ} (hb : b ∈ db.batches) (hprotocol : b.targetProtocolVersion = some 1)
    (hargument : b.Withstands argument)
    (h : terminalDisposition db b.batchId argument .pending = .ok disposition)
    (hb' : b'.targetFinalizationDisposition = disposition) : b.KeepsFence b' := by
  obtain ⟨hsupported, hdisposition⟩ := terminalDisposition_row hb hprotocol h
  constructor
  · intro hfenced
    by_cases hreleased : b.targetReleaseAuthorizedAt = none
    · left
      rw [hb', hdisposition, if_neg (by rw [hfenced]; decide)]
      rcases hargument ⟨hprotocol, hfenced, hreleased⟩ with rfl | ⟨name, rfl⟩ | ⟨rfl, hoperation⟩
      · rfl
      · by_cases hname : name = ""
        · subst hname
          rw [hfenced]
          rfl
        · simp [supplied, hname, Disposition.supported] at hsupported
      · rw [if_neg (fun hnone => hoperation hnone.2), hfenced]
        rfl
    · exact Or.inr hreleased
  · intro hfinalized
    rw [hb', hdisposition, if_pos hfinalized]

omit [LinearOrder τ] in
theorem authorizeTargetRelease_moves (ok : Prop) (operation : Operation)
    (acknowledgeEffects : Bool) :
    RowsRelated (Batch.Moves True ok) db
      (authorizeTargetRelease operation acknowledgeEffects now db).2 :=
  authorizeTargetRelease_rows (fun b _ => .refl _ _ b) fun b _ _ =>
    ⟨{ Batch.Continues.refl b with
        releaseAuthorizedAt := Remains.or _ _
        releaseEffectsAcknowledgedAt := Remains.ite (Remains.or _ _) (Remains.refl _) },
      fun hno => absurd trivial hno, fun _ _ => .of_same rfl⟩

variable {call : Call τ}

/-- The calls by which an owner releases a fenced operation. -/
def Call.Releases : Call τ → Prop
  | .authorizeTargetReleaseNoStart _ => True
  | .acknowledgeTargetReleaseEffects _ => True
  | _ => False

/-- A transaction takes every row that it does not create to one that continues its record. -/
theorem Call.exec_rows (hclaim : ∀ c, call ≠ .claimMany c) :
    RowsRelated (Batch.Moves call.Releases (call.KeepsFences now db)) db (call.exec now db).1 := by
  have hrefl : ∀ b ∈ db.batches, b.Moves call.Releases (call.KeepsFences now db) b :=
    fun b _ => .refl _ _ b
  cases call with
  | enqueue specId spec records =>
    exact after_rows hrefl fun _ _ h => rowsRelated_same (enqueue_batches h) hrefl
  | finalizeQueued jobId error =>
    exact after_rows hrefl fun _ _ h => rowsRelated_same (finishQueued_batches h) hrefl
  | reviewQueued jobId error =>
    exact after_rows hrefl fun _ _ h => rowsRelated_same (finishQueued_batches h) hrefl
  | cancelQueued jobId =>
    exact after_rows hrefl fun _ _ h => rowsRelated_same (finishQueued_batches h) hrefl
  | claimMany claim => exact absurd rfl (hclaim claim)
  | setBatchState batchId state expectedState ownerToken =>
    exact after_rows hrefl fun _ _ => setBatchState_rows hrefl fun b _ _ =>
      ⟨by constructor <;> rfl, fun _ => rfl, fun _ _ => .of_same rfl⟩
  | heartbeat batchId leaseUntil expectedState ownerToken =>
    exact after_rows hrefl fun _ _ => heartbeat_rows hrefl fun b _ _ =>
      ⟨by constructor <;> rfl, fun _ => rfl, fun _ _ => .of_same rfl⟩
  | completeBatch batchId expectedState ownerToken report =>
    refine after_rows hrefl fun _ _ => completeBatch_rows hrefl fun b hb howned hobserved
      disposition hdisposition => ⟨by constructor <;> rfl, fun _ => rfl, fun hok hprotocol => ?_⟩
    obtain rfl := (owned_iff.mp howned).1
    exact terminalDisposition_keepsFence hb hprotocol (hok hobserved b hb howned) hdisposition rfl
  | completeBatchItems batchId items expectedState ownerToken rules report =>
    refine after_rows hrefl fun _ _ => completeBatchItems_rows hrefl fun b hb howned hobserved hjob
      disposition hdisposition _ _ => ⟨by constructor <;> rfl, fun _ => rfl, fun hok hprotocol => ?_⟩
    obtain rfl := (owned_iff.mp howned).1
    exact terminalDisposition_keepsFence hb hprotocol (hok hobserved hjob b hb howned) hdisposition
      rfl
  | failBatch batchId error expectedState ownerToken rules report =>
    refine after_rows hrefl fun _ _ => failBatch_rows hrefl fun b hb howned hobserved
      disposition hdisposition => ⟨by constructor <;> rfl, fun _ => rfl, fun hok hprotocol => ?_⟩
    obtain rfl := (owned_iff.mp howned).1
    exact terminalDisposition_keepsFence hb hprotocol (hok hobserved b hb howned) hdisposition rfl
  | markCompletionUnknown batchId error expectedState ownerToken resultRecord observation
      disposition =>
    refine after_rows hrefl fun _ _ => markCompletionUnknown_rows hrefl fun b hb howned hstate
      hsupported hobserved => ⟨by constructor <;> rfl, fun _ => rfl, fun hok hprotocol => ?_⟩
    obtain ⟨hfenced, hfinalized⟩ := hok hobserved hsupported hstate b hb howned
    refine ⟨fun hdisposition => ?_, fun hdisposition => ?_⟩
    · by_cases hreleased : b.targetReleaseAuthorizedAt = none
      · exact Or.inl (congrArg some (hfenced ⟨hprotocol, hdisposition, hreleased⟩))
      · exact Or.inr hreleased
    · exact congrArg some (hfinalized hprotocol hdisposition)
  | revokePrelaunchBatch batchId ownerToken reason argument =>
    refine after_rows hrefl fun _ _ => revokePrelaunchBatch_rows hrefl fun b hb hrevocable
      disposition hdisposition => ⟨by constructor <;> rfl, fun _ => rfl, fun hok hprotocol => ?_⟩
    obtain rfl := revocable_id hrevocable
    exact terminalDisposition_keepsFence hb hprotocol (hok b hb hrevocable) hdisposition rfl
  | recordRevokedPrelaunchResult batchId ownerToken resultRecord =>
    exact after_rows hrefl fun _ _ h =>
      rowsRelated_same (recordRevokedPrelaunchResult_batches h) hrefl
  | beginActiveCancellation batchId jobIds =>
    exact after_rows hrefl fun _ _ => beginActiveCancellation_rows hrefl
      fun b _ _ _ hfinal => ⟨by constructor <;> rfl, fun _ => rfl, fun _ _ =>
        ⟨fun _ => Or.inl rfl, fun hfinalized => absurd hfinalized hfinal⟩⟩
  | markActiveCancellationUnknown batchId jobIds reason =>
    exact after_rows hrefl fun _ _ => markActiveCancellationUnknown_rows hrefl fun b _ _ =>
      ⟨by constructor <;> rfl, fun _ => rfl, fun _ _ => .of_same rfl⟩
  | cancelActiveBatch batchId jobIds cleanupState =>
    exact after_rows hrefl fun _ _ => cancelActiveBatch_rows hrefl fun b _ _ hfenced =>
      ⟨{ Batch.Continues.refl b with cleanupAt := Remains.some _ _ }, fun _ => rfl, fun _ _ =>
        .of_same hfenced.symm⟩
  | recordFencedCancellation batchId cleanupState =>
    exact after_rows hrefl fun _ _ => recordFencedCancellation_rows hrefl fun b _ _ =>
      ⟨{ Batch.Continues.refl b with cleanupAt := Remains.some _ _ }, fun _ => rfl, fun _ _ => .of_same rfl⟩
  | recordTargetReservation batchId operation resumeToken expectedState ownerToken =>
    refine recordTargetReservation_rows hrefl fun b _ hunreserved =>
      ⟨?_, fun _ => rfl, fun _ _ => .of_same rfl⟩
    simp only [Batch.unreserved, Bool.and_eq_true, Option.isNone_iff_eq_none] at hunreserved
    exact { Batch.Continues.refl b with
      operationId := Stays.of_none hunreserved.1.1.1.1
      requestSha256 := Stays.of_none hunreserved.1.1.1.2
      resumeToken := Stays.of_none hunreserved.1.1.2
      reservedAt := Stays.of_none hunreserved.1.2 }
  | recordTargetAcceptance batchId operation expectedState ownerToken =>
    exact recordTargetAcceptance_rows hrefl fun b _ hnone =>
      ⟨{ Batch.Continues.refl b with acceptedAt := Stays.of_none hnone }, fun _ => rfl,
        fun _ _ => .of_same rfl⟩
  | authorizeTargetCleanup batchId operation cleanupState expectedState ownerToken =>
    exact authorizeTargetCleanup_rows hrefl fun b _ hnone =>
      ⟨{ Batch.Continues.refl b with cleanupAt := Remains.some _ _ }, fun _ => rfl, fun _ _ => .of_none hnone⟩
  | recordTargetFinalization batchId operation cleanupState stageCleaned durableCleaned
      expectedState ownerToken =>
    exact recordTargetFinalization_rows hrefl fun b hb hfinishable hproof =>
      ⟨{ Batch.Continues.refl b with
          cleanupAt := Remains.or _ _
          stageCleanedAt := Remains.some _ _
          durableCleanedAt := Remains.some _ _
          finalizedAt := Remains.some _ _ },
        fun _ => rfl,
        fun hok hprotocol => .of_finalized (released_of_not_fenced hprotocol (hok hproof b hb hfinishable)) rfl⟩
  | recordTargetCleanupProgress batchId operation progress =>
    refine recordTargetCleanupProgress_rows hrefl fun b hb hvalid hprogresses =>
      ⟨{ Batch.Continues.refl b with
          cleanupAt := Remains.ite (Remains.or _ _) (Remains.refl _)
          stageCleanedAt := Remains.ite (Remains.or _ _) (Remains.refl _)
          durableCleanedAt := Remains.ite (Remains.or _ _) (Remains.refl _) },
        fun _ => rfl,
        fun hok hprotocol => ⟨fun hfenced => Or.inr (hprogresses.2.2.2.2 hfenced).2,
          fun hfinalized => ?_⟩⟩
    by_cases hreplayable : progress.replayable = true
    · exact absurd hfinalized (hok hvalid hreplayable b hb hprogresses)
    · simp [hreplayable, hfinalized]
  | recordExpiredTargetFinalization batchId operation cleanupState ownerRelease =>
    exact recordExpiredTargetFinalization_rows hrefl fun b hb hfinalizable hterminal =>
      ⟨{ Batch.Continues.refl b with
          cleanupAt := Remains.or _ _
          stageCleanedAt := Remains.or _ _
          durableCleanedAt := Remains.or _ _
          finalizedAt := Remains.or _ _ },
        fun _ => rfl,
        fun hok hprotocol => .of_finalized (released_of_not_fenced hprotocol (hok hterminal b hb hfinalizable)) rfl⟩
  | authorizeTargetReleaseNoStart operation =>
    exact authorizeTargetRelease_moves _ operation false
  | acknowledgeTargetReleaseEffects operation =>
    exact authorizeTargetRelease_moves _ operation true
  | expireStaleBatch batchId replaySafe maxAttempts =>
    refine after_rows hrefl fun _ _ => expireBatch_rows hrefl fun b hb hexpirable =>
      ⟨by constructor <;> rfl, fun _ => rfl, fun hok hprotocol => ?_⟩
    cases replaySafe with
    | true =>
      exact .of_finalized (released_of_not_fenced hprotocol (hok b hb hexpirable hprotocol).1)
        (by simp [hprotocol, expiredDisposition])
    | false =>
      refine ⟨fun _ => Or.inl (by simp [hprotocol, expiredDisposition]), fun hfinalized => ?_⟩
      exact absurd hfinalized (hok b hb hexpirable hprotocol)
  | recoverStale jobIds => exact rowsRelated_same rfl hrefl
  | clear includeFinal => exact clear_rows hrefl
  | pruneFinal keep => exact rowsRelated_same rfl hrefl

/-- The parts of `recover_stale` and `prune_final`; a recovery without `replay_safe` selects batches
without a target protocol. -/
theorem Part.exec_rows (part : Part) (hexpire : ∀ batchId, part = .expireBatch batchId →
    ∀ b ∈ db.batches, b.batchId = batchId → b.targetProtocolVersion ≠ some 1) :
    RowsRelated (Batch.Moves False True) db (part.exec now db) := by
  have hrefl : ∀ b ∈ db.batches, b.Moves False True b := fun b _ => .refl _ _ b
  cases part with
  | expireBatch batchId =>
    exact after_rows hrefl fun _ _ => expireBatch_rows hrefl fun b hb hexpirable =>
      ⟨by constructor <;> rfl, fun _ => rfl, fun _ hprotocol =>
        absurd hprotocol (hexpire batchId rfl b hb hexpirable.1)⟩
  | sweepLeases => exact rowsRelated_same rfl hrefl
  | pruneVictims victims => exact pruneVictims_rows hrefl

/-! ## Replays -/

/-- A job that is put back to `queued`. -/
structure Requeued (db db' : Database τ) (j : Job τ) : Prop where
  mem : j ∈ db.jobs
  before : j.state ≠ .queued
  after : ∃ j' ∈ db'.jobs, j'.jobId = j.jobId ∧ j'.state = .queued

/-- A batch whose jobs may be replayed. -/
structure Batch.Replayable (b : Batch τ) : Prop where
  active : b.state ≠ .cancelling
  unfenced : b.targetFinalizationDisposition ≠ some .fenced
  finalized : b.targetOperationId = none ∨ b.targetFinalizedAt ≠ none

omit [LinearOrder τ] in
theorem requeued_update {p : Job τ → Bool} {f : Job τ → Job τ} {j : Job τ}
    (h : db.updateJobs p f = .ok db') (hf : ∀ i, (f i).jobId = i.jobId) (hj : Requeued db db' j) :
    p j = true ∧ (f j).state = .queued := by
  obtain ⟨j', hj', hid, hqueued⟩ := hj.after
  obtain ⟨i, hi, rfl⟩ := (mem_updateJobs h).mp hj'
  have hkey := Table.setWhere_column Job.jobId p f hf i
  obtain rfl := db.job_unique hi hj.mem (hkey.symm.trans hid)
  by_cases hp : p i = true
  · rw [Table.setWhere_pos hp] at hqueued
    exact ⟨hp, hqueued⟩
  · rw [Table.setWhere_neg hp] at hqueued
    exact absurd hqueued hj.before

omit [LinearOrder τ] in
/-- Only a batch that is allowed to be retried loses a job to the queue. -/
theorem expireJobs_requeued {batchId : String} {state : State} {replaySafe : Option Bool}
    {maxAttempts : Int} {j : Job τ}
    (h : expireJobs batchId state replaySafe maxAttempts now db = .ok db')
    (hj : Requeued db db' j) :
    j.batchId = some batchId ∧ replaySafe ≠ some false ∧ db.Retriable batchId maxAttempts := by
  have hretry : ∀ {error : String},
      finishBatchFailure batchId error now ⟨maxAttempts, false⟩ none db = .ok db' →
      j.batchId = some batchId ∧ db.Retriable batchId maxAttempts := by
    intro error hfailure
    obtain ⟨db₁, hjobs, hdb⟩ := bind_eq_ok.mp hfailure
    obtain rfl := pure_eq_ok.mp hdb
    have hrequeued : Requeued db db₁ j := ⟨hj.mem, hj.before, hj.after⟩
    obtain ⟨hp, hqueued⟩ := requeued_update hjobs (fun _ => rfl) hrequeued
    simp only [Bool.and_eq_true, decide_eq_true_eq, Bool.not_eq_true'] at hp
    refine ⟨hp.1, j, hj.mem, hp.1, hp.2, hj.before, ?_⟩
    by_contra hspent
    simp [hspent] at hqueued
  have hunknown : ∀ {p : Job τ → Bool}, markUnknown p batchId now db = .ok db' → False := by
    intro p hmarked
    obtain ⟨db₁, hjobs, hdb⟩ := bind_eq_ok.mp hmarked
    obtain rfl := pure_eq_ok.mp hdb
    have hrequeued : Requeued db db₁ j := ⟨hj.mem, hj.before, hj.after⟩
    obtain ⟨-, hqueued⟩ := requeued_update hjobs (fun _ => rfl) hrequeued
    cases hqueued
  unfold expireJobs at h
  split at h
  · exact ⟨(hretry h).1, by decide, (hretry h).2⟩
  · exact (hunknown h).elim
  · split at h
    · exact ⟨(hretry h).1, by decide, (hretry h).2⟩
    · split at h
      · exact ⟨(hretry h).1, by decide, (hretry h).2⟩
      · exact (hunknown h).elim

/-- An authorized recovery that keeps the fences replays no fenced work. -/
theorem expireBatch_requeued {batchId : String} {replaySafe : Option Bool} {maxAttempts : Int}
    {done : Bool} {j : Job τ} {b : Batch τ}
    (hok : ∀ b ∈ db.batches, b.Expirable batchId replaySafe now →
      b.targetProtocolVersion = some 1 → replaySafe ≠ some false →
      replaySafe = some true ∧ (b.state = .cancelling ∨
        b.targetFinalizationDisposition = some .fenced → ¬ db.Retriable batchId maxAttempts))
    (h : expireBatch batchId maxAttempts replaySafe now db = .ok (done, db'))
    (hj : Requeued db db' j) (hb : b ∈ db.batches) (hbatch : j.batchId = some b.batchId)
    (hprotocol : b.targetProtocolVersion = some 1) : b.Replayable := by
  rcases expireBatch_ok h with rfl | ⟨c, hc, hexpirable, db₁, hjobs, hexpired, -⟩
  · obtain ⟨j', hj', hid, hqueued⟩ := hj.after
    obtain rfl := db'.job_unique hj' hj.mem hid
    exact absurd hqueued hj.before
  · have hrequeued : Requeued db₁ db' j := ⟨hjobs ▸ hj.mem, hj.before, hj.after⟩
    obtain ⟨hid, hsafe, i, hi, hretriable⟩ := expireJobs_requeued hexpired hrequeued
    obtain rfl := db.batch_unique hb hc
      ((Option.some.inj (hbatch.symm.trans hid)).trans hexpirable.1.symm)
    obtain ⟨hreplay, hfence⟩ := hok b hb hexpirable hprotocol hsafe
    have hretry : db.Retriable batchId maxAttempts := ⟨i, hjobs ▸ hi, hretriable⟩
    refine ⟨fun hstate => hfence (Or.inl hstate) hretry, fun hd => hfence (Or.inr hd) hretry, ?_⟩
    by_contra hnone
    push Not at hnone
    exact hexpirable.2.2.2 ⟨hreplay, hprotocol, hnone.1, hnone.2⟩

end Calls

/-! ## Runs -/

section Runs
variable {ι τ : Type} [DecidableEq ι] [LinearOrder τ]

/-- The transaction at hand keeps the fences, and no claim takes the id of a batch that a stale
recovery has selected and not yet expired. -/
def Action.KeepsFences (s : System ι τ) : Action ι τ → Prop
  | .serialize p => ∀ call now, s.pending p = some (.called call now) →
    call.KeepsFences now s.db ∧
    ∀ claim, call = .claimMany claim → ∀ q parts later, s.pending q = some (.left parts later) →
      Part.expireBatch claim.batchId ∉ parts
  | _ => True

/-- A step of `expire_stale_batch` or `recover_stale`. -/
def System.Recovers (s : System ι τ) : Action ι τ → Prop
  | .serialize p =>
    (∃ batchId replaySafe maxAttempts now,
      s.pending p = some (.called (.expireStaleBatch batchId replaySafe maxAttempts) now)) ∨
    (∃ jobIds now, s.pending p = some (.called (.recoverStale jobIds) now)) ∨
    (∃ batchId rest now, s.pending p = some (.left (.expireBatch batchId :: rest) now)) ∨
    ∃ rest now, s.pending p = some (.left (.sweepLeases :: rest) now)
  | _ => False

/-- A step of a release by the owner. -/
def System.Releases (s : System ι τ) : Action ι τ → Prop
  | .serialize p => ∃ call now, s.pending p = some (.called call now) ∧ call.Releases
  | _ => False

structure FencesStep (s : System ι τ) (action : Action ι τ) : Prop where
  rows : ∀ b ∈ s.db.batches, ∀ b' ∈ (step s action).db.batches, b.batchId = b'.batchId →
    b.Advances b'
  released : ∀ b ∈ s.db.batches, ∀ b' ∈ (step s action).db.batches, b.batchId = b'.batchId →
    b.targetReleaseAuthorizedAt = none → b'.targetReleaseAuthorizedAt ≠ none → s.Releases action
  replays : s.Recovers action → ∀ j, Requeued s.db (step s action).db j →
    ∀ b ∈ s.db.batches, j.batchId = some b.batchId → b.targetProtocolVersion = some 1 →
      b.Replayable

/-- In every step of the run and over every stretch of it in which the batch is there. -/
structure FencesMonotone (s : System ι τ) (actions : List (Action ι τ)) : Prop where
  steps : Transition.Along step FencesStep s actions
  stretches : ∀ before during after, actions = before ++ during ++ after → ∀ batchId b b',
    Transition.Along step (fun s _ => (s.db.batch batchId).isSome = true)
      (Transition.run step s before) during →
    (Transition.run step s before).db.batch batchId = some b →
    (Transition.run step s (before ++ during)).db.batch batchId = some b' → b.Outlives b'

/-- The batches that stale recoveries have selected have no target protocol. -/
def System.Selected (s : System ι τ) : Prop :=
  ∀ p parts now, s.pending p = some (.left parts now) → ∀ batchId, .expireBatch batchId ∈ parts →
    ∀ b ∈ s.db.batches, b.batchId = batchId → b.targetProtocolVersion = none

section Step
variable {s : System ι τ} {p q : ι} {now : τ}

omit [LinearOrder τ] in
theorem setPending_eq {pending : Option (Pending τ)} :
    (s.setPending p pending).pending q = if q = p then pending else s.pending q := by
  unfold System.setPending
  by_cases hq : q = p
  · subst hq
    simp
  · simp [hq]

omit [DecidableEq ι] [LinearOrder τ] in
theorem Batch.Moves.advances {releases ok : Prop} {b b' : Batch τ} (h : b.Moves releases ok b')
    (hok : ok) : b.Advances b' :=
  ⟨h.toContinues, h.fence hok⟩

omit [DecidableEq ι] [LinearOrder τ] in
theorem not_requeued_self {db : Database τ} {j : Job τ} (h : Requeued db db j) : False := by
  obtain ⟨j', hj', hid, hqueued⟩ := h.after
  obtain rfl := db.job_unique hj' h.mem hid
  exact h.before hqueued

theorem fencesStep_of_same {action : Action ι τ} (h : (step s action).db = s.db) :
    FencesStep s action where
  rows := by
    intro b hb b' hb' hid
    rw [h] at hb'
    obtain rfl := s.db.batch_unique hb hb' hid
    exact .refl b
  released := by
    intro b hb b' hb' hid hnone hsome
    rw [h] at hb'
    obtain rfl := s.db.batch_unique hb hb' hid
    exact absurd hnone hsome
  replays := by
    intro _ j hj
    rw [h] at hj
    exact (not_requeued_self hj).elim

omit [DecidableEq ι] in
/-- A stale recovery selects expired batches without a target protocol. -/
theorem exec_parts {db : Database τ} {call : Call τ} {batchId : String}
    (h : .expireBatch batchId ∈ (call.exec now db).2) :
    (call.exec now db).1 = db ∧
      ∀ b ∈ db.batches, b.batchId = batchId → b.targetProtocolVersion = none := by
  cases call with
  | recoverStale jobIds =>
    refine ⟨rfl, fun b hb hid => ?_⟩
    rcases List.mem_append.mp h with hstale | hsweep
    · obtain ⟨id, hid', hpart⟩ := List.mem_map.mp hstale
      cases hpart
      obtain ⟨c, hc, hkey⟩ := List.mem_map.mp hid'
      obtain ⟨hmem, hp⟩ := Table.mem_select.mp hc
      obtain rfl := db.batch_unique hb hmem (hid.trans hkey.symm)
      simp only [Bool.and_eq_true, decide_eq_true_eq] at hp
      exact hp.1.2
    · split at hsweep
      · simp at hsweep
      · simp at hsweep
  | pruneFinal keep => simp [Call.exec] at h
  | _ => simp [Call.exec] at h

/-- A step that changes pending calls only. -/
theorem selected_of_same (hsel : s.Selected) {action : Action ι τ} (hdb : (step s action).db = s.db)
    (hpending : ∀ q parts now, (step s action).pending q = some (.left parts now) →
      s.pending q = some (.left parts now)) : (step s action).Selected := by
  intro q parts now hq batchId hpart b hb
  rw [hdb] at hb
  exact hsel q parts now (hpending q parts now hq) batchId hpart b hb

/-- A selection that is still pending stays sound if no row it names changes its protocol. -/
theorem selected_of_rows (hsel : s.Selected) {action : Action ι τ}
    (hrows : ∀ b' ∈ (step s action).db.batches,
      (∃ b ∈ s.db.batches, b.batchId = b'.batchId ∧
        b'.targetProtocolVersion = b.targetProtocolVersion) ∨
      ∀ q parts later, s.pending q = some (.left parts later) →
        Part.expireBatch b'.batchId ∉ parts)
    (hpending : ∀ q parts later, (step s action).pending q = some (.left parts later) →
      ∀ batchId, .expireBatch batchId ∈ parts →
      (∃ parts, s.pending q = some (.left parts later) ∧ .expireBatch batchId ∈ parts) ∨
      ∀ b ∈ (step s action).db.batches, b.batchId = batchId → b.targetProtocolVersion = none) :
    (step s action).Selected := by
  intro q parts later hq batchId hpart b' hb' hid
  rcases hpending q parts later hq batchId hpart with ⟨before, hbefore, hmem⟩ | hfresh
  · rcases hrows b' hb' with ⟨b, hb, hkey, hprotocol⟩ | hnot
    · exact hprotocol.trans (hsel q before later hbefore batchId hmem b hb (hkey.trans hid))
    · exact absurd (hid ▸ hmem) (hnot q before later hbefore)
  · exact hfresh b' hb' hid

omit [DecidableEq ι] in
/-- The first transaction of a call that claims no batch. -/
theorem called_rows {call : Call τ} (hclaim : ∀ claim, call ≠ .claimMany claim)
    (hkeeps : call.KeepsFences now s.db) {b b' : Batch τ} (hb : b ∈ s.db.batches)
    (hb' : b' ∈ (call.exec now s.db).1.batches) (hid : b.batchId = b'.batchId) :
    b.Advances b' ∧ (b.targetReleaseAuthorizedAt = none → b'.targetReleaseAuthorizedAt ≠ none →
      call.Releases) := by
  have hmoves := (Call.exec_rows hclaim).pair hb hb' hid
  refine ⟨hmoves.advances hkeeps, fun hnone hsome => ?_⟩
  by_contra hno
  exact hsome ((hmoves.unreleased hno).trans hnone)

/-- The replays of an `expire_stale_batch` that keeps the fences. -/
theorem expireStaleBatch_replays {batchId : String} {replaySafe : Bool} {maxAttempts : Int}
    {db : Database τ} {j : Job τ} {b : Batch τ}
    (hkeeps : (Call.expireStaleBatch batchId replaySafe maxAttempts).KeepsFences now db)
    (hj : Requeued db ((Call.expireStaleBatch batchId replaySafe maxAttempts).exec now db).1 j)
    (hb : b ∈ db.batches) (hbatch : j.batchId = some b.batchId)
    (hprotocol : b.targetProtocolVersion = some 1) : b.Replayable := by
  cases hexpired : expireBatch batchId maxAttempts (some replaySafe) now db with
  | error fault =>
    simp only [Call.exec, hexpired, Database.after] at hj
    exact (not_requeued_self hj).elim
  | ok result =>
    simp only [Call.exec, hexpired, Database.after] at hj
    refine expireBatch_requeued (fun c hc hexpirable hversion hsafe => ?_) hexpired hj hb hbatch
      hprotocol
    cases replaySafe with
    | true => exact ⟨rfl, (hkeeps c hc hexpirable hversion).2⟩
    | false => exact absurd rfl hsafe

theorem called_step {call : Call τ} (hsel : s.Selected)
    (hpending : s.pending p = some (.called call now))
    (hok : (Action.serialize p).KeepsFences s) :
    (step s (.serialize p)).Selected ∧ FencesStep s (.serialize p) := by
  obtain ⟨hkeeps, hfresh⟩ := hok call now hpending
  have hstep : step s (.serialize p) =
      { s.setPending p (Pending.of now (call.exec now s.db).2) with
        db := (call.exec now s.db).1 } := by
    simp only [step, hpending]
  have hdb : (step s (.serialize p)).db = (call.exec now s.db).1 := by rw [hstep]
  have hrows : ∀ b' ∈ (call.exec now s.db).1.batches,
      (∃ b ∈ s.db.batches, b.batchId = b'.batchId ∧ b.Advances b' ∧
        (b.targetReleaseAuthorizedAt = none → b'.targetReleaseAuthorizedAt ≠ none →
          call.Releases)) ∨
      ((∀ b ∈ s.db.batches, b.batchId ≠ b'.batchId) ∧
        ∀ q parts later, s.pending q = some (.left parts later) →
          Part.expireBatch b'.batchId ∉ parts) := by
    intro b' hb'
    by_cases hclaim : ∃ claim, call = .claimMany claim
    · obtain ⟨claim, rfl⟩ := hclaim
      have hbatches : (claimMany claim now s.db).2.batches = s.db.batches ∨ _ :=
        claimMany_batches claim
      rcases hbatches with hsame | ⟨hnew, row, hrow, -, hmem⟩
      · have hold : b' ∈ s.db.batches := by
          rw [← hsame]
          exact hb'
        exact Or.inl ⟨b', hold, rfl, .refl b', fun hnone hsome => absurd hnone hsome⟩
      · rcases (hmem b').mp hb' with hold | rfl
        · exact Or.inl ⟨b', hold, rfl, .refl b', fun hnone hsome => absurd hnone hsome⟩
        · rw [hrow]
          exact Or.inr ⟨hnew, hfresh claim rfl⟩
    · push Not at hclaim
      have hmoves : RowsRelated _ s.db (call.exec now s.db).1 := Call.exec_rows hclaim
      obtain ⟨b, hb, hid, -⟩ := hmoves b' hb'
      exact Or.inl ⟨b, hb, hid, called_rows hclaim hkeeps hb hb' hid⟩
  refine ⟨selected_of_rows hsel ?_ ?_, ?_, ?_, ?_⟩
  · intro b' hb'
    rw [hdb] at hb'
    rcases hrows b' hb' with ⟨b, hb, hid, hadvances, -⟩ | ⟨-, hnot⟩
    · exact Or.inl ⟨b, hb, hid, hadvances.protocol⟩
    · exact Or.inr hnot
  · intro q parts later hq batchId hpart
    rw [hstep] at hq
    replace hq : (if q = p then Pending.of now (call.exec now s.db).2 else s.pending q) =
        some (.left parts later) := setPending_eq.symm.trans hq
    split at hq
    · right
      have hmem : .expireBatch batchId ∈ (call.exec now s.db).2 := by
        cases hparts : (call.exec now s.db).2 with
        | nil =>
          rw [hparts] at hq
          cases hq
        | cons part rest =>
          rw [hparts] at hq
          cases hq
          exact hpart
      obtain ⟨hsame, hnone⟩ := exec_parts hmem
      rw [hdb, hsame]
      exact hnone
    · exact Or.inl ⟨parts, hq, hpart⟩
  · intro b hb b' hb' hid
    rw [hdb] at hb'
    rcases hrows b' hb' with ⟨c, hc, hkey, hadvances, -⟩ | ⟨hnew, -⟩
    · obtain rfl := s.db.batch_unique hb hc (hid.trans hkey.symm)
      exact hadvances
    · exact absurd hid (hnew b hb)
  · intro b hb b' hb' hid hnone hsome
    rw [hdb] at hb'
    rcases hrows b' hb' with ⟨c, hc, hkey, -, hreleases⟩ | ⟨hnew, -⟩
    · obtain rfl := s.db.batch_unique hb hc (hid.trans hkey.symm)
      exact ⟨call, now, hpending, hreleases hnone hsome⟩
    · exact absurd hid (hnew b hb)
  · intro hrecovers j hj b hb hbatch hprotocol
    rw [hdb] at hj
    rcases hrecovers with ⟨batchId, replaySafe, maxAttempts, later, hcall⟩ | ⟨jobIds, later, hcall⟩ |
      ⟨batchId, rest, later, hcall⟩ | ⟨rest, later, hcall⟩
    · rw [hpending] at hcall
      cases hcall
      exact expireStaleBatch_replays hkeeps hj hb hbatch hprotocol
    · rw [hpending] at hcall
      cases hcall
      exact (not_requeued_self hj).elim
    · rw [hpending] at hcall
      cases hcall
    · rw [hpending] at hcall
      cases hcall

/-- A transaction that follows from a selection. -/
theorem left_step {part : Part} {rest : List Part} (hsel : s.Selected)
    (hpending : s.pending p = some (.left (part :: rest) now)) :
    (step s (.serialize p)).Selected ∧ FencesStep s (.serialize p) := by
  have hstep : step s (.serialize p) =
      { s.setPending p (Pending.of now rest) with db := part.exec now s.db } := by
    simp only [step, hpending]
  have hdb : (step s (.serialize p)).db = part.exec now s.db := by rw [hstep]
  have hpart : ∀ batchId, part = .expireBatch batchId →
      ∀ b ∈ s.db.batches, b.batchId = batchId → b.targetProtocolVersion ≠ some 1 := by
    rintro batchId rfl b hb hid
    rw [hsel p _ now hpending batchId List.mem_cons_self b hb hid]
    simp
  have hrows : RowsRelated _ s.db (part.exec now s.db) := Part.exec_rows part hpart
  refine ⟨selected_of_rows hsel ?_ ?_, ?_, ?_, ?_⟩
  · intro b' hb'
    rw [hdb] at hb'
    obtain ⟨b, hb, hid, hmoves⟩ := hrows b' hb'
    exact Or.inl ⟨b, hb, hid, hmoves.protocol⟩
  · intro q parts later hq batchId hmem
    rw [hstep] at hq
    replace hq : (if q = p then Pending.of now rest else s.pending q) = some (.left parts later) :=
      setPending_eq.symm.trans hq
    left
    split at hq
    · rename_i hsame
      subst hsame
      cases rest with
      | nil => cases hq
      | cons next rest =>
        cases hq
        exact ⟨_, hpending, List.mem_cons_of_mem _ hmem⟩
    · exact ⟨parts, hq, hmem⟩
  · intro b hb b' hb' hid
    rw [hdb] at hb'
    exact (hrows.pair hb hb' hid).advances trivial
  · intro b hb b' hb' hid hnone hsome
    rw [hdb] at hb'
    exact absurd (((hrows.pair hb hb' hid).unreleased id).trans hnone) hsome
  · intro _ j hj b hb hbatch hprotocol
    rw [hdb] at hj
    cases part with
    | sweepLeases => exact (not_requeued_self ⟨hj.mem, hj.before, hj.after⟩).elim
    | pruneVictims victims =>
      obtain ⟨j', hj', hid, hqueued⟩ := hj.after
      have hmem : j' ∈ s.db.jobs := (Table.mem_delete.mp hj').1
      exact (not_requeued_self ⟨hj.mem, hj.before, j', hmem, hid, hqueued⟩).elim
    | expireBatch batchId =>
      cases hexpired : expireBatch batchId maxAttempts none now s.db with
      | error fault =>
        simp only [Part.exec, hexpired, Database.after] at hj
        exact (not_requeued_self hj).elim
      | ok result =>
        simp only [Part.exec, hexpired, Database.after] at hj
        refine expireBatch_requeued (fun c hc hexpirable hversion _ => ?_) hexpired hj hb hbatch
          hprotocol
        exact absurd hversion (hpart batchId rfl c hc hexpirable.1)

/-- One step keeps the selections sound and the fences. -/
theorem fences_step (action : Action ι τ) (hsel : s.Selected) (hok : action.KeepsFences s) :
    (step s action).Selected ∧ FencesStep s action := by
  cases action with
  | tick clock => exact ⟨hsel, fencesStep_of_same rfl⟩
  | start p call now =>
    cases hpending : s.pending p with
    | some pending =>
      have hsame : step s (.start p call now) = s := by simp only [step, hpending]
      rw [hsame]
      exact ⟨hsel, fencesStep_of_same (by rw [hsame])⟩
    | none =>
      have hstep : step s (.start p call now) =
          s.setPending p (some (.called call (now.getD s.clock))) := by
        simp only [step, hpending]
      have hdb : (step s (.start p call now)).db = s.db := by rw [hstep]; rfl
      refine ⟨selected_of_same hsel hdb fun q parts later hq => ?_, fencesStep_of_same hdb⟩
      rw [hstep, setPending_eq] at hq
      split at hq
      · cases hq
      · exact hq
  | serialize p =>
    cases hpending : s.pending p with
    | none =>
      have hsame : step s (.serialize p) = s := by simp only [step, hpending]
      rw [hsame]
      exact ⟨hsel, fencesStep_of_same (by rw [hsame])⟩
    | some pending =>
      cases pending with
      | called call now => exact called_step hsel hpending hok
      | left parts now =>
        cases parts with
        | nil =>
          have hsame : step s (.serialize p) = s := by simp only [step, hpending]
          rw [hsame]
          exact ⟨hsel, fencesStep_of_same (by rw [hsame])⟩
        | cons part rest => exact left_step hsel hpending
  | abort p =>
    refine ⟨selected_of_same hsel rfl fun q parts later hq => ?_, fencesStep_of_same rfl⟩
    replace hq : (if q = p then none else s.pending q) = some (.left parts later) :=
      setPending_eq.symm.trans hq
    split at hq
    · cases hq
    · exact hq

end Step

/-- Fences are monotone in every run whose transactions keep them. -/
theorem fences_monotone (s : System ι τ) (hidle : ∀ p, s.pending p = none)
    (actions : List (Action ι τ))
    (hok : Transition.Along step (fun s action => action.KeepsFences s) s actions) :
    FencesMonotone s actions := by
  have hsel : s.Selected := by
    intro p parts now hp
    rw [hidle p] at hp
    cases hp
  have hsteps : Transition.Along step FencesStep s actions :=
    Transition.along_of_step System.Selected (fun s action => fences_step action) hsel hok
  refine ⟨hsteps, ?_⟩
  rintro before during after rfl batchId b b' hthere hb hb'
  obtain ⟨-, hduring⟩ := Transition.along_append.mp (Transition.along_append.mp hsteps).1
  rw [Transition.run_append] at hb'
  refine Transition.run_observed (fun s : System ι τ => s.db.batch batchId) Batch.Outlives
    Batch.Outlives.refl (fun _ _ _ => Batch.Outlives.trans) ?_ hthere hb hb'
  refine Transition.along_imp (fun t action hstep c c' hc hc' => ?_) hduring
  obtain ⟨hmem, hid⟩ := batch_eq_some.mp hc
  obtain ⟨hmem', hid'⟩ := batch_eq_some.mp hc'
  exact (hstep.rows c hmem c' hmem' (hid.trans hid'.symm)).outlives

end Runs

/-! ## A fence that a recovery takes away -/

/-- A raw command. -/
def rawCommand : Call Nat :=
  .enqueue "raw" ⟨"raw", .atMostOnce⟩ [⟨"job", "prepared", none, ""⟩]

/-- The claim of that command by the device `gpu`, under the target protocol. -/
def targetClaim : Call Nat :=
  .claimMany
    { jobIds := ["job"]
      device := "gpu"
      batchId := "batch"
      leaseUntil := 10
      pool := some "gpu"
      targetProtocolVersion := some 1
      integrity := fun _ => none
      isTask := fun _ => false
      currentSpecIds := .notCallable
      ownerToken := "owner" }

def idleFleet : System Bool Nat := ⟨.empty, 0, fun _ => none⟩

/-- The lease runs out; a recovery that has seen no reservation authorizes the replay while the
operator's cancellation gets the lock first. -/
def cancelledInRecovery : List (Action Bool Nat) :=
  [.start false rawCommand none, .serialize false, .start false targetClaim none, .serialize false,
    .tick 20, .start true (.expireStaleBatch "batch" true 3) none,
    .start false (.beginActiveCancellation "batch" ["job"]) none, .serialize false]

/-- The cancelled batch is finalized without a release and its job is queued again. -/
theorem recovery_unfences :
    ¬ FencesMonotone idleFleet (cancelledInRecovery ++ [.serialize true]) ∧
    (Transition.run step idleFleet cancelledInRecovery).db.batches.rows.map
        (fun b => (b.state, b.targetFinalizationDisposition, b.targetReleaseAuthorizedAt)) =
      [(.cancelling, some .fenced, none)] ∧
    (Transition.run step idleFleet (cancelledInRecovery ++ [.serialize true])).db.batches.rows.map
        (fun b => (b.state, b.targetFinalizationDisposition)) = [(.failed, some .finalized)] ∧
    (Transition.run step idleFleet (cancelledInRecovery ++ [.serialize true])).db.jobs.rows.map
        (fun j => (j.state, j.batchId)) = [(.queued, none)] := by
  refine ⟨fun h => ?_, by decide, by decide, by decide⟩
  have hstep := (Transition.along_append.mp h.steps).2.1
  obtain ⟨b, hb⟩ : ∃ b, (Transition.run step idleFleet cancelledInRecovery).db.batch "batch" = some b :=
    ⟨_, rfl⟩
  obtain ⟨b', hb'⟩ : ∃ b, (step (Transition.run step idleFleet cancelledInRecovery)
    (.serialize true)).db.batch "batch" = some b := ⟨_, rfl⟩
  obtain ⟨hmem, hid⟩ := batch_eq_some.mp hb
  obtain ⟨hmem', hid'⟩ := batch_eq_some.mp hb'
  have hadvances := hstep.rows b hmem b' hmem' (hid.trans hid'.symm)
  cases hb
  cases hb'
  rcases (hadvances.fence rfl).fenced rfl with hkept | hreleased
  · cases hkept
  · exact hreleased rfl

/-- A recovery that does not call the replay safe keeps the fence of the cancelled batch. -/
theorem fences_monotone_cancelled :
    FencesMonotone { Transition.run step idleFleet cancelledInRecovery with
        pending := fun _ => none }
      [.start true (.expireStaleBatch "batch" false 3) none, .serialize true] := by
  refine fences_monotone _ (fun _ => rfl) _ ⟨trivial, ?_, trivial⟩
  intro call now hpending
  cases hpending
  refine ⟨fun b hb _ _ => ?_, fun claim hclaim => by cases hclaim⟩
  obtain rfl := List.mem_singleton.mp hb
  decide

end Remrun.Fleet
