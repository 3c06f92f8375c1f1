import Remrun.Runner.Effects
import Remrun.Runner.Participant

/-!
# What a participant operation can do

The writes of the grant operations on one target store, the fence floor they raise, and
the invariant of the store alone: every accepted row lies at or below the floor, and a
barrier's answer lists exactly what was accepted beneath it.
-/

namespace Remrun.Runner

open Relational
set_option autoImplicit false

variable {P : Prims}

/-! ## The fence floor -/

/-- The floor of the project has reached the fence in the epoch, or left the epoch behind. -/
def Participant.Reached (p : Participant) (clusterId projectKey : String) (epoch fence : Int) :
    Prop :=
  ∃ f ∈ p.fences, f.clusterId = clusterId ∧ f.projectKey = projectKey ∧
    (epoch < f.authorityEpoch ∨ (epoch = f.authorityEpoch ∧ fence ≤ f.maxFence))

theorem Participant.Reached.mono {p : Participant} {c k : String} {e f f' : Int}
    (h : p.Reached c k e f) (hle : f' ≤ f) : p.Reached c k e f' := by
  obtain ⟨row, hrow, hc, hk, hpos⟩ := h
  refine ⟨row, hrow, hc, hk, ?_⟩
  rcases hpos with hlt | ⟨heq, hmax⟩
  · exact Or.inl hlt
  · exact Or.inr ⟨heq, hle.trans hmax⟩

theorem fence_eq_of_key {fences : Table ProjectFence ProjectFence.Clash} {a b : ProjectFence}
    (ha : a ∈ fences) (hb : b ∈ fences) (hc : a.clusterId = b.clusterId)
    (hk : a.projectKey = b.projectKey) : a = b :=
  Table.eq_of_clash ha hb ⟨hc, hk⟩ ⟨hc.symm, hk.symm⟩

theorem projectFence_eq_some {p : Participant} {f : ProjectFence} (hf : f ∈ p.fences) :
    p.projectFence f.clusterId f.projectKey = some f := by
  apply Table.lookup_eq_some hf (by simp)
  intro g hg hkey
  simp only [decide_eq_true_eq] at hkey
  exact fence_eq_of_key hg hf hkey.1 hkey.2

theorem mem_upsertFence {fences : Table ProjectFence ProjectFence.Clash} {row f : ProjectFence} :
    f ∈ upsertFence fences row ↔ f = row ∨
      (f ∈ fences ∧ ¬ (f.clusterId = row.clusterId ∧ f.projectKey = row.projectKey)) := by
  unfold upsertFence
  split
  · rename_i fences' hins
    rw [Table.mem_insert hins]
    constructor
    · rintro (hf | rfl)
      · exact Or.inr ⟨hf, Table.insert_no_clash hins hf⟩
      · exact Or.inl rfl
    · rintro (rfl | ⟨hf, _⟩)
      · exact Or.inr rfl
      · exact Or.inl hf
  · rename_i hnone
    obtain ⟨stored, hstored, hclash⟩ := Table.clash_of_insert_none hnone
    have hset : ∀ g : ProjectFence, g.clusterId = row.clusterId → g.projectKey = row.projectKey →
        { g with authorityEpoch := row.authorityEpoch, maxFence := row.maxFence } = row := by
      rintro ⟨_, _, _, _⟩ rfl rfl
      rfl
    rw [Table.mem_update]
    constructor
    · rintro ⟨g, hg, rfl⟩
      by_cases hkey : g.clusterId = row.clusterId ∧ g.projectKey = row.projectKey
      · rw [Table.setWhere_pos (by simpa using hkey)]
        exact Or.inl (hset g hkey.1 hkey.2)
      · rw [Table.setWhere_neg (by simpa using hkey)]
        exact Or.inr ⟨hg, hkey⟩
    · rintro (rfl | ⟨hf, hkey⟩)
      · refine ⟨stored, hstored, ?_⟩
        rw [Table.setWhere_pos (by simpa [ProjectFence.Clash] using hclash)]
        exact hset stored hclash.1 hclash.2
      · exact ⟨f, hf, Table.setWhere_neg (by simpa using hkey)⟩

/-- The two refusals of a stale capability keep every accepted row above the floor. -/
theorem not_reached_of_open {p : Participant} {row : AcceptedGrant}
    (hepoch : ((p.projectFence row.clusterId row.projectKey).any fun f =>
      row.authorityEpoch < f.authorityEpoch) = false)
    (hfence : ¬ row.fence < p.maxFence row) :
    ¬ p.Reached row.clusterId row.projectKey row.authorityEpoch (row.fence + 1) := by
  rintro ⟨f, hf, hc, hk, hpos⟩
  have hlook := projectFence_eq_some hf
  rw [hc, hk] at hlook
  simp only [hlook, Option.any_some, decide_eq_false_iff_not] at hepoch
  simp only [Participant.maxFence, hlook] at hfence
  rcases hpos with hlt | ⟨heq, hle⟩
  · exact hepoch hlt
  · rw [if_pos heq] at hfence
    omega

/-- The writes of an accepted capability raise the floor to it and lower no floor. -/
theorem insertAccepted_spec {p p' : Participant} (row : AcceptedGrant)
    (hopen : ¬ p.Reached row.clusterId row.projectKey row.authorityEpoch (row.fence + 1))
    (h : insertAccepted p row = .ok p') :
    (∀ g, g ∈ p'.accepted ↔ g ∈ p.accepted ∨ g = row) ∧
      p' = { p with fences := p'.fences, accepted := p'.accepted } ∧
      (∀ c k e f, p.Reached c k e f → p'.Reached c k e f) ∧
      p'.Reached row.clusterId row.projectKey row.authorityEpoch row.fence := by
  simp only [insertAccepted, bind_eq_ok, inserted_eq_ok, pure_eq_ok] at h
  obtain ⟨accepted, hins, rfl⟩ := h
  refine ⟨fun g => Table.mem_insert hins, rfl, ?_, ?_⟩
  · rintro c k e f ⟨stored, hstored, hc, hk, hpos⟩
    by_cases hkey : stored.clusterId = row.clusterId ∧ stored.projectKey = row.projectKey
    · refine ⟨_, mem_upsertFence.mpr (Or.inl rfl), hkey.1.symm.trans hc, hkey.2.symm.trans hk, ?_⟩
      have hlook := projectFence_eq_some hstored
      rw [hkey.1, hkey.2] at hlook
      have hno : ¬ (row.authorityEpoch < stored.authorityEpoch) := fun hlt =>
        hopen ⟨stored, hstored, hkey.1, hkey.2, Or.inl hlt⟩
      have hmax : row.authorityEpoch = stored.authorityEpoch → p.maxFence row = stored.maxFence :=
        fun heq => by rw [Participant.maxFence, hlook]; exact if_pos heq
      change e < row.authorityEpoch ∨
        (e = row.authorityEpoch ∧ f ≤ max (p.maxFence row) row.fence)
      rcases hpos with hlt | ⟨heq, hle⟩
      · exact Or.inl (by omega)
      · by_cases hsame : row.authorityEpoch = stored.authorityEpoch
        · rw [hmax hsame]
          exact Or.inr ⟨heq.trans hsame.symm, le_max_of_le_left hle⟩
        · exact Or.inl (by omega)
    · exact ⟨stored, mem_upsertFence.mpr (Or.inr ⟨hstored, hkey⟩), hc, hk, hpos⟩
  · exact ⟨_, mem_upsertFence.mpr (Or.inl rfl), rfl, rfl, Or.inr ⟨rfl, le_max_right _ _⟩⟩

/-! ## The effects -/

/-- The target holds a key under which the envelope's signature matches its body. -/
def Verifies (P : Prims) (keys : KeyFiles) (e : Envelope) (secret : Bytes) : Prop :=
  (∃ path, keys path = some secret) ∧
    P.urlsafeB64decode e.sig = some (P.hmac secret e.body)

/-- The state and result a capability is accepted with. -/
def AcceptedAs (p : Participant) (row : AcceptedGrant) : Prop :=
  (row.operation ≠ "fence_barrier" ∧ row.state = .accepted ∧ row.result = none) ∨
    (row.operation = "fence_barrier" ∧ row.state = .terminal ∧
      row.result = some ((lowerGrants p row).map AcceptedGrant.observation))

/-- The writes of one grant operation. -/
inductive ParticipantEffect (P : Prims) (request : ParticipantRequest) (p : Participant) :
    Participant → Prop where
  | unchanged : ParticipantEffect P request p p
  | accepted (e : Envelope) (secret : Bytes) (state : AcceptedState) (result : GrantResult)
      (p' : Participant)
      (delivered : request = .grantAccept (some e)) (verified : Verifies P p.keys e secret)
      (passed : ∃ keyId, verifyCapability P (some e) p = .ok (e.body, keyId, secret))
      (target : e.body.targetDeviceId.getD "" = p.deviceId)
      (fresh : ∀ g ∈ p.accepted, g.grantId ≠ e.body.grantId.getD "")
      (above : ¬ p.Reached (e.body.clusterId.getD "") (e.body.projectKey.getD "")
        (e.body.authorityEpoch.getD 0) (e.body.fence.getD (-1) + 1))
      (answer : AcceptedAs p (acceptedRow e.body state result))
      (write : insertAccepted p (acceptedRow e.body state result) = .ok p') :
      ParticipantEffect P request p p'
  | signed (e : Envelope) (secret : Bytes) (now : Int) (status : ReceiptStatus)
      (result : GrantResult)
      (delivered : request.capability = some e) (verified : Verifies P p.keys e secret)
      (target : e.body.targetDeviceId.getD "" = p.deviceId)
      (answer : ∀ state, status = .row state → acceptedRow e.body state result ∈ p.accepted) :
      ParticipantEffect P request p
        { p with signed := (secret, receiptBody e.body now status result) :: p.signed }

variable {p p' : Participant} {response : ParticipantResponse}

theorem verifyCapability_spec {capability : Option Envelope} {body : Body} {keyId : String}
    {secret : Bytes} (h : verifyCapability P capability p = .ok (body, keyId, secret)) :
    ∃ e, capability = some e ∧ body = e.body ∧ Verifies P p.keys e secret ∧
      e.body.targetDeviceId.getD "" = p.deviceId := by
  simp only [verifyCapability] at h
  split at h
  · simp at h
  · rename_i e hcap
    simp only [bind_eq_ok, require_eq_ok] at h
    obtain ⟨_, _, _, htarget, h⟩ := h
    split at h
    · simp at h
    · simp only [bind_eq_ok] at h
      obtain ⟨path, _, h⟩ := h
      split at h
      · simp at h
      · rename_i secret' hstored
        simp only [bind_eq_ok, require_eq_ok, pure_eq_ok, Prod.mk.injEq] at h
        obtain ⟨_, _, valid, hsig, _, rfl, rfl, _, rfl⟩ := h
        exact ⟨e, (Option.filter_eq_some_iff.mp hcap).1, rfl,
          ⟨⟨path, hstored⟩, signatureMatches_true hsig⟩, htarget⟩

/-- A stored row with the immutable columns of a body is the row of that body. -/
theorem acceptedRow_eq {body : Body} {prior : AcceptedGrant}
    (hid : prior.grantId = body.grantId.getD "")
    (himm : prior.immutable = (acceptedRow body .accepted none).immutable) :
    prior = acceptedRow body prior.state prior.result := by
  obtain ⟨_, _, _, _, _, _, _, _, _, _⟩ := prior
  simp only [AcceptedGrant.immutable, acceptedRow, Prod.mk.injEq] at himm hid
  obtain ⟨rfl, rfl, rfl, rfl, rfl, rfl, rfl⟩ := himm
  subst hid
  rfl

theorem acceptCapability_effect {capability : Option Envelope}
    (h : acceptCapability P capability p = .ok (p', response)) :
    ParticipantEffect P (.grantAccept capability) p p' := by
  simp only [acceptCapability, bind_eq_ok] at h
  obtain ⟨⟨body, keyId, secret⟩, hver, h⟩ := h
  obtain ⟨e, rfl, rfl, hverified, htarget⟩ := verifyCapability_spec hver
  simp only [acceptVerified] at h
  split at h
  · simp only [bind_eq_ok, require_eq_ok, pure_eq_ok, Prod.mk.injEq] at h
    obtain ⟨_, _, rfl, _⟩ := h
    exact .unchanged
  · rename_i hnone
    have hfresh : ∀ g ∈ p.accepted, g.grantId ≠ e.body.grantId.getD "" := by
      intro g hg heq
      exact Table.lookup_eq_none.mp hnone g hg (decide_eq_true heq)
    split at h
    · simp only [pure_eq_ok, Prod.mk.injEq] at h
      obtain ⟨rfl, _⟩ := h
      exact .unchanged
    · rename_i hepoch
      split at h
      · simp only [pure_eq_ok, Prod.mk.injEq] at h
        obtain ⟨rfl, _⟩ := h
        exact .unchanged
      · rename_i hfence
        have habove := not_reached_of_open (by simpa using hepoch) hfence
        split at h
        · rename_i hop
          simp only [bind_eq_ok, pure_eq_ok, Prod.mk.injEq] at h
          obtain ⟨p1, hwrite, rfl, _⟩ := h
          exact .accepted e secret .terminal _ _ rfl hverified ⟨keyId, hver⟩ htarget hfresh habove
            (Or.inr ⟨hop, rfl, rfl⟩) hwrite
        · rename_i hop
          split at h
          · simp only [pure_eq_ok, Prod.mk.injEq] at h
            obtain ⟨rfl, _⟩ := h
            exact .unchanged
          · simp only [bind_eq_ok, pure_eq_ok, Prod.mk.injEq] at h
            obtain ⟨p1, hwrite, rfl, _⟩ := h
            exact .accepted e secret .accepted none _ rfl hverified ⟨keyId, hver⟩ htarget hfresh habove
              (Or.inl ⟨hop, rfl, rfl⟩) hwrite

theorem grantStatusReceipt_effect {capability : Option Envelope} {now : Int}
    (h : grantStatusReceipt P capability now p = .ok (p', response)) :
    ParticipantEffect P (.grantStatus capability) p p' := by
  simp only [grantStatusReceipt, bind_eq_ok] at h
  obtain ⟨⟨body, keyId, secret⟩, hver, h⟩ := h
  obtain ⟨e, rfl, rfl, hverified, htarget⟩ := verifyCapability_spec hver
  split at h
  · rw [pure_eq_ok, signStatus, Prod.mk.injEq] at h
    obtain ⟨rfl, _⟩ := h
    exact .signed e secret now .absent none rfl hverified htarget (by simp)
  · rename_i prior hlook
    simp only [bind_eq_ok, require_eq_ok, pure_eq_ok] at h
    obtain ⟨_, himm, h⟩ := h
    rw [signStatus, Prod.mk.injEq] at h
    obtain ⟨rfl, _⟩ := h
    refine .signed e secret now (.row prior.state) prior.result rfl hverified htarget ?_
    intro state hstate
    have hsat := Table.lookup_sat hlook
    have hid : prior.grantId = e.body.grantId.getD "" := of_decide_eq_true hsat
    rw [ReceiptStatus.row.injEq] at hstate
    rw [← hstate, ← acceptedRow_eq hid himm]
    exact Table.lookup_mem hlook

/-- A completed call performs one effect and files its replay record. -/
theorem participantRpc_effect {call : ParticipantCall} {now : Int}
    (h : participantRpc P call now p = .ok (p', response)) :
    ∃ p1, ParticipantEffect P call.request p p1 ∧
      p' = { p1 with rpcRequests := p'.rpcRequests } := by
  simp only [participantRpc] at h
  split at h
  · simp only [bind_eq_ok, require_eq_ok, pure_eq_ok, Prod.mk.injEq] at h
    obtain ⟨_, _, rfl, _⟩ := h
    exact ⟨p, .unchanged, rfl⟩
  · simp only [bind_eq_ok, inserted_eq_ok, pure_eq_ok, Prod.mk.injEq] at h
    obtain ⟨⟨p1, _⟩, hop, _, _, rfl, _⟩ := h
    refine ⟨p1, ?_, rfl⟩
    cases hreq : call.request with
    | grantAccept capability =>
      rw [hreq] at hop
      exact acceptCapability_effect hop
    | grantStatus capability =>
      rw [hreq] at hop
      exact grantStatusReceipt_effect hop

/-- A key import signs at most its own enrollment body and touches no grant. -/
theorem keyImport_effect (e : Enrollment) (p : Participant) :
    ∃ keys enrolled signed, (keyImport P e p).1 =
        { p with keys := keys, enrolled := enrolled, signed := signed } ∧
      (signed = p.signed ∨ signed = (e.secret, enrollmentBody e p) :: p.signed) := by
  unfold keyImport
  split
  · exact ⟨p.keys, p.enrolled, p.signed, rfl, Or.inl rfl⟩
  · split
    · exact ⟨p.keys, p.enrolled, p.signed, rfl, Or.inl rfl⟩
    · rename_i keys _
      dsimp only
      split
      · exact ⟨keys, p.enrolled, p.signed, rfl, Or.inl rfl⟩
      · rename_i enrolled _ hrec
        simp only [recordEnrollment, bind_eq_ok, require_eq_ok] at hrec
        obtain ⟨_, _, _, _, _, _, hrec⟩ := hrec
        split at hrec
        · simp only [bind_eq_ok, require_eq_ok, pure_eq_ok, Prod.mk.injEq] at hrec
          obtain ⟨_, _, rfl, _⟩ := hrec
          exact ⟨keys, _, _, rfl, Or.inr rfl⟩
        · simp only [bind_eq_ok, inserted_eq_ok, pure_eq_ok, Prod.mk.injEq] at hrec
          obtain ⟨table, _, rfl, _⟩ := hrec
          exact ⟨keys, table, _, rfl, Or.inr rfl⟩

/-! ## The store's own invariant -/

theorem mem_lowerGrants {row g : AcceptedGrant} : g ∈ lowerGrants p row ↔
    g ∈ p.accepted ∧ g.clusterId = row.clusterId ∧ g.projectKey = row.projectKey ∧
      g.authorityEpoch = row.authorityEpoch ∧ g.fence < row.fence ∧ g.state ≠ .fenced := by
  unfold lowerGrants
  rw [(List.perm_insertionSort _ _).mem_iff, Table.mem_select, decide_eq_true_eq]

/-- The barrier row answers for every row accepted beneath it, and for no other. -/
def AnswersFor (accepted : Table AcceptedGrant AcceptedGrant.Clash) (barrier : AcceptedGrant)
    (items : List Observation) : Prop :=
  (∀ o ∈ items, ∃ row ∈ accepted, row.grantId = o.grantId) ∧
    ∀ row ∈ accepted, row.clusterId = barrier.clusterId → row.projectKey = barrier.projectKey →
      row.authorityEpoch = barrier.authorityEpoch → row.fence < barrier.fence →
        ∃ o ∈ items, o.grantId = row.grantId

structure ParticipantInv (p : Participant) : Prop where
  floor : ∀ row ∈ p.accepted,
    p.Reached row.clusterId row.projectKey row.authorityEpoch row.fence
  unfenced : ∀ row ∈ p.accepted, row.state ≠ .fenced
  barrier : ∀ row ∈ p.accepted, row.operation = "fence_barrier" →
    ∃ items, row.result = some items ∧ AnswersFor p.accepted row items
  receipts : ∀ sb ∈ p.signed, ∀ state, sb.2.status = some (.row state) →
    acceptedRow sb.2 state sb.2.result ∈ p.accepted

theorem participantInv_init (deviceId : String) : ParticipantInv (Participant.init deviceId) where
  floor := fun row hrow => absurd hrow (Table.not_mem_empty row)
  unfenced := fun row hrow => absurd hrow (Table.not_mem_empty row)
  barrier := fun row hrow => absurd hrow (Table.not_mem_empty row)
  receipts := fun _ hsb => absurd hsb List.not_mem_nil

theorem participantInv_accepted (h : ParticipantInv p) {row : AcceptedGrant}
    (habove : ¬ p.Reached row.clusterId row.projectKey row.authorityEpoch (row.fence + 1))
    (hanswer : AcceptedAs p row) (hwrite : insertAccepted p row = .ok p') :
    ParticipantInv p' := by
  obtain ⟨hmem, hframe, hmono, hreached⟩ := insertAccepted_spec row habove hwrite
  constructor
  · intro g hg
    rcases (hmem g).mp hg with hg | rfl
    · exact hmono _ _ _ _ (h.floor g hg)
    · exact hreached
  · intro g hg
    rcases (hmem g).mp hg with hg | rfl
    · exact h.unfenced g hg
    · rcases hanswer with ⟨_, hstate, _⟩ | ⟨_, hstate, _⟩ <;> simp [hstate]
  · intro b hb hop
    rcases (hmem b).mp hb with hb | rfl
    · obtain ⟨items, hres, hlisted, hcover⟩ := h.barrier b hb hop
      refine ⟨items, hres, ?_, ?_⟩
      · intro o ho
        obtain ⟨g, hg, hname⟩ := hlisted o ho
        exact ⟨g, (hmem g).mpr (Or.inl hg), hname⟩
      · intro g hg hc hk he hlt
        rcases (hmem g).mp hg with hg | rfl
        · exact hcover g hg hc hk he hlt
        · refine absurd ?_ habove
          rw [hc, hk, he]
          exact (h.floor b hb).mono (by omega)
    · rcases hanswer with ⟨hno, _, _⟩ | ⟨_, _, hresult⟩
      · exact absurd hop hno
      · refine ⟨_, hresult, ?_, ?_⟩
        · intro o ho
          obtain ⟨g, hg, rfl⟩ := List.mem_map.mp ho
          exact ⟨g, (hmem g).mpr (Or.inl (mem_lowerGrants.mp hg).1), rfl⟩
        · intro g hg hc hk he hlt
          rcases (hmem g).mp hg with hg | rfl
          · have hlow := mem_lowerGrants.mpr ⟨hg, hc, hk, he, hlt, h.unfenced g hg⟩
            exact ⟨_, List.mem_map_of_mem hlow, rfl⟩
          · omega
  · intro sb hsb state hstatus
    rw [hframe] at hsb
    exact (hmem _).mpr (Or.inl (h.receipts sb hsb state hstatus))

theorem participantEffect_inv {request : ParticipantRequest}
    (heff : ParticipantEffect P request p p') (h : ParticipantInv p) : ParticipantInv p' := by
  cases heff with
  | unchanged => exact h
  | accepted e secret state result _ _ _ _ _ _ above answer write =>
    exact participantInv_accepted h above answer write
  | signed e secret now status result _ _ _ answer =>
    refine ⟨h.floor, h.unfenced, h.barrier, ?_⟩
    intro sb hsb state hstatus
    rcases List.mem_cons.mp hsb with rfl | hsb
    · exact answer state (Option.some.inj hstatus)
    · exact h.receipts sb hsb state hstatus

theorem keyImport_inv (e : Enrollment) (h : ParticipantInv p) :
    ParticipantInv (keyImport P e p).1 := by
  obtain ⟨keys, enrolled, signed, heq, hsigned⟩ := keyImport_effect (P := P) e p
  rw [heq]
  refine ⟨h.floor, h.unfenced, h.barrier, ?_⟩
  intro sb hsb state hstatus
  rcases hsigned with rfl | rfl
  · exact h.receipts sb hsb state hstatus
  · rcases List.mem_cons.mp hsb with rfl | hsb
    · simp [enrollmentBody] at hstatus
    · exact h.receipts sb hsb state hstatus

end Remrun.Runner
