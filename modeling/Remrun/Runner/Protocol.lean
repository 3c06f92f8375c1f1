import Remrun.Lib.Transition
import Remrun.Runner.Acceptance
import Remrun.Runner.Grants

/-!
# One authority and its targets

The coordination protocol as one system: the authority store, the calls that have read its
metadata but not yet opened their transaction, and a participant store for every device.
Requests and envelopes may be lost, duplicated, delayed and re-wrapped at will; the one
assumption is that a signature which verifies was put on that body with that key.
-/

namespace Remrun.Runner

open Relational
set_option autoImplicit false

structure System where
  authority : Authority
  inFlight : List (AuthorityCall × Meta)
  participants : String → Participant

def System.init (clusterId coordinatorDeviceId : String) (leaseSeconds : Int) : System where
  authority := Authority.init clusterId coordinatorDeviceId leaseSeconds
  inFlight := []
  participants := Participant.init

def System.setParticipant (s : System) (d : String) (p : Participant) : System :=
  { s with participants := Function.update s.participants d p }

@[simp] theorem setParticipant_authority (s : System) (d : String) (p : Participant) :
    (s.setParticipant d p).authority = s.authority := rfl

@[simp] theorem setParticipant_inFlight (s : System) (d : String) (p : Participant) :
    (s.setParticipant d p).inFlight = s.inFlight := rfl

@[simp] theorem setParticipant_self (s : System) (d : String) (p : Participant) :
    (s.setParticipant d p).participants d = p := by
  simp [System.setParticipant]

theorem setParticipant_other (s : System) {d d' : String} (p : Participant) (h : d' ≠ d) :
    (s.setParticipant d p).participants d' = s.participants d' := by
  simp [System.setParticipant, h]

/-- What holds of the replaced store and of every store before holds of every store after. -/
theorem setParticipant_forall {s : System} {d : String} {p : Participant}
    {Q : String → Participant → Prop} (hself : Q d p) (hrest : ∀ d', Q d' (s.participants d')) :
    ∀ d', Q d' ((s.setParticipant d p).participants d') := by
  intro d'
  by_cases heq : d' = d
  · subst heq
    rw [setParticipant_self]
    exact hself
  · rw [setParticipant_other s p heq]
    exact hrest d'

inductive Event where
  /-- A call opens the authority store and reads `authority_meta`. -/
  | authorityOpen (call : AuthorityCall)
  /-- The call at this position runs its transaction on the metadata it read. -/
  | authorityCommit (position : Nat) (r : Readings)
  | participantCall (deviceId : String) (call : ParticipantCall) (now : Int)
  | keyImport (deviceId : String) (enrollment : Enrollment)

section Step
variable (P : Prims)

def System.step (s : System) : Event → System
  | .authorityOpen call =>
    match openAuthorityStore call s.authority with
    | .ok info => { s with inFlight := s.inFlight ++ [(call, info)] }
    | .error _ => s
  | .authorityCommit position r =>
    match s.inFlight[position]? with
    | some (call, info) =>
      { s with
        authority := committed s.authority (authorityTransaction P call info r s.authority)
        inFlight := s.inFlight.eraseIdx position }
    | none => s
  | .participantCall deviceId call now =>
    s.setParticipant deviceId (committed (s.participants deviceId)
      (participantRpc P call now (s.participants deviceId)))
  | .keyImport deviceId enrollment =>
    s.setParticipant deviceId (keyImport P enrollment (s.participants deviceId)).1

/-- Some party of the system put a signature on the body with this secret. -/
def System.Signed (s : System) (secret : Bytes) (body : Body) : Prop :=
  (secret, body) ∈ s.authority.signed ∨ ∃ d, (secret, body) ∈ (s.participants d).signed

/-- Under the verifier's keys, the envelope's signature matches only what was signed. -/
def System.Authentic (s : System) (keys : KeyFiles) (e : Envelope) : Prop :=
  ∀ secret, Verifies P keys e secret → s.Signed secret e.body

/-- What the environment cannot do: make up a signature. -/
def System.Genuine (s : System) : Event → Prop
  | .authorityOpen _ => True
  | .authorityCommit position _ => ∀ call info, s.inFlight[position]? = some (call, info) →
    ∀ e, call.request.envelope = some e → s.Authentic P s.authority.keys e
  | .participantCall deviceId call _ => ∀ e, call.request.capability = some e →
    s.Authentic P (s.participants deviceId).keys e
  | .keyImport _ _ => True

/-- The system after a list of events. -/
def System.run (s : System) (events : List Event) : System :=
  Transition.run (System.step P) s events

/-- No event of the run presents a made-up signature. -/
def System.GenuineRun (s : System) (events : List Event) : Prop :=
  Transition.Along (System.step P) (System.Genuine P) s events

end Step

variable {P : Prims}

/-! ## Calls with nothing in between -/

/-- The events of calls that each run from opening the store to the commit. -/
def Event.rpcs (calls : List (AuthorityCall × Readings)) : List Event :=
  calls.flatMap fun call => [.authorityOpen call.1, .authorityCommit 0 call.2]

theorem run_rpc {s : System} (hidle : s.inFlight = []) (call : AuthorityCall × Readings) :
    (s.step P (.authorityOpen call.1)).step P (.authorityCommit 0 call.2) =
      { s with authority := authorityStep P s.authority call } := by
  obtain ⟨authority, inFlight, participants⟩ := s
  have hnil : inFlight = [] := hidle
  subst hnil
  simp only [System.step, authorityStep, authorityRpc]
  cases hopen : openAuthorityStore call.1 authority with
  | error err => simp [committed, Bind.bind, Except.bind]
  | ok info => simp [Bind.bind, Except.bind]

/-- Such calls are a run of the authority store alone. -/
theorem run_rpcs {s : System} (hidle : s.inFlight = []) (calls : List (AuthorityCall × Readings)) :
    s.run P (Event.rpcs calls) =
      { s with authority := Transition.run (authorityStep P) s.authority calls } := by
  induction calls generalizing s with
  | nil => rfl
  | cons call rest ih =>
    have hnext : s.run P (Event.rpcs (call :: rest)) =
        ((s.step P (.authorityOpen call.1)).step P (.authorityCommit 0 call.2)).run P
          (Event.rpcs rest) := rfl
    rw [hnext, run_rpc hidle]
    exact ih (s := { s with authority := authorityStep P s.authority call }) hidle

theorem genuine_rpcs {s : System} (hidle : s.inFlight = [])
    {calls : List (AuthorityCall × Readings)}
    (henv : ∀ call ∈ calls, ∀ e, call.1.request.envelope = some e → ∀ db : Authority,
      System.Authentic P { s with authority := db } db.keys e) :
    s.GenuineRun P (Event.rpcs calls) := by
  induction calls generalizing s with
  | nil => trivial
  | cons call rest ih =>
    refine ⟨trivial, ?_, ?_⟩
    · intro call' info hwaiting e he
      have hcall : call' = call.1 := by
        simp only [System.step] at hwaiting
        split at hwaiting
        · simp only [hidle, List.nil_append, List.getElem?_cons_zero, Option.some.injEq,
            Prod.mk.injEq] at hwaiting
          exact hwaiting.1.symm
        · simp [hidle] at hwaiting
      subst hcall
      have hauth := henv call List.mem_cons_self e he s.authority
      simp only [System.step]
      split
      · exact hauth
      · exact hauth
    · rw [run_rpc hidle]
      exact ih (s := { s with authority := authorityStep P s.authority call }) hidle
        fun c hc => henv c (List.mem_cons_of_mem _ hc)

/-! ## Where signed bodies come from -/

/-- The body carries the columns of the grant, each under its own key. -/
structure Body.Describes (body : Body) (clusterId : String) (g : GrantIdentity) : Prop where
  kind : body.kind ≠ some .keyEnrollment
  clusterId : body.clusterId = some clusterId
  authorityEpoch : body.authorityEpoch = some g.authorityEpoch
  grantId : body.grantId = some g.grantId
  projectKey : body.projectKey = some g.projectKey
  leaseId : body.leaseId = some g.leaseId
  fence : body.fence = some g.fence
  targetDeviceId : body.targetDeviceId = some g.targetDeviceId
  operation : body.operation = some g.operation
  operationId : body.operationId = some g.operationId
  requestSha256 : body.requestSha256 = some g.requestSha256

/-- An enrollment receipt, or a status receipt made out for one. -/
structure Body.Enrolls (body : Body) : Prop where
  kind : body.kind = some .keyEnrollment
  grantId : body.grantId = none
  projectKey : body.projectKey = none
  operation : body.operation = none

/-- A body of the system: it describes a grant of the ledger or enrolls a key. -/
def Originates (db : Authority) (body : Body) : Prop :=
  (∃ g ∈ db.grants, body.Describes db.info.clusterId g.identity) ∨ body.Enrolls

theorem capabilityBody_describes (body : GrantIssueBody) (tokenHash : String) (info : Meta)
    (grantId : String) (capability : Envelope) :
    (capabilityBody body info grantId).Describes info.clusterId
      (freshGrant P body tokenHash info grantId capability).identity :=
  ⟨by simp [capabilityBody], rfl, rfl, rfl, rfl, rfl, rfl, rfl, rfl, rfl, rfl⟩

theorem enrollmentBody_enrolls (e : Enrollment) (p : Participant) :
    (enrollmentBody e p).Enrolls := ⟨rfl, rfl, rfl, rfl⟩

theorem Body.Describes.receipt {body : Body} {clusterId : String} {g : GrantIdentity}
    (h : body.Describes clusterId g) (now : Int) (status : ReceiptStatus) (result : GrantResult) :
    (receiptBody body now status result).Describes clusterId g where
  kind := by
    unfold receiptBody
    cases hk : body.kind with
    | none => simp
    | some k => simpa [hk] using h.kind
  clusterId := h.clusterId
  authorityEpoch := h.authorityEpoch
  grantId := h.grantId
  projectKey := h.projectKey
  leaseId := h.leaseId
  fence := h.fence
  targetDeviceId := h.targetDeviceId
  operation := h.operation
  operationId := h.operationId
  requestSha256 := h.requestSha256

theorem Body.Enrolls.receipt {body : Body} (h : body.Enrolls) (now : Int)
    (status : ReceiptStatus) (result : GrantResult) :
    (receiptBody body now status result).Enrolls where
  kind := by simp [receiptBody, h.kind]
  grantId := h.grantId
  projectKey := h.projectKey
  operation := h.operation

theorem Originates.receipt {db : Authority} {body : Body} (h : Originates db body) (now : Int)
    (status : ReceiptStatus) (result : GrantResult) :
    Originates db (receiptBody body now status result) := by
  rcases h with ⟨g, hg, hdesc⟩ | henr
  · exact Or.inl ⟨g, hg, hdesc.receipt now status result⟩
  · exact Or.inr (henr.receipt now status result)

theorem Originates.advance {db db' : Authority} {body : Body} (h : Originates db body)
    (hadv : Advance db db') (hcluster : db'.info.clusterId = db.info.clusterId) :
    Originates db' body := by
  rcases h with ⟨g, hg, hdesc⟩ | henr
  · obtain ⟨g', hg', hid, _⟩ := hadv.grants g hg
    refine Or.inl ⟨g', hg', ?_⟩
    rw [hid, hcluster]
    exact hdesc
  · exact Or.inr henr

/-- An accepted row carries the columns of the grant. -/
structure AcceptedGrant.Records (row : AcceptedGrant) (clusterId : String) (g : GrantIdentity) :
    Prop where
  grantId : row.grantId = g.grantId
  clusterId : row.clusterId = clusterId
  projectKey : row.projectKey = g.projectKey
  authorityEpoch : row.authorityEpoch = g.authorityEpoch
  fence : row.fence = g.fence
  operation : row.operation = g.operation
  operationId : row.operationId = g.operationId
  requestSha256 : row.requestSha256 = g.requestSha256

/-- The row an enrollment receipt leaves when it is presented as a capability. -/
def AcceptedGrant.Blank (row : AcceptedGrant) : Prop := row.grantId = "" ∧ row.projectKey = ""

theorem Body.Describes.records {body : Body} {clusterId : String} {g : GrantIdentity}
    (h : body.Describes clusterId g) (state : AcceptedState) (result : GrantResult) :
    (acceptedRow body state result).Records clusterId g := by
  constructor <;>
    simp [acceptedRow, h.clusterId, h.authorityEpoch, h.grantId, h.projectKey, h.fence,
      h.operation, h.operationId, h.requestSha256]

theorem Body.Enrolls.blank {body : Body} (h : body.Enrolls) (state : AcceptedState)
    (result : GrantResult) : (acceptedRow body state result).Blank := by
  constructor <;> simp [acceptedRow, h.grantId, h.projectKey]

/-- What one event can do to the system. -/
inductive System.Move (P : Prims) (s : System) : Event → System → Prop where
  | idle (event : Event) : Move P s event s
  | opened (call : AuthorityCall) :
      Move P s (.authorityOpen call)
        { s with inFlight := s.inFlight ++ [(call, s.authority.info)] }
  | committed (position : Nat) (r : Readings) (call : AuthorityCall) (info : Meta)
      (db : Authority) (records : Table (RpcRecord Response) RpcRecord.Clash)
      (waiting : (call, info) ∈ s.inFlight) (effect : Effect P call.request info r s.authority db)
      (authentic : ∀ e, call.request.envelope = some e → s.Authentic P s.authority.keys e) :
      Move P s (.authorityCommit position r)
        { s with
          authority := { db with rpcRequests := records }
          inFlight := s.inFlight.eraseIdx position }
  | dropped (position : Nat) (r : Readings) :
      Move P s (.authorityCommit position r) { s with inFlight := s.inFlight.eraseIdx position }
  | answered (d : String) (call : ParticipantCall) (now : Int) (p : Participant)
      (records : Table (RpcRecord ParticipantResponse) RpcRecord.Clash)
      (effect : ParticipantEffect P call.request (s.participants d) p)
      (authentic : ∀ e, call.request.capability = some e →
        s.Authentic P (s.participants d).keys e) :
      Move P s (.participantCall d call now)
        (s.setParticipant d { p with rpcRequests := records })
  | enrolled (d : String) (e : Enrollment) :
      Move P s (.keyImport d e)
        (s.setParticipant d (keyImport P e (s.participants d)).1)

theorem step_move {s : System} {event : Event} (hgen : s.Genuine P event) :
    System.Move P s event (s.step P event) := by
  cases event with
  | authorityOpen call =>
    simp only [System.step]
    split
    · rename_i info hopen
      simp only [openAuthorityStore, bind_eq_ok, require_eq_ok, pure_eq_ok] at hopen
      obtain ⟨_, _, _, _, rfl⟩ := hopen
      exact .opened call
    · exact .idle _
  | authorityCommit position r =>
    simp only [System.step]
    split
    · rename_i call info hwaiting
      have hmem : (call, info) ∈ s.inFlight := List.mem_of_getElem? hwaiting
      rcases committed_cases s.authority (authorityTransaction P call info r s.authority) with
        heq | ⟨response, hok⟩
      · rw [heq]
        exact .dropped position r
      · obtain ⟨db, heff, hdb⟩ := authorityTransaction_effect hok
        rw [hdb]
        exact .committed position r call info db _ hmem heff (hgen call info hwaiting)
    · exact .idle _
  | participantCall d call now =>
    simp only [System.step]
    rcases committed_cases (s.participants d) (participantRpc P call now (s.participants d)) with
      heq | ⟨response, hok⟩
    · have hsame : s.setParticipant d (s.participants d) = s := by
        unfold System.setParticipant
        rw [Function.update_eq_self]
      rw [heq, hsame]
      exact .idle _
    · obtain ⟨p, heff, hp⟩ := participantRpc_effect hok
      rw [hp]
      exact .answered d call now p _ heff hgen
  | keyImport d e => exact .enrolled d e

/-- What every party knows about the ledger and the signatures, whatever is in flight. -/
structure System.OriginInv (s : System) : Prop where
  ledger : GrantInv s.authority
  inFlight : ∀ c ∈ s.inFlight, c.2.clusterId = s.authority.info.clusterId
  device : ∀ d, (s.participants d).deviceId = d
  issued : ∀ sb ∈ s.authority.signed, sb.2.status = none ∧
    ∃ g ∈ s.authority.grants, sb.2.Describes s.authority.info.clusterId g.identity
  answered : ∀ d, ∀ sb ∈ (s.participants d).signed,
    sb.2.targetDeviceId = some d ∧ Originates s.authority sb.2

theorem originInv_init (clusterId deviceId : String) (leaseSeconds : Int) :
    (System.init clusterId deviceId leaseSeconds).OriginInv where
  ledger := grantInv_init clusterId deviceId leaseSeconds
  inFlight := fun _ hc => absurd hc List.not_mem_nil
  device := fun _ => rfl
  issued := fun _ hsb => absurd hsb List.not_mem_nil
  answered := fun _ _ hsb => absurd hsb List.not_mem_nil

theorem System.OriginInv.originates {s : System} (h : s.OriginInv) {secret : Bytes} {body : Body}
    (hsigned : s.Signed secret body) : Originates s.authority body := by
  rcases hsigned with hin | ⟨d, hin⟩
  · exact Or.inl (h.issued _ hin).2
  · exact (h.answered d _ hin).2

/-- A signed body names its target. -/
theorem System.OriginInv.target {s : System} (h : s.OriginInv) {secret : Bytes} {body : Body}
    (hsigned : s.Signed secret body) {d : String} (htarget : body.targetDeviceId.getD "" = d) :
    body.targetDeviceId = some d := by
  have hsome : ∀ t, body.targetDeviceId = some t → body.targetDeviceId = some d := by
    intro t ht
    rw [ht, Option.getD_some] at htarget
    rw [ht, htarget]
  rcases hsigned with hin | ⟨d', hin⟩
  · obtain ⟨_, g, _, hdesc⟩ := h.issued _ hin
    exact hsome _ hdesc.targetDeviceId
  · exact hsome d' (h.answered d' _ hin).1

/-- A status receipt was signed by the target it names. -/
theorem System.OriginInv.receipt_signer {s : System} (h : s.OriginInv) {secret : Bytes}
    {body : Body} (hsigned : s.Signed secret body) {status : ReceiptStatus}
    (hstatus : body.status = some status) :
    ∃ d, body.targetDeviceId = some d ∧ (secret, body) ∈ (s.participants d).signed := by
  rcases hsigned with hin | ⟨d, hin⟩
  · have hnone := (h.issued _ hin).1
    rw [hstatus] at hnone
    exact absurd hnone (by simp)
  · exact ⟨d, (h.answered d _ hin).1, hin⟩

/-- A new signature of the authority is on the capability of a grant it inserted. -/
theorem LedgerEffect.signed_cases {request : AuthorityRequest} {info : Meta} {r : Readings}
    {db : Authority} {grants : Table Grant Grant.Clash} {signed : List (Bytes × Body)}
    (h : LedgerEffect P request info r db grants signed) :
    ∀ sb ∈ signed, sb ∈ db.signed ∨
      (sb.2.status = none ∧ ∃ g ∈ grants, sb.2.Describes info.clusterId g.identity) := by
  intro sb hsb
  cases h with
  | kept => exact Or.inl hsb
  | imported => exact Or.inl hsb
  | issued body tokenHash lease secret capability _ live insert =>
    rcases List.mem_cons.mp hsb with rfl | hsb
    · exact Or.inr ⟨rfl, _, (Table.mem_insert insert).mpr (Or.inr rfl),
        capabilityBody_describes body tokenHash info r.uuid capability⟩
    · exact Or.inl hsb

theorem originInv_committed {s : System} (h : s.OriginInv) {request : AuthorityRequest}
    {info : Meta} {r : Readings} {db : Authority} {inFlight : List (AuthorityCall × Meta)}
    (records : Table (RpcRecord Response) RpcRecord.Clash)
    (hinfo : info.clusterId = s.authority.info.clusterId) (hsub : inFlight ⊆ s.inFlight)
    (heff : Effect P request info r s.authority db) :
    System.OriginInv
      { s with authority := { db with rpcRequests := records }, inFlight := inFlight } := by
  obtain ⟨hledger, hadv⟩ := effect_grantInv heff h.ledger
  have hcluster := effect_cluster heff
  refine ⟨hledger.replay records, ?_, h.device, ?_, ?_⟩
  · intro c hc
    rw [h.inFlight c (hsub hc)]
    exact hcluster.symm
  · intro sb hsb
    rcases (effect_ledger heff).signed_cases sb hsb with hold | ⟨hnone, g, hg, hdesc⟩
    · obtain ⟨hnone, g, hg, hdesc⟩ := h.issued sb hold
      obtain ⟨g', hg', hid, _⟩ := hadv.grants g hg
      refine ⟨hnone, g', hg', ?_⟩
      rw [hid, show db.info.clusterId = s.authority.info.clusterId from hcluster]
      exact hdesc
    · refine ⟨hnone, g, hg, ?_⟩
      rw [show db.info.clusterId = info.clusterId from hcluster.trans hinfo.symm]
      exact hdesc
  · intro d sb hsb
    exact ⟨(h.answered d sb hsb).1,
      (h.answered d sb hsb).2.advance (hadv.replay records) hcluster⟩

/-- Replacing one participant store by one that signed only originating bodies. -/
theorem originInv_participant {s : System} (h : s.OriginInv) {d : String} {p : Participant}
    (hdevice : p.deviceId = d)
    (hsigned : ∀ sb ∈ p.signed, sb ∈ (s.participants d).signed ∨
      (sb.2.targetDeviceId = some d ∧ Originates s.authority sb.2)) :
    (s.setParticipant d p).OriginInv := by
  refine ⟨h.ledger, h.inFlight, ?_, h.issued, ?_⟩
  · exact setParticipant_forall (Q := fun d p => p.deviceId = d) hdevice h.device
  refine setParticipant_forall (Q := fun d p => ∀ sb ∈ p.signed,
    sb.2.targetDeviceId = some d ∧ Originates s.authority sb.2) ?_ h.answered
  intro sb hsb
  rcases hsigned sb hsb with hold | hnew
  · exact h.answered d sb hold
  · exact hnew

theorem insertAccepted_frame {p p' : Participant} {row : AcceptedGrant}
    (h : insertAccepted p row = .ok p') :
    p'.deviceId = p.deviceId ∧ p'.signed = p.signed := by
  simp only [insertAccepted, bind_eq_ok, pure_eq_ok] at h
  obtain ⟨_, _, rfl⟩ := h
  exact ⟨rfl, rfl⟩

theorem move_originInv {s s' : System} {event : Event} (hmove : System.Move P s event s')
    (h : s.OriginInv) : s'.OriginInv := by
  cases hmove with
  | idle => exact h
  | opened call =>
    refine ⟨h.ledger, ?_, h.device, h.issued, h.answered⟩
    intro c hc
    rcases List.mem_append.mp hc with hc | hc
    · exact h.inFlight c hc
    · rw [List.mem_singleton.mp hc]
  | committed position r call info db records waiting effect authentic =>
    exact originInv_committed h records (h.inFlight _ waiting) (List.eraseIdx_subset) effect
  | dropped position r =>
    exact ⟨h.ledger, fun c hc => h.inFlight c (List.eraseIdx_subset hc), h.device,
      h.issued, h.answered⟩
  | answered d call now p records effect authentic =>
    cases effect with
    | unchanged => exact originInv_participant h (h.device d) fun sb hsb => Or.inl hsb
    | accepted e secret state result _ _ _ _ _ _ _ _ write =>
      obtain ⟨hdev, hsig⟩ := insertAccepted_frame write
      refine originInv_participant h (hdev.trans (h.device d)) fun sb hsb => Or.inl ?_
      rw [← hsig]
      exact hsb
    | signed e secret now' status result delivered verified target answer =>
      have hs := authentic e delivered secret verified
      refine originInv_participant h (h.device d) fun sb hsb => ?_
      rcases List.mem_cons.mp hsb with rfl | hsb
      · refine Or.inr ⟨?_, (h.originates hs).receipt now' status result⟩
        exact h.target hs (target.trans (h.device d))
      · exact Or.inl hsb
  | enrolled d e =>
    obtain ⟨keys, enrolled, signed, heq, hsigned⟩ :=
      keyImport_effect (P := P) e (s.participants d)
    rw [heq]
    refine originInv_participant h (h.device d) fun sb hsb => ?_
    rcases hsigned with rfl | rfl
    · exact Or.inl hsb
    · rcases List.mem_cons.mp hsb with rfl | hsb
      · exact Or.inr ⟨congrArg some (h.device d), Or.inr (enrollmentBody_enrolls e _)⟩
      · exact Or.inl hsb

theorem move_advance {s s' : System} {event : Event} (hmove : System.Move P s event s')
    (h : s.OriginInv) : Advance s.authority s'.authority := by
  cases hmove with
  | committed position r call info db records waiting effect =>
    exact (effect_grantInv effect h.ledger).2.replay records
  | idle => exact Advance.refl _
  | opened => exact Advance.refl _
  | dropped => exact Advance.refl _
  | answered => exact Advance.refl _
  | enrolled => exact Advance.refl _

/-- The presented envelope behind a row that a step inserted. -/
structure System.Insertion (P : Prims) (s : System) (d : String) (row : AcceptedGrant)
    (e : Envelope) : Prop where
  passed : ∃ keyId secret,
    verifyCapability P (some e) (s.participants d) = .ok (e.body, keyId, secret)
  signed : ∃ secret, s.Signed secret e.body
  columns : ∃ state result, row = acceptedRow e.body state result
  target : e.body.targetDeviceId.getD "" = d
  fresh : ∀ g ∈ (s.participants d).accepted, g.grantId ≠ row.grantId
  above : ¬ (s.participants d).Reached row.clusterId row.projectKey row.authorityEpoch
    (row.fence + 1)

/-- Rows enter a store only through an accepted capability. -/
theorem move_new_row {s s' : System} {event : Event} (hmove : System.Move P s event s')
    (h : s.OriginInv) {d : String} {row : AcceptedGrant}
    (hrow : row ∈ (s'.participants d).accepted) (hnew : row ∉ (s.participants d).accepted) :
    ∃ call now e, event = .participantCall d call now ∧ call.request = .grantAccept (some e) ∧
      s.Insertion P d row e := by
  cases hmove with
  | idle => exact absurd hrow hnew
  | opened => exact absurd hrow hnew
  | committed => exact absurd hrow hnew
  | dropped => exact absurd hrow hnew
  | enrolled d' e =>
    obtain ⟨keys, enrolled, signed, heq, _⟩ := keyImport_effect (P := P) e (s.participants d')
    rw [heq] at hrow
    by_cases hd : d = d'
    · subst hd
      rw [setParticipant_self] at hrow
      exact absurd hrow hnew
    · rw [setParticipant_other _ _ hd] at hrow
      exact absurd hrow hnew
  | answered d' call now p records effect authentic =>
    by_cases hd : d = d'
    · subst hd
      rw [setParticipant_self] at hrow
      cases effect with
      | unchanged => exact absurd hrow hnew
      | signed => exact absurd hrow hnew
      | accepted e secret state result _ delivered verified passed target fresh above answer write =>
        obtain ⟨hmem, _⟩ := insertAccepted_spec (acceptedRow e.body state result) above
          write
        rcases (hmem row).mp hrow with hold | rfl
        · exact absurd hold hnew
        · have hsigned := authentic e (by rw [delivered]; rfl) secret verified
          obtain ⟨keyId, hpassed⟩ := passed
          exact ⟨call, now, e, rfl, delivered, ⟨keyId, secret, hpassed⟩, ⟨secret, hsigned⟩,
            ⟨state, result, rfl⟩, target.trans (h.device d), fresh, above⟩
    · rw [setParticipant_other _ _ hd] at hrow
      exact absurd hrow hnew

/-! ## A small instance

One project and one target under primitives that only encode: the bytes of a digest are
read as characters, and a signature is the secret with a tag of the message kind. -/

def latin1Encode (raw : Bytes) : String := String.ofList (raw.map fun b => Char.ofNat b.toNat)

def latin1Decode (text : String) : Bytes := text.toList.map fun c => UInt8.ofNat c.toNat

def scalarText : Scalar → String
  | .null => "null"
  | .int value => toString value
  | .str value => value

def samplePrims : Prims where
  sha256 := latin1Encode
  hmac := fun secret body => secret ++ [if body.kind = some .keyEnrollment then 1 else 0]
  b64url := latin1Encode
  urlsafeB64decode := fun text => some (latin1Decode text)
  requestDigest := fun fields => String.join (fields.map fun f => f.1 ++ scalarText f.2)
  envelopeDigest := fun e => e.sig
  isalnum := fun text => text ≠ "" && text.toList.all Char.isAlphanum

def sampleKey : String := String.ofList (List.replicate 64 'a')
def sampleToken : String := String.ofList (List.replicate 32 't')
def sampleSecret : Bytes := List.replicate 32 115

def sampleReadings (uuid : String) (h : uuid ≠ "") : Readings := ⟨10, uuid, sampleSecret, h⟩

def sampleCall (rpcId : String) (request : AuthorityRequest) : AuthorityCall :=
  ⟨rpcId, "digest", "c1", "coordinator", request⟩

/-- Registering the project and preparing a key for the target `t1`. -/
def samplePrepare : List (AuthorityCall × Readings) := [
  (sampleCall "1" (.projectRegister ⟨sampleKey, "p1", sampleKey⟩), sampleReadings "u1" (by decide)),
  (sampleCall "2" (.targetKeyCreate "t1"), sampleReadings "k1" (by decide))]

def sampleEnrollment : Enrollment :=
  ⟨"c1", "t1", 1, "k1", latin1Encode sampleSecret, sampleSecret⟩

/-- The receipt the target's key import prints. -/
def sampleEnrollmentReceipt : Envelope :=
  sign samplePrims sampleSecret "" (enrollmentBody sampleEnrollment (Participant.init "t1"))

/-- Finalizing the key and acquiring the project, in phase `NORMAL` under fence 1. -/
def sampleAcquire : List (AuthorityCall × Readings) := [
  (sampleCall "3" (.targetKeyFinalize (some sampleEnrollmentReceipt)),
    sampleReadings "u3" (by decide)),
  (sampleCall "4" (.acquire ⟨"c1", sampleKey, sampleKey, "a1", some sampleToken, "ctl", "rep",
    none, none⟩), sampleReadings "l1" (by decide))]

def sampleIssueBody : GrantIssueBody :=
  ⟨⟨sampleKey, "l1", 1, some sampleToken⟩, "q1", "t1", "run", "op1", sampleKey⟩

def sampleIssue : List (AuthorityCall × Readings) := [
  (sampleCall "5" (.grantIssue sampleIssueBody), sampleReadings "g1" (by decide))]

def sampleCapability : Envelope :=
  sign samplePrims sampleSecret "k1"
    (capabilityBody sampleIssueBody ⟨"c1", "coordinator", 1, false, 60⟩ "g1")

def sampleSystem : System := System.init "c1" "coordinator" 60

def sampleEnrolled : List Event :=
  Event.rpcs samplePrepare ++ [.keyImport "t1" sampleEnrollment] ++ Event.rpcs sampleAcquire

/-- The target's store once the key is imported. -/
def sampleTarget : Participant := (keyImport samplePrims sampleEnrollment (Participant.init "t1")).1

theorem sampleEnrolled_run : sampleSystem.run samplePrims sampleEnrolled =
    System.setParticipant { sampleSystem with
      authority := authorityRun samplePrims "c1" "coordinator" 60 (samplePrepare ++ sampleAcquire) }
      "t1" sampleTarget := by
  unfold sampleEnrolled System.run
  rw [Transition.run_append, Transition.run_append]
  rw [show Transition.run (System.step samplePrims) sampleSystem (Event.rpcs samplePrepare) = _ from
    run_rpcs rfl samplePrepare]
  rw [authorityRun, Transition.run_append]
  exact run_rpcs rfl sampleAcquire

/-- A signature of the sample key verifies under no other secret. -/
theorem sample_verifies {keys : KeyFiles} {keyId : String} {body : Body} {secret : Bytes}
    (hsig : latin1Decode (latin1Encode (samplePrims.hmac sampleSecret body)) =
      samplePrims.hmac sampleSecret body)
    (h : Verifies samplePrims keys (sign samplePrims sampleSecret keyId body) secret) :
    secret = sampleSecret := by
  have hdec : some (latin1Decode (latin1Encode (samplePrims.hmac sampleSecret body))) =
    some (samplePrims.hmac secret body) := h.2
  rw [hsig, Option.some.injEq] at hdec
  exact (List.append_cancel_right hdec).symm

theorem sampleEnrolled_genuine : sampleSystem.GenuineRun samplePrims sampleEnrolled := by
  refine Transition.along_append.mpr ⟨Transition.along_append.mpr ⟨?_, trivial, trivial⟩, ?_⟩
  · apply genuine_rpcs rfl
    intro call hcall e he
    fin_cases hcall <;> simp [AuthorityRequest.envelope, sampleCall] at he
  · rw [Transition.run_append, show Transition.run (System.step samplePrims) sampleSystem
      (Event.rpcs samplePrepare) = _ from run_rpcs rfl samplePrepare]
    apply genuine_rpcs rfl
    intro call hcall e he db secret hver
    fin_cases hcall
    · have heq : e = sampleEnrollmentReceipt := by
        simpa [AuthorityRequest.envelope, sampleCall] using he.symm
      subst heq
      rw [sample_verifies (by decide) hver]
      refine Or.inr ⟨"t1", ?_⟩
      change _ ∈ sampleTarget.signed
      decide
    · simp [AuthorityRequest.envelope, sampleCall] at he

/-- The accept of the sample capability, and the row it leaves. -/
def sampleAccept : Event :=
  .participantCall "t1" ⟨"6", "digest", .grantAccept (some sampleCapability)⟩ 20

def sampleRow : AcceptedGrant := acceptedRow sampleCapability.body .accepted none

theorem sampleIssue_run :
    (sampleSystem.run samplePrims sampleEnrolled).run samplePrims (Event.rpcs sampleIssue) =
      System.setParticipant { sampleSystem with
        authority := authorityRun samplePrims "c1" "coordinator" 60
          (samplePrepare ++ sampleAcquire ++ sampleIssue) } "t1" sampleTarget := by
  rw [sampleEnrolled_run, run_rpcs rfl]
  unfold authorityRun
  rw [Transition.run_append]
  rfl

theorem sampleAccept_genuine : sampleSystem.GenuineRun samplePrims
    (sampleEnrolled ++ (Event.rpcs sampleIssue ++ [sampleAccept])) := by
  refine Transition.along_append.mpr ⟨sampleEnrolled_genuine, Transition.along_append.mpr ⟨?_, ?_⟩⟩
  · apply genuine_rpcs (s := sampleSystem.run samplePrims sampleEnrolled)
    · rw [sampleEnrolled_run]
      rfl
    · intro call hcall e he
      fin_cases hcall
      simp [AuthorityRequest.envelope, sampleCall] at he
  · refine ⟨?_, trivial⟩
    intro e he secret hver
    have heq : e = sampleCapability := by
      simpa [ParticipantRequest.capability] using he.symm
    subst heq
    rw [sample_verifies (by decide) hver]
    left
    change _ ∈ ((sampleSystem.run samplePrims sampleEnrolled).run samplePrims
      (Event.rpcs sampleIssue)).authority.signed
    rw [sampleIssue_run]
    decide +kernel

end Remrun.Runner
