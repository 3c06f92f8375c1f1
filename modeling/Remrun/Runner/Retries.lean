import Remrun.Runner.Exclusivity
import Remrun.Runner.Replays

/-!
# Retried RPCs

A reply may be lost at any step. A call sent again under its `rpc_id` is replayed; one of the
four creating operations sent again under a fresh id finds the row its first success created,
and names it. The digest the client sends is the one the target recomputes.
-/

namespace Remrun.Runner

open Relational JsonText
set_option autoImplicit false

universe u

variable {F : Type u} {W : Wire F} {P : Prims} {L : LedgerPrims}

/-! ## What a run shows of its calls -/

/-- The response of an operation. -/
inductive Result where
  | authority (response : Response)
  | target (response : TargetResponse)

/-- The operation an event performs under an `rpc_id` without a record, with its response. -/
def StateRoot.performed (W : Wire F) (P : Prims) (L : LedgerPrims) (s : StateRoot) :
    RpcEvent F → Option (Operation × Result)
  | .commit position r =>
    match s.inFlight[position]?, s.authority with
    | some (call, info), some db =>
      match db.rpcRequests.lookup fun q => q.rpcId = call.rpcId,
          authorityTransaction P call info r db with
      | none, .ok (_, response) => some (.authority call.clusterId call.request, .authority response)
      | _, _ => none
    | _, _ => none
  | .target header request r =>
    match W.receiveTarget header request with
    | some operation =>
      match s.records.lookup fun q => q.rpcId = header.rpcId,
          s.transaction W P L header operation request r with
      | none, .ok (_, response) => some (operation, .target response)
      | _, _ => none
    | none => none
  | _ => none

/-- What identifies a created row. -/
inductive Creation where
  | lease (leaseId projectKey acquireId : String) (fence : Int)
  | grant (capability : Envelope)
  | accepted (grantId : String) (columns : String × String × Int × Int × String × String × String)
  | allocation (columns : String × List String × Int × String)
  deriving DecidableEq

def Lease.creation (l : Lease) : Creation := .lease l.leaseId l.projectKey l.acquireId l.fence

def AcceptedGrant.creation (g : AcceptedGrant) : Creation := .accepted g.grantId g.immutable

/-- The response names the row; for an accepted grant it reports the state of the stored one. -/
inductive StateRoot.Names (s : StateRoot) : Operation → Result → Creation → Prop where
  | lease (clusterId : String) (body : AcquireBody) (status : LeaseStatus) (idempotent : Bool)
      (l : Lease) :
      Names s (.authority clusterId (.acquire body)) (.authority (.lease status idempotent l))
        l.creation
  | grant (clusterId : String) (body : GrantIssueBody) (status : GrantState) (idempotent : Bool)
      (capability : Envelope) :
      Names s (.authority clusterId (.grantIssue body))
        (.authority (.grant status idempotent capability)) (.grant capability)
  | accepted (e : Envelope) (row : AcceptedGrant) (response : ParticipantResponse)
      (stored : row ∈ s.participant.accepted) (named : row.grantId = e.body.grantId.getD "")
      (reports : response = .prior row.state row.result ∨ response = .accepted row.result ∨
        response = .barrier row.result) :
      Names s (.grant (.grantAccept (some e))) (.target (.grant response)) row.creation
  | reserved (body : ReserveBody) (name : String)
      (rpc : (LedgerRequest.reserve body).rpcOperation = some name) (token : String)
      (receipt : ResourceReceipt) :
      Names s (.resource (.reserve body) name rpc) (.target (.resource (.reserved token receipt)))
        (.allocation receipt.row.identity)
  | allocationExists (body : ReserveBody) (name : String)
      (rpc : (LedgerRequest.reserve body).rpcOperation = some name) (receipt : ResourceReceipt) :
      Names s (.resource (.reserve body) name rpc)
        (.target (.resource (.allocationExists receipt))) (.allocation receipt.row.identity)

/-- Every created row, and every counter a creation moves. -/
structure Inventory where
  leases : List Creation
  fences : List (String × Int)
  grants : List Envelope
  accepted : List Creation
  floors : List ProjectFence
  allocations : List (String × List String × Int × String)
  lastFence : Option Int

def StateRoot.inventory (s : StateRoot) : Inventory where
  leases := (s.authority.map fun db => db.leases.rows.map Lease.creation).getD []
  fences := (s.authority.map fun db =>
    db.projects.rows.map fun p => (p.projectKey, p.nextFence)).getD []
  grants := (s.authority.map fun db => db.grants.rows.map Grant.capability).getD []
  accepted := s.participant.accepted.rows.map AcceptedGrant.creation
  floors := s.participant.fences.rows
  allocations := s.ledger.history
  lastFence := s.ledger.lastFence

/-- Two texts that `sha256` does not tell apart. -/
def Wire.Collide (W : Wire F) (a b : List Char) : Prop := a ≠ b ∧ W.sha256 a = W.sha256 b

/-- Lost replies are harmless to the calls of one state root. -/
structure RetrySafe (W : Wire F) (P : Prims) (L : LedgerPrims) (s : StateRoot) : Prop where
  /-- The answers to one id are one document, for one operation and one digest. -/
  same : ∀ before event between event' a a',
    (s.run W P L before).answer W P L event = some a →
    (s.run W P L (before ++ event :: between)).answer W P L event' = some a' →
    a'.side = a.side → a'.rpcId = a.rpcId → a' = a
  /-- After an answer, an attempt under its id writes nothing and is answered only if it asks
  for the same. -/
  replayed : ∀ before event between event' a t,
    (s.run W P L before).answer W P L event = some a →
    (s.run W P L (before ++ event :: between)).attempt W event' = some t →
    t.side = a.side → t.rpcId = a.rpcId →
    ((s.run W P L (before ++ event :: between)).step W P L event').stores =
        (s.run W P L (before ++ event :: between)).stores ∧
      (t ≠ a.attempt →
        (s.run W P L (before ++ event :: between)).answer W P L event' = none)
  /-- Of the attempts under one id, one at most writes a row. -/
  once : ∀ before event between event' t t',
    (s.run W P L before).attempt W event = some t →
    ((s.run W P L before).step W P L event).rows ≠ (s.run W P L before).rows →
    (s.run W P L (before ++ event :: between)).attempt W event' = some t' →
    t'.side = t.side → t'.rpcId = t.rpcId →
    ((s.run W P L (before ++ event :: between)).step W P L event').stores =
      (s.run W P L (before ++ event :: between)).stores
  /-- An attempt without an answer writes no row. -/
  failed : ∀ before event t, (s.run W P L before).attempt W event = some t →
    (s.run W P L before).answer W P L event = none →
    ((s.run W P L before).step W P L event).rows = (s.run W P L before).rows
  /-- A creating operation that succeeds again under another id names the same row and
  creates nothing. -/
  resent : ∀ before event between event' operation result result' x,
    (s.run W P L before).performed W P L event = some (operation, result) →
    ((s.run W P L before).step W P L event).Names operation result x →
    (s.run W P L (before ++ event :: between)).performed W P L event' =
      some (operation, result') →
    ((s.run W P L (before ++ event :: between)).step W P L event').Names operation result' x ∧
      ((s.run W P L (before ++ event :: between)).step W P L event').inventory =
        (s.run W P L (before ++ event :: between)).inventory
  /-- What the client sends passes the checks of the target. -/
  admitted : ∀ operation body rpcId, rpcId ≠ "" → (Value.obj (Option.getD body [])).Proper →
    ∃ request, loads W.floats (W.clientText operation body) = some request ∧
      W.checkHeader (W.clientHeader operation body rpcId) request = .ok ()
  /-- Requests with one digest are the same request, up to the order of members. -/
  distinct : ∀ operation operation' body body', (Value.obj (Option.getD body [])).Proper →
    (Value.obj (Option.getD body' [])).Proper →
    W.digest (clientRequest operation body) = W.digest (clientRequest operation' body') →
    (operation = operation' ∧ (Value.obj (body.getD [])).sorted = (Value.obj (body'.getD [])).sorted) ∨
      W.Collide (W.clientText operation body) (W.clientText operation' body')

/-! ## Created rows -/

/-- The store holds the row a creating operation asks for. -/
inductive StateRoot.Created (s : StateRoot) : Operation → Creation → Prop where
  | lease (clusterId : String) (body : AcquireBody) (db : Authority) (l : Lease)
      (there : s.authority = some db) (mem : l ∈ db.leases) (asked : l.acquireId = body.acquireId) :
      Created s (.authority clusterId (.acquire body)) l.creation
  | grant (clusterId : String) (body : GrantIssueBody) (db : Authority) (g : Grant)
      (there : s.authority = some db) (mem : g ∈ db.grants)
      (asked : g.grantRequestId = body.grantRequestId) :
      Created s (.authority clusterId (.grantIssue body)) (.grant g.capability)
  | accepted (e : Envelope) (row : AcceptedGrant) (mem : row ∈ s.participant.accepted)
      (asked : row.grantId = e.body.grantId.getD "") :
      Created s (.grant (.grantAccept (some e))) row.creation
  | allocation (body : ReserveBody) (name : String)
      (rpc : (LedgerRequest.reserve body).rpcOperation = some name) (a : Allocation)
      (mem : a ∈ s.ledger.allocations) (asked : body.allocationId = .str a.allocationId) :
      Created s (.resource (.reserve body) name rpc) (.allocation a.identity)

/-! ### Rows stay -/

section Rows
variable {request : AuthorityRequest} {info : Meta} {r : Readings} {db db' : Authority}

/-- An update that keeps a column keeps its values. -/
theorem exists_update {α β : Type} {Clash : α → α → Prop} {t : Table α Clash} {p : α → Bool}
    {f : α → α} (hf : Table.Keeps Clash f) (column : α → β) (hcol : ∀ a, column (f a) = column a)
    {a : α} (ha : a ∈ t) : ∃ b ∈ t.update p f hf, column b = column a :=
  ⟨_, Table.update_mem hf ha, Table.setWhere_column column p f hcol a⟩

theorem acquireId_of_creation {l l' : Lease} (h : l'.creation = l.creation) :
    l'.acquireId = l.acquireId := by
  simp only [Lease.creation, Creation.lease.injEq] at h
  exact h.2.2.1

theorem effect_creation (heff : Effect P request info r db db') {l : Lease} (hl : l ∈ db.leases) :
    ∃ l' ∈ db'.leases, l'.creation = l.creation := by
  cases heff with
  | leased body tokenHash project _ hmem hwrite =>
    simp only [grantLease, bind_eq_ok, inserted_eq_ok] at hwrite
    obtain ⟨leases, hins, hwrite⟩ := hwrite
    have hin : l ∈ leases := (Table.mem_insert hins).mpr (Or.inl hl)
    split at hwrite
    · simp at hwrite
    · rw [pure_eq_ok] at hwrite
      rw [← hwrite]
      dsimp only
      split
      · exact ⟨l, hin, rfl⟩
      · refine exists_update _ Lease.creation ?_ hin
        exact fun _ => rfl
  | beaten owned now until_ =>
    refine exists_update (f := Lease.beat now until_) (fun _ _ => ⟨id, id⟩) Lease.creation ?_ hl
    exact fun _ => rfl
  | released =>
    refine exists_update (f := Lease.release r.now) (fun _ _ => ⟨id, id⟩) Lease.creation ?_ hl
    exact fun _ => rfl
  | restored =>
    refine exists_update (f := Lease.normalised) (fun _ _ => ⟨id, id⟩) Lease.creation ?_ hl
    exact fun _ => rfl
  | imported _ _ _ _ _ _ _ _ _ _ _ _ hwrite =>
    rw [importReceipt_frame hwrite]
    exact ⟨l, hl, rfl⟩
  | unchanged => exact ⟨l, hl, rfl⟩
  | registered => exact ⟨l, hl, rfl⟩
  | keyCreated => exact ⟨l, hl, rfl⟩
  | keyFinalized => exact ⟨l, hl, rfl⟩
  | rotated => exact ⟨l, hl, rfl⟩
  | issued => exact ⟨l, hl, rfl⟩

/-- The columns `_authority_grant_issue` wrote and its replay reads back. -/
def Grant.issue (g : Grant) : String × Envelope := (g.grantRequestId, g.capability)

theorem resolveLower_issue (items : List Observation) (g : Grant) :
    (resolveLower items g).issue = g.issue := by
  unfold resolveLower
  split
  · split <;> rfl
  · rfl

theorem settleBarrier_issue {projectKey : String} {grant : Grant} {next : GrantState}
    {result : GrantResult} (h : settleBarrier db projectKey grant next result = .ok db') {g : Grant}
    (hg : g ∈ db.grants) : ∃ g' ∈ db'.grants, g'.issue = g.issue := by
  rcases settleBarrier_spec h with rfl | ⟨items, _, _, _, hrows⟩
  · exact ⟨g, hg, rfl⟩
  · refine ⟨_, (Table.mem_def _ _).mpr (hrows ▸ List.mem_map_of_mem hg), ?_⟩
    exact Table.setWhere_column Grant.issue _ _ (resolveLower_issue items) g

theorem importReceipt_issue {projectKey sha : String} {body : Body} {response : Response}
    (h : importReceipt db projectKey body sha = .ok (db', response)) {g : Grant}
    (hg : g ∈ db.grants) : ∃ g' ∈ db'.grants, g'.issue = g.issue := by
  have happly : ∀ {grant : Grant} {next : GrantState} {result : GrantResult},
      applyReceipt db projectKey grant next result sha = .ok (db', response) →
      ∃ g' ∈ db'.grants, g'.issue = g.issue := by
    intro grant next result h
    simp only [applyReceipt, bind_eq_ok, pure_eq_ok, Prod.mk.injEq] at h
    obtain ⟨db1, hsettle, rfl, _⟩ := h
    obtain ⟨g1, hg1, hissue⟩ := settleBarrier_issue hsettle hg
    obtain ⟨g2, hg2, hissue'⟩ := exists_update (p := fun x => x.grantId = grant.grantId)
      (f := Grant.receive next result sha) (fun _ _ => ⟨id, id⟩) Grant.issue (fun _ => rfl) hg1
    exact ⟨g2, hg2, hissue'.trans hissue⟩
  simp only [importReceipt] at h
  split at h
  · simp at h
  · simp only [bind_eq_ok, require_eq_ok] at h
    obtain ⟨_, _, h⟩ := h
    split at h
    · simp only [pure_eq_ok, Prod.mk.injEq] at h
      obtain ⟨rfl, _⟩ := h
      exact ⟨g, hg, rfl⟩
    · split at h
      · simp at h
      · simp at h
      · split at h
        · simp only [bind_eq_ok, require_eq_ok, pure_eq_ok, Prod.mk.injEq] at h
          obtain ⟨_, _, _, _, rfl, _⟩ := h
          refine exists_update (f := Grant.acknowledge sha) (fun _ _ => ⟨id, id⟩) Grant.issue ?_ hg
          exact fun _ => rfl
        · split at h
          · simp only [bind_eq_ok, require_eq_ok] at h
            obtain ⟨_, _, h⟩ := h
            exact happly h
          · exact happly h

theorem effect_issue (heff : Effect P request info r db db') {g : Grant} (hg : g ∈ db.grants) :
    ∃ g' ∈ db'.grants, g'.issue = g.issue := by
  cases heff with
  | leased body tokenHash project _ hmem hwrite =>
    simp only [grantLease, bind_eq_ok] at hwrite
    obtain ⟨_, _, hwrite⟩ := hwrite
    split at hwrite
    · simp at hwrite
    · rw [pure_eq_ok] at hwrite
      rw [← hwrite]
      exact ⟨g, hg, rfl⟩
  | imported _ _ _ _ _ _ _ _ _ _ _ _ hwrite => exact importReceipt_issue hwrite hg
  | issued body tokenHash lease secret capability grants live insert =>
    exact ⟨g, (Table.mem_insert insert).mpr (Or.inl hg), rfl⟩
  | unchanged => exact ⟨g, hg, rfl⟩
  | registered => exact ⟨g, hg, rfl⟩
  | beaten => exact ⟨g, hg, rfl⟩
  | released => exact ⟨g, hg, rfl⟩
  | keyCreated => exact ⟨g, hg, rfl⟩
  | keyFinalized => exact ⟨g, hg, rfl⟩
  | rotated => exact ⟨g, hg, rfl⟩
  | restored => exact ⟨g, hg, rfl⟩

end Rows

/-- What an authority transaction keeps of the created rows. -/
structure Authority.Keeps (db db' : Authority) : Prop where
  leases : ∀ l ∈ db.leases, ∃ l' ∈ db'.leases, l'.creation = l.creation
  grants : ∀ g ∈ db.grants, ∃ g' ∈ db'.grants, g'.issue = g.issue

theorem committed_keeps (db : Authority) (call : AuthorityCall) (info : Meta) (r : Readings) :
    db.Keeps (committed db (authorityTransaction P call info r db)) := by
  rcases committed_cases db (authorityTransaction P call info r db) with heq | ⟨response, hok⟩
  · rw [heq]
    exact ⟨fun l hl => ⟨l, hl, rfl⟩, fun g hg => ⟨g, hg, rfl⟩⟩
  · obtain ⟨db1, heff, hdb⟩ := authorityTransaction_effect hok
    rw [hdb]
    exact ⟨fun l hl => effect_creation heff hl, fun g hg => effect_issue heff hg⟩

theorem participantOperation_accepted {request : ParticipantRequest} {now : Int}
    {p p' : Participant} {response : ParticipantResponse}
    (h : participantOperation P request now p = .ok (p', response)) :
    ∀ row ∈ p.accepted, row ∈ p'.accepted := by
  have heff : ParticipantEffect P request p p' := by
    cases request with
    | grantAccept capability => exact acceptCapability_effect h
    | grantStatus capability => exact grantStatusReceipt_effect h
  cases heff with
  | unchanged => exact fun row hrow => hrow
  | accepted e secret state result _ delivered verified passed target fresh above answer write =>
    intro row hrow
    exact ((insertAccepted_spec _ above write).1 row).mpr (Or.inl hrow)
  | signed => exact fun row hrow => hrow

/-- What any event keeps of the target's created rows. -/
structure StateRoot.Keeps (s s' : StateRoot) : Prop where
  authority : ∀ db, s.authority = some db → ∃ db', s'.authority = some db' ∧ db.Keeps db'
  accepted : ∀ row ∈ s.participant.accepted, row ∈ s'.participant.accepted
  allocations : s.ledger.history <+: s'.ledger.history

theorem Authority.Keeps.refl (db : Authority) : db.Keeps db :=
  ⟨fun l hl => ⟨l, hl, rfl⟩, fun g hg => ⟨g, hg, rfl⟩⟩

theorem StateRoot.Keeps.refl (s : StateRoot) : s.Keeps s :=
  ⟨fun db hdb => ⟨db, hdb, .refl db⟩, fun _ hrow => hrow, List.prefix_rfl⟩

theorem committed_history (request : LedgerRequest) (r : LedgerReadings) (db : Ledger) :
    db.history <+: (committed db (ledgerOperation L request r db)).history := by
  rcases committed_cases db (ledgerOperation L request r db) with heq | ⟨response, hok⟩
  · rw [heq]
  · exact (chain_move (ledgerOperation_chain hok)).history

theorem transaction_keeps {s s' : StateRoot} {header : Header} {operation : Operation}
    {request : Value F} {r : TargetReadings} {response : TargetResponse}
    (h : s.transaction W P L header operation request r = .ok (s', response)) : s.Keeps s' := by
  cases hlook : s.records.lookup fun x => x.rpcId = header.rpcId with
  | some existing =>
    rw [(transaction_replay hlook h).1]
    exact .refl s
  | none =>
    obtain ⟨s1, records, hop, _, rfl⟩ := transaction_fresh hlook h
    unfold StateRoot.perform at hop
    split at hop
    · cases hop
      exact ⟨fun db hdb => ⟨db, hdb, .refl db⟩, fun _ hrow => hrow, List.prefix_rfl⟩
    · cases hop
      exact ⟨fun db hdb => ⟨db, hdb, .refl db⟩, fun _ hrow => hrow, List.prefix_rfl⟩
    · simp only [bind_eq_ok, pure_eq_ok, Prod.mk.injEq] at hop
      obtain ⟨⟨p, _⟩, hp, rfl, _⟩ := hop
      exact ⟨fun db hdb => ⟨db, hdb, .refl db⟩, participantOperation_accepted hp, List.prefix_rfl⟩
    · simp only [bind_eq_ok, pure_eq_ok, Prod.mk.injEq] at hop
      obtain ⟨⟨ledger, _⟩, hl, rfl, _⟩ := hop
      exact ⟨fun db hdb => ⟨db, hdb, .refl db⟩, fun _ hrow => hrow,
        (chain_move (ledgerOperation_chain hl)).history⟩
    · simp at hop

theorem move_keeps {s s' : StateRoot} {event : RpcEvent F}
    (hmove : StateRoot.Move W P L s event s') : s.Keeps s' := by
  cases hmove with
  | idle => exact .refl s
  | created header request db absent empty =>
    refine ⟨fun db' hdb => ?_, fun _ hrow => hrow, List.prefix_rfl⟩
    rw [absent] at hdb
    cases hdb
  | opened => exact ⟨fun db hdb => ⟨db, hdb, .refl db⟩, fun _ hrow => hrow, List.prefix_rfl⟩
  | committed position r call info db waiting there =>
    refine ⟨fun db' hdb => ?_, fun _ hrow => hrow, List.prefix_rfl⟩
    rw [there, Option.some.injEq] at hdb
    exact ⟨_, rfl, hdb ▸ committed_keeps db call info r⟩
  | died position r wrote call info db keys waiting there written =>
    refine ⟨fun db' hdb => ?_, fun _ hrow => hrow, List.prefix_rfl⟩
    rw [there, Option.some.injEq] at hdb
    exact ⟨_, rfl, hdb ▸ ⟨fun l hl => ⟨l, hl, rfl⟩, fun g hg => ⟨g, hg, rfl⟩⟩⟩
  | received header request r operation admitted =>
    rcases committed_cases s (s.transaction W P L header operation request r) with
      heq | ⟨response, hok⟩
    · rw [heq]
      exact .refl s
    · exact transaction_keeps hok
  | owned request r =>
    exact ⟨fun db hdb => ⟨db, hdb, .refl db⟩, fun _ hrow => hrow, committed_history request r _⟩
  | enrolled enrollment =>
    obtain ⟨keys, enrolled, signed, heq, _⟩ := keyImport_effect (P := P) enrollment s.participant
    refine ⟨fun db hdb => ⟨db, hdb, .refl db⟩, fun row hrow => ?_, List.prefix_rfl⟩
    rw [heq]
    exact hrow

theorem step_keeps (s : StateRoot) (event : RpcEvent F) : s.Keeps (s.step W P L event) :=
  move_keeps (step_rpc_move s event)

theorem keeps_created {s s' : StateRoot} (hkeeps : s.Keeps s') {operation : Operation}
    {x : Creation} (h : s.Created operation x) : s'.Created operation x := by
  cases h with
  | lease clusterId body db l there mem asked =>
    obtain ⟨db', hdb', hdbkeeps⟩ := hkeeps.authority db there
    obtain ⟨l', hl', hcreation⟩ := hdbkeeps.leases l mem
    rw [← hcreation]
    exact .lease clusterId body db' l' hdb' hl' ((acquireId_of_creation hcreation).trans asked)
  | grant clusterId body db g there mem asked =>
    obtain ⟨db', hdb', hdbkeeps⟩ := hkeeps.authority db there
    obtain ⟨g', hg', hissue⟩ := hdbkeeps.grants g mem
    simp only [Grant.issue, Prod.mk.injEq] at hissue
    rw [← hissue.2]
    exact .grant clusterId body db' g' hdb' hg' (hissue.1.trans asked)
  | accepted e row mem asked => exact .accepted e row (hkeeps.accepted row mem) asked
  | allocation body name rpc a mem asked =>
    have hin : a.identity ∈ s'.ledger.history :=
      hkeeps.allocations.subset (List.mem_map_of_mem mem)
    obtain ⟨b, hb, hid⟩ := List.mem_map.mp hin
    rw [← hid]
    refine .allocation body name rpc b hb ?_
    rw [asked, (identity_columns hid).1]

theorem run_created {s : StateRoot} {operation : Operation} {x : Creation}
    (h : s.Created operation x) (events : List (RpcEvent F)) :
    (s.run W P L events).Created operation x := by
  induction events generalizing s with
  | nil => exact h
  | cons event rest ih => exact ih (keeps_created (step_keeps s event) h)

/-! ### A success leaves its row -/

section Operations
variable {info : Meta} {r : Readings} {db db' : Authority}

theorem authorityAcquire_creates {body : AcquireBody} {status : LeaseStatus} {idempotent : Bool}
    {l : Lease} (h : authorityAcquire P body info r db = .ok (db', .lease status idempotent l)) :
    ∃ l' ∈ db'.leases, l'.acquireId = body.acquireId ∧ l'.creation = l.creation := by
  simp only [authorityAcquire, bind_eq_ok, require_eq_ok] at h
  obtain ⟨tokenHash, _, _, _, h⟩ := h
  split at h
  · rename_i prior hprior
    simp only [bind_eq_ok, require_eq_ok, pure_eq_ok, Prod.mk.injEq, Response.lease.injEq] at h
    obtain ⟨_, _, rfl, _, _, rfl⟩ := h
    exact ⟨prior, Table.lookup_mem hprior, by simpa using Table.lookup_sat hprior, rfl⟩
  · split at h
    · simp at h
    · simp only [bind_eq_ok, require_eq_ok] at h
      obtain ⟨_, _, h⟩ := h
      split at h
      · simp [pure_eq_ok] at h
      · simp only [bind_eq_ok, pure_eq_ok, Prod.mk.injEq, Response.lease.injEq] at h
        obtain ⟨_, hwrite, rfl, _, _, rfl⟩ := h
        simp only [grantLease, bind_eq_ok, inserted_eq_ok] at hwrite
        obtain ⟨leases, hins, hwrite⟩ := hwrite
        have hin := (Table.mem_insert hins).mpr (Or.inr rfl)
        split at hwrite
        · simp at hwrite
        · rw [pure_eq_ok] at hwrite
          rw [← hwrite]
          dsimp only
          split
          · exact ⟨_, hin, rfl, rfl⟩
          · rename_i current _
            obtain ⟨l', hl', hcreation⟩ := exists_update
              (p := fun l => decide (l.leaseId = current.leaseId))
              (lease_keeps_state .superseded) Lease.creation (fun _ => rfl) hin
            exact ⟨l', hl', acquireId_of_creation hcreation, hcreation⟩

theorem authorityGrantIssue_creates {body : GrantIssueBody} {status : GrantState}
    {idempotent : Bool} {capability : Envelope}
    (h : authorityGrantIssue P body info r db = .ok (db', .grant status idempotent capability)) :
    ∃ g ∈ db'.grants, g.grantRequestId = body.grantRequestId ∧ g.capability = capability := by
  simp only [authorityGrantIssue, bind_eq_ok, require_eq_ok] at h
  obtain ⟨tokenHash, _, _, _, _, _, h⟩ := h
  split at h
  · rename_i prior hprior
    simp only [bind_eq_ok, require_eq_ok, pure_eq_ok, Prod.mk.injEq, Response.grant.injEq] at h
    obtain ⟨_, _, rfl, _, _, hcap⟩ := h
    exact ⟨prior, Table.lookup_mem hprior, by simpa using Table.lookup_sat hprior, hcap⟩
  · split at h
    · simp [pure_eq_ok] at h
    · split at h
      · simp [pure_eq_ok] at h
      · split at h
        · simp at h
        · simp only [bind_eq_ok, inserted_eq_ok, pure_eq_ok, Prod.mk.injEq,
            Response.grant.injEq] at h
          obtain ⟨_, _, secret, _, grants, hins, rfl, _, _, hcap⟩ := h
          exact ⟨_, (Table.mem_insert hins).mpr (Or.inr rfl), rfl, hcap⟩

/-- With the row of its `acquire_id` in the store, an acquire reads it back. -/
theorem authorityAcquire_again {body : AcquireBody} {l : Lease} (hl : l ∈ db.leases)
    (hid : l.acquireId = body.acquireId) {response : Response}
    (h : authorityAcquire P body info r db = .ok (db', response)) :
    db' = db ∧ response = .lease (priorStatus db l r.now) true l := by
  have hlook : (db.leases.lookup fun x => x.acquireId = body.acquireId) = some l := by
    apply Table.lookup_eq_some hl (by simpa using hid)
    intro x hx hxid
    have heq : x.acquireId = l.acquireId := (of_decide_eq_true hxid).trans hid.symm
    exact Table.eq_of_clash hx hl (Or.inr (Or.inl heq)) (Or.inr (Or.inl heq.symm))
  simp only [authorityAcquire, bind_eq_ok, require_eq_ok, hlook, pure_eq_ok, Prod.mk.injEq] at h
  obtain ⟨_, _, _, _, _, _, rfl, hresp⟩ := h
  exact ⟨rfl, hresp.symm⟩

theorem authorityGrantIssue_again {body : GrantIssueBody} {g : Grant} (hg : g ∈ db.grants)
    (hid : g.grantRequestId = body.grantRequestId) {response : Response}
    (h : authorityGrantIssue P body info r db = .ok (db', response)) :
    db' = db ∧ response = .grant g.state true g.capability := by
  have hlook : (db.grants.lookup fun x => x.grantRequestId = body.grantRequestId) = some g := by
    apply Table.lookup_eq_some hg (by simpa using hid)
    intro x hx hxid
    have heq : x.grantRequestId = g.grantRequestId := (of_decide_eq_true hxid).trans hid.symm
    exact Table.eq_of_clash hx hg (Or.inr heq) (Or.inr heq.symm)
  simp only [authorityGrantIssue, bind_eq_ok, require_eq_ok, hlook, pure_eq_ok, Prod.mk.injEq] at h
  obtain ⟨_, _, _, _, _, _, _, _, rfl, hresp⟩ := h
  exact ⟨rfl, hresp.symm⟩

theorem acceptCapability_again {e : Envelope} {p p' : Participant} {row : AcceptedGrant}
    (hrow : row ∈ p.accepted) (hid : row.grantId = e.body.grantId.getD "")
    {response : ParticipantResponse} (h : acceptCapability P (some e) p = .ok (p', response)) :
    p' = p ∧ response = .prior row.state row.result := by
  simp only [acceptCapability, bind_eq_ok] at h
  obtain ⟨⟨body, keyId, secret⟩, hver, h⟩ := h
  obtain ⟨e', heq, rfl, _, _⟩ := verifyCapability_spec hver
  cases heq
  have hlook : (p.accepted.lookup fun g => g.grantId = (acceptedRow e.body .accepted none).grantId) =
      some row := by
    apply Table.lookup_eq_some hrow (decide_eq_true hid)
    intro x hx hxid
    have heq : x.grantId = row.grantId := (of_decide_eq_true hxid).trans hid.symm
    exact Table.eq_of_clash hx hrow (Or.inl heq) (Or.inl heq.symm)
  simp only [acceptVerified, hlook, bind_eq_ok, require_eq_ok, pure_eq_ok, Prod.mk.injEq] at h
  obtain ⟨_, _, rfl, hresp⟩ := h
  exact ⟨rfl, hresp.symm⟩

end Operations

/-! ### The sweep -/

section Sweep
variable {r : LedgerReadings} {db db' : Ledger}

/-- The sweep before a reservation adds no allocation and moves no counter. -/
theorem reconcileRow_inventory {row : Allocation} (h : reconcileRow r db row = .ok db') :
    db'.history = db.history ∧ db'.lastFence = db.lastFence := by
  have hterm : ∀ state reason,
      (terminalizeResource db row.allocationId state reason).history = db.history :=
    fun state reason =>
      history_update (f := Allocation.terminal state reason) (fun _ => rfl) db.allocations.rows
  have hquarantine : ∀ reason,
      (quarantineResource db row.allocationId reason).history = db.history :=
    fun reason =>
      history_update (f := Allocation.terminal .quarantined reason) (fun _ => rfl) db.allocations.rows
  unfold reconcileRow at h
  split at h
  · rw [← pure_eq_ok.mp h]
    exact ⟨hterm _ _, rfl⟩
  · split at h
    · rw [← pure_eq_ok.mp h]
      exact ⟨hterm _ _, rfl⟩
    · split at h
      · simp only [bind_eq_ok] at h
        obtain ⟨found, _, h⟩ := h
        split at h
        · rw [← pure_eq_ok.mp h]
          exact ⟨hterm _ _, rfl⟩
        · split at h
          · rw [← pure_eq_ok.mp h]
            exact ⟨hquarantine _, rfl⟩
          · rw [← pure_eq_ok.mp h]
            exact ⟨rfl, rfl⟩
        · rw [← pure_eq_ok.mp h]
          exact ⟨rfl, rfl⟩
      · rw [← pure_eq_ok.mp h]
        exact ⟨rfl, rfl⟩

theorem reconcileResources_inventory (h : reconcileResources r db = .ok db') :
    db'.history = db.history ∧ db'.lastFence = db.lastFence := by
  unfold reconcileResources at h
  generalize (db.allocations.select fun a => a.state.live) = rows at h
  induction rows generalizing db with
  | nil =>
    rw [List.foldlM_nil, pure_eq_ok] at h
    rw [h]
    exact ⟨rfl, rfl⟩
  | cons row rest ih =>
    rw [List.foldlM_cons, bind_eq_ok] at h
    obtain ⟨db1, hrow, hrest⟩ := h
    obtain ⟨hhistory, hfence⟩ := reconcileRow_inventory hrow
    obtain ⟨hhistory', hfence'⟩ := ih hrest
    exact ⟨hhistory'.trans hhistory, hfence'.trans hfence⟩

theorem boundedResourceText_eq {value : Json} {label text : String} {limit : Nat}
    (h : boundedResourceText value label limit = .ok text) : value = .str text := by
  unfold boundedResourceText at h
  split at h
  · simp only [bind_eq_ok, pure_eq_ok] at h
    obtain ⟨_, _, rfl⟩ := h
    rfl
  · simp at h

/-- A reservation that names an allocation leaves its row. -/
theorem resourceReserve_creates {body : ReserveBody} {response : LedgerResponse}
    (row : Allocation) (hnames : (∃ token boot, response = .reserved token ⟨row, boot⟩) ∨
      ∃ boot, response = .allocationExists ⟨row, boot⟩)
    (h : resourceReserve L body r db = .ok (db', response)) :
    row ∈ db'.allocations ∧ body.allocationId = .str row.allocationId := by
  simp only [resourceReserve, bind_eq_ok] at h
  obtain ⟨allocationId, hid, _, _, _, _, _, _, _, _, _, _, db1, _, _, _, h⟩ := h
  have hname := boundedResourceText_eq hid
  split at h
  · rename_i prior hprior
    simp only [bind_eq_ok, require_eq_ok, pure_eq_ok, Prod.mk.injEq] at h
    obtain ⟨_, _, rfl, rfl⟩ := h
    rcases hnames with ⟨_, _, heq⟩ | ⟨_, heq⟩
    · cases heq
    · cases heq
      have hsat : row.allocationId = allocationId := by simpa using Table.lookup_sat hprior
      exact ⟨Table.lookup_mem hprior, by rw [hsat, hname]⟩
  · split at h
    · simp only [pure_eq_ok, Prod.mk.injEq] at h
      obtain ⟨_, rfl⟩ := h
      rcases hnames with ⟨_, _, heq⟩ | ⟨_, heq⟩ <;> cases heq
    · simp only [bind_eq_ok, require_eq_ok, inserted_eq_ok, pure_eq_ok, Prod.mk.injEq] at h
      obtain ⟨_, _, allocations, hins, holds, _, rfl, rfl⟩ := h
      rcases hnames with ⟨_, _, heq⟩ | ⟨_, heq⟩
      · cases heq
        exact ⟨(Table.mem_insert hins).mpr (Or.inr rfl), hname⟩
      · cases heq

/-- With its allocation in the ledger, a reservation sweeps and reads it back. -/
theorem resourceReserve_again {body : ReserveBody} {response : LedgerResponse} {a : Allocation}
    (ha : a ∈ db.allocations) (hasked : body.allocationId = .str a.allocationId)
    (h : resourceReserve L body r db = .ok (db', response)) :
    db'.history = db.history ∧ db'.lastFence = db.lastFence ∧
      ∃ row boot, response = .allocationExists ⟨row, boot⟩ ∧ row.identity = a.identity := by
  simp only [resourceReserve, bind_eq_ok] at h
  obtain ⟨allocationId, hid, _, _, _, _, _, _, _, _, _, _, db1, hsweep, _, _, h⟩ := h
  have hname : allocationId = a.allocationId := by
    have heq := (boundedResourceText_eq hid).symm.trans hasked
    exact Json.str.inj heq
  obtain ⟨hhistory, hfence⟩ := reconcileResources_inventory hsweep
  have hin : a.identity ∈ db1.history := hhistory ▸ List.mem_map_of_mem ha
  obtain ⟨row, hrow, hidentity⟩ := List.mem_map.mp hin
  have hlook : db1.allocation allocationId = some row := by
    apply Table.lookup_eq_some hrow
    · simpa [hname] using (identity_columns hidentity).1
    · intro x hx hxid
      have heq : x.allocationId = row.allocationId := by
        rw [of_decide_eq_true hxid, hname, (identity_columns hidentity).1]
      exact allocation_eq_of_id hx hrow heq
  simp only [hlook, bind_eq_ok, require_eq_ok, pure_eq_ok, Prod.mk.injEq] at h
  obtain ⟨_, _, rfl, hresp⟩ := h
  exact ⟨hhistory, hfence, row, r.bootId, hresp.symm, hidentity⟩

end Sweep

/-! ### Performed operations -/

section Performed
variable {s : StateRoot} {event : RpcEvent F}

/-- What a performed operation ran, and what it left. -/
inductive StateRoot.Performs (W : Wire F) (P : Prims) (L : LedgerPrims) (s : StateRoot) :
    Operation → Result → StateRoot → Prop where
  | authority (clusterId : String) (request : AuthorityRequest) (info : Meta) (r : Readings)
      (db db' : Authority) (response : Response)
      (records : Table (RpcRecord Response) RpcRecord.Clash)
      (inFlight : List (AuthorityCall × Meta)) (there : s.authority = some db)
      (run : authorityOperation P request info r db = .ok (db', response)) :
      Performs W P L s (.authority clusterId request) (.authority response)
        { s with authority := some { db' with rpcRequests := records }, inFlight := inFlight }
  | target (operation : Operation) (rpcId : String) (request : Value F) (r : TargetReadings)
      (s' : StateRoot) (response : TargetResponse)
      (records : Table (RpcRecord TargetResponse) RpcRecord.Clash)
      (run : s.perform W P L operation rpcId request r = .ok (s', response)) :
      Performs W P L s operation (.target response) { s' with records := records }

theorem performed_spec {operation : Operation} {result : Result}
    (h : s.performed W P L event = some (operation, result)) :
    StateRoot.Performs W P L s operation result (s.step W P L event) := by
  cases event with
  | commit position r =>
    simp only [StateRoot.performed] at h
    split at h
    · rename_i call info db hwaiting hdb
      split at h
      · rename_i db' response hlook hok
        obtain ⟨db1, records, hop, _, rfl⟩ := authorityTransaction_fresh hlook hok
        rw [Option.some.injEq, Prod.mk.injEq] at h
        obtain ⟨rfl, rfl⟩ := h
        simp only [StateRoot.step, hwaiting, hdb, hok, committed]
        exact .authority call.clusterId call.request info r db db1 response records _ hdb hop
      · cases h
    · cases h
  | target header request r =>
    simp only [StateRoot.performed] at h
    split at h
    · rename_i received hop
      split at h
      · rename_i s' response hlook hok
        obtain ⟨s1, records, hperform, _, rfl⟩ := transaction_fresh hlook hok
        rw [Option.some.injEq, Prod.mk.injEq] at h
        obtain ⟨rfl, rfl⟩ := h
        simp only [StateRoot.step, hop, hok, committed]
        exact .target received header.rpcId request r s1 response records hperform
      · cases h
    · cases h
  | deliver => cases h
  | dies => cases h
  | owner => cases h
  | keyImport => cases h

theorem perform_grant {e : Option Envelope} {rpcId : String} {request : Value F}
    {r : TargetReadings} {s' : StateRoot} {response : TargetResponse}
    (h : s.perform W P L (.grant (.grantAccept e)) rpcId request r = .ok (s', response)) :
    ∃ p answer, acceptCapability P e s.participant = .ok (p, answer) ∧
      s' = { s with participant := p } ∧ response = .grant answer := by
  simp only [StateRoot.perform, bind_eq_ok, pure_eq_ok, Prod.mk.injEq] at h
  obtain ⟨⟨p, answer⟩, hp, rfl, rfl⟩ := h
  exact ⟨p, answer, hp, rfl, rfl⟩

theorem perform_reserve {body : ReserveBody} {name : String}
    {rpc : (LedgerRequest.reserve body).rpcOperation = some name} {rpcId : String}
    {request : Value F} {r : TargetReadings} {s' : StateRoot} {response : TargetResponse}
    (h : s.perform W P L (.resource (.reserve body) name rpc) rpcId request r =
      .ok (s', response)) :
    ∃ ledger answer, resourceReserve L body r.ledger s.ledger = .ok (ledger, answer) ∧
      s' = { s with ledger := ledger } ∧ response = .resource answer := by
  simp only [StateRoot.perform, bind_eq_ok, pure_eq_ok, Prod.mk.injEq] at h
  obtain ⟨⟨ledger, answer⟩, hl, rfl, rfl⟩ := h
  exact ⟨ledger, answer, hl, rfl, rfl⟩

/-- A success that names a row leaves that row. -/
theorem performs_created {s' : StateRoot} {operation : Operation} {result : Result} {x : Creation}
    (h : StateRoot.Performs W P L s operation result s') (hnames : s'.Names operation result x) :
    s'.Created operation x := by
  cases hnames with
  | lease clusterId body status idempotent l =>
    cases h with
    | authority _ _ info r db db' _ records inFlight there run =>
      obtain ⟨l', hl', hasked, hcreation⟩ := authorityAcquire_creates run
      rw [← hcreation]
      exact .lease clusterId body _ l' rfl hl' hasked
  | grant clusterId body status idempotent capability =>
    cases h with
    | authority _ _ info r db db' _ records inFlight there run =>
      obtain ⟨g, hg, hasked, rfl⟩ := authorityGrantIssue_creates run
      exact .grant clusterId body _ g rfl hg hasked
  | accepted e row response stored named reports => exact .accepted e row stored named
  | reserved body name rpc token receipt =>
    cases h with
    | target _ rpcId request r s1 _ records run =>
      obtain ⟨ledger, answer, hrun, rfl, hanswer⟩ := perform_reserve run
      obtain ⟨hmem, hasked⟩ := resourceReserve_creates receipt.row
        (Or.inl ⟨token, receipt.targetBootId, (TargetResponse.resource.inj hanswer).symm⟩) hrun
      exact .allocation body name rpc receipt.row hmem hasked
  | allocationExists body name rpc receipt =>
    cases h with
    | target _ rpcId request r s1 _ records run =>
      obtain ⟨ledger, answer, hrun, rfl, hanswer⟩ := perform_reserve run
      obtain ⟨hmem, hasked⟩ := resourceReserve_creates receipt.row
        (Or.inr ⟨receipt.targetBootId, (TargetResponse.resource.inj hanswer).symm⟩) hrun
      exact .allocation body name rpc receipt.row hmem hasked

/-- With its row in the store, a creating operation names it and creates nothing. -/
theorem performs_again {s' : StateRoot} {operation : Operation} {result : Result} {x : Creation}
    (h : StateRoot.Performs W P L s operation result s') (hcreated : s.Created operation x) :
    s'.Names operation result x ∧ s'.inventory = s.inventory := by
  cases hcreated with
  | lease clusterId body db0 l there mem asked =>
    cases h with
    | authority _ _ info r db db' response records inFlight there' run =>
      rw [there, Option.some.injEq] at there'
      subst there'
      obtain ⟨rfl, rfl⟩ := authorityAcquire_again mem asked run
      refine ⟨.lease clusterId body _ true l, ?_⟩
      simp only [StateRoot.inventory, there, Option.map_some, Option.getD_some]
    | target _ rpcId request r s1 response records run => simp [StateRoot.perform] at run
  | grant clusterId body db0 g there mem asked =>
    cases h with
    | authority _ _ info r db db' response records inFlight there' run =>
      rw [there, Option.some.injEq] at there'
      subst there'
      obtain ⟨rfl, rfl⟩ := authorityGrantIssue_again mem asked run
      refine ⟨.grant clusterId body g.state true g.capability, ?_⟩
      simp only [StateRoot.inventory, there, Option.map_some, Option.getD_some]
    | target _ rpcId request r s1 response records run => simp [StateRoot.perform] at run
  | accepted e row mem asked =>
    cases h with
    | target _ rpcId request r s1 response records run =>
      obtain ⟨p, answer, hrun, rfl, rfl⟩ := perform_grant run
      obtain ⟨rfl, rfl⟩ := acceptCapability_again mem asked hrun
      exact ⟨.accepted e row _ mem asked (Or.inl rfl), rfl⟩
  | allocation body name rpc a mem asked =>
    cases h with
    | target _ rpcId request r s1 response records run =>
      obtain ⟨ledger, answer, hrun, rfl, rfl⟩ := perform_reserve run
      obtain ⟨hhistory, hfence, row, boot, rfl, hidentity⟩ := resourceReserve_again mem asked hrun
      refine ⟨hidentity ▸ .allocationExists body name rpc ⟨row, boot⟩, ?_⟩
      simp only [StateRoot.inventory, hhistory, hfence]

end Performed

/-! ## The digest of a request -/

theorem clientRequest_proper {operation : String} {body : Option (List (String × Value F))}
    (h : (Value.obj (body.getD [])).Proper) : (clientRequest operation body).Proper := by
  have hkeys : ["operation", "body"].Nodup := by decide
  refine .obj _ hkeys fun m hm => ?_
  simp only [List.mem_cons, List.not_mem_nil, or_false] at hm
  rcases hm with rfl | rfl
  · exact .str operation
  · exact h

theorem clientRequest_sorted (operation : String) (body : Option (List (String × Value F))) :
    (clientRequest operation body).sorted =
      .obj [("body", (Value.obj (body.getD [])).sorted), ("operation", .str operation)] := by
  have hlt : ¬ "operation" ≤ "body" := by decide
  simp only [clientRequest, Value.sorted, sortedMembers, sortMembers, List.insertionSort_cons,
    List.insertionSort_nil, List.orderedInsert_nil, List.orderedInsert_cons, if_neg hlt]

theorem client_admitted {operation rpcId : String} {body : Option (List (String × Value F))}
    (hid : rpcId ≠ "") (h : (Value.obj (body.getD [])).Proper) :
    ∃ request, loads W.floats (W.clientText operation body) = some request ∧
      W.checkHeader (W.clientHeader operation body rpcId) request = .ok () := by
  refine ⟨_, loads_dumps W.faithful (clientRequest_proper h), ?_⟩
  have hdigest : W.digest (clientRequest operation body).sorted =
      (W.clientHeader operation body rpcId).requestSha256 := by
    rw [Wire.digest, dumps_sorted]
    rfl
  have hoperation : textMember "operation" (clientRequest operation body).sorted =
      some operation := by
    rw [clientRequest_sorted]
    rfl
  simp only [Wire.checkHeader, bind_eq_ok, require_eq_ok]
  exact ⟨(), ⟨rfl, rfl⟩, (), List.mem_cons_self, (), ⟨hid, hdigest⟩, hoperation⟩

theorem client_distinct {operation operation' : String}
    {body body' : Option (List (String × Value F))} (h : (Value.obj (body.getD [])).Proper)
    (h' : (Value.obj (body'.getD [])).Proper)
    (hdigest : W.digest (clientRequest operation body) =
      W.digest (clientRequest operation' body')) :
    (operation = operation' ∧
        (Value.obj (body.getD [])).sorted = (Value.obj (body'.getD [])).sorted) ∨
      W.Collide (W.clientText operation body) (W.clientText operation' body') := by
  by_cases htext : W.clientText operation body = W.clientText operation' body'
  · have hsorted := sorted_eq_of_dumps_eq W.faithful (clientRequest_proper h)
      (clientRequest_proper h') htext
    rw [clientRequest_sorted, clientRequest_sorted] at hsorted
    simp only [Value.obj.injEq, List.cons.injEq, Prod.mk.injEq, Value.str.injEq] at hsorted
    exact Or.inl ⟨hsorted.2.1.2, hsorted.1.2⟩
  · exact Or.inr ⟨htext, hdigest⟩

/-! ## Whole runs -/

theorem run_resumed (s : StateRoot) (before between : List (RpcEvent F)) (event : RpcEvent F) :
    s.run W P L (before ++ event :: between) =
      ((s.run W P L before).step W P L event).run W P L between := by
  rw [StateRoot.run, Transition.run_append]
  rfl

/-- From a fresh state root, whatever fails and however calls interleave, lost replies are
harmless. -/
theorem retries_harmless (W : Wire F) (P : Prims) (L : LedgerPrims) (deviceId : String) :
    RetrySafe W P L (StateRoot.init deviceId) where
  same := by
    intro before event between event' a a' ha ha' hside hid
    rw [run_resumed] at ha'
    have hfiled := run_filed (P := P) (L := L) (answer_filed ha).1 between
    have hfiled' := (answer_filed ha').1
    rw [hside, hid, step_filed event' hfiled, Option.some.injEq, Filed.mk.injEq] at hfiled'
    obtain ⟨hop, hsha, htext⟩ := hfiled'
    cases a
    cases a'
    simp_all
  replayed := by
    intro before event between event' a t ha ht hside hid
    rw [run_resumed] at ht ⊢
    have hfiled := run_filed (P := P) (L := L) (answer_filed ha).1 between
    rw [← hside, ← hid] at hfiled
    refine ⟨attempt_filed hfiled ht, fun hne => ?_⟩
    by_contra hanswer
    obtain ⟨a', ha'⟩ := Option.ne_none_iff_exists'.mp hanswer
    obtain ⟨hfiled', hattempt⟩ := answer_filed ha'
    rw [ht, Option.some.injEq] at hattempt
    subst hattempt
    have hsame := step_filed (P := P) (L := L) event' hfiled
    rw [show a'.attempt.side = a'.side from rfl, show a'.attempt.rpcId = a'.rpcId from rfl,
      hfiled', Option.some.injEq, Filed.mk.injEq] at hsame
    refine hne ?_
    rw [Answer.attempt, Answer.attempt, hsame.1, hsame.2.1, Attempt.mk.injEq]
    exact ⟨hside, hid, rfl, rfl⟩
  once := by
    intro before event between event' t t' ht hwrites ht' hside hid
    rw [run_resumed] at ht' ⊢
    have hanswer : (StateRoot.run W P L (StateRoot.init deviceId) before).answer W P L event ≠ none :=
      fun hnone => hwrites (attempt_unanswered ht hnone)
    obtain ⟨a, ha⟩ := Option.ne_none_iff_exists'.mp hanswer
    obtain ⟨hfiled, hattempt⟩ := answer_filed ha
    rw [ht, Option.some.injEq] at hattempt
    subst hattempt
    have hlater := run_filed (P := P) (L := L) hfiled between
    apply attempt_filed (f := ⟨a.operation, a.requestSha256, a.text⟩) _ ht'
    rw [hside, hid]
    exact hlater
  failed := fun before event t ht hanswer => attempt_unanswered ht hanswer
  resent := by
    intro before event between event' operation result result' x hperformed hnames hperformed'
    rw [run_resumed] at hperformed' ⊢
    have hcreated := performs_created (performed_spec hperformed) hnames
    exact performs_again (performed_spec hperformed') (run_created hcreated between)
  admitted := fun operation body rpcId hid hbody => client_admitted hid hbody
  distinct := fun operation operation' body body' hbody hbody' hdigest =>
    client_distinct hbody hbody' hdigest

end Remrun.Runner
