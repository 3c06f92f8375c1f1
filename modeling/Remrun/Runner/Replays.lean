import Remrun.Runner.Epoch
import Remrun.Runner.Requests

/-!
# Replayed RPCs

A call leaves a record in the transaction that performs it. The record stays, so a call sent
again under its `rpc_id` is answered from it and writes nothing.
-/

namespace Remrun.Runner

open Relational JsonText
set_option autoImplicit false

universe u

variable {F : Type u} {W : Wire F} {P : Prims} {L : LedgerPrims}

/-- The stores without the calls in flight. -/
def StateRoot.stores (s : StateRoot) : StateRoot := { s with inFlight := [] }

/-- The rows of the stores: key files without a row are left out. -/
def StateRoot.rows (s : StateRoot) : StateRoot :=
  { s.stores with authority := s.authority.map fun db => { db with keys := fun _ => none } }

/-! ## Records -/

section Records
variable {ρ : Type} {t t' : Table (RpcRecord ρ) RpcRecord.Clash}

theorem lookup_record {q : RpcRecord ρ} (hq : q ∈ t) :
    (t.lookup fun x => x.rpcId = q.rpcId) = some q := by
  apply Table.lookup_eq_some hq (by simp)
  intro x hx hid
  have heq : x.rpcId = q.rpcId := by simpa using hid
  exact Table.eq_of_clash hx hq heq heq.symm

theorem lookup_record_mono (hsub : ∀ q ∈ t, q ∈ t') {rpcId : String} {q : RpcRecord ρ}
    (h : (t.lookup fun x => x.rpcId = rpcId) = some q) :
    (t'.lookup fun x => x.rpcId = rpcId) = some q := by
  have hid : q.rpcId = rpcId := by simpa using Table.lookup_sat h
  rw [← hid]
  exact lookup_record (hsub q (Table.lookup_mem h))

end Records

/-- A record as its table shows it. -/
structure Filed where
  operation : String
  requestSha256 : String
  text : List Char

def RpcRecord.filed {ρ : Type} (W : Wire F) (document : ρ → Value F) (q : RpcRecord ρ) : Filed :=
  ⟨q.operation, q.requestSha256, dumps W.floats (document q.response)⟩

/-- The record of an id on one side. -/
def StateRoot.filed (W : Wire F) (s : StateRoot) : Side → String → Option Filed
  | .authority, rpcId => s.authority.bind fun db =>
    (db.rpcRequests.lookup fun q => q.rpcId = rpcId).map (RpcRecord.filed W W.authorityDocument)
  | .target, rpcId =>
    (s.records.lookup fun q => q.rpcId = rpcId).map (RpcRecord.filed W W.targetDocument)

/-- A replayed document is written out as it was the first time. -/
theorem reply_eq {document : Value F} (h : document.Proper) (replayed : Bool) :
    W.reply document replayed = some (dumps W.floats document) := by
  cases replayed with
  | false => rfl
  | true =>
    have hread := loads_dumps W.faithful h
    rw [Wire.reply, if_pos rfl, hread, Option.map_some, dumps_sorted]

/-! ### The authority's transaction -/

section AuthoritySide
variable {call : AuthorityCall} {info : Meta} {r : Readings} {db db' : Authority}
variable {response : Response}

theorem authorityTransaction_replay {q : RpcRecord Response}
    (hq : (db.rpcRequests.lookup fun x => x.rpcId = call.rpcId) = some q)
    (h : authorityTransaction P call info r db = .ok (db', response)) :
    db' = db ∧ q.operation = call.request.operation ∧ q.requestSha256 = call.requestSha256 ∧
      q.response = response := by
  simp only [authorityTransaction, bind_eq_ok, require_eq_ok, hq, pure_eq_ok, Prod.mk.injEq] at h
  obtain ⟨_, _, _, ⟨hop, hsha⟩, rfl, hresp⟩ := h
  exact ⟨rfl, hop, hsha, hresp⟩

theorem authorityTransaction_fresh
    (hnone : (db.rpcRequests.lookup fun x => x.rpcId = call.rpcId) = none)
    (h : authorityTransaction P call info r db = .ok (db', response)) :
    ∃ db1 records, authorityOperation P call.request info r db = .ok (db1, response) ∧
      db.rpcRequests.insert ⟨call.rpcId, call.request.operation, call.requestSha256, response⟩ =
        some records ∧ db' = { db1 with rpcRequests := records } := by
  simp only [authorityTransaction, bind_eq_ok, require_eq_ok, hnone, inserted_eq_ok, pure_eq_ok,
    Prod.mk.injEq] at h
  obtain ⟨_, _, ⟨db1, _⟩, hop, records, hins, rfl, rfl⟩ := h
  rw [effect_records (authorityOperation_effect hop)] at hins
  exact ⟨db1, records, hop, hins, rfl⟩

theorem authorityTransaction_records (h : authorityTransaction P call info r db = .ok (db', response)) :
    ∀ q ∈ db.rpcRequests, q ∈ db'.rpcRequests := by
  intro q hq
  cases hlook : db.rpcRequests.lookup fun x => x.rpcId = call.rpcId with
  | some existing => rw [(authorityTransaction_replay hlook h).1]; exact hq
  | none =>
    obtain ⟨db1, records, _, hins, rfl⟩ := authorityTransaction_fresh hlook h
    exact (Table.mem_insert hins).mpr (Or.inl hq)

/-- The answer of an authority transaction is that of the record it leaves. -/
theorem authorityAnswer_filed {a : Answer} (h : W.authorityAnswer P call info r db = some a) :
    a.side = .authority ∧ a.rpcId = call.rpcId ∧ a.operation = call.request.operation ∧
      a.requestSha256 = call.requestSha256 ∧
      ∃ q, ((committed db (authorityTransaction P call info r db)).rpcRequests.lookup
        fun x => x.rpcId = call.rpcId) = some q ∧
        q.filed W W.authorityDocument = ⟨a.operation, a.requestSha256, a.text⟩ := by
  unfold Wire.authorityAnswer at h
  split at h
  · rename_i db' response hok
    rw [reply_eq (W.authorityProper response), Option.map_some, Option.some.injEq] at h
    rw [← h, hok]
    refine ⟨rfl, rfl, rfl, rfl, ?_⟩
    cases hlook : db.rpcRequests.lookup fun x => x.rpcId = call.rpcId with
    | some existing =>
      obtain ⟨rfl, hop, hsha, hresp⟩ := authorityTransaction_replay hlook hok
      refine ⟨existing, hlook, ?_⟩
      rw [RpcRecord.filed, hop, hsha, hresp]
    | none =>
      obtain ⟨db1, records, _, hins, rfl⟩ := authorityTransaction_fresh hlook hok
      exact ⟨_, lookup_record ((Table.mem_insert hins).mpr (Or.inr rfl)), rfl⟩
  · cases h

/-- Where a record exists, the transaction writes nothing. -/
theorem committed_replay {q : RpcRecord Response}
    (hq : (db.rpcRequests.lookup fun x => x.rpcId = call.rpcId) = some q) :
    committed db (authorityTransaction P call info r db) = db := by
  rcases committed_cases db (authorityTransaction P call info r db) with heq | ⟨response, hok⟩
  · exact heq
  · exact (authorityTransaction_replay hq hok).1

/-- An authority transaction without an answer raised an error. -/
theorem committed_unanswered (h : W.authorityAnswer P call info r db = none) :
    committed db (authorityTransaction P call info r db) = db := by
  unfold Wire.authorityAnswer at h
  split at h
  · rename_i db' response hok
    rw [reply_eq (W.authorityProper response)] at h
    cases h
  · rename_i error herror
    rw [herror]
    rfl

end AuthoritySide

/-! ### The target's transaction -/

section TargetSide
variable {s s' : StateRoot} {header : Header} {operation : Operation} {request : Value F}
variable {r : TargetReadings} {response : TargetResponse}

theorem perform_records {rpcId : String}
    (h : s.perform W P L operation rpcId request r = .ok (s', response)) :
    s'.records = s.records ∧ s'.authority = s.authority ∧ s'.inFlight = s.inFlight := by
  unfold StateRoot.perform at h
  split at h
  · cases h
    exact ⟨rfl, rfl, rfl⟩
  · cases h
    exact ⟨rfl, rfl, rfl⟩
  · simp only [bind_eq_ok, pure_eq_ok, Prod.mk.injEq] at h
    obtain ⟨_, _, rfl, _⟩ := h
    exact ⟨rfl, rfl, rfl⟩
  · simp only [bind_eq_ok, pure_eq_ok, Prod.mk.injEq] at h
    obtain ⟨_, _, rfl, _⟩ := h
    exact ⟨rfl, rfl, rfl⟩
  · simp at h

theorem transaction_replay {q : RpcRecord TargetResponse}
    (hq : (s.records.lookup fun x => x.rpcId = header.rpcId) = some q)
    (h : s.transaction W P L header operation request r = .ok (s', response)) :
    s' = s ∧ q.operation = header.operation ∧ q.requestSha256 = header.requestSha256 ∧
      q.response = response := by
  simp only [StateRoot.transaction, hq, bind_eq_ok, require_eq_ok, pure_eq_ok, Prod.mk.injEq] at h
  obtain ⟨_, ⟨hop, hsha⟩, rfl, hresp⟩ := h
  exact ⟨rfl, hop, hsha, hresp⟩

theorem transaction_fresh
    (hnone : (s.records.lookup fun x => x.rpcId = header.rpcId) = none)
    (h : s.transaction W P L header operation request r = .ok (s', response)) :
    ∃ s1 records, s.perform W P L operation header.rpcId request r = .ok (s1, response) ∧
      s.records.insert ⟨header.rpcId, header.operation, header.requestSha256, response⟩ =
        some records ∧ s' = { s1 with records := records } := by
  simp only [StateRoot.transaction, hnone, bind_eq_ok, inserted_eq_ok, pure_eq_ok,
    Prod.mk.injEq] at h
  obtain ⟨⟨s1, _⟩, hop, records, hins, rfl, rfl⟩ := h
  rw [(perform_records hop).1] at hins
  exact ⟨s1, records, hop, hins, rfl⟩

theorem transaction_records (h : s.transaction W P L header operation request r = .ok (s', response)) :
    (∀ q ∈ s.records, q ∈ s'.records) ∧ s'.authority = s.authority ∧ s'.inFlight = s.inFlight := by
  cases hlook : s.records.lookup fun x => x.rpcId = header.rpcId with
  | some existing =>
    rw [(transaction_replay hlook h).1]
    exact ⟨fun q hq => hq, rfl, rfl⟩
  | none =>
    obtain ⟨s1, records, hop, hins, rfl⟩ := transaction_fresh hlook h
    obtain ⟨_, hauth, hflight⟩ := perform_records hop
    exact ⟨fun q hq => (Table.mem_insert hins).mpr (Or.inl hq), hauth, hflight⟩

theorem targetAnswer_filed {a : Answer}
    (h : s.targetAnswer W P L header operation request r = some a) :
    a.side = .target ∧ a.rpcId = header.rpcId ∧ a.operation = header.operation ∧
      a.requestSha256 = header.requestSha256 ∧
      ∃ q, ((committed s (s.transaction W P L header operation request r)).records.lookup
        fun x => x.rpcId = header.rpcId) = some q ∧
        q.filed W W.targetDocument = ⟨a.operation, a.requestSha256, a.text⟩ := by
  unfold StateRoot.targetAnswer at h
  split at h
  · rename_i s' response hok
    rw [reply_eq (W.targetProper response), Option.map_some, Option.some.injEq] at h
    rw [← h, hok]
    refine ⟨rfl, rfl, rfl, rfl, ?_⟩
    cases hlook : s.records.lookup fun x => x.rpcId = header.rpcId with
    | some existing =>
      obtain ⟨rfl, hop, hsha, hresp⟩ := transaction_replay hlook hok
      refine ⟨existing, hlook, ?_⟩
      rw [RpcRecord.filed, hop, hsha, hresp]
    | none =>
      obtain ⟨s1, records, _, hins, rfl⟩ := transaction_fresh hlook hok
      exact ⟨_, lookup_record ((Table.mem_insert hins).mpr (Or.inr rfl)), rfl⟩
  · cases h

theorem committed_transaction_replay {q : RpcRecord TargetResponse}
    (hq : (s.records.lookup fun x => x.rpcId = header.rpcId) = some q) :
    committed s (s.transaction W P L header operation request r) = s := by
  rcases committed_cases s (s.transaction W P L header operation request r) with
    heq | ⟨response, hok⟩
  · exact heq
  · exact (transaction_replay hq hok).1

theorem committed_transaction_unanswered
    (h : s.targetAnswer W P L header operation request r = none) :
    committed s (s.transaction W P L header operation request r) = s := by
  unfold StateRoot.targetAnswer at h
  split at h
  · rename_i s' response hok
    rw [reply_eq (W.targetProper response)] at h
    cases h
  · rename_i error herror
    rw [herror]
    rfl

end TargetSide

/-! ### The state root -/

section StateRoots
variable {s : StateRoot} {event : RpcEvent F}

/-- What an event does to the authority store and to the target's records. -/
inductive StateRoot.Move (W : Wire F) (P : Prims) (L : LedgerPrims) (s : StateRoot) :
    RpcEvent F → StateRoot → Prop where
  | idle (event : RpcEvent F) (answer : s.answer W P L event = none) : Move W P L s event s
  | created (header : Header) (request : Value F) (db : Authority) (absent : s.authority = none)
      (empty : db.rpcRequests = .empty) :
      Move W P L s (.deliver header request) { s with authority := some db }
  | opened (header : Header) (request : Value F) (inFlight : List (AuthorityCall × Meta)) :
      Move W P L s (.deliver header request) { s with inFlight := inFlight }
  | committed (position : Nat) (r : Readings) (call : AuthorityCall) (info : Meta)
      (db : Authority) (waiting : s.inFlight[position]? = some (call, info))
      (there : s.authority = some db) :
      Move W P L s (.commit position r) { s with
        authority := some (Runner.committed db (authorityTransaction P call info r db))
        inFlight := s.inFlight.eraseIdx position }
  | died (position : Nat) (r : Readings) (wrote : Bool) (call : AuthorityCall) (info : Meta)
      (db : Authority) (keys : KeyFiles) (waiting : s.inFlight[position]? = some (call, info))
      (there : s.authority = some db)
      (written : keys = db.keys ∨
        keys = (Runner.committed db (authorityTransaction P call info r db)).keys) :
      Move W P L s (.dies position r wrote) { s with
        authority := some { db with keys := keys }
        inFlight := s.inFlight.eraseIdx position }
  | received (header : Header) (request : Value F) (r : TargetReadings) (operation : Operation)
      (admitted : W.receiveTarget header request = some operation) :
      Move W P L s (.target header request r)
        (Runner.committed s (s.transaction W P L header operation request r))
  | owned (request : LedgerRequest) (r : LedgerReadings) :
      Move W P L s (.owner request r)
        { s with ledger := Runner.committed s.ledger (ledgerOperation L request r s.ledger) }
  | enrolled (enrollment : Enrollment) :
      Move W P L s (.keyImport enrollment)
        { s with participant := (keyImport P enrollment s.participant).1 }

theorem open_move (header : Header) (request : Value F) (operation : Operation) :
    StateRoot.Move W P L s (.deliver header request) (s.open header operation) := by
  unfold StateRoot.open
  split
  · rename_i clusterId leaseSeconds
    cases hdb : s.authority with
    | some db =>
      rw [createAuthority, ← hdb]
      exact .idle _ rfl
    | none =>
      by_cases hok : clusterId ≠ "" ∧ s.participant.deviceId ≠ "" ∧ 1 ≤ leaseSeconds ∧
          leaseSeconds ≤ 86400
      · rw [createAuthority, if_pos hok]
        exact .created header request _ hdb rfl
      · rw [createAuthority, if_neg hok, ← hdb]
        exact .idle _ rfl
  · dsimp only
    split
    · exact .opened header request _
    · exact .idle _ rfl
  · exact .idle _ rfl

theorem step_rpc_move (s : StateRoot) (event : RpcEvent F) :
    StateRoot.Move W P L s event (s.step W P L event) := by
  cases event with
  | deliver header request =>
    simp only [StateRoot.step]
    split
    · exact open_move header request _
    · exact .idle _ rfl
  | commit position r =>
    cases hwaiting : s.inFlight[position]? with
    | none =>
      simp only [StateRoot.step, hwaiting]
      exact .idle _ (by simp [StateRoot.answer, hwaiting])
    | some waiting =>
      cases hdb : s.authority with
      | none =>
        simp only [StateRoot.step, hwaiting, hdb]
        exact .idle _ (by simp [StateRoot.answer, hwaiting, hdb])
      | some db =>
        simp only [StateRoot.step, hwaiting, hdb]
        exact .committed position r waiting.1 waiting.2 db hwaiting hdb
  | dies position r wrote =>
    cases hwaiting : s.inFlight[position]? with
    | none =>
      simp only [StateRoot.step, hwaiting]
      exact .idle _ rfl
    | some waiting =>
      cases hdb : s.authority with
      | none =>
        simp only [StateRoot.step, hwaiting, hdb]
        exact .idle _ rfl
      | some db =>
        simp only [StateRoot.step, hwaiting, hdb]
        refine .died position r wrote waiting.1 waiting.2 db _ hwaiting hdb ?_
        cases wrote with
        | true => exact Or.inr rfl
        | false => exact Or.inl rfl
  | target header request r =>
    simp only [StateRoot.step]
    split
    · rename_i operation hop
      exact .received header request r operation hop
    · rename_i hnone
      exact .idle _ (by simp [StateRoot.answer, hnone])
  | owner request r => 
    simp only [StateRoot.step]
    split
    · exact .owned request r
    · exact .idle _ rfl
  | keyImport enrollment => exact .enrolled enrollment

/-- A record stays as it is. -/
theorem move_filed {s' : StateRoot} (hmove : StateRoot.Move W P L s event s') {side : Side}
    {rpcId : String} {f : Filed} (h : s.filed W side rpcId = some f) :
    s'.filed W side rpcId = some f := by
  have hauthority : ∀ {db db' : Authority}, s.authority = some db →
      (∀ q ∈ db.rpcRequests, q ∈ db'.rpcRequests) → side = .authority →
      (((db'.rpcRequests.lookup fun q => q.rpcId = rpcId).map
        (RpcRecord.filed W W.authorityDocument)) = some f) := by
    intro db db' hdb hsub hside
    subst hside
    rw [StateRoot.filed, hdb, Option.bind_some, Option.map_eq_some_iff] at h
    obtain ⟨q, hq, hf⟩ := h
    rw [lookup_record_mono hsub hq, Option.map_some, hf]
  cases hmove with
  | idle => exact h
  | opened => exact h
  | owned => exact h
  | enrolled => exact h
  | created header request db absent empty =>
    cases side with
    | target => exact h
    | authority => rw [StateRoot.filed, absent] at h; cases h
  | committed position r call info db waiting there =>
    cases side with
    | target => exact h
    | authority =>
      refine hauthority there ?_ rfl
      rcases committed_cases db (authorityTransaction P call info r db) with heq | ⟨response, hok⟩
      · rw [heq]; exact fun q hq => hq
      · exact authorityTransaction_records hok
  | died position r wrote call info db keys waiting there written =>
    cases side with
    | target => exact h
    | authority =>
      have hsame : ∀ q ∈ db.rpcRequests, q ∈ { db with keys := keys }.rpcRequests :=
        fun q hq => hq
      exact hauthority there hsame rfl
  | received header request r operation admitted =>
    rcases committed_cases s (s.transaction W P L header operation request r) with
      heq | ⟨response, hok⟩
    · rw [heq]; exact h
    · obtain ⟨hsub, hsame, _⟩ := transaction_records hok
      cases side with
      | authority => rw [StateRoot.filed, hsame]; exact h
      | target =>
        rw [StateRoot.filed, Option.map_eq_some_iff] at h ⊢
        obtain ⟨q, hq, hf⟩ := h
        exact ⟨q, lookup_record_mono hsub hq, hf⟩

theorem step_filed (event : RpcEvent F) {side : Side} {rpcId : String} {f : Filed}
    (h : s.filed W side rpcId = some f) : (s.step W P L event).filed W side rpcId = some f :=
  move_filed (step_rpc_move s event) h

theorem run_filed {side : Side} {rpcId : String} {f : Filed}
    (h : s.filed W side rpcId = some f) (events : List (RpcEvent F)) :
    (s.run W P L events).filed W side rpcId = some f := by
  induction events generalizing s with
  | nil => exact h
  | cons event rest ih => exact ih (step_filed event h)

/-- An answer is that of the record the event leaves. -/
theorem answer_filed {a : Answer} (h : s.answer W P L event = some a) :
    (s.step W P L event).filed W a.side a.rpcId = some ⟨a.operation, a.requestSha256, a.text⟩ ∧
      s.attempt W event = some a.attempt := by
  cases event with
  | commit position r =>
    simp only [StateRoot.answer] at h
    split at h
    · rename_i call info db hwaiting hdb
      obtain ⟨hside, hid, hop, hsha, q, hq, hf⟩ := authorityAnswer_filed h
      constructor
      · simp only [StateRoot.step, hwaiting, hdb, hside, hid, StateRoot.filed, Option.bind_some, hq,
          Option.map_some, hf]
      · simp only [StateRoot.attempt, hwaiting, Option.map_some, Answer.attempt, hside, hid, hop,
          hsha]
    · cases h
  | target header request r =>
    simp only [StateRoot.answer] at h
    split at h
    · rename_i operation hop
      obtain ⟨hside, hid, hname, hsha, q, hq, hf⟩ := targetAnswer_filed h
      constructor
      · simp only [StateRoot.step, hop, hside, hid, StateRoot.filed, hq, Option.map_some, hf]
      · simp only [StateRoot.attempt, hop, Option.map_some, Answer.attempt, hside, hid, hname, hsha]
    · cases h
  | deliver => cases h
  | dies => cases h
  | owner => cases h
  | keyImport => cases h

/-- Where a record exists, an attempt under its id writes nothing. -/
theorem attempt_filed {t : Attempt} {f : Filed} (hf : s.filed W t.side t.rpcId = some f)
    (h : s.attempt W event = some t) : (s.step W P L event).stores = s.stores := by
  cases event with
  | commit position r =>
    simp only [StateRoot.attempt, Option.map_eq_some_iff] at h
    obtain ⟨⟨call, info⟩, hwaiting, rfl⟩ := h
    simp only [StateRoot.filed, Option.bind_eq_some_iff, Option.map_eq_some_iff] at hf
    obtain ⟨db, hdb, q, hq, _⟩ := hf
    simp only [StateRoot.step, hwaiting, hdb, committed_replay hq, StateRoot.stores]
  | dies position r wrote =>
    simp only [StateRoot.attempt, Option.map_eq_some_iff] at h
    obtain ⟨⟨call, info⟩, hwaiting, rfl⟩ := h
    simp only [StateRoot.filed, Option.bind_eq_some_iff, Option.map_eq_some_iff] at hf
    obtain ⟨db, hdb, q, hq, _⟩ := hf
    simp only [StateRoot.step, hwaiting, hdb, committed_replay hq, StateRoot.stores, ite_self]
  | target header request r =>
    simp only [StateRoot.attempt, Option.map_eq_some_iff] at h
    obtain ⟨operation, hop, rfl⟩ := h
    simp only [StateRoot.filed, Option.map_eq_some_iff] at hf
    obtain ⟨q, hq, _⟩ := hf
    simp only [StateRoot.step, hop, committed_transaction_replay hq]
  | deliver => cases h
  | owner => cases h
  | keyImport => cases h

theorem attempt_unanswered {t : Attempt} (h : s.attempt W event = some t)
    (hanswer : s.answer W P L event = none) : (s.step W P L event).rows = s.rows := by
  cases event with
  | commit position r =>
    cases hwaiting : s.inFlight[position]? with
    | none => simp only [StateRoot.step, hwaiting]
    | some waiting =>
      cases hdb : s.authority with
      | none => simp only [StateRoot.step, hwaiting, hdb]
      | some db =>
        simp only [StateRoot.answer, hwaiting, hdb] at hanswer
        simp only [StateRoot.step, hwaiting, hdb, committed_unanswered hanswer, StateRoot.rows,
          StateRoot.stores]
  | dies position r wrote =>
    cases hwaiting : s.inFlight[position]? with
    | none => simp only [StateRoot.step, hwaiting]
    | some waiting =>
      cases hdb : s.authority with
      | none => simp only [StateRoot.step, hwaiting, hdb]
      | some db =>
        simp only [StateRoot.step, hwaiting, hdb, StateRoot.rows, StateRoot.stores, Option.map_some]
  | target header request r =>
    simp only [StateRoot.step]
    split
    · rename_i operation hop
      simp only [StateRoot.answer, hop] at hanswer
      rw [committed_transaction_unanswered hanswer]
    · rfl
  | deliver => cases h
  | owner => cases h
  | keyImport => cases h

end StateRoots

end Remrun.Runner
