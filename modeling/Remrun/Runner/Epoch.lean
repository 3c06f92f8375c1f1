import Remrun.Runner.Protocol

/-!
# The authority epoch under concurrent calls

`open_authority_store` reads the epoch before the operation's transaction begins, and
`authority_epoch_rotate` and `authority_target_key_create` compare and store that reading.
A rotation that commits in between is not noticed: the second of two rotations succeeds
again, or takes the epoch back. When no write goes through on an outdated reading, the
epoch only grows, each value is rotated away once and every pending key is current.
-/

namespace Remrun.Runner

open Relational
set_option autoImplicit false

variable {P : Prims}

/-! ## What a run shows of its rotations -/

/-- The call a commit completes, with the response it returns. -/
def System.completes (P : Prims) (s : System) : Event → Option (AuthorityCall × Response)
  | .authorityCommit position r =>
    match s.inFlight[position]? with
    | some (call, info) =>
      match authorityTransaction P call info r s.authority with
      | .ok (_, response) => some (call, response)
      | .error _ => none
    | none => none
  | _ => none

/-- The event completes the `authority_epoch_rotate` call `rpcId` with `ROTATED` from `e`. -/
def System.Rotates (P : Prims) (s : System) (event : Event) (rpcId : String) (e : Int) : Prop :=
  ∃ call expected next, s.completes P event = some (call, .rotated next e) ∧
    call.request = .epochRotate expected ∧ call.rpcId = rpcId

/-- The epoch never decreases along the run, `ROTATED` from one epoch is returned to one
call only (retries of a call repeat its `rpc_id`), and a pending key is always current. -/
structure EpochSafe (P : Prims) (s : System) (events : List Event) : Prop where
  monotone : ∀ before after, events = before ++ after →
    (s.run P before).authority.info.authorityEpoch ≤
      (s.run P events).authority.info.authorityEpoch
  once : ∀ before event after before' event' after', events = before ++ event :: after →
    events = before' ++ event' :: after' → ∀ rpcId rpcId' e,
      (s.run P before).Rotates P event rpcId e →
        (s.run P before').Rotates P event' rpcId' e → rpcId = rpcId'
  pending : ∀ before after, events = before ++ after →
    ∀ t ∈ (s.run P before).authority.targets, t.state = .pending →
      t.authorityEpoch = (s.run P before).authority.info.authorityEpoch

/-- The request would write on the reading `info`: it is no retry, and it is a rotation of
that epoch on a quiescent store, or creates a key the epoch does not have yet. -/
def AuthorityCall.writesEpoch (call : AuthorityCall) (info : Meta) (db : Authority) : Prop :=
  (db.rpcRequests.lookup fun q => q.rpcId = call.rpcId) = none ∧
    match call.request with
    | .epochRotate expected => expected = info.authorityEpoch ∧ db.quiescent = true
    | .targetKeyCreate target => db.target target info.authorityEpoch = none
    | _ => False

/-- Such a write commits only while the epoch it read is still the stored one. -/
def System.FreshEpoch (s : System) : Event → Prop
  | .authorityCommit position _ => ∀ call info, s.inFlight[position]? = some (call, info) →
    call.writesEpoch info s.authority → info.authorityEpoch = s.authority.info.authorityEpoch
  | _ => True

/-! ## One transaction -/

section Transaction
variable {call : AuthorityCall} {info : Meta} {r : Readings} {db db' : Authority}
variable {response : Response}

/-- No operation touches the replay records. -/
theorem effect_records {request : AuthorityRequest} (heff : Effect P request info r db db') :
    db'.rpcRequests = db.rpcRequests := by
  cases heff with
  | leased body tokenHash project _ _ write =>
    simp only [grantLease, bind_eq_ok] at write
    obtain ⟨_, _, write⟩ := write
    split at write
    · simp at write
    · rw [pure_eq_ok] at write
      rw [← write]
  | imported _ _ _ _ _ _ _ _ _ _ _ _ write => rw [importReceipt_frame write]
  | unchanged => rfl
  | registered => rfl
  | beaten => rfl
  | released => rfl
  | keyCreated => rfl
  | keyFinalized => rfl
  | rotated => rfl
  | issued => rfl
  | restored => rfl

/-- A transaction answers from its replay record, or performs its operation and files one. -/
theorem authorityTransaction_cases
    (h : authorityTransaction P call info r db = .ok (db', response)) :
    (∃ q ∈ db.rpcRequests, q.rpcId = call.rpcId ∧ q.operation = call.request.operation ∧
      q.response = response ∧ db' = db) ∨
    ((db.rpcRequests.lookup fun q => q.rpcId = call.rpcId) = none ∧
      ∃ db1, authorityOperation P call.request info r db = .ok (db1, response) ∧
        (∀ q, q ∈ db'.rpcRequests ↔ q ∈ db.rpcRequests ∨
          q = ⟨call.rpcId, call.request.operation, call.requestSha256, response⟩) ∧
        db'.info = db1.info ∧ db'.targets = db1.targets) := by
  simp only [authorityTransaction, bind_eq_ok, require_eq_ok] at h
  obtain ⟨_, _, h⟩ := h
  split at h
  · rename_i existing hlook
    simp only [bind_eq_ok, require_eq_ok, pure_eq_ok, Prod.mk.injEq] at h
    obtain ⟨_, ⟨hop, _⟩, rfl, hresp⟩ := h
    exact Or.inl ⟨existing, Table.lookup_mem hlook, by simpa using Table.lookup_sat hlook, hop,
      hresp, rfl⟩
  · rename_i hnone
    simp only [bind_eq_ok, inserted_eq_ok, pure_eq_ok, Prod.mk.injEq] at h
    obtain ⟨⟨db1, response1⟩, hop, records, hins, rfl, rfl⟩ := h
    refine Or.inr ⟨hnone, db1, hop, fun q => ?_, rfl, rfl⟩
    rw [← effect_records (authorityOperation_effect hop)]
    exact Table.mem_insert hins

theorem authorityEpochRotate_rotated {expected next e : Int}
    (h : authorityEpochRotate expected info db = .ok (db', .rotated next e)) :
    e = info.authorityEpoch ∧ expected = info.authorityEpoch ∧ db.quiescent = true ∧
      db'.info.authorityEpoch = e + 1 := by
  simp only [authorityEpochRotate, bind_eq_ok, require_eq_ok] at h
  obtain ⟨_, hexp, h⟩ := h
  split at h
  · rename_i hq
    simp only [pure_eq_ok, Prod.mk.injEq, Response.rotated.injEq] at h
    obtain ⟨rfl, _, rfl⟩ := h
    exact ⟨hexp, hexp, hq, rfl⟩
  · simp [pure_eq_ok] at h

end Transaction

/-! ## The invariant -/

/-- The replay record of a rotation. -/
def RpcRecord.Rotation (q : RpcRecord Response) (e : Int) : Prop :=
  q.operation = "authority_epoch_rotate" ∧ ∃ next, q.response = .rotated next e

structure EpochInv (db : Authority) : Prop where
  pending : ∀ t ∈ db.targets, t.state = .pending → t.authorityEpoch = db.info.authorityEpoch
  past : ∀ q ∈ db.rpcRequests, ∀ e, q.Rotation e → e < db.info.authorityEpoch
  once : ∀ q ∈ db.rpcRequests, ∀ q' ∈ db.rpcRequests, ∀ e, q.Rotation e → q'.Rotation e →
    q.rpcId = q'.rpcId

theorem epochInv_init (clusterId deviceId : String) (leaseSeconds : Int) :
    EpochInv (Authority.init clusterId deviceId leaseSeconds) where
  pending := fun t ht => absurd ht (Table.not_mem_empty t)
  past := fun q hq => absurd hq (Table.not_mem_empty q)
  once := fun q hq => absurd hq (Table.not_mem_empty q)

theorem quiescent_no_pending {db : Authority} (h : db.quiescent = true) {t : AuthorityTarget}
    (ht : t ∈ db.targets) : t.state ≠ .pending := by
  simp only [Authority.quiescent, Bool.and_eq_true, List.isEmpty_iff] at h
  intro hstate
  exact Table.select_eq_nil.mp h.2 t ht (decide_eq_true hstate)

/-- Targets and epoch after an operation whose reading is current where it matters. -/
theorem operation_epoch {call : AuthorityCall} {info : Meta} {r : Readings} {db db' : Authority}
    {response : Response} (h : EpochInv db)
    (hnone : (db.rpcRequests.lookup fun q => q.rpcId = call.rpcId) = none)
    (hfresh : call.writesEpoch info db → info.authorityEpoch = db.info.authorityEpoch)
    (hop : authorityOperation P call.request info r db = .ok (db', response)) :
    (∀ t ∈ db'.targets, t.state = .pending → t.authorityEpoch = db'.info.authorityEpoch) ∧
      db.info.authorityEpoch ≤ db'.info.authorityEpoch := by
  have heff := authorityOperation_effect hop
  unfold AuthorityCall.writesEpoch at hfresh
  cases heff with
  | keyCreated target keyId digest keys asked absent targets insert =>
    rw [asked] at hfresh
    have hcur := hfresh ⟨hnone, absent⟩
    refine ⟨fun t ht hstate => ?_, le_refl _⟩
    rcases (Table.mem_insert insert).mp ht with ht | rfl
    · exact h.pending t ht hstate
    · exact hcur
  | keyFinalized p =>
    refine ⟨fun t ht hstate => ?_, le_refl _⟩
    dsimp only at ht
    obtain ⟨b, hb, rfl⟩ := Table.mem_update.mp ht
    unfold Table.setWhere at hstate ⊢
    split at hstate
    · simp at hstate
    · rename_i hno
      rw [if_neg hno]
      exact h.pending b hb hstate
  | rotated asked quiescent =>
    rw [asked] at hfresh
    have hcur := hfresh ⟨hnone, rfl, quiescent⟩
    refine ⟨fun t ht hstate => ?_, ?_⟩
    · dsimp only at ht
      obtain ⟨b, hb, rfl⟩ := Table.mem_update.mp ht
      unfold Table.setWhere at hstate
      split at hstate
      · simp at hstate
      · exact absurd hstate (quiescent_no_pending quiescent hb)
    · change db.info.authorityEpoch ≤ info.authorityEpoch + 1
      omega
  | leased body tokenHash project _ _ write =>
    simp only [grantLease, bind_eq_ok] at write
    obtain ⟨_, _, write⟩ := write
    split at write
    · simp at write
    · rw [pure_eq_ok] at write
      rw [← write]
      exact ⟨h.pending, le_refl _⟩
  | imported _ _ _ _ _ _ _ _ _ _ _ _ write =>
    rw [importReceipt_frame write]
    exact ⟨h.pending, le_refl _⟩
  | unchanged => exact ⟨h.pending, le_refl _⟩
  | registered => exact ⟨h.pending, le_refl _⟩
  | beaten => exact ⟨h.pending, le_refl _⟩
  | released => exact ⟨h.pending, le_refl _⟩
  | issued => exact ⟨h.pending, le_refl _⟩
  | restored => exact ⟨h.pending, le_refl _⟩

/-- What a committed transaction leaves, and what it reported of a rotation. -/
theorem transaction_epoch {call : AuthorityCall} {info : Meta} {r : Readings} {db db' : Authority}
    {response : Response} (h : EpochInv db)
    (hfresh : call.writesEpoch info db → info.authorityEpoch = db.info.authorityEpoch)
    (hrun : authorityTransaction P call info r db = .ok (db', response)) :
    EpochInv db' ∧ db.info.authorityEpoch ≤ db'.info.authorityEpoch ∧
      ∀ q ∈ db.rpcRequests, q ∈ db'.rpcRequests := by
  rcases authorityTransaction_cases hrun with ⟨_, _, _, _, _, rfl⟩ |
    ⟨hnone, db1, hop, hrecords, hinfo, htargets⟩
  · exact ⟨h, le_refl _, fun _ hq => hq⟩
  · obtain ⟨hpending, hle⟩ := operation_epoch h hnone hfresh hop
    -- the filed record is a rotation only if the epoch it names was the stored one
    have hnew : ∀ e, RpcRecord.Rotation
        ⟨call.rpcId, call.request.operation, call.requestSha256, response⟩ e →
        e = db.info.authorityEpoch ∧ db'.info.authorityEpoch = e + 1 := by
      rintro e ⟨hname, next, hresp⟩
      dsimp only at hname hresp
      cases hreq : call.request with
      | epochRotate expected =>
        rw [hreq, hresp] at hop
        obtain ⟨he, hexp, hq, hnext⟩ := authorityEpochRotate_rotated hop
        refine ⟨he.trans (hfresh ⟨hnone, ?_⟩), by rw [hinfo, hnext]⟩
        rw [hreq]
        exact ⟨hexp, hq⟩
      | _ => simp [hreq, AuthorityRequest.operation] at hname
    refine ⟨⟨?_, ?_, ?_⟩, hinfo ▸ hle, fun q hq => (hrecords q).mpr (Or.inl hq)⟩
    · rw [hinfo, htargets]
      exact hpending
    · intro q hq e hrot
      rcases (hrecords q).mp hq with hq | rfl
      · exact lt_of_lt_of_le (h.past q hq e hrot) (hinfo ▸ hle)
      · have := (hnew e hrot).2
        omega
    · intro q hq q' hq' e hrot hrot'
      rcases (hrecords q).mp hq with hq | rfl <;> rcases (hrecords q').mp hq' with hq' | rfl
      · exact h.once q hq q' hq' e hrot hrot'
      · have := h.past q hq e hrot
        have := (hnew e hrot').1
        omega
      · have := h.past q' hq' e hrot'
        have := (hnew e hrot).1
        omega
      · rfl

/-- The epoch and the replay records only grow. -/
def System.EpochGrows (s s' : System) : Prop :=
  s.authority.info.authorityEpoch ≤ s'.authority.info.authorityEpoch ∧
    ∀ q ∈ s.authority.rpcRequests, q ∈ s'.authority.rpcRequests

theorem step_epoch {s : System} {event : Event} (h : EpochInv s.authority)
    (hfresh : s.FreshEpoch event) :
    EpochInv (s.step P event).authority ∧ s.EpochGrows (s.step P event) := by
  have hsame : EpochInv s.authority ∧ s.EpochGrows s := ⟨h, le_refl _, fun _ hq => hq⟩
  cases event with
  | authorityOpen call =>
    simp only [System.step]
    split
    · exact hsame
    · exact hsame
  | participantCall d call now => exact hsame
  | keyImport d e => exact hsame
  | authorityCommit position r =>
    simp only [System.step]
    split
    · rename_i call info hwaiting
      rcases committed_cases s.authority (authorityTransaction P call info r s.authority) with
        heq | ⟨response, hok⟩
      · rw [heq]
        exact hsame
      · obtain ⟨hinv, hle, hkeep⟩ := transaction_epoch h (hfresh call info hwaiting) hok
        exact ⟨hinv, hle, hkeep⟩
    · exact hsame

/-- A completed rotation is on record. -/
theorem rotates_record {s : System} {event : Event} {rpcId : String} {e : Int}
    (h : s.Rotates P event rpcId e) :
    ∃ q ∈ (s.step P event).authority.rpcRequests, q.rpcId = rpcId ∧ q.Rotation e := by
  obtain ⟨call, expected, next, hcomplete, hreq, rfl⟩ := h
  have hname : call.request.operation = "authority_epoch_rotate" := by rw [hreq]; rfl
  cases event with
  | authorityOpen call => simp [System.completes] at hcomplete
  | participantCall d call now => simp [System.completes] at hcomplete
  | keyImport d e => simp [System.completes] at hcomplete
  | authorityCommit position r =>
    simp only [System.completes] at hcomplete
    split at hcomplete
    · rename_i call' info hwaiting
      split at hcomplete
      · rename_i db' response hrun
        simp only [Option.some.injEq, Prod.mk.injEq] at hcomplete
        obtain ⟨rfl, rfl⟩ := hcomplete
        have hstep : (s.step P (.authorityCommit position r)).authority = db' := by
          simp [System.step, hwaiting, hrun, committed]
        rw [hstep]
        rcases authorityTransaction_cases hrun with ⟨q, hq, hid, hop, hresp, rfl⟩ |
          ⟨_, _, _, hrecords, _, _⟩
        · exact ⟨q, hq, hid, hop.trans hname, next, hresp⟩
        · exact ⟨_, (hrecords _).mpr (Or.inr rfl), rfl, hname, next, rfl⟩
      · simp at hcomplete
    · simp at hcomplete

/-! ## Whole runs -/

/-- Calls with nothing in between always commit on a current reading. -/
theorem fresh_rpcs {s : System} (hidle : s.inFlight = [])
    (calls : List (AuthorityCall × Readings)) :
    Transition.Along (System.step P) System.FreshEpoch s (Event.rpcs calls) := by
  induction calls generalizing s with
  | nil => trivial
  | cons call rest ih =>
    refine ⟨trivial, ?_, ?_⟩
    · intro call' info hwaiting _
      simp only [System.step] at hwaiting ⊢
      split at hwaiting
      · rename_i read hopen
        simp only [openAuthorityStore, bind_eq_ok, require_eq_ok, pure_eq_ok] at hopen
        obtain ⟨_, _, _, _, rfl⟩ := hopen
        simp only [hidle, List.nil_append, List.getElem?_cons_zero, Option.some.injEq,
          Prod.mk.injEq] at hwaiting
        rw [← hwaiting.2]
      · simp [hidle] at hwaiting
    · rw [run_rpc hidle]
      exact ih (s := { s with authority := authorityStep P s.authority call }) hidle

/-- In every run whose epoch writes commit on a current reading, the epoch is safe. -/
theorem epochSafe_of_fresh (P : Prims) (clusterId coordinatorDeviceId : String)
    (leaseSeconds : Int) (events : List Event)
    (hfresh : Transition.Along (System.step P) System.FreshEpoch
      (System.init clusterId coordinatorDeviceId leaseSeconds) events) :
    EpochSafe P (System.init clusterId coordinatorDeviceId leaseSeconds) events := by
  have hinv : ∀ before after, events = before ++ after → EpochInv
      ((System.init clusterId coordinatorDeviceId leaseSeconds).run P before).authority := by
    rintro before after rfl
    exact Transition.run_invariant (fun s : System => EpochInv s.authority)
      (fun _ _ h hok => (step_epoch h hok).1)
      (epochInv_init clusterId coordinatorDeviceId leaseSeconds)
      (Transition.along_append.mp hfresh).1
  have hgrows : ∀ before after, events = before ++ after → System.EpochGrows
      ((System.init clusterId coordinatorDeviceId leaseSeconds).run P before)
      ((System.init clusterId coordinatorDeviceId leaseSeconds).run P events) := by
    rintro before after rfl
    have hbefore := hinv before after rfl
    rw [System.run, System.run, Transition.run_append]
    exact Transition.run_climbs (fun s : System => EpochInv s.authority) System.EpochGrows
      (fun _ => ⟨le_refl _, fun _ hq => hq⟩)
      (fun _ _ _ hab hbc => ⟨hab.1.trans hbc.1, fun q hq => hbc.2 q (hab.2 q hq)⟩)
      (fun _ _ h hok => step_epoch h hok) hbefore (Transition.along_append.mp hfresh).2
  -- the record of a rotation is still there at the end of the run
  have hfinal : ∀ before event after, events = before ++ event :: after → ∀ rpcId e,
      ((System.init clusterId coordinatorDeviceId leaseSeconds).run P before).Rotates P event
        rpcId e →
      ∃ q ∈ ((System.init clusterId coordinatorDeviceId leaseSeconds).run P
        events).authority.rpcRequests, q.rpcId = rpcId ∧ q.Rotation e := by
    intro before event after hsplit rpcId e hrot
    obtain ⟨q, hq, hid, hrec⟩ := rotates_record hrot
    refine ⟨q, (hgrows (before ++ [event]) after (by simp [hsplit])).2 q ?_, hid, hrec⟩
    rw [System.run, Transition.run_append]
    exact hq
  constructor
  · exact fun before after hsplit => (hgrows before after hsplit).1
  · intro before event after before' event' after' hsplit hsplit' rpcId rpcId' e hrot hrot'
    obtain ⟨q, hq, rfl, hrec⟩ := hfinal before event after hsplit rpcId e hrot
    obtain ⟨q', hq', rfl, hrec'⟩ := hfinal before' event' after' hsplit' rpcId' e hrot'
    exact (hinv events [] (by simp)).once q hq q' hq' e hrec hrec'
  · exact fun before after hsplit => (hinv before after hsplit).pending

def sampleRotate (rpcId : String) (expected : Int) : AuthorityCall :=
  sampleCall rpcId (.epochRotate expected)

theorem epochSafe_two_rotations :
    EpochSafe samplePrims sampleSystem (Event.rpcs
      [(sampleRotate "1" 1, sampleReadings "u" (by decide)),
        (sampleRotate "2" 2, sampleReadings "u" (by decide))]) :=
  epochSafe_of_fresh samplePrims "c1" "coordinator" 60 _ (fresh_rpcs rfl _)

/-- Call `a` reads epoch 1; calls `b` and `c` rotate to 2 and to 3; then `a` commits. -/
def staleRotation : List Event :=
  [.authorityOpen (sampleRotate "a" 1),
    .authorityOpen (sampleRotate "b" 1), .authorityCommit 1 (sampleReadings "u" (by decide)),
    .authorityOpen (sampleRotate "c" 2), .authorityCommit 1 (sampleReadings "u" (by decide)),
    .authorityCommit 0 (sampleReadings "u" (by decide))]

theorem staleRotation_not_epochSafe : ¬ EpochSafe samplePrims sampleSystem staleRotation := by
  intro h
  have hle := h.monotone (staleRotation.take 5) (staleRotation.drop 5) (by simp)
  revert hle
  decide +kernel

end Remrun.Runner
