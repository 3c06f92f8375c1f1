import Remrun.Runner.Authority

/-!
# What an authority operation can do

One case for each write an operation performs, with the guards the source checked
before it. Every invariant of the authority store is derived from this list; no later
module unfolds an operation again.
-/

namespace Remrun.Runner

open Relational
set_option autoImplicit false

variable {P : Prims}

/-! ## Lookups -/

theorem project_mem {db : Authority} {key : String} {p : Project}
    (h : db.project key = some p) : p ∈ db.projects ∧ p.projectKey = key :=
  ⟨Table.lookup_mem h, by simpa using Table.lookup_sat h⟩

theorem project_eq_of_key {db : Authority} {p q : Project} (hp : p ∈ db.projects)
    (hq : q ∈ db.projects) (h : p.projectKey = q.projectKey) : p = q :=
  Table.eq_of_clash hp hq (Or.inl h) (Or.inl h.symm)

theorem project_eq_some {db : Authority} {p : Project} (hp : p ∈ db.projects) :
    db.project p.projectKey = some p := by
  apply Table.lookup_eq_some hp (by simp)
  intro q hq hkey
  exact project_eq_of_key hq hp (by simpa using hkey)

theorem currentLeaseId_eq_some {db : Authority} {key id : String} :
    db.currentLeaseId key = some id ↔
      ∃ p ∈ db.projects, p.projectKey = key ∧ p.currentLeaseId = some id := by
  unfold Authority.currentLeaseId
  constructor
  · intro h
    obtain ⟨p, hp, hcur⟩ := Option.bind_eq_some_iff.mp h
    exact ⟨p, (project_mem hp).1, (project_mem hp).2, hcur⟩
  · rintro ⟨p, hp, rfl, hcur⟩
    rw [project_eq_some hp]
    exact hcur

theorem unresolvedGrants_eq_nil {db : Authority} {key : String} :
    unresolvedGrants db key = [] ↔
      ∀ g ∈ db.grants, g.projectKey = key → g.state.unresolved = false := by
  unfold unresolvedGrants
  rw [← List.length_eq_zero_iff, List.length_insertionSort, List.length_eq_zero_iff,
    Table.select_eq_nil]
  constructor
  · intro h g hg hkey
    have := h g hg
    simpa [hkey] using this
  · intro h g hg hp
    simp only [decide_eq_true_eq] at hp
    rw [h g hg hp.1] at hp
    exact absurd hp.2 (by simp)

/-- The credential of a live lease names the current lease of its project. -/
theorem liveLease_spec {db : Authority} {c : Credential} {tokenHash : String} {now : Int}
    {l : Lease} (h : liveLease db c tokenHash now = some l) :
    l ∈ db.leases ∧ l.leaseId = c.leaseId ∧ l.projectKey = c.projectKey ∧ l.fence = c.fence ∧
      db.currentLeaseId c.projectKey = some l.leaseId ∧ l.state = .active := by
  obtain ⟨hlook, hlive⟩ := Option.filter_eq_some_iff.mp h
  have hc := Table.lookup_sat hlook
  simp only [credentialed, decide_eq_true_eq] at hc hlive
  exact ⟨Table.lookup_mem hlook, hc.1, hc.2.1, hc.2.2.1, hc.2.2.2.2, hlive.1⟩

/-! ## The effects -/

/-- The receipt a request delivers. -/
def AuthorityRequest.envelope : AuthorityRequest → Option Envelope
  | .targetKeyFinalize receipt => receipt
  | .grantImport body => body.receipt
  | _ => none

/-- The writes of one operation on the metadata snapshot `info`. -/
inductive Effect (P : Prims) (request : AuthorityRequest) (info : Meta) (r : Readings)
    (db : Authority) : Authority → Prop where
  | unchanged : Effect P request info r db db
  | registered (body : RegisterBody) (projects : Table Project Project.Clash)
      (key : body.projectKey.length = 64)
      (insert : db.projects.insert (freshProject body) = some projects) :
      Effect P request info r db { db with projects := projects }
  | leased (body : AcquireBody) (tokenHash : String) (project : Project) (db' : Authority)
      (mem : project ∈ db.projects)
      (write : grantLease db project (freshLease P body tokenHash info r db project) = .ok db') :
      Effect P request info r db db'
  | beaten (owned : Lease → Bool) (now until_ : Int) :
      Effect P request info r db { db with
        leases := db.leases.update owned (Lease.beat now until_) fun _ _ => ⟨id, id⟩ }
  | released (c : Credential) (tokenHash : String) (project : Project) (lease : Lease)
      (owned : Lease → Bool)
      (mem : project ∈ db.projects) (key : project.projectKey = c.projectKey)
      (current : project.currentLeaseId = some c.leaseId)
      (ready : project.state ≠ .recovery)
      (ownedIff : ∀ l, owned l = true ↔ l.leaseId = c.leaseId ∧ l.projectKey = c.projectKey ∧
        l.fence = c.fence ∧ l.ownerTokenSha256 = tokenHash ∧ l.state = .active)
      (held : lease ∈ db.leases) (heldOwned : owned lease = true) :
      Effect P request info r db { db with
        leases := db.leases.update owned (Lease.release r.now) fun _ _ => ⟨id, id⟩
        projects := db.projects.update
          (fun p => p.projectKey = c.projectKey ∧ p.currentLeaseId = some c.leaseId)
          Project.unheld fun _ _ => ⟨id, id⟩ }
  | keyCreated (target keyId digest : String) (keys : KeyFiles)
      (asked : request = .targetKeyCreate target)
      (absent : db.target target info.authorityEpoch = none)
      (targets : Table AuthorityTarget AuthorityTarget.Clash)
      (insert : db.targets.insert ⟨target, info.authorityEpoch, keyId, digest, .pending⟩ =
        some targets) :
      Effect P request info r db { db with keys := keys, targets := targets }
  | keyFinalized (p : AuthorityTarget → Bool) :
      Effect P request info r db { db with
        targets := db.targets.update p (fun t => { t with state := .enrolled })
          (target_keeps_state _) }
  | rotated (asked : request = .epochRotate info.authorityEpoch)
      (quiescent : db.quiescent = true) :
      Effect P request info r db { db with
        targets := db.targets.update
          (fun t => t.authorityEpoch = info.authorityEpoch ∧ t.state = .enrolled)
          (fun t => { t with state := .retired }) (target_keeps_state _)
        info := { db.info with authorityEpoch := info.authorityEpoch + 1 } }
  | issued (body : GrantIssueBody) (tokenHash : String) (lease : Lease) (secret : Bytes)
      (capability : Envelope) (grants : Table Grant Grant.Clash)
      (live : liveLease db body.credential tokenHash r.now = some lease)
      (insert : db.grants.insert (freshGrant P body tokenHash info r.uuid capability) =
        some grants) :
      Effect P request info r db { db with
        grants := grants
        signed := (secret, capabilityBody body info r.uuid) :: db.signed }
  | imported (receipt : Envelope) (path : KeyPath) (secret : Bytes)
      (projectKey receiptSha : String) (db' : Authority) (response : Response)
      (delivered : request.envelope = some receipt)
      (kind : receipt.body.kind = some .grantStatus)
      (cluster : receipt.body.clusterId.getD "" = info.clusterId)
      (stored : db.keys path = some secret)
      (verified : P.urlsafeB64decode receipt.sig = some (P.hmac secret receipt.body))
      (write : importReceipt db projectKey receipt.body receiptSha = .ok (db', response)) :
      Effect P request info r db db'
  | restored (c : Credential) (tokenHash : String) (lease : Lease)
      (live : liveLease db c tokenHash r.now = some lease)
      (settled : unresolvedGrants db c.projectKey = []) :
      Effect P request info r db { db with
        leases := db.leases.update (fun l => l.leaseId = c.leaseId)
          Lease.normalised fun _ _ => ⟨id, id⟩
        projects := db.projects.update
          (fun p => p.projectKey = c.projectKey ∧ p.currentLeaseId = some c.leaseId)
          Project.restored fun _ _ => ⟨id, id⟩ }

variable {request : AuthorityRequest} {info : Meta} {r : Readings} {db db' : Authority}
variable {response : Response}

theorem authorityProjectRegister_effect {body : RegisterBody}
    (h : authorityProjectRegister body db = .ok (db', response)) : Effect P request info r db db' := by
  simp only [authorityProjectRegister, bind_eq_ok, require_eq_ok] at h
  obtain ⟨_, ⟨hkey, _, _⟩, h⟩ := h
  split at h
  · simp only [bind_eq_ok, require_eq_ok, pure_eq_ok, Prod.mk.injEq] at h
    obtain ⟨_, _, rfl, _⟩ := h
    exact .unchanged
  · simp only [bind_eq_ok, inserted_eq_ok, pure_eq_ok, Prod.mk.injEq] at h
    obtain ⟨projects, hins, rfl, _⟩ := h
    exact .registered body projects hkey hins

theorem authorityAcquire_effect {body : AcquireBody}
    (h : authorityAcquire P body info r db = .ok (db', response)) : Effect P request info r db db' := by
  simp only [authorityAcquire, bind_eq_ok, require_eq_ok] at h
  obtain ⟨tokenHash, _, _, _, h⟩ := h
  split at h
  · simp only [bind_eq_ok, require_eq_ok, pure_eq_ok, Prod.mk.injEq] at h
    obtain ⟨_, _, rfl, _⟩ := h
    exact .unchanged
  · split at h
    · simp at h
    · rename_i project hproject
      simp only [bind_eq_ok, require_eq_ok] at h
      obtain ⟨_, _, h⟩ := h
      split at h
      · simp only [pure_eq_ok, Prod.mk.injEq] at h
        obtain ⟨rfl, _⟩ := h
        exact .unchanged
      · simp only [bind_eq_ok, pure_eq_ok, Prod.mk.injEq] at h
        obtain ⟨_, hwrite, rfl, _⟩ := h
        exact .leased body tokenHash project _ (project_mem hproject).1 hwrite

theorem authorityHeartbeat_effect {c : Credential} {now : Int}
    (h : authorityHeartbeat P c info now db = .ok (db', response)) : Effect P request info r db db' := by
  simp only [authorityHeartbeat, bind_eq_ok] at h
  obtain ⟨tokenHash, _, h⟩ := h
  split at h
  · simp only [pure_eq_ok, Prod.mk.injEq] at h
    obtain ⟨rfl, _⟩ := h
    exact .unchanged
  · simp only [pure_eq_ok, Prod.mk.injEq] at h
    obtain ⟨rfl, _⟩ := h
    exact .beaten _ _ _

theorem authorityRelease_effect {c : Credential}
    (h : authorityRelease P c r.now db = .ok (db', response)) : Effect P request info r db db' := by
  simp only [authorityRelease, bind_eq_ok] at h
  obtain ⟨tokenHash, _, h⟩ := h
  split at h
  · simp only [pure_eq_ok, Prod.mk.injEq] at h
    obtain ⟨rfl, _⟩ := h
    exact .unchanged
  · rename_i project hproject
    obtain ⟨hlook, hcur⟩ := Option.filter_eq_some_iff.mp hproject
    split at h
    · simp only [pure_eq_ok, Prod.mk.injEq] at h
      obtain ⟨rfl, _⟩ := h
      exact .unchanged
    · rename_i hready
      split at h
      · simp only [pure_eq_ok, Prod.mk.injEq] at h
        obtain ⟨rfl, _⟩ := h
        exact .unchanged
      · rename_i lease hlease
        simp only [pure_eq_ok, Prod.mk.injEq] at h
        obtain ⟨rfl, _⟩ := h
        have hsat := Table.lookup_sat hlease
        refine .released c tokenHash project lease
          (fun l => l.leaseId = c.leaseId ∧ l.projectKey = c.projectKey ∧
            l.fence = c.fence ∧ l.ownerTokenSha256 = tokenHash ∧ l.state = .active)
          (project_mem hlook).1 (project_mem hlook).2 (by simpa using hcur)
          (fun hrec => hready (Or.inl hrec)) ?_ (Table.lookup_mem hlease) hsat
        intro l
        simp only [decide_eq_true_eq]

theorem authorityTargetKeyCreate_effect {target : String}
    (h : authorityTargetKeyCreate P target info r db = .ok (db', response)) :
    Effect P (.targetKeyCreate target) info r db db' := by
  simp only [authorityTargetKeyCreate, bind_eq_ok, require_eq_ok] at h
  obtain ⟨_, _, h⟩ := h
  split at h
  · simp only [pure_eq_ok, Prod.mk.injEq] at h
    obtain ⟨rfl, _⟩ := h
    exact .unchanged
  · rename_i habsent
    simp only [bind_eq_ok, inserted_eq_ok, pure_eq_ok, Prod.mk.injEq] at h
    obtain ⟨_, _, keys, _, targets, hins, rfl, _⟩ := h
    exact .keyCreated target r.uuid (P.sha256 r.urandom) keys rfl habsent targets hins

theorem authorityTargetKeyFinalize_effect {receipt : Option Envelope}
    (h : authorityTargetKeyFinalize P receipt info db = .ok (db', response)) :
    Effect P request info r db db' := by
  simp only [authorityTargetKeyFinalize] at h
  split at h
  · simp at h
  · simp only [bind_eq_ok, require_eq_ok] at h
    obtain ⟨_, _, _, _, h⟩ := h
    split at h
    · simp at h
    · simp only [bind_eq_ok, require_eq_ok] at h
      obtain ⟨_, _, _, _, _, _, _, _, h⟩ := h
      split at h
      · simp only [pure_eq_ok, Prod.mk.injEq] at h
        obtain ⟨rfl, _⟩ := h
        exact .unchanged
      · simp at h
      · simp only [pure_eq_ok, Prod.mk.injEq] at h
        obtain ⟨rfl, _⟩ := h
        exact .keyFinalized _

theorem authorityEpochRotate_effect {expected : Int}
    (h : authorityEpochRotate expected info db = .ok (db', response)) :
    Effect P (.epochRotate expected) info r db db' := by
  simp only [authorityEpochRotate, bind_eq_ok, require_eq_ok] at h
  obtain ⟨_, rfl, h⟩ := h
  split at h
  · rename_i hq
    simp only [pure_eq_ok, Prod.mk.injEq] at h
    obtain ⟨rfl, _⟩ := h
    exact .rotated rfl hq
  · simp only [pure_eq_ok, Prod.mk.injEq] at h
    obtain ⟨rfl, _⟩ := h
    exact .unchanged

theorem authorityGrantIssue_effect {body : GrantIssueBody}
    (h : authorityGrantIssue P body info r db = .ok (db', response)) : Effect P request info r db db' := by
  simp only [authorityGrantIssue, bind_eq_ok, require_eq_ok] at h
  obtain ⟨tokenHash, _, _, _, _, _, h⟩ := h
  split at h
  · simp only [bind_eq_ok, require_eq_ok, pure_eq_ok, Prod.mk.injEq] at h
    obtain ⟨_, _, rfl, _⟩ := h
    exact .unchanged
  · split at h
    · simp only [pure_eq_ok, Prod.mk.injEq] at h
      obtain ⟨rfl, _⟩ := h
      exact .unchanged
    · rename_i lease hlive
      split at h
      · simp only [pure_eq_ok, Prod.mk.injEq] at h
        obtain ⟨rfl, _⟩ := h
        exact .unchanged
      · split at h
        · simp at h
        · simp only [bind_eq_ok, inserted_eq_ok, pure_eq_ok, Prod.mk.injEq] at h
          obtain ⟨_, _, secret, _, grants, hins, rfl, _⟩ := h
          exact .issued body tokenHash lease secret _ grants hlive hins

theorem signatureMatches_true {secret : Bytes} {e : Envelope}
    (h : signatureMatches P secret e = .ok true) :
    P.urlsafeB64decode e.sig = some (P.hmac secret e.body) := by
  unfold signatureMatches at h
  split at h
  · simp at h
  · rename_i actual hdec
    have hmac : P.hmac secret e.body = actual := by simpa using h
    rw [hdec, hmac]

/-- A verified receipt carries a matching signature over a grant-status body. -/
theorem verifyStatusReceipt_spec {receipt : Option Envelope} {body : Body} {sha : String}
    (h : verifyStatusReceipt P receipt info db = .ok (body, sha)) :
    ∃ (e : Envelope) (path : KeyPath) (secret : Bytes), receipt = some e ∧ body = e.body ∧
      e.body.kind = some .grantStatus ∧ e.body.clusterId.getD "" = info.clusterId ∧
      db.keys path = some secret ∧ P.urlsafeB64decode e.sig = some (P.hmac secret e.body) := by
  simp only [verifyStatusReceipt] at h
  split at h
  · simp at h
  · rename_i e hreceipt
    simp only [bind_eq_ok, require_eq_ok] at h
    obtain ⟨_, ⟨_, hkind⟩, _, ⟨hcluster, _⟩, h⟩ := h
    split at h
    · simp at h
    · simp only [bind_eq_ok] at h
      obtain ⟨path, _, h⟩ := h
      split at h
      · simp at h
      · rename_i secret hstored
        simp only [bind_eq_ok, require_eq_ok, pure_eq_ok, Prod.mk.injEq] at h
        obtain ⟨_, _, valid, hsig, _, rfl, rfl, _⟩ := h
        exact ⟨e, path, secret, (Option.filter_eq_some_iff.mp hreceipt).1, rfl, hkind, hcluster,
          hstored, signatureMatches_true hsig⟩

theorem authorityGrantImport_effect {body : GrantImportBody} {now : Int}
    (h : authorityGrantImport P body info now db = .ok (db', response)) :
    Effect P (.grantImport body) info r db db' := by
  simp only [authorityGrantImport, bind_eq_ok] at h
  obtain ⟨tokenHash, _, h⟩ := h
  split at h
  · simp only [pure_eq_ok, Prod.mk.injEq] at h
    obtain ⟨rfl, _⟩ := h
    exact .unchanged
  · split at h
    · simp only [pure_eq_ok, Prod.mk.injEq] at h
      obtain ⟨rfl, _⟩ := h
      exact .unchanged
    · simp only [bind_eq_ok] at h
      obtain ⟨⟨rbody, sha⟩, hver, h⟩ := h
      obtain ⟨e, path, secret, hdelivered, rfl, hkind, hcluster, hstored, hsig⟩ :=
        verifyStatusReceipt_spec hver
      exact .imported e path secret _ sha db' response hdelivered hkind hcluster hstored hsig h

theorem authorityRecoveryComplete_effect {c : Credential}
    (h : authorityRecoveryComplete P c r.now db = .ok (db', response)) :
    Effect P request info r db db' := by
  simp only [authorityRecoveryComplete, bind_eq_ok] at h
  obtain ⟨tokenHash, _, h⟩ := h
  split at h
  · simp only [pure_eq_ok, Prod.mk.injEq] at h
    obtain ⟨rfl, _⟩ := h
    exact .unchanged
  · rename_i lease hlive
    split at h
    · simp only [pure_eq_ok, Prod.mk.injEq] at h
      obtain ⟨rfl, _⟩ := h
      exact .unchanged
    · split at h
      · simp only [pure_eq_ok, Prod.mk.injEq] at h
        obtain ⟨rfl, _⟩ := h
        exact .unchanged
      · split at h
        · simp only [pure_eq_ok, Prod.mk.injEq] at h
          obtain ⟨rfl, _⟩ := h
          exact .unchanged
        · rename_i hsettled
          simp only [pure_eq_ok, Prod.mk.injEq] at h
          obtain ⟨rfl, _⟩ := h
          refine .restored c tokenHash lease hlive ?_
          by_contra hne
          exact hsettled (Or.inr (Or.inr hne))

theorem authorityRecoveryWorklist_effect {c : Credential} {now : Int}
    (h : authorityRecoveryWorklist P c now db = .ok (db', response)) :
    Effect P request info r db db' := by
  simp only [authorityRecoveryWorklist, bind_eq_ok] at h
  obtain ⟨tokenHash, _, h⟩ := h
  split at h
  · simp only [pure_eq_ok, Prod.mk.injEq] at h
    obtain ⟨rfl, _⟩ := h
    exact .unchanged
  · split at h
    · simp only [pure_eq_ok, Prod.mk.injEq] at h
      obtain ⟨rfl, _⟩ := h
      exact .unchanged
    · simp only [pure_eq_ok, Prod.mk.injEq] at h
      obtain ⟨rfl, _⟩ := h
      exact .unchanged

theorem authorityOperation_effect
    (h : authorityOperation P request info r db = .ok (db', response)) :
    Effect P request info r db db' := by
  cases request with
  | projectRegister body => exact authorityProjectRegister_effect h
  | acquire body => exact authorityAcquire_effect h
  | heartbeat c => exact authorityHeartbeat_effect h
  | release c => exact authorityRelease_effect h
  | targetKeyCreate target => exact authorityTargetKeyCreate_effect h
  | targetKeyFinalize receipt => exact authorityTargetKeyFinalize_effect h
  | epochRotate expected => exact authorityEpochRotate_effect h
  | grantIssue body => exact authorityGrantIssue_effect h
  | grantImport body => exact authorityGrantImport_effect h
  | recoveryComplete c => exact authorityRecoveryComplete_effect h
  | recoveryWorklist c => exact authorityRecoveryWorklist_effect h

/-- A receipt import writes the grants table only. -/
theorem importReceipt_frame {projectKey sha : String} {body : Body}
    (h : importReceipt db projectKey body sha = .ok (db', response)) :
    db' = { db with grants := db'.grants } := by
  have happly : ∀ {grant : Grant} {next : GrantState} {result : GrantResult},
      applyReceipt db projectKey grant next result sha = .ok (db', response) →
      db' = { db with grants := db'.grants } := by
    intro grant next result h
    simp only [applyReceipt, bind_eq_ok, pure_eq_ok, Prod.mk.injEq] at h
    obtain ⟨db1, hrec, rfl, _⟩ := h
    unfold settleBarrier at hrec
    split at hrec
    · unfold reconcileBarrierReceipt at hrec
      split at hrec
      · simp at hrec
      · simp only [bind_eq_ok, pure_eq_ok] at hrec
        obtain ⟨_, _, _, _, rfl⟩ := hrec
        rfl
    · rw [← Except.ok.inj hrec]
  simp only [importReceipt] at h
  split at h
  · simp at h
  · simp only [bind_eq_ok, require_eq_ok] at h
    obtain ⟨_, _, h⟩ := h
    split at h
    · simp only [pure_eq_ok, Prod.mk.injEq] at h
      obtain ⟨rfl, _⟩ := h
      rfl
    · split at h
      · simp at h
      · simp at h
      · split at h
        · simp only [bind_eq_ok, require_eq_ok, pure_eq_ok, Prod.mk.injEq] at h
          obtain ⟨_, _, _, _, rfl, _⟩ := h
          rfl
        · split at h
          · simp only [bind_eq_ok, require_eq_ok] at h
            obtain ⟨_, _, h⟩ := h
            exact happly h
          · exact happly h

/-- A transaction performs one effect and files its replay record. -/
theorem authorityTransaction_effect {call : AuthorityCall}
    (h : authorityTransaction P call info r db = .ok (db', response)) :
    ∃ db1, Effect P call.request info r db db1 ∧ db' = { db1 with rpcRequests := db'.rpcRequests } := by
  simp only [authorityTransaction, bind_eq_ok, require_eq_ok] at h
  obtain ⟨_, _, h⟩ := h
  split at h
  · simp only [bind_eq_ok, require_eq_ok, pure_eq_ok, Prod.mk.injEq] at h
    obtain ⟨_, _, rfl, _⟩ := h
    exact ⟨db, .unchanged, rfl⟩
  · simp only [bind_eq_ok, inserted_eq_ok, pure_eq_ok, Prod.mk.injEq] at h
    obtain ⟨⟨db1, _⟩, hop, _, _, rfl, _⟩ := h
    exact ⟨db1, authorityOperation_effect hop, rfl⟩

/-- A completed call ran on the metadata it found in the store. -/
theorem authorityRpc_effect {call : AuthorityCall}
    (h : authorityRpc P call r db = .ok (db', response)) :
    ∃ db1, Effect P call.request db.info r db db1 ∧ db' = { db1 with rpcRequests := db'.rpcRequests } := by
  simp only [authorityRpc, openAuthorityStore, bind_eq_ok, require_eq_ok, pure_eq_ok] at h
  obtain ⟨_, ⟨_, _, _, _, rfl⟩, h⟩ := h
  exact authorityTransaction_effect h

/-- The committed store is the old one or the outcome of a completed call. -/
theorem committed_cases {σ ρ : Type} (db : σ) (result : Except Error (σ × ρ)) :
    committed db result = db ∨ ∃ response, result = .ok (committed db result, response) := by
  cases result with
  | error e => exact Or.inl rfl
  | ok x => exact Or.inr ⟨x.2, rfl⟩

end Remrun.Runner
