import Remrun.Lib.Transition
import Remrun.Runner.Effects
import Remrun.Runner.Participant

/-!
# Key enrollment step by step

An authority RPC and a key import each publish at most one key file before their transaction
commits, and the process may die in between. The store in the transaction is kept beside the
committed one; while it is there the database is locked. Frames and receipts are never lost from
the model: whatever was printed once may be delivered at any time, to any target.
-/

namespace Remrun.Runner

open Relational
set_option autoImplicit false

/-- The columns of an enrolled key that nothing updates. -/
structure TargetKey where
  targetDeviceId : String
  authorityEpoch : Int
  keyId : String
  keySha256 : String
  deriving DecidableEq

def AuthorityTarget.key (t : AuthorityTarget) : TargetKey :=
  ⟨t.targetDeviceId, t.authorityEpoch, t.keyId, t.keySha256⟩

def Enrollment.key (e : Enrollment) : TargetKey :=
  ⟨e.targetDeviceId, e.authorityEpoch, e.keyId, e.keySha256⟩

def EnrolledAuthority.key (a : EnrolledAuthority) (deviceId : String) : TargetKey :=
  ⟨deviceId, a.authorityEpoch, a.keyId, a.keySha256⟩

structure KeySystem where
  authority : Authority
  writer : Option Authority
  exporting : List Meta
  participants : String → Participant
  importing : String → Option (Participant × Envelope)
  frames : List Enrollment
  receipts : List Envelope

def KeySystem.init (clusterId coordinatorDeviceId : String) (leaseSeconds : Int) : KeySystem where
  authority := Authority.init clusterId coordinatorDeviceId leaseSeconds
  writer := none
  exporting := []
  participants := Participant.init
  importing := fun _ => none
  frames := []
  receipts := []

inductive KeyEvent where
  /-- An authority RPC runs its transaction and publishes its key file, if it writes one. -/
  | rpcBegin (call : AuthorityCall) (r : Readings)
  | rpcCommit
  | rpcDies
  /-- A key export opens the authority store and reads `authority_meta`. -/
  | exportOpen (clusterId deviceId : String)
  /-- The export at this position reads the row and the key file, and prints the frame. -/
  | exportRead (position : Nat) (targetDeviceId : String) (epoch : Int) (keyId : String)
  /-- A key import publishes the key file and records the enrollment in its transaction. -/
  | importBegin (deviceId : String) (e : Enrollment)
  | importCommit (deviceId : String)
  | importDies (deviceId : String)

section Steps
variable (P : Prims)

/-- `key_export_main`, on the metadata it read when it opened the store. -/
def keyExport (info : Meta) (targetDeviceId : String) (epoch : Int) (keyId : String)
    (db : Authority) : Except Error Enrollment :=
  match (db.targets.lookup fun t => t.targetDeviceId = targetDeviceId ∧ t.authorityEpoch = epoch ∧
      t.keyId = keyId).filter fun t => t.state = .pending ∨ t.state = .enrolled with
  | none => raise "key export is not a current prepared enrollment"
  | some row => do
    require (epoch = info.authorityEpoch) "key export is not a current prepared enrollment"
    let path ← secretPath P info.clusterId targetDeviceId epoch keyId
    let secret ← readKey db.keys path
    require (P.sha256 secret = row.keySha256) "prepared enrollment key fingerprint mismatch"
    return ⟨info.clusterId, targetDeviceId, epoch, keyId, row.keySha256, secret⟩

/-- `open_authority_store` of a key export. -/
def exportStore (clusterId deviceId : String) (db : Authority) : Except Error Meta := do
  require (db.info.clusterId = clusterId) "authority cluster identity mismatch"
  require (db.info.coordinatorDeviceId = deviceId)
    "authority coordinator device identity mismatch"
  return db.info

def KeySystem.setParticipant (s : KeySystem) (d : String) (p : Participant) : KeySystem :=
  { s with participants := Function.update s.participants d p }

/-- A transaction that begins while another one holds the database fails on the lock. -/
def KeySystem.rpcBegin (call : AuthorityCall) (r : Readings) (s : KeySystem) : KeySystem :=
  match s.writer, authorityRpc P call r s.authority with
  | none, .ok (db, _) =>
    { s with authority := { s.authority with keys := db.keys }, writer := some db }
  | _, _ => s

/-- The import up to its commit; an enrollment that is refused leaves the key file behind. -/
def KeySystem.importBegin (d : String) (e : Enrollment) (s : KeySystem) : KeySystem :=
  match s.importing d with
  | some _ => s
  | none =>
    let (p, answer) := keyImport P e (s.participants d)
    let published := s.setParticipant d { s.participants d with keys := p.keys }
    match answer with
    | .ok receipt =>
      { published with importing := Function.update s.importing d (some (p, receipt)) }
    | .error _ => published

def KeySystem.step (s : KeySystem) : KeyEvent → KeySystem
  | .rpcBegin call r => s.rpcBegin P call r
  | .rpcCommit =>
    match s.writer with
    | some db => { s with authority := db, writer := none }
    | none => s
  | .rpcDies => { s with writer := none }
  | .exportOpen clusterId deviceId =>
    match exportStore clusterId deviceId s.authority with
    | .ok info => { s with exporting := s.exporting ++ [info] }
    | .error _ => s
  | .exportRead position targetDeviceId epoch keyId =>
    match s.exporting[position]? with
    | none => s
    | some info =>
      match keyExport P info targetDeviceId epoch keyId s.authority with
      | .ok e => { s with frames := e :: s.frames }
      | .error _ => s
  | .importBegin d e => s.importBegin P d e
  | .importCommit d =>
    match s.importing d with
    | some (p, receipt) =>
      { s.setParticipant d p with
        importing := Function.update s.importing d none
        receipts := receipt :: s.receipts }
    | none => s
  | .importDies d => { s with importing := Function.update s.importing d none }

/-- What reaches a process was printed by this code, and `os.urandom(32)` returns 32 bytes. -/
def KeySystem.Produced (s : KeySystem) : KeyEvent → Prop
  | .rpcBegin call r => r.urandom.length = 32 ∧
    ∀ e, call.request = .targetKeyFinalize (some e) → e ∈ s.receipts
  | .importBegin _ e => e ∈ s.frames
  | _ => True

def KeySystem.run (s : KeySystem) (events : List KeyEvent) : KeySystem :=
  Transition.run (KeySystem.step P) s events

def KeySystem.ProducedRun (s : KeySystem) (events : List KeyEvent) : Prop :=
  Transition.Along (KeySystem.step P) KeySystem.Produced s events

end Steps

variable {P : Prims}

@[simp] theorem KeySystem.setParticipant_self (s : KeySystem) (d : String) (p : Participant) :
    (s.setParticipant d p).participants d = p := by
  simp [KeySystem.setParticipant]

theorem KeySystem.setParticipant_other (s : KeySystem) {d d' : String} (p : Participant)
    (h : d' ≠ d) : (s.setParticipant d p).participants d' = s.participants d' := by
  simp [KeySystem.setParticipant, h]

/-! ## What an authority transaction does to the keys -/

/-- Targets, key files and metadata. -/
def Authority.keySide (db : Authority) :
    Table AuthorityTarget AuthorityTarget.Clash × KeyFiles × Meta :=
  (db.targets, db.keys, db.info)

/-- The key writes of one transaction, with the guards the source checked before them. -/
inductive KeyMove (P : Prims) (request : AuthorityRequest) (r : Readings) (db : Authority) :
    Authority → Prop where
  | kept (db' : Authority) (same : db'.keySide = db.keySide) : KeyMove P request r db db'
  | created (target : String) (path : KeyPath)
      (targets : Table AuthorityTarget AuthorityTarget.Clash) (db' : Authority)
      (absent : db.target target db.info.authorityEpoch = none)
      (named : secretPath P db.info.clusterId target db.info.authorityEpoch r.uuid = .ok path)
      (free : db.keys path = none)
      (insert : db.targets.insert
        ⟨target, db.info.authorityEpoch, r.uuid, P.sha256 r.urandom, .pending⟩ = some targets)
      (after : db'.keySide =
        (targets, Function.update db.keys path (some r.urandom), db.info)) :
      KeyMove P request r db db'
  | finalized (receipt : Envelope) (row : AuthorityTarget) (db' : Authority)
      (delivered : request = .targetKeyFinalize (some receipt))
      (stored : row ∈ db.targets)
      (target : receipt.body.targetDeviceId.getD "" = row.targetDeviceId)
      (epoch : receipt.body.authorityEpoch.getD 0 = row.authorityEpoch)
      (keyId : receipt.body.keyId.getD "" = row.keyId)
      (digest : receipt.body.keySha256.getD "" = row.keySha256)
      (after : db'.keySide = (db.targets.update
        (fun t => t.targetDeviceId = row.targetDeviceId ∧ t.authorityEpoch = row.authorityEpoch ∧
          t.keyId = row.keyId ∧ t.state = .pending)
        (fun t => { t with state := .enrolled }) (target_keeps_state _), db.keys, db.info)) :
      KeyMove P request r db db'
  | rotated (db' : Authority) (quiescent : db.quiescent = true)
      (after : db'.keySide = (db.targets.update
        (fun t => t.authorityEpoch = db.info.authorityEpoch ∧ t.state = .enrolled)
        (fun t => { t with state := .retired }) (target_keeps_state _), db.keys,
        { db.info with authorityEpoch := db.info.authorityEpoch + 1 })) :
      KeyMove P request r db db'

variable {request : AuthorityRequest} {info : Meta} {r : Readings} {db db' : Authority}
variable {response : Response}

theorem authorityProjectRegister_keySide {body : RegisterBody}
    (h : authorityProjectRegister body db = .ok (db', response)) : db'.keySide = db.keySide := by
  simp only [authorityProjectRegister, bind_eq_ok, require_eq_ok] at h
  obtain ⟨_, _, h⟩ := h
  split at h
  · simp only [bind_eq_ok, pure_eq_ok, Prod.mk.injEq] at h
    obtain ⟨_, _, rfl, _⟩ := h
    rfl
  · simp only [bind_eq_ok, pure_eq_ok, Prod.mk.injEq] at h
    obtain ⟨_, _, rfl, _⟩ := h
    rfl

theorem grantLease_keySide {project : Project} {lease : Lease}
    (h : grantLease db project lease = .ok db') : db'.keySide = db.keySide := by
  simp only [grantLease, bind_eq_ok] at h
  obtain ⟨_, _, h⟩ := h
  split at h
  · cases h
  · rw [← pure_eq_ok.mp h]
    rfl

theorem authorityAcquire_keySide {body : AcquireBody}
    (h : authorityAcquire P body info r db = .ok (db', response)) :
    db'.keySide = db.keySide := by
  simp only [authorityAcquire, bind_eq_ok, require_eq_ok] at h
  obtain ⟨_, _, _, _, h⟩ := h
  split at h
  · simp only [bind_eq_ok, pure_eq_ok, Prod.mk.injEq] at h
    obtain ⟨_, _, rfl, _⟩ := h
    rfl
  · split at h
    · simp at h
    · simp only [bind_eq_ok] at h
      obtain ⟨_, _, h⟩ := h
      split at h
      · simp only [pure_eq_ok, Prod.mk.injEq] at h
        rw [← h.1]
      · simp only [bind_eq_ok, pure_eq_ok, Prod.mk.injEq] at h
        obtain ⟨_, hwrite, rfl, _⟩ := h
        exact grantLease_keySide hwrite

theorem authorityHeartbeat_keySide {c : Credential} {now : Int}
    (h : authorityHeartbeat P c info now db = .ok (db', response)) :
    db'.keySide = db.keySide := by
  simp only [authorityHeartbeat, bind_eq_ok] at h
  obtain ⟨_, _, h⟩ := h
  split at h
  · simp only [pure_eq_ok, Prod.mk.injEq] at h
    rw [← h.1]
  · simp only [pure_eq_ok, Prod.mk.injEq] at h
    rw [← h.1]
    rfl

theorem authorityRelease_keySide {c : Credential} {now : Int}
    (h : authorityRelease P c now db = .ok (db', response)) : db'.keySide = db.keySide := by
  simp only [authorityRelease, bind_eq_ok] at h
  obtain ⟨_, _, h⟩ := h
  split at h
  · simp only [pure_eq_ok, Prod.mk.injEq] at h
    rw [← h.1]
  · split at h
    · simp only [pure_eq_ok, Prod.mk.injEq] at h
      rw [← h.1]
    · split at h
      · simp only [pure_eq_ok, Prod.mk.injEq] at h
        rw [← h.1]
      · simp only [pure_eq_ok, Prod.mk.injEq] at h
        rw [← h.1]
        rfl

theorem authorityGrantIssue_keySide {body : GrantIssueBody}
    (h : authorityGrantIssue P body info r db = .ok (db', response)) :
    db'.keySide = db.keySide := by
  simp only [authorityGrantIssue, bind_eq_ok] at h
  obtain ⟨_, _, _, _, _, _, h⟩ := h
  split at h
  · simp only [bind_eq_ok, pure_eq_ok, Prod.mk.injEq] at h
    obtain ⟨_, _, rfl, _⟩ := h
    rfl
  · split at h
    · simp only [pure_eq_ok, Prod.mk.injEq] at h
      rw [← h.1]
    · split at h
      · simp only [pure_eq_ok, Prod.mk.injEq] at h
        rw [← h.1]
      · split at h
        · simp at h
        · simp only [bind_eq_ok, pure_eq_ok, Prod.mk.injEq] at h
          obtain ⟨_, _, _, _, _, _, rfl, _⟩ := h
          rfl

theorem authorityGrantImport_keySide {body : GrantImportBody} {now : Int}
    (h : authorityGrantImport P body info now db = .ok (db', response)) :
    db'.keySide = db.keySide := by
  simp only [authorityGrantImport, bind_eq_ok] at h
  obtain ⟨_, _, h⟩ := h
  split at h
  · simp only [pure_eq_ok, Prod.mk.injEq] at h
    rw [← h.1]
  · split at h
    · simp only [pure_eq_ok, Prod.mk.injEq] at h
      rw [← h.1]
    · simp only [bind_eq_ok] at h
      obtain ⟨_, _, h⟩ := h
      rw [importReceipt_frame h]
      rfl

theorem authorityRecoveryComplete_keySide {c : Credential} {now : Int}
    (h : authorityRecoveryComplete P c now db = .ok (db', response)) :
    db'.keySide = db.keySide := by
  simp only [authorityRecoveryComplete, bind_eq_ok] at h
  obtain ⟨_, _, h⟩ := h
  split at h
  · simp only [pure_eq_ok, Prod.mk.injEq] at h
    rw [← h.1]
  · split at h
    · simp only [pure_eq_ok, Prod.mk.injEq] at h
      rw [← h.1]
    · split at h
      · simp only [pure_eq_ok, Prod.mk.injEq] at h
        rw [← h.1]
      · split at h
        · simp only [pure_eq_ok, Prod.mk.injEq] at h
          rw [← h.1]
        · simp only [pure_eq_ok, Prod.mk.injEq] at h
          rw [← h.1]
          rfl

theorem authorityRecoveryWorklist_keySide {c : Credential} {now : Int}
    (h : authorityRecoveryWorklist P c now db = .ok (db', response)) :
    db'.keySide = db.keySide := by
  simp only [authorityRecoveryWorklist, bind_eq_ok] at h
  obtain ⟨_, _, h⟩ := h
  split at h
  · simp only [pure_eq_ok, Prod.mk.injEq] at h
    rw [← h.1]
  · split at h
    · simp only [pure_eq_ok, Prod.mk.injEq] at h
      rw [← h.1]
    · simp only [pure_eq_ok, Prod.mk.injEq] at h
      rw [← h.1]

theorem authorityTargetKeyCreate_move {target : String}
    (h : authorityTargetKeyCreate P target db.info r db = .ok (db', response)) :
    KeyMove P request r db db' := by
  simp only [authorityTargetKeyCreate, bind_eq_ok] at h
  obtain ⟨_, _, h⟩ := h
  split at h
  · simp only [pure_eq_ok, Prod.mk.injEq] at h
    rw [← h.1]
    exact .kept db rfl
  · rename_i habsent
    simp only [bind_eq_ok, inserted_eq_ok, pure_eq_ok, Prod.mk.injEq] at h
    obtain ⟨path, hpath, keys, hkeys, targets, hins, rfl, _⟩ := h
    unfold writeSecret at hkeys
    split at hkeys
    · cases hkeys
    · rename_i hfree
      rw [← Except.ok.inj hkeys]
      exact .created target path targets _ habsent hpath hfree hins rfl

/-- A receipt that finalizes a key names the row, and its signature was checked. -/
theorem authorityTargetKeyFinalize_move {receipt : Option Envelope}
    (h : authorityTargetKeyFinalize P receipt info db = .ok (db', response)) :
    KeyMove P (.targetKeyFinalize receipt) r db db' := by
  simp only [authorityTargetKeyFinalize] at h
  split at h
  · simp at h
  · rename_i receipt' hreceipt
    simp only [bind_eq_ok] at h
    obtain ⟨_, _, _, _, h⟩ := h
    split at h
    · simp at h
    · rename_i row hrow
      obtain ⟨hlook, hkey⟩ := Option.filter_eq_some_iff.mp hrow
      have hat := Table.lookup_sat hlook
      simp only [decide_eq_true_eq] at hat hkey
      simp only [bind_eq_ok] at h
      obtain ⟨_, _, _, _, _, _, _, _, h⟩ := h
      split at h
      · simp only [pure_eq_ok, Prod.mk.injEq] at h
        rw [← h.1]
        exact .kept db rfl
      · simp at h
      · simp only [pure_eq_ok, Prod.mk.injEq] at h
        obtain ⟨rfl, _⟩ := h
        refine .finalized receipt' row _ ?_ (Table.lookup_mem hlook) hat.1.symm hat.2.symm
          hkey.1.symm hkey.2.symm ?_
        · rw [(Option.filter_eq_some_iff.mp hreceipt).1]
        · rw [hat.1, hat.2, hkey.1]
          rfl

theorem authorityEpochRotate_move {expected : Int}
    (h : authorityEpochRotate expected db.info db = .ok (db', response)) :
    KeyMove P request r db db' := by
  simp only [authorityEpochRotate, bind_eq_ok, require_eq_ok] at h
  obtain ⟨_, rfl, h⟩ := h
  split at h
  · rename_i hquiet
    simp only [pure_eq_ok, Prod.mk.injEq] at h
    rw [← h.1]
    exact .rotated _ hquiet rfl
  · simp only [pure_eq_ok, Prod.mk.injEq] at h
    rw [← h.1]
    exact .kept db rfl

theorem authorityOperation_move
    (h : authorityOperation P request db.info r db = .ok (db', response)) :
    KeyMove P request r db db' := by
  cases request with
  | projectRegister body => exact .kept db' (authorityProjectRegister_keySide h)
  | acquire body => exact .kept db' (authorityAcquire_keySide h)
  | heartbeat c => exact .kept db' (authorityHeartbeat_keySide h)
  | release c => exact .kept db' (authorityRelease_keySide h)
  | targetKeyCreate target => exact authorityTargetKeyCreate_move h
  | targetKeyFinalize receipt => exact authorityTargetKeyFinalize_move h
  | epochRotate expected => exact authorityEpochRotate_move h
  | grantIssue body => exact .kept db' (authorityGrantIssue_keySide h)
  | grantImport body => exact .kept db' (authorityGrantImport_keySide h)
  | recoveryComplete c => exact .kept db' (authorityRecoveryComplete_keySide h)
  | recoveryWorklist c => exact .kept db' (authorityRecoveryWorklist_keySide h)

theorem KeyMove.record (h : KeyMove P request r db db')
    (records : Table (RpcRecord Response) RpcRecord.Clash) :
    KeyMove P request r db { db' with rpcRequests := records } := by
  cases h with
  | kept _ same => exact .kept _ same
  | created target path targets _ absent named free insert after =>
    exact .created target path targets _ absent named free insert after
  | finalized receipt row _ delivered stored target epoch keyId digest after =>
    exact .finalized receipt row _ delivered stored target epoch keyId digest after
  | rotated _ quiescent after => exact .rotated _ quiescent after

/-- A completed RPC makes one move. -/
theorem authorityRpc_move {call : AuthorityCall}
    (h : authorityRpc P call r db = .ok (db', response)) : KeyMove P call.request r db db' := by
  simp only [authorityRpc, openAuthorityStore, authorityTransaction, bind_eq_ok, pure_eq_ok] at h
  obtain ⟨_, ⟨_, _, _, _, rfl⟩, _, _, h⟩ := h
  split at h
  · simp only [bind_eq_ok, pure_eq_ok, Prod.mk.injEq] at h
    obtain ⟨_, _, rfl, _⟩ := h
    exact .kept _ rfl
  · simp only [bind_eq_ok, pure_eq_ok, Prod.mk.injEq] at h
    obtain ⟨⟨db1, _⟩, hop, records, _, rfl, _⟩ := h
    exact (authorityOperation_move hop).record records

end Remrun.Runner
