import Remrun.Runner.Leases

/-!
# The authority's grant ledger

What a receipt import does to each grant, the order in which an authority store can move,
and the fact the fencing argument starts from: behind a lease in phase `NORMAL` every grant
of a lower fence is resolved.
-/

namespace Remrun.Runner

open Relational
set_option autoImplicit false

variable {P : Prims}

/-- The columns of a grant that no operation rewrites. -/
structure GrantIdentity where
  grantId : String
  projectKey : String
  leaseId : String
  authorityEpoch : Int
  fence : Int
  targetDeviceId : String
  operation : String
  operationId : String
  requestSha256 : String
  deriving DecidableEq, Repr

def Grant.identity (g : Grant) : GrantIdentity :=
  ⟨g.grantId, g.projectKey, g.leaseId, g.authorityEpoch, g.fence, g.targetDeviceId,
    g.operation, g.operationId, g.requestSha256⟩

theorem grant_eq_of_id {grants : Table Grant Grant.Clash} {a b : Grant} (ha : a ∈ grants)
    (hb : b ∈ grants) (h : a.grantId = b.grantId) : a = b :=
  Table.eq_of_clash ha hb (Or.inl h) (Or.inl h.symm)

theorem grant_eq_of_identity {grants : Table Grant Grant.Clash} {a b : Grant} (ha : a ∈ grants)
    (hb : b ∈ grants) (h : a.identity = b.identity) : a = b :=
  grant_eq_of_id ha hb (congrArg GrantIdentity.grantId h)

/-! ## Receipt imports -/

/-- A terminal receipt of a barrier, with the lower operations it reports. -/
def BarrierReceipt (body : Body) (grant : Grant) (items : List Observation) : Prop :=
  body.status = some (.row .terminal) ∧ grant.operation = "fence_barrier" ∧
    body.result = some items

/-- An unresolved grant the barrier `grant` speaks for. -/
def BelowBarrier (grant g : Grant) : Prop :=
  g.projectKey = grant.projectKey ∧ g.authorityEpoch = grant.authorityEpoch ∧
    g.targetDeviceId = grant.targetDeviceId ∧ g.fence < grant.fence ∧ g.state.unresolved = true

/-- The states an import of the receipt `body` for `grant` can move the grant `g` to. -/
inductive GrantMove (body : Body) (grant g : Grant) : GrantState → Prop where
  | kept : GrantMove body grant g g.state
  | unknown (pending : g.state.unresolved = true) : GrantMove body grant g .unknown
  | received (state : AcceptedState) (self : g = grant) (pending : g.state.unresolved = true)
      (status : body.status = some (.row state)) (known : state ≠ .fenced) :
      GrantMove body grant g (receiptState state)
  | observed (items : List Observation) (o : Observation) (next : GrantState)
      (receipt : BarrierReceipt body grant items) (below : BelowBarrier grant g)
      (mem : o ∈ items) (name : o.grantId = g.grantId)
      (state : next = .accepted ∨ next = .terminal) : GrantMove body grant g next
  | fenced (items : List Observation) (receipt : BarrierReceipt body grant items)
      (below : BelowBarrier grant g) (omitted : ∀ o ∈ items, o.grantId ≠ g.grantId) :
      GrantMove body grant g .fenced

theorem GrantMove.resolved {body : Body} {grant g : Grant} {next : GrantState}
    (h : GrantMove body grant g next) (hg : g.state.unresolved = false) : next = g.state := by
  cases h with
  | kept => rfl
  | unknown pending => simp [hg] at pending
  | received _ _ pending => simp [hg] at pending
  | observed _ _ _ _ below => exact absurd below.2.2.2.2 (by simp [hg])
  | fenced _ _ below => exact absurd below.2.2.2.2 (by simp [hg])

theorem checkObservations_eq {db : Authority} {projectKey target : String} {epoch fence : Int}
    {observed items result : List Observation}
    (h : checkObservations db projectKey epoch fence target observed items = .ok result) :
    result = observed ++ items := by
  induction items generalizing observed with
  | nil =>
    rw [List.append_nil]
    exact (Except.ok.inj h).symm
  | cons item rest ih =>
    simp only [checkObservations, bind_eq_ok] at h
    obtain ⟨_, _, h⟩ := h
    rw [ih h, List.append_assoc, List.singleton_append]

theorem resolveLower_identity (items : List Observation) (g : Grant) :
    (resolveLower items g).identity = g.identity := by
  unfold resolveLower
  split
  · split <;> rfl
  · rfl

/-- Either no lower grant moves, or the barrier's own list decides for each of them. -/
theorem settleBarrier_spec {db db' : Authority} {projectKey : String} {grant : Grant}
    {next : GrantState} {result : GrantResult}
    (h : settleBarrier db projectKey grant next result = .ok db') :
    db' = db ∨ ∃ items, next = .terminal ∧ grant.operation = "fence_barrier" ∧
      result = some items ∧ db'.grants.rows = db.grants.rows.map
        (Table.setWhere (barrierLower projectKey grant.authorityEpoch grant.fence
          grant.targetDeviceId) (resolveLower items)) := by
  unfold settleBarrier at h
  split at h
  · rename_i hbarrier
    unfold reconcileBarrierReceipt at h
    split at h
    · simp at h
    · rename_i items
      simp only [bind_eq_ok, pure_eq_ok] at h
      obtain ⟨observed, hobs, _, _, rfl⟩ := h
      have heq : observed = items := by simpa using checkObservations_eq hobs
      subst heq
      exact Or.inr ⟨observed, hbarrier.1, hbarrier.2, rfl, rfl⟩
  · exact Or.inl (Except.ok.inj h).symm

/-- The move of a lower grant under the barrier's list. -/
theorem setWhere_barrierLower_move {body : Body} {grant : Grant} {items : List Observation}
    (hreceipt : BarrierReceipt body grant items) (g : Grant) :
    GrantMove body grant g (Table.setWhere (barrierLower grant.projectKey grant.authorityEpoch
      grant.fence grant.targetDeviceId) (resolveLower items) g).state := by
  unfold Table.setWhere
  split
  · rename_i hlower
    simp only [barrierLower, decide_eq_true_eq] at hlower
    unfold resolveLower
    split
    · rename_i item hfind
      have hmem := List.mem_of_find?_eq_some hfind
      have hname : item.grantId = g.grantId := by simpa using List.find?_some hfind
      split
      · exact .observed items item .terminal hreceipt hlower hmem hname (Or.inr rfl)
      · exact .observed items item .accepted hreceipt hlower hmem hname (Or.inl rfl)
    · rename_i hfind
      rw [List.find?_eq_none] at hfind
      exact .fenced items hreceipt hlower fun o ho => by simpa using hfind o ho
  · exact .kept

theorem unresolved_of_open {g : Grant} (h : ¬ (g.state = .terminal ∨ g.state = .fenced)) :
    g.state.unresolved = true := by
  cases hs : g.state <;> simp_all [GrantState.unresolved]

/-- The rows after the writes of `applyReceipt`. -/
theorem applyReceipt_moves {db db' : Authority} {grant : Grant} {next : GrantState} {body : Body}
    {sha : String} {response : Response} {result : GrantResult} (hg : grant ∈ db.grants)
    (hself : GrantMove body grant grant next)
    (hbarrier : next = .terminal → body.status = some (.row .terminal) ∧ result = body.result)
    (h : applyReceipt db grant.projectKey grant next result sha = .ok (db', response)) :
    ∃ F : Grant → Grant, db'.grants.rows = db.grants.rows.map F ∧
      ∀ g ∈ db.grants, (F g).identity = g.identity ∧ GrantMove body grant g (F g).state := by
  simp only [applyReceipt, bind_eq_ok, pure_eq_ok, Prod.mk.injEq] at h
  obtain ⟨db1, hsettle, rfl, _⟩ := h
  have hreceive : ∀ S : Grant → Grant, (∀ g, (S g).identity = g.identity) →
      (∀ g, GrantMove body grant g (S g).state) → ∀ g ∈ db.grants,
      (Table.setWhere (fun x => x.grantId = grant.grantId) (Grant.receive next result sha)
        (S g)).identity = g.identity ∧
      GrantMove body grant g (Table.setWhere (fun x => x.grantId = grant.grantId)
        (Grant.receive next result sha) (S g)).state := by
    intro S hid hmove g hgm
    constructor
    · rw [Table.setWhere_column Grant.identity _ (Grant.receive next result sha) fun _ => rfl]
      exact hid g
    · unfold Table.setWhere
      split
      · rename_i heq
        have hname : g.grantId = grant.grantId := by
          rw [decide_eq_true_eq] at heq
          exact (congrArg GrantIdentity.grantId (hid g)).symm.trans heq
        rw [grant_eq_of_id hgm hg hname]
        exact hself
      · exact hmove g
  rcases settleBarrier_spec hsettle with rfl | ⟨items, hnext, hop, hresult, hrows⟩
  · exact ⟨_, rfl, hreceive id (fun _ => rfl) fun _ => .kept⟩
  · obtain ⟨hstatus, heq⟩ := hbarrier hnext
    refine ⟨_, ?_, hreceive _ ?_ (setWhere_barrierLower_move ⟨hstatus, hop, heq ▸ hresult⟩)⟩
    · simp only [Table.update, hrows, List.map_map]
      rfl
    · exact Table.setWhere_column Grant.identity _ _ (resolveLower_identity items)

/-- What an import does to the ledger, grant by grant. -/
theorem importReceipt_moves {db db' : Authority} {projectKey sha : String} {body : Body}
    {response : Response} (h : importReceipt db projectKey body sha = .ok (db', response)) :
    ∃ grant ∈ db.grants, grant.grantId = body.grantId.getD "" ∧ grant.matchesBody body ∧
      ∃ F : Grant → Grant, db'.grants.rows = db.grants.rows.map F ∧
        ∀ g ∈ db.grants, (F g).identity = g.identity ∧ GrantMove body grant g (F g).state := by
  simp only [importReceipt] at h
  split at h
  · simp at h
  · rename_i grant hlook
    have hg := Table.lookup_mem hlook
    have hid : grant.grantId = body.grantId.getD "" := by simpa using Table.lookup_sat hlook
    simp only [bind_eq_ok, require_eq_ok] at h
    obtain ⟨_, ⟨hmatch, rfl⟩, h⟩ := h
    refine ⟨grant, hg, hid, hmatch, ?_⟩
    split at h
    · simp only [pure_eq_ok, Prod.mk.injEq] at h
      obtain ⟨rfl, _⟩ := h
      exact ⟨id, by simp, fun g _ => ⟨rfl, .kept⟩⟩
    · split at h
      · simp at h
      · simp at h
      · rename_i status hnf hstatus
        split at h
        · simp only [bind_eq_ok, require_eq_ok, pure_eq_ok, Prod.mk.injEq] at h
          obtain ⟨_, _, _, _, rfl, _⟩ := h
          refine ⟨_, rfl, fun g _ => ⟨?_, ?_⟩⟩
          · exact Table.setWhere_column Grant.identity _ (Grant.acknowledge sha) (fun _ => rfl) g
          · rw [Table.setWhere_column Grant.state _ (Grant.acknowledge sha) fun _ => rfl]
            exact .kept
        · rename_i hopen
          have hpending := unresolved_of_open hopen
          split at h
          · simp only [bind_eq_ok, require_eq_ok] at h
            obtain ⟨_, _, h⟩ := h
            exact applyReceipt_moves hg (.unknown hpending) (by simp) h
          · rename_i state
            have hne : state ≠ .fenced := fun heq => hnf (congrArg ReceiptStatus.row heq)
            refine applyReceipt_moves hg (.received state rfl hpending hstatus hne) ?_ h
            intro hterm
            cases state with
            | terminal => exact ⟨hstatus, rfl⟩
            | accepted => simp [receiptState] at hterm
            | fenced => simp [receiptState] at hterm

/-- The part of an effect that concerns the grants table and the signatures. -/
inductive LedgerEffect (P : Prims) (request : AuthorityRequest) (info : Meta) (r : Readings)
    (db : Authority) : Table Grant Grant.Clash → List (Bytes × Body) → Prop where
  | kept : LedgerEffect P request info r db db.grants db.signed
  | issued (body : GrantIssueBody) (tokenHash : String) (lease : Lease) (secret : Bytes)
      (capability : Envelope) (grants : Table Grant Grant.Clash)
      (live : liveLease db body.credential tokenHash r.now = some lease)
      (insert : db.grants.insert (freshGrant P body tokenHash info r.uuid capability) =
        some grants) :
      LedgerEffect P request info r db grants
        ((secret, capabilityBody body info r.uuid) :: db.signed)
  | imported (receipt : Envelope) (path : KeyPath) (secret : Bytes) (grant : Grant)
      (F : Grant → Grant) (grants : Table Grant Grant.Clash)
      (delivered : request.envelope = some receipt)
      (kind : receipt.body.kind = some .grantStatus) (stored : db.keys path = some secret)
      (verified : P.urlsafeB64decode receipt.sig = some (P.hmac secret receipt.body))
      (mem : grant ∈ db.grants) (name : grant.grantId = receipt.body.grantId.getD "")
      (rows : grants.rows = db.grants.rows.map F)
      (moves : ∀ g ∈ db.grants, (F g).identity = g.identity ∧
        GrantMove receipt.body grant g (F g).state) :
      LedgerEffect P request info r db grants db.signed

section Effects
variable {request : AuthorityRequest} {info : Meta} {r : Readings} {db db' : Authority}

theorem effect_ledger (h : Effect P request info r db db') :
    LedgerEffect P request info r db db'.grants db'.signed := by
  cases h with
  | unchanged => exact .kept
  | registered => exact .kept
  | leased body tokenHash project _ hmem hwrite =>
    simp only [grantLease, bind_eq_ok] at hwrite
    obtain ⟨_, _, hwrite⟩ := hwrite
    split at hwrite
    · simp at hwrite
    · rw [pure_eq_ok] at hwrite
      rw [← hwrite]
      exact .kept
  | beaten => exact .kept
  | released => exact .kept
  | keyCreated => exact .kept
  | keyFinalized => exact .kept
  | rotated => exact .kept
  | issued body tokenHash lease secret capability grants live insert =>
    exact .issued body tokenHash lease secret capability grants live insert
  | imported receipt path secret key sha _ response delivered kind _ stored verified write =>
    obtain ⟨grant, hg, hid, _, F, hrows, hmoves⟩ := importReceipt_moves write
    have hsigned : db'.signed = db.signed := by rw [importReceipt_frame write]
    rw [hsigned]
    exact .imported receipt path secret grant F _ delivered kind stored verified hg hid hrows hmoves
  | restored => exact .kept

/-! ## Settled grants -/

/-- What holds of the ledger whatever the targets do. -/
structure GrantInv (db : Authority) : Prop where
  leases : LeaseInv db.projects db.leases
  keyed : ∀ p ∈ db.projects, p.projectKey ≠ ""
  named : ∀ g ∈ db.grants, g.grantId ≠ ""
  bound : ∀ g ∈ db.grants, ∃ p ∈ db.projects, p.projectKey = g.projectKey ∧ g.fence ≤ p.nextFence
  settled : ∀ l ∈ db.leases, l.state = .active → l.phase = .normal → ∀ g ∈ db.grants,
    g.projectKey = l.projectKey → g.fence < l.fence → g.state.unresolved = false

/-- The later store keeps every grant and every resolution, and issues only at the fence
its projects have reached. -/
structure Advance (db db' : Authority) : Prop where
  grants : ∀ g ∈ db.grants, ∃ g' ∈ db'.grants, g'.identity = g.identity ∧
    (g.state.unresolved = false → g'.state = g.state)
  fences : ∀ p ∈ db.projects, ∃ p' ∈ db'.projects, p'.projectKey = p.projectKey ∧
    p.nextFence ≤ p'.nextFence
  fresh : ∀ g' ∈ db'.grants, (∃ g ∈ db.grants, g'.identity = g.identity) ∨
    ∀ p ∈ db.projects, p.projectKey = g'.projectKey → p.nextFence ≤ g'.fence

theorem Advance.refl (db : Authority) : Advance db db where
  grants := fun g hg => ⟨g, hg, rfl, fun _ => rfl⟩
  fences := fun p hp => ⟨p, hp, rfl, le_refl _⟩
  fresh := fun g hg => Or.inl ⟨g, hg, rfl⟩

theorem Advance.trans {a b c : Authority} (hab : Advance a b) (hbc : Advance b c) :
    Advance a c where
  grants := by
    intro g hg
    obtain ⟨g1, hg1, hid1, hst1⟩ := hab.grants g hg
    obtain ⟨g2, hg2, hid2, hst2⟩ := hbc.grants g1 hg1
    refine ⟨g2, hg2, hid2.trans hid1, fun hres => ?_⟩
    have h1 := hst1 hres
    rw [hst2 (h1 ▸ hres), h1]
  fences := by
    intro p hp
    obtain ⟨p1, hp1, hk1, hf1⟩ := hab.fences p hp
    obtain ⟨p2, hp2, hk2, hf2⟩ := hbc.fences p1 hp1
    exact ⟨p2, hp2, hk2.trans hk1, hf1.trans hf2⟩
  fresh := by
    intro g hg
    rcases hbc.fresh g hg with ⟨g1, hg1, hid⟩ | hnew
    · rcases hab.fresh g1 hg1 with ⟨g0, hg0, hid0⟩ | hnew
      · exact Or.inl ⟨g0, hg0, hid.trans hid0⟩
      · have hkey : g.projectKey = g1.projectKey := congrArg GrantIdentity.projectKey hid
        have hfence : g.fence = g1.fence := congrArg GrantIdentity.fence hid
        rw [hkey, hfence]
        exact Or.inr hnew
    · refine Or.inr fun p hp hkey => ?_
      obtain ⟨p1, hp1, hk1, hf1⟩ := hab.fences p hp
      exact hf1.trans (hnew p1 hp1 (hk1.trans hkey))

/-- Every grant of the project below the fence is resolved, and the project is past it. -/
def Settled (db : Authority) (projectKey : String) (fence : Int) : Prop :=
  (∃ p ∈ db.projects, p.projectKey = projectKey ∧ fence ≤ p.nextFence) ∧
    ∀ g ∈ db.grants, g.projectKey = projectKey → g.fence < fence → g.state.unresolved = false

theorem Settled.advance {key : String} {fence : Int} (h : Settled db key fence)
    (hadv : Advance db db') : Settled db' key fence := by
  obtain ⟨⟨p, hp, hkey, hle⟩, hres⟩ := h
  constructor
  · obtain ⟨p', hp', hk', hf'⟩ := hadv.fences p hp
    exact ⟨p', hp', hk'.trans hkey, hle.trans hf'⟩
  · intro g hg hgk hgf
    rcases hadv.fresh g hg with ⟨g0, hg0, hid⟩ | hnew
    · have hk0 : g.projectKey = g0.projectKey := congrArg GrantIdentity.projectKey hid
      have hf0 : g.fence = g0.fence := congrArg GrantIdentity.fence hid
      have hres0 := hres g0 hg0 (hk0.symm.trans hgk) (hf0 ▸ hgf)
      obtain ⟨g1, hg1, hid1, hst1⟩ := hadv.grants g0 hg0
      rw [grant_eq_of_identity hg hg1 (hid.trans hid1.symm), hst1 hres0]
      exact hres0
    · have := hnew p hp (hkey.trans hgk.symm)
      omega

theorem GrantInv.settled_current (h : GrantInv db) {l : Lease} (hl : l ∈ db.leases)
    (hcur : db.currentLeaseId l.projectKey = some l.leaseId) (hphase : l.phase = .normal) :
    Settled db l.projectKey l.fence := by
  obtain ⟨p, hp, hkey, hid⟩ := currentLeaseId_eq_some.mp hcur
  obtain ⟨l', hl', hlid, _, hact, hfence, _⟩ := h.leases.pointer p hp _ hid
  have hsame := lease_eq_of_id hl hl' hlid.symm
  subst hsame
  exact ⟨⟨p, hp, hkey, hfence.le⟩, h.settled l hl hact hphase⟩

/-- Steps that leave the grants alone. -/
theorem GrantInv.transfer (h : GrantInv db) (hleases : LeaseInv db'.projects db'.leases)
    (hgrants : db'.grants = db.grants) (hkeyed : ∀ p ∈ db'.projects, p.projectKey ≠ "")
    (hfences : ∀ p ∈ db.projects, ∃ p' ∈ db'.projects, p'.projectKey = p.projectKey ∧
      p.nextFence ≤ p'.nextFence)
    (hnormal : ∀ l ∈ db'.leases, l.state = .active → l.phase = .normal →
      unresolvedGrants db l.projectKey = [] ∨ ∃ b ∈ db.leases, b.state = .active ∧
        b.phase = .normal ∧ b.projectKey = l.projectKey ∧ b.fence = l.fence) :
    GrantInv db' ∧ Advance db db' := by
  constructor
  · constructor
    · exact hleases
    · exact hkeyed
    · rw [hgrants]
      exact h.named
    · rw [hgrants]
      intro g hg
      obtain ⟨p, hp, hkey, hle⟩ := h.bound g hg
      obtain ⟨p', hp', hk', hf'⟩ := hfences p hp
      exact ⟨p', hp', hk'.trans hkey, hle.trans hf'⟩
    · rw [hgrants]
      intro l hl hact hphase g hg hkey hlt
      rcases hnormal l hl hact hphase with hnil | ⟨b, hb, hbact, hbphase, hbk, hbf⟩
      · exact unresolvedGrants_eq_nil.mp hnil g hg hkey
      · exact h.settled b hb hbact hbphase g hg (hkey.trans hbk.symm) (hbf ▸ hlt)
  · refine ⟨?_, hfences, ?_⟩
    · rw [hgrants]
      exact (Advance.refl db).grants
    · rw [hgrants]
      exact (Advance.refl db).fresh

theorem acquirePhase_normal {project : Project} (h : acquirePhase db project = .normal) :
    unresolvedGrants db project.projectKey = [] := by
  unfold acquirePhase at h
  split at h
  · simp at h
  · rename_i hno
    by_contra hne
    exact hno (Or.inr (Or.inr (Or.inr hne)))

/-- An update of the leases that starts no normal phase. -/
theorem GrantInv.update_leases (h : GrantInv db)
    (hleases : LeaseInv db'.projects db'.leases) {p : Lease → Bool} {f : Lease → Lease}
    (hrows : db'.leases.rows = db.leases.rows.map (Table.setWhere p f))
    (hf : ∀ b ∈ db.leases, p b = true → (f b).state = .active → (f b).phase = .normal →
      unresolvedGrants db (f b).projectKey = [] ∨
        (b.state = .active ∧ b.phase = .normal ∧ b.projectKey = (f b).projectKey ∧
          b.fence = (f b).fence))
    (hgrants : db'.grants = db.grants) (hkeyed : ∀ p ∈ db'.projects, p.projectKey ≠ "")
    (hfences : ∀ p ∈ db.projects, ∃ p' ∈ db'.projects, p'.projectKey = p.projectKey ∧
      p.nextFence ≤ p'.nextFence) :
    GrantInv db' ∧ Advance db db' := by
  apply h.transfer hleases hgrants hkeyed hfences
  intro l hl hact hphase
  rw [Table.mem_def, hrows] at hl
  obtain ⟨b, hb, rfl⟩ := List.mem_map.mp hl
  by_cases hp : p b = true
  · rw [Table.setWhere_pos hp] at hact hphase ⊢
    rcases hf b hb hp hact hphase with hnil | hsame
    · exact Or.inl hnil
    · exact Or.inr ⟨b, hb, hsame⟩
  · rw [Table.setWhere_neg hp] at hact hphase ⊢
    exact Or.inr ⟨b, hb, hact, hphase, rfl, rfl⟩

theorem grantInv_leased (h : GrantInv db) {project : Project} (hp : project ∈ db.projects)
    {lease : Lease} (hkey : lease.projectKey = project.projectKey)
    (hfence : lease.fence = project.nextFence + 1)
    (hphase : lease.phase = acquirePhase db project)
    (hleases : LeaseInv db'.projects db'.leases)
    (hw : grantLease db project lease = .ok db') : GrantInv db' ∧ Advance db db' := by
  obtain ⟨hrows, hdb, _⟩ := grantLease_spec h.leases hp hw
  have hmem : ∀ l, l ∈ db'.leases ↔ (∃ b ∈ db.leases, supersede project b = l) ∨ l = lease := by
    intro l
    rw [Table.mem_def, hrows]
    simp [Table.mem_def]
  have hproj : ∀ q, q ∈ db'.projects ↔ ∃ p ∈ db.projects, Table.setWhere
      (fun p => p.projectKey = project.projectKey) (fun p => p.granted lease) p = q := by
    intro q
    rw [hdb, Table.mem_update]
  apply h.transfer hleases (by rw [hdb])
  · intro q hq
    obtain ⟨p, hpm, rfl⟩ := (hproj q).mp hq
    rw [Table.setWhere_column Project.projectKey _ (fun p => p.granted lease) fun _ => rfl]
    exact h.keyed p hpm
  · intro p hpm
    refine ⟨_, (hproj _).mpr ⟨p, hpm, rfl⟩, ?_, ?_⟩
    · exact Table.setWhere_column Project.projectKey _ (fun p => p.granted lease) (fun _ => rfl) p
    · by_cases heq : p.projectKey = project.projectKey
      · rw [Table.setWhere_pos (by simpa using heq), project_table_eq hpm hp heq]
        change project.nextFence ≤ lease.fence
        omega
      · rw [Table.setWhere_neg (by simpa using heq)]
  · intro l hl hact hnormal
    rcases (hmem l).mp hl with ⟨b, hb, rfl⟩ | rfl
    · refine Or.inr ⟨b, hb, ?_⟩
      unfold supersede at hact hnormal ⊢
      split at hact
      · simp at hact
      · rename_i hcur
        rw [if_neg hcur] at hnormal ⊢
        exact ⟨hact, hnormal, rfl, rfl⟩
    · rw [hkey]
      exact Or.inl (acquirePhase_normal (hphase ▸ hnormal))

theorem grantInv_issued (h : GrantInv db) {body : GrantIssueBody} {tokenHash : String}
    {lease : Lease} {capability : Envelope} {grants : Table Grant Grant.Clash}
    {signed : List (Bytes × Body)}
    (hlive : liveLease db body.credential tokenHash r.now = some lease)
    (hins : db.grants.insert (freshGrant P body tokenHash info r.uuid capability) = some grants) :
    GrantInv { db with grants := grants, signed := signed } ∧
      Advance db { db with grants := grants, signed := signed } := by
  obtain ⟨hl, _, hkey, hfence, hcur, hact⟩ := liveLease_spec hlive
  obtain ⟨p, hp, hpkey, hpcur⟩ := currentLeaseId_eq_some.mp hcur
  obtain ⟨l', hl', hlid, _, _, hlf, _⟩ := h.leases.pointer p hp _ hpcur
  have hsame := lease_eq_of_id hl hl' hlid.symm
  subst hsame
  have hmem : ∀ g, g ∈ grants ↔ g ∈ db.grants ∨
      g = freshGrant P body tokenHash info r.uuid capability := fun g => Table.mem_insert hins
  constructor
  · constructor
    · exact h.leases
    · exact h.keyed
    · intro g hg
      rcases (hmem g).mp hg with hg | rfl
      · exact h.named g hg
      · exact r.uuid_ne
    · intro g hg
      rcases (hmem g).mp hg with hg | rfl
      · exact h.bound g hg
      · exact ⟨p, hp, hpkey, (hfence.symm.trans hlf).le⟩
    · intro l hlm hlact hphase g hg hgk hlt
      rcases (hmem g).mp hg with hg | rfl
      · exact h.settled l hlm hlact hphase g hg hgk hlt
      · obtain ⟨q, hq, hqk, hqc⟩ := h.leases.active l hlm hlact
        have hqp : q = p := project_eq_of_key hq hp (hqk.trans (hgk.symm.trans hpkey.symm))
        subst hqp
        have hll := lease_eq_of_id hlm hl (Option.some.inj (hqc.symm.trans hpcur))
        subst hll
        change body.credential.fence < l.fence at hlt
        omega
  · refine ⟨fun g hg => ⟨g, (hmem g).mpr (Or.inl hg), rfl, fun _ => rfl⟩,
      (Advance.refl db).fences, ?_⟩
    intro g hg
    rcases (hmem g).mp hg with hg | rfl
    · exact Or.inl ⟨g, hg, rfl⟩
    · refine Or.inr fun q hq hqk => ?_
      rw [project_eq_of_key hq hp (hqk.trans hpkey.symm)]
      exact (hlf.symm.trans hfence).le

theorem grantInv_imported (h : GrantInv db) {body : Body} {grant : Grant} {F : Grant → Grant}
    {grants : Table Grant Grant.Clash} (hrows : grants.rows = db.grants.rows.map F)
    (hmoves : ∀ g ∈ db.grants, (F g).identity = g.identity ∧
      GrantMove body grant g (F g).state) :
    GrantInv { db with grants := grants } ∧ Advance db { db with grants := grants } := by
  have hmem : ∀ g, g ∈ grants ↔ ∃ b ∈ db.grants, F b = g := by
    intro g
    rw [Table.mem_def, hrows, List.mem_map]
    rfl
  constructor
  · constructor
    · exact h.leases
    · exact h.keyed
    · intro g hg
      obtain ⟨b, hb, rfl⟩ := (hmem g).mp hg
      rw [show (F b).grantId = b.grantId from congrArg GrantIdentity.grantId (hmoves b hb).1]
      exact h.named b hb
    · intro g hg
      obtain ⟨b, hb, rfl⟩ := (hmem g).mp hg
      rw [show (F b).projectKey = b.projectKey from
          congrArg GrantIdentity.projectKey (hmoves b hb).1,
        show (F b).fence = b.fence from congrArg GrantIdentity.fence (hmoves b hb).1]
      exact h.bound b hb
    · intro l hl hact hphase g hg hkey hlt
      obtain ⟨b, hb, rfl⟩ := (hmem g).mp hg
      obtain ⟨hid, hmove⟩ := hmoves b hb
      have hbk : (F b).projectKey = b.projectKey := congrArg GrantIdentity.projectKey hid
      have hbf : (F b).fence = b.fence := congrArg GrantIdentity.fence hid
      have hres := h.settled l hl hact hphase b hb (hbk.symm.trans hkey) (hbf ▸ hlt)
      rw [hmove.resolved hres]
      exact hres
  · refine ⟨fun g hg => ⟨F g, (hmem _).mpr ⟨g, hg, rfl⟩, (hmoves g hg).1,
      (hmoves g hg).2.resolved⟩, (Advance.refl db).fences, ?_⟩
    intro g hg
    obtain ⟨b, hb, rfl⟩ := (hmem g).mp hg
    exact Or.inl ⟨b, hb, (hmoves b hb).1⟩

/-- An update of the projects that moves neither keys nor fences. -/
theorem project_update_kept (projects : Table Project Project.Clash) (p : Project → Bool)
    (f : Project → Project) (hf : Table.Keeps Project.Clash f)
    (hkey : ∀ a, (f a).projectKey = a.projectKey) (hfence : ∀ a, (f a).nextFence = a.nextFence) :
    (∀ q ∈ projects.update p f hf, ∃ a ∈ projects, q.projectKey = a.projectKey) ∧
      ∀ a ∈ projects, ∃ q ∈ projects.update p f hf, q.projectKey = a.projectKey ∧
        a.nextFence ≤ q.nextFence := by
  constructor
  · intro q hq
    obtain ⟨a, ha, rfl⟩ := Table.mem_update.mp hq
    exact ⟨a, ha, Table.setWhere_column Project.projectKey _ f hkey a⟩
  · intro a ha
    exact ⟨_, Table.update_mem _ ha, Table.setWhere_column Project.projectKey _ f hkey a,
      (Table.setWhere_column Project.nextFence _ f hfence a).ge⟩

/-- Every effect keeps the ledger invariant and only advances the store. -/
theorem effect_grantInv (heff : Effect P request info r db db') (h : GrantInv db) :
    GrantInv db' ∧ Advance db db' := by
  have hleases := effect_leaseInv heff h.leases
  cases heff with
  | unchanged => exact ⟨h, Advance.refl db⟩
  | registered body projects key insert =>
    have hmem : ∀ p, p ∈ projects ↔ p ∈ db.projects ∨ p = freshProject body :=
      fun p => Table.mem_insert insert
    refine h.transfer hleases rfl ?_ ?_ ?_
    · intro p hp
      rcases (hmem p).mp hp with hp | rfl
      · exact h.keyed p hp
      · intro hempty
        have hlen : body.projectKey = "" := hempty
        rw [hlen] at key
        exact absurd key (by decide)
    · exact fun p hp => ⟨p, (hmem p).mpr (Or.inl hp), rfl, le_refl _⟩
    · exact fun l hl hact hphase => Or.inr ⟨l, hl, hact, hphase, rfl, rfl⟩
  | leased body tokenHash project _ mem write =>
    exact grantInv_leased h mem rfl rfl rfl hleases write
  | beaten owned now until_ =>
    exact h.update_leases (f := Lease.beat now until_) hleases rfl
      (fun b _ _ hact hphase => Or.inr ⟨hact, hphase, rfl, rfl⟩) rfl h.keyed
      (Advance.refl db).fences
  | released c tokenHash project lease owned =>
    have hkept := project_update_kept db.projects
      (fun p => p.projectKey = c.projectKey ∧ p.currentLeaseId = some c.leaseId)
      Project.unheld (fun _ _ => ⟨id, id⟩) (fun _ => rfl) fun _ => rfl
    refine h.update_leases (f := Lease.release r.now) hleases rfl ?_ rfl ?_ ?_
    · intro b _ _ hact
      simp [Lease.release] at hact
    · intro q hq
      obtain ⟨p, hp, hqp⟩ := hkept.1 q hq
      rw [hqp]
      exact h.keyed p hp
    · exact hkept.2
  | keyCreated => exact ⟨⟨h.leases, h.keyed, h.named, h.bound, h.settled⟩,
      ⟨(Advance.refl db).grants, (Advance.refl db).fences, (Advance.refl db).fresh⟩⟩
  | keyFinalized => exact ⟨⟨h.leases, h.keyed, h.named, h.bound, h.settled⟩,
      ⟨(Advance.refl db).grants, (Advance.refl db).fences, (Advance.refl db).fresh⟩⟩
  | rotated => exact ⟨⟨h.leases, h.keyed, h.named, h.bound, h.settled⟩,
      ⟨(Advance.refl db).grants, (Advance.refl db).fences, (Advance.refl db).fresh⟩⟩
  | issued body tokenHash lease secret capability grants live insert =>
    exact grantInv_issued h live insert
  | imported receipt path secret key sha _ response _ _ _ _ _ write =>
    obtain ⟨grant, _, _, _, F, hrows, hmoves⟩ := importReceipt_moves write
    rw [importReceipt_frame write]
    exact grantInv_imported h hrows hmoves
  | restored c tokenHash lease live settled =>
    obtain ⟨hl, hid, hkey, _⟩ := liveLease_spec live
    have hkept := project_update_kept db.projects
      (fun p => p.projectKey = c.projectKey ∧ p.currentLeaseId = some c.leaseId)
      Project.restored (fun _ _ => ⟨id, id⟩) (fun _ => rfl) fun _ => rfl
    refine h.update_leases (f := Lease.normalised) hleases rfl ?_ rfl ?_ ?_
    · intro b hb hmatch _ _
      have hbl : b = lease := lease_eq_of_id hb hl (by rw [hid]; simpa using hmatch)
      left
      rw [hbl, show (Lease.normalised lease).projectKey = lease.projectKey from rfl, hkey]
      exact settled
    · intro q hq
      obtain ⟨p, hp, hqp⟩ := hkept.1 q hq
      rw [hqp]
      exact h.keyed p hp
    · exact hkept.2

/-- Filing a replay record moves nothing the ledger speaks about. -/
theorem GrantInv.replay (h : GrantInv db) (records : Table (RpcRecord Response) RpcRecord.Clash) :
    GrantInv { db with rpcRequests := records } :=
  ⟨h.leases, h.keyed, h.named, h.bound, h.settled⟩

theorem Advance.replay (h : Advance db db')
    (records : Table (RpcRecord Response) RpcRecord.Clash) :
    Advance db { db' with rpcRequests := records } :=
  ⟨h.grants, h.fences, h.fresh⟩

theorem effect_cluster (heff : Effect P request info r db db') :
    db'.info.clusterId = db.info.clusterId := by
  cases heff with
  | leased body tokenHash project _ _ write =>
    simp only [grantLease, bind_eq_ok] at write
    obtain ⟨_, _, write⟩ := write
    split at write
    · simp at write
    · rw [pure_eq_ok] at write
      rw [← write]
  | imported _ _ _ _ _ _ _ _ _ _ _ _ write => rw [importReceipt_frame write]
  | unchanged => rfl
  | registered => rfl
  | beaten => rfl
  | released => rfl
  | keyCreated => rfl
  | keyFinalized => rfl
  | rotated => rfl
  | issued => rfl
  | restored => rfl

theorem grantInv_init (clusterId deviceId : String) (leaseSeconds : Int) :
    GrantInv (Authority.init clusterId deviceId leaseSeconds) where
  leases := leaseInv_empty
  keyed := fun p hp => absurd hp (Table.not_mem_empty p)
  named := fun g hg => absurd hg (Table.not_mem_empty g)
  bound := fun g hg => absurd hg (Table.not_mem_empty g)
  settled := fun l hl => absurd hl (Table.not_mem_empty l)

end Effects

end Remrun.Runner
