import Remrun.Runner.Protocol

/-!
# Fencing safety

The joint invariant of the authority's ledger and the targets' stores. A grant the
authority holds resolved is either recorded at its target or out of the target's reach, so
once a lease is in phase `NORMAL` no target accepts anything below its fence.
-/

namespace Remrun.Runner

open Relational
set_option autoImplicit false

variable {P : Prims}

structure System.FenceInv (s : System) : Prop where
  origin : s.OriginInv
  store : ∀ d, ParticipantInv (s.participants d)
  rows : ∀ d, ∀ row ∈ (s.participants d).accepted, row.Blank ∨
    ∃ g ∈ s.authority.grants, g.targetDeviceId = d ∧
      row.Records s.authority.info.clusterId g.identity
  accepted : ∀ g ∈ s.authority.grants, g.state = .accepted ∨ g.state = .terminal →
    ∃ row ∈ (s.participants g.targetDeviceId).accepted, row.grantId = g.grantId
  fenced : ∀ g ∈ s.authority.grants, g.state = .fenced →
    (∀ row ∈ (s.participants g.targetDeviceId).accepted, row.grantId ≠ g.grantId) ∧
      (s.participants g.targetDeviceId).Reached s.authority.info.clusterId g.projectKey
        g.authorityEpoch (g.fence + 1)

theorem fenceInv_init (clusterId deviceId : String) (leaseSeconds : Int) :
    (System.init clusterId deviceId leaseSeconds).FenceInv where
  origin := originInv_init clusterId deviceId leaseSeconds
  store := participantInv_init
  rows := fun _ row hrow => absurd hrow (Table.not_mem_empty row)
  accepted := fun g hg => absurd hg (Table.not_mem_empty g)
  fenced := fun g hg => absurd hg (Table.not_mem_empty g)

/-- A recorded row that carries a grant's id carries the grant. -/
theorem records_of_id {s : System} (h : s.OriginInv) {row : AcceptedGrant} {g : Grant}
    {clusterId d : String} (hg : g ∈ s.authority.grants) (hid : row.grantId = g.grantId)
    (hrow : row.Blank ∨ ∃ g' ∈ s.authority.grants, g'.targetDeviceId = d ∧
      row.Records clusterId g'.identity) :
    g.targetDeviceId = d ∧ row.Records clusterId g.identity := by
  rcases hrow with ⟨hempty, _⟩ | ⟨g', hg', htarget, hrec⟩
  · exact absurd (hid.symm.trans hempty) (h.ledger.named g hg)
  · have hsame : g = g' := grant_eq_of_id hg hg' (hid.symm.trans hrec.grantId)
    subst hsame
    exact ⟨htarget, hrec⟩

/-- A store that only grew, and took in no row its floor had passed. -/
theorem fenceInv_setParticipant {s : System} (h : s.FenceInv) {d : String} {p : Participant}
    (horigin : (s.setParticipant d p).OriginInv) (hstore : ParticipantInv p)
    (hgrow : ∀ row ∈ (s.participants d).accepted, row ∈ p.accepted)
    (hmono : ∀ c k e f, (s.participants d).Reached c k e f → p.Reached c k e f)
    (hnew : ∀ row ∈ p.accepted, row ∈ (s.participants d).accepted ∨
      ((row.Blank ∨ ∃ g ∈ s.authority.grants, g.targetDeviceId = d ∧
          row.Records s.authority.info.clusterId g.identity) ∧
        ¬ (s.participants d).Reached row.clusterId row.projectKey row.authorityEpoch
          (row.fence + 1))) :
    (s.setParticipant d p).FenceInv := by
  refine ⟨horigin, ?_, ?_, ?_, ?_⟩
  · exact setParticipant_forall (Q := fun _ p => ParticipantInv p) hstore h.store
  · refine setParticipant_forall (Q := fun d p => ∀ row ∈ p.accepted, row.Blank ∨
      ∃ g ∈ s.authority.grants, g.targetDeviceId = d ∧
        row.Records s.authority.info.clusterId g.identity) ?_ h.rows
    intro row hrow
    rcases hnew row hrow with hold | ⟨hfrom, _⟩
    · exact h.rows d row hold
    · exact hfrom
  · intro g hg hstate
    obtain ⟨row, hrow, hid⟩ := h.accepted g hg hstate
    refine ⟨row, ?_, hid⟩
    by_cases heq : g.targetDeviceId = d
    · rw [heq, setParticipant_self]
      exact hgrow row (heq ▸ hrow)
    · rw [setParticipant_other s p heq]
      exact hrow
  · intro g hg hstate
    obtain ⟨hnone, hreached⟩ := h.fenced g hg hstate
    by_cases heq : g.targetDeviceId = d
    · rw [heq] at hnone hreached
      rw [heq, setParticipant_self]
      refine ⟨?_, hmono _ _ _ _ hreached⟩
      intro row hrow hid
      rcases hnew row hrow with hold | ⟨hfrom, habove⟩
      · exact hnone row hold hid
      · obtain ⟨_, hrec⟩ := records_of_id h.origin hg hid hfrom
        rw [hrec.clusterId, hrec.projectKey, hrec.authorityEpoch, hrec.fence] at habove
        exact habove hreached
    · rw [setParticipant_other s p heq]
      exact ⟨hnone, hreached⟩

/-- Where the row of a verified capability comes from. -/
theorem accepted_origin {s : System} (h : s.OriginInv) {secret : Bytes} {body : Body}
    {d : String} (hsigned : s.Signed secret body) (htarget : body.targetDeviceId.getD "" = d)
    (state : AcceptedState) (result : GrantResult) :
    (acceptedRow body state result).Blank ∨ ∃ g ∈ s.authority.grants, g.targetDeviceId = d ∧
      (acceptedRow body state result).Records s.authority.info.clusterId g.identity := by
  rcases h.originates hsigned with ⟨g, hg, hdesc⟩ | henr
  · refine Or.inr ⟨g, hg, ?_, hdesc.records state result⟩
    have ht := h.target hsigned htarget
    rw [hdesc.targetDeviceId] at ht
    exact Option.some.inj ht
  · exact Or.inl (henr.blank state result)

/-- A status receipt of a recorded row: the grant it is about and the row at its target. -/
theorem receipt_row {s : System} (h : s.FenceInv) {secret : Bytes} {body : Body} {grant : Grant}
    (hgrant : grant ∈ s.authority.grants) (hid : grant.grantId = body.grantId.getD "")
    (hkind : body.kind = some .grantStatus) (hsigned : s.Signed secret body)
    {state : AcceptedState} (hstatus : body.status = some (.row state)) :
    acceptedRow body state body.result ∈ (s.participants grant.targetDeviceId).accepted ∧
      (acceptedRow body state body.result).Records s.authority.info.clusterId grant.identity := by
  obtain ⟨d, htarget, hmem⟩ := h.origin.receipt_signer hsigned hstatus
  rcases h.origin.originates hsigned with ⟨g, hg, hdesc⟩ | henr
  · have hsame : grant = g := by
      apply grant_eq_of_id hgrant hg
      rw [hid, hdesc.grantId]
      rfl
    subst hsame
    have hd : grant.targetDeviceId = d :=
      Option.some.inj (hdesc.targetDeviceId.symm.trans htarget)
    rw [hd]
    exact ⟨(h.store d).receipts _ hmem state hstatus, hdesc.records state body.result⟩
  · rw [henr.kind] at hkind
    exact absurd hkind (by simp)

/-- The evidence behind every state an import moves a grant to. -/
theorem import_evidence {s : System} (h : s.FenceInv) {secret : Bytes} {body : Body}
    {grant g : Grant} {next : GrantState} (hgrant : grant ∈ s.authority.grants)
    (hid : grant.grantId = body.grantId.getD "") (hkind : body.kind = some .grantStatus)
    (hsigned : s.Signed secret body) (hg : g ∈ s.authority.grants)
    (hmove : GrantMove body grant g next) :
    (next = .accepted ∨ next = .terminal →
      ∃ row ∈ (s.participants g.targetDeviceId).accepted, row.grantId = g.grantId) ∧
    (next = .fenced →
      (∀ row ∈ (s.participants g.targetDeviceId).accepted, row.grantId ≠ g.grantId) ∧
        (s.participants g.targetDeviceId).Reached s.authority.info.clusterId g.projectKey
          g.authorityEpoch (g.fence + 1)) := by
  cases hmove with
  | kept => exact ⟨h.accepted g hg, h.fenced g hg⟩
  | unknown => exact ⟨by simp, by simp⟩
  | received state self pending status known =>
    subst self
    obtain ⟨hrow, hrec⟩ := receipt_row h hgrant hid hkind hsigned status
    refine ⟨fun _ => ⟨_, hrow, hrec.grantId⟩, fun hfenced => ?_⟩
    cases state with
    | accepted => simp [receiptState] at hfenced
    | terminal => simp [receiptState] at hfenced
    | fenced => exact absurd rfl known
  | observed items o _ receipt below mem name state =>
    obtain ⟨hstatus, hop, hresult⟩ := receipt
    obtain ⟨hrow, hrec⟩ := receipt_row h hgrant hid hkind hsigned hstatus
    obtain ⟨items', hres', hlisted, _⟩ :=
      (h.store grant.targetDeviceId).barrier _ hrow (hrec.operation.trans hop)
    have hitems : items' = items := Option.some.inj (hres'.symm.trans hresult)
    subst hitems
    obtain ⟨row, hmem, hrid⟩ := hlisted o mem
    refine ⟨fun _ => ⟨row, ?_, hrid.trans name⟩, fun hfenced => ?_⟩
    · rw [below.2.2.1]
      exact hmem
    · rcases state with rfl | rfl <;> simp at hfenced
  | fenced items receipt below omitted =>
    obtain ⟨hstatus, hop, hresult⟩ := receipt
    obtain ⟨hrow, hrec⟩ := receipt_row h hgrant hid hkind hsigned hstatus
    obtain ⟨items', hres', _, hcover⟩ :=
      (h.store grant.targetDeviceId).barrier _ hrow (hrec.operation.trans hop)
    have hitems : items' = items := Option.some.inj (hres'.symm.trans hresult)
    subst hitems
    obtain ⟨hkey, hepoch, htarget, hlt, _⟩ := below
    refine ⟨by simp, fun _ => ⟨?_, ?_⟩⟩
    · intro row hmem hrid
      obtain ⟨_, hgrec⟩ := records_of_id h.origin hg hrid (h.rows _ row hmem)
      rw [htarget] at hmem
      obtain ⟨o, ho, hname⟩ := hcover row hmem
        (hgrec.clusterId.trans hrec.clusterId.symm)
        (hgrec.projectKey.trans (hkey.trans hrec.projectKey.symm))
        (hgrec.authorityEpoch.trans (hepoch.trans hrec.authorityEpoch.symm))
        (by rw [hgrec.fence, hrec.fence]; exact hlt)
      exact omitted o ho (hname.trans hrid)
    · have hfloor := (h.store grant.targetDeviceId).floor _ hrow
      rw [hrec.clusterId, hrec.projectKey, hrec.authorityEpoch, hrec.fence] at hfloor
      rw [htarget, hkey, hepoch]
      exact hfloor.mono hlt

/-- The evidence for every grant of the ledger after an effect. -/
theorem ledger_evidence {s : System} (h : s.FenceInv) {request : AuthorityRequest} {info : Meta}
    {r : Readings} {grants : Table Grant Grant.Clash} {signed : List (Bytes × Body)}
    (heff : LedgerEffect P request info r s.authority grants signed)
    (hauth : ∀ e, request.envelope = some e → s.Authentic P s.authority.keys e)
    {g : Grant} (hg : g ∈ grants) :
    (g.state = .accepted ∨ g.state = .terminal →
      ∃ row ∈ (s.participants g.targetDeviceId).accepted, row.grantId = g.grantId) ∧
    (g.state = .fenced →
      (∀ row ∈ (s.participants g.targetDeviceId).accepted, row.grantId ≠ g.grantId) ∧
        (s.participants g.targetDeviceId).Reached s.authority.info.clusterId g.projectKey
          g.authorityEpoch (g.fence + 1)) := by
  cases heff with
  | kept => exact ⟨h.accepted g hg, h.fenced g hg⟩
  | issued body tokenHash lease secret capability _ live insert =>
    rcases (Table.mem_insert insert).mp hg with hg | rfl
    · exact ⟨h.accepted g hg, h.fenced g hg⟩
    · exact ⟨by simp [freshGrant], by simp [freshGrant]⟩
  | imported receipt path secret grant F _ delivered kind stored verified mem name rows moves =>
    rw [Table.mem_def, rows] at hg
    obtain ⟨b, hb, rfl⟩ := List.mem_map.mp hg
    obtain ⟨hid, hmove⟩ := moves b hb
    have hsigned := hauth receipt delivered secret ⟨⟨path, stored⟩, verified⟩
    have hev := import_evidence h mem name kind hsigned hb hmove
    rw [show (F b).grantId = b.grantId from congrArg GrantIdentity.grantId hid,
      show (F b).targetDeviceId = b.targetDeviceId from congrArg GrantIdentity.targetDeviceId hid,
      show (F b).projectKey = b.projectKey from congrArg GrantIdentity.projectKey hid,
      show (F b).authorityEpoch = b.authorityEpoch from congrArg GrantIdentity.authorityEpoch hid,
      show (F b).fence = b.fence from congrArg GrantIdentity.fence hid]
    exact hev

theorem move_fenceInv {s s' : System} {event : Event} (hmove : System.Move P s event s')
    (h : s.FenceInv) : s'.FenceInv := by
  have horigin := move_originInv hmove h.origin
  cases hmove with
  | idle => exact h
  | opened call => exact ⟨horigin, h.store, h.rows, h.accepted, h.fenced⟩
  | dropped position r => exact ⟨horigin, h.store, h.rows, h.accepted, h.fenced⟩
  | committed position r call info db records waiting effect authentic =>
    obtain ⟨_, hadv⟩ := effect_grantInv effect h.origin.ledger
    have hcluster := effect_cluster effect
    refine ⟨horigin, h.store, ?_, ?_, ?_⟩
    · intro d row hrow
      rcases h.rows d row hrow with hblank | ⟨g, hg, htarget, hrec⟩
      · exact Or.inl hblank
      · obtain ⟨g', hg', hid, _⟩ := hadv.grants g hg
        refine Or.inr ⟨g', hg', ?_, ?_⟩
        · exact (congrArg GrantIdentity.targetDeviceId hid).trans htarget
        · rw [hid, show db.info.clusterId = s.authority.info.clusterId from hcluster]
          exact hrec
    · intro g hg
      exact (ledger_evidence h (effect_ledger effect) authentic hg).1
    · intro g hg
      rw [show db.info.clusterId = s.authority.info.clusterId from hcluster]
      exact (ledger_evidence h (effect_ledger effect) authentic hg).2
  | answered d call now p records effect authentic =>
    have hstore := participantEffect_inv effect (h.store d)
    have hstore' : ParticipantInv { p with rpcRequests := records } :=
      ⟨hstore.floor, hstore.unfenced, hstore.barrier, hstore.receipts⟩
    cases effect with
    | unchanged =>
      exact fenceInv_setParticipant h horigin hstore' (fun _ hrow => hrow)
        (fun _ _ _ _ hreached => hreached) fun _ hrow => Or.inl hrow
    | signed =>
      exact fenceInv_setParticipant h horigin hstore' (fun _ hrow => hrow)
        (fun _ _ _ _ hreached => hreached) fun _ hrow => Or.inl hrow
    | accepted e secret state result _ delivered verified _ target fresh above answer write =>
      obtain ⟨hmem, _, hmono, _⟩ := insertAccepted_spec (acceptedRow e.body state result) above
          write
      refine fenceInv_setParticipant h horigin hstore'
        (fun row hrow => (hmem row).mpr (Or.inl hrow)) hmono ?_
      intro row hrow
      rcases (hmem row).mp hrow with hold | rfl
      · exact Or.inl hold
      · have hsigned := authentic e (by rw [delivered]; rfl) secret verified
        exact Or.inr ⟨accepted_origin h.origin hsigned (target.trans (h.origin.device d))
          state result, above⟩
  | enrolled d e =>
    have hstore := keyImport_inv (P := P) e (h.store d)
    obtain ⟨keys, enrolled, signed, heq, _⟩ := keyImport_effect (P := P) e (s.participants d)
    rw [heq] at horigin hstore ⊢
    exact fenceInv_setParticipant h horigin hstore (fun _ hrow => hrow)
      (fun _ _ _ _ hreached => hreached) fun _ hrow => Or.inl hrow

/-! ## Whole runs -/

theorem run_fenceInv {s : System} (h : s.FenceInv) {events : List Event}
    (hgen : s.GenuineRun P events) : (s.run P events).FenceInv :=
  Transition.run_invariant System.FenceInv
    (fun _ _ hinv hok => move_fenceInv (step_move hok) hinv) h hgen

theorem run_advance {s : System} (h : s.FenceInv) {events : List Event}
    (hgen : s.GenuineRun P events) : Advance s.authority (s.run P events).authority :=
  Transition.run_climbs System.FenceInv (fun a b => Advance a.authority b.authority)
    (fun s => Advance.refl s.authority) (fun _ _ _ => Advance.trans)
    (fun _ _ hinv hok => ⟨move_fenceInv (step_move hok) hinv,
      move_advance (step_move hok) hinv.origin⟩) h hgen

/-- Behind a settled fence a step inserts nothing below it. -/
theorem settled_blocks {s : System} (h : s.FenceInv) {event : Event} (hgen : s.Genuine P event)
    {key : String} {fence : Int} (hsettled : Settled s.authority key fence) {d : String}
    {row : AcceptedGrant} (hrow : row ∈ ((s.step P event).participants d).accepted)
    (hnew : row ∉ (s.participants d).accepted) (hkey : row.projectKey = key) :
    fence ≤ row.fence := by
  obtain ⟨call, now, e, _, _, hins⟩ := move_new_row (step_move hgen) h.origin hrow hnew
  obtain ⟨secret, hsigned⟩ := hins.signed
  obtain ⟨state, result, heq⟩ := hins.columns
  have hfrom := accepted_origin h.origin hsigned hins.target state result
  rw [← heq] at hfrom
  rcases hfrom with ⟨_, hempty⟩ | ⟨g, hg, htarget, hrec⟩
  · obtain ⟨⟨p, hp, hpkey, _⟩, _⟩ := hsettled
    exact absurd (hpkey.trans (hkey.symm.trans hempty)) (h.origin.ledger.keyed p hp)
  · by_contra hlt
    have hfence : g.fence < fence := by
      have hgf : row.fence = g.fence := hrec.fence
      omega
    have hresolved := hsettled.2 g hg (hrec.projectKey.symm.trans hkey) hfence
    cases hstate : g.state with
    | issued => simp [hstate, GrantState.unresolved] at hresolved
    | unknown => simp [hstate, GrantState.unresolved] at hresolved
    | accepted => simp [hstate, GrantState.unresolved] at hresolved
    | terminal =>
      obtain ⟨prior, hprior, hid⟩ := h.accepted g hg (Or.inr hstate)
      rw [htarget] at hprior
      exact hins.fresh prior hprior (hid.trans hrec.grantId.symm)
    | fenced =>
      have hreached := (h.fenced g hg hstate).2
      have habove := hins.above
      rw [hrec.clusterId, hrec.projectKey, hrec.authorityEpoch, hrec.fence, ← htarget] at habove
      exact habove hreached

/-- Fencing safety. After `before` some lease is current and in phase `NORMAL`: from then on
no event makes a target insert a row of its project below its fence. And a grant that is
`FENCED` after `before` has no row at its target after any later event. -/
theorem fencing_safety (P : Prims) (clusterId coordinatorDeviceId : String) (leaseSeconds : Int)
    (before after : List Event) (event : Event)
    (hgen : (System.init clusterId coordinatorDeviceId leaseSeconds).GenuineRun P
      (before ++ (after ++ [event]))) :
    let s := (System.init clusterId coordinatorDeviceId leaseSeconds).run P before
    let t := s.run P after
    (∀ l ∈ s.authority.leases, s.authority.currentLeaseId l.projectKey = some l.leaseId →
      l.phase = .normal → ∀ d, ∀ row ∈ ((t.step P event).participants d).accepted,
        row ∉ (t.participants d).accepted → row.projectKey = l.projectKey →
          l.fence ≤ row.fence) ∧
    ∀ g ∈ s.authority.grants, g.state = .fenced →
      ∀ row ∈ ((t.step P event).participants g.targetDeviceId).accepted,
        row.grantId ≠ g.grantId := by
  intro s t
  obtain ⟨hbefore, hrest⟩ := Transition.along_append.mp hgen
  obtain ⟨hafter, hevent, _⟩ := Transition.along_append.mp hrest
  have hs : s.FenceInv := run_fenceInv (fenceInv_init clusterId coordinatorDeviceId leaseSeconds)
    hbefore
  have ht : t.FenceInv := run_fenceInv hs hafter
  have hadv : Advance s.authority t.authority := run_advance hs hafter
  constructor
  · intro l hl hcur hphase d row hrow hnew hkey
    have hsettled := (hs.origin.ledger.settled_current hl hcur hphase).advance hadv
    exact settled_blocks ht hevent hsettled hrow hnew hkey
  · intro g hg hstate row hrow
    have hmove := step_move hevent
    have hu : (t.step P event).FenceInv := move_fenceInv hmove ht
    have hadv' := hadv.trans (move_advance hmove ht.origin)
    obtain ⟨g', hg', hid, hkeep⟩ := hadv'.grants g hg
    have hstate' : g'.state = .fenced := (hkeep (by simp [hstate, GrantState.unresolved])).trans
      hstate
    have hname : g'.grantId = g.grantId := congrArg GrantIdentity.grantId hid
    have htarget : g'.targetDeviceId = g.targetDeviceId :=
      congrArg GrantIdentity.targetDeviceId hid
    rw [← hname]
    exact (hu.fenced g' hg' hstate').1 row (htarget ▸ hrow)

theorem l1_ne_empty : "l1" ≠ "" := by decide

def sampleLease : Lease :=
  freshLease samplePrims ⟨"c1", sampleKey, sampleKey, "a1", some sampleToken, "ctl", "rep",
    none, none⟩ sampleToken ⟨"c1", "coordinator", 1, false, 60⟩
    (sampleReadings "l1" l1_ne_empty) (Authority.init "c1" "coordinator" 60)
    (freshProject ⟨sampleKey, "p1", sampleKey⟩)

theorem fencing_safety_first_grant :
    let s := sampleSystem.run samplePrims sampleEnrolled
    let t := s.run samplePrims (Event.rpcs sampleIssue)
    sampleLease ∈ s.authority.leases ∧ sampleLease.phase = .normal ∧
      sampleRow ∈ ((t.step samplePrims sampleAccept).participants "t1").accepted ∧
      sampleRow ∉ (t.participants "t1").accepted ∧ sampleLease.fence ≤ sampleRow.fence := by
  intro s t
  have hs : s = _ := sampleEnrolled_run
  have ht : t = _ := sampleIssue_run
  have hlease : sampleLease ∈ s.authority.leases := by
    rw [hs]
    decide +kernel
  have hcurrent : s.authority.currentLeaseId sampleLease.projectKey =
      some sampleLease.leaseId := by
    rw [hs]
    decide +kernel
  have hrow : sampleRow ∈ ((t.step samplePrims sampleAccept).participants "t1").accepted := by
    rw [ht]
    decide +kernel
  have hnew : sampleRow ∉ (t.participants "t1").accepted := by
    rw [ht]
    decide +kernel
  have hsafe := (fencing_safety samplePrims "c1" "coordinator" 60 sampleEnrolled
    (Event.rpcs sampleIssue) sampleAccept sampleAccept_genuine).1
  exact ⟨hlease, rfl, hrow, hnew, hsafe sampleLease hlease hcurrent rfl "t1" sampleRow hrow hnew rfl⟩

end Remrun.Runner
