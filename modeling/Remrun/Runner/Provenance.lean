import Remrun.Runner.Fencing

/-!
# Where accepted rows come from

Capabilities, status receipts and enrollment receipts are signed with one key per target.
`_verify_capability` does not look at `kind`, so an enrollment receipt wrapped with its key
id passes, and `_accept_capability` fills the missing fields with defaults. A status receipt
repeats the fields of its capability and does no harm. As long as nothing of the enrollment
kind passes, every accepted row is an issued grant.
-/

namespace Remrun.Runner

open Relational
set_option autoImplicit false

variable {P : Prims}

/-- Every accepted row carries the columns of a grant the authority issued for that target. -/
def System.OnlyIssued (s : System) : Prop :=
  ∀ d, ∀ row ∈ (s.participants d).accepted, ∃ g ∈ s.authority.grants,
    g.targetDeviceId = d ∧ row.Records s.authority.info.clusterId g.identity

/-- What an accept is presented with is no enrollment body that passes verification. -/
def System.NoEnrollmentAccepted (P : Prims) (s : System) : Event → Prop
  | .participantCall d call _ => ∀ capability, call.request = .grantAccept capability →
    ∀ body keyId secret, verifyCapability P capability (s.participants d) =
      .ok (body, keyId, secret) → body.kind ≠ some .keyEnrollment
  | _ => True

/-- Issued grants stay on the ledger. -/
theorem records_advance {s s' : System} {event : Event} (hmove : System.Move P s event s')
    (h : s.OriginInv) {d : String} {row : AcceptedGrant} (hrow : ∃ g ∈ s.authority.grants,
      g.targetDeviceId = d ∧ row.Records s.authority.info.clusterId g.identity) :
    ∃ g ∈ s'.authority.grants, g.targetDeviceId = d ∧
      row.Records s'.authority.info.clusterId g.identity := by
  obtain ⟨g, hg, htarget, hrec⟩ := hrow
  have hcluster : s'.authority.info.clusterId = s.authority.info.clusterId := by
    cases hmove with
    | committed _ _ _ _ db _ _ effect =>
      have hkept : db.info.clusterId = s.authority.info.clusterId := effect_cluster effect
      exact hkept
    | _ => rfl
  obtain ⟨g', hg', hid, _⟩ := (move_advance hmove h).grants g hg
  refine ⟨g', hg', (congrArg GrantIdentity.targetDeviceId hid).trans htarget, ?_⟩
  rw [hid, hcluster]
  exact hrec

theorem step_onlyIssued {s : System} {event : Event} (hgen : s.Genuine P event)
    (hkind : s.NoEnrollmentAccepted P event) (h : s.OriginInv) (hrows : s.OnlyIssued) :
    (s.step P event).OnlyIssued := by
  have hmove := step_move hgen
  intro d row hrow
  by_cases hold : row ∈ (s.participants d).accepted
  · exact records_advance hmove h (hrows d row hold)
  · obtain ⟨call, now, e, rfl, hreq, hins⟩ := move_new_row hmove h hrow hold
    obtain ⟨keyId, secret, hpassed⟩ := hins.passed
    have hne := hkind (some e) hreq e.body keyId secret hpassed
    obtain ⟨secret', hsigned⟩ := hins.signed
    obtain ⟨state, result, rfl⟩ := hins.columns
    apply records_advance hmove h
    rcases h.originates hsigned with ⟨g, hg, hdesc⟩ | henr
    · have ht := h.target hsigned hins.target
      rw [hdesc.targetDeviceId] at ht
      exact ⟨g, hg, Option.some.inj ht, hdesc.records state result⟩
    · exact absurd henr.kind hne

/-- In every run of an unforging environment in which no enrollment body passes as a
capability, every accepted row of every target is an issued grant of that target. -/
theorem onlyIssued_of_noEnrollment (P : Prims) (clusterId coordinatorDeviceId : String)
    (leaseSeconds : Int) (events : List Event)
    (hgen : (System.init clusterId coordinatorDeviceId leaseSeconds).GenuineRun P events)
    (hkind : Transition.Along (System.step P) (System.NoEnrollmentAccepted P)
      (System.init clusterId coordinatorDeviceId leaseSeconds) events) :
    ((System.init clusterId coordinatorDeviceId leaseSeconds).run P events).OnlyIssued := by
  have hinit : (System.init clusterId coordinatorDeviceId leaseSeconds).OriginInv ∧
      (System.init clusterId coordinatorDeviceId leaseSeconds).OnlyIssued :=
    ⟨originInv_init clusterId coordinatorDeviceId leaseSeconds,
      fun _ row hrow => absurd hrow (Table.not_mem_empty row)⟩
  refine (Transition.run_invariant (fun s : System => s.OriginInv ∧ s.OnlyIssued)
    ?_ hinit (Transition.along_and hgen hkind)).2
  rintro s event ⟨horigin, hrows⟩ ⟨hg, hk⟩
  exact ⟨move_originInv (step_move hg) horigin, step_onlyIssued hg hk horigin hrows⟩

theorem onlyIssued_first_grant :
    sampleRow ∈ ((sampleSystem.run samplePrims
        (sampleEnrolled ++ (Event.rpcs sampleIssue ++ [sampleAccept]))).participants
          "t1").accepted ∧
      (sampleSystem.run samplePrims
        (sampleEnrolled ++ (Event.rpcs sampleIssue ++ [sampleAccept]))).OnlyIssued := by
  constructor
  · rw [System.run, Transition.run_append, Transition.run_append]
    change sampleRow ∈ ((System.step samplePrims ((sampleSystem.run samplePrims
      sampleEnrolled).run samplePrims (Event.rpcs sampleIssue)) sampleAccept).participants
        "t1").accepted
    rw [sampleIssue_run]
    decide +kernel
  · refine onlyIssued_of_noEnrollment samplePrims "c1" "coordinator" 60 _ sampleAccept_genuine ?_
    apply Transition.along_of_forall
    intro event hevent s
    simp only [sampleEnrolled, Event.rpcs, List.mem_append, List.mem_flatMap, List.mem_cons,
      List.not_mem_nil, or_false] at hevent
    rcases hevent with ((⟨_, _, rfl | rfl⟩ | rfl) | ⟨_, _, rfl | rfl⟩) | ⟨_, _, rfl | rfl⟩ | rfl
    any_goals trivial
    rintro capability hreq body keyId secret hver
    have hcap : capability = some sampleCapability := by
      simpa using hreq.symm
    obtain ⟨e, he, rfl, _, _⟩ := verifyCapability_spec hver
    rw [hcap, Option.some.injEq] at he
    rw [← he]
    decide

/-- The target's enrollment receipt, wrapped with its key id. -/
def rewrappedReceipt : Envelope := { sampleEnrollmentReceipt with keyId := "k1" }

def acceptRewrapped : List Event :=
  sampleEnrolled ++
    [.participantCall "t1" ⟨"6", "digest", .grantAccept (some rewrappedReceipt)⟩ 20]

/-- The controller relays the enrollment receipt as a capability: the target records an
accepted grant although the authority has issued none. -/
theorem acceptRewrapped_not_onlyIssued :
    sampleSystem.GenuineRun samplePrims acceptRewrapped ∧
      ¬ (sampleSystem.run samplePrims acceptRewrapped).OnlyIssued := by
  have hstep : sampleSystem.run samplePrims acceptRewrapped =
      (System.setParticipant { sampleSystem with
        authority := authorityRun samplePrims "c1" "coordinator" 60
          (samplePrepare ++ sampleAcquire) } "t1" sampleTarget).step samplePrims
        (.participantCall "t1" ⟨"6", "digest", .grantAccept (some rewrappedReceipt)⟩ 20) := by
    rw [← sampleEnrolled_run]
    exact Transition.run_append _ _ _
  constructor
  · refine Transition.along_append.mpr ⟨sampleEnrolled_genuine, ?_, trivial⟩
    intro e he secret hver
    have heq : e = rewrappedReceipt := by
      simpa [ParticipantRequest.capability] using he.symm
    subst heq
    have hver' : Verifies samplePrims _ (sign samplePrims sampleSecret "k1"
      (enrollmentBody sampleEnrollment (Participant.init "t1"))) secret := hver
    rw [sample_verifies (by decide) hver']
    refine Or.inr ⟨"t1", ?_⟩
    change _ ∈ ((sampleSystem.run samplePrims sampleEnrolled).participants "t1").signed
    rw [sampleEnrolled_run]
    decide
  · intro h
    rw [hstep] at h
    obtain ⟨g, hg, _⟩ := h "t1" (acceptedRow rewrappedReceipt.body .accepted none)
      (by decide +kernel)
    have hnone : (authorityRun samplePrims "c1" "coordinator" 60
        (samplePrepare ++ sampleAcquire)).grants = Table.empty := by decide +kernel
    change g ∈ (authorityRun samplePrims "c1" "coordinator" 60
      (samplePrepare ++ sampleAcquire)).grants at hg
    rw [hnone] at hg
    exact Table.not_mem_empty g hg

end Remrun.Runner
