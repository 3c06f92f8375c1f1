import Remrun.Lib.Effect
import Remrun.Lib.Transition
import Remrun.Fleet.Submissions

/-!
# Exactly-once replies to submissions

What a transaction stores is kept for good, and every receipt and every refusal reads back what
is stored under the identity of its call. A receipt of an identity that names a plan or a request
is therefore the only one; a refusal under a request id excludes a receipt.
-/

namespace Remrun.Fleet.Submissions

open Keyed Relational Transition Effect
set_option autoImplicit false

section Tables
variable {τ : Type} {l l' l₁ : Ledger τ}

/-! ## Growth -/

/-- The plan has been consumed by the submission. -/
def Ledger.Consumed (l : Ledger τ) (planId submissionId : String) : Prop :=
  ∃ plan ∈ l.plans, plan.planId = planId ∧ plan.consumedSubmissionId = some submissionId

/-- The caller of this identity may get the receipt of the submission. -/
def Identity.Names (id : Identity) (row : Submission τ) : Prop :=
  (∀ planId, id.planId = some planId → row.planId = some planId) ∧
    ∀ requestId, id.requestId = some requestId → row.requestId = some requestId

/-- The receipt tells of the submission `row`. -/
def Receipt.Tells (r : Receipt τ) (l : Ledger τ) (row : Submission τ) : Prop :=
  r.submissionId = row.submissionId ∧ r.requestId = row.requestId ∧
    r.jobIds = (l.membership row.submissionId).map SubmissionJob.jobId

/-- A stored submission backs the receipt. -/
def Ledger.Backs (l : Ledger τ) (id : Identity) (r : Receipt τ) : Prop :=
  ∃ row ∈ l.submissions, id.Names row ∧ r.Tells l row

/-- A stored refusal backs the document. -/
def Ledger.Refuses (l : Ledger τ) (id : Identity) (document : Refusal) : Prop :=
  ∃ row ∈ l.refusals, row.names id.planId id.requestId id.fingerprint = true ∧
    document = .of row.planId row.requestId row.fingerprint

def Ledger.Reserved (l : Ledger τ) (accepted : List (String × Prepared)) : Prop :=
  ∀ e ∈ accepted, ∀ stem ∈ e.2.stems, l.reservations.get stem = some e.2.workId

/-- Nothing that is stored is lost. -/
structure Ledger.Grows (l l' : Ledger τ) : Prop where
  submissions : ∀ row ∈ l.submissions, row ∈ l'.submissions
  members : ∀ row ∈ l.submissions, l'.membership row.submissionId = l.membership row.submissionId
  refusals : ∀ row ∈ l.refusals, row ∈ l'.refusals
  reservations : ∀ stem workId, l.reservations.get stem = some workId →
    l'.reservations.get stem = some workId
  consumed : ∀ planId submissionId, l.Consumed planId submissionId →
    l'.Consumed planId submissionId

theorem Ledger.Grows.refl (l : Ledger τ) : l.Grows l :=
  ⟨fun _ h => h, fun _ _ => rfl, fun _ h => h, fun _ _ h => h, fun _ _ h => h⟩

theorem Ledger.Grows.trans (h : l.Grows l₁) (h' : l₁.Grows l') : l.Grows l' where
  submissions row hrow := h'.submissions row (h.submissions row hrow)
  members row hrow := (h'.members row (h.submissions row hrow)).trans (h.members row hrow)
  refusals row hrow := h'.refusals row (h.refusals row hrow)
  reservations stem workId hget := h'.reservations stem workId (h.reservations stem workId hget)
  consumed planId submissionId hconsumed :=
    h'.consumed planId submissionId (h.consumed planId submissionId hconsumed)

theorem Receipt.Tells.grow {r : Receipt τ} {row : Submission τ} (h : r.Tells l row)
    (hgrows : l.Grows l') (hrow : row ∈ l.submissions) : r.Tells l' row := by
  obtain ⟨hid, hrequest, hjobs⟩ := h
  refine ⟨hid, hrequest, ?_⟩
  rw [hgrows.members row hrow]
  exact hjobs

theorem Ledger.Backs.grow {id : Identity} {r : Receipt τ} (h : l.Backs id r)
    (hgrows : l.Grows l') : l'.Backs id r := by
  obtain ⟨row, hrow, hnames, htells⟩ := h
  exact ⟨row, hgrows.submissions row hrow, hnames, htells.grow hgrows hrow⟩

theorem Ledger.Refuses.grow {id : Identity} {document : Refusal} (h : l.Refuses id document)
    (hgrows : l.Grows l') : l'.Refuses id document := by
  obtain ⟨row, hrow, hnames⟩ := h
  exact ⟨row, hgrows.refusals row hrow, hnames⟩

theorem Ledger.Reserved.grow {accepted : List (String × Prepared)} (h : l.Reserved accepted)
    (hgrows : l.Grows l') : l'.Reserved accepted :=
  fun e he stem hstem => hgrows.reservations stem e.2.workId (h e he stem hstem)

theorem names_iff {row : SubmissionRefusal τ} {planId requestId : Option String}
    {fingerprint : String} : row.names planId requestId fingerprint = true ↔
      some row.planId = planId ∧ row.requestId = requestId ∧ row.fingerprint = fingerprint := by
  unfold SubmissionRefusal.names
  rw [Bool.and_eq_true, Bool.and_eq_true, decide_eq_true_eq, decide_eq_true_eq,
    decide_eq_true_eq, and_assoc]

/-! ## What stands in the tables -/

/-- No request id is both accepted and refused, and a plan is consumed by the submission that
names it. -/
structure Ledger.Consistent (l : Ledger τ) : Prop where
  exclusive : ∀ row ∈ l.submissions, ∀ refused ∈ l.refusals, ∀ requestId,
    row.requestId = some requestId → refused.requestId ≠ some requestId
  consumed : ∀ row ∈ l.submissions, ∀ planId, row.planId = some planId →
    l.Consumed planId row.submissionId
  consumer : ∀ planId submissionId, l.Consumed planId submissionId →
    ∃ row ∈ l.submissions, row.planId = some planId ∧ row.submissionId = submissionId

theorem consistent_empty : (Ledger.empty : Ledger τ).Consistent where
  exclusive row hrow := absurd hrow (Table.not_mem_empty row)
  consumed row hrow := absurd hrow (Table.not_mem_empty row)
  consumer planId submissionId h := by
    obtain ⟨plan, hplan, -⟩ := h
    exact absurd hplan (Table.not_mem_empty plan)

/-- An identity with a plan or a request. -/
def Identity.Named (id : Identity) : Prop := id.planId ≠ none ∨ id.requestId ≠ none

theorem Identity.Names.unique {id : Identity} {row row' : Submission τ} (hnamed : id.Named)
    (hrow : row ∈ l.submissions) (hrow' : row' ∈ l.submissions) (h : id.Names row)
    (h' : id.Names row') : row = row' := by
  rcases hnamed with hplan | hrequest
  · obtain ⟨planId, hplan⟩ := Option.ne_none_iff_exists'.mp hplan
    have hsame : row.planId = row'.planId := (h.1 _ hplan).trans (h'.1 _ hplan).symm
    have hsome : row'.planId ≠ none := by simp [h'.1 _ hplan]
    apply Table.eq_of_clash hrow hrow'
    · exact Or.inr (Or.inr ⟨hsame, by rwa [hsame]⟩)
    · exact Or.inr (Or.inr ⟨hsame.symm, hsome⟩)
  · obtain ⟨requestId, hrequest⟩ := Option.ne_none_iff_exists'.mp hrequest
    have hsame : row.requestId = row'.requestId := (h.2 _ hrequest).trans (h'.2 _ hrequest).symm
    have hsome : row'.requestId ≠ none := by simp [h'.2 _ hrequest]
    apply Table.eq_of_clash hrow hrow'
    · exact Or.inr (Or.inl ⟨hsame, by rwa [hsame]⟩)
    · exact Or.inr (Or.inl ⟨hsame.symm, hsome⟩)

theorem Ledger.Backs.unique {id : Identity} {r r' : Receipt τ} (hnamed : id.Named)
    (h : l.Backs id r) (h' : l.Backs id r') :
    r.submissionId = r'.submissionId ∧ r.jobIds = r'.jobIds := by
  obtain ⟨row, hrow, hnames, hid, -, hjobs⟩ := h
  obtain ⟨row', hrow', hnames', hid', -, hjobs'⟩ := h'
  obtain rfl := hnames.unique hnamed hrow hrow' hnames'
  exact ⟨hid.trans hid'.symm, hjobs.trans hjobs'.symm⟩

theorem Ledger.Refuses.document {id : Identity} {document : Refusal} (h : l.Refuses id document) :
    id.planId = some document.planId ∧
      document = .of document.planId id.requestId id.fingerprint := by
  obtain ⟨row, -, hnames, rfl⟩ := h
  obtain ⟨hplan, hrequest, hfingerprint⟩ := names_iff.mp hnames
  exact ⟨hplan.symm, by rw [← hrequest, ← hfingerprint]; rfl⟩

theorem Ledger.Refuses.unique {id : Identity} {document document' : Refusal}
    (h : l.Refuses id document) (h' : l.Refuses id document') : document = document' := by
  have hplan : document.planId = document'.planId :=
    Option.some.inj (h.document.1.symm.trans h'.document.1)
  rw [h.document.2, h'.document.2, hplan]

/-- Under a request id there is no refusal beside a receipt. -/
theorem Ledger.Refuses.not_backs {id : Identity} {document : Refusal} {r : Receipt τ}
    (hcons : l.Consistent) (hrequest : id.requestId ≠ none) (h : l.Refuses id document) :
    ¬ l.Backs id r := by
  rintro ⟨row, hrow, hnames, -⟩
  obtain ⟨requestId, hsome⟩ := Option.ne_none_iff_exists'.mp hrequest
  obtain ⟨refused, hrefused, hname, -⟩ := h
  apply hcons.exclusive row hrow refused hrefused requestId (hnames.2 _ hsome)
  exact (names_iff.mp hname).2.1.trans hsome

end Tables

/-! ## The statements of a transaction -/

section Statements
variable {τ Spec : Type} {c : Contract Spec} {l l' : Ledger τ}

theorem submissionReceipt_ok {row : Submission τ} {replayed : Bool} {r : Receipt τ}
    (h : submissionReceipt row replayed l = .ok r) : r.Tells l row ∧ r.replayed = replayed := by
  unfold submissionReceipt at h
  dsimp only at h
  split at h
  · cases h
  · split at h
    · cases h
    · cases h
      exact ⟨⟨rfl, rfl, rfl⟩, rfl⟩

theorem document_ok {row : SubmissionRefusal τ} {document : Refusal}
    (h : row.document = .ok document) :
    document = .of row.planId row.requestId row.fingerprint := by
  unfold SubmissionRefusal.document at h
  split at h
  · cases h
  · cases h
    rfl

theorem map_ok {α β : Type} {f : α → β} {o : Except Fault α} {b : β} (h : o.map f = .ok b) :
    ∃ a, o = .ok a ∧ f a = b := by
  cases o with
  | error fault => cases h
  | ok a =>
    cases h
    exact ⟨a, rfl, rfl⟩

theorem findSubmissionRefusal_ok {planId : String} {requestId : Option String}
    {fingerprint : String} {document : Refusal}
    (h : findSubmissionRefusal c planId requestId fingerprint l = .ok (some document)) :
    l.Refuses ⟨some planId, requestId, fingerprint⟩ document := by
  unfold findSubmissionRefusal at h
  split at h
  · cases h
  · rename_i row hrow
    split at h
    · cases h
    · rename_i hnames
      obtain ⟨found, hfound, hsome⟩ := map_ok h
      obtain rfl := Option.some.inj hsome
      exact ⟨row, Table.lookup_mem hrow, by simpa using hnames, document_ok hfound⟩

theorem findSubmissionRefusalByRequest_ok {planId : Option String} {requestId fingerprint : String}
    {found : Option Refusal}
    (h : findSubmissionRefusalByRequest c planId requestId fingerprint l = .ok found) :
    (∀ document, found = some document →
      l.Refuses ⟨planId, some requestId, fingerprint⟩ document) ∧
    (found = none → ∀ row ∈ l.refusals, row.requestId ≠ some requestId) := by
  unfold findSubmissionRefusalByRequest at h
  split at h
  · rename_i hnone
    cases h
    refine ⟨fun _ hsome => absurd hsome.symm (Option.some_ne_none _), fun _ row hrow hrequest => ?_⟩
    exact Table.lookup_eq_none.mp hnone row hrow (decide_eq_true hrequest)
  · rename_i row hrow
    split at h
    · cases h
    · rename_i hnames
      split at h
      · cases h
      · obtain ⟨document, hdocument, rfl⟩ := map_ok h
        refine ⟨fun _ hsome => ?_, fun hnone => absurd hnone (Option.some_ne_none _)⟩
        obtain rfl := Option.some.inj hsome
        exact ⟨row, Table.lookup_mem hrow, by simpa using hnames, document_ok hdocument⟩

/-- A recorded refusal is stored, and it is the only new row. -/
theorem recordSubmissionRefusal_ok {planId : String} {requestId : Option String}
    {fingerprint : String} {now : τ} {document : Refusal}
    (h : recordSubmissionRefusal c planId requestId fingerprint now l = .ok (document, l')) :
    l'.Refuses ⟨some planId, requestId, fingerprint⟩ document ∧
      l' = { l with refusals := l'.refusals } ∧ (∀ row ∈ l.refusals, row ∈ l'.refusals) ∧
      ∀ row ∈ l'.refusals, row ∈ l.refusals ∨ row.requestId = requestId := by
  unfold recordSubmissionRefusal at h
  dsimp only at h
  split at h
  · rename_i row hrow
    split at h
    · cases h
    · rename_i hnames
      obtain ⟨found, hfound, hpair⟩ := map_ok h
      cases hpair
      exact ⟨⟨row, Table.lookup_mem hrow, by simpa using hnames, document_ok hfound⟩, rfl,
        fun _ h => h, fun _ h => Or.inl h⟩
  · split at h
    · rename_i row hrow
      split at h
      · rename_i hnames
        obtain ⟨found, hfound, hpair⟩ := map_ok h
        cases hpair
        obtain ⟨key, -, hlookup⟩ := Option.bind_eq_some_iff.mp hrow
        exact ⟨⟨row, Table.lookup_mem hlookup, hnames, document_ok hfound⟩, rfl,
          fun _ h => h, fun _ h => Or.inl h⟩
      · cases h
    · obtain ⟨refusals, hinsert, h⟩ := bind_eq_ok.mp h
      obtain ⟨found, hfound, h⟩ := bind_eq_ok.mp h
      cases h
      have hmem := fun row => Table.mem_insert (checked_eq_ok.mp hinsert) (a := row)
      refine ⟨⟨_, (hmem _).mpr (Or.inr rfl), names_iff.mpr ⟨rfl, rfl, rfl⟩, document_ok hfound⟩,
        rfl, fun row hrow => (hmem row).mpr (Or.inl hrow), fun row hrow => ?_⟩
      rcases (hmem row).mp hrow with hold | rfl
      · exact Or.inl hold
      · exact Or.inr rfl

/-! ## Accepting -/

theorem reserveStem_ok {workId stem : String} {reservations reservations' :
    Dict (id : String → String) String}
    (h : reserveStem workId stem reservations = .ok reservations') :
    reservations'.get stem = some workId ∧ ∀ other owner, reservations.get other = some owner →
      reservations'.get other = some owner := by
  unfold reserveStem at h
  split at h
  · rename_i owner howner
    split at h
    · cases h
    · rename_i hsame
      cases h
      obtain rfl := not_not.mp hsame
      exact ⟨howner, fun _ _ h => h⟩
  · rename_i hnone
    cases h
    refine ⟨Dict.get_set_self _ _ _, fun other owner hother => ?_⟩
    have hne : other ≠ stem := by
      rintro rfl
      rw [hnone] at hother
      cases hother
    rw [Dict.get_set_other _ _ hne]
    exact hother

theorem reserveStems_ok {workId : String} {stems : List String} {reservations reservations' :
    Dict (id : String → String) String}
    (h : reserveStems workId stems reservations = .ok reservations') :
    (∀ stem ∈ stems, reservations'.get stem = some workId) ∧
      ∀ other owner, reservations.get other = some owner →
        reservations'.get other = some owner := by
  induction stems generalizing reservations with
  | nil =>
    cases h
    exact ⟨fun _ h => absurd h List.not_mem_nil, fun _ _ h => h⟩
  | cons stem rest ih =>
    obtain ⟨next, hstem, hrest⟩ := bind_eq_ok.mp h
    obtain ⟨hown, hkeep⟩ := reserveStem_ok hstem
    obtain ⟨hall, hkeep'⟩ := ih hrest
    constructor
    · intro other hother
      rcases List.mem_cons.mp hother with rfl | hother
      · exact hkeep' _ _ hown
      · exact hall other hother
    · exact fun other owner h => hkeep' _ _ (hkeep other owner h)

/-- The items write the specs, the jobs and the reservations only. -/
theorem enqueueItems_ok {specId : String} {now : τ} {items : List Item}
    {jobs : List (String × Prepared)}
    (h : enqueueItems specId now items l = .ok (jobs, l')) :
    l' = { l with queue := l'.queue, reservations := l'.reservations } ∧ l'.Reserved jobs ∧
      ∀ stem workId, l.reservations.get stem = some workId →
        l'.reservations.get stem = some workId := by
  induction items generalizing l jobs with
  | nil =>
    cases h
    exact ⟨rfl, fun _ h => absurd h List.not_mem_nil, fun _ _ h => h⟩
  | cons item rest ih =>
    obtain ⟨⟨jobId, l₁⟩, hitem, h⟩ := bind_eq_ok.mp h
    obtain ⟨⟨later, l₂⟩, hrest, h⟩ := bind_eq_ok.mp h
    cases h
    obtain ⟨reservations, hstems, hitem⟩ := bind_eq_ok.mp hitem
    obtain ⟨⟨_, queue⟩, -, hitem⟩ := bind_eq_ok.mp hitem
    cases hitem
    obtain ⟨hown, hkeep⟩ := reserveStems_ok hstems
    obtain ⟨heq, hreserved, hkeep'⟩ := ih hrest
    refine ⟨heq, fun e he stem hstem => ?_, fun stem workId h => hkeep' _ _ (hkeep _ _ h)⟩
    rcases List.mem_cons.mp he with rfl | he
    · exact hkeep' _ _ (hown stem hstem)
    · exact hreserved e he stem hstem

theorem insertMembers_ok {submissionId : String} {index : Nat} {jobs : List (String × Prepared)}
    {members members' : Table SubmissionJob SubmissionJob.Clash}
    (h : insertMembers submissionId index jobs members = .ok members') {other : String}
    (hne : other ≠ submissionId) :
    (members'.select fun m => m.submissionId = other) =
      members.select fun m => m.submissionId = other := by
  induction jobs generalizing index members with
  | nil =>
    cases h
    rfl
  | cons job rest ih =>
    obtain ⟨next, hinsert, hrest⟩ := bind_eq_ok.mp h
    rw [ih hrest, Table.select, Table.select, Table.insert_rows (checked_eq_ok.mp hinsert),
      List.filter_append]
    simp [hne.symm]

theorem unconsumed_iff {planId : String} {plan : SubmissionPlan τ} :
    SubmissionPlan.unconsumed planId plan = true ↔
      plan.planId = planId ∧ plan.consumedSubmissionId = none := by
  simp [SubmissionPlan.unconsumed]

theorem consumePlan_ok {submissionId planId : String}
    (h : consumePlan submissionId planId l = .ok l') :
    l' = { l with plans := l'.plans } ∧
      ∀ p s, l'.Consumed p s ↔ l.Consumed p s ∨ (planId = p ∧ s = submissionId) := by
  unfold consumePlan at h
  split at h
  · cases h
  · rename_i hlength
    cases h
    obtain ⟨free, hfree⟩ := List.length_eq_one_iff.mp (not_not.mp hlength)
    have hmem : free ∈ l.plans ∧ SubmissionPlan.unconsumed planId free = true := by
      rw [← Table.mem_select, hfree]
      exact List.mem_singleton_self free
    refine ⟨rfl, fun p s => ⟨?_, ?_⟩⟩
    · rintro ⟨plan', hplan', hid, hconsumed⟩
      dsimp only at hplan'
      rw [Table.mem_update] at hplan'
      obtain ⟨plan, hplan, rfl⟩ := hplan'
      by_cases hopen : SubmissionPlan.unconsumed planId plan = true
      · rw [Table.setWhere_pos hopen] at hid hconsumed
        exact Or.inr ⟨(unconsumed_iff.mp hopen).1.symm.trans hid, (Option.some.inj hconsumed).symm⟩
      · rw [Table.setWhere_neg hopen] at hid hconsumed
        exact Or.inl ⟨plan, hplan, hid, hconsumed⟩
    · rintro (⟨plan, hplan, hid, hconsumed⟩ | ⟨rfl, rfl⟩)
      · refine ⟨_, Table.update_mem (keeps_consume submissionId) hplan, ?_⟩
        rw [Table.setWhere_neg]
        · exact ⟨hid, hconsumed⟩
        · intro hopen
          rw [(unconsumed_iff.mp hopen).2] at hconsumed
          cases hconsumed
      · refine ⟨_, Table.update_mem (keeps_consume s) hmem.1, ?_⟩
        rw [Table.setWhere_pos hmem.2]
        exact ⟨(unconsumed_iff.mp hmem.2).1, rfl⟩

theorem consume_ok {a : Admission τ} (h : a.consume l = .ok l') :
    l' = { l with plans := l'.plans } ∧
      ∀ p s, l'.Consumed p s ↔ l.Consumed p s ∨ (a.planId = some p ∧ s = a.submissionId) := by
  unfold Admission.consume at h
  split at h
  · rename_i hnone
    cases h
    exact ⟨rfl, fun p s => by simp [hnone]⟩
  · rename_i planId hsome
    obtain ⟨hl', hconsumed⟩ := consumePlan_ok h
    exact ⟨hl', fun p s => by rw [hconsumed, hsome, Option.some.injEq]⟩

/-- What a new submission adds. -/
structure Accepts (a : Admission τ) (l l' : Ledger τ) : Prop where
  rows : ∀ row, row ∈ l'.submissions ↔ row ∈ l.submissions ∨ row = a.row
  fresh : ∀ row ∈ l.submissions, row.submissionId ≠ a.submissionId
  members : ∀ other, other ≠ a.submissionId → l'.membership other = l.membership other
  refusals : l'.refusals = l.refusals
  reservations : ∀ stem workId, l.reservations.get stem = some workId →
    l'.reservations.get stem = some workId
  consumed : ∀ p s, l'.Consumed p s ↔
    l.Consumed p s ∨ (a.planId = some p ∧ s = a.submissionId)

theorem acceptSubmission_ok {a : Admission τ} {r : Receipt τ} {accepted : List (String × Prepared)}
    (h : acceptSubmission a l = .ok (r, accepted, l')) :
    Accepts a l l' ∧ r.Tells l' a.row ∧ l'.Reserved accepted := by
  obtain ⟨queue, -, h⟩ := bind_eq_ok.mp h
  obtain ⟨⟨jobs, l₁⟩, hitems, h⟩ := bind_eq_ok.mp h
  obtain ⟨submissions, hinsert, h⟩ := bind_eq_ok.mp h
  obtain ⟨submissionJobs, hmembers, h⟩ := bind_eq_ok.mp h
  obtain ⟨l₂, hplan, h⟩ := bind_eq_ok.mp h
  obtain ⟨receipt, hreceipt, h⟩ := bind_eq_ok.mp h
  cases h
  obtain ⟨hl₁, hreserved, hkept⟩ := enqueueItems_ok hitems
  obtain ⟨hl', hplan⟩ := consume_ok hplan
  have hconsumed : ∀ p s, l'.Consumed p s ↔
      l.Consumed p s ∨ (a.planId = some p ∧ s = a.submissionId) := by
    intro p s
    rw [hplan, hl₁]
    exact Iff.rfl
  have hsubmissions : l₁.submissions = l.submissions := by rw [hl₁]
  rw [hsubmissions] at hinsert
  have hjobs : l₁.submissionJobs = l.submissionJobs := by rw [hl₁]
  rw [hjobs] at hmembers
  refine ⟨⟨fun row => ?_, fun row hrow hsame => ?_, fun other hne => ?_, ?_, fun stem workId hget => ?_,
    hconsumed⟩, (submissionReceipt_ok hreceipt).1, ?_⟩
  · rw [hl']
    exact Table.mem_insert (checked_eq_ok.mp hinsert)
  · exact Table.insert_no_clash (checked_eq_ok.mp hinsert) hrow (Or.inl hsame)
  · rw [hl']
    unfold Ledger.membership
    rw [insertMembers_ok hmembers hne]
  · rw [hl', hl₁]
  · rw [hl']
    exact hkept stem workId hget
  · rw [hl']
    exact hreserved

theorem Accepts.grows {a : Admission τ} (h : Accepts a l l') : l.Grows l' where
  submissions row hrow := (h.rows row).mpr (Or.inl hrow)
  members row hrow := h.members _ (h.fresh row hrow)
  refusals row hrow := by
    rw [h.refusals]
    exact hrow
  reservations := h.reservations
  consumed p s hconsumed := (h.consumed p s).mpr (Or.inl hconsumed)

theorem Accepts.consistent {a : Admission τ} (h : Accepts a l l') (hcons : l.Consistent)
    (hfree : ∀ requestId, a.requestId = some requestId →
      ∀ refused ∈ l.refusals, refused.requestId ≠ some requestId) : l'.Consistent where
  exclusive row hrow refused hrefused requestId hrequest := by
    rw [h.refusals] at hrefused
    rcases (h.rows row).mp hrow with hold | rfl
    · exact hcons.exclusive row hold refused hrefused requestId hrequest
    · exact hfree requestId hrequest refused hrefused
  consumed row hrow planId hplan := by
    rw [h.consumed]
    rcases (h.rows row).mp hrow with hold | rfl
    · exact Or.inl (hcons.consumed row hold planId hplan)
    · exact Or.inr ⟨hplan, rfl⟩
  consumer planId submissionId hconsumed := by
    rcases (h.consumed planId submissionId).mp hconsumed with hold | ⟨hplan, rfl⟩
    · obtain ⟨row, hrow, hcolumns⟩ := hcons.consumer planId submissionId hold
      exact ⟨row, (h.rows row).mpr (Or.inl hrow), hcolumns⟩
    · exact ⟨a.row, (h.rows _).mpr (Or.inr rfl), hplan, rfl⟩

/-! ## The transaction of `enqueue_submission` -/

theorem existing_mem {a : Admission τ} {row : Submission τ} (h : a.existing l = some row) :
    row ∈ l.submissions := by
  unfold Admission.existing at h
  rcases Option.or_eq_some_iff.mp h with hplan | ⟨-, hrequest⟩
  · obtain ⟨planId, -, hlookup⟩ := Option.bind_eq_some_iff.mp hplan
    exact Table.lookup_mem hlookup
  · obtain ⟨requestId, -, hlookup⟩ := Option.bind_eq_some_iff.mp hrequest
    exact Table.lookup_mem hlookup

theorem existing_none {a : Admission τ} (h : a.existing l = none) :
    (∀ planId, a.planId = some planId → ∀ row ∈ l.submissions, row.planId ≠ some planId) ∧
      ∀ requestId, a.requestId = some requestId →
        ∀ row ∈ l.submissions, row.requestId ≠ some requestId := by
  obtain ⟨hplan, hrequest⟩ := Option.or_eq_none_iff.mp h
  constructor
  · intro planId hsome row hrow hname
    rw [hsome, Option.bind_some, Table.lookup_eq_none] at hplan
    exact hplan row hrow (decide_eq_true hname)
  · intro requestId hsome row hrow hname
    rw [hsome, Option.bind_some, Table.lookup_eq_none] at hrequest
    exact hrequest row hrow (decide_eq_true hname)

theorem existing_not_backs {a : Admission τ} (h : a.existing l = none)
    (hnamed : a.identity.Named) (r : Receipt τ) : ¬ l.Backs a.identity r := by
  rintro ⟨row, hrow, hnames, -⟩
  obtain ⟨hplan, hrequest⟩ := existing_none h
  rcases hnamed with hsome | hsome
  · obtain ⟨planId, hid⟩ := Option.ne_none_iff_exists'.mp hsome
    exact hplan planId hid row hrow (hnames.1 planId hid)
  · obtain ⟨requestId, hid⟩ := Option.ne_none_iff_exists'.mp hsome
    exact hrequest requestId hid row hrow (hnames.2 requestId hid)

theorem replaySubmission_ok {a : Admission τ} {refusal : Option Refusal} {row : Submission τ}
    {r : Receipt τ} (h : replaySubmission a refusal row l = .ok r) :
    a.identity.Names row ∧ r.Tells l row := by
  unfold replaySubmission at h
  split at h
  · cases h
  · split at h
    · cases h
    · rename_i hplan
      split at h
      · cases h
      · rename_i hrequest
        split at h
        · cases h
        · refine ⟨⟨fun planId hid => ?_, fun requestId hid => ?_⟩, (submissionReceipt_ok h).1⟩
          · have hid' : a.planId = some planId := hid
            simpa [hid'] using hplan
          · have hid' : a.requestId = some requestId := hid
            simpa [hid'] using hrequest

/-- How the transaction of `enqueue_submission` ends if it does not raise. -/
inductive Decided (a : Admission τ) (l : Ledger τ) :
    Verdict τ → Ledger τ → Prop where
  | replayed {r : Receipt τ} (hbacks : l.Backs a.identity r) : Decided a l (.receipt r []) l
  | refused {document : Refusal} {l' : Ledger τ} (hnone : a.existing l = none)
      (hrefuses : l'.Refuses a.identity document)
      (heq : l' = { l with refusals := l'.refusals })
      (hkept : ∀ row ∈ l.refusals, row ∈ l'.refusals)
      (hnew : ∀ row ∈ l'.refusals, row ∈ l.refusals ∨ row.requestId = a.requestId) :
      Decided a l (.refused document) l'
  | accepted {r : Receipt τ} {accepted : List (String × Prepared)} {l' : Ledger τ}
      (hfree : ∀ requestId, a.requestId = some requestId →
        ∀ refused ∈ l.refusals, refused.requestId ≠ some requestId)
      (haccepts : Accepts a l l') (htells : r.Tells l' a.row) (hreserved : l'.Reserved accepted) :
      Decided a l (.receipt r accepted) l'

/-- A refusal under the definition fence is a recorded one. -/
theorem consultDefinition_ok {a : Admission τ} {live : Live} {refusal : Option Refusal}
    (h : consultDefinition c a live l = .ok (refusal, l')) :
    (refusal = none ∧ l' = l) ∨ ∃ planId document, a.planId = some planId ∧
      refusal = some document ∧
      recordSubmissionRefusal c planId a.requestId a.fingerprint a.now l = .ok (document, l') := by
  unfold consultDefinition at h
  split at h
  · cases h
    exact Or.inl ⟨rfl, rfl⟩
  · obtain ⟨liveId, -, h⟩ := bind_eq_ok.mp h
    split at h
    · cases h
      exact Or.inl ⟨rfl, rfl⟩
    · dsimp only at h
      split at h
      · cases h
      · rename_i planId hplan
        obtain ⟨⟨document, l₁⟩, hrecord, h⟩ := bind_eq_ok.mp h
        cases h
        exact Or.inr ⟨planId, document, hplan, rfl, hrecord⟩

theorem refusalByRequest_ok {a : Admission τ} {refusal : Option Refusal}
    (h : refusalByRequest c a l = .ok refusal) :
    (∀ document, refusal = some document → l.Refuses a.identity document) ∧
      (refusal = none → ∀ requestId, a.requestId = some requestId →
        ∀ refused ∈ l.refusals, refused.requestId ≠ some requestId) := by
  unfold refusalByRequest at h
  split at h
  · rename_i hnone
    cases h
    refine ⟨fun _ hsome => absurd hsome.symm (Option.some_ne_none _), fun _ requestId hsome => ?_⟩
    rw [hnone] at hsome
    cases hsome
  · rename_i requestId hrequest
    obtain ⟨hstored, hnone⟩ := findSubmissionRefusalByRequest_ok h
    constructor
    · intro document hsome
      have hrefuses := hstored document hsome
      rw [← hrequest] at hrefuses
      exact hrefuses
    · intro hno other hother
      obtain rfl := Option.some.inj (hrequest.symm.trans hother)
      exact hnone hno

theorem storedRefusal_ok {a : Admission τ} {refusal stored : Option Refusal}
    (hrefusal : ∀ document, refusal = some document → l.Refuses a.identity document)
    (h : storedRefusal c a refusal l = .ok stored) :
    (∀ document, stored = some document → l.Refuses a.identity document) ∧
      (stored = none → refusal = none) := by
  unfold storedRefusal at h
  split at h
  · rename_i planId hplan
    refine ⟨fun document hsome => ?_, fun _ => rfl⟩
    rw [hsome] at h
    have hfound := findSubmissionRefusal_ok h
    rw [← hplan] at hfound
    exact hfound
  · cases h
    exact ⟨hrefusal, id⟩

theorem enqueueSubmission_decided {a : Admission τ} {live : Live} {verdict : Verdict τ}
    (h : enqueueSubmission c a live l = .ok (verdict, l')) : Decided a l verdict l' := by
  obtain ⟨refusal, hrefusal, hlooked⟩ := bind_eq_ok.mp h
  obtain ⟨hstored, hfree⟩ := refusalByRequest_ok hrefusal
  split at hlooked
  · rename_i row hrow
    obtain ⟨r, hr, hreply⟩ := bind_eq_ok.mp hlooked
    cases hreply
    obtain ⟨hnames, htells⟩ := replaySubmission_ok hr
    exact .replayed ⟨row, existing_mem hrow, hnames, htells⟩
  · rename_i hnone
    obtain ⟨stored, hfind, hnew⟩ := bind_eq_ok.mp hlooked
    obtain ⟨hfound, hnoRequest⟩ := storedRefusal_ok hstored hfind
    split at hnew
    · rename_i document
      cases hnew
      exact .refused hnone (hfound document rfl) rfl (fun _ h => h) fun _ h => Or.inl h
    · obtain ⟨⟨recorded, l₁⟩, hconsult, hreply⟩ := bind_eq_ok.mp hnew
      rcases consultDefinition_ok hconsult with ⟨rfl, rfl⟩ |
        ⟨planId, document, hplan, rfl, hrecord⟩
      · obtain ⟨⟨r, accepted, l₂⟩, haccept, hreply⟩ := bind_eq_ok.mp hreply
        cases hreply
        obtain ⟨haccepts, htells, hreserved⟩ := acceptSubmission_ok haccept
        exact .accepted (hfree (hnoRequest rfl)) haccepts htells hreserved
      · cases hreply
        obtain ⟨hrefuses, heq, hkept, hnew⟩ := recordSubmissionRefusal_ok hrecord
        rw [← hplan] at hrefuses
        exact .refused hnone hrefuses heq hkept hnew

/-- What the end of a call leaves. -/
structure Settles (l : Ledger τ) (reply : Reply τ) (accepted : List (String × Prepared))
    (l' : Ledger τ) : Prop where
  grows : l.Grows l'
  consistent : l'.Consistent
  receipt : ∀ id r, reply = .receipt id r → l'.Backs id r
  refusal : ∀ id document, reply = .refusal id document →
    l'.Refuses id document ∧ ∀ r, id.Named → ¬ l.Backs id r
  reserved : l'.Reserved accepted
  kept : reply.fails = true → l' = { l with refusals := l'.refusals }

theorem settles_same {reply : Reply τ} (hcons : l.Consistent)
    (hreceipt : ∀ id r, reply = .receipt id r → l.Backs id r)
    (hrefusal : ∀ id document, reply ≠ .refusal id document) : Settles l reply [] l where
  grows := .refl l
  consistent := hcons
  receipt := hreceipt
  refusal id document h := absurd h (hrefusal id document)
  reserved _ he := absurd he List.not_mem_nil
  kept _ := rfl

/-- A new refusal of a request that no submission has. -/
theorem Decided.settles {a : Admission τ} {verdict : Verdict τ} (h : Decided a l verdict l')
    (hcons : l.Consistent) : match verdict with
      | .receipt r jobs => Settles l (.receipt a.identity r) jobs l'
      | .refused document => Settles l (.refusal a.identity document) [] l' := by
  cases h with
  | replayed hbacks =>
    apply settles_same hcons
    · rintro id r ⟨⟩
      exact hbacks
    · rintro id document ⟨⟩
  | @refused document _ hnone hrefuses heq hkept hnew =>
    have hsame : l'.submissions = l.submissions := by rw [heq]
    refine ⟨⟨fun row hrow => by rwa [hsame], fun row _ => by rw [heq]; rfl, hkept, ?_, ?_⟩,
      ⟨?_, ?_, ?_⟩, ?_, ?_, fun _ he => absurd he List.not_mem_nil, fun _ => heq⟩
    · intro stem workId hget
      rw [heq]
      exact hget
    · intro planId submissionId hconsumed
      rw [heq]
      exact hconsumed
    · intro row hrow refused hrefused requestId hrequest hsome
      rw [hsame] at hrow
      rcases hnew refused hrefused with hold | hown
      · exact hcons.exclusive row hrow refused hold requestId hrequest hsome
      · exact (existing_none hnone).2 requestId (hown.symm.trans hsome) row hrow hrequest
    · intro row hrow planId hplan
      rw [hsame] at hrow
      rw [heq]
      exact hcons.consumed row hrow planId hplan
    · intro planId submissionId hconsumed
      rw [hsame]
      rw [heq] at hconsumed
      exact hcons.consumer planId submissionId hconsumed
    · rintro id r ⟨⟩
    · rintro id r ⟨⟩
      exact ⟨hrefuses, fun r hnamed => existing_not_backs hnone hnamed r⟩
  | accepted hfree haccepts htells hreserved =>
    refine ⟨haccepts.grows, haccepts.consistent hcons hfree, ?_, ?_, hreserved, fun h => by cases h⟩
    · rintro id r ⟨⟩
      exact ⟨a.row, (haccepts.rows _).mpr (Or.inr rfl), ⟨fun _ h => h, fun _ h => h⟩, htells⟩
    · rintro id document ⟨⟩

/-! ## Calls -/

/-- What a call has read still stands. -/
def Stage.Sound (l : Ledger τ) : Stage τ → Prop
  | .saving _ row _ => row.consumedSubmissionId = none
  | .readingReceipt call row => row ∈ l.submissions ∧ row.planId = some call.planId
  | .readingPlan call (some r) =>
    ∃ row ∈ l.submissions, row.planId = some call.planId ∧ r.Tells l row
  | _ => True

theorem Stage.Sound.grow {stage : Stage τ} (h : stage.Sound l) (hgrows : l.Grows l') :
    stage.Sound l' := by
  unfold Stage.Sound at h ⊢
  split at h
  · exact h
  · exact ⟨hgrows.submissions _ h.1, h.2⟩
  · obtain ⟨row, hrow, hplan, htells⟩ := h
    exact ⟨row, hgrows.submissions row hrow, hplan, htells.grow hgrows hrow⟩
  · trivial

/-- An access leaves a call with what still stands, or settles it. -/
def Outcome.Sound (l : Ledger τ) : Outcome τ → Prop
  | .next stage => stage.Sound l
  | .ended reply accepted l' => Settles l reply accepted l'

theorem preparePlan_ok {planId : String} {plan : Plan Spec} {now : τ} {row : SubmissionPlan τ}
    (h : preparePlan c planId plan now = .ok row) : row.consumedSubmissionId = none := by
  obtain ⟨_, -, h⟩ := bind_eq_ok.mp h
  obtain ⟨_, -, h⟩ := bind_eq_ok.mp h
  obtain ⟨_, -, h⟩ := bind_eq_ok.mp h
  cases h
  rfl

theorem start_sound {call : Call Spec τ} {stage : Stage τ} (h : call.start c = .ok stage)
    (l : Ledger τ) : stage.Sound l := by
  cases call with
  | enqueueSubmission call =>
    obtain ⟨a, -, rfl⟩ := map_ok h
    trivial
  | enqueueSavedPlan call =>
    cases h
    trivial
  | saveSubmissionPlan planId plan callable now =>
    obtain ⟨row, hrow, rfl⟩ := map_ok h
    exact preparePlan_ok hrow

theorem saveSubmissionPlan_settles {specId : Option String} {row : SubmissionPlan τ}
    {live : Option Live} (hcons : l.Consistent) (hrow : row.consumedSubmissionId = none)
    (h : saveSubmissionPlan specId row live l = .ok l') :
    Settles l (.saved row.planId) [] l' := by
  have hsaved : ∃ plans, l.plans.insert row = some plans ∧ l' = { l with plans } := by
    unfold saveSubmissionPlan at h
    dsimp only at h
    split at h
    · cases h
    · obtain ⟨liveId, -, h⟩ := bind_eq_ok.mp h
      split at h
      · obtain ⟨plans, hinsert, h⟩ := bind_eq_ok.mp h
        cases h
        exact ⟨plans, checked_eq_ok.mp hinsert, rfl⟩
      · cases h
  obtain ⟨plans, hinsert, rfl⟩ := hsaved
  have hconsumed : ∀ planId submissionId, Ledger.Consumed { l with plans } planId submissionId ↔
      l.Consumed planId submissionId := by
    intro planId submissionId
    constructor
    · rintro ⟨plan, hplan, hid, hsome⟩
      rcases (Table.mem_insert hinsert).mp hplan with hold | rfl
      · exact ⟨plan, hold, hid, hsome⟩
      · rw [hrow] at hsome
        cases hsome
    · rintro ⟨plan, hplan, hid, hsome⟩
      exact ⟨plan, (Table.mem_insert hinsert).mpr (Or.inl hplan), hid, hsome⟩
  refine ⟨⟨fun _ h => h, fun _ _ => rfl, fun _ h => h, fun _ _ h => h,
    fun planId submissionId => (hconsumed planId submissionId).mpr⟩,
    ⟨hcons.exclusive, fun row hrow planId hplan => ?_, fun planId submissionId hthere => ?_⟩,
    ?_, ?_, fun _ he => absurd he List.not_mem_nil, ?_⟩
  · exact (hconsumed _ _).mpr (hcons.consumed row hrow planId hplan)
  · exact hcons.consumer planId submissionId ((hconsumed _ _).mp hthere)
  · rintro id r ⟨⟩
  · rintro id document ⟨⟩
  · rintro ⟨⟩

/-- `enqueue_saved_plan` hands on the receipt that it has read, or submits the plan. -/
theorem enqueueSavedPlan_sound {call : SavedPlanCall τ} {existing : Option (Receipt τ)}
    {saved : Option (SavedPlan Spec τ)} {outcome : Outcome τ} (hcons : l.Consistent)
    (hread : (Stage.readingPlan call existing).Sound l)
    (h : enqueueSavedPlan c call existing saved l = .ok outcome) :
    outcome.Sound l := by
  cases saved with
  | none => cases h
  | some saved =>
    cases existing with
    | none =>
      obtain ⟨a, -, rfl⟩ := map_ok h
      trivial
    | some r =>
      obtain ⟨row, hrow, hplan, htells⟩ := hread
      unfold enqueueSavedPlan at h
      dsimp only at h
      split at h
      · cases h
      · split at h
        · cases h
        · rename_i hrequest
          cases h
          apply settles_same hcons
          · rintro id r ⟨⟩
            refine ⟨row, hrow, ⟨fun planId hid => ?_, fun requestId hid => ?_⟩, htells⟩
            · exact hplan.trans hid
            · have hid' : call.requestId = some requestId := hid
              have hsame : some requestId = r.requestId := by simpa [hid'] using hrequest
              exact htells.2.1.symm.trans hsame.symm
          · rintro id document ⟨⟩

theorem access_sound {stage : Stage τ} {live : Live} {outcome : Outcome τ}
    (hcons : l.Consistent) (hstage : stage.Sound l) (h : stage.access c live l = .ok outcome) :
    outcome.Sound l := by
  cases stage with
  | submitting a =>
    obtain ⟨⟨verdict, l₁⟩, hdecided, hreply⟩ := bind_eq_ok.mp h
    have hsettles := (enqueueSubmission_decided hdecided).settles hcons
    cases verdict with
    | receipt r accepted =>
      cases hreply
      exact hsettles
    | refused document =>
      cases hreply
      exact hsettles
  | saving specId row callable =>
    obtain ⟨l₁, hsaved, hreply⟩ := bind_eq_ok.mp h
    cases hreply
    exact saveSubmissionPlan_settles hcons hstage hsaved
  | findingSubmission call =>
    unfold Stage.access at h
    dsimp only at h
    split at h
    · cases h
      trivial
    · rename_i row hrow
      cases h
      have hplan := Table.lookup_sat (p := fun s : Submission τ => decide (s.planId = some call.planId)) hrow
      exact ⟨Table.lookup_mem hrow, of_decide_eq_true hplan⟩
  | readingReceipt call row =>
    obtain ⟨r, hr, hnext⟩ := bind_eq_ok.mp h
    cases hnext
    exact ⟨row, hstage.1, hstage.2, (submissionReceipt_ok hr).1⟩
  | readingPlan call existing =>
    obtain ⟨saved, -, hsaved⟩ := bind_eq_ok.mp h
    exact enqueueSavedPlan_sound hcons hstage hsaved

end Statements

/-! ## Runs of several controllers -/

section Runs
variable {ι τ Spec : Type} {c : Contract Spec} {s : System ι τ}

/-- A receipt of an identity with a plan or a request is not followed by its refusal. -/
def Reply.Final (earlier later : Reply τ) : Prop :=
  ∀ id r, id.Named → earlier = .receipt id r → ∀ document, later ≠ .refusal id document

/-- The replies so far and the calls under way read back what is stored. -/
structure System.Sound (s : System ι τ) : Prop where
  consistent : s.ledger.Consistent
  stages : ∀ p stage, s.pending p = some stage → stage.Sound s.ledger
  receipts : ∀ id r, Reply.receipt id r ∈ s.log → s.ledger.Backs id r
  refusals : ∀ id document, Reply.refusal id document ∈ s.log → s.ledger.Refuses id document
  final : s.log.Pairwise Reply.Final
  reserved : s.ledger.Reserved s.accepted

theorem sound_initial : (System.initial : System ι τ).Sound where
  consistent := consistent_empty
  stages p stage h := by cases h
  receipts id r h := absurd h List.not_mem_nil
  refusals id document h := absurd h List.not_mem_nil
  final := List.Pairwise.nil
  reserved e he := absurd he List.not_mem_nil

variable [DecidableEq ι]

theorem setPending_pending (s : System ι τ) (p q : ι) (stage : Option (Stage τ)) :
    (s.setPending p stage).pending q = if q = p then stage else s.pending q :=
  Function.update_apply s.pending p stage q

theorem System.Sound.setPending (h : s.Sound) {p : ι} {stage : Option (Stage τ)}
    (hstage : ∀ next, stage = some next → next.Sound s.ledger) : (s.setPending p stage).Sound where
  consistent := h.consistent
  stages q next hnext := by
    rw [setPending_pending] at hnext
    split at hnext
    · exact hstage next hnext
    · exact h.stages q next hnext
  receipts := h.receipts
  refusals := h.refusals
  final := h.final
  reserved := h.reserved

/-- The end of a call. -/
theorem System.Sound.settle (h : s.Sound) (p : ι) {reply : Reply τ}
    {accepted : List (String × Prepared)} {l' : Ledger τ}
    (hsettles : Settles s.ledger reply accepted l') :
    System.Sound { s.reply p reply with ledger := l', accepted := s.accepted ++ accepted } where
  consistent := hsettles.consistent
  stages q next hnext := by
    have hpending : (s.setPending p none).pending q = some next := hnext
    rw [setPending_pending] at hpending
    split at hpending
    · cases hpending
    · exact (h.stages q next hpending).grow hsettles.grows
  receipts id r hmem := by
    rcases List.mem_append.mp hmem with hold | hnew
    · exact (h.receipts id r hold).grow hsettles.grows
    · exact hsettles.receipt id r (List.mem_singleton.mp hnew).symm
  refusals id document hmem := by
    rcases List.mem_append.mp hmem with hold | hnew
    · exact (h.refusals id document hold).grow hsettles.grows
    · exact (hsettles.refusal id document (List.mem_singleton.mp hnew).symm).1
  final := by
    refine List.pairwise_append.mpr ⟨h.final, List.pairwise_singleton _ _, ?_⟩
    rintro earlier hearlier later hlater id r hnamed rfl document rfl
    have hreply := (List.mem_singleton.mp hlater).symm
    exact (hsettles.refusal id document hreply).2 r hnamed (h.receipts id r hearlier)
  reserved e he := by
    rcases List.mem_append.mp he with hold | hnew
    · exact (h.reserved.grow hsettles.grows) e hold
    · exact hsettles.reserved e hnew

theorem System.Sound.raise (h : s.Sound) (p : ι) (fault : Fault) :
    (s.reply p (.raised fault)).Sound := by
  have hsettles : Settles s.ledger (.raised fault) [] s.ledger := by
    apply settles_same h.consistent
    · rintro id r ⟨⟩
    · rintro id document ⟨⟩
  have hsound := h.settle p hsettles
  rw [List.append_nil] at hsound
  exact hsound

theorem step_sound (h : s.Sound) (action : Action ι Spec τ) :
    (step c s action).Sound ∧ s.ledger.Grows (step c s action).ledger := by
  cases action with
  | start p call =>
    unfold step
    dsimp only
    split
    · rename_i stage _ hstart
      refine ⟨h.setPending fun next hnext => ?_, .refl _⟩
      obtain rfl := Option.some.inj hnext
      exact start_sound hstart s.ledger
    · exact ⟨h.raise p _, .refl _⟩
    · exact ⟨h, .refl _⟩
  | access p live =>
    unfold step
    dsimp only
    split
    · exact ⟨h, .refl _⟩
    · rename_i stage hstage
      split
      · rename_i next hnext
        refine ⟨h.setPending fun other hother => ?_, .refl _⟩
        obtain rfl := Option.some.inj hother
        exact access_sound h.consistent (h.stages p stage hstage) hnext
      · rename_i reply accepted l' hended
        have hsettles : Settles s.ledger reply accepted l' :=
          access_sound h.consistent (h.stages p stage hstage) hended
        exact ⟨h.settle p hsettles, hsettles.grows⟩
      · exact ⟨h.raise p _, .refl _⟩
  | abort p =>
    exact ⟨h.setPending fun next hnext => absurd hnext.symm (Option.some_ne_none next), .refl _⟩
  | dispatch queue =>
    have hgrows : s.ledger.Grows (step c s (.dispatch queue)).ledger :=
      ⟨fun _ h => h, fun _ _ => rfl, fun _ h => h, fun _ _ h => h, fun _ _ h => h⟩
    exact ⟨⟨⟨h.consistent.exclusive, h.consistent.consumed, h.consistent.consumer⟩,
      fun p stage hstage => (h.stages p stage hstage).grow hgrows,
      fun id r hmem => (h.receipts id r hmem).grow hgrows,
      fun id document hmem => (h.refusals id document hmem).grow hgrows, h.final,
      h.reserved.grow hgrows⟩, hgrows⟩

theorem run_sound (h : s.Sound) (actions : List (Action ι Spec τ)) :
    (run (step c) s actions).Sound :=
  run_invariant System.Sound (fun _ action hs _ => (step_sound hs action).1) h
    along_true

theorem run_grows (h : s.Sound) (actions : List (Action ι Spec τ)) :
    s.ledger.Grows (run (step c) s actions).ledger :=
  run_climbs System.Sound (fun a b => a.ledger.Grows b.ledger) (fun a => .refl a.ledger)
    (fun _ _ _ h h' => h.trans h') (fun _ action hs _ => step_sound hs action) h
    along_true

/-! ## Exactly once -/

/-- What callers can rely on. -/
structure System.ExactlyOnce (s : System ι τ) : Prop where
  /-- all receipts of an identity with a plan or a request are of one submission -/
  receipts : ∀ id r r', id.Named → Reply.receipt id r ∈ s.log → Reply.receipt id r' ∈ s.log →
    r.submissionId = r'.submissionId ∧ r.jobIds = r'.jobIds
  refusals : ∀ id document document', Reply.refusal id document ∈ s.log →
    Reply.refusal id document' ∈ s.log → document = document'
  /-- under a request id there are receipts or refusals, not both -/
  exclusive : ∀ id r document, id.requestId ≠ none → Reply.receipt id r ∈ s.log →
    Reply.refusal id document ∉ s.log
  final : s.log.Pairwise Reply.Final
  /-- the submission of a plan is the one that consumed it, and there is only one -/
  consumer : ∀ planId submissionId, s.ledger.Consumed planId submissionId ↔
    ∃ row ∈ s.ledger.submissions, row.planId = some planId ∧ row.submissionId = submissionId
  planned : ∀ row ∈ s.ledger.submissions, ∀ row' ∈ s.ledger.submissions, ∀ planId,
    row.planId = some planId → row'.planId = some planId → row = row'
  reserved : ∀ e ∈ s.accepted, ∀ e' ∈ s.accepted, e.2.workId ≠ e'.2.workId →
    ∀ stem ∈ e.2.stems, stem ∉ e'.2.stems

omit [DecidableEq ι] in
theorem System.Sound.exactlyOnce (h : s.Sound) : s.ExactlyOnce where
  receipts id r r' hnamed hr hr' := (h.receipts id r hr).unique hnamed (h.receipts id r' hr')
  refusals id document document' hd hd' :=
    (h.refusals id document hd).unique (h.refusals id document' hd')
  exclusive id r document hrequest hr hd :=
    (h.refusals id document hd).not_backs h.consistent hrequest (h.receipts id r hr)
  final := h.final
  consumer planId submissionId := by
    refine ⟨h.consistent.consumer planId submissionId, ?_⟩
    rintro ⟨row, hrow, hplan, rfl⟩
    exact h.consistent.consumed row hrow planId hplan
  planned row hrow row' hrow' planId hplan hplan' := by
    apply Table.eq_of_clash hrow hrow'
    · exact Or.inr (Or.inr ⟨hplan.trans hplan'.symm, by simp [hplan]⟩)
    · exact Or.inr (Or.inr ⟨hplan'.trans hplan.symm, by simp [hplan']⟩)
  reserved e he e' he' hwork stem hstem hstem' := by
    have howner := h.reserved e he stem hstem
    rw [h.reserved e' he' stem hstem'] at howner
    exact hwork (Option.some.inj howner).symm

/-- A step of a caller that ends no call or ends it with an exception writes refusals at most. -/
def KeepsTables (c : Contract Spec) (s : System ι τ) (action : Action ι Spec τ) : Prop :=
  (∀ queue, action ≠ .dispatch queue) →
    (∀ reply, (step c s action).log = s.log ++ [reply] → reply.fails = true) →
    (step c s action).ledger = { s.ledger with refusals := (step c s action).ledger.refusals }

theorem step_keepsTables (h : s.Sound) (action : Action ι Spec τ) : KeepsTables c s action := by
  intro hcaller hfails
  cases action with
  | start p call =>
    unfold step
    dsimp only
    split <;> rfl
  | access p live =>
    unfold step at hfails ⊢
    dsimp only at hfails ⊢
    split at hfails
    · rfl
    · rename_i stage hstage
      split at hfails
      · rfl
      · rename_i reply accepted l' hended
        have hsettles : Settles s.ledger reply accepted l' :=
          access_sound h.consistent (h.stages p stage hstage) hended
        exact hsettles.kept (hfails reply rfl)
      · rfl
  | abort p => rfl
  | dispatch queue => exact absurd rfl (hcaller queue)

/-- From an empty queue, whatever any number of controllers do in any order and whatever the task
definitions are meanwhile. -/
theorem submissions_exactly_once (c : Contract Spec) (earlier later : List (Action ι Spec τ)) :
    (run (step c) (.initial : System ι τ) earlier).ExactlyOnce ∧
      Along (step c) (KeepsTables c) (.initial : System ι τ) earlier ∧
      ∀ planId submissionId,
        (run (step c) (.initial : System ι τ) earlier).ledger.Consumed planId submissionId →
        (run (step c) (.initial : System ι τ) (earlier ++ later)).ledger.Consumed planId
          submissionId := by
  have hsound : (run (step c) (.initial : System ι τ) earlier).Sound := run_sound sound_initial _
  refine ⟨hsound.exactlyOnce, ?_, fun planId submissionId hconsumed => ?_⟩
  · exact along_of_step System.Sound
      (fun s action hs _ => ⟨(step_sound hs action).1, step_keepsTables hs action⟩) sound_initial
      along_true
  · rw [run_append]
    exact (run_grows hsound later).consumed planId submissionId hconsumed

/-! ## Identities without a request -/

/-- The answer of a reply: the submission and its jobs, or the refusal. -/
def Reply.answer : Reply τ → Option (Identity × ((String × List String) ⊕ Refusal))
  | .receipt id r => some (id, .inl (r.submissionId, r.jobIds))
  | .refusal id document => some (id, .inr document)
  | _ => none

/-- All answers under one identity are the same. -/
def System.AnswersOnce (s : System ι τ) : Prop :=
  ∀ a ∈ s.log.filterMap Reply.answer, ∀ b ∈ s.log.filterMap Reply.answer, a.1 = b.1 → a = b

instance (s : System ι τ) : Decidable s.AnswersOnce := by
  unfold System.AnswersOnce; infer_instance

end Runs

/-- One record of the given kind, pinned to one device. -/
def sampleRecord (kind : Kind) : Prepared :=
  ⟨kind, "prepared", "spec", "work", [], some "device", false, none⟩

def sampleContract : Contract Unit where
  validatePreparedJob _ := none
  validatePreparedAgainstSpec _ _ := none
  specId _ := some "spec"
  contentId _ := "spec"
  canonicalSpec _ := ⟨"spec", .atMostOnce⟩
  rawCommandSpec := ⟨"raw", .atMostOnce⟩
  fingerprint specId preparedIds _ _ := specId ++ "".intercalate preparedIds
  refusalKey planId requestId fingerprint := planId ++ "/" ++ requestId.getD "" ++ "/" ++ fingerprint
  canonicalPlan _ := "plan"
  planDigest _ := "digest"
  loads _ := .plan ⟨(), [sampleRecord .task], 0⟩

/-- A raw command without identities. -/
def sampleCommand (submissionId jobId : String) : Call Unit Nat :=
  .enqueueSubmission ⟨[sampleRecord .command], none, 0, none, 0, none, false, none, none, none,
    ⟨fun _ => jobId, submissionId⟩⟩

def samplePlanned (requestId : Option String) (submissionId jobId : String) : Call Unit Nat :=
  .enqueueSavedPlan ⟨"plan", requestId, true, 0, ⟨fun _ => jobId, submissionId⟩⟩

/-- A call with its accesses under one task definition. -/
def alone (call : Call Unit Nat) (specId : Option String) : List (Action Unit Unit Nat) :=
  .start () call :: List.replicate 3 (.access () (.answers specId))

def twoCommands : List (Action Unit Unit Nat) :=
  alone (sampleCommand "first" "one") none ++ alone (sampleCommand "second" "two") none

/-- A saved plan is refused to a caller without a request id, accepted under one, and asked for
again without. -/
def restoredPlan : List (Action Unit Unit Nat) :=
  alone (.saveSubmissionPlan "plan" ⟨(), [sampleRecord .task], 0⟩ true 0) (some "spec") ++
    alone (samplePlanned none "first" "one") (some "changed") ++
    alone (samplePlanned (some "request") "second" "two") (some "spec") ++
    alone (samplePlanned none "third" "three") (some "spec")

/-- Two anonymous commands are two submissions, and a plan that was refused without a request id
gives a receipt after another caller has consumed it. -/
theorem answers_not_once :
    ¬ (run (step sampleContract) (.initial : System Unit Nat) twoCommands).AnswersOnce ∧
      ¬ (run (step sampleContract) (.initial : System Unit Nat) restoredPlan).AnswersOnce := by
  constructor <;> decide

end Remrun.Fleet.Submissions
