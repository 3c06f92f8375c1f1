import Remrun.Fleet.Moves
import Remrun.Fleet.Results

/-!
# Published work is not run again

Every function between the worker's envelope and the queue rewrites the outcome of a row. Each has
one lemma that says what it may change; together they leave a row for the queue to run again only
where the worker said that it failed, that it published nothing, and that it wants another run.
-/

namespace Remrun.Fleet.Results

open Keyed Relational JsonText Effect
open Dispatch (raiseIf raiseIf_ok)
set_option autoImplicit false

variable {F : Type} {H : Host F}

/-! ## One item -/

/-- The worker says that the work failed, published nothing, and is to be run again. -/
def Retryable (raw : Value F) : Prop := ∃ members, raw = .obj members ∧
  isText (field members "outcome") "failed" = true ∧
  isText (field members "publication") "none" = true ∧
  ∃ d ∈ [Disposition.retry, .elsewhere, .onceElsewhere, .retryLater],
    isText (field members "disposition") d.text = true

/-- A failed item is one that the worker reported so, and it published nothing. -/
structure Reported (raw : Value F) (item : Item F) : Prop where
  jobId : jobIdOf raw = some item.jobId
  failed : item.outcome = .failed → item.publication = .none ∧ item.disposition ≠ .none ∧
    (item.disposition ≠ .final → Retryable raw)

section Items
variable {members : List (String × Value F)} {expected : Expected F} {completion : Completion}

theorem need_ok {α : Type} {value : Option α} {error : String} {a : α} :
    need value error = .ok a ↔ value = some a := by
  cases value <;> simp [need, refuse]

theorem text_of_named {α : Type} {text : α → String} {names : List α} {value : Value F} {a : α}
    (h : named text names value = some a) : isText value (text a) = true := by
  cases value with
  | str s =>
    have := List.find?_some h
    simpa [isText, eq_comm] using this
  | _ => exact absurd h nofun

theorem jobIdOf_eq {jobId : String} (h : isText (field members "job_id") jobId = true) :
    jobIdOf (.obj members) = some jobId := by
  unfold field at h
  rw [jobIdOf]
  cases hlook : members.lookup "job_id" with
  | none =>
    rw [hlook] at h
    exact absurd h nofun
  | some value =>
    rw [hlook] at h
    cases value with
    | str s =>
      have hs : s = jobId := by simpa [isText] using h
      rw [hs]
    | _ => exact absurd h nofun

theorem checkAttribution_ok (h : checkAttribution expected members = .ok ()) :
    isText (field members "job_id") expected.jobId = true := by
  obtain ⟨_, hid, -⟩ := bind_eq_ok.mp h
  simpa using raiseIf_ok.mp hid

theorem readAccount_ok {a : Account F} (h : readAccount completion members = .ok a) :
    isText (field members "outcome") a.outcome.text = true ∧
    isText (field members "disposition") a.disposition.text = true ∧
    isText (field members "publication") a.publication.text = true := by
  obtain ⟨outcome, houtcome, h⟩ := bind_eq_ok.mp h
  obtain ⟨disposition, hdisposition, h⟩ := bind_eq_ok.mp h
  obtain ⟨publication, hpublication, h⟩ := bind_eq_ok.mp h
  obtain ⟨_, -, h⟩ := bind_eq_ok.mp h
  obtain ⟨_, -, h⟩ := bind_eq_ok.mp h
  obtain ⟨_, -, h⟩ := bind_eq_ok.mp h
  obtain ⟨_, -, h⟩ := bind_eq_ok.mp h
  obtain rfl := pure_eq_ok.mp h
  exact ⟨text_of_named (need_ok.mp houtcome), text_of_named (need_ok.mp hdisposition),
    text_of_named (need_ok.mp hpublication)⟩

/-- What is still a failure has not published. -/
theorem settle_failed {a : Account F} (h : a.settle.outcome = .failed) :
    a.settle = a ∧ a.publication = .none := by
  unfold Account.settle at h ⊢
  split at h
  · exact absurd h nofun
  · rename_i hno
    rw [if_neg hno]
    refine ⟨rfl, ?_⟩
    by_contra hpublication
    exact hno ⟨h, hpublication⟩

theorem checkAccount_failed {a : Account F} (h : checkAccount H a = .ok ())
    (hfailed : a.outcome = .failed) : a.disposition ≠ .none := by
  obtain ⟨_, -, h⟩ := bind_eq_ok.mp h
  obtain ⟨_, hdisposition, -⟩ := bind_eq_ok.mp h
  intro hnone
  exact raiseIf_ok.mp hdisposition ⟨hfailed, Or.inl hnone⟩

theorem reported_of_account {a : Account F} {item : Item F}
    (hjob : isText (field members "job_id") item.jobId = true)
    (hread : readAccount completion members = .ok a) (hcheck : checkAccount H a.settle = .ok ())
    (houtcome : item.outcome = a.settle.outcome)
    (hdisposition : item.disposition = a.settle.disposition)
    (hpublication : item.publication = a.settle.publication) : Reported (.obj members) item where
  jobId := jobIdOf_eq hjob
  failed hfailed := by
    obtain ⟨htext, hway, hpublished⟩ := readAccount_ok hread
    rw [houtcome] at hfailed
    obtain ⟨hsame, hnone⟩ := settle_failed hfailed
    have hdisposed := checkAccount_failed hcheck hfailed
    rw [hsame] at hfailed hdisposed
    rw [hpublication, hdisposition, hsame]
    refine ⟨hnone, hdisposed, fun hfinal => ⟨members, rfl, ?_, ?_, a.disposition, ?_, hway⟩⟩
    · rwa [hfailed] at htext
    · rwa [hnone] at hpublished
    · cases hcase : a.disposition <;> simp_all

/-- A mismatch sends the item to review, and nothing else changes the account. -/
theorem validateItem_ok {raw : Value F} {item : Item F}
    (h : validateItem H expected completion raw = .ok item) :
    item.jobId = expected.jobId ∧ Reported raw item := by
  obtain ⟨members, hmembers, hrun⟩ := bind_eq_ok.mp h
  obtain rfl : raw = .obj members := by
    cases raw with
    | obj _ => exact congrArg _ (Except.ok.inj hmembers)
    | _ => exact absurd hmembers nofun
  obtain ⟨_, -, hrun⟩ := bind_eq_ok.mp hrun
  obtain ⟨_, hattribution, hrun⟩ := bind_eq_ok.mp hrun
  obtain ⟨a, hread, hrun⟩ := bind_eq_ok.mp hrun
  obtain ⟨_, hcheck, hrun⟩ := bind_eq_ok.mp hrun
  obtain ⟨outputs, -, hrun⟩ := bind_eq_ok.mp hrun
  obtain ⟨_, -, hrun⟩ := bind_eq_ok.mp hrun
  obtain ⟨companion, -, hrun⟩ := bind_eq_ok.mp hrun
  obtain ⟨_, -, hrun⟩ := bind_eq_ok.mp hrun
  obtain ⟨failureCode, -, hrun⟩ := bind_eq_ok.mp hrun
  obtain ⟨mismatch, -, hrun⟩ := bind_eq_ok.mp hrun
  obtain ⟨_, -, hrun⟩ := bind_eq_ok.mp hrun
  obtain ⟨details, -, hrun⟩ := bind_eq_ok.mp hrun
  have hitem := pure_eq_ok.mp hrun
  have hjob := checkAttribution_ok hattribution
  cases mismatch with
  | true =>
    subst hitem
    exact ⟨rfl, jobIdOf_eq hjob, nofun⟩
  | false =>
    subst hitem
    exact ⟨rfl, reported_of_account hjob hread hcheck rfl rfl rfl⟩

end Items

/-! ## The envelope -/

section Envelope
variable {expectedItems : List (Expected F)} {completion : Completion} {raws : List (Value F)}

/-- The rows accepted so far. -/
structure Tallied (expectedItems : List (Expected F)) (raws : List (Value F)) (t : Tally F) :
    Prop where
  seen : t.seen = t.out.map Item.jobId
  claimed : t.claimed = t.out.flatMap Item.paths
  once : t.seen.Nodup
  unshared : t.claimed.Nodup
  expected : ∀ jobId ∈ t.seen, jobId ∈ expectedItems.map Expected.jobId
  reported : ∀ item ∈ t.out, ∃ raw ∈ raws, Reported raw item

theorem tallied_start : Tallied expectedItems raws ⟨[], [], []⟩ where
  seen := rfl
  claimed := rfl
  once := List.nodup_nil
  unshared := List.nodup_nil
  expected _ hmem := absurd hmem List.not_mem_nil
  reported _ hmem := absurd hmem List.not_mem_nil

theorem nodup_snoc {α : Type} {xs : List α} {a : α} (h : xs.Nodup) (ha : a ∉ xs) :
    (xs ++ [a]).Nodup := by
  rw [List.nodup_append]
  refine ⟨h, List.nodup_singleton a, ?_⟩
  intro x hx y hy
  rw [List.mem_singleton.mp hy]
  exact fun heq => ha (heq ▸ hx)

theorem tallied_step {t t' : Tally F} {raw : Value F} (hraw : raw ∈ raws)
    (ht : Tallied expectedItems raws t)
    (h : tallyItem H expectedItems completion t raw = .ok t') : Tallied expectedItems raws t' := by
  obtain ⟨jobId, -, h⟩ := bind_eq_ok.mp h
  obtain ⟨expected, hfind, h⟩ := bind_eq_ok.mp h
  obtain ⟨_, hfresh, h⟩ := bind_eq_ok.mp h
  obtain ⟨item, hitem, h⟩ := bind_eq_ok.mp h
  obtain ⟨_, hpaths, h⟩ := bind_eq_ok.mp h
  obtain ⟨_, hoverlap, h⟩ := bind_eq_ok.mp h
  obtain rfl := pure_eq_ok.mp h
  have hfound := need_ok.mp hfind
  have hid : expected.jobId = jobId := by simpa using List.find?_some hfound
  obtain ⟨hjob, hreported⟩ := validateItem_ok hitem
  rw [raiseIf_ok] at hfresh hpaths hoverlap
  rw [not_not] at hpaths
  constructor
  · simp [ht.seen, hjob, hid]
  · simp [ht.claimed]
  · exact nodup_snoc ht.once hfresh
  · rw [List.nodup_append]
    refine ⟨ht.unshared, hpaths, ?_⟩
    rintro x hx y hy rfl
    exact hoverlap (List.any_eq_true.mpr ⟨x, hy, decide_eq_true hx⟩)
  · intro id hmem
    rcases List.mem_append.mp hmem with hold | hnew
    · exact ht.expected id hold
    · rw [List.mem_singleton.mp hnew, ← hid]
      exact List.mem_map_of_mem (List.mem_of_find?_eq_some hfound)
  · intro row hrow
    rcases List.mem_append.mp hrow with hold | hnew
    · exact ht.reported row hold
    · rw [List.mem_singleton.mp hnew]
      exact ⟨raw, hraw, hreported⟩

/-- The items of an envelope. -/
def workerRows (envelope : Value F) : List (Value F) :=
  match envelope with
  | .obj members => match field members "items" with
    | .arr items => items
    | _ => []
  | _ => []

/-- One row for each job, no path claimed twice, and every row as the worker reported it. -/
structure Attributed (expectedItems : List (Expected F)) (envelope : Value F)
    (items : List (Item F)) : Prop where
  jobs : (items.map Item.jobId).Perm (expectedItems.map Expected.jobId)
  once : (items.map Item.jobId).Nodup
  paths : (items.flatMap Item.paths).Nodup
  reported : ∀ item ∈ items, ∃ raw ∈ workerRows envelope, Reported raw item

theorem attributed_of_valid {envelope : Value F} {batchId specId adapterId : String}
    {items : List (Item F)}
    (h : validateResultEnvelope H envelope batchId specId adapterId expectedItems completion =
      .ok items) : Attributed expectedItems envelope items := by
  obtain ⟨members, hmembers, hrun⟩ := bind_eq_ok.mp h
  obtain ⟨_, -, hrun⟩ := bind_eq_ok.mp hrun
  obtain ⟨_, -, hrun⟩ := bind_eq_ok.mp hrun
  obtain ⟨_, -, hrun⟩ := bind_eq_ok.mp hrun
  obtain ⟨_, -, hrun⟩ := bind_eq_ok.mp hrun
  obtain ⟨_, -, hrun⟩ := bind_eq_ok.mp hrun
  obtain ⟨raws, hraws, hrun⟩ := bind_eq_ok.mp hrun
  obtain ⟨_, hunique, hrun⟩ := bind_eq_ok.mp hrun
  obtain ⟨_, -, hrun⟩ := bind_eq_ok.mp hrun
  obtain ⟨t, hloop, hrun⟩ := bind_eq_ok.mp hrun
  obtain ⟨_, hall, hrun⟩ := bind_eq_ok.mp hrun
  have hout := pure_eq_ok.mp hrun
  have hrows : workerRows envelope = raws := by
    cases envelope with
    | obj found =>
      have hfound : found = members := Except.ok.inj hmembers
      rw [workerRows, hfound]
      cases hfield : field members "items" with
      | arr values =>
        rw [hfield] at hraws
        exact Except.ok.inj hraws
      | _ => rw [hfield] at hraws; exact absurd hraws nofun
    | _ => exact absurd hmembers nofun
  have ht : Tallied expectedItems raws t :=
    foldlM_invariant (Tallied expectedItems raws)
      (fun _ _ _ hraw ht hstep => tallied_step hraw ht hstep) tallied_start hloop
  rw [raiseIf_ok, not_not] at hunique
  rw [raiseIf_ok, Bool.not_eq_false, List.all_eq_true] at hall
  subst hout
  have honce : (t.out.map Item.jobId).Nodup := ht.seen ▸ ht.once
  refine ⟨(List.perm_ext_iff_of_nodup honce hunique).mpr fun jobId => ?_, honce,
    ht.claimed ▸ ht.unshared, ?_⟩
  · rw [← ht.seen]
    constructor
    · exact ht.expected jobId
    · intro hmem
      obtain ⟨row, hrow, rfl⟩ := List.mem_map.mp hmem
      exact of_decide_eq_true (hall row hrow)
  · rw [hrows]
    exact ht.reported

end Envelope

/-! ## The rows of the controller -/

/-- Why the queue may run a job again: the worker asked for it, nothing was published, and neither
a mismatch, nor the return of outputs, nor the verification has changed that. -/
structure RunAgain (raw : Value F) (item : Item F) (row : Row F) : Prop where
  retryable : Retryable raw
  failed : item.outcome = .failed
  unpublished : item.publication = .none
  returned : row.item = item
  unverified : row.succeeded = false

section Rows
variable {raw : Value F} {row row' : Row F} {r : Return F} {verify : Verdict F}

theorem itemDisposition_of_review (h : row.item.outcome = .review) :
    itemDisposition row = .review := if_pos h

theorem returnRow_ok (h : returnRow r row = .ok row') :
    row'.item.jobId = row.item.jobId ∧
      ((row'.item = row.item ∧ row'.ok = row.ok) ∨
        (row'.item.outcome = .review ∧ row'.ok = false)) := by
  unfold returnRow at h
  split at h
  · obtain rfl := Except.ok.inj h
    exact ⟨rfl, Or.inl ⟨rfl, rfl⟩⟩
  · split at h
    · obtain rfl := Except.ok.inj h
      exact ⟨rfl, Or.inl ⟨rfl, rfl⟩⟩
    · obtain ⟨⟨receipts, failure⟩, -, h⟩ := bind_eq_ok.mp h
      cases failure with
      | some why =>
        obtain rfl := pure_eq_ok.mp h
        exact ⟨rfl, Or.inr ⟨rfl, rfl⟩⟩
      | none =>
        obtain rfl := pure_eq_ok.mp h
        exact ⟨rfl, Or.inl ⟨rfl, rfl⟩⟩

theorem runAgain_of_returned {item : Item F} (hitem : Reported raw item)
    (h : returnRow r (Row.of item) = .ok row) (hfailed : row.succeeded = false)
    (hreview : itemDisposition row ≠ .review) (hfinal : itemDisposition row ≠ .final) :
    RunAgain raw item row := by
  rcases (returnRow_ok h).2 with ⟨hsame, -⟩ | ⟨houtcome, -⟩
  · change row.item = item at hsame
    have houtcome : item.outcome = .failed := by
      cases hcase : item.outcome with
      | succeeded => simp [Row.succeeded, hsame, hcase] at hfailed
      | review => exact absurd (itemDisposition_of_review (hsame ▸ hcase)) hreview
      | failed => rfl
    obtain ⟨hpublication, -, hretry⟩ := hitem.failed houtcome
    refine ⟨hretry fun hdisposition => hfinal ?_, houtcome, hpublication, hsame, hfailed⟩
    simp [itemDisposition, hsame, houtcome, hdisposition]
  · exact absurd (itemDisposition_of_review houtcome) hreview

/-- The row after the verdict. -/
def judged (verify : Verdict F) (row : Row F) : Row F :=
  if verify.final = true ∧ row.succeeded = true then row.rejected verify else row

theorem applyItemOutputVerdict_eq (rows : List (Row F)) :
    applyItemOutputVerdict verify rows = rows.map (judged verify) := by
  unfold applyItemOutputVerdict judged
  cases verify.final with
  | false => simp
  | true => simp

theorem judged_jobId : (judged verify row).item.jobId = row.item.jobId := by
  unfold judged
  split <;> rfl

/-- The verdict makes a rejected row final and leaves the others. -/
theorem judged_eq (hfinal : itemDisposition (judged verify row) ≠ .final) :
    judged verify row = row := by
  unfold judged at hfinal ⊢
  split
  · rename_i hreject
    rw [if_pos hreject] at hfinal
    exact absurd rfl hfinal
  · rfl

theorem returnOutputs_ok {rows rows' : List (Row F)} (h : returnOutputs r rows = .ok rows') :
    rows.mapM (returnRow r) = .ok rows' := by
  obtain ⟨delivered, hmap, h⟩ := bind_eq_ok.mp h
  split at h
  · exact absurd h nofun
  · rw [← pure_eq_ok.mp h]
    exact hmap

theorem returned_jobIds {rows rows' : List (Row F)} (h : rows.mapM (returnRow r) = .ok rows') :
    rows'.map (fun row => row.item.jobId) = rows.map fun row => row.item.jobId := by
  induction rows generalizing rows' with
  | nil =>
    obtain rfl := Except.ok.inj h
    rfl
  | cons row rest ih =>
    obtain ⟨row', rest', hrow, hrest, rfl⟩ := mapM_cons_eq_ok.mp h
    rw [List.map_cons, List.map_cons, ih hrest, (returnRow_ok hrow).1]

end Rows

/-! ## The queue -/

section Queue
variable {τ : Type} {db db' : Database τ} {j row : Job τ} {batchId : String} {now : τ}

theorem updateJobs_misses {p : Job τ → Bool} {f : Job τ → Job τ} (h : db.updateJobs p f = .ok db')
    (hj : j ∈ db.jobs) (hp : p j = false) : j ∈ db'.jobs :=
  (mem_updateJobs h).mpr ⟨j, hj, Table.setWhere_neg (by rw [hp]; exact Bool.false_ne_true)⟩

theorem updateJobs_hits {p : Job τ → Bool} {f : Job τ → Job τ} (h : db.updateJobs p f = .ok db')
    (hj : j ∈ db.jobs) (hp : p j = true) : f j ∈ db'.jobs :=
  (mem_updateJobs h).mpr ⟨j, hj, Table.setWhere_pos hp⟩

theorem finishDoneItems_misses {items : ItemResults} {expectedState : State}
    {record : Option String} {rows : List (Job τ)}
    (h : finishDoneItems items batchId expectedState record now rows db = .ok db')
    (hj : j ∈ db.jobs) (hout : j.jobId ∉ rows.map Job.jobId) : j ∈ db'.jobs := by
  induction rows generalizing db with
  | nil =>
    cases h
    exact hj
  | cons row rest ih =>
    rw [List.map_cons, List.mem_cons, not_or] at hout
    obtain ⟨db₁, hfirst, hrest⟩ := bind_eq_ok.mp h
    exact ih hrest (updateJobs_misses hfirst hj (by simp [hout.1])) hout.2

theorem finishDoneItems_hits {items : ItemResults} {expectedState : State}
    {record : Option String} {rows : List (Job τ)} (hnodup : (rows.map Job.jobId).Nodup)
    (h : finishDoneItems items batchId expectedState record now rows db = .ok db')
    (hj : j ∈ db.jobs) (hin : j.inBatch batchId expectedState = true)
    (hrow : j.jobId ∈ rows.map Job.jobId) :
    ∃ j' ∈ db'.jobs, j'.jobId = j.jobId ∧ j'.state = .done := by
  induction rows generalizing db with
  | nil => exact absurd hrow List.not_mem_nil
  | cons row rest ih =>
    obtain ⟨hfresh, hrestNodup⟩ := List.nodup_cons.mp hnodup
    obtain ⟨db₁, hfirst, hrest⟩ := bind_eq_ok.mp h
    by_cases hid : j.jobId = row.jobId
    · have hhit := updateJobs_hits hfirst hj (by simp [hid, hin])
      refine ⟨_, finishDoneItems_misses hrest hhit ?_, rfl, rfl⟩
      rw [← hid] at hfresh
      exact hfresh
    · have hlater : j.jobId ∈ rest.map Job.jobId := by
        rcases List.mem_cons.mp hrow with heq | hmem
        · exact absurd heq hid
        · exact hmem
      exact ih hrestNodup hrest (updateJobs_misses hfirst hj (by simp [hid])) hlater

theorem finishFailedItems_misses {items : ItemResults} {rules : FailureRules} {rows : List (Job τ)}
    (h : finishFailedItems items batchId now rules rows db = .ok db')
    (hj : j ∈ db.jobs) (hout : j.jobId ∉ rows.map Job.jobId) : j ∈ db'.jobs := by
  induction rows generalizing db with
  | nil =>
    cases h
    exact hj
  | cons row rest ih =>
    rw [List.map_cons, List.mem_cons, not_or] at hout
    obtain ⟨db₁, hfirst, hrest⟩ := bind_eq_ok.mp h
    exact ih hrest (updateJobs_misses hfirst hj (by simp [hout.1])) hout.2

theorem finishFailedItems_hits {items : ItemResults} {rules : FailureRules} {rows : List (Job τ)}
    (hnodup : (rows.map Job.jobId).Nodup)
    (h : finishFailedItems items batchId now rules rows db = .ok db')
    (hj : j ∈ db.jobs) (hbatch : j.batchId = some batchId) (hactive : j.state.active = true)
    (hrow : j ∈ rows) :
    ∃ j' ∈ db'.jobs, j'.jobId = j.jobId ∧
      j'.state = failedItemState j ((items.dispositions.get j.jobId).getD .retry) rules := by
  induction rows generalizing db with
  | nil => exact absurd hrow List.not_mem_nil
  | cons row rest ih =>
    obtain ⟨hfresh, hrestNodup⟩ := List.nodup_cons.mp hnodup
    obtain ⟨db₁, hfirst, hrest⟩ := bind_eq_ok.mp h
    rcases List.mem_cons.mp hrow with rfl | hlater
    · have hhit := updateJobs_hits hfirst hj (by simp [hbatch, hactive])
      exact ⟨_, finishFailedItems_misses hrest hhit hfresh, rfl, rfl⟩
    · have hid : j.jobId ≠ row.jobId := by
        intro heq
        exact hfresh (heq ▸ List.mem_map_of_mem hlater)
      exact ih hrestNodup hrest (updateJobs_misses hfirst hj (by simp [hid])) hlater

theorem insertObservation_jobs {observation : Option Bool}
    (h : insertObservation batchId observation db = .ok db') : db'.jobs = db.jobs := by
  unfold insertObservation at h
  split at h
  · cases h
    rfl
  · cases h
  · obtain ⟨observations, -, hdb⟩ := bind_eq_ok.mp h
    obtain rfl := pure_eq_ok.mp hdb
    rfl

theorem jobs_nodup (db : Database τ) : (db.jobs.rows.map Job.jobId).Nodup := by
  rw [List.nodup_iff_pairwise_ne, List.pairwise_map]
  exact db.jobs.unique.imp fun hclash heq => hclash (Or.inl heq)

/-- Where the end of a batch leaves each of its jobs. -/
theorem completeBatchItems_jobs [LinearOrder τ] {items : ItemResults} {expectedState : State}
    {ownerToken : String} {rules : FailureRules} {report : Report}
    (h : completeBatchItems batchId items expectedState ownerToken rules report now db =
      .ok (true, db'))
    (hactive : expectedState.active = true) (hj : j ∈ db.jobs)
    (hin : j.inBatch batchId expectedState = true) :
    ∃ j' ∈ db'.jobs, j'.jobId = j.jobId ∧ j'.state =
      if items.fails j.jobId then
        failedItemState j ((items.dispositions.get j.jobId).getD .retry) rules
      else .done := by
  obtain ⟨disposition, -, h⟩ := bind_eq_ok.mp h
  split at h
  · exact absurd (congrArg Prod.fst (pure_eq_ok.mp h)) Bool.false_ne_true
  dsimp only at h
  split at h
  · exact absurd (congrArg Prod.fst (pure_eq_ok.mp h)) Bool.false_ne_true
  obtain ⟨db₁, hdone, h⟩ := bind_eq_ok.mp h
  obtain ⟨db₂, hfailed, h⟩ := bind_eq_ok.mp h
  obtain ⟨db₃, hobserved, h⟩ := bind_eq_ok.mp h
  obtain ⟨-, rfl⟩ := Prod.mk.inj (pure_eq_ok.mp h)
  have hjobs : db₃.jobs = db₂.jobs := insertObservation_jobs hobserved
  change ∃ j' ∈ db₃.jobs, _
  rw [hjobs]
  have hrows : j ∈ db.jobs.select (Job.inBatch batchId expectedState) := Table.mem_select.mpr ⟨hj, hin⟩
  have hnodup : ∀ p : Job τ → Bool,
      (((db.jobs.select (Job.inBatch batchId expectedState)).filter p).map Job.jobId).Nodup :=
    fun p => ((jobs_nodup db).sublist (List.filter_sublist.map _)).sublist
      (List.filter_sublist.map _)
  have hboth := Bool.and_eq_true_iff.mp hin
  cases hfails : items.fails j.jobId with
  | true =>
    have hkept : j ∈ db₁.jobs := by
      refine finishDoneItems_misses hdone hj fun hmem => ?_
      obtain ⟨i, hi, hid⟩ := List.mem_map.mp hmem
      have hno := (List.mem_filter.mp hi).2
      rw [hid, hfails] at hno
      exact absurd hno (by decide)
    obtain ⟨j', hj', hid, hstate⟩ := finishFailedItems_hits (hnodup _) hfailed hkept
      (of_decide_eq_true hboth.1) (by rw [of_decide_eq_true hboth.2]; exact hactive)
      (List.mem_filter.mpr ⟨hrows, hfails⟩)
    exact ⟨j', hj', hid, hstate⟩
  | false =>
    obtain ⟨j', hj', hid, hstate⟩ := finishDoneItems_hits (hnodup _) hdone hj hin
      (List.mem_map_of_mem (List.mem_filter.mpr ⟨hrows, by rw [hfails]; rfl⟩))
    refine ⟨j', finishFailedItems_misses hfailed hj' fun hmem => ?_, hid, hstate⟩
    obtain ⟨i, hi, hsame⟩ := List.mem_map.mp hmem
    have hno := (List.mem_filter.mp hi).2
    rw [hsame, hid, hfails] at hno
    exact absurd hno Bool.false_ne_true

end Queue

/-! ## From the rows to the queue -/

section Filed
variable {rows : List (Row F)} {row : Row F} {record : String → Option String}

theorem get_byJob {α : Type} {value : Row F → α}
    (hnodup : (rows.map fun row => row.item.jobId).Nodup) (hrow : row ∈ rows)
    (hid : row.item.jobId ≠ "") : (byJob value rows).get row.item.jobId = some (value row) := by
  rw [byJob, get_foldl_set]
  · left
    exact ⟨row, List.mem_map.mpr ⟨row, List.mem_filter.mpr ⟨hrow, by simpa using hid⟩, rfl⟩, rfl⟩
  · rw [List.map_map]
    exact hnodup.sublist (List.filter_sublist.map _)

theorem get_byJob_none {α : Type} {value : Row F → α} {jobId : String}
    (hnodup : (rows.map fun row => row.item.jobId).Nodup)
    (h : ∀ row ∈ rows, row.item.jobId ≠ jobId) : (byJob value rows).get jobId = none := by
  cases hget : (byJob value rows).get jobId with
  | none => rfl
  | some w =>
    rw [byJob, get_foldl_set] at hget
    · rcases hget with ⟨row, hmem, -⟩ | ⟨-, hstart⟩
      · obtain ⟨row', hrow', heq⟩ := List.mem_map.mp hmem
        exact absurd (congrArg Prod.fst heq) (h row' (List.mem_filter.mp hrow').1)
      · exact absurd hstart nofun
    · rw [List.map_map]
      exact hnodup.sublist (List.filter_sublist.map _)

/-- A job with a row of its own ends as the row says. -/
theorem itemResults_row (hnodup : (rows.map fun row => row.item.jobId).Nodup) (hrow : row ∈ rows)
    (hid : row.item.jobId ≠ "") :
    (itemResults H record rows).fails row.item.jobId = !row.succeeded ∧
      (row.succeeded = false → (itemResults H record rows).dispositions.get row.item.jobId =
        some (itemDisposition row)) := by
  have hcut : ∀ p : Row F → Bool, ((rows.filter p).map fun row => row.item.jobId).Nodup :=
    fun p => hnodup.sublist (List.filter_sublist.map _)
  have hother : ∀ p : Row F → Bool, p row = false →
      ∀ row' ∈ rows.filter p, row'.item.jobId ≠ row.item.jobId := by
    intro p hp row' hrow' heq
    obtain ⟨hmem, hp'⟩ := List.mem_filter.mp hrow'
    rw [List.inj_on_of_nodup_map hnodup hmem hrow heq, hp] at hp'
    exact absurd hp' Bool.false_ne_true
  cases hsucceeded : row.succeeded with
  | true =>
    refine ⟨?_, fun h => absurd h.symm Bool.false_ne_true⟩
    have hdone : (itemResults H record rows).succeeded.get row.item.jobId =
        some (some (H.dumps row.members)) :=
      get_byJob (hcut _) (List.mem_filter.mpr ⟨hrow, hsucceeded⟩) hid
    have hnone : (itemResults H record rows).failed.get row.item.jobId = none :=
      get_byJob_none (hcut _) (hother (fun row => !row.succeeded) (by simp [hsucceeded]))
    rw [ItemResults.fails, hdone, hnone]
    rfl
  | false =>
    have hmem : row ∈ rows.filter fun row => !row.succeeded :=
      List.mem_filter.mpr ⟨hrow, by rw [hsucceeded]; rfl⟩
    have hfailed : (itemResults H record rows).failed.get row.item.jobId = some row.failure :=
      get_byJob (hcut _) hmem hid
    refine ⟨?_, fun _ => get_byJob (hcut _) hmem hid⟩
    rw [ItemResults.fails, hfailed]
    rfl

end Filed

/-- A failed item ends in review, for good, or in the queue; not for good only where its
disposition allows another run. -/
theorem failedItemState_cases {τ : Type} (j : Job τ) (disposition : ItemDisposition)
    (rules : FailureRules) :
    (failedItemState j disposition rules = .queued ∧ disposition ≠ .review ∧ disposition ≠ .final) ∨
      failedItemState j disposition rules = .needsReview ∨
      failedItemState j disposition rules = .failedFinal := by
  unfold failedItemState
  by_cases hreview : disposition = .review
  · exact Or.inr (Or.inl (if_pos hreview))
  · by_cases hfinal : disposition = .final
    · exact Or.inr (Or.inr (by rw [if_neg hreview, if_pos (Or.inl hfinal)]))
    · generalize (if disposition = .onceElsewhere then min rules.maxAttempts 2
        else rules.maxAttempts) = cap
      dsimp only
      rw [if_neg hreview]
      split
      · exact Or.inr (Or.inr rfl)
      · split
        · exact Or.inr (Or.inr rfl)
        · exact Or.inl ⟨rfl, hreview, hfinal⟩

/-- The end of a job of a batch: it goes back to the queue only as its worker's row allows. -/
def Ends {τ : Type} (envelope : Value F) (items : List (Item F)) (rows : List (Row F))
    (j j' : Job τ) : Prop :=
  ∃ raw ∈ workerRows envelope, ∃ item ∈ items, ∃ row ∈ rows,
    jobIdOf raw = some j.jobId ∧ item.jobId = j.jobId ∧ row.item.jobId = j.jobId ∧
      ((j'.state = .queued ∧ RunAgain raw item row) ∨
        j'.state ∈ [State.done, .needsReview, .failedFinal])

theorem published_never_rerun {τ : Type} [LinearOrder τ] {envelope : Value F}
    {batchId specId adapterId : String} {expectedItems : List (Expected F)}
    {completion : Completion} {items : List (Item F)} {r : Return F} {rows : List (Row F)}
    {verify : Verdict F} {record : String → Option String} {expectedState : State}
    {ownerToken : String} {rules : FailureRules} {report : Report} {now : τ} {db db' : Database τ}
    (hvalid : validateResultEnvelope H envelope batchId specId adapterId expectedItems completion =
      .ok items)
    (hreturn : returnOutputs r (items.map Row.of) = .ok rows)
    (hstaged : ∀ j ∈ db.jobs, j.inBatch batchId expectedState = true →
      j.jobId ∈ expectedItems.map Expected.jobId)
    (hactive : expectedState.active = true)
    (hcomplete : completeBatchItems batchId
      (itemResults H record (applyItemOutputVerdict verify rows)) expectedState ownerToken rules
        report now db = .ok (true, db')) :
    Attributed expectedItems envelope items ∧
    ∀ j ∈ db.jobs, j.inBatch batchId expectedState = true →
      ∃ j' ∈ db'.jobs, j'.jobId = j.jobId ∧ Ends envelope items rows j j' := by
  have hattributed := attributed_of_valid hvalid
  refine ⟨hattributed, fun j hj hin => ?_⟩
  have hmap := returnOutputs_ok hreturn
  have hids : rows.map (fun row => row.item.jobId) = items.map Item.jobId := by
    rw [returned_jobIds hmap, List.map_map]
    rfl
  have hjudged : (applyItemOutputVerdict verify rows).map (fun row => row.item.jobId) =
      items.map Item.jobId := by
    rw [applyItemOutputVerdict_eq, List.map_map, ← hids]
    exact List.map_congr_left fun row _ => judged_jobId
  have hmem : j.jobId ∈ rows.map fun row => row.item.jobId := by
    rw [hids, hattributed.jobs.mem_iff]
    exact hstaged j hj hin
  obtain ⟨row, hrow, hrowId⟩ := List.mem_map.mp hmem
  obtain ⟨_, hitemRow, hreturned⟩ := (mem_of_mapM hmap).mp hrow
  obtain ⟨item, hitem, rfl⟩ := List.mem_map.mp hitemRow
  have hitemId : item.jobId = j.jobId := (returnRow_ok hreturned).1.symm.trans hrowId
  obtain ⟨raw, hraw, hreported⟩ := hattributed.reported item hitem
  have hne : (judged verify row).item.jobId ≠ "" := by
    rw [judged_jobId, hrowId]
    obtain ⟨expected, -, hid⟩ := List.mem_map.mp (hstaged j hj hin)
    exact hid ▸ expected.jobId_ne
  have hjudgedRow : judged verify row ∈ applyItemOutputVerdict verify rows := by
    rw [applyItemOutputVerdict_eq]
    exact List.mem_map_of_mem hrow
  have honce : ((applyItemOutputVerdict verify rows).map fun row => row.item.jobId).Nodup :=
    hjudged ▸ hattributed.once
  obtain ⟨hfails, hdisposition⟩ := itemResults_row (H := H) honce hjudgedRow hne
  rw [judged_jobId, hrowId] at hfails hdisposition
  obtain ⟨j', hj', hid, hstate⟩ := completeBatchItems_jobs hcomplete hactive hj hin
  refine ⟨j', hj', hid, raw, hraw, item, hitem, row, hrow, ?_, hitemId, hrowId, ?_⟩
  · rw [hreported.jobId, hitemId]
  rw [hfails] at hstate
  cases hsucceeded : (judged verify row).succeeded with
  | true =>
    rw [hsucceeded] at hstate
    exact Or.inr (by simp [hstate])
  | false =>
    rw [hsucceeded, hdisposition hsucceeded] at hstate
    rcases failedItemState_cases j (itemDisposition (judged verify row)) rules with
      ⟨hqueued, hreview, hfinal⟩ | hreviewed | hended
    · have hsame := judged_eq hfinal
      rw [hsame] at hsucceeded hreview hfinal
      exact Or.inl ⟨hstate.trans hqueued,
        runAgain_of_returned hreported hreturned hsucceeded hreview hfinal⟩
    · exact Or.inr (by simp [hstate, hreviewed])
    · exact Or.inr (by simp [hstate, hended])

/-! ## A failed job -/

def sampleHost : Host Int where
  ofInt := some
  isFinite _ := true
  negative x := x < 0
  positive x := 0 < x
  exceeds value prepared _ := value ≠ prepared
  canonicalBytes members := some (dumps ⟨fun _ => [], fun _ => 0⟩ (.obj members : Value Int)).length
  dumps members := String.ofList (dumps ⟨fun _ => [], fun _ => 0⟩ (.obj members : Value Int))

def sampleIdentity : String := "sha256:" ++ String.ofList (List.replicate 64 '0')

def sampleExpected : Expected Int where
  jobId := "j"
  jobId_ne := by decide
  preparedId := sampleIdentity
  index := 0
  costUnit := none
  costStatus := "unestimated"
  payloadMode := "none"
  workId := sampleIdentity
  measureId := none
  preparedValue := none
  verifyRelativeTolerance := 0
  stems := []

def sampleRaw : Value Int := .obj [
  ("job_id", .str "j"), ("prepared_id", .str sampleIdentity), ("index", .int 0),
  ("outcome", .str "failed"), ("disposition", .str "retry"), ("retry_after_s", .null),
  ("publication", .str "none"), ("work_performed", .bool false), ("outputs", .arr []),
  ("companion", .null), ("message", .str "no space"), ("failure_code", .null),
  ("resource", .str "scratch"), ("work_units", .null), ("elapsed_s", .null)]

def sampleEnvelope : Value Int := .obj [
  ("schema", .int 2), ("batch_id", .str "b"), ("spec_id", .str sampleIdentity),
  ("adapter_id", .str sampleIdentity), ("items", .arr [sampleRaw])]

def sampleReturn : Return Int where
  returnRoot _ := none
  mayReturn _ _ := true
  fetch _ _ := .raises "not asked"
  stillOwned := true

def sampleJob : Job Nat where
  jobId := "j"
  preparedId := some "p"
  specId := some "s"
  forceDevice := none
  idempotencyKey := none
  state := .running
  attempts := 1
  leasedUntil := some 9
  assignedDevice := some "d"
  batchId := some "b"
  updatedAt := 1
  lastError := none
  outputManifest := none
  excludeDevices := none
  lastResult := none

def sampleBatch : Batch Nat where
  batchId := "b"
  ownerToken := some "t"
  state := .running
  device := "d"
  leaseUntil := 9
  heartbeatAt := none
  updatedAt := 1
  error := none
  targetProtocolVersion := none
  targetOperationId := none
  targetRequestSha256 := none
  targetResumeToken := none
  targetReservedAt := none
  targetAcceptedAt := none
  targetCleanupState := none
  targetCleanupAt := none
  targetStageCleanedAt := none
  targetDurableCleanedAt := none
  targetFinalizedAt := none
  targetFinalizationDisposition := none
  targetReleaseAuthorizedAt := none
  targetReleaseEffectsAcknowledgedAt := none
  pool := none

def sampleQueue : Database Nat where
  jobs := ⟨[sampleJob], List.pairwise_singleton _ _⟩
  batches := ⟨[sampleBatch], List.pairwise_singleton _ _⟩
  leases := .empty
  observations := .empty
  specs := .empty

def sampleVerify : Verdict Int := ⟨true, "no new output", []⟩

def sampleItems : Except String (List (Item Int)) :=
  validateResultEnvelope sampleHost sampleEnvelope "b" sampleIdentity sampleIdentity
    [sampleExpected] ⟨[.none], .optional⟩

def sampleCompletion (rows : List (Row Int)) : Except Fault (Bool × Database Nat) :=
  completeBatchItems "b" (itemResults sampleHost some (applyItemOutputVerdict sampleVerify rows))
    .running "t" ⟨3, false⟩ ⟨none, none, none⟩ 2 sampleQueue

/-- The whole composition returns. -/
def sampleReturns : Bool :=
  match sampleItems with
  | .error _ => false
  | .ok items => match returnOutputs sampleReturn (items.map Row.of) with
    | .error _ => false
    | .ok rows => match sampleCompletion rows with
      | .ok (done, _) => done
      | .error _ => false

theorem sample_returns : ∃ items rows db', sampleItems = .ok items ∧
    returnOutputs sampleReturn (items.map Row.of) = .ok rows ∧
    sampleCompletion rows = .ok (true, db') := by
  have h : sampleReturns = true := by decide +kernel
  unfold sampleReturns at h
  split at h
  · exact absurd h Bool.false_ne_true
  rename_i items hitems
  split at h
  · exact absurd h Bool.false_ne_true
  rename_i rows hrows
  split at h
  · rename_i done db' hdone
    subst h
    exact ⟨items, rows, db', hitems, hrows, hdone⟩
  · exact absurd h Bool.false_ne_true

theorem published_never_rerun_failed : ∃ items rows db', sampleItems = .ok items ∧
    returnOutputs sampleReturn (items.map Row.of) = .ok rows ∧
    sampleCompletion rows = .ok (true, db') ∧ Attributed [sampleExpected] sampleEnvelope items ∧
    ∀ j ∈ sampleQueue.jobs, j.inBatch "b" .running = true →
      ∃ j' ∈ db'.jobs, j'.jobId = j.jobId ∧ Ends sampleEnvelope items rows j j' := by
  obtain ⟨items, rows, db', hitems, hrows, hdone⟩ := sample_returns
  refine ⟨items, rows, db', hitems, hrows, hdone, published_never_rerun hitems hrows ?_ rfl hdone⟩
  intro j hj _
  rw [List.mem_singleton.mp hj]
  exact List.mem_singleton.mpr rfl

end Remrun.Fleet.Results
