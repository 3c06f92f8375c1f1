import Remrun.Durable.Launch

/-!
# One identity for a run

The controller, the supervisor and the observer go on under one job id, one set of paths and one
identity exactly when no bound of one of them changes or refuses what another has derived. A
project id or device name outside the alphabet, a run id of more than 128 characters, a device name
with an underscore at an end and a state root that is not its own resolution all end a run as
unknown.
-/

namespace Remrun.Durable

open JsonText
set_option autoImplicit false

/-! ## Run ids -/

section RunIds
variable {g : Generated} {target projectId : String}

theorem safeChar_of_isAlphanum {c : Char} (h : c.isAlphanum = true) : safeChar c = true := by
  rw [safeChar, h]
  rfl

theorem isEdge_of_isAlphanum {c : Char} (h : c.isAlphanum = true) : isEdge c = false := by
  refine Bool.eq_false_iff.mpr fun hedge => ?_
  rw [isEdge, Bool.or_eq_true, decide_eq_true_eq, decide_eq_true_eq] at hedge
  rcases hedge with rfl | rfl <;> cases h

theorem length_safeComponent (value : String) : (safeComponent value).length = value.length := by
  rw [safeComponent, String.length_ofList, List.length_map, String.length_toList]

theorem length_newRunId : (newRunId g target projectId).length =
    25 + target.length + projectId.length := by
  have hdash : ("-" : String).length = 1 := rfl
  simp only [newRunId, String.length_append, length_safeComponent, g.stampLength, g.suffixLength,
    hdash]
  omega

theorem toList_newRunId : (newRunId g target projectId).toList =
    g.stamp.toList ++ '-' :: (target.toList ++ '-' :: ((safeComponent projectId).toList ++
      '-' :: g.suffix.toList)) := by
  have hdash : ("-" : String).toList = ['-'] := rfl
  simp only [newRunId, String.toList_append, hdash, List.append_assoc, List.cons_append,
    List.nil_append]

theorem safe_newRunId : (∀ c ∈ (newRunId g target projectId).toList, safeChar c = true) ↔
    (∀ c ∈ target.toList, safeChar c = true) ∧
      ∀ c ∈ (safeComponent projectId).toList, safeChar c = true := by
  have hdash : safeChar '-' = true := rfl
  have hstamp := fun c hc => safeChar_of_isAlphanum (g.stampSafe c hc)
  have hsuffix := fun c hc => safeChar_of_isAlphanum (g.suffixSafe c hc)
  rw [toList_newRunId]
  simp only [List.forall_mem_append, List.forall_mem_cons]
  exact ⟨fun ⟨_, _, htarget, _, hproject, _⟩ => ⟨htarget, hproject⟩,
    fun ⟨htarget, hproject⟩ => ⟨hstamp, hdash, htarget, hdash, hproject, hdash, hsuffix⟩⟩

theorem newRunId_ends : (∀ c ∈ (newRunId g target projectId).toList.head?, c.isAlphanum = true) ∧
    ∀ c ∈ (newRunId g target projectId).toList.getLast?, c.isAlphanum = true := by
  rw [toList_newRunId]
  constructor
  · intro c hc
    cases hstamp : g.stamp.toList with
    | nil =>
      have hlength := g.stampLength
      rw [← String.length_toList, hstamp] at hlength
      cases hlength
    | cons d rest =>
      rw [hstamp, List.cons_append, List.head?_cons, Option.mem_some_iff] at hc
      refine g.stampSafe c ?_
      rw [hstamp, ← hc]
      exact List.mem_cons_self
  · intro c hc
    have hne : g.suffix.toList ≠ [] := by
      intro hnil
      have hlength := g.suffixLength
      rw [← String.length_toList, hnil] at hlength
      cases hlength
    refine g.suffixSafe c ?_
    have hsplit : g.stamp.toList ++ '-' :: (target.toList ++ '-' ::
        ((safeComponent projectId).toList ++ '-' :: g.suffix.toList)) =
        (g.stamp.toList ++ '-' :: (target.toList ++ '-' ::
          ((safeComponent projectId).toList ++ ['-']))) ++ g.suffix.toList := by
      simp only [List.append_assoc, List.cons_append, List.nil_append]
    rw [hsplit, List.getLast?_append_of_ne_nil _ hne] at hc
    exact List.mem_of_getLast? hc

theorem newRunId_settled (htarget : ∀ c ∈ target.toList, safeChar c = true)
    (hproject : ∀ c ∈ (safeComponent projectId).toList, safeChar c = true) :
    Settled (newRunId g target projectId) where
  safe := safe_newRunId.mpr ⟨htarget, hproject⟩
  first c hc := isEdge_of_isAlphanum (newRunId_ends.1 c hc)
  last c hc := isEdge_of_isAlphanum (newRunId_ends.2 c hc)

theorem newRunId_ne_empty : newRunId g target projectId ≠ "" := by
  intro h
  have hlength := congrArg String.length h
  rw [length_newRunId] at hlength
  have hzero : ("" : String).length = 0 := rfl
  omega

/-- The supervisor's run ids. -/
theorem safeRunId_eq_ok {u : Unit} : safeRunId (newRunId g target projectId) = .ok u ↔
    (∀ c ∈ target.toList, safeChar c = true) ∧
      (∀ c ∈ (safeComponent projectId).toList, safeChar c = true) ∧
      target.length + projectId.length ≤ 135 := by
  have hdots : newRunId g target projectId ≠ "." ∧ newRunId g target projectId ≠ ".." := by
    constructor <;>
    · intro h
      have hlength := congrArg String.length h
      rw [length_newRunId] at hlength
      have hone : (".").length = 1 := rfl
      have htwo : ("..").length = 2 := rfl
      omega
  have hne : newRunId g target projectId ≠ "" := newRunId_ne_empty
  rw [safeRunId, unit_bind_eq_ok, refuseIf_eq_ok, refuseIf_eq_ok, length_newRunId]
  simp only [hne, hdots.1, hdots.2, false_or, or_false, Bool.not_eq_true', Bool.not_eq_false,
    List.all_eq_true]
  rw [safe_newRunId]
  constructor
  · rintro ⟨hlength, htarget, hproject⟩
    exact ⟨htarget, hproject, by omega⟩
  · rintro ⟨htarget, hproject, hlength⟩
    exact ⟨by omega, htarget, hproject⟩

/-- The observer's job id is the run id up to 128 characters. -/
theorem observedJobId_eq_iff (htarget : ∀ c ∈ target.toList, safeChar c = true)
    (hproject : ∀ c ∈ (safeComponent projectId).toList, safeChar c = true) :
    observedJobId (newRunId g target projectId) = newRunId g target projectId ↔
      target.length + projectId.length ≤ 103 := by
  have hsettled := newRunId_settled (g := g) htarget hproject
  rw [observedJobId, hsettled.safeText newRunId_ne_empty]
  have hlength : (newRunId g target projectId).length = 25 + target.length + projectId.length :=
    length_newRunId
  constructor
  · intro h
    have hcut := congrArg String.length h
    rw [String.length_ofList, List.length_take, String.length_toList, hlength] at hcut
    omega
  · intro h
    rw [List.take_of_length_le (by rw [String.length_toList, hlength]; omega),
      String.ofList_toList]

end RunIds

/-! ## Observations -/

section Observations

theorem toNat_of_isAlphanum {c : Char} (h : c.isAlphanum = true) : c.toNat < 128 := by
  unfold Char.isAlphanum Char.isAlpha Char.isUpper Char.isLower Char.isDigit at h
  simp only [Bool.or_eq_true, Bool.and_eq_true, decide_eq_true_eq, UInt32.le_iff_toNat_le] at h
  change c.val.toNat < 128
  rcases h with (⟨_, h⟩ | ⟨_, h⟩) | ⟨_, h⟩
  · exact Nat.lt_of_le_of_lt h (by decide)
  · exact Nat.lt_of_le_of_lt h (by decide)
  · exact Nat.lt_of_le_of_lt h (by decide)

theorem toNat_of_safeChar {c : Char} (h : safeChar c = true) : c.toNat < 128 := by
  simp only [safeChar, Bool.or_eq_true, decide_eq_true_eq] at h
  rcases h with (((((h | rfl) | rfl) | rfl) | rfl) | rfl) | rfl
  · exact toNat_of_isAlphanum h
  all_goals decide

theorem escapeChar_of_safe {c : Char} (h : safeChar c = true) : escapeChar c = [c] := by
  have hall : ∀ n < 128, safeChar (Char.ofNat n) = true →
      escapeChar (Char.ofNat n) = [Char.ofNat n] := by decide +kernel
  have hchar := hall c.toNat (toNat_of_safeChar h)
  rw [Char.ofNat_toNat] at hchar
  exact hchar h

theorem safe_of_hex {c : Char} (h : isHexDigit c = true) : safeChar c = true := by
  refine safeChar_of_isAlphanum ?_
  simp only [isHexDigit, Bool.or_eq_true, Bool.and_eq_true, decide_eq_true_eq] at h
  unfold Char.isAlphanum Char.isAlpha Char.isLower
  simp only [Bool.or_eq_true, Bool.and_eq_true, decide_eq_true_eq]
  rcases h with h | ⟨hlow, hhigh⟩
  · exact Or.inr h
  · exact Or.inl (Or.inr ⟨hlow, Char.le_trans hhigh (by decide)⟩)

theorem length_quote {s : String} (h : ∀ c ∈ s.toList, safeChar c = true) :
    (quote s).length = s.length + 2 := by
  have hflat : s.toList.flatMap escapeChar = s.toList := by
    have hmap : s.toList.flatMap escapeChar = s.toList.flatMap fun c => [c] :=
      List.flatMap_congr fun c hc => escapeChar_of_safe (h c hc)
    rw [hmap, List.flatMap_singleton']
  rw [quote, hflat, List.length_cons, List.length_append, String.length_toList]
  rfl

theorem length_commaJoin_le (parts : List (List Char)) :
    (commaJoin parts).length ≤ (parts.map List.length).sum + parts.length := by
  induction parts with
  | nil => exact Nat.le_refl 0
  | cons part rest ih =>
    cases rest with
    | nil =>
      simp only [commaJoin, List.map_cons, List.map_nil, List.sum_cons, List.sum_nil,
        List.length_cons, List.length_nil]
      omega
    | cons next rest =>
      rw [commaJoin, List.length_append, List.length_cons, List.map_cons, List.sum_cons,
        List.length_cons]
      omega

/-- The text of an object is no longer than its members and a comma for each. -/
theorem length_dumps_obj_le (T : FloatText Unit) (members : List (String × Value Unit)) :
    (dumps T (.obj members)).length ≤
      (members.map fun m => (quote m.1).length + (dumps T m.2).length + 1).sum +
        members.length + 2 := by
  have hsum : (((sortMembers (dumpsMembers T members)).map memberText).map List.length).sum =
      (members.map fun m => (quote m.1).length + (dumps T m.2).length + 1).sum := by
    have hperm : (sortMembers (dumpsMembers T members)).Perm (dumpsMembers T members) :=
      List.perm_insertionSort _ _
    rw [((hperm.map memberText).map List.length).sum_eq, dumpsMembers_eq, List.map_map,
      List.map_map]
    congr 1
    refine List.map_congr_left fun m _ => ?_
    simp only [Function.comp_apply, memberText, List.length_append, List.length_cons]
    omega
  have hlength : ((sortMembers (dumpsMembers T members)).map memberText).length =
      members.length := by
    rw [List.length_map, sortMembers, List.length_insertionSort, dumpsMembers_eq, List.length_map]
  have hjoin := length_commaJoin_le ((sortMembers (dumpsMembers T members)).map memberText)
  rw [hsum, hlength] at hjoin
  rw [dumps, List.length_cons, List.length_append, List.length_cons, List.length_nil]
  omega

/-- What every observation keeps to. -/
structure Bounded (value : String) (limit : Nat) : Prop where
  ne : value ≠ ""
  length : value.length ≤ limit
  safe : ∀ c ∈ value.toList, safeChar c = true

theorem Bounded.boundedText {value : String} {limit : Nat} (h : Bounded value limit)
    (name : String) : boundedText value name limit = .ok () := by
  rw [Durable.boundedText, unit_bind_eq_ok, refuseIf_eq_ok, refuseIf_eq_ok]
  refine ⟨not_or.mpr ⟨h.ne, Nat.not_lt.mpr h.length⟩, ?_⟩
  rw [Bool.not_eq_true', Bool.not_eq_false, List.all_eq_true]
  exact h.safe

theorem bounded_safeText {value fallback : String} {limit : Nat} (hlimit : 0 < limit)
    (hne : fallback ≠ "") (hsafe : fallback.toList.all safeChar = true) :
    Bounded (safeText value fallback limit) limit :=
  ⟨safeText_ne_empty hne hlimit, length_safeText_le _ _ _, safe_safeText (List.all_eq_true.mp hsafe)⟩

theorem bounded_commandLabel (names : PathNames) (command : List String)
    (declared : Option String) : Bounded (commandLabel names command declared) 64 := by
  unfold commandLabel
  split <;> exact bounded_safeText (by decide) (by decide) (by decide)

variable (H : Host) (x : Launch)

/-- The observer reads every observation the controller makes. -/
theorem decodeMetadata_observation : decodeMetadata (x.observation H) = .ok (x.observation H) := by
  have hjob : Bounded (x.observation H).jobId 128 :=
    bounded_safeText (by decide) (by decide) (by decide)
  have hproject : Bounded (x.observation H).project 128 :=
    bounded_safeText (by decide) (by decide) (by decide)
  have hcontroller : Bounded (x.observation H).sourceController 64 :=
    bounded_safeText (by decide) (by decide) (by decide)
  have htarget : Bounded (x.observation H).target 64 :=
    bounded_safeText (by decide) (by decide) (by decide)
  have hphase : Bounded (x.observation H).phase 32 :=
    bounded_safeText (by decide) (by decide) (by decide)
  have hlabel : Bounded (x.observation H).commandLabel 64 := bounded_commandLabel ..
  obtain ⟨hdigest, hhex⟩ := H.commandDigestHex x.command
  have hsha : Bounded (x.observation H).commandSha256 64 := by
    refine ⟨?_, Nat.le_of_eq hdigest, fun c hc => safe_of_hex (hhex c hc)⟩
    intro hempty
    change H.commandDigest x.command = "" at hempty
    rw [hempty] at hdigest
    cases hdigest
  have hsize : ¬ 4096 < (x.observation H).encodedLength := by
    have hkeys : ∀ key ∈ ["schema", "job_id", "project", "source_controller", "target", "phase",
        "command_label", "command_sha256", "member_count"], (quote key).length ≤ 19 := by
      decide
    simp only [List.forall_mem_cons] at hkeys
    obtain ⟨h₁, h₂, h₃, h₄, h₅, h₆, h₇, h₈, h₉, _⟩ := hkeys
    have hone : (dumps noNumbers (.int 1)).length = 1 := by decide
    have htext (s : String) : dumps noNumbers (.str s) = quote s := rfl
    have hlength := length_dumps_obj_le noNumbers [("schema", .int 1),
      ("job_id", .str (x.observation H).jobId), ("project", .str (x.observation H).project),
      ("source_controller", .str (x.observation H).sourceController),
      ("target", .str (x.observation H).target), ("phase", .str (x.observation H).phase),
      ("command_label", .str (x.observation H).commandLabel),
      ("command_sha256", .str (x.observation H).commandSha256), ("member_count", .int 1)]
    simp only [List.map_cons, List.map_nil, List.sum_cons, List.sum_nil, List.length_cons,
      List.length_nil, htext, hone, length_quote hjob.safe, length_quote hproject.safe,
      length_quote hcontroller.safe, length_quote htarget.safe, length_quote hphase.safe,
      length_quote hlabel.safe, length_quote hsha.safe] at hlength
    have hjob' := hjob.length
    have hproject' := hproject.length
    have hcontroller' := hcontroller.length
    have htarget' := htarget.length
    have hphase' := hphase.length
    have hlabel' := hlabel.length
    have hsha' := hsha.length
    change ¬ 4096 < 4 * (((dumps noNumbers (x.observation H).payload).length + 2) / 3)
    have hpayload : (dumps noNumbers (x.observation H).payload).length ≤ 800 := by
      refine Nat.le_trans hlength ?_
      omega
    omega
  simp only [decodeMetadata, unit_bind_eq_ok, refuseIf_eq_ok]
  have hcount : ¬ ((1 : Nat) < 1 ∨ 100000 < 1) := by decide
  refine ⟨hsize, ?_, hcount, hjob.boundedText _, hproject.boundedText _,
    hcontroller.boundedText _, htarget.boundedText _, hphase.boundedText _, hlabel.boundedText _,
    trivial⟩
  refine not_or.mpr ⟨not_not.mpr hdigest, ?_⟩
  rw [Bool.not_eq_true', Bool.not_eq_false, List.all_eq_true]
  exact hhex

end Observations

/-! ## Paths -/

section Paths
variable {x : Launch} {root : String}

theorem toList_rstripSlashes (path : String) :
    (rstripSlashes path).toList = path.toList.rdropWhile (· = '/') := by
  rw [rstripSlashes, String.toList_ofList]

/-- A state root has no slash at its end. -/
theorem jobStateRoot_ne (h : x.jobStateRoot = .ok root) : root ≠ "" ∧ root ≠ "/" := by
  unfold Launch.jobStateRoot at h
  simp only at h
  split at h
  · cases h
  · rename_i hne
    split at h
    · cases h
    · cases h
      refine ⟨hne, fun hslash => ?_⟩
      have hlist := congrArg String.toList hslash
      rw [toList_rstripSlashes] at hlist
      have hlast := List.rdropWhile_last_not (fun c : Char => decide (c = '/'))
        (x.expandRemote x.stateRoot).toList (by rw [hlist]; exact nofun)
      simp only [hlist] at hlast
      exact hlast rfl

theorem joinPath_of_ne {base : String} (h : base ≠ "/") (name : String) :
    joinPath base name = base ++ "/" ++ name := if_neg h

theorem append_ne_slash (base : String) {name : String} (h : 1 < name.length) :
    base ++ name ≠ "/" := by
  intro heq
  have hlength := congrArg String.length heq
  rw [String.length_append] at hlength
  have hone : ("/").length = 1 := rfl
  omega

/-- The controller's paths are the supervisor's just in case the root is its own resolution. -/
theorem runPath_eq_iff (hroot : x.jobStateRoot = .ok root) (resolved name : String) :
    x.runPath root name = joinPath (runDir resolved x.runId) name ↔ resolved = root := by
  obtain ⟨hne, hslash⟩ := jobStateRoot_ne hroot
  have hjoined : joinPath (runDir resolved x.runId) name =
      joinPath resolved "durable-runs" ++ "/" ++ x.runId ++ "/" ++ name := by
    have hruns : joinPath resolved "durable-runs" ≠ "/" := by
      unfold joinPath
      split <;> exact append_ne_slash _ (by decide)
    have hdir : runDir resolved x.runId ≠ "/" := by
      rw [runDir, joinPath_of_ne hruns]
      refine append_ne_slash _ ?_
      rw [Launch.runId, length_newRunId]
      omega
    rw [joinPath_of_ne hdir, runDir, joinPath_of_ne hruns]
  rw [hjoined, Launch.runPath]
  have hcancel (a : String) : root ++ "/durable-runs/" ++ x.runId ++ "/" ++ name =
      a ++ "/" ++ x.runId ++ "/" ++ name ↔ root ++ "/durable-runs" = a := by
    have hslashes : root ++ "/durable-runs/" = root ++ "/durable-runs" ++ "/" := by
      rw [String.append_assoc]
      rfl
    rw [hslashes, String.append_left_inj, String.append_left_inj, String.append_left_inj,
      String.append_left_inj]
  rw [hcancel]
  by_cases hresolved : resolved = "/"
  · subst hresolved
    constructor
    · intro heq
      have hempty : root ++ "/durable-runs" = "" ++ "/durable-runs" := heq
      exact absurd ((String.append_left_inj _).mp hempty) hne
    · exact fun heq => absurd heq.symm hslash
  · have hruns : joinPath resolved "durable-runs" = resolved ++ "/durable-runs" := by
      rw [joinPath_of_ne hresolved, String.append_assoc]
      rfl
    rw [hruns, String.append_left_inj]
    exact eq_comm

end Paths

/-! ## The condition -/

/-- What the supervisor asks of an acceptance. -/
structure TargetAcceptance.Valid (H : Host) (x : Launch) (a : TargetAcceptance) : Prop where
  operation : a.operationId = x.runId
  request : a.requestSha256.length = 64 ∧ H.parsesHex a.requestSha256 = true
  runner : isAbs a.runnerPath = true
  stateRoot : isAbs a.stateRoot = true
  allocation : a.reservation.allocationId ≠ ""
  fence : 0 ≤ a.reservation.fence
  generation : 0 ≤ a.reservation.policyGeneration
  policy : a.reservation.policyDigest.length = 64

/-- And the observer finds the files of the start in the run's directory. -/
structure TargetAcceptance.Fits (H : Host) (x : Launch) (root : String) (a : TargetAcceptance) :
    Prop extends a.Valid H x where
  gate : H.underRoot (x.runPath root "start-gate.json") root = true
  started : H.underRoot (x.runPath root "started.json") root = true

/-- No bound of supervisor or observer changes or refuses a part of the run. -/
structure Launch.Aligned (H : Host) (x : Launch) (root : String) : Prop where
  absolute : isAbs root = true
  short : root.length ≤ 4096
  resolved : H.resolve root = root
  under : H.underRoot (x.runPath root "observer-ready.json") root = true
  target : Settled x.target
  targetNe : x.target ≠ ""
  targetShort : x.target.length ≤ 64
  project : ∀ c ∈ (safeComponent x.projectId).toList, safeChar c = true
  projectNe : x.projectId ≠ ""
  runShort : x.target.length + x.projectId.length ≤ 103
  controller : safeText x.controller "controller" 64 = x.controller
  argv : validateArgv (x.spec H root).argv = .ok ()
  size : (x.spec H root).bytes ≤ maxSpecBytes
  logs : 0 ≤ x.maxLogBytes ∧ x.maxLogBytes ≤ logBytesLimit
  acceptance : ∀ a, x.targetAcceptance = some a → a.Fits H x root

/-- The renewal is refused, or all parts of the run are aligned. -/
def Launch.Coherent (H : Host) (x : Launch) : Prop :=
  ∃ root, x.jobStateRoot = .ok root ∧
    ((∃ detail, x.guard = .refused detail) ∨ x.Aligned H root)

/-! ## Each party's checks -/

section Checks
variable {H : Host} {x : Launch} {root : String}

theorem bytes_ge_two (s : Spec) : 2 ≤ s.bytes := by
  have hpos (c : Char) : 1 ≤ c.utf8Size := Char.utf8Size_pos c
  rw [Spec.bytes, Spec.text, rawObject, List.map_cons, List.map_append, List.sum_cons,
    List.sum_append, List.map_singleton, List.sum_singleton]
  have hopen := hpos '{'
  have hclose := hpos '}'
  omega

theorem hexDigest_eq_ok {digest detail : String} {u : Unit} :
    hexDigest H digest detail = .ok u ↔ digest.length = 64 ∧ H.parsesHex digest = true := by
  rw [hexDigest, refuseIf_eq_ok, not_or, not_not, Bool.not_eq_true', Bool.not_eq_false]

theorem boundedField_eq_ok {field value : String} {limit : Nat} {u : Unit} :
    boundedField field value limit = .ok u ↔ value ≠ "" ∧ value.length ≤ limit := by
  rw [boundedField, refuseIf_eq_ok, not_or, Nat.not_lt]

theorem bounded_controller (x : Launch) : Bounded x.controller 64 :=
  bounded_safeText (by decide) (by decide) (by decide)

/-- The acceptance that `launch_durable` makes out of the caller's. -/
def Launch.acceptance (x : Launch) (root : String) (a : TargetAcceptance) : Acceptance :=
  { a with
    startGatePath := x.runPath root "start-gate.json"
    startedPath := x.runPath root "started.json" }

theorem spec_acceptance (H : Host) (x : Launch) (root : String) :
    (x.spec H root).acceptance = x.targetAcceptance.map (x.acceptance root) := rfl

theorem validateAcceptance_eq_ok (hroot : x.jobStateRoot = .ok root) {resolved : String}
    {a : TargetAcceptance} {u : Unit} :
    validateAcceptance H resolved (x.spec H root) (x.acceptance root a) = .ok u ↔
      a.Valid H x ∧ resolved = root := by
  have hrun : (x.spec H root).runId = x.runId := rfl
  simp only [validateAcceptance, unit_bind_eq_ok, refuseIf_eq_ok, hexDigest_eq_ok, hrun, not_not,
    Bool.not_eq_true', Bool.not_eq_false, Int.not_lt, ne_eq]
  simp only [Launch.acceptance, runPath_eq_iff hroot]
  constructor
  · rintro ⟨hop, hreq, hrunner, hstate, halloc, hfence, hgen, hpolicy, hresolved, _⟩
    exact ⟨⟨hop, hreq, hrunner, hstate, halloc, hfence, hgen, hpolicy⟩, hresolved⟩
  · rintro ⟨⟨hop, hreq, hrunner, hstate, halloc, hfence, hgen, hpolicy⟩, hresolved⟩
    exact ⟨hop, hreq, hrunner, hstate, halloc, hfence, hgen, hpolicy, hresolved, hresolved⟩

theorem validateSpec_eq_ok (hroot : x.jobStateRoot = .ok root) {resolved : String} :
    validateSpec H resolved (x.spec H root) = .ok () ↔
      ((∀ c ∈ x.target.toList, safeChar c = true) ∧
        (∀ c ∈ (safeComponent x.projectId).toList, safeChar c = true) ∧
        x.target.length + x.projectId.length ≤ 135) ∧
      (x.projectId ≠ "" ∧ x.projectId.length ≤ 256) ∧ (x.target ≠ "" ∧ x.target.length ≤ 64) ∧
      validateArgv (x.spec H root).argv = .ok () ∧
      (0 ≤ x.maxLogBytes ∧ x.maxLogBytes ≤ logBytesLimit) ∧ resolved = root ∧
      ∀ a, x.targetAcceptance = some a → a.Valid H x := by
  have hrun : safeRunId (x.spec H root).runId = .ok () ↔
      (∀ c ∈ x.target.toList, safeChar c = true) ∧
        (∀ c ∈ (safeComponent x.projectId).toList, safeChar c = true) ∧
        x.target.length + x.projectId.length ≤ 135 := safeRunId_eq_ok
  have hcontroller : boundedField "controller" (x.spec H root).controller 64 = .ok () :=
    boundedField_eq_ok.mpr ⟨(bounded_controller x).ne, (bounded_controller x).length⟩
  have hdigest : hexDigest H (x.spec H root).commandSha256 "command_sha256 is invalid" = .ok () := by
    obtain ⟨hlength, hhex⟩ := H.commandDigestHex x.command
    exact hexDigest_eq_ok.mpr ⟨hlength, H.parsesHexDigits _ hlength hhex⟩
  have hready : (x.spec H root).readyPath = joinPath (runDir resolved (x.spec H root).runId)
      "observer-ready.json" ↔ resolved = root := runPath_eq_iff hroot _ _
  have hlogs : ¬ ((x.spec H root).maxLogBytes < 0 ∨ logBytesLimit < (x.spec H root).maxLogBytes) ↔
      0 ≤ x.maxLogBytes ∧ x.maxLogBytes ≤ logBytesLimit := by
    rw [not_or, Int.not_lt, Int.not_lt]
    rfl
  have hacceptance : ((x.spec H root).acceptance.elim (.ok ())
      (validateAcceptance H resolved (x.spec H root)) : Except String Unit) = .ok () ↔
      ∀ a, x.targetAcceptance = some a → a.Valid H x ∧ resolved = root := by
    rw [spec_acceptance]
    cases x.targetAcceptance with
    | none => exact ⟨fun _ a h => absurd h nofun, fun _ => rfl⟩
    | some a =>
      rw [Option.map_some, Option.elim_some, validateAcceptance_eq_ok hroot]
      simp only [Option.some.injEq, forall_eq']
  rw [validateSpec]
  simp only [unit_bind_eq_ok, refuseIf_eq_ok, hlogs, hrun, hcontroller, hdigest, hacceptance,
    boundedField_eq_ok, hready, not_not, ne_eq, true_and]
  constructor
  · rintro ⟨hid, hproject, htarget, hargv, hlog, hresolved, haccept⟩
    exact ⟨hid, hproject, htarget, hargv, hlog, hresolved, fun a ha => (haccept a ha).1⟩
  · rintro ⟨hid, hproject, htarget, hargv, hlog, hresolved, haccept⟩
    exact ⟨hid, hproject, htarget, hargv, hlog, hresolved, fun a ha => ⟨haccept a ha, hresolved⟩⟩

theorem launch_eq_ok : launch H root (x.spec H root) = .ok () ↔
    (x.spec H root).bytes ≤ maxSpecBytes ∧
      validateSpec H (H.resolve root) (x.spec H root) = .ok () := by
  have hbytes : ¬ (x.spec H root).bytes < 2 := Nat.not_lt.mpr (bytes_ge_two _)
  have htoken : ¬ ((x.spec H root).resumeToken = "" ∨ 256 < (x.spec H root).resumeToken.length) := by
    have hlength : (x.spec H root).resumeToken.length = 43 := x.generated.tokenLength
    refine not_or.mpr ⟨fun hempty => ?_, by omega⟩
    rw [hempty] at hlength
    cases hlength
  rw [launch, unit_bind_eq_ok, unit_bind_eq_ok, refuseIf_eq_ok, refuseIf_eq_ok, not_or, Nat.not_lt]
  exact ⟨fun ⟨⟨_, hsize⟩, _, hvalid⟩ => ⟨Nat.not_lt.mp hsize, hvalid⟩,
    fun ⟨hsize, hvalid⟩ => ⟨⟨Nat.not_lt.mp hbytes, Nat.not_lt.mpr hsize⟩, htoken, hvalid⟩⟩

end Checks

/-! ## The records -/

section Records
variable {H : Host} {x : Launch} {root : String}

theorem controlPath_eq_ok {path label : String} {u : Unit} :
    controlPath H root path label = .ok u ↔ H.underRoot path root = true := by
  rw [controlPath, refuseIf_eq_ok, Bool.not_eq_true', Bool.not_eq_false]

/-- The observer writes its ready record if it can use the state root. -/
theorem observeReady_eq_ok {path : String} {ready : ControlRecord} :
    observeReady H root (x.observation H) path = .ok ready ↔
      (root ≠ "" ∧ '\x00' ∉ root.toList ∧ root.length ≤ 4096 ∧ isAbs root = true) ∧
      H.underRoot path root = true ∧ ready = (x.observation H).control := by
  have hobserver : observerRoot root = .ok () ↔
      root ≠ "" ∧ '\x00' ∉ root.toList ∧ root.length ≤ 4096 ∧ isAbs root = true := by
    rw [observerRoot, unit_bind_eq_ok, refuseIf_eq_ok, refuseIf_eq_ok, not_or, not_or, Nat.not_lt,
      Bool.not_eq_true', Bool.not_eq_false]
    exact ⟨fun ⟨⟨hne, hnul, hshort⟩, habs⟩ => ⟨hne, hnul, hshort, habs⟩,
      fun ⟨hne, hnul, hshort, habs⟩ => ⟨⟨hne, hnul, hshort⟩, habs⟩⟩
  rw [observeReady, unit_bind_eq_ok, hobserver, decodeMetadata_observation]
  refine and_congr_right fun _ => ?_
  change (controlPath H root path "ready" >>= fun _ => .ok (x.observation H).control) = .ok ready ↔ _
  rw [unit_bind_eq_ok, controlPath_eq_ok, Except.ok.injEq, eq_comm (b := ready)]

theorem readyValid_iff : readyValid (x.observation H).control (x.spec H root) = true ↔
    (x.observation H).control = (x.spec H root).control := by
  rw [readyValid, Bool.and_eq_true, decide_eq_true_eq, decide_eq_true_eq, ControlRecord.mk.injEq]
  rfl

theorem control_eq_iff : (x.observation H).control = (x.spec H root).control ↔
    observedJobId x.runId = x.runId := by
  rw [JobObservation.control, Spec.control, ControlRecord.mk.injEq]
  exact ⟨fun h => h.1, fun h => ⟨h, rfl⟩⟩

/-- Once the ready record is accepted, so are the start gate and the started record. -/
theorem startGated_eq_ok (hcontrol : (x.observation H).control = (x.spec H root).control)
    {a : TargetAcceptance} {u : Unit} :
    startGated H root (x.observation H) (x.spec H root) (x.acceptance root a) = .ok u ↔
      H.underRoot (x.runPath root "start-gate.json") root = true ∧
        H.underRoot (x.runPath root "started.json") root = true := by
  have hgate : waitStartGate H root (x.acceptance root a).startGatePath (x.observation H)
      (x.spec H root).control = .ok () ↔
        H.underRoot (x.runPath root "start-gate.json") root = true := by
    rw [waitStartGate, unit_bind_eq_ok, controlPath_eq_ok, refuseIf_eq_ok, not_not]
    exact ⟨fun h => h.1, fun h => ⟨h, hcontrol.symm⟩⟩
  have hvalid := readyValid_iff.mpr hcontrol
  rw [startGated, unit_bind_eq_ok, hgate]
  refine and_congr_right fun _ => ?_
  rw [except_bind_eq_ok]
  constructor
  · rintro ⟨started, hstarted, _⟩
    rw [writeStarted, unit_bind_eq_ok, controlPath_eq_ok] at hstarted
    exact hstarted.1
  · intro hunder
    refine ⟨(x.observation H).control, ?_, ?_⟩
    · rw [writeStarted, unit_bind_eq_ok, controlPath_eq_ok]
      exact ⟨hunder, rfl⟩
    · rw [refuseIf_eq_ok, hvalid]
      exact Bool.false_ne_true

theorem runningObservationMatches_eq_ok {u : Unit} :
    runningObservationMatches (x.spec H root) (x.observation H) = .ok u ↔
      safeText x.controller "controller" 64 = x.controller ∧
        safeText x.target "target" 64 = x.target := by
  simp only [runningObservationMatches, unit_bind_eq_ok, refuseIf_eq_ok, not_not, ne_eq]
  exact ⟨fun h => ⟨h.2.1, h.2.2.1⟩, fun h => ⟨rfl, h.1, h.2, rfl⟩⟩

/-- Each check in turn. -/
theorem supervised_eq_running_iff : x.supervised H root = .running ↔
    launch H root (x.spec H root) = .ok () ∧
    observeReady H root (x.observation H) (x.spec H root).readyPath =
      .ok (x.observation H).control ∧
    readyValid (x.observation H).control (x.spec H root) = true ∧
    ((x.spec H root).acceptance.elim (.ok ())
      (startGated H root (x.observation H) (x.spec H root)) : Except String Unit) = .ok () ∧
    runningObservationMatches (x.spec H root) (x.observation H) = .ok () := by
  unfold Launch.supervised
  simp only
  constructor
  · intro h
    split at h
    · cases h
    · rename_i hlaunch
      split at h
      · cases h
      · rename_i ready hready
        obtain rfl := (observeReady_eq_ok.mp hready).2.2
        split at h
        · cases h
        · rename_i hvalid
          split at h
          · cases h
          · rename_i hstart
            split at h
            · cases h
            · rename_i hmatch
              rw [Bool.not_eq_true', Bool.not_eq_false] at hvalid
              exact ⟨hlaunch, hready, hvalid, hstart, hmatch⟩
  · rintro ⟨hlaunch, hready, hvalid, hstart, hmatch⟩
    rw [hlaunch, hready]
    simp only [hvalid, Bool.not_true, Bool.false_eq_true, if_false, hstart, hmatch]

end Records

/-! ## Agreement -/

section Agreement
variable {H : Host} {x : Launch} {root : String}

/-- The state root is a token of the argv. -/
theorem noNul_of_validateArgv (h : validateArgv (x.spec H root).argv = .ok ()) :
    '\x00' ∉ root.toList := by
  have hmem : root ∈ (x.spec H root).argv := by
    refine List.mem_append_right _ (List.mem_append_left _ (List.mem_append_left _ ?_))
    simp only [List.mem_cons, true_or, or_true]
  simp only [validateArgv, unit_bind_eq_ok, refuseIf_eq_ok, Bool.not_eq_true', Bool.not_eq_false,
    List.all_eq_true] at h
  have htoken := h.2.1 root hmem
  rw [validToken, Bool.and_eq_true, Bool.not_eq_true', ← Bool.not_eq_true, List.contains_iff_mem]
    at htoken
  exact htoken.1

theorem supervised_eq_running (hroot : x.jobStateRoot = .ok root) :
    x.supervised H root = .running ↔ x.Aligned H root := by
  obtain ⟨hne, _⟩ := jobStateRoot_ne hroot
  rw [supervised_eq_running_iff, launch_eq_ok, validateSpec_eq_ok hroot, observeReady_eq_ok,
    readyValid_iff, control_eq_iff, runningObservationMatches_eq_ok]
  constructor
  · rintro ⟨⟨hsize, ⟨htarget, hproject, _⟩, ⟨hprojectNe, _⟩, ⟨htargetNe, htargetShort⟩, hargv,
      hlogs, hresolved, hvalid⟩, ⟨⟨_, _, hshort, habs⟩, hunder, _⟩, hid, hstart, hcontroller,
      hlabel⟩
    have hcontrol : (x.observation H).control = (x.spec H root).control := control_eq_iff.mpr hid
    refine ⟨habs, hshort, hresolved, hunder, ?_, htargetNe, htargetShort, hproject, hprojectNe, ?_,
      hcontroller, hargv, hsize, hlogs, fun a ha => ?_⟩
    · exact (safeText_eq_iff htarget htargetNe htargetShort (head_not_edge rfl rfl)
        (by decide)).mp hlabel
    · exact (observedJobId_eq_iff htarget hproject).mp hid
    · rw [spec_acceptance, ha, Option.map_some, Option.elim_some, startGated_eq_ok hcontrol]
        at hstart
      exact ⟨hvalid a ha, hstart.1, hstart.2⟩
  · intro h
    have hid := (observedJobId_eq_iff (g := x.generated) h.target.safe h.project).mpr h.runShort
    have hcontrol : (x.observation H).control = (x.spec H root).control := control_eq_iff.mpr hid
    have hruns := h.runShort
    refine ⟨⟨h.size, ⟨h.target.safe, h.project, by omega⟩, ⟨h.projectNe, by omega⟩,
      ⟨h.targetNe, h.targetShort⟩, h.argv, h.logs, h.resolved,
      fun a ha => (h.acceptance a ha).toValid⟩,
      ⟨⟨hne, noNul_of_validateArgv h.argv, h.short, h.absolute⟩, h.under, rfl⟩, hid, ?_,
      h.controller, ?_⟩
    · rw [spec_acceptance]
      cases ha : x.targetAcceptance with
      | none => rfl
      | some a =>
        rw [Option.map_some, Option.elim_some, startGated_eq_ok hcontrol]
        exact ⟨(h.acceptance a ha).gate, (h.acceptance a ha).started⟩
    · exact (safeText_eq_iff h.target.safe h.targetNe h.targetShort (head_not_edge rfl rfl)
        (by decide)).mpr h.target

/-- Only a refused renewal is recorded as not started. -/
theorem supervised_ne_notStarted (detail : String) : x.supervised H root ≠ .notStarted detail := by
  unfold Launch.supervised
  simp only
  repeat' split
  all_goals exact nofun

theorem agrees_iff (hroot : x.jobStateRoot = .ok root) (hguard : ∀ detail, x.guard ≠ .refused detail)
    (hrecorded : x.recorded H = x.supervised H root) : x.Agrees H ↔ x.Coherent H := by
  have hleft : x.Agrees H ↔ x.supervised H root = .running := by
    rw [Launch.Agrees, hrecorded]
    exact or_iff_left fun ⟨detail, h⟩ => supervised_ne_notStarted detail h
  have hright : x.Coherent H ↔ x.Aligned H root := by
    constructor
    · rintro ⟨root', hroot', hrefused | haligned⟩
      · obtain ⟨detail, hrefused⟩ := hrefused
        exact absurd hrefused (hguard detail)
      · rw [hroot, Except.ok.injEq] at hroot'
        rwa [hroot']
    · exact fun haligned => ⟨root, hroot, Or.inr haligned⟩
  rw [hleft, hright, supervised_eq_running hroot]

end Agreement

/-! ## A run id of 129 characters -/

/-- A target without symbolic links below its state root. -/
def plainHost : Host where
  commandDigest _ := "840a81f15ea72b48ff9ba7435183ff33abf3d9514622f48f471d6fb18e428cdd"
  commandDigestHex _ := ⟨by decide, List.all_eq_true.mp (by decide)⟩
  parsesHex text := text.toList.all isHexDigit
  parsesHexDigits _ _ h := List.all_eq_true.mpr h
  resolve path := path
  underRoot path root := (root ++ "/").toList.isPrefixOf path.toList
  names := ⟨id, id⟩

/-- `make` on the device `box`, in a project whose id has 101 characters. -/
def longLaunch : Launch where
  generated :=
    { stamp := "20260101T000000Z"
      suffix := "0a1b2c"
      resumeToken := "abcdefghijklmnopqrstuvwxyzABCDEFGHIJKLMNOPQ"
      stampLength := by decide
      stampSafe := List.all_eq_true.mp (by decide)
      suffixLength := by decide
      suffixSafe := List.all_eq_true.mp (by decide)
      tokenLength := by decide }
  node := "desk"
  target := "box"
  projectId := String.ofList (List.replicate 101 'p')
  command := ["make"]
  commandNe := List.cons_ne_nil _ _
  declaredLabel := none
  cwd := "/work/project"
  env := []
  pathPrepend := []
  stateRoot := "/var/remrun"
  remoteHome := none
  remotePython := none
  shell := "/bin/sh"
  loginShell := false
  observerDigest := "0123456789abcdef"
  guard := .none
  telemetryArgs := []
  maxLogBytes := 1048576
  createdAt := "2026-01-01T00:00:00Z"
  targetAcceptance := none

end Remrun.Durable
