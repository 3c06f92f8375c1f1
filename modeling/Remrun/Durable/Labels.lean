import Mathlib.Data.List.DropRight
import Remrun.Lib.JsonText

/-!
# Labels and run ids

The controller bounds every text of an observation to a small alphabet and a length
(`job_observation.py`), makes run ids from device names and project ids (`state.py`), and the
supervisor and the observer on the target accept texts of that alphabet and of their own lengths.
A text that fits is kept as it is; any other text becomes a different one.
-/

namespace Remrun.Durable

open JsonText
set_option autoImplicit false

/-! ## Safe texts -/

/-- The alphabet `[A-Za-z0-9._:@+-]`. -/
def safeChar (c : Char) : Bool :=
  c.isAlphanum || c = '.' || c = '_' || c = ':' || c = '@' || c = '+' || c = '-'

/-- `str.strip()` takes these off. -/
def spaces : List Char := ['\t', '\n', '\x0b', '\x0c', '\r', '\x1c', '\x1d', '\x1e', '\x1f', ' ',
  '\x85', '\xa0', '\u1680', '\u2000', '\u2001', '\u2002', '\u2003', '\u2004', '\u2005', '\u2006',
  '\u2007', '\u2008', '\u2009', '\u200a', '\u2028', '\u2029', '\u202f', '\u205f', '\u3000']

/-- `text.strip(chars)`. -/
def stripEnds (p : Char → Bool) (text : List Char) : List Char := (text.dropWhile p).rdropWhile p

/-- `_SAFE.sub("_", text)`: every run of other characters becomes one underscore. -/
def subUnsafe : List Char → Bool → List Char
  | [], _ => []
  | c :: rest, inRun =>
    if safeChar c then c :: subUnsafe rest false
    else if inRun then subUnsafe rest true
    else '_' :: subUnsafe rest true

def isEdge (c : Char) : Bool := c = '_' || c = '.'

/-- `_safe_text`. -/
def safeText (value fallback : String) (limit : Nat) : String :=
  let text := stripEnds isEdge (subUnsafe (stripEnds (· ∈ spaces) value.toList) false)
  String.ofList ((if text = [] then fallback.toList else text).take limit)

/-- Safe characters only, none of them `_` or `.` at an end. -/
structure Settled (value : String) : Prop where
  safe : ∀ c ∈ value.toList, safeChar c = true
  first : ∀ c ∈ value.toList.head?, isEdge c = false
  last : ∀ c ∈ value.toList.getLast?, isEdge c = false

section Texts
variable {p : Char → Bool} {text : List Char}

theorem stripEnds_of_none (h : ∀ c ∈ text, p c = false) : stripEnds p text = text := by
  have hdrop : text.dropWhile p = text := by
    rw [List.dropWhile_eq_self_iff]
    intro hpos
    rw [h _ (List.getElem_mem hpos)]
    exact Bool.false_ne_true
  rw [stripEnds, hdrop, List.rdropWhile_eq_self_iff]
  intro hne
  rw [h _ (List.getLast_mem hne)]
  exact Bool.false_ne_true

theorem stripEnds_eq_self_iff : stripEnds p text = text ↔
    (∀ c ∈ text.head?, p c = false) ∧ ∀ c ∈ text.getLast?, p c = false := by
  constructor
  · intro h
    have hlength : (text.dropWhile p).length = text.length := by
      refine Nat.le_antisymm ((List.dropWhile_sublist p).length_le) ?_
      calc text.length = (stripEnds p text).length := by rw [h]
        _ ≤ (text.dropWhile p).length := (List.rdropWhile_prefix p _).length_le
    have hdrop : text.dropWhile p = text :=
      (List.dropWhile_suffix p).eq_of_length hlength
    rw [stripEnds, hdrop, List.rdropWhile_eq_self_iff] at h
    rw [List.dropWhile_eq_self_iff] at hdrop
    constructor
    · intro c hc
      cases text with
      | nil => cases hc
      | cons d rest =>
        cases hc
        exact Bool.eq_false_iff.mpr (hdrop (Nat.zero_lt_succ _))
    · intro c hc
      have hne : text ≠ [] := by
        rintro rfl
        cases hc
      rw [List.getLast?_eq_some_getLast hne] at hc
      cases hc
      exact Bool.eq_false_iff.mpr (h hne)
  · rintro ⟨hfirst, hlast⟩
    have hdrop : text.dropWhile p = text := by
      rw [List.dropWhile_eq_self_iff]
      intro hpos
      cases text with
      | nil => cases hpos
      | cons d rest => exact Bool.eq_false_iff.mp (hfirst d rfl)
    rw [stripEnds, hdrop, List.rdropWhile_eq_self_iff]
    intro hne
    exact Bool.eq_false_iff.mp (hlast _ (List.getLast?_eq_some_getLast hne))

theorem stripEnds_eq_nil (h : stripEnds p text = []) : ∀ c ∈ text, p c = true := by
  rw [stripEnds, List.rdropWhile_eq_nil_iff] at h
  cases hdrop : text.dropWhile p with
  | nil => exact List.dropWhile_eq_nil_iff.mp hdrop
  | cons d rest =>
    have hhead : p d = true := h d (by rw [hdrop]; exact List.mem_cons_self)
    have hneg := List.dropWhile_get_zero_not p text (by rw [hdrop]; exact Nat.zero_lt_succ _)
    simp only [hdrop, List.get_eq_getElem, List.getElem_cons_zero] at hneg
    exact absurd hhead hneg

theorem mem_stripEnds {c : Char} (h : c ∈ stripEnds p text) : c ∈ text :=
  (List.dropWhile_sublist p).subset ((List.rdropWhile_prefix p _).subset h)

theorem length_stripEnds_le : (stripEnds p text).length ≤ text.length :=
  Nat.le_trans (List.rdropWhile_prefix p _).length_le ((List.dropWhile_sublist p).length_le)

theorem safe_subUnsafe (text : List Char) (inRun : Bool) :
    ∀ c ∈ subUnsafe text inRun, safeChar c = true := by
  induction text generalizing inRun with
  | nil => exact fun _ hc => nomatch hc
  | cons d rest ih =>
    intro c hc
    rw [subUnsafe] at hc
    split at hc
    · rename_i hsafe
      rcases List.mem_cons.mp hc with rfl | hc
      · exact hsafe
      · exact ih false c hc
    · split at hc
      · exact ih true c hc
      · rcases List.mem_cons.mp hc with rfl | hc
        · rfl
        · exact ih true c hc

theorem subUnsafe_of_safe {inRun : Bool} (h : ∀ c ∈ text, safeChar c = true) :
    subUnsafe text inRun = text := by
  induction text generalizing inRun with
  | nil => rfl
  | cons d rest ih =>
    rw [subUnsafe, if_pos (h d List.mem_cons_self),
      ih fun c hc => h c (List.mem_cons_of_mem _ hc)]

theorem space_not_safe : ∀ c ∈ spaces, safeChar c = false := by
  have hall : spaces.all (fun c => !safeChar c) = true := by decide
  exact fun c hc => Bool.not_eq_true' _ ▸ List.all_eq_true.mp hall c hc

end Texts

section SafeText
variable {value fallback : String} {limit : Nat}

/-- What `_safe_text` makes of a text of safe characters. -/
theorem safeText_of_safe (h : ∀ c ∈ value.toList, safeChar c = true) :
    safeText value fallback limit =
      String.ofList ((if stripEnds isEdge value.toList = [] then fallback.toList
        else stripEnds isEdge value.toList).take limit) := by
  have hspace : stripEnds (· ∈ spaces) value.toList = value.toList := by
    refine stripEnds_of_none fun c hc => decide_eq_false fun hmem => ?_
    have hunsafe := space_not_safe c hmem
    rw [h c hc] at hunsafe
    cases hunsafe
  rw [safeText, hspace, subUnsafe_of_safe h]

theorem Settled.strip (h : Settled value) : stripEnds isEdge value.toList = value.toList :=
  stripEnds_eq_self_iff.mpr ⟨h.first, h.last⟩

/-- A settled text is only cut. -/
theorem Settled.safeText (h : Settled value) (hne : value ≠ "") :
    safeText value fallback limit = String.ofList (value.toList.take limit) := by
  have hlist : value.toList ≠ [] := fun hnil => hne (String.toList_eq_nil_iff.mp hnil)
  rw [safeText_of_safe h.safe, h.strip, if_neg hlist]

theorem safe_safeText (hfallback : ∀ c ∈ fallback.toList, safeChar c = true) :
    ∀ c ∈ (Durable.safeText value fallback limit).toList, safeChar c = true := by
  intro c hc
  rw [Durable.safeText, String.toList_ofList] at hc
  have hmem := List.mem_of_mem_take hc
  split at hmem
  · exact hfallback c hmem
  · exact safe_subUnsafe _ false c (mem_stripEnds hmem)

theorem length_safeText_le (value fallback : String) (limit : Nat) :
    (Durable.safeText value fallback limit).length ≤ limit := by
  rw [Durable.safeText, String.length_ofList]
  exact List.length_take_le _ _

theorem safeText_ne_empty (hfallback : fallback ≠ "") (hlimit : 0 < limit) :
    Durable.safeText value fallback limit ≠ "" := by
  intro h
  have hlist := congrArg String.toList h
  rw [Durable.safeText, String.toList_ofList, String.toList_empty, List.take_eq_nil_iff] at hlist
  rcases hlist with hzero | hnil
  · exact absurd hzero (Nat.ne_of_gt hlimit)
  · split at hnil
    · exact hfallback (String.toList_eq_nil_iff.mp hnil)
    · rename_i hne
      exact hne hnil

theorem head_not_edge {text : String} {c : Char} (h : text.toList.head? = some c)
    (hc : isEdge c = false) : ∀ d ∈ text.toList.head?, isEdge d = false := by
  intro d hd
  rw [Option.mem_def, h] at hd
  exact Option.some.inj hd ▸ hc

/-- A text of safe characters within the limit is kept just in case it is settled. -/
theorem safeText_eq_iff (hsafe : ∀ c ∈ value.toList, safeChar c = true) (hne : value ≠ "")
    (hlength : value.length ≤ limit) (hfallback : ∀ c ∈ fallback.toList.head?, isEdge c = false)
    (hfallbackNe : fallback ≠ "") :
    Durable.safeText value fallback limit = value ↔ Settled value := by
  have hlist : value.toList ≠ [] := fun hnil => hne (String.toList_eq_nil_iff.mp hnil)
  constructor
  · intro h
    have hchars := congrArg String.toList h
    rw [safeText_of_safe hsafe, String.toList_ofList] at hchars
    split at hchars
    · rename_i hstrip
      -- all of the text is edges, but the fallback does not begin with one
      exfalso
      cases hf : fallback.toList with
      | nil => exact hfallbackNe (String.toList_eq_nil_iff.mp hf)
      | cons d rest =>
        have hpos : 0 < limit :=
          Nat.lt_of_lt_of_le (List.length_pos_iff.mpr hlist) (by rwa [String.length_toList])
        obtain ⟨m, rfl⟩ := Nat.exists_eq_succ_of_ne_zero (Nat.ne_of_gt hpos)
        rw [hf, List.take_succ_cons] at hchars
        have hedge : isEdge d = false := hfallback d (by rw [hf]; rfl)
        have hmem : d ∈ value.toList := by
          rw [← hchars]
          exact List.mem_cons_self
        rw [stripEnds_eq_nil hstrip d hmem] at hedge
        cases hedge
    · have htake : (stripEnds isEdge value.toList).take limit = stripEnds isEdge value.toList := by
        refine List.take_of_length_le (Nat.le_trans length_stripEnds_le ?_)
        rwa [String.length_toList]
      rw [htake] at hchars
      obtain ⟨hfirst, hlast⟩ := stripEnds_eq_self_iff.mp hchars
      exact ⟨hsafe, hfirst, hlast⟩
  · intro h
    rw [h.safeText hne, List.take_of_length_le (by rwa [String.length_toList]), String.ofList_toList]

end SafeText

/-! ## Observations -/

/-- What the controller generates for a run: the time, six hexadecimal digits and
`secrets.token_urlsafe(32)`. -/
structure Generated where
  stamp : String
  suffix : String
  resumeToken : String
  stampLength : stamp.length = 16
  stampSafe : ∀ c ∈ stamp.toList, c.isAlphanum = true
  suffixLength : suffix.length = 6
  suffixSafe : ∀ c ∈ suffix.toList, c.isAlphanum = true
  tokenLength : resumeToken.length = 43

/-- `_safe_component` of `state.py`. -/
def safeComponent (value : String) : String :=
  String.ofList (value.toList.map fun c => if c = '/' || c = '\\' then '-' else c)

def newRunId (g : Generated) (target projectId : String) : String :=
  g.stamp ++ "-" ++ target ++ "-" ++ safeComponent projectId ++ "-" ++ g.suffix

/-- `platform.node().split(".", 1)[0]`, made safe. -/
def controllerLabel (node : String) : String :=
  safeText (String.ofList (node.toList.takeWhile (· ≠ '.'))) "controller" 64

def observedProjectId (project : String) : String := safeText project "project" 128
def observedJobId (jobId : String) : String := safeText jobId "job" 128

/-- The names of a path in the controller's `pathlib` and in Windows syntax. -/
structure PathNames where
  pure : String → String
  windows : String → String

/-- `min(candidates, key=len)` over the names that are not empty. -/
def shortest : List String → Option String
  | [] => none
  | name :: rest => match shortest rest with
    | none => if name = "" then none else some name
    | some other => if name ≠ "" && name.length ≤ other.length then some name else some other

def commandLabel (names : PathNames) (command : List String) (declared : Option String) : String :=
  match declared.filter (· ≠ "") with
  | some label => safeText label "command" 64
  | none =>
    let first := command.head?.getD "command"
    safeText ((shortest [names.pure first, names.windows first, first]).getD "command") "command" 64

/-- The fields of `JobObservation`; its schema is 1. -/
structure JobObservation where
  jobId : String
  project : String
  sourceController : String
  target : String
  phase : String
  commandLabel : String
  commandSha256 : String
  memberCount : Nat

/-- `JobObservation.for_command`, for one member and a command that is not empty. -/
def JobObservation.forCommand (names : PathNames) (sha256 : List String → String)
    (jobId project target phase : String) (command : List String) (declaredLabel : Option String)
    (sourceController : String) : JobObservation where
  jobId := observedJobId jobId
  project := observedProjectId project
  sourceController := safeText sourceController "controller" 64
  target := safeText target "target" 64
  phase := safeText phase "running" 32
  commandLabel := Durable.commandLabel names command declaredLabel
  commandSha256 := sha256 command
  memberCount := 1

/-- `payload`. -/
def JobObservation.payload (o : JobObservation) : Value Unit :=
  .obj [("schema", .int 1), ("job_id", .str o.jobId), ("project", .str o.project),
    ("source_controller", .str o.sourceController), ("target", .str o.target),
    ("phase", .str o.phase), ("command_label", .str o.commandLabel),
    ("command_sha256", .str o.commandSha256), ("member_count", .int o.memberCount)]

-- No floating-point number stands in an observation.
def noNumbers : FloatText Unit := ⟨fun _ => nanName, fun _ => ()⟩

/-- The length of `encoded()`: base64 writes four characters for three bytes, and the JSON text is
ASCII. -/
def JobObservation.encodedLength (o : JobObservation) : Nat :=
  4 * (((dumps noNumbers o.payload).length + 2) / 3)

/-! ## The observer's reading -/

section Checks
variable {α β : Type} {condition : Prop} [Decidable condition] {detail : String}

/-- `if condition: raise …`. -/
def refuseIf (condition : Prop) [Decidable condition] (detail : String) : Except String Unit :=
  if condition then .error detail else .ok ()

theorem refuseIf_eq_ok {u : Unit} : refuseIf condition detail = .ok u ↔ ¬ condition := by
  unfold refuseIf
  split <;> simp_all

theorem except_bind_eq_ok {x : Except String α} {f : α → Except String β} {b : β} :
    (x >>= f) = .ok b ↔ ∃ a, x = .ok a ∧ f a = .ok b := by
  cases x with
  | error e => exact ⟨nofun, fun ⟨_, h, _⟩ => nomatch h⟩
  | ok a => exact ⟨fun h => ⟨a, rfl, h⟩, fun ⟨_, h, hf⟩ => by cases h; exact hf⟩

theorem unit_bind_eq_ok {x : Except String Unit} {f : Unit → Except String β} {b : β} :
    (x >>= f) = .ok b ↔ x = .ok () ∧ f () = .ok b := by
  rw [except_bind_eq_ok]
  exact ⟨fun ⟨(), h⟩ => h, fun h => ⟨(), h⟩⟩

end Checks

/-- `_bounded_text`. -/
def boundedText (value name : String) (limit : Nat) : Except String Unit := do
  refuseIf (value = "" ∨ limit < value.length)
    (name ++ " must be a non-empty string of at most " ++ toString limit ++ " characters")
  refuseIf (!value.toList.all safeChar) (name ++ " contains unsupported characters")

def isHexDigit (c : Char) : Bool := c.isDigit || ('a' ≤ c && c ≤ 'f')

/-- `_decode_metadata`, of an observation the controller has encoded. -/
def decodeMetadata (o : JobObservation) : Except String JobObservation := do
  refuseIf (4096 < o.encodedLength) "metadata is oversized"
  refuseIf (o.commandSha256.length ≠ 64 ∨ !o.commandSha256.toList.all isHexDigit)
    "command_sha256 must be lowercase SHA-256 hex"
  refuseIf (o.memberCount < 1 ∨ 100000 < o.memberCount) "member_count must be in 1..100000"
  boundedText o.jobId "job_id" 128
  boundedText o.project "project" 128
  boundedText o.sourceController "source_controller" 64
  boundedText o.target "target" 64
  boundedText o.phase "phase" 32
  boundedText o.commandLabel "command_label" 64
  .ok o

end Remrun.Durable
