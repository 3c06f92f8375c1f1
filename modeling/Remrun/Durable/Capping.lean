import Remrun.Durable.Finalization

/-!
# Bounded logs and results

The private records of a run are the last bytes of its error log. A log whose tail keeps them
gives the result of the whole stream; one that cuts into them does not.
-/

namespace Remrun.Finalization

open JsonText Spool

set_option autoImplicit false

universe u

variable {F : Type u} {L : Type}

/-! ## The records at the end of a log -/

def telemetryRecord (payload : Text) : Text := telemetryMarker ++ payload ++ ['\n']

def guardRecord (token payload : Text) : Text := resultMarker token ++ payload ++ ['\n']

/-- A line of ASCII that is read as a dictionary. -/
structure RecordLine (C : Calls F L) where
  text : Text
  data : Members F
  ascii : ∀ c ∈ text, c.toNat < 0x80
  line : '\n' ∉ text
  reads : C.loads (strip text) = .ok (.obj data)

/-- `re.fullmatch(r"[0-9a-f]{32}", token)`, without the length. -/
def IsToken (token : Text) : Prop :=
  token ≠ [] ∧ ∀ c ∈ token, c.isDigit = true ∨ c ∈ ['a', 'b', 'c', 'd', 'e', 'f']

/-- The private records of a run: one for each that the execution asks for. -/
structure Records (C : Calls F L) (x : Execution F) where
  telemetry : Option (RecordLine C)
  guard : Option (RecordLine C)
  telemetry_asked : telemetry.isSome = x.telemetry.isSome
  guard_asked : guard.isSome = x.guardToken.isSome
  token : ∀ token, x.guardToken = some token → IsToken token

section Texts
variable {C : Calls F L} {x : Execution F}

/-- The guard's record as it stands at the end. -/
def Records.guardText (r : Records C x) : Text :=
  match x.guardToken, r.guard with
  | some token, some g => guardRecord token g.text
  | _, _ => []

def Records.text (r : Records C x) : Text :=
  (r.telemetry.elim [] fun t => telemetryRecord t.text) ++ r.guardText

def Records.bytes (r : Records C x) : Bytes := Utf8.ascii r.text

/-- A result that says what the records say. -/
def Records.Owns (r : Records C x) (result : ExecResult F L) : Prop :=
  result.telemetry = r.telemetry.map (·.data) ∧
  ∀ g, r.guard = some g → ∃ reservation, result.memoryReservation = some reservation ∧
    result.memoryGuard = some (withReservation g.data reservation)

theorem ascii_of_isToken {token : Text} (h : IsToken token) : ∀ c ∈ token, c.toNat < 0x80 := by
  intro c hc
  rcases h.2 c hc with hdigit | hletter
  · have hrange := Char.isDigit_iff_toNat.mp hdigit
    exact Nat.lt_of_le_of_lt hrange.2 (by decide)
  · revert hletter
    simp only [List.mem_cons, List.not_mem_nil, or_false]
    rintro (rfl | rfl | rfl | rfl | rfl | rfl) <;> decide

theorem newline_notMem_of_isToken {token : Text} (h : IsToken token) : '\n' ∉ token := by
  intro hc
  rcases h.2 _ hc with hdigit | hletter
  · exact absurd hdigit (by decide)
  · exact absurd hletter (by decide)

theorem readyText_eq (token : Text) : readyText token =
    ['_', '_', 'R', 'E', 'M', 'R', 'U', 'N', '_', 'G', 'U', 'A', 'R', 'D', '_', 'R', 'E', 'A', 'D',
      'Y', '_'] ++ token ++ ['_', '_'] := rfl

theorem resultText_eq (token : Text) : resultText token =
    ['_', '_', 'R', 'E', 'M', 'R', 'U', 'N', '_', 'G', 'U', 'A', 'R', 'D', '_', 'R', 'E', 'S', 'U',
      'L', 'T', '_'] ++ token ++ ['_', '_', ' '] := rfl

theorem telemetryMarker_eq : telemetryMarker = '\n' ::
    ['_', '_', 'R', 'E', 'M', 'R', 'U', 'N', '_', 'T', 'E', 'L', 'E', 'M', 'E', 'T', 'R', 'Y', '_',
      '_', ' '] := rfl

theorem newline_notMem_readyText {token : Text} (h : '\n' ∉ token) : '\n' ∉ readyText token := by
  rw [readyText_eq]
  simp [h]

theorem newline_notMem_resultText {token : Text} (h : '\n' ∉ token) :
    '\n' ∉ resultText token := by
  rw [resultText_eq]
  simp [h]

/-- A pattern that begins with a line end is not in a text whose only line end is its last
character. -/
theorem not_infix_line {rest text : Text} (hrest : rest ≠ []) (htext : '\n' ∉ text) :
    ¬ '\n' :: rest <:+: text ++ ['\n'] := by
  rw [Search.infix_append_iff htext]
  intro h
  have hlen := h.length_le
  have hpos := List.length_pos_iff.mpr hrest
  simp only [List.length_cons, List.length_nil] at hlen
  omega

theorem not_infix_guardRecord {rest token payload : Text} (hrest : rest ≠ [])
    (htoken : '\n' ∉ token) (hpayload : '\n' ∉ payload)
    (hother : ¬ rest <+: resultText token ++ payload ++ ['\n']) :
    ¬ '\n' :: rest <:+: guardRecord token payload := by
  have hline : '\n' ∉ resultText token ++ payload := by
    rw [List.mem_append]
    exact not_or.mpr ⟨newline_notMem_resultText htoken, hpayload⟩
  rw [guardRecord, resultMarker, List.cons_append, List.cons_append, List.infix_cons_iff]
  rintro (hpre | hin)
  · exact hother (List.cons_prefix_cons.mp hpre).2
  · exact not_infix_line hrest hline hin

theorem telemetryMarker_notInfix {token payload : Text} (htoken : '\n' ∉ token)
    (hpayload : '\n' ∉ payload) : ¬ telemetryMarker <:+: guardRecord token payload := by
  rw [telemetryMarker_eq]
  apply not_infix_guardRecord (List.cons_ne_nil _ _) htoken hpayload
  rw [resultText_eq]
  simp [List.cons_prefix_cons]

theorem readyMarker_notInfix {token payload : Text} (htoken : '\n' ∉ token)
    (hpayload : '\n' ∉ payload) : ¬ readyMarker token <:+: guardRecord token payload := by
  apply not_infix_guardRecord (by simp) htoken hpayload
  rw [readyText_eq, resultText_eq]
  simp [List.cons_prefix_cons]

theorem upToNewline_append {text : Text} (h : '\n' ∉ text) (rest : Text) :
    upToNewline (text ++ '\n' :: rest) = text := by
  have hall : ∀ c ∈ text, decide (c ≠ '\n') = true := fun c hc =>
    decide_eq_true (fun heq => h (heq ▸ hc))
  rw [upToNewline, List.takeWhile_append_of_pos hall, List.takeWhile_cons_of_neg (by simp),
    List.append_nil]

theorem afterNewline_append {text : Text} (h : '\n' ∉ text) (rest : Text) :
    afterNewline (text ++ '\n' :: rest) = rest := by
  have hall : ∀ c ∈ text, decide (c ≠ '\n') = true := fun c hc =>
    decide_eq_true (fun heq => h (heq ▸ hc))
  rw [afterNewline, List.dropWhile_append_of_pos hall, List.dropWhile_cons_of_neg (by simp)]
  rfl

/-! ## Reading the records -/

/-- The wrapper's telemetry is the last one. -/
theorem extractTelemetry_append (before : Text) (t : RecordLine C) {after : Text}
    (h : ¬ telemetryMarker <:+: '\n' :: after) :
    extractTelemetry C (before ++ (telemetryRecord t.text ++ after)) =
      .ok (before ++ after, some t.data) := by
  have hlast : ¬ telemetryMarker <:+: telemetryMarker.tail ++ (t.text ++ '\n' :: after) := by
    have htail : '\n' ∉ telemetryMarker.tail := by rw [telemetryMarker_eq]; simp
    rw [telemetryMarker_eq] at h htail ⊢
    rw [Search.infix_append_iff htail, Search.infix_append_iff t.line]
    exact h
  have hfind : Search.rfind telemetryMarker
      (before ++ (telemetryMarker ++ (t.text ++ '\n' :: after))) =
        some (before, t.text ++ '\n' :: after) := Search.rfind_append before hlast
  have heq : telemetryRecord t.text ++ after = telemetryMarker ++ (t.text ++ '\n' :: after) := by
    rw [telemetryRecord, List.append_assoc, List.append_assoc]
    rfl
  unfold extractTelemetry
  rw [heq, hfind]
  simp only [upToNewline_append t.line, afterNewline_append t.line, t.reads]

/-- The text before the guard's record does not run into it. -/
def Clear (token before : Text) : Prop := ¬ '\n' :: readyText token <:+ before

theorem extractMemoryGuard_append {token before : Text} (htoken : IsToken token)
    (hclear : Clear token before) (g : RecordLine C) :
    ∃ stderr cleaned ready, extractMemoryGuard C (before ++ guardRecord token g.text) token =
      (guardSchema C g.data).map fun complete =>
        if complete then (stderr, some g.data, ready) else (cleaned, none, ready) := by
  have hnewline := newline_notMem_of_isToken htoken
  have hapart : Search.Apart (readyMarker token) before (guardRecord token g.text) :=
    Search.apart_of_delimited (newline_notMem_readyText hnewline) rfl hclear
  have hremove := Search.remove_append (readyMarker_notInfix hnewline g.line) hapart
  have hlast : ¬ resultMarker token <:+: resultText token ++ (g.text ++ ['\n']) := by
    rw [resultMarker, Search.infix_append_iff (newline_notMem_resultText hnewline)]
    exact not_infix_line (by simp [resultText_eq]) g.line
  have hrecord : guardRecord token g.text = resultMarker token ++ (g.text ++ ['\n']) :=
    List.append_assoc _ _ _
  have hfind : Search.rfind (resultMarker token)
      (Search.remove (readyMarker token) before ++ guardRecord token g.text) =
        some (Search.remove (readyMarker token) before, g.text ++ ['\n']) := by
    rw [hrecord]
    exact Search.rfind_append (Search.remove (readyMarker token) before) hlast
  refine ⟨Search.remove (readyMarker token) before ++
    (g.text ++ ['\n']).drop (strip g.text).length,
    Search.remove (readyMarker token) before ++ guardRecord token g.text,
    decide (readyMarker token <:+: before ++ guardRecord token g.text), ?_⟩
  unfold extractMemoryGuard
  simp only [hremove, hfind, upToNewline_append g.line, g.reads]

/-! ## What a result says -/

/-- The part of a result that decides what becomes of the run. -/
structure Verdict (F : Type u) (L : Type) where
  exitCode : Int
  telemetry : Option (Members F)
  memoryGuard : Option (Members F)
  memoryReservation : Option (MemoryReservation L)

def ExecResult.verdict (result : ExecResult F L) : Verdict F L :=
  ⟨result.exitCode, result.telemetry, result.memoryGuard, result.memoryReservation⟩

/-- A verdict, or the class of the error. -/
def outcome (res : Except (FinalizationError F) (ExecResult F L)) :
    Except ErrorClass (Verdict F L) :=
  (res.mapError FinalizationError.class).map ExecResult.verdict

/-- Whatever the logs are, a guard result is refused or gives its own verdict. -/
theorem judgeGuard_cases (code : Int) (telemetry : Option (Members F)) (platformName : String)
    (guard : Members F) (effective : MemoryReservation L) :
    (∃ e, ∀ stdout stderr,
      judgeGuard C code stdout stderr telemetry platformName guard effective = .error e) ∨
    ∃ exitCode, ∀ stdout stderr,
      judgeGuard C code stdout stderr telemetry platformName guard effective =
        .ok ⟨exitCode, stdout, stderr, telemetry, some (withReservation guard effective),
          some effective⟩ := by
  unfold judgeGuard
  by_cases hlimits :
      (!equalsOption C effective.effectiveCommandLimitBytes (member "max_command_bytes" guard) ||
        !equals C effective.minAvailableBytes (member "min_available_bytes" guard)) = true
  · exact Or.inl ⟨_, fun _ _ => if_pos hlimits⟩
  simp only [if_neg hlimits]
  split
  · split
    · rename_i exitCode hexit
      by_cases hcode : code ≠ exitCode
      · exact Or.inl ⟨_, fun _ _ => if_pos hcode⟩
      · exact Or.inr ⟨exitCode, fun _ _ => if_neg hcode⟩
    · exact Or.inl ⟨_, fun _ _ => rfl⟩
  · by_cases hcode : code ≠ guardHelperExit
    · exact Or.inl ⟨_, fun _ _ => if_pos hcode⟩
    · exact Or.inr ⟨guardHelperExit, fun _ _ => if_neg hcode⟩

/-- The texts of the logs are no part of the verdict. -/
theorem outcome_judgeGuard (code : Int) (stdout stderr stdout' stderr' : Text)
    (telemetry : Option (Members F)) (platformName : String) (guard : Members F)
    (effective : MemoryReservation L) :
    outcome (judgeGuard C code stdout stderr telemetry platformName guard effective) =
      outcome (judgeGuard C code stdout' stderr' telemetry platformName guard effective) := by
  rcases judgeGuard_cases (C := C) code telemetry platformName guard effective with
    ⟨e, h⟩ | ⟨exitCode, h⟩
  · rw [h, h]
  · rw [h, h]
    rfl

theorem outcome_bind {α : Type*} (res : Except (FinalizationError F) α)
    {f g : α → Except (FinalizationError F) (ExecResult F L)}
    (h : ∀ a, outcome (f a) = outcome (g a)) : outcome (res.bind f) = outcome (res.bind g) := by
  cases res with
  | error e => rfl
  | ok a => exact h a

theorem outcome_concludeGuard (code : Int) (stdout stdout' : Text)
    (reservation : MemoryReservation L) (telemetry : Option (Members F)) (platformName : String)
    (stderr stderr' : Text) (guard : Option (Members F)) (ready ready' : Bool) :
    outcome (concludeGuard C code stdout reservation telemetry platformName
      (stderr, guard, ready)) =
    outcome (concludeGuard C code stdout' reservation telemetry platformName
      (stderr', guard, ready')) := by
  cases guard with
  | none => rfl
  | some guard => exact outcome_bind _ fun effective => outcome_judgeGuard ..

/-- Two logs that end in the guard's record give one outcome. -/
theorem outcome_finalizeGuardedResult {token before before' : Text} (htoken : IsToken token)
    (hclear : Clear token before) (hclear' : Clear token before') (g : RecordLine C) (code : Int)
    (stdout stdout' : Text) (reservation : MemoryReservation L)
    (telemetry : Option (Members F)) (platformName : String) :
    outcome (finalizeGuardedResult C code stdout (before ++ guardRecord token g.text) token
      reservation telemetry platformName) =
    outcome (finalizeGuardedResult C code stdout' (before' ++ guardRecord token g.text) token
      reservation telemetry platformName) := by
  obtain ⟨stderr, cleaned, ready, h⟩ := extractMemoryGuard_append htoken hclear g
  obtain ⟨stderr', cleaned', ready', h'⟩ := extractMemoryGuard_append htoken hclear' g
  unfold finalizeGuardedResult
  rw [h, h']
  cases guardSchema C g.data with
  | error e => rfl
  | ok complete =>
    cases complete with
    | true =>
      exact outcome_concludeGuard (C := C) code stdout stdout' reservation telemetry platformName
        stderr stderr' (some g.data) ready ready'
    | false =>
      exact outcome_concludeGuard (C := C) code stdout stdout' reservation telemetry platformName
        cleaned cleaned' none ready ready'

/-- The verdict of a guarded run is its record's. -/
theorem owns_finalizeGuardedResult {token before : Text} (htoken : IsToken token)
    (hclear : Clear token before) (g : RecordLine C) {code : Int} {stdout : Text}
    {reservation : MemoryReservation L} {telemetry : Option (Members F)} {platformName : String}
    {result : ExecResult F L}
    (h : finalizeGuardedResult C code stdout (before ++ guardRecord token g.text) token
      reservation telemetry platformName = .ok result) :
    result.telemetry = telemetry ∧ ∃ effective, result.memoryReservation = some effective ∧
      result.memoryGuard = some (withReservation g.data effective) := by
  obtain ⟨stderr, cleaned, ready, hextract⟩ := extractMemoryGuard_append htoken hclear g
  unfold finalizeGuardedResult at h
  rw [hextract] at h
  cases hschema : guardSchema C g.data with
  | error e =>
    rw [hschema] at h
    cases h
  | ok complete =>
    rw [hschema] at h
    cases complete with
    | false => cases h
    | true =>
      change (C.effectiveGuardReservation g.data reservation).bind _ = _ at h
      cases heffective : C.effectiveGuardReservation g.data reservation with
      | error e =>
        rw [heffective] at h
        cases h
      | ok effective =>
        rw [heffective] at h
        change judgeGuard C code stdout stderr telemetry platformName g.data effective = _ at h
        rcases judgeGuard_cases (C := C) code telemetry platformName g.data effective with
          ⟨e, herror⟩ | ⟨exitCode, hok⟩
        · rw [herror] at h
          cases h
        · rw [hok] at h
          cases h
          exact ⟨rfl, effective, rfl, rfl⟩

/-! ## The result of a log that ends in the records -/

theorem Records.newline_notMem_token (r : Records C x) {token : Text}
    (h : x.guardToken = some token) : '\n' ∉ token := newline_notMem_of_isToken (r.token token h)

/-- No telemetry follows the wrapper's. -/
theorem Records.telemetryMarker_notInfix (r : Records C x) :
    ¬ telemetryMarker <:+: '\n' :: r.guardText := by
  rw [List.infix_cons_iff]
  unfold Records.guardText
  rintro (hpre | hin)
  · rw [telemetryMarker_eq] at hpre
    split at hpre
    · simp [guardRecord, resultMarker, List.cons_prefix_cons] at hpre
    · simp at hpre
  · split at hin
    · rename_i token g htoken _
      exact Finalization.telemetryMarker_notInfix (r.newline_notMem_token htoken) g.line hin
    · rw [telemetryMarker_eq] at hin
      simp at hin

/-- The telemetry that is read is the record's. -/
theorem telemetryOf_records (r : Records C x) (before : Text) :
    telemetryOf C x (before ++ r.text) = .ok (before ++ r.guardText, r.telemetry.map (·.data)) := by
  have hasked := r.telemetry_asked
  unfold telemetryOf Records.text
  cases htelemetry : r.telemetry with
  | none =>
    rw [htelemetry] at hasked
    cases hkind : x.telemetry with
    | none => rfl
    | some kind =>
      rw [hkind] at hasked
      cases hasked
  | some t =>
    rw [htelemetry] at hasked
    have hextract := extractTelemetry_append before t r.telemetryMarker_notInfix
    simp only [Option.elim_some]
    cases hkind : x.telemetry with
    | none =>
      rw [hkind] at hasked
      cases hasked
    | some kind =>
      cases kind with
      | legacy => exact hextract
      | detailed =>
        simp only [hextract]
        rfl

/-- The text before the records runs into none of them. -/
def ClearOf (x : Execution F) (before : Text) : Prop :=
  ∀ token, x.guardToken = some token → Clear token before

/-- Two logs that end in the records give one outcome if both or neither hold a refusal. -/
theorem outcome_concludeResult (r : Records C x) {before before' : Text}
    (hclear : ClearOf x before) (hclear' : ClearOf x before')
    (hrefusal : (refusal x (before ++ r.guardText)).isSome =
      (refusal x (before' ++ r.guardText)).isSome) (code : Int) (stdout stdout' : Text) :
    outcome (concludeResult C x code stdout (before ++ r.text)) =
      outcome (concludeResult C x code stdout' (before' ++ r.text)) := by
  unfold concludeResult
  rw [telemetryOf_records, telemetryOf_records]
  simp only [Except.bind]
  cases hrefused : refusal x (before ++ r.guardText) with
  | some detail =>
    rw [hrefused] at hrefusal
    obtain ⟨detail', hrefused'⟩ := Option.isSome_iff_exists.mp hrefusal.symm
    rw [hrefused']
    rfl
  | none =>
    rw [hrefused] at hrefusal
    have hrefused' : refusal x (before' ++ r.guardText) = none :=
      Option.isSome_eq_false_iff.mp hrefusal.symm |> Option.isNone_iff_eq_none.mp
    rw [hrefused']
    cases htoken : x.guardToken with
    | none => rfl
    | some token =>
      rcases token with _ | ⟨c, token⟩
      · rfl
      · have hguard := r.guard_asked
        rw [htoken] at hguard
        obtain ⟨g, hg⟩ := Option.isSome_iff_exists.mp hguard
        have htext : r.guardText = guardRecord (c :: token) g.text := by
          unfold Records.guardText
          rw [htoken, hg]
        simp only [htext]
        cases x.memoryReservation with
        | none => rfl
        | some raw =>
          exact outcome_bind _ fun reservation =>
            outcome_finalizeGuardedResult (r.token _ htoken) (hclear _ htoken)
              (hclear' _ htoken) g ..

/-- A result of a log that ends in the records says what they say. -/
theorem owns_concludeResult (r : Records C x) {before : Text} (hclear : ClearOf x before)
    {code : Int} {stdout : Text} {result : ExecResult F L}
    (h : concludeResult C x code stdout (before ++ r.text) = .ok result) : r.Owns result := by
  unfold concludeResult at h
  rw [telemetryOf_records] at h
  simp only [Except.bind] at h
  cases hrefused : refusal x (before ++ r.guardText) with
  | some detail =>
    rw [hrefused] at h
    cases h
  | none =>
    rw [hrefused] at h
    have hguard := r.guard_asked
    cases htoken : x.guardToken with
    | none =>
      rw [htoken] at h hguard
      cases h
      refine ⟨rfl, fun g hg => ?_⟩
      rw [hg] at hguard
      cases hguard
    | some token =>
      have hisToken := r.token token htoken
      rw [htoken] at h hguard
      obtain ⟨g, hg⟩ := Option.isSome_iff_exists.mp hguard
      have htext : r.guardText = guardRecord token g.text := by
        unfold Records.guardText
        rw [htoken, hg]
      rcases token with _ | ⟨c, token⟩
      · exact absurd rfl hisToken.1
      · simp only [htext] at h
        cases hraw : x.memoryReservation with
        | none =>
          rw [hraw] at h
          cases h
        | some raw =>
          rw [hraw] at h
          change (C.fromPayload raw).bind _ = _ at h
          cases hreservation : C.fromPayload raw with
          | error e =>
            rw [hreservation] at h
            cases h
          | ok reservation =>
            rw [hreservation] at h
            obtain ⟨htelemetry, effective, hmemory, hverdict⟩ :=
              owns_finalizeGuardedResult hisToken (hclear _ htoken) g h
            refine ⟨htelemetry, fun g' hg' => ⟨effective, hmemory, ?_⟩⟩
            obtain rfl : g = g' := Option.some.inj (hg.symm.trans hg')
            exact hverdict

/-! ## Bounded logs -/

theorem toNat_newline : ('\n').toNat < 0x80 := by decide

theorem ascii_resultText {token : Text} (h : IsToken token) :
    ∀ c ∈ resultText token, c.toNat < 0x80 := by
  have htoken := ascii_of_isToken h
  rw [resultText_eq]
  intro c hc
  simp only [List.mem_append] at hc
  rcases hc with (hc | hc) | hc
  · revert c
    simp
  · exact htoken c hc
  · revert c
    simp

theorem ascii_telemetryMarker : ∀ c ∈ telemetryMarker, c.toNat < 0x80 := by
  rw [telemetryMarker_eq]
  simp

theorem Records.ascii (r : Records C x) : ∀ c ∈ r.text, c.toNat < 0x80 := by
  intro c hc
  rcases List.mem_append.mp hc with htelemetry | hguard
  · cases ht : r.telemetry with
    | none =>
      rw [ht] at htelemetry
      cases htelemetry
    | some t =>
      rw [ht] at htelemetry
      simp only [Option.elim_some, telemetryRecord, List.mem_append] at htelemetry
      rcases htelemetry with (hc | hc) | hc
      · exact ascii_telemetryMarker c hc
      · exact t.ascii c hc
      · obtain rfl := List.mem_singleton.mp hc
        exact toNat_newline
  · unfold Records.guardText at hguard
    split at hguard
    · rename_i token g htoken _
      simp only [guardRecord, resultMarker, List.mem_append, List.mem_cons, List.not_mem_nil,
        or_false] at hguard
      rcases hguard with ((rfl | hc) | hc) | rfl
      · exact toNat_newline
      · exact ascii_resultText (r.token token htoken) c hc
      · exact g.ascii c hc
      · exact toNat_newline
    · cases hguard

theorem decode_records (r : Records C x) (before : Bytes) :
    Utf8.decodeReplace (before ++ r.bytes) = Utf8.decodeReplace before ++ r.text :=
  Utf8.decodeReplace_append_ascii before r.ascii

/-- What a bounded log holds before the records. -/
def before (maxBytes : Nat) (user record : Bytes) : Bytes :=
  if (user ++ record).length ≤ maxBytes then user
  else if record.length ≤ tailLimit maxBytes then
    (user ++ record).take (headLimit maxBytes) ++ marker maxBytes ++
      user.drop ((user ++ record).length - tailLimit maxBytes)
  else (user ++ record).take (headLimit maxBytes) ++ truncationMarker.dropLast

/-- The tail keeps the records. It may lack the line end before them where the marker gives it. -/
def Roomy (maxBytes : Nat) (user record : Bytes) : Prop :=
  (user ++ record).length ≤ maxBytes ∨ record.length ≤ tailLimit maxBytes ∨
  (record.length = tailLimit maxBytes + 1 ∧
    truncationMarker.length ≤ maxBytes - tailLimit maxBytes)

theorem capped_eq {maxBytes : Nat} {user record : Bytes} (h : Roomy maxBytes user record)
    (hrecord : record.head? = some 10 ∨ record = []) :
    capped maxBytes (user ++ record) = before maxBytes user record ++ record := by
  unfold before
  by_cases hfits : (user ++ record).length ≤ maxBytes
  · rw [if_pos hfits, capped_of_le hfits]
  rw [if_neg hfits]
  by_cases hlimit : record.length ≤ tailLimit maxBytes
  · rw [if_pos hlimit, capped_append hfits hlimit]
  obtain ⟨hlength, hwhole⟩ : record.length = tailLimit maxBytes + 1 ∧
      truncationMarker.length ≤ maxBytes - tailLimit maxBytes :=
    (h.resolve_left hfits).resolve_left hlimit
  rcases record with _ | ⟨b, record⟩
  · exact absurd hlength (by simp)
  obtain rfl : b = 10 := by simpa using hrecord
  have hmarker : marker maxBytes = truncationMarker.dropLast ++ [10] := by
    rw [marker, List.take_of_length_le hwhole]
    rfl
  have hdrop : (user ++ 10 :: record).drop ((user ++ 10 :: record).length - tailLimit maxBytes) =
      record := by
    have hsplit : user ++ 10 :: record = (user ++ [10]) ++ record := by simp
    have hcount : (user ++ 10 :: record).length - tailLimit maxBytes = (user ++ [10]).length := by
      simp only [List.length_append, List.length_cons, List.length_nil] at hlength ⊢
      omega
    rw [hcount, hsplit, List.drop_left]
  rw [if_neg hlimit, capped, if_neg hfits, hdrop, hmarker]
  simp only [List.append_assoc, List.singleton_append]

theorem Records.head_bytes (r : Records C x) : r.bytes.head? = some 10 ∨ r.bytes = [] := by
  unfold Records.bytes Records.text
  cases r.telemetry with
  | some t => exact Or.inl rfl
  | none =>
    unfold Records.guardText
    split
    · exact Or.inl rfl
    · exact Or.inr rfl

/-- The bound leaves the records, nothing of the log runs into the guard's record, and a refusal
is in both logs or in neither. -/
structure Unspoiled (r : Records C x) (maxBytes : Nat) (user : Bytes) : Prop where
  roomy : Roomy maxBytes user r.bytes
  clear : ClearOf x (Utf8.decodeReplace user)
  clear_bounded : ClearOf x (Utf8.decodeReplace (before maxBytes user r.bytes))
  refused : (refusal x (Utf8.decodeReplace (before maxBytes user r.bytes) ++ r.guardText)).isSome =
    (refusal x (Utf8.decodeReplace user ++ r.guardText)).isSome

/-- However the streams arrive, the bounded logs give the outcome of the whole ones, and a result
that says what the records say. -/
def KeepsOutcome (r : Records C x) (maxBytes : Nat) (status : Members F)
    (stdout user : Bytes) : Prop :=
  ∀ outChunks errChunks : List Bytes, outChunks.flatten = stdout →
    errChunks.flatten = user ++ r.bytes →
    outcome (finalizeLogs C status (spool maxBytes outChunks) (spool maxBytes errChunks) x) =
      outcome (finalizeLogs C status stdout (user ++ r.bytes) x) ∧
    ∀ result, finalizeLogs C status (spool maxBytes outChunks) (spool maxBytes errChunks) x =
      .ok result → r.Owns result

/-- A complete run is read with its exit code, any other gives an error of its own. -/
theorem finalizeLogs_cases (C : Calls F L) (status : Members F) (x : Execution F) :
    (∃ code, ∀ stdout stderr, finalizeLogs C status stdout stderr x =
      concludeResult C x code (Utf8.decodeReplace stdout) (Utf8.decodeReplace stderr)) ∨
    ∃ e, ∀ stdout stderr, finalizeLogs C status stdout stderr x = .error e := by
  unfold finalizeLogs finalizeDurableResult
  simp only [Option.bind_some, Base64.decode_encode]
  split
  · exact Or.inl ⟨_, fun _ _ => rfl⟩
  · exact Or.inr ⟨_, fun _ _ => rfl⟩
  · exact Or.inr ⟨_, fun _ _ => rfl⟩

/-- Where the bound leaves the records, it does not change the outcome of the run. -/
theorem cap_keeps_outcome (r : Records C x) {maxBytes : Nat} {user : Bytes}
    (h : Unspoiled r maxBytes user) (status : Members F) (stdout : Bytes) :
    KeepsOutcome r maxBytes status stdout user := by
  rintro outChunks errChunks - herr
  have hcapped : spool maxBytes errChunks = before maxBytes user r.bytes ++ r.bytes := by
    rw [spool_eq, herr, capped_eq h.roomy r.head_bytes]
  rw [hcapped]
  rcases finalizeLogs_cases C status x with ⟨code, hcode⟩ | ⟨e, herror⟩
  · rw [hcode, hcode, decode_records, decode_records]
    exact ⟨outcome_concludeResult r h.clear_bounded h.clear h.refused code _ _,
      fun result hresult => owns_concludeResult r h.clear_bounded hresult⟩
  · rw [herror, herror]
    exact ⟨rfl, fun result hresult => by cases hresult⟩

end Texts

/-! ## A log whose tail holds 48 bytes -/

/-- No number of the records below is a float. -/
def plainCalls : Calls Unit Unit where
  loads text :=
    match loads ⟨fun _ => nanName, fun _ => ()⟩ text with
    | some value => .ok value
    | none => .error .value
  floatIs _ _ := false
  fromPayload _ := .error (.transport "durable guard metadata is malformed")
  effectiveGuardReservation _ _ := .error (.transport "durable guard metadata is malformed")

def sampled : Execution Unit := ⟨some .legacy, some "linux", none, none, none, none, none⟩

def completeStatus : Members Unit :=
  [("state", .str "complete"), ("wrapper_exit_code", .int 0)]

/-- The members of the dictionary that a text is read as. -/
def membersOf : Except LoadFailure (Value Unit) → Option (Members Unit)
  | .ok (.obj members) => some members
  | _ => none

theorem eq_of_membersOf {res : Except LoadFailure (Value Unit)}
    (h : (membersOf res).isSome = true) : res = .ok (.obj ((membersOf res).get h)) := by
  rcases res with e | v
  · cases h
  · cases v with
    | obj members => rfl
    | _ => cases h

def sampledRecords (text : Text)
    (ascii : (text.all fun c => c.toNat.blt 0x80 && c != '\n') = true)
    (reads : (membersOf (plainCalls.loads (strip text))).isSome = true) :
    Records plainCalls sampled where
  telemetry := some {
    text
    data := (membersOf (plainCalls.loads (strip text))).get reads
    reads := eq_of_membersOf reads
    ascii := fun c hc => by
      have h := List.all_eq_true.mp ascii c hc
      rw [Bool.and_eq_true] at h
      exact Nat.blt_eq.mp h.1
    line := fun hc => by
      have h := List.all_eq_true.mp ascii _ hc
      simp at h }
  guard := none
  telemetry_asked := rfl
  guard_asked := rfl
  token _ h := by cases h

/-- A record of 36 bytes. -/
def shortRecords : Records plainCalls sampled :=
  sampledRecords "\x7b\"cpu_sec\":1\x7d".toList (by decide +kernel) (by decide +kernel)

/-- A record of 66 bytes. -/
def longRecords : Records plainCalls sampled :=
  sampledRecords "\x7b\"cpu_sec\":1,\"wall_sec\":1,\"peak_rss_mb\":1\x7d".toList
    (by decide +kernel) (by decide +kernel)

theorem short_record_kept :
    KeepsOutcome shortRecords 96 completeStatus [] (List.replicate 70 120) :=
  cap_keeps_outcome shortRecords
    { roomy := Or.inr (Or.inl (by decide +kernel))
      clear := fun _ h => nomatch h
      clear_bounded := fun _ h => nomatch h
      refused := rfl } completeStatus []

def exitAndTelemetry (v : Except ErrorClass (Verdict Unit Unit)) : Option (Int × Bool) :=
  match v with
  | .ok v => some (v.exitCode, v.telemetry.isSome)
  | .error _ => none

/-- The tail of a bounded log cuts into a record that is longer: the telemetry of the run is
lost. -/
theorem long_record_lost : ¬ ∀ (x : Execution Unit) (r : Records plainCalls x) (maxBytes : Nat)
    (status : Members Unit) (stdout user : Bytes),
    KeepsOutcome r maxBytes status stdout user := by
  intro h
  have hkept := (h sampled longRecords 96 completeStatus [] (List.replicate 70 120) []
    [List.replicate 70 120 ++ longRecords.bytes] rfl (List.append_nil _)).1
  have hsame := congrArg exitAndTelemetry hkept
  revert hsame
  decide +kernel

end Remrun.Finalization
