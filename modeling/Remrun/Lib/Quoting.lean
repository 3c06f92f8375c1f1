import Mathlib.Data.List.Basic
import Mathlib.Tactic

/-!
# Quoted literals

Texts in which literals stand between delimiters. The reader knows a class of delimiters and takes
two in a row inside a literal for the second of them; the writer doubles one mark. A script is a
list of code texts with values between them; it is read as written exactly when no value has a
delimiter that the writer does not double.
-/

namespace Quoting

set_option autoImplicit false

universe u

variable {α : Type u}

/-- The characters that delimit a literal, those that code outside literals is made of, and the
delimiter that is written. -/
structure Rule (α : Type u) where
  delimiter : α → Bool
  bare : α → Bool
  mark : α
  delimiter_mark : delimiter mark = true

inductive Token (α : Type u) where
  | code (c : α)
  | literal (value : List α)
  deriving DecidableEq

/-- Outside a literal, inside one that began with the value, or after a delimiter inside it. -/
inductive Mode (α : Type u) where
  | code
  | inside (value : List α)
  | closing (value : List α)
  deriving DecidableEq

/-- A mode without what was read. -/
inductive Phase where
  | code
  | inside
  | closing
  deriving DecidableEq

def Mode.phase : Mode α → Phase
  | .code => .code
  | .inside _ => .inside
  | .closing _ => .closing

namespace Rule

section Reading
variable (r : Rule α)

def step : Mode α → α → Option (Mode α × List (Token α))
  | .code, c =>
    if r.delimiter c then some (.inside [], [])
    else if r.bare c then some (.code, [.code c]) else none
  | .inside value, c =>
    if r.delimiter c then some (.closing value, []) else some (.inside (value ++ [c]), [])
  | .closing value, c =>
    if r.delimiter c then some (.inside (value ++ [c]), [])
    else if r.bare c then some (.code, [.literal value, .code c]) else none

/-- What the end of the text completes; an open literal is an error. -/
def finish : Mode α → Option (List (Token α))
  | .code => some []
  | .inside _ => none
  | .closing value => some [.literal value]

/-- Reads a part of a text. -/
def scan (m : Mode α) : List α → Option (Mode α × List (Token α))
  | [] => some (m, [])
  | c :: cs => (r.step m c).bind fun next =>
      (scan next.1 cs).map fun rest => (rest.1, next.2 ++ rest.2)

def run (m : Mode α) (text : List α) : Option (List (Token α)) :=
  (r.scan m text).bind fun last => (finish last.1).map fun tokens => last.2 ++ tokens

def lex (text : List α) : Option (List (Token α)) := r.run .code text

end Reading

variable {r : Rule α} {m : Mode α} {v : List α}

theorem scan_append (xs ys : List α) : r.scan m (xs ++ ys) = (r.scan m xs).bind fun first =>
    (r.scan first.1 ys).map fun rest => (rest.1, first.2 ++ rest.2) := by
  induction xs generalizing m with
  | nil => cases h : r.scan m ys <;> simp [scan, h]
  | cons c cs ih =>
    rw [List.cons_append, scan, scan]
    cases r.step m c with
    | none => rfl
    | some next =>
      simp only [Option.bind_some, ih]
      cases r.scan next.1 cs with
      | none => rfl
      | some rest =>
        simp only [Option.bind_some, Option.map_some]
        cases r.scan rest.1 ys <;> simp

/-! ## Writing -/

/-- The text is read to its end, and outside a literal there. -/
def settles (r : Rule α) : Phase → List α → Bool
  | .code, [] => true
  | .inside, [] | .closing, [] => false
  | .inside, c :: cs => if r.delimiter c then r.settles .closing cs else r.settles .inside cs
  | .code, c :: cs | .closing, c :: cs =>
    if r.delimiter c then r.settles .inside cs else r.bare c && r.settles .code cs

/-- Code begins outside a literal, not with a delimiter, and ends outside a literal. -/
def isCode (r : Rule α) (text : List α) : Bool :=
  (text.head?.any fun c => !r.delimiter c) && r.settles .code text

/-- A text that is code. -/
structure Code (r : Rule α) where
  text : List α
  isCode : r.isCode text = true

def Code.tokens (code : r.Code) : List (Token α) := ((r.scan .code code.text).map Prod.snd).getD []

/-- A script: code texts, each of them with the value that follows it, if any. -/
abbrev Script (r : Rule α) := List (r.Code × Option (List α))

/-- What every script begins with, and the code in front of a value. -/
def code (text : List α) (h : r.isCode text = true) : r.Script :=
  [(⟨text, h⟩, none)]

def withValue (text value : List α) (h : r.isCode text = true) : r.Script :=
  [(⟨text, h⟩, some value)]

section Writer
variable [DecidableEq α]

/-- The literal of a value: between marks, with every mark inside doubled. -/
def quote (r : Rule α) (value : List α) : List α :=
  r.mark :: (value.flatMap fun c => if c = r.mark then [c, c] else [c]) ++ [r.mark]

def Script.render (s : r.Script) : List α :=
  s.flatMap fun segment => segment.1.text ++ (segment.2.map r.quote).getD []

end Writer

/-- The tokens that the script stands for: those of its code, and one literal for each value. -/
def Script.tokens (s : r.Script) : List (Token α) :=
  s.flatMap fun segment => segment.1.tokens ++ (segment.2.map Token.literal).toList

def Script.values (s : r.Script) : List (List α) := s.filterMap Prod.snd

/-- No delimiter but the mark stands in the value. -/
def Plain (r : Rule α) (value : List α) : Prop := ∀ c ∈ value, r.delimiter c = true → c = r.mark

@[simp] theorem Script.values_append (s s' : r.Script) :
    Script.values (s ++ s') = Script.values s ++ Script.values s' := List.filterMap_append

@[simp] theorem values_code (text : List α) (h : r.isCode text = true) :
    Script.values (code text h) = [] := rfl

@[simp] theorem values_withValue (text value : List α) (h : r.isCode text = true) :
    Script.values (withValue text value h) = [value] := rfl

/-! ## Plain values are read as written -/

/-- The literal that the next code character completes. -/
def pendingTokens : Mode α → List (Token α)
  | .closing value => [.literal value]
  | .code | .inside _ => []

theorem scan_of_settles {text : List α} (h : r.settles m.phase text = true) :
    ∃ tokens, r.scan m text = some (.code, tokens) := by
  induction text generalizing m with
  | nil =>
    cases m with
    | code => exact ⟨[], rfl⟩
    | inside value | closing value => cases h
  | cons c cs ih =>
    have hnext : ∃ next : Mode α × List (Token α),
        r.step m c = some next ∧ r.settles next.1.phase cs = true := by
      cases m with
      | code | closing =>
        simp only [Mode.phase, settles] at h
        by_cases hdelim : r.delimiter c = true
        · simp only [hdelim, if_true] at h
          simp only [step, hdelim, if_true]
          exact ⟨_, rfl, h⟩
        · simp only [hdelim, Bool.false_eq_true, if_false, Bool.and_eq_true] at h
          simp only [step, hdelim, Bool.false_eq_true, if_false, h.1, if_true]
          exact ⟨_, rfl, h.2⟩
      | inside value =>
        simp only [Mode.phase, settles] at h
        by_cases hdelim : r.delimiter c = true
        · simp only [hdelim, if_true] at h
          simp only [step, hdelim, if_true]
          exact ⟨_, rfl, h⟩
        · simp only [hdelim, Bool.false_eq_true, if_false] at h
          simp only [step, hdelim, Bool.false_eq_true, if_false]
          exact ⟨_, rfl, h⟩
    obtain ⟨next, hstep, hsettles⟩ := hnext
    obtain ⟨tokens, hscan⟩ := ih hsettles
    exact ⟨next.2 ++ tokens, by simp [scan, hstep, hscan]⟩

theorem Code.scan_text (c : r.Code) : r.scan .code c.text = some (.code, c.tokens) := by
  obtain ⟨tokens, hscan⟩ :=
    scan_of_settles (m := .code) (Bool.and_eq_true_iff.mp c.isCode).2
  simp [Code.tokens, hscan]

/-- After a literal the same code is read, with the literal in front. -/
theorem Code.scan_closing (c : r.Code) :
    r.scan (.closing v) c.text = some (.code, .literal v :: c.tokens) := by
  have hstart := c.isCode
  unfold Rule.isCode at hstart
  have htext := c.scan_text
  revert hstart htext
  cases c.text with
  | nil => simp
  | cons a rest =>
    intro hstart htext
    have ha : r.delimiter a = false := by simpa using (Bool.and_eq_true_iff.mp hstart).1
    by_cases hbare : r.bare a = true
    · simp only [scan, step, ha, hbare, Bool.false_eq_true, if_false, if_true, Option.bind_some]
        at htext ⊢
      obtain ⟨last, hlast, heq⟩ := Option.map_eq_some_iff.mp htext
      obtain ⟨hmode, htokens⟩ := Prod.mk.injEq .. ▸ heq
      rw [hlast, Option.map_some, hmode, ← htokens]
      rfl
    · simp [scan, step, ha, hbare] at htext

theorem Code.scan_from (c : r.Code) (hm : ∀ value, m ≠ .inside value) :
    r.scan m c.text = some (.code, pendingTokens m ++ c.tokens) := by
  cases m with
  | code => exact c.scan_text
  | closing value => exact c.scan_closing
  | inside value => exact absurd rfl (hm value)

section Plain
variable [DecidableEq α]

theorem scan_body (hv : r.Plain v) (acc : List α) :
    r.scan (.inside acc) (v.flatMap fun c => if c = r.mark then [c, c] else [c]) =
      some (.inside (acc ++ v), []) := by
  induction v generalizing acc with
  | nil => simp [scan]
  | cons c rest ih =>
    have hrest : r.Plain rest := fun d hd => hv d (List.mem_cons_of_mem c hd)
    rw [List.flatMap_cons, scan_append]
    by_cases hc : c = r.mark
    · subst hc
      simp [scan, step, r.delimiter_mark, ih hrest]
    · have hdelim : r.delimiter c = false := by
        by_contra h
        exact hc (hv c List.mem_cons_self (by simpa using h))
      simp [scan, step, hc, hdelim, ih hrest]

theorem scan_quote (hv : r.Plain v) : r.scan .code (r.quote v) = some (.closing v, []) := by
  unfold quote
  rw [List.cons_append, scan]
  simp only [step, r.delimiter_mark, if_true, Option.bind_some, scan_append, scan_body hv]
  simp [scan, step, r.delimiter_mark]

theorem run_render {s : r.Script} (hs : ∀ v ∈ s.values, r.Plain v)
    (hm : ∀ value, m ≠ .inside value) :
    r.run m s.render = some (pendingTokens m ++ s.tokens) := by
  induction s generalizing m with
  | nil => cases m <;> simp_all [run, Script.render, Script.tokens, scan, finish, pendingTokens]
  | cons segment rest ih =>
    obtain ⟨c, value⟩ := segment
    have hrest : ∀ v ∈ Script.values rest, r.Plain v := fun v hv => hs v (by
      rw [Script.values, List.filterMap_cons]
      cases value
      · exact hv
      · exact List.mem_cons_of_mem _ hv)
    unfold run at ih ⊢
    simp only [Script.render, Script.tokens, List.flatMap_cons] at ih ⊢
    rw [List.append_assoc, scan_append, c.scan_from hm]
    cases value with
    | none =>
      have := ih hrest (m := .code) (by simp)
      obtain ⟨last, hlast, hfinish⟩ := Option.bind_eq_some_iff.mp this
      obtain ⟨tokens, htokens, heq⟩ := Option.map_eq_some_iff.mp hfinish
      simp only [pendingTokens, List.nil_append] at heq
      simp [hlast, htokens, heq]
    | some v =>
      have hv : r.Plain v := hs v (by simp [Script.values])
      have := ih hrest (m := .closing v) (by simp)
      obtain ⟨last, hlast, hfinish⟩ := Option.bind_eq_some_iff.mp this
      obtain ⟨tokens, htokens, heq⟩ := Option.map_eq_some_iff.mp hfinish
      simp only [pendingTokens, List.cons_append, List.nil_append] at heq
      simp [scan_append, scan_quote hv, hlast, htokens, ← heq]

end Plain

/-! ## The length of what was read -/

/-- The characters that a literal of this value takes at least, where each delimiter is two. -/
def literalWeight (r : Rule α) (value : List α) : Nat :=
  value.length + value.countP r.delimiter

def weight (r : Rule α) : Token α → Nat
  | .code _ => 1
  | .literal value => 2 + r.literalWeight value

def pendingWeight (r : Rule α) : Mode α → Nat
  | .code => 0
  | .inside value => 1 + r.literalWeight value
  | .closing value => 2 + r.literalWeight value

def tokensWeight (r : Rule α) (tokens : List (Token α)) : Nat := (tokens.map r.weight).sum

theorem tokensWeight_append (xs ys : List (Token α)) :
    r.tokensWeight (xs ++ ys) = r.tokensWeight xs + r.tokensWeight ys := by
  simp [tokensWeight]

theorem weight_step {c : α} {next : Mode α × List (Token α)} (h : r.step m c = some next) :
    r.pendingWeight m + 1 = r.tokensWeight next.2 + r.pendingWeight next.1 := by
  cases m with
  | code =>
    simp only [step] at h
    split at h
    · cases h
      simp [pendingWeight, tokensWeight, literalWeight]
    · split at h
      · cases h
        simp [pendingWeight, tokensWeight, weight]
      · cases h
  | inside value =>
    simp only [step] at h
    split at h
    · cases h
      simp [pendingWeight, tokensWeight]
      omega
    · rename_i hc
      cases h
      simp [pendingWeight, tokensWeight, literalWeight, hc]
      omega
  | closing value =>
    simp only [step] at h
    split at h
    · rename_i hc
      cases h
      simp [pendingWeight, tokensWeight, literalWeight, hc]
      omega
    · split at h
      · cases h
        simp [pendingWeight, tokensWeight, weight]
      · cases h

/-- What was read accounts for every character. -/
theorem weight_scan {text : List α} {last : Mode α × List (Token α)}
    (h : r.scan m text = some last) :
    r.pendingWeight m + text.length = r.tokensWeight last.2 + r.pendingWeight last.1 := by
  induction text generalizing m last with
  | nil =>
    cases h
    simp [tokensWeight]
  | cons c cs ih =>
    rw [scan] at h
    obtain ⟨next, hnext, h⟩ := Option.bind_eq_some_iff.mp h
    obtain ⟨rest, hrest, rfl⟩ := Option.map_eq_some_iff.mp h
    have hstep := weight_step hnext
    have hcs := ih hrest
    rw [List.length_cons]
    change r.pendingWeight m + (cs.length + 1) =
      r.tokensWeight (next.2 ++ rest.2) + r.pendingWeight rest.1
    rw [tokensWeight_append]
    omega

theorem weight_lex {text : List α} {tokens : List (Token α)} (h : r.lex text = some tokens) :
    text.length = r.tokensWeight tokens := by
  obtain ⟨last, hscan, h⟩ := Option.bind_eq_some_iff.mp h
  obtain ⟨final, hfinish, rfl⟩ := Option.map_eq_some_iff.mp h
  have hweight := weight_scan hscan
  rw [tokensWeight_append]
  cases hmode : last.1 with
  | code =>
    rw [hmode] at hfinish hweight
    cases hfinish
    simp [pendingWeight, tokensWeight] at hweight ⊢
    exact hweight
  | inside value =>
    rw [hmode] at hfinish
    cases hfinish
  | closing value =>
    rw [hmode] at hfinish hweight
    cases hfinish
    simp [pendingWeight, tokensWeight, weight] at hweight ⊢
    exact hweight

theorem weight_code (c : r.Code) : r.tokensWeight c.tokens = c.text.length := by
  have h := weight_scan c.scan_text
  simp [pendingWeight] at h
  exact h.symm

section Exact
variable [DecidableEq α]

theorem length_body (v : List α) :
    (v.flatMap fun c => if c = r.mark then [c, c] else [c]).length = v.length + v.count r.mark := by
  induction v with
  | nil => rfl
  | cons c rest ih =>
    rw [List.flatMap_cons, List.length_append, ih, List.length_cons, List.count_cons]
    by_cases hc : c = r.mark
    · simp [hc]
      omega
    · simp [hc]
      omega

theorem length_quote (v : List α) : (r.quote v).length = 2 + v.length + v.count r.mark := by
  simp only [quote, List.cons_append, List.length_cons, List.length_append, length_body,
    List.length_nil]
  omega

theorem count_mark_le (v : List α) : v.count r.mark ≤ v.countP r.delimiter := by
  rw [List.count]
  exact List.countP_mono_left fun c _ hc => by rw [eq_of_beq hc, r.delimiter_mark]

/-- Equality of the two counts leaves no other delimiter. -/
theorem plain_of_count {v : List α} (h : v.countP r.delimiter ≤ v.count r.mark) : r.Plain v := by
  induction v with
  | nil => exact fun c hc => absurd hc List.not_mem_nil
  | cons a rest ih =>
    have hrest := count_mark_le (r := r) rest
    rw [List.countP_cons, List.count_cons] at h
    have ha : r.delimiter a = true → a = r.mark := by
      intro hdelim
      by_contra hne
      simp only [hdelim, if_true, beq_iff_eq, hne, if_false] at h
      omega
    have hplain : r.Plain rest := ih (by
      by_cases hdelim : r.delimiter a = true
      · simp only [ha hdelim, r.delimiter_mark, if_true, beq_self_eq_true] at h
        omega
      · have hne : a ≠ r.mark := fun heq => hdelim (heq ▸ r.delimiter_mark)
        simp only [hdelim, Bool.false_eq_true, if_false, beq_iff_eq, hne] at h
        omega)
    intro c hc
    rcases List.mem_cons.mp hc with rfl | hc
    · exact ha
    · exact hplain c hc

/-- A script is never longer than its tokens weigh, and just as long only if its values are
plain. -/
theorem length_render (s : r.Script) : s.render.length ≤ r.tokensWeight s.tokens ∧
    (r.tokensWeight s.tokens ≤ s.render.length → ∀ v ∈ s.values, r.Plain v) := by
  induction s with
  | nil => simp [Script.render, Script.tokens, Script.values, tokensWeight]
  | cons segment rest ih =>
    obtain ⟨c, value⟩ := segment
    obtain ⟨hle, hplain⟩ := ih
    have hrender : Script.render ((c, value) :: rest) =
        c.text ++ (value.map r.quote).getD [] ++ Script.render rest := rfl
    have htokens : Script.tokens ((c, value) :: rest) =
        c.tokens ++ (value.map Token.literal).toList ++ Script.tokens rest := rfl
    rw [hrender, htokens]
    simp only [List.length_append, tokensWeight_append, weight_code]
    cases value with
    | none =>
      simp only [Option.map_none, Option.getD_none, Option.toList_none, List.length_nil]
      have hnil : r.tokensWeight [] = 0 := rfl
      rw [hnil]
      refine ⟨by omega, fun h => ?_⟩
      exact hplain (by omega)
    | some v =>
      have hweight : r.tokensWeight [.literal v] = 2 + r.literalWeight v := by
        simp [tokensWeight, weight]
      have hcount := count_mark_le (r := r) v
      simp only [Option.map_some, Option.getD_some, Option.toList_some, length_quote, hweight,
        literalWeight]
      refine ⟨by omega, fun h => ?_⟩
      intro v' hv'
      rw [Script.values, List.filterMap_cons] at hv'
      rcases List.mem_cons.mp hv' with rfl | hv'
      · exact plain_of_count (by omega)
      · exact hplain (by omega) v' hv'

/-- A script is read as written exactly when its values have no delimiter but the mark. -/
theorem lex_render_iff (s : r.Script) :
    r.lex s.render = some s.tokens ↔ ∀ v ∈ s.values, r.Plain v := by
  constructor
  · intro h
    exact (length_render s).2 (weight_lex h).ge
  · intro h
    exact run_render h (m := .code) (by simp)

end Exact

end Rule

end Quoting
