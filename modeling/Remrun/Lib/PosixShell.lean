import Mathlib.Data.List.Infix
import Mathlib.Logic.Function.Basic
import Mathlib.Tactic

/-!
# Lists of simple commands

The part of the shell's grammar that generated scripts are written in: words with single and
double quotes and `$NAME` between the latter, assignment words, reserved words, and simple
commands joined by `;`, line ends and `&&`. A text with anything else is not read. A word that was
quoted is one word with the characters it was made from; as a command's first word it is taken for
something else exactly when it was left unquoted and is a reserved word or an assignment.
-/

namespace PosixShell

set_option autoImplicit false

abbrev Text := List Char

/-! ## Words -/

/-- The characters of words that need no quotes. -/
def isPlain (c : Char) : Bool :=
  c.isAlphanum || c ∈ ['@', '%', '+', '=', ':', ',', '.', '/', '-', '_']

def isNameStart (c : Char) : Bool := c.isAlpha || c = '_'

def isNameChar (c : Char) : Bool := c.isAlphanum || c = '_'

def isName (name : Text) : Bool := name.head?.any isNameStart && name.all isNameChar

/-- A character of a word, bare if it was not quoted, or the value of a variable. -/
inductive Piece where
  | bare (c : Char)
  | quoted (c : Char)
  | parameter (name : Text)
  deriving DecidableEq

abbrev Word := List Piece

inductive Token where
  | word (pieces : Word)
  | andIf
  | semicolon
  | newline
  deriving DecidableEq

inductive Mode where
  | between
  | word (pieces : Word)
  | single (pieces : Word)
  | double (pieces : Word)
  | dollar (pieces : Word) (name : Text)
  | ampersand
  deriving DecidableEq

/-- What a character does outside quotes, after the word `pieces` if there is one. -/
def stepBare (pieces : Option Word) (c : Char) : Option (Mode × List Token) :=
  let ended := pieces.toList.map Token.word
  let begun := pieces.getD []
  if c = ' ' then some (.between, ended)
  else if c = '\n' then some (.between, ended ++ [.newline])
  else if c = ';' then some (.between, ended ++ [.semicolon])
  else if c = '&' then some (.ampersand, ended)
  else if c = '\'' then some (.single begun, [])
  else if c = '"' then some (.double begun, [])
  else if isPlain c then some (.word (begun ++ [.bare c]), [])
  else none

def step : Mode → Char → Option (Mode × List Token)
  | .between, c => stepBare none c
  | .word pieces, c => stepBare (some pieces) c
  | .single pieces, c =>
    if c = '\'' then some (.word pieces, []) else some (.single (pieces ++ [.quoted c]), [])
  | .double pieces, c =>
    if c = '"' then some (.word pieces, [])
    else if c = '$' then some (.dollar pieces [], [])
    else if c = '\\' ∨ c = '`' then none
    else some (.double (pieces ++ [.quoted c]), [])
  | .dollar pieces name, c =>
    if isName (name ++ [c]) then some (.dollar pieces (name ++ [c]), [])
    else if c = '"' ∧ name ≠ [] then some (.word (pieces ++ [.parameter name]), [])
    else none
  | .ampersand, c => if c = '&' then some (.between, [.andIf]) else none

/-- Reads a part of a text. -/
def scan (m : Mode) : Text → Option (Mode × List Token)
  | [] => some (m, [])
  | c :: cs => (step m c).bind fun next =>
      (scan next.1 cs).map fun rest => (rest.1, next.2 ++ rest.2)

def finish : Mode → Option (List Token)
  | .between => some []
  | .word pieces => some [.word pieces]
  | _ => none

def lex (text : Text) : Option (List Token) :=
  (scan .between text).bind fun last => (finish last.1).map fun tokens => last.2 ++ tokens

/-! ## Commands -/

/-- A character of a word after quote removal, or a variable's value. -/
inductive Part where
  | char (c : Char)
  | parameter (name : Text)
  deriving DecidableEq

def Piece.part : Piece → Part
  | .bare c | .quoted c => .char c
  | .parameter name => .parameter name

def Word.parts (word : Word) : List Part := word.map Piece.part

def reservedWords : List Text := [
  ['!'], ['\x7b'], ['\x7d'], ['c', 'a', 's', 'e'], ['d', 'o'], ['d', 'o', 'n', 'e'],
  ['e', 'l', 'i', 'f'], ['e', 'l', 's', 'e'], ['e', 's', 'a', 'c'], ['f', 'i'], ['f', 'o', 'r'],
  ['i', 'f'], ['i', 'n'], ['t', 'h', 'e', 'n'], ['u', 'n', 't', 'i', 'l'],
  ['w', 'h', 'i', 'l', 'e']]

/-- Only a word without quotes is a reserved word. -/
def Word.isReserved (word : Word) : Bool :=
  reservedWords.any fun reserved => word = reserved.map Piece.bare

def Piece.isNameChar : Piece → Bool
  | .bare c => PosixShell.isNameChar c
  | _ => false

/-- An assignment begins with a name and `=`, none of it quoted. -/
def Word.isAssignment (word : Word) : Bool :=
  let name := word.takeWhile Piece.isNameChar
  (word.drop name.length).head? = some (.bare '=') &&
    name.head?.any fun p => match p with
      | .bare c => isNameStart c
      | _ => false

structure Simple where
  assignments : List (List Part)
  words : List (List Part)
  deriving DecidableEq

/-- How a command goes on. -/
inductive Separator where
  | sequential
  | andIf
  | last
  deriving DecidableEq

abbrev Program := List (Simple × Separator)

/-- A simple command of these words. A reserved word at its place begins something else. -/
def simple (words : List Word) : Option Simple :=
  match words with
  | [] => none
  | first :: _ =>
    if first.isReserved then none
    else some ⟨(words.takeWhile Word.isAssignment).map Word.parts,
      (words.dropWhile Word.isAssignment).map Word.parts⟩

/-- The commands of these tokens, after the words of the first of them. -/
def parseFrom : List Word → List Token → Option Program
  | words, [] => if words = [] then some [] else (simple words).map fun s => [(s, .last)]
  | words, .word w :: rest => parseFrom (words ++ [w]) rest
  | words, .semicolon :: rest =>
    (simple words).bind fun s => (parseFrom [] rest).map fun p => (s, .sequential) :: p
  | words, .newline :: rest =>
    if words = [] then parseFrom [] rest
    else (simple words).bind fun s => (parseFrom [] rest).map fun p => (s, .sequential) :: p
  | words, .andIf :: rest =>
    (simple words).bind fun s => (parseFrom [] rest).bind fun p =>
      if p = [] then none else some ((s, .andIf) :: p)

def parse (text : Text) : Option Program := (lex text).bind (parseFrom [])

/-! ## Reading in parts -/

theorem scan_append (m : Mode) (xs ys : Text) : scan m (xs ++ ys) = (scan m xs).bind fun first =>
    (scan first.1 ys).map fun rest => (rest.1, first.2 ++ rest.2) := by
  induction xs generalizing m with
  | nil => cases h : scan m ys <;> simp [scan, h]
  | cons c cs ih =>
    rw [List.cons_append, scan, scan]
    cases step m c with
    | none => rfl
    | some next =>
      simp only [Option.bind_some, ih]
      cases scan next.1 cs with
      | none => rfl
      | some rest =>
        simp only [Option.bind_some, Option.map_some]
        cases scan rest.1 ys <;> simp

/-- What was read in one mode and what is read from there on. -/
theorem scan_append_of {m m' : Mode} {xs : Text} {tokens : List Token}
    (h : scan m xs = some (m', tokens)) (ys : Text) :
    scan m (xs ++ ys) = (scan m' ys).map fun rest => (rest.1, tokens ++ rest.2) := by
  rw [scan_append, h, Option.bind_some]

theorem scan_cons_of {m m' : Mode} {c : Char} {tokens : List Token}
    (h : step m c = some (m', tokens)) (cs : Text) :
    scan m (c :: cs) = (scan m' cs).map fun rest => (rest.1, tokens ++ rest.2) := by
  rw [scan, h, Option.bind_some]

theorem plain_ne {c d : Char} (h : isPlain c = true) (hd : isPlain d = false) : c ≠ d := by
  rintro rfl
  rw [h] at hd
  cases hd

/-- A plain character goes on with a word or begins one. -/
theorem stepBare_plain (pieces : Option Word) {c : Char} (h : isPlain c = true) :
    stepBare pieces c = some (.word (pieces.getD [] ++ [.bare c]), []) := by
  unfold stepBare
  simp only [plain_ne h (show isPlain ' ' = false by decide),
    plain_ne h (show isPlain '\n' = false by decide),
    plain_ne h (show isPlain ';' = false by decide),
    plain_ne h (show isPlain '&' = false by decide),
    plain_ne h (show isPlain '\'' = false by decide),
    plain_ne h (show isPlain '"' = false by decide), h, if_true, if_false]

/-- A word, or the place before one. -/
def Mode.at : Option Word → Mode
  | none => .between
  | some pieces => .word pieces

theorem step_at (pieces : Option Word) (c : Char) :
    step (Mode.at pieces) c = stepBare pieces c := by
  cases pieces <;> rfl

theorem scan_plain (pieces : Word) {text : Text} (h : text.all isPlain = true) :
    scan (.word pieces) text = some (.word (pieces ++ text.map .bare), []) := by
  induction text generalizing pieces with
  | nil => simp [scan]
  | cons c cs ih =>
    rw [List.all_cons, Bool.and_eq_true] at h
    have hstep : step (.word pieces) c = some (.word (pieces ++ [Piece.bare c]), []) :=
      stepBare_plain (some pieces) h.1
    rw [scan_cons_of hstep, ih _ h.2]
    simp

/-- From the place before a word, as after the empty word. -/
theorem scan_at_plain (pieces : Option Word) {text : Text} (hne : text ≠ [])
    (h : text.all isPlain = true) :
    scan (Mode.at pieces) text = some (.word (pieces.getD [] ++ text.map .bare), []) := by
  obtain ⟨c, cs, rfl⟩ := List.exists_cons_of_ne_nil hne
  rw [List.all_cons, Bool.and_eq_true] at h
  have hstep : step (Mode.at pieces) c = some (.word (pieces.getD [] ++ [Piece.bare c]), []) := by
    rw [step_at, stepBare_plain pieces h.1]
  rw [scan_cons_of hstep, scan_plain _ h.2]
  simp

/-! ## Quoting -/

/-- The text between single quotes; each of its own is in double quotes. -/
def escaped (text : Text) : Text :=
  text.flatMap fun c => if c = '\'' then ['\'', '"', '\'', '"', '\''] else [c]

/-- One word of these characters. -/
def quote (text : Text) : Text :=
  if text = [] then ['\'', '\'']
  else if text.all isPlain then text
  else '\'' :: escaped text ++ ['\'']

/-- What a quoted word is read as. -/
def pieces (text : Text) : Word :=
  if text.all isPlain then text.map .bare else text.map .quoted

theorem scan_escaped (before : Word) (text : Text) :
    scan (.single before) (escaped text) = some (.single (before ++ text.map .quoted), []) := by
  induction text generalizing before with
  | nil => simp [escaped, scan]
  | cons c cs ih =>
    have hcons : escaped (c :: cs) =
        (if c = '\'' then ['\'', '"', '\'', '"', '\''] else [c]) ++ escaped cs := rfl
    have hfirst : scan (.single before)
        (if c = '\'' then ['\'', '"', '\'', '"', '\''] else [c]) =
          some (.single (before ++ [Piece.quoted c]), []) := by
      by_cases hc : c = '\''
      · subst hc
        rfl
      · rw [if_neg hc, scan, step, if_neg hc]
        rfl
    rw [hcons, scan_append_of hfirst, ih]
    simp

/-- A quoted text goes on with a word or is one. -/
theorem scan_quote (before : Option Word) (text : Text) :
    scan (Mode.at before) (quote text) = some (.word (before.getD [] ++ pieces text), []) := by
  unfold quote pieces
  have hopen : step (Mode.at before) '\'' = some (.single (before.getD []), []) := by
    rw [step_at]
    rfl
  by_cases hnil : text = []
  · subst hnil
    rw [if_pos rfl, scan_cons_of hopen]
    simp [scan, step]
  rw [if_neg hnil]
  by_cases hplain : text.all isPlain = true
  · rw [if_pos hplain, if_pos hplain]
    exact scan_at_plain before hnil hplain
  · rw [if_neg hplain, if_neg hplain, List.cons_append, scan_cons_of hopen,
      scan_append_of (scan_escaped _ text)]
    simp [scan, step]

theorem scan_between_quote (text : Text) :
    scan .between (quote text) = some (.word (pieces text), []) := scan_quote none text

theorem scan_word_quote (before : Word) (text : Text) :
    scan (.word before) (quote text) = some (.word (before ++ pieces text), []) :=
  scan_quote (some before) text

theorem scan_between_plain {text : Text} (hne : text ≠ []) (h : text.all isPlain = true) :
    scan .between text = some (.word (text.map .bare), []) := scan_at_plain none hne h

@[simp] theorem parts_pieces (text : Text) : Word.parts (pieces text) = text.map .char := by
  unfold pieces Word.parts
  split <;> rw [List.map_map] <;> rfl

/-- Words with blanks between them. -/
def join : List Text → Text
  | [] => []
  | [text] => quote text
  | text :: rest => quote text ++ ' ' :: join rest

/-- Joined words are read one by one; the last of them is not ended. -/
theorem scan_join (words : List Text) (last : Text) :
    scan .between (join (words ++ [last])) =
      some (.word (pieces last), words.map fun w => .word (pieces w)) := by
  induction words with
  | nil => exact scan_between_quote last
  | cons w words ih =>
    have hjoin : join (w :: (words ++ [last])) = quote w ++ ' ' :: join (words ++ [last]) := by
      cases words <;> rfl
    have hblank : step (.word (pieces w)) ' ' = some (.between, [.word (pieces w)]) := rfl
    rw [List.cons_append, hjoin, scan_append_of (scan_between_quote w), scan_cons_of hblank, ih]
    rfl

/-! ## The first word -/

/-- A text that is a command's name where it is the first word. -/
def IsCommandName (text : Text) : Prop :=
  (pieces text).isReserved = false ∧ (pieces text).isAssignment = false

instance (text : Text) : Decidable (IsCommandName text) :=
  inferInstanceAs (Decidable (_ ∧ _))

theorem pieces_eq_bare_iff {text reserved : Text} (h : reserved ≠ []) :
    pieces text = reserved.map .bare ↔ text = reserved ∧ text.all isPlain = true := by
  have hinj : Function.Injective Piece.bare := fun a b hab => by
    injection hab
  unfold pieces
  by_cases hplain : text.all isPlain = true
  · rw [if_pos hplain]
    exact ⟨fun heq => ⟨List.map_injective_iff.mpr hinj heq, hplain⟩, fun heq => by rw [heq.1]⟩
  · rw [if_neg hplain]
    constructor
    · intro heq
      obtain ⟨c, cs, rfl⟩ := List.exists_cons_of_ne_nil h
      rcases text with _ | ⟨a, text⟩
      · cases heq
      · cases heq
    · exact fun heq => absurd heq.2 hplain

/-- Of the reserved words, those made of letters are left unquoted. -/
theorem isReserved_pieces (text : Text) : (pieces text).isReserved = true ↔
    text ∈ reservedWords ∧ text.all isPlain = true := by
  unfold Word.isReserved
  rw [List.any_eq_true]
  constructor
  · rintro ⟨reserved, hmem, heq⟩
    have hne : reserved ≠ [] := by
      rintro rfl
      exact absurd hmem (by decide)
    obtain ⟨rfl, hplain⟩ := (pieces_eq_bare_iff hne).mp (of_decide_eq_true heq)
    exact ⟨hmem, hplain⟩
  · rintro ⟨hmem, hplain⟩
    refine ⟨text, hmem, decide_eq_true ?_⟩
    rw [pieces, if_pos hplain]

/-- A command of words that were quoted. -/
theorem simple_pieces (first : Text) (rest : List Text) :
    simple ((first :: rest).map pieces) =
      some ⟨[], (first :: rest).map fun w => w.map .char⟩ ↔ IsCommandName first := by
  rw [List.map_cons]
  unfold simple IsCommandName
  cases hreserved : (pieces first).isReserved with
  | true => simp [hreserved]
  | false =>
    cases hassignment : (pieces first).isAssignment with
    | true => simp [hreserved, hassignment]
    | false => simp [hreserved, hassignment, Function.comp_def]

/-! ## One command after another -/

/-- The text of one command: it is read as these words, the last of them not ended. -/
def Reads (text : Text) (words : List Word) (last : Word) : Prop :=
  scan .between text = some (.word last, words.map .word)

theorem parseFrom_words (before words : List Word) (rest : List Token) :
    parseFrom before (words.map .word ++ rest) = parseFrom (before ++ words) rest := by
  induction words generalizing before with
  | nil => simp
  | cons w words ih =>
    rw [List.map_cons, List.cons_append, parseFrom, ih, List.append_assoc]
    rfl

section Commands
variable {text : Text} {words : List Word} {last : Word}

theorem Reads.parse (h : Reads text words last) :
    parse text = (simple (words ++ [last])).map fun s => [(s, .last)] := by
  have htokens : words.map Token.word ++ [Token.word last] = (words ++ [last]).map .word ++ [] := by
    simp
  have hne : words ++ [last] ≠ [] := by simp
  rw [PosixShell.parse, lex, h]
  simp only [Option.bind_some, finish, Option.map_some]
  rw [htokens, parseFrom_words, List.nil_append, parseFrom, if_neg hne]

/-- What ends a word and then one command. -/
theorem Reads.lex_append (h : Reads text words last) {sep : Text} {tokens : List Token}
    (hsep : scan (.word last) sep = some (.between, .word last :: tokens)) (rest : Text) :
    lex (text ++ sep ++ rest) =
      (lex rest).map fun after => (words ++ [last]).map .word ++ (tokens ++ after) := by
  rw [lex, lex, List.append_assoc, scan_append_of h, scan_append_of hsep]
  cases hrest : scan .between rest with
  | none => rfl
  | some r =>
    simp only [Option.map_some, Option.bind_some, Option.map_map]
    cases finish r.1 with
    | none => rfl
    | some after => simp

theorem Reads.parse_sequential (h : Reads text words last) {sep : Text} {token : Token}
    (htoken : token = .semicolon ∨ token = .newline)
    (hsep : scan (.word last) sep = some (.between, [.word last, token])) (rest : Text) :
    PosixShell.parse (text ++ sep ++ rest) = (simple (words ++ [last])).bind fun s =>
      (PosixShell.parse rest).map fun p => (s, .sequential) :: p := by
  have hne : words ++ [last] ≠ [] := by simp
  have hparse : ∀ after, parseFrom [] ((words ++ [last]).map .word ++ ([token] ++ after)) =
      (simple (words ++ [last])).bind fun s =>
        (parseFrom [] after).map fun p => (s, .sequential) :: p := by
    intro after
    rw [parseFrom_words, List.nil_append, List.singleton_append]
    rcases htoken with rfl | rfl
    · rfl
    · rw [parseFrom, if_neg hne]
  unfold PosixShell.parse
  rw [h.lex_append hsep]
  cases lex rest with
  | none => cases simple (words ++ [last]) <;> rfl
  | some after =>
    simp only [Option.map_some, Option.bind_some]
    exact hparse after

theorem Reads.parse_andIf (h : Reads text words last) {sep : Text}
    (hsep : scan (.word last) sep = some (.between, [.word last, .andIf])) (rest : Text) :
    PosixShell.parse (text ++ sep ++ rest) = (simple (words ++ [last])).bind fun s =>
      (PosixShell.parse rest).bind fun p => if p = [] then none else some ((s, .andIf) :: p) := by
  unfold PosixShell.parse
  rw [h.lex_append hsep]
  cases lex rest with
  | none => cases simple (words ++ [last]) <;> rfl
  | some after =>
    simp only [Option.map_some, Option.bind_some]
    rw [parseFrom_words, List.nil_append, List.singleton_append, parseFrom]

end Commands

/-- A command whose first word is its name. -/
theorem simple_cons {first : Word} (rest : List Word) (hreserved : first.isReserved = false)
    (hassignment : first.isAssignment = false) :
    simple (first :: rest) = some ⟨[], (first :: rest).map Word.parts⟩ := by
  simp [simple, hreserved, hassignment]

theorem reads_join (words : List Text) (last : Text) :
    Reads (join (words ++ [last])) (words.map pieces) (pieces last) := by
  rw [Reads, scan_join, List.map_map]
  rfl

/-- Joined words are one simple command. -/
theorem parse_join (first : Text) (rest : List Text) :
    parse (join (first :: rest)) =
      (simple ((first :: rest).map pieces)).map fun s => [(s, .last)] := by
  obtain ⟨words, last, heq⟩ : ∃ words last, first :: rest = words ++ [last] :=
    ⟨_, _, (List.dropLast_append_getLast (List.cons_ne_nil first rest)).symm⟩
  rw [heq, (reads_join words last).parse, List.map_append, List.map_singleton]

/-- A plain first word and one word after it. -/
theorem reads_two {command tail : Text} {w : Word} (hne : command ≠ [])
    (hplain : command.all isPlain = true) (h : scan .between tail = some (.word w, [])) :
    Reads (command ++ ' ' :: tail) [command.map .bare] w := by
  have hblank : step (.word (command.map .bare)) ' ' =
      some (.between, [.word (command.map .bare)]) := rfl
  rw [Reads, scan_append_of (scan_between_plain hne hplain), scan_cons_of hblank, h]
  rfl

/-- A name, `=` and what goes on with the word. -/
theorem scan_assigned {name rest : Text} {m : Mode} (hname : name.all isPlain = true)
    (h : scan (.word ((name ++ ['=']).map .bare)) rest = some (m, [])) :
    scan .between (name ++ '=' :: rest) = some (m, []) := by
  have hplain : (name ++ ['=']).all isPlain = true := by
    rw [List.all_append, hname]
    rfl
  have hne : name ++ ['='] ≠ [] := by simp
  rw [List.append_cons, scan_append_of (scan_between_plain hne hplain), h]
  rfl

/-- Quoted words with plain characters between them are one word. -/
theorem scan_intercalate (before : Word) {sep : Text} (hsep : sep.all isPlain = true)
    (texts : List Text) : scan (.word before) (List.intercalate sep (texts.map quote)) =
      some (.word (before ++ List.intercalate (sep.map .bare) (texts.map pieces)), []) := by
  induction texts generalizing before with
  | nil => simp [List.intercalate, scan]
  | cons text rest ih =>
    have hfirst := scan_word_quote before text
    cases rest with
    | nil => simpa [List.intercalate] using hfirst
    | cons next rest =>
      have hrest := ih (before ++ pieces text ++ sep.map .bare)
      simp only [List.map_cons, List.intercalate, List.intersperse_cons_cons, List.flatten_cons]
        at hrest ⊢
      rw [scan_append_of hfirst, scan_append_of (scan_plain _ hsep), hrest]
      simp

theorem parts_append (a b : Word) : Word.parts (a ++ b) = Word.parts a ++ Word.parts b :=
  List.map_append

theorem parts_bare (text : Text) : Word.parts (text.map .bare) = text.map .char := by
  rw [Word.parts, List.map_map]
  rfl

theorem parts_intercalate (sep : Text) (texts : List Text) :
    Word.parts (List.intercalate (sep.map .bare) (texts.map pieces)) =
      (List.intercalate sep texts).map .char := by
  induction texts with
  | nil => rfl
  | cons text rest ih =>
    cases rest with
    | nil => simp [List.intercalate]
    | cons next rest =>
      simp only [List.map_cons, List.intercalate, List.intersperse_cons_cons, List.flatten_cons,
        parts_append, parts_pieces, parts_bare, List.map_append] at ih ⊢
      rw [ih]

end PosixShell
