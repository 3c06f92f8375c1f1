import Remrun.Lib.PosixShell
import Remrun.Shell.PowerShell

/-!
# POSIX scripts

The scripts that `SSHPosixTransport` renders for a command, and what a POSIX shell makes of them:
the exports, the directory and the argument words of one simple command.
-/

namespace Remrun.Posix

open PosixShell
open PowerShell (EnvName)

set_option autoImplicit false

abbrev Text := List Char

/-! ## The command -/

/-- A target: `home` is the remote home once a probe has found it, `profile` what a login shell
makes of the environment, and `sampler` the text of `_POSIX_TELEMETRY_SAMPLER`. The shell and the
interpreter are names of programs. -/
structure Device where
  shell : Text
  loginShell : Bool
  remotePython : Text
  home : Option Text
  profile : (Text → Option Text) → Text → Option Text
  sampler : Text
  shell_plain : shell ≠ [] ∧ shell.all isPlain = true
  shell_name : IsCommandName shell
  python_name : IsCommandName remotePython

structure Command where
  env : List (EnvName × Text)
  pathPrepend : List Text
  cwd : Text
  absolute : cwd.head? = some '/'
  program : Text
  arguments : List Text

def Command.argv (x : Command) : List Text := x.program :: x.arguments

def shlexJoin (command : List Text) : Text :=
  List.intercalate [' '] (command.map PowerShell.shlexQuote)

def exportWord : Text := ['e', 'x', 'p', 'o', 'r', 't']

def cdWord : Text := ['c', 'd']

def pathName : Text := ['P', 'A', 'T', 'H']

/-- `"; "` and `" && "`. -/
def semicolonText : Text := [';', ' ']

def andIfText : Text := [' ', '&', '&', ' ']

namespace Device
variable (d : Device)

def rstripSlashes (path : Text) : Text := path.rdropWhile (· = '/')

/-- `_expand_remote`. -/
def expandRemote (path : Text) : Text :=
  match d.home with
  | none | some [] => path
  | some home =>
    if path = ['~'] ∨ ['~', '/'] <+: path then rstripSlashes home ++ path.drop 1 else path

/-- `remote_python or "python3"`. -/
def python : Text :=
  if d.remotePython = [] then ['p', 'y', 't', 'h', 'o', 'n', '3'] else d.remotePython

def shellFlag : Text := if d.loginShell then ['-', 'l', 'c'] else ['-', 'c']

end Device

section Script
variable (d : Device) (x : Command)

def exportPart (name : EnvName) (value : Text) : Text :=
  exportWord ++ ' ' :: (name.text ++ '=' :: PowerShell.shlexQuote (d.expandRemote value))

def pathPart : Text :=
  exportWord ++ ' ' :: (pathName ++ '=' ::
    (List.intercalate [':'] (x.pathPrepend.map fun p => PowerShell.shlexQuote (d.expandRemote p)) ++
      [':', '"', '$', 'P', 'A', 'T', 'H', '"']))

def cdPart (cwd : Text) : Text :=
  cdWord ++ ' ' :: PowerShell.shlexQuote cwd ++ andIfText ++ shlexJoin x.argv

/-- The script of the user's command. -/
def inner (cwd : Text) : Text :=
  List.intercalate semicolonText (x.env.map (fun (name, value) => exportPart d name value) ++
    (if x.pathPrepend = [] then [] else [pathPart d x]) ++ [cdPart x cwd])

/-- `run_argv` without an observer. -/
def userArgv : List Text := [d.shell, d.shellFlag, inner d x x.cwd]

/-- `observation_wrapper`. -/
structure Observation where
  stateRoot : Text
  helper : Text
  metadata : Text

/-- How `_exec_posix` runs a command: `guard` are the guarded helper's arguments, `detailed` is the
telemetry helper of a run that asks for details, if it could be staged. -/
structure Options where
  observation : Option Observation
  guard : Option (List Text)
  detailed : Option (Option Text)
  telemetry : Bool

def observerArgs (w : Observation) : List Text :=
  [d.python, "-S".toList, w.helper, "run".toList, "--state-root".toList, w.stateRoot,
    "--metadata-b64".toList, w.metadata, "--".toList]

def runArgv (o : Options) : List Text :=
  o.observation.elim [] (observerArgs d) ++ userArgv d x

/-- A shell's name, its flag and its script: the name is not quoted. -/
def shellLine (flag script : Text) : Text :=
  d.shell ++ ' ' :: (flag ++ ' ' :: PowerShell.shlexQuote script)

/-- The script of a run that nothing samples. -/
def unsampled (o : Options) : Text :=
  if o.observation.isSome then shlexJoin (runArgv d x o)
  else if d.loginShell then shellLine d ['-', 'l', 'c'] (inner d x x.cwd)
  else inner d x x.cwd

/-- The script of `_exec_posix`. -/
def execScript (o : Options) : Text :=
  match o.guard, o.detailed with
  | some helperArgs, _ => shlexJoin ([d.python] ++ helperArgs ++ runArgv d x o)
  | none, some (some helper) =>
    shlexJoin ([d.python, helper, "--detailed".toList, "--".toList] ++ runArgv d x o)
  | none, some none => unsampled d x o
  | none, none =>
    if o.telemetry then
      PowerShell.shlexQuote d.remotePython ++ [' ', '-', 'c', ' '] ++
        PowerShell.shlexQuote d.sampler ++ [' ', '-', '-', ' '] ++ shlexJoin (runArgv d x o)
    else unsampled d x o

/-- The script of `exec_control`. -/
def execControlScript : Text := shellLine d d.shellFlag (inner d x (d.expandRemote x.cwd))

/-- The words of `_exec_posix` before the user's shell; with `none` the script is the user's. -/
def wrapper (o : Options) : Option (List Text) :=
  match o.guard, o.detailed with
  | some helperArgs, _ => some (d.python :: helperArgs ++ o.observation.elim [] (observerArgs d))
  | none, some (some helper) =>
    some ([d.python, helper, "--detailed".toList, "--".toList] ++
      o.observation.elim [] (observerArgs d))
  | none, detailed =>
    if o.telemetry ∧ detailed = none then
      some ([d.remotePython, "-c".toList, d.sampler, "--".toList] ++
        o.observation.elim [] (observerArgs d))
    else if o.observation.isSome ∨ d.loginShell then some (o.observation.elim [] (observerArgs d))
    else none

end Script

/-! ## What a shell does -/

structure Execution where
  env : Text → Option Text
  cwd : Text
  argv : List Text

/-- A word with the values of its variables. -/
def expand (env : Text → Option Text) (parts : List Part) : Text :=
  parts.flatMap fun
    | .char c => [c]
    | .parameter name => (env name).getD []

/-- `NAME=VALUE`. -/
def splitAssignment (word : Text) : Option (Text × Text) :=
  let name := word.takeWhile (· ≠ '=')
  match word.dropWhile (· ≠ '=') with
  | _ :: value => if isName name then some (name, value) else none
  | [] => none

/-- One command before the last: an export, or the change into a directory that the rest depends
on. -/
def performOne (env : Text → Option Text) (cwd : Text) (s : Simple) (sep : Separator) :
    Option ((Text → Option Text) × Text) :=
  match s.assignments, s.words.map (expand env), sep with
  | [], [command, word], .sequential =>
    if command = exportWord then
      (splitAssignment word).map fun (name, value) => (Function.update env name (some value), cwd)
    else none
  | [], [command, word], .andIf =>
    if command = cdWord ∧ word.head? = some '/' then some (env, word) else none
  | _, _, _ => none

/-- The exports and the directory of a program, and the words of its last command. -/
def perform (env : Text → Option Text) (cwd : Text) : Program → Option Execution
  | [] => none
  | [(s, sep)] =>
    if s.assignments = [] ∧ sep = .last then some ⟨env, cwd, s.words.map (expand env)⟩ else none
  | (s, sep) :: next :: rest =>
    (performOne env cwd s sep).bind fun state => perform state.1 state.2 (next :: rest)

def performText (env : Text → Option Text) (cwd text : Text) : Option Execution :=
  (parse text).bind (perform env cwd)

namespace Device
variable (d : Device)

/-- The environment of the user's shell. -/
def entered (env : Text → Option Text) : Text → Option Text :=
  if d.loginShell then d.profile env else env

/-- The words `before` run the words after them, which are the user's shell and its script. -/
def runShell (before : List Text) (e : Execution) : Option Execution :=
  match e.argv.take before.length, e.argv.drop before.length with
  | words, [shell, flag, text] =>
    if words = before ∧ shell = d.shell ∧ flag = d.shellFlag then
      performText (d.entered e.env) e.cwd text
    else none
  | _, _ => none

end Device

/-- The ways a command is run. `durable` is given the words before the user's shell in the argument
vector that the supervisor starts. -/
inductive Variant where
  | exec (o : Options)
  | execControl
  | durable (before : List Text)

section Meaning
variable (d : Device) (x : Command)

/-- What running a command comes to, from an environment and a directory. -/
def interpretation (env : Text → Option Text) (cwd : Text) : Variant → Option Execution
  | .exec o =>
    match wrapper d o with
    | none => performText env cwd (execScript d x o)
    | some before => (performText env cwd (execScript d x o)).bind (d.runShell before)
  | .execControl => (performText env cwd (execControlScript d x)).bind (d.runShell [])
  | .durable before => d.runShell before ⟨env, cwd, before ++ userArgv d x⟩

/-- The environment with the exports and the directories before `PATH`. -/
def exported (env : Text → Option Text) : Text → Option Text :=
  let env := x.env.foldl (fun env (name, value) =>
    Function.update env name.text (some (d.expandRemote value))) env
  if x.pathPrepend = [] then env
  else Function.update env pathName (some (List.intercalate [':'] (x.pathPrepend.map d.expandRemote)
    ++ ':' :: (env pathName).getD []))

/-- The command run as it is, with its environment and in its directory. -/
def direct (env : Text → Option Text) : Variant → Execution
  | .exec o =>
    ⟨exported d x (if (wrapper d o).isSome then d.entered env else env), x.cwd, x.argv⟩
  | .execControl | .durable _ => ⟨exported d x (d.entered env), x.cwd, x.argv⟩

/-- Whatever the environment, the rendered command is the command. -/
def Exact (v : Variant) : Prop :=
  ∀ env cwd, interpretation d x env cwd v = some (direct d x env v)

end Meaning

/-! ## Texts -/

theorem shlexQuote_eq (text : Text) : PowerShell.shlexQuote text = quote text := by
  unfold PowerShell.shlexQuote Durable.shlexQuote quote
  rw [String.toList_ofList]
  by_cases hnil : text = []
  · subst hnil
    rfl
  have hne : String.ofList text ≠ "" := fun heq => hnil (by
    have hlist := congrArg String.toList heq
    rw [String.toList_ofList] at hlist
    exact hlist)
  rw [if_neg hne, if_neg hnil]
  by_cases hplain : text.all isPlain = true
  · rw [if_pos hplain]
    exact (congrArg String.toList (if_pos hplain)).trans String.toList_ofList
  · rw [if_neg hplain]
    exact (congrArg String.toList (if_neg hplain)).trans String.toList_ofList

theorem intercalate_cons (sep first : Text) {rest : List Text} (h : rest ≠ []) :
    List.intercalate sep (first :: rest) = first ++ sep ++ List.intercalate sep rest := by
  obtain ⟨next, rest, rfl⟩ := List.exists_cons_of_ne_nil h
  simp [List.intercalate]

theorem shlexJoin_eq (command : List Text) : shlexJoin command = join command := by
  induction command with
  | nil => rfl
  | cons first rest ih =>
    cases rest with
    | nil =>
      rw [shlexJoin, join, List.map_singleton, shlexQuote_eq]
      simp [List.intercalate]
    | cons next rest =>
      have hrest : List.intercalate [' '] (List.map PowerShell.shlexQuote (next :: rest)) =
          join (next :: rest) := ih
      have hjoin : join (first :: next :: rest) = quote first ++ [' '] ++ join (next :: rest) := by
        rw [join, List.append_assoc]
        · rfl
        · exact List.cons_ne_nil next rest
      rw [shlexJoin, List.map_cons, intercalate_cons _ _ (by simp), hrest, hjoin, shlexQuote_eq]

/-- A name that is accepted is one, or one with a line end after it. -/
theorem envName_cases (name : EnvName) : (isName name.text = true ∧ '\n' ∉ name.text) ∨
    ∃ body, isName body = true ∧ name.text = body ++ ['\n'] := by
  have haccepted := name.accepted
  unfold PowerShell.envNameMatches at haccepted
  by_cases hlast : name.text.getLast? = some '\n'
  · right
    rw [if_pos hlast] at haccepted
    exact ⟨name.text.dropLast, haccepted, (List.dropLast_append_getLast? _ hlast).symm⟩
  · left
    rw [if_neg hlast] at haccepted
    refine ⟨haccepted, fun hmem => ?_⟩
    rw [Bool.and_eq_true] at haccepted
    exact absurd (List.all_eq_true.mp haccepted.2 _ hmem) (by decide)

theorem plain_of_isName {name : Text} (h : isName name = true) : name.all isPlain = true := by
  unfold isName at h
  rw [Bool.and_eq_true] at h
  refine List.all_eq_true.mpr fun c hc => ?_
  have hchar := List.all_eq_true.mp h.2 c hc
  unfold PosixShell.isNameChar at hchar
  unfold isPlain
  rw [Bool.or_eq_true] at hchar ⊢
  rcases hchar with halpha | hunderscore
  · exact Or.inl halpha
  · right
    rw [of_decide_eq_true hunderscore]
    decide

theorem newline_notMem_of_isName {name : Text} (h : isName name = true) : '\n' ∉ name :=
  fun hmem => absurd (List.all_eq_true.mp (plain_of_isName h) _ hmem) (by decide)

theorem equals_notMem_of_isName {name : Text} (h : isName name = true) : '=' ∉ name := by
  unfold isName at h
  rw [Bool.and_eq_true] at h
  exact fun hmem => absurd (List.all_eq_true.mp h.2 _ hmem) (by decide)

/-! ## Commands one after another -/

/-- What a command before the last one does is done first. -/
theorem performText_sequential {text sep rest : Text} {words : List Word} {last : Word}
    {s : Simple} {token : Token} (h : Reads text words last)
    (htoken : token = .semicolon ∨ token = .newline)
    (hsep : scan (.word last) sep = some (.between, [.word last, token]))
    (hsimple : simple (words ++ [last]) = some s) (env : Text → Option Text) (cwd : Text) :
    performText env cwd (text ++ sep ++ rest) =
      (performOne env cwd s .sequential).bind fun state => performText state.1 state.2 rest := by
  unfold performText
  rw [h.parse_sequential htoken hsep, hsimple, Option.bind_some]
  cases hrest : parse rest with
  | none => cases performOne env cwd s .sequential <;> rfl
  | some p =>
    cases p with
    | nil =>
      rw [Option.map_some, Option.bind_some, perform, if_neg (fun habs => nomatch habs.2)]
      cases performOne env cwd s .sequential <;> rfl
    | cons next p => rfl

theorem performText_andIf {text sep rest : Text} {words : List Word} {last : Word}
    {s : Simple} (h : Reads text words last)
    (hsep : scan (.word last) sep = some (.between, [.word last, .andIf]))
    (hsimple : simple (words ++ [last]) = some s) (env : Text → Option Text) (cwd : Text) :
    performText env cwd (text ++ sep ++ rest) =
      (performOne env cwd s .andIf).bind fun state => performText state.1 state.2 rest := by
  unfold performText
  rw [h.parse_andIf hsep, hsimple, Option.bind_some]
  cases hrest : parse rest with
  | none => cases performOne env cwd s .andIf <;> rfl
  | some p =>
    cases p with
    | nil => cases performOne env cwd s .andIf <;> rfl
    | cons next p => rfl

theorem expand_char (env : Text → Option Text) (text : Text) :
    expand env (text.map .char) = text := by
  induction text with
  | nil => rfl
  | cons c text ih =>
    rw [List.map_cons, expand, List.flatMap_cons]
    exact congrArg (c :: ·) ih

/-- Joined words are run as they are exactly when the first is a command's name. -/
theorem performText_join (env : Text → Option Text) (cwd first : Text) (rest : List Text) :
    performText env cwd (join (first :: rest)) =
      if IsCommandName first then some ⟨env, cwd, first :: rest⟩ else none := by
  unfold performText
  rw [parse_join]
  by_cases hname : IsCommandName first
  · have hwords : List.map (expand env) ((first :: rest).map fun w => w.map .char) =
        first :: rest := by
      rw [List.map_map]
      exact List.map_id'' (fun w => expand_char env w) _
    rw [(simple_pieces first rest).mpr hname, if_pos hname, Option.map_some, Option.bind_some,
      perform, if_pos ⟨rfl, rfl⟩, hwords]
  · rw [if_neg hname]
    cases hsimple : simple ((first :: rest).map pieces) with
    | none => rfl
    | some s =>
      have hassignments : s.assignments ≠ [] := by
        rw [List.map_cons] at hsimple
        unfold simple at hsimple
        cases hreserved : (pieces first).isReserved with
        | true => simp [hreserved] at hsimple
        | false =>
          have hassignment : (pieces first).isAssignment = true := by
            cases h : (pieces first).isAssignment with
            | true => rfl
            | false => exact absurd ⟨hreserved, h⟩ hname
          simp only [hreserved, Bool.false_eq_true, if_false, Option.some.injEq] at hsimple
          rw [← hsimple]
          simp [hassignment]
      rw [Option.map_some, Option.bind_some, perform, if_neg (fun habs => hassignments habs.1)]

/-! ## The parts of a script -/

theorem simple_export (w : Word) : simple ([exportWord.map .bare] ++ [w]) =
    some ⟨[], [exportWord.map .char, w.parts]⟩ :=
  simple_cons [w] (by decide) (by decide)

theorem splitAssignment_equals {name : Text} (h : isName name = true) (value : Text) :
    splitAssignment (name ++ '=' :: value) = some (name, value) := by
  have hall : ∀ c ∈ name, decide (c ≠ '=') = true := fun c hc =>
    decide_eq_true (fun heq => equals_notMem_of_isName h (heq ▸ hc))
  unfold splitAssignment
  rw [List.takeWhile_append_of_pos hall, List.dropWhile_append_of_pos hall,
    List.takeWhile_cons_of_neg (by simp), List.dropWhile_cons_of_neg (by simp), List.append_nil]
  simp only [h, if_true]

theorem splitAssignment_none {name : Text} (h : isName name = true) :
    splitAssignment name = none := by
  have hall : ∀ c ∈ name, decide (c ≠ '=') = true := fun c hc =>
    decide_eq_true (fun heq => equals_notMem_of_isName h (heq ▸ hc))
  unfold splitAssignment
  rw [List.dropWhile_eq_nil_iff.mpr hall]

/-- `export` with one word. -/
theorem performOne_export (env : Text → Option Text) (cwd : Text) (parts : List Part) :
    performOne env cwd ⟨[], [exportWord.map .char, parts]⟩ .sequential =
      (splitAssignment (expand env parts)).map fun (name, value) =>
        (Function.update env name (some value), cwd) := by
  simp only [performOne, List.map_cons, List.map_nil, expand_char, if_true]

theorem simple_cd (dir : Text) : simple ([cdWord.map .bare] ++ [pieces dir]) =
    some ⟨[], [cdWord.map .char, dir.map .char]⟩ := by
  have h : simple (cdWord.map .bare :: [pieces dir]) = _ :=
    simple_cons [pieces dir] (by decide) (by decide)
  rw [List.map_cons, List.map_singleton, parts_pieces] at h
  exact h

/-- `cd` with an absolute path. -/
theorem performOne_cd (env : Text → Option Text) (cwd : Text) {dir : Text}
    (hdir : dir.head? = some '/') :
    performOne env cwd ⟨[], [cdWord.map .char, dir.map .char]⟩ .andIf = some (env, dir) := by
  simp only [performOne, List.map_cons, List.map_nil, expand_char]
  exact if_pos ⟨trivial, hdir⟩

section Parts
variable (d : Device) (x : Command) (env : Text → Option Text) (cwd : Text) (rest : Text)

theorem scan_semicolon (w : Word) :
    scan (.word w) semicolonText = some (.between, [.word w, .semicolon]) := rfl

/-- The export of a name without a line end. -/
theorem performText_exportPart {name : EnvName} (hname : isName name.text = true) (value : Text) :
    performText env cwd (exportPart d name value ++ semicolonText ++ rest) =
      performText (Function.update env name.text (some (d.expandRemote value))) cwd rest := by
  have htail := scan_assigned (plain_of_isName hname)
    (scan_word_quote ((name.text ++ ['=']).map .bare) (d.expandRemote value))
  have hreads := reads_two (show exportWord ≠ [] by decide) (by decide) htail
  unfold exportPart
  rw [shlexQuote_eq, performText_sequential hreads (Or.inl rfl) (scan_semicolon _)
    (simple_export _), performOne_export, parts_append, parts_bare, parts_pieces,
    ← List.map_append, expand_char, List.append_assoc, List.singleton_append,
    splitAssignment_equals hname]
  rfl

/-- A line end after a name ends the export before its value. -/
theorem performText_exportPart_newline {name : EnvName} {body : Text} (hbody : isName body = true)
    (hname : name.text = body ++ ['\n']) (value : Text) :
    performText env cwd (exportPart d name value ++ semicolonText ++ rest) = none := by
  have hne : body ≠ [] := by
    rintro rfl
    exact absurd hbody (by decide)
  have htail := scan_between_plain hne (plain_of_isName hbody)
  have hreads := reads_two (show exportWord ≠ [] by decide) (by decide) htail
  have htext : exportPart d name value ++ semicolonText ++ rest =
      exportWord ++ ' ' :: body ++ ['\n'] ++
        ('=' :: PowerShell.shlexQuote (d.expandRemote value) ++ semicolonText ++ rest) := by
    unfold exportPart
    rw [hname]
    simp
  rw [htext, performText_sequential hreads (Or.inr rfl) rfl (simple_export _), performOne_export,
    parts_bare, expand_char, splitAssignment_none hbody]
  rfl

theorem performText_pathPart : performText env cwd (pathPart d x ++ semicolonText ++ rest) =
    performText (Function.update env pathName
      (some (List.intercalate [':'] (x.pathPrepend.map d.expandRemote) ++
        ':' :: (env pathName).getD []))) cwd rest := by
  have hquotes : (x.pathPrepend.map fun p => PowerShell.shlexQuote (d.expandRemote p)) =
      (x.pathPrepend.map d.expandRemote).map quote := by
    rw [List.map_map]
    exact List.map_congr_left fun p _ => shlexQuote_eq _
  have hlist := scan_intercalate ((pathName ++ ['=']).map .bare) (show [':'].all isPlain = true by
    decide) (x.pathPrepend.map d.expandRemote)
  have hend : ∀ w : Word, scan (.word w) [':', '"', '$', 'P', 'A', 'T', 'H', '"'] =
      some (.word (w ++ [Piece.bare ':'] ++ [Piece.parameter pathName]), []) := fun w => rfl
  have hword := scan_append_of hlist [':', '"', '$', 'P', 'A', 'T', 'H', '"']
  rw [hend] at hword
  have hreads := reads_two (show exportWord ≠ [] by decide) (by decide)
    (scan_assigned (show pathName.all isPlain = true by decide) hword)
  have hexpand : ∀ parts : List Part, expand env (parts ++ [Part.char ':', Part.parameter pathName]) =
      expand env parts ++ ':' :: (env pathName).getD [] := fun parts => by
    simp [expand]
  unfold pathPart
  rw [hquotes, performText_sequential hreads (Or.inl rfl) (scan_semicolon _) (simple_export _),
    performOne_export]
  simp only [parts_append, parts_bare, parts_intercalate, List.append_assoc]
  have hparts : Word.parts [Piece.bare ':'] ++ Word.parts [Piece.parameter pathName] =
      [Part.char ':', .parameter pathName] := rfl
  rw [hparts, ← List.append_assoc, ← List.map_append, hexpand, expand_char, List.append_assoc,
    List.append_assoc, List.singleton_append, splitAssignment_equals (by decide)]
  rfl

theorem performText_cdPart {dir : Text} (hdir : dir.head? = some '/') :
    performText env cwd (cdPart x dir) =
      if IsCommandName x.program then some ⟨env, dir, x.argv⟩ else none := by
  have hreads : Reads (cdWord ++ ' ' :: quote dir) [cdWord.map .bare] (pieces dir) :=
    reads_two (by decide) (by decide) (scan_between_quote dir)
  unfold cdPart
  rw [shlexQuote_eq, shlexJoin_eq, performText_andIf hreads rfl (simple_cd dir),
    performOne_cd env cwd hdir, Option.bind_some]
  exact performText_join env dir x.program x.arguments

end Parts

/-! ## The user's script -/

/-- No name has a line end and the first word is a command's name. -/
def Command.Plain (x : Command) : Prop :=
  (∀ e ∈ x.env, '\n' ∉ e.1.text) ∧ IsCommandName x.program

instance (x : Command) : Decidable x.Plain := inferInstanceAs (Decidable (_ ∧ _))

section Inner
variable (d : Device) (x : Command) (cwd : Text)

/-- The exports of the list, then the rest of the script. -/
theorem performText_exports (entries : List (EnvName × Text)) {parts : List Text}
    (hparts : parts ≠ []) (env : Text → Option Text) :
    performText env cwd (List.intercalate semicolonText
      (entries.map (fun (name, value) => exportPart d name value) ++ parts)) =
    if ∀ e ∈ entries, '\n' ∉ e.1.text then
      performText (entries.foldl (fun env (name, value) =>
        Function.update env name.text (some (d.expandRemote value))) env) cwd
        (List.intercalate semicolonText parts)
    else none := by
  induction entries generalizing env with
  | nil => simp
  | cons e entries ih =>
    obtain ⟨name, value⟩ := e
    have hne : entries.map (fun (name, value) => exportPart d name value) ++ parts ≠ [] := by
      simp [hparts]
    rw [List.map_cons, List.cons_append, intercalate_cons _ _ hne]
    rcases envName_cases name with ⟨hname, hline⟩ | ⟨body, hbody, hname⟩
    · rw [performText_exportPart d env cwd _ hname, ih]
      simp only [List.forall_mem_cons, hline, not_false_eq_true, true_and, List.foldl_cons]
    · have hline : ¬ ∀ e ∈ (name, value) :: entries, '\n' ∉ e.1.text := fun h => by
        have hnone := h _ List.mem_cons_self
        rw [hname] at hnone
        simp at hnone
      rw [performText_exportPart_newline d env cwd _ hbody hname, if_neg hline]

theorem performText_inner (env : Text → Option Text) {dir : Text} (hdir : dir.head? = some '/') :
    performText env cwd (inner d x dir) =
      if x.Plain then some ⟨exported d x env, dir, x.argv⟩ else none := by
  have hlast : ∀ text : Text, List.intercalate semicolonText [text] = text := fun text => by
    simp [List.intercalate]
  unfold inner
  rw [List.append_assoc, performText_exports d cwd x.env (by simp)]
  by_cases hnames : ∀ e ∈ x.env, '\n' ∉ e.1.text
  · have hplain : x.Plain ↔ IsCommandName x.program := and_iff_right hnames
    rw [if_pos hnames]
    unfold exported
    by_cases hpath : x.pathPrepend = []
    · simp only [if_pos hpath, List.nil_append, hlast, performText_cdPart x _ cwd hdir, hplain]
    · simp only [if_neg hpath, List.singleton_append]
      rw [intercalate_cons _ _ (by simp), hlast, performText_pathPart,
        performText_cdPart x _ cwd hdir]
      simp only [hplain]
  · rw [if_neg hnames, if_neg fun habs : x.Plain => hnames habs.1]

/-- The user's shell, whatever is before it. -/
theorem runShell_userArgv (before : List Text) (env : Text → Option Text) {dir : Text}
    (hdir : dir.head? = some '/') :
    d.runShell before ⟨env, cwd, before ++ [d.shell, d.shellFlag, inner d x dir]⟩ =
      if x.Plain then some ⟨exported d x (d.entered env), dir, x.argv⟩ else none := by
  unfold Device.runShell
  simp only [List.take_left, List.drop_left, and_self, if_true]
  exact performText_inner d x cwd _ hdir

end Inner

/-! ## Scripts around the user's -/

section Outer
variable (d : Device) (x : Command)

theorem python_name : IsCommandName d.python := by
  unfold Device.python
  split
  · decide
  · exact d.python_name

theorem quote_plain {text : Text} (hne : text ≠ []) (h : text.all isPlain = true) :
    quote text = text := by
  rw [quote, if_neg hne, if_pos h]

theorem join_cons (first : Text) {rest : List Text} (h : rest ≠ []) :
    join (first :: rest) = quote first ++ ' ' :: join rest := by
  obtain ⟨next, rest, rfl⟩ := List.exists_cons_of_ne_nil h
  rfl

theorem shellLine_eq {flag : Text} (hflag : flag = ['-', 'c'] ∨ flag = ['-', 'l', 'c'])
    (script : Text) : shellLine d flag script = join [d.shell, flag, script] := by
  have hquote : quote flag = flag := by
    rcases hflag with rfl | rfl <;> rfl
  unfold shellLine
  rw [join_cons _ (by simp), join_cons _ (by simp), quote_plain d.shell_plain.1 d.shell_plain.2,
    hquote, shlexQuote_eq]
  rfl

/-- A script of joined words whose first is the interpreter. -/
theorem performText_python (env : Text → Option Text) (cwd : Text) (rest : List Text) :
    performText env cwd (join (d.python :: rest)) = some ⟨env, cwd, d.python :: rest⟩ := by
  rw [performText_join, if_pos (python_name d)]

theorem performText_shellLine (env : Text → Option Text) (cwd : Text) {flag : Text}
    (hflag : flag = ['-', 'c'] ∨ flag = ['-', 'l', 'c']) (script : Text) :
    performText env cwd (shellLine d flag script) = some ⟨env, cwd, [d.shell, flag, script]⟩ := by
  rw [shellLine_eq d hflag, performText_join, if_pos d.shell_name]

theorem shellFlag_cases : d.shellFlag = ['-', 'c'] ∨ d.shellFlag = ['-', 'l', 'c'] := by
  unfold Device.shellFlag
  split
  · exact Or.inr rfl
  · exact Or.inl rfl

/-- The script of a wrapped run is the wrapper's words and the user's shell. -/
theorem performText_execScript {o : Options} {before : List Text} (h : wrapper d o = some before)
    (env : Text → Option Text) (cwd : Text) :
    performText env cwd (execScript d x o) = some ⟨env, cwd, before ++ userArgv d x⟩ := by
  have hunsampled : o.observation.isSome ∨ d.loginShell = true →
      performText env cwd (unsampled d x o) =
        some ⟨env, cwd, o.observation.elim [] (observerArgs d) ++ userArgv d x⟩ := by
    intro hcase
    unfold unsampled runArgv
    cases hobservation : o.observation with
    | some w =>
      simp only [Option.isSome_some, if_true, shlexJoin_eq]
      exact performText_python d env cwd _
    | none =>
      have hlogin : d.loginShell = true := by simpa [hobservation] using hcase
      have hflag : d.shellFlag = ['-', 'l', 'c'] := if_pos hlogin
      rw [if_neg (by simp), if_pos hlogin, performText_shellLine d env cwd (Or.inr rfl)]
      simp only [Option.elim_none, List.nil_append, userArgv, hflag]
  unfold wrapper at h
  unfold execScript
  cases hguard : o.guard with
  | some helperArgs =>
    rw [hguard] at h
    obtain rfl := Option.some.inj h
    simp only [shlexJoin_eq, runArgv, List.cons_append, List.nil_append, List.append_assoc]
    exact performText_python d env cwd _
  | none =>
    rw [hguard] at h
    cases hdetailed : o.detailed with
    | some staged =>
      rw [hdetailed] at h
      cases staged with
      | some helper =>
        obtain rfl := Option.some.inj h
        simp only [shlexJoin_eq, runArgv, List.cons_append, List.nil_append]
        exact performText_python d env cwd _
      | none =>
        simp only [reduceCtorEq, and_false, if_false] at h
        split at h
        · rename_i hcase
          obtain rfl := Option.some.inj h
          exact hunsampled hcase
        · cases h
    | none =>
      rw [hdetailed] at h
      simp only [and_true] at h ⊢
      by_cases htelemetry : o.telemetry = true
      · rw [if_pos htelemetry] at h ⊢
        obtain rfl := Option.some.inj h
        have hjoin : PowerShell.shlexQuote d.remotePython ++ [' ', '-', 'c', ' '] ++
            PowerShell.shlexQuote d.sampler ++ [' ', '-', '-', ' '] ++
              shlexJoin (runArgv d x o) =
            join (d.remotePython :: "-c".toList :: d.sampler :: "--".toList ::
              runArgv d x o) := by
          have hne : runArgv d x o ≠ [] := by simp [runArgv, userArgv]
          rw [join_cons _ (by simp), join_cons _ (by simp), join_cons _ (by simp),
            join_cons _ hne, shlexQuote_eq, shlexQuote_eq, shlexJoin_eq]
          simp [quote_plain, isPlain]
        rw [hjoin, performText_join, if_pos d.python_name]
        simp [runArgv]
      · rw [if_neg htelemetry] at h ⊢
        split at h
        · rename_i hcase
          obtain rfl := Option.some.inj h
          exact hunsampled hcase
        · cases h

/-- A run without a wrapper is the user's script. -/
theorem execScript_inner {o : Options} (h : wrapper d o = none) :
    execScript d x o = inner d x x.cwd := by
  have hunsampled : ¬ (o.observation.isSome ∨ d.loginShell = true) →
      unsampled d x o = inner d x x.cwd := by
    intro hcase
    rw [not_or] at hcase
    rw [unsampled, if_neg hcase.1, if_neg hcase.2]
  unfold wrapper at h
  unfold execScript
  cases hguard : o.guard with
  | some helperArgs =>
    rw [hguard] at h
    cases h
  | none =>
    rw [hguard] at h
    cases hdetailed : o.detailed with
    | some staged =>
      rw [hdetailed] at h
      cases staged with
      | some helper => cases h
      | none =>
        simp only [reduceCtorEq, and_false, if_false] at h
        split at h
        · cases h
        · rename_i hcase
          exact hunsampled hcase
    | none =>
      rw [hdetailed] at h
      simp only [and_true] at h ⊢
      by_cases htelemetry : o.telemetry = true
      · rw [if_pos htelemetry] at h
        cases h
      · rw [if_neg htelemetry] at h ⊢
        split at h
        · cases h
        · rename_i hcase
          exact hunsampled hcase

/-- An absolute path is no path below the home. -/
theorem expandRemote_absolute {path : Text} (h : path.head? = some '/') :
    d.expandRemote path = path := by
  have hhome : ¬ (path = ['~'] ∨ ['~', '/'] <+: path) := by
    rintro (rfl | ⟨rest, rfl⟩)
    · cases h
    · cases h
  unfold Device.expandRemote
  split
  · rfl
  · rfl
  · rw [if_neg hhome]

end Outer

/-- Whatever the environment, what a rendered command comes to. -/
theorem interpretation_eq (d : Device) (x : Command) (v : Variant) (env : Text → Option Text)
    (cwd : Text) :
    interpretation d x env cwd v = if x.Plain then some (direct d x env v) else none := by
  cases v with
  | exec o =>
    unfold interpretation direct
    cases hwrapper : wrapper d o with
    | none =>
      simp only [hwrapper, execScript_inner d x hwrapper]
      exact performText_inner d x cwd env x.absolute
    | some before =>
      simp only [hwrapper, performText_execScript d x hwrapper, Option.bind_some]
      exact runShell_userArgv d x cwd before env x.absolute
  | execControl =>
    unfold interpretation direct execControlScript
    rw [expandRemote_absolute d x.absolute,
      performText_shellLine d env cwd (shellFlag_cases d), Option.bind_some]
    exact runShell_userArgv d x cwd [] env x.absolute
  | durable before => exact runShell_userArgv d x cwd before env x.absolute

/-- A rendered command is run exactly when no name of its environment has a line end and its first
word is neither a reserved word nor an assignment. -/
theorem rendered_exactly_iff (d : Device) (x : Command) (v : Variant) :
    Exact d x v ↔ x.Plain := by
  unfold Exact
  constructor
  · intro h
    by_contra hplain
    have hnone := h (fun _ => none) []
    rw [interpretation_eq, if_neg hplain] at hnone
    cases hnone
  · intro hplain env cwd
    rw [interpretation_eq, if_pos hplain]

/-- What the names of commands are: a first word that needs quotes always is one. -/
theorem isCommandName_iff (word : Text) : IsCommandName word ↔
    ¬ (word.all isPlain = true ∧
      (word ∈ reservedWords ∨ Word.isAssignment (word.map .bare) = true)) := by
  unfold IsCommandName
  by_cases hplain : word.all isPlain = true
  · have hreserved := isReserved_pieces word
    have hpieces : pieces word = word.map .bare := if_pos hplain
    rw [← hpieces, ← Bool.not_eq_true, hreserved, ← Bool.not_eq_true]
    simp only [hplain, and_true, true_and, not_or]
  · have hreserved : (pieces word).isReserved = false := by
      rw [← Bool.not_eq_true, isReserved_pieces]
      exact fun h => hplain h.2
    have hpieces : pieces word = word.map .quoted := if_neg hplain
    have hassignment : (pieces word).isAssignment = false := by
      rw [hpieces]
      cases word with
      | nil => rfl
      | cons c cs => rfl
    simp only [hreserved, hassignment, hplain, Bool.false_eq_true, false_and, not_false_eq_true,
      and_self]

def bash : Device where
  shell := ['b', 'a', 's', 'h']
  loginShell := true
  remotePython := []
  home := none
  profile := id
  sampler := []
  shell_plain := by decide
  shell_name := by decide
  python_name := by decide

/-- `LANG=C sort` given as a command of two words: the first of them assigns. -/
def langSort : Command where
  env := []
  pathPrepend := []
  cwd := ['/']
  absolute := rfl
  program := ['L', 'A', 'N', 'G', '=', 'C']
  arguments := [['s', 'o', 'r', 't']]

theorem assignment_not_run : ¬ ∀ (d : Device) (x : Command) (v : Variant), Exact d x v := by
  intro h
  have hrun := h bash langSort .execControl (fun _ => none) []
  have hplain : ¬ langSort.Plain := fun habs => absurd habs.2 (by decide)
  rw [interpretation_eq, if_neg hplain] at hrun
  cases hrun

end Remrun.Posix
