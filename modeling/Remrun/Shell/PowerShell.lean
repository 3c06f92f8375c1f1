import Remrun.Durable.Launch
import Remrun.Lib.Base64
import Remrun.Lib.Quoting

/-!
# PowerShell scripts

The scripts that the PowerShell transport sends (`transport.py`). Every path, token, environment
value, marker and pattern stands in a script as a single-quoted literal that `_ps_squote` makes by
doubling the apostrophe. PowerShell takes four more characters for the apostrophe: a script is
read as written exactly when none of them is in an argument.
-/

namespace Remrun.PowerShell

open Quoting
set_option autoImplicit false

abbrev Text := List Char

/-! ## The language's literals -/

/-- The single quotation marks U+2018, U+2019, U+201A and U+201B. -/
def curlyQuotes : Text := ['\u2018', '\u2019', '\u201a', '\u201b']

/-- Characters that begin another literal, a comment or an escape: no template has them. -/
def specials : Text := ['"', '\u201c', '\u201d', '\u201e', '\x60', '#', '@']

def rule : Rule Char where
  delimiter c := c = '\'' || c ∈ curlyQuotes
  bare c := c ∉ specials
  mark := '\''
  delimiter_mark := by decide

abbrev Script := rule.Script

/-- A text of the template. -/
def code (text : String) {chars : Text} (_htext : text = String.ofList chars := by rfl)
    (h : rule.isCode chars = true := by decide +kernel) : Script :=
  Rule.code chars h

/-- A text of the template and the literal after it. -/
def codeValue (text : String) (value : Text) {chars : Text}
    (_htext : text = String.ofList chars := by rfl)
    (h : rule.isCode chars = true := by decide +kernel) : Script :=
  Rule.withValue chars value h

/-- `_ps_squote`. -/
def psSquote (value : Text) : Text := rule.quote value

/-- A text of which no character means anything to the lexer: a name or a number. -/
structure Word where
  text : Text
  ne_nil : text ≠ []
  plain : ∀ c ∈ text, rule.delimiter c = false ∧ rule.bare c = true

theorem settles_of_plain {text : Text}
    (h : ∀ c ∈ text, rule.delimiter c = false ∧ rule.bare c = true) :
    rule.settles .code text = true := by
  induction text with
  | nil => rfl
  | cons c cs ih =>
    obtain ⟨hdelim, hbare⟩ := h c List.mem_cons_self
    have hcs := ih fun d hd => h d (List.mem_cons_of_mem c hd)
    simp [Rule.settles, hdelim, hbare, hcs]

theorem Word.isCode (w : Word) : rule.isCode w.text = true := by
  obtain ⟨c, cs, heq⟩ := List.exists_cons_of_ne_nil w.ne_nil
  have hc : rule.delimiter c = false := (w.plain c (heq ▸ List.mem_cons_self)).1
  have hsettles := settles_of_plain w.plain
  rw [heq] at hsettles
  simp [Rule.isCode, heq, hc, hsettles]

def word (w : Word) : Script := Rule.code w.text w.isCode

def joined (separator : Script) (lines : List Script) : Script :=
  (List.intersperse separator lines).flatten

/-- `"\n".join(lines)`. -/
def unlines (lines : List Script) : Script := joined (code "\n") lines

section Values
variable {text : String} {chars : Text} {htext : text = String.ofList chars}
  {h : rule.isCode chars = true}

@[simp] theorem values_code : Rule.Script.values (code text htext h) = [] := rfl

@[simp] theorem values_codeValue {value : Text} :
    Rule.Script.values (codeValue text value htext h) = [value] := rfl

@[simp] theorem values_word (w : Word) : Rule.Script.values (word w) = [] := rfl

@[simp] theorem values_flatMap {β : Type} (xs : List β) (f : β → Script) :
    Rule.Script.values (xs.flatMap f) = xs.flatMap fun x => Rule.Script.values (f x) := by
  induction xs with
  | nil => rfl
  | cons x xs ih => simp [ih]

theorem values_joined {separator : Script} (hsep : Rule.Script.values separator = [])
    (lines : List Script) :
    Rule.Script.values (joined separator lines) = lines.flatMap Rule.Script.values := by
  unfold joined
  induction lines with
  | nil => rfl
  | cons line lines ih =>
    cases lines with
    | nil => simp
    | cons next lines =>
      simp only [List.intersperse_cons_cons, List.flatten_cons, Rule.Script.values_append, ih,
        hsep, List.nil_append, List.flatMap_cons]

@[simp] theorem values_unlines (lines : List Script) :
    Rule.Script.values (unlines lines) = lines.flatMap Rule.Script.values :=
  values_joined values_code lines

end Values

/-! ## Names and numbers -/

def isNameStart (c : Char) : Bool := c.isAlpha || c = '_'

def isNameChar (c : Char) : Bool := c.isAlphanum || c = '_'

/-- `_ENV_NAME_RE.match`: the `$` at the pattern's end also matches before a last newline. -/
def envNameMatches (name : Text) : Bool :=
  let body := if name.getLast? = some '\n' then name.dropLast else name
  body.head?.any isNameStart && body.all isNameChar

/-- A name that `_check_env_name` accepts. -/
structure EnvName where
  text : Text
  accepted : envNameMatches text = true

theorem nameChar_plain {c : Char} (h : isNameChar c = true) :
    rule.delimiter c = false ∧ rule.bare c = true := by
  constructor
  · by_contra hdelim
    have hdelim : c = '\'' ∨ c ∈ curlyQuotes := by
      simpa [rule, or_iff_not_imp_left] using hdelim
    rcases hdelim with rfl | hcurly
    · exact absurd h (by decide)
    · have hnone : (curlyQuotes.any isNameChar) = false := by decide +kernel
      exact absurd h (List.any_eq_false.mp hnone c hcurly)
  · by_contra hspecial
    have hspecial : c ∈ specials := by simpa [rule] using hspecial
    have hnone : (specials.any isNameChar) = false := by decide +kernel
    exact absurd h (List.any_eq_false.mp hnone c hspecial)

theorem EnvName.mem_text (name : EnvName) {c : Char} (hc : c ∈ name.text) :
    c = '\n' ∨ isNameChar c = true := by
  have h := (Bool.and_eq_true_iff.mp name.accepted).2
  rw [List.all_eq_true] at h
  split at h
  · rename_i hlast
    obtain ⟨body, heq⟩ := List.getLast?_eq_some_iff.mp hlast
    rw [heq, List.dropLast_concat] at h
    rw [heq, List.mem_append, List.mem_singleton] at hc
    exact hc.symm.imp id (h c)
  · exact .inr (h c hc)

def EnvName.word (name : EnvName) : Word where
  text := name.text
  ne_nil := by
    have h := name.accepted
    rintro heq
    simp [heq, envNameMatches] at h
  plain c hc := by
    rcases name.mem_text hc with rfl | h
    · decide
    · exact nameChar_plain h

theorem digits_plain (n : Nat) : ∀ c ∈ Nat.toDigits 10 n, isNameChar c = true := fun c hc => by
  have hdigit : c.isDigit = true := Nat.isDigit_of_mem_toDigits (by decide) (by decide) hc
  simp [isNameChar, Char.isAlphanum, hdigit]

/-- A number as an f-string prints it. -/
def number (n : Int) : Word where
  text := if n < 0 then '-' :: Nat.toDigits 10 n.natAbs else Nat.toDigits 10 n.natAbs
  ne_nil := by
    split
    · exact List.cons_ne_nil _ _
    · exact Nat.toDigits_ne_nil
  plain c hc := by
    split at hc
    · rcases List.mem_cons.mp hc with rfl | hc
      · decide
      · exact nameChar_plain (digits_plain _ c hc)
    · exact nameChar_plain (digits_plain _ c hc)

/-! ## What the transport knows -/

structure Device where
  shell : Text
  remotePython : Option Text
  stateRoot : Text
  /-- the home that the probe captured -/
  remoteHome : Option Text

/-- `text.rstrip("\\/")`. -/
def rstripSeparators (text : Text) : Text := text.rdropWhile fun c => c = '\\' || c = '/'

namespace Device
variable (d : Device)

/-- `_ps_exe`. -/
def psExe : Text :=
  if d.shell = "pwsh".toList ∨ d.shell = "powershell".toList then d.shell else "powershell".toList

def python : Text := match d.remotePython with
  | some python => if python = [] then "python".toList else python
  | none => "python".toList

/-- `_expand_remote`: a leading `~` is the home, with backslashes after it. -/
def expandRemote (path : Text) : Text :=
  match d.remoteHome.filter (· ≠ []), path with
  | some home, '~' :: rest =>
    if rest.head?.all (fun c => c = '/' || c = '\\') then
      rstripSeparators home ++ rest.map fun c => if c = '/' then '\\' else c
    else path
  | _, _ => path

end Device

/-- `script.encode("utf-16-le")`. -/
def utf16le (text : Text) : List UInt8 :=
  text.flatMap fun c =>
    let unit (n : Nat) : List UInt8 := [UInt8.ofNat (n % 256), UInt8.ofNat (n / 256)]
    if c.toNat < 0x10000 then unit c.toNat
    else unit (0xd800 + (c.toNat - 0x10000) / 0x400) ++ unit (0xdc00 + (c.toNat - 0x10000) % 0x400)

/-- `_ps_encode`. -/
def psEncode (script : Text) : Text :=
  (Base64.encode (utf16le script)).map fun b => Char.ofNat b.toNat

/-- `_ps_remote_command`. -/
def psRemoteCommand (shell script : Text) : Text :=
  shell ++ " -NoProfile -NonInteractive -EncodedCommand ".toList ++ psEncode script

/-- `_ps_remote_command_fits`: `_WINDOWS_REMOTE_COMMAND_LINE_LIMIT` is 8191. -/
def psRemoteCommandFits (shell script : Text) : Bool :=
  (psRemoteCommand shell script).length ≤ 8191

/-! ## Parts of the scripts -/

/-- `"& " + " ".join(_ps_squote(token) for token in command)`. -/
def invocation : List Text → Script
  | [] => code "& "
  | token :: tokens => codeValue "& " token ++ tokens.flatMap fun token => codeValue " " token

def stopOnError : Script := codeValue "$ErrorActionPreference = " "Stop".toList

def preferences : List Script :=
  [stopOnError, code "$PSNativeCommandUseErrorActionPreference = $false"]

/-- What a command is run with. -/
structure Context where
  cwd : Text
  env : List (EnvName × Text)
  pathPrepend : List Text

/-- `";".join(self._expand_remote(p) for p in path_prepend) + ";"`. -/
def joinedPath (d : Device) (paths : List Text) : Text :=
  paths.flatMap fun path => d.expandRemote path ++ [';']

def environment (d : Device) (x : Context) : List Script :=
  x.env.map (fun (name, value) =>
    code "$env:" ++ word name.word ++ codeValue " = " (d.expandRemote value)) ++
  if x.pathPrepend = [] then [] else
    [codeValue "$env:PATH = " (joinedPath d x.pathPrepend) ++ code " + $env:PATH"]

def setLocation (d : Device) (x : Context) : Script :=
  codeValue "Set-Location -LiteralPath " (d.expandRemote x.cwd)

set_option maxRecDepth 2000 in
/-- `_ps_command_boundary_guard`. -/
def psCommandBoundaryGuard (commandName marker : Text) (rejectMissing : Bool) : List Script :=
  let missing := if rejectMissing then code "[Console]::Error.Write($rm+'N;');exit 127"
    else code "$null=$null"
  [codeValue "$rm=" marker,
   code "$ri=&\x7b$PSModuleAutoLoadingPreference='None';" ++
      codeValue "$ExecutionContext.InvokeCommand.GetCommand(" commandName ++
      code ",[System.Management.Automation.CommandTypes]::All)\x7d",
   code "if($null -eq $ri)\x7b" ++ missing ++ code "\x7delse\x7b",
   code "if($ri.CommandType -eq 'Alias')\x7b[Console]::Error.Write($rm+'P;');exit 126\x7d",
   code "if($ri.Path -match '\\.(cmd|bat)$')\x7b[Console]::Error.Write($rm+'B;');exit 126\x7d",
   code "if($ri.CommandType -ne 'Application' -and " ++
      code "($ri.CommandType -ne 'ExternalScript' -or $ri.Path -notmatch '\\.ps1$'))\x7b" ++
      code "[Console]::Error.Write($rm+'P;');exit 126\x7d",
   code "\x7d",
   code "Remove-Variable ri,rm -ErrorAction SilentlyContinue"]

/-- `_ps_boundary_markers`: the marker that the guard writes. -/
def boundaryMarker (nonce : Text) : Text :=
  "__REMRUN_COMMAND_BOUNDARY_".toList ++ nonce ++ "__".toList

/-- The lines after a command that end the shell with the command's status. -/
def endWithStatus : List Script :=
  [code "$remrunCommandSucceeded = $?",
   code "$remrunCommandExitCode = $LASTEXITCODE",
   code "if ($null -ne $remrunCommandExitCode) \x7b exit $remrunCommandExitCode \x7d",
   code "if ($remrunCommandSucceeded) \x7b exit 0 \x7d",
   code "exit 1"]

/-- The script inside `_ps_command_argv`; it raises on an empty command. -/
def psCommandScript (program : Text) (arguments : List Text) (inheritedPathVar : Option EnvName)
    (boundaryMarker : Option Text) : Script :=
  unlines (preferences ++
    (match inheritedPathVar with
    | some name =>
      [code "$env:PATH = $env:" ++ word name.word,
       code "$env:" ++ word name.word ++ code " = $null"]
    | none => []) ++
    (match boundaryMarker with
    | some marker => psCommandBoundaryGuard program marker true
    | none => []) ++
    [invocation (program :: arguments)] ++ endWithStatus)

/-- The argv that runs a script in a nested shell. -/
def nestedArgv (d : Device) (script : Script) : List Text :=
  [d.psExe, "-NoProfile".toList, "-NonInteractive".toList, "-EncodedCommand".toList,
   psEncode script.render]

/-! ## Commands -/

structure Exec where
  program : Text
  arguments : List Text
  context : Context
  telemetry : Bool
  /-- a telemetry request is given -/
  detailed : Bool
  allowObservedBreakaway : Bool
  /-- `private_nonce`, and the variable that the nested shell takes its path from -/
  nonce : Text
  inheritedPathVar : EnvName
  /-- the helper, and the argv file where one is used, are pushed -/
  pushes : Bool

namespace Exec
variable (d : Device) (x : Exec)

def command : List Text := x.program :: x.arguments

def exitMarker : Text := "__REMRUN_EXIT_".toList ++ x.nonce ++ "__".toList

def exitLines : List Script :=
  [code "$remrunCommandSucceeded = $?",
   code "$remrunCommandExitCode = $LASTEXITCODE",
   code "if ($null -eq $remrunCommandExitCode) \x7b",
   code "  if ($remrunCommandSucceeded) \x7b $remrunCommandExitCode = 0 \x7d " ++
      code "else \x7b $remrunCommandExitCode = 1 \x7d",
   code "\x7d",
   codeValue "[Console]::Error.Write(" x.exitMarker ++
      code " + [string]$remrunCommandExitCode + ';')",
   code "exit $remrunCommandExitCode"]

def lines : List Script :=
  preferences ++ environment d x.context ++ [setLocation d x.context] ++
    psCommandBoundaryGuard x.program (boundaryMarker x.nonce) true

def plain : Script := unlines (lines d x ++ [invocation x.command] ++ x.exitLines)

def home : Text := rstripSeparators (d.remoteHome.getD [])

def wrapperRemote : Text := home d ++ "\\AppData\\Local\\Temp\\remrun_win_telemetry.py".toList

def argvRemote : Text :=
  home d ++ "\\AppData\\Local\\Temp\\remrun_win_telemetry_argv_".toList ++ x.nonce ++ ".json".toList

/-- The script of the telemetry helper's child, where that is not an observer. -/
def nested : Script := psCommandScript x.program x.arguments (some x.inheritedPathVar) none

def wrapperArgs : List Text :=
  wrapperRemote d :: (if x.detailed then ["--detailed".toList] else []) ++
    if x.allowObservedBreakaway then
      ["--allow-observed-breakaway".toList, "--argv-json-file".toList, argvRemote d x]
    else []

def wrapped : Script :=
  unlines (lines d x ++
    (if x.allowObservedBreakaway then []
    else [code "$env:" ++ word x.inheritedPathVar.word ++ code " = $env:PATH"]) ++
    [invocation (d.python :: wrapperArgs d x ++ ["--".toList] ++
      if x.allowObservedBreakaway then [] else nestedArgv d x.nested)] ++ x.exitLines)

/-- With telemetry the helper is run, unless the home is unknown, the script is too long or the
helper is not pushed. -/
def runsWrapped : Bool :=
  (x.telemetry || x.detailed) && home d ≠ [] &&
    psRemoteCommandFits d.psExe (wrapped d x).render && x.pushes

/-- What is sent, and the nested script in it. -/
def scripts : List Script :=
  if runsWrapped d x then
    wrapped d x :: if x.allowObservedBreakaway then [] else [x.nested]
  else [plain d x]

end Exec

structure ExecControl where
  command : List Text
  context : Context
  nonce : Text

namespace ExecControl
variable (d : Device) (x : ExecControl)

def source : Script :=
  unlines (preferences ++ environment d x.context ++ [setLocation d x.context,
    invocation x.command,
    codeValue "[Console]::Error.Write("
        ("__REMRUN_CONTROL_EXIT_".toList ++ x.nonce ++ "__".toList) ++
      code " + [string]$LASTEXITCODE + ';')"])

/-- The source on the command line, or in a frame of `exec_control_source` where it is too long. -/
def script : Script :=
  if psRemoteCommandFits d.psExe (source d x).render then source d x
  else setLocation d x.context ++ code "\n" ++ source d x

end ExecControl

structure LaunchDurable where
  program : Text
  arguments : List Text
  context : Context
  nonce : Text

/-- The script of the user's command in `launch_durable`. -/
def LaunchDurable.script (d : Device) (x : LaunchDurable) : Script :=
  unlines (preferences ++ environment d x.context ++ [setLocation d x.context] ++
    psCommandBoundaryGuard x.program (boundaryMarker x.nonce) true ++
    [invocation (x.program :: x.arguments)] ++ endWithStatus)

/-- `validate_command_context`, which comes before a launch. -/
def validateCommandContext (d : Device) (x : LaunchDurable) : Script :=
  unlines ([stopOnError] ++ environment d x.context ++
    psCommandBoundaryGuard x.program (boundaryMarker x.nonce) false ++ [code "exit 0"])

/-- `_durable_control` runs its helper's argv, as the helpers for staging and fetching do. -/
def runHelper (argv : List Text) : Script := invocation argv ++ code "; exit $LASTEXITCODE"

/-! ## Files -/

def ensureRemoteDir (path : Text) : Script :=
  codeValue "$ErrorActionPreference='Stop'; New-Item -ItemType Directory -Force -Path " path ++
  code " | Out-Null"

def pushFile (path : Text) (mtimeNs : Int) : Script :=
  codeValue "$ErrorActionPreference='Stop'\n$p = " path ++
  code "\n$dir = [System.IO.Path]::GetDirectoryName($p)\n" ++
  code "if ($dir) \x7b New-Item -ItemType Directory -Force -Path $dir | Out-Null \x7d\n" ++
  code "$tmp = [IO.Path]::Combine($dir, '.remrun-tmp-' + [IO.Path]::GetFileName($p) + '-' " ++
  code "+ [guid]::NewGuid().ToString('N') + '.tmp')\n" ++
  code "$backup = [IO.Path]::Combine($dir, '.remrun-backup-' + [IO.Path]::GetFileName($p) + '-' " ++
  code "+ [guid]::NewGuid().ToString('N') + '.bak')\n" ++
  code "try \x7b\n" ++
  code "  $bytes = [Convert]::FromBase64String(([Console]::In.ReadToEnd()).Trim())\n" ++
  code "  $fs = [IO.File]::Open($tmp,[IO.FileMode]::CreateNew,[IO.FileAccess]::Write," ++
  code "[IO.FileShare]::None)\n" ++
  code "  try \x7b $fs.Write($bytes,0,$bytes.Length); $fs.Flush($true) \x7d finally " ++
  code "\x7b $fs.Dispose() \x7d\n" ++
  code "  $epoch = [DateTime]::new(1970,1,1,0,0,0,[DateTimeKind]::Utc)\n" ++
  code "  [IO.File]::SetLastWriteTimeUtc($tmp, $epoch.AddTicks([int64]" ++
  word (number (mtimeNs.fdiv 100)) ++
  code "))\n" ++
  code "  if ([IO.File]::Exists($p)) \x7b [IO.File]::Replace($tmp,$p,$backup,$true); " ++
  code "Remove-Item -LiteralPath $backup -Force -ErrorAction SilentlyContinue \x7d " ++
  code "else \x7b [IO.File]::Move($tmp,$p) \x7d\n" ++
  code "\x7d catch \x7b " ++
  code "Remove-Item -LiteralPath $tmp -Force -ErrorAction SilentlyContinue; " ++
  code "Remove-Item -LiteralPath $backup -Force -ErrorAction SilentlyContinue; throw \x7d\n"

def pullFile (path : Text) : Script :=
  codeValue "$ErrorActionPreference='Stop'\n$p = " path ++
  code "\n$ts = [IO.File]::GetLastWriteTimeUtc($p)\n" ++
  code "$epoch = [DateTime]::new(1970,1,1,0,0,0,[DateTimeKind]::Utc)\n" ++
  code "Write-Output (([decimal]($ts.Ticks - $epoch.Ticks) * 100).ToString('0', " ++
  code "[Globalization.CultureInfo]::InvariantCulture))\n" ++
  code "Write-Output ([Convert]::ToBase64String([IO.File]::ReadAllBytes($p)))\n"

def readSmallFile (path : Text) (limit : Nat) : Script :=
  codeValue "$ErrorActionPreference='Stop'\n$p = " path ++
  code "\n$limit = [int64]" ++ word (number limit) ++
  code "\nif (-not [IO.File]::Exists($p)) \x7b " ++
  code "[Console]::Error.WriteLine('__REMRUN_SMALL_FILE_MISSING__'); exit 44 \x7d\n" ++
  code "$info = [IO.FileInfo]::new($p)\n" ++
  code "if ($info.Length -gt $limit) \x7b " ++
  code "[Console]::Error.WriteLine('__REMRUN_SMALL_FILE_OVERSIZE__'); exit 45 \x7d\n" ++
  code "$stream = [IO.File]::Open($p,[IO.FileMode]::Open,[IO.FileAccess]::Read," ++
  code "[IO.FileShare]::ReadWrite)\n" ++
  code "$memory = [IO.MemoryStream]::new()\n" ++
  code "$buffer = [byte[]]::new(65536)\n" ++
  code "try \x7b\n" ++
  code "  while (($read = $stream.Read($buffer,0,$buffer.Length)) -gt 0) \x7b\n" ++
  code "    if (($memory.Length + $read) -gt $limit) \x7b " ++
  code "[Console]::Error.WriteLine('__REMRUN_SMALL_FILE_OVERSIZE__'); exit 45 \x7d\n" ++
  code "    $memory.Write($buffer,0,$read)\n" ++
  code "  \x7d\n" ++
  code "  $bytes = $memory.ToArray()\n" ++
  code "\x7d finally \x7b $stream.Dispose(); $memory.Dispose() \x7d\n" ++
  code "[Console]::Out.Write([Convert]::ToBase64String($bytes))\n"

def deleteRemote (path : Text) : Script :=
  codeValue "$ErrorActionPreference='Stop'\n$p = " path ++
  code "\nif (Test-Path -LiteralPath $p) \x7b Remove-Item -LiteralPath $p -Force \x7d\n" ++
  code "if (Test-Path -LiteralPath $p) \x7b throw ('still present after delete: ' + $p) \x7d\n"

def remotePathExists (d : Device) (path : Text) : Script :=
  codeValue "if (Test-Path -LiteralPath " (d.expandRemote path) ++
  code ") \x7b Write-Output '__REMRUN_EXISTS__' \x7d"

def removeRemoteTree (d : Device) (path : Text) : Script :=
  codeValue "Remove-Item -LiteralPath " (d.expandRemote path) ++
  codeValue " -Recurse -Force -ErrorAction SilentlyContinue; if (Test-Path -LiteralPath "
    (d.expandRemote path) ++
  code ") \x7b exit 3 \x7d"

/-! ## Workers -/

/-- The lists of a fleet device's cancel table, with every entry as text. -/
structure Cancel where
  processPatterns : List Text
  lockPaths : List Text
  wslProcessPatterns : List Text
  wslLockPaths : List Text

/-- `_cancel_list` keeps the entries that are not empty. -/
def cancelList (entries : List Text) : List Text := entries.filter (· ≠ [])

/-- `_regex_or`. -/
def regexOr (patterns : List Text) : Text :=
  ['|'].intercalate (patterns.map fun p => "(?:".toList ++ p ++ [')'])

/-- `shlex.quote`. -/
def shlexQuote (text : Text) : Text := (Durable.shlexQuote (String.ofList text)).toList

def wslCommands (c : Cancel) : List Text :=
  ((cancelList c.wslProcessPatterns).map fun pattern =>
    "pkill -f ".toList ++ shlexQuote pattern ++ " 2>/dev/null || true".toList) ++
  (cancelList c.wslLockPaths).map fun path =>
    "rm -rf -- ".toList ++ shlexQuote path ++ " 2>/dev/null || true".toList

/-- The part of the cancel script for the target's own processes. -/
def cancelNative (patterns : List Text) : List Script :=
  if patterns = [] then [] else
    [codeValue "$remrunCancelPattern = " (regexOr patterns),
     code "Get-CimInstance Win32_Process | Where-Object \x7b $_.CommandLine -and " ++
       code "($_.CommandLine -match $remrunCancelPattern) \x7d | " ++
       code "ForEach-Object \x7b Stop-Process -Id $_.ProcessId -Force " ++
       code "-ErrorAction SilentlyContinue \x7d"]

def cancelLock (path : Text) : Script :=
  codeValue "Remove-Item -LiteralPath " path ++
    code " -Recurse -Force -ErrorAction SilentlyContinue"

def cancelWsl (command : Text) : Script :=
  codeValue "try \x7b wsl.exe -- bash -lc " command ++ code " \x7d catch \x7b\x7d"

def cancelParts (c : Cancel) : List Script :=
  cancelNative (cancelList c.processPatterns) ++ (cancelList c.lockPaths).map cancelLock ++
    (wslCommands c).map cancelWsl

/-- `_powershell_cancel_script`. -/
def powershellCancelScript (c : Cancel) : Script :=
  joined (code "; ") ((if cancelParts c = [] then [code "$null = $true"] else cancelParts c) ++
    [code "Write-Output cancelled"])

/-- The part of the workers script for the target's own processes. -/
def workersNative (patterns : List Text) : List Script :=
  if patterns = [] then [] else
    [codeValue "$remrunWorkerPattern = " (regexOr patterns),
     code "try \x7b if (Get-CimInstance Win32_Process | Where-Object \x7b $_.CommandLine -and " ++
       code "($_.CommandLine -match $remrunWorkerPattern) \x7d | Select-Object -First 1) " ++
       code "\x7b $found = $true \x7d \x7d catch \x7b\x7d"]

/-- The command that looks for a pattern in WSL. -/
def wslSearch (pattern : Text) : Text :=
  "ps ax -o pid= -o command= | grep -E -- ".toList ++ shlexQuote pattern ++
    " | grep -v grep | grep -v __REMRUN_WORKERS__ | grep -q .".toList

def workersWsl (pattern : Text) : Script :=
  codeValue "try \x7b wsl.exe -- bash -lc " (wslSearch pattern) ++
    code "; if ($LASTEXITCODE -eq 0) \x7b $found = $true \x7d \x7d catch \x7b\x7d"

/-- `_powershell_workers_running_script`. -/
def powershellWorkersRunningScript (c : Cancel) : Script :=
  joined (code "; ") ([code "$found = $false"] ++
    workersNative (cancelList c.processPatterns) ++
    (cancelList c.wslProcessPatterns).map workersWsl ++
    [code "Write-Output ('__REMRUN_WORKERS__' + $(if ($found) \x7b '1' \x7d else \x7b '0' \x7d))"])

/-! ## Operations -/

inductive Operation where
  | exec (x : Exec)
  | execControl (x : ExecControl)
  | launchDurable (x : LaunchDurable)
  | runHelper (argv : List Text)
  | ensureRemoteDir (path : Text)
  | pushFile (path : Text) (mtimeNs : Int)
  | pullFile (path : Text)
  | readSmallFile (path : Text) (limit : Nat)
  | deleteRemote (path : Text)
  | remotePathExists (path : Text)
  | removeRemoteTree (path : Text)
  | cancelWorkers (c : Cancel)
  | workersRunning (c : Cancel)

/-- The scripts that an operation builds, the nested ones among them. -/
def Operation.scripts (d : Device) : Operation → List Script
  | exec x => x.scripts d
  | execControl x => [x.script d]
  | launchDurable x => [validateCommandContext d x, x.script d]
  | runHelper argv => [PowerShell.runHelper argv]
  | ensureRemoteDir path => [PowerShell.ensureRemoteDir path]
  | pushFile path mtimeNs => [PowerShell.pushFile path mtimeNs]
  | pullFile path => [PowerShell.pullFile path]
  | readSmallFile path limit => [PowerShell.readSmallFile path limit]
  | deleteRemote path => [PowerShell.deleteRemote path]
  | remotePathExists path => [PowerShell.remotePathExists d path]
  | removeRemoteTree path => [PowerShell.removeRemoteTree d path]
  | cancelWorkers c => [powershellCancelScript c]
  | workersRunning c => [powershellWorkersRunningScript c]

/-! ## Arguments -/

/-- None of the four curly marks is in the text. -/
def Straight (text : Text) : Prop := ∀ c ∈ text, c ∉ curlyQuotes

instance (text : Text) : Decidable (Straight text) :=
  decidable_of_iff ((text.all fun c => c ∉ curlyQuotes) = true) (by simp [Straight])

/-- A context's texts after expansion. -/
def Context.texts (d : Device) (x : Context) : List Text :=
  x.env.map (fun (_, value) => d.expandRemote value) ++ x.pathPrepend.map d.expandRemote

/-- The texts of an operation that its scripts have inside literals. -/
def Operation.arguments (d : Device) : Operation → List Text
  | exec x =>
    x.context.texts d ++ [d.expandRemote x.context.cwd, x.program, x.nonce] ++
    if x.runsWrapped d then
      [d.python, Exec.home d] ++ if x.allowObservedBreakaway then [] else x.arguments
    else x.arguments
  | execControl x => x.context.texts d ++ [d.expandRemote x.context.cwd, x.nonce] ++ x.command
  | launchDurable x =>
    x.context.texts d ++ [d.expandRemote x.context.cwd, x.program, x.nonce] ++ x.arguments
  | runHelper argv => argv
  | ensureRemoteDir path | pushFile path _ | pullFile path | readSmallFile path _
  | deleteRemote path => [path]
  | remotePathExists path | removeRemoteTree path => [d.expandRemote path]
  | cancelWorkers c =>
    c.processPatterns ++ c.lockPaths ++ c.wslProcessPatterns ++ c.wslLockPaths
  | workersRunning c => c.processPatterns ++ c.wslProcessPatterns

theorem plain_iff {v : Text} : rule.Plain v ↔ Straight v := by
  refine forall₂_congr fun c _ => ?_
  have hmark : '\'' ∉ curlyQuotes := by decide
  constructor
  · intro h hcurly
    have heq : c = '\'' := h (by simp [rule, hcurly])
    exact hmark (heq ▸ hcurly)
  · intro h hdelim
    have hdelim : c = '\'' ∨ c ∈ curlyQuotes := by simpa [rule] using hdelim
    exact hdelim.resolve_right h

section Straight
variable {v : Text}

@[simp] theorem straight_nil : Straight [] := fun _ h => absurd h List.not_mem_nil

@[simp] theorem straight_append {xs ys : Text} :
    Straight (xs ++ ys) ↔ Straight xs ∧ Straight ys := by
  simp only [Straight, List.mem_append, or_imp, forall_and]

theorem straight_between {before after : Text} (hbefore : Straight before)
    (hafter : Straight after) : Straight (before ++ v ++ after) ↔ Straight v := by
  rw [straight_append, straight_append, and_iff_left hafter, and_iff_right hbefore]

theorem straight_cons {c : Char} : Straight (c :: v) ↔ c ∉ curlyQuotes ∧ Straight v := by
  simp [Straight]

theorem straight_flatMap {β : Type} {xs : List β} {f : β → Text} :
    Straight (xs.flatMap f) ↔ ∀ x ∈ xs, Straight (f x) := by
  simp only [Straight, List.mem_flatMap]
  exact ⟨fun h x hx c hc => h c ⟨x, hx, hc⟩, fun h c ⟨x, hx, hc⟩ => h x hx c hc⟩

/-- The curly marks are not ASCII. -/
theorem straight_of_ascii (h : ∀ c ∈ v, c.toNat < 128) : Straight v := fun c hc hcurly => by
  have hlarge : ∀ c ∈ curlyQuotes, 128 ≤ c.toNat := by simp [curlyQuotes]
  exact absurd (h c hc) (Nat.not_lt.mpr (hlarge c hcurly))

theorem straight_text (text : String) {chars : Text} (htext : text = String.ofList chars)
    (hascii : (chars.all fun c => c.toNat.blt 128) = true) : Straight text.toList := by
  rw [htext, String.toList_ofList]
  exact straight_of_ascii fun c hc => Nat.blt_eq.mp (List.all_eq_true.mp hascii c hc)

theorem toNat_ofNat : ∀ n < 128, (Char.ofNat n).toNat = n := by decide

theorem straight_psEncode (script : Text) : Straight (psEncode script) := by
  refine straight_of_ascii fun c hc => ?_
  obtain ⟨b, hb, rfl⟩ := List.mem_map.mp hc
  have hlt := Base64.lt_of_mem_encode hb
  rw [toNat_ofNat _ hlt]
  exact hlt

theorem straight_psExe (d : Device) : Straight d.psExe := by
  unfold Device.psExe
  split
  · rename_i h
    rcases h with h | h <;> (rw [h]; decide)
  · decide

@[simp] theorem straight_shlexQuote : Straight (shlexQuote v) ↔ Straight v := by
  unfold shlexQuote Durable.shlexQuote
  split
  · rename_i h
    have hnil : v = [] := by simpa using h
    subst hnil
    simp only [straight_nil, iff_true]
    decide
  · split
    · rw [String.toList_ofList]
    · rw [String.toList_ofList, String.toList_ofList, List.cons_append, straight_cons,
        straight_append, straight_flatMap]
      have hmark : '\'' ∉ curlyQuotes := by decide
      have hclose : Straight ['\''] := by decide
      simp only [hmark, not_false_eq_true, hclose, and_true, true_and]
      refine forall₂_congr fun c _ => ?_
      split
      · rename_i hc
        subst hc
        simp only [hmark, not_false_eq_true, iff_true]
        decide
      · simp [Straight]

@[simp] theorem straight_regexOr {patterns : List Text} :
    Straight (regexOr patterns) ↔ ∀ p ∈ patterns, Straight p := by
  unfold regexOr
  induction patterns with
  | nil => simp
  | cons p rest ih =>
    cases rest with
    | nil => simp [straight_cons, curlyQuotes]
    | cons q rest =>
      rw [List.map_cons] at ih
      rw [List.map_cons, List.map_cons, List.intercalate_cons_cons, straight_append,
        straight_append, ih]
      simp [straight_cons, curlyQuotes]

theorem straight_joinedPath {d : Device} {paths : List Text} :
    Straight (joinedPath d paths) ↔ ∀ p ∈ paths, Straight (d.expandRemote p) := by
  have hclose : Straight [';'] := by decide
  simp [joinedPath, straight_flatMap, hclose]

theorem straight_cancelList {entries : List Text} :
    (∀ p ∈ cancelList entries, Straight p) ↔ ∀ p ∈ entries, Straight p := by
  unfold cancelList
  constructor
  · intro h p hp
    by_cases hnil : p = []
    · rw [hnil]
      exact straight_nil
    · exact h p (by simp [hp, hnil])
  · intro h p hp
    exact h p (List.mem_of_mem_filter hp)

end Straight

/-! ## Values -/

@[simp] theorem values_invocation (argv : List Text) :
    Rule.Script.values (invocation argv) = argv := by
  cases argv with
  | nil => rfl
  | cons token tokens =>
    simp only [invocation, Rule.Script.values_append, values_codeValue, values_flatMap]
    simp [List.flatMap_singleton']

@[simp] theorem values_preferences :
    preferences.flatMap Rule.Script.values = ["Stop".toList] := rfl

@[simp] theorem values_endWithStatus : endWithStatus.flatMap Rule.Script.values = [] := rfl

@[simp] theorem values_setLocation (d : Device) (x : Context) :
    Rule.Script.values (setLocation d x) = [d.expandRemote x.cwd] := rfl

@[simp] theorem values_guard (program marker : Text) (rejectMissing : Bool) :
    (psCommandBoundaryGuard program marker rejectMissing).flatMap Rule.Script.values =
      [marker, program] := by
  cases rejectMissing <;> rfl

theorem straight_environment (d : Device) (x : Context) :
    (∀ v ∈ (environment d x).flatMap Rule.Script.values, Straight v) ↔
      ∀ v ∈ x.texts d, Straight v := by
  have henv : ∀ {xs : List (EnvName × Text)},
      ((xs.map fun (name, value) =>
        code "$env:" ++ word name.word ++ codeValue " = " (d.expandRemote value)).flatMap
          Rule.Script.values) = xs.map fun (_, value) => d.expandRemote value := by
    intro xs
    induction xs with
    | nil => rfl
    | cons x xs ih => simp only [List.map_cons, List.flatMap_cons, ih]; simp
  unfold environment Context.texts
  rw [List.flatMap_append, henv]
  by_cases hpath : x.pathPrepend = []
  · simp [hpath]
  · simp only [hpath, if_false, List.mem_append, or_imp, forall_and]
    simp [straight_joinedPath]

/-! ## What is read -/

abbrev AllStraight (texts : List Text) : Prop := ∀ v ∈ texts, Straight v

section AllStraight
variable {texts : List Text} {v : Text}

theorem allStraight_nil : AllStraight [] ↔ True :=
  iff_true_intro fun _ hv => absurd hv List.not_mem_nil

theorem allStraight_cons : AllStraight (v :: texts) ↔ Straight v ∧ AllStraight texts :=
  List.forall_mem_cons

theorem allStraight_append {xs ys : List Text} :
    AllStraight (xs ++ ys) ↔ AllStraight xs ∧ AllStraight ys := List.forall_mem_append

end AllStraight

/-- Nothing that an operation embeds has a curly mark. -/
def Safe (s : Script) : Prop := AllStraight (Rule.Script.values s)

theorem lex_iff (s : Script) : rule.lex s.render = some s.tokens ↔ Safe s := by
  rw [Rule.lex_render_iff]
  exact forall₂_congr fun _ _ => plain_iff

theorem safe_unlines {lines : List Script} :
    Safe (unlines lines) ↔ AllStraight (lines.flatMap Rule.Script.values) := by
  rw [Safe, values_unlines]

section Parts
variable (d : Device) (x : Context)

theorem straight_boundaryMarker (nonce : Text) :
    Straight (boundaryMarker nonce) ↔ Straight nonce :=
  straight_between (straight_text _ rfl rfl) (straight_text _ rfl rfl)

theorem allStraight_preferences :
    AllStraight (preferences.flatMap Rule.Script.values) ↔ True := by
  rw [values_preferences, allStraight_cons]
  exact iff_true_intro ⟨straight_text _ rfl rfl, fun v hv => absurd hv List.not_mem_nil⟩

theorem allStraight_endWithStatus :
    AllStraight (endWithStatus.flatMap Rule.Script.values) ↔ True := by
  rw [values_endWithStatus]
  exact allStraight_nil

theorem allStraight_guard (program nonce : Text) (rejectMissing : Bool) :
    AllStraight ((psCommandBoundaryGuard program (boundaryMarker nonce) rejectMissing).flatMap
      Rule.Script.values) ↔ Straight program ∧ Straight nonce := by
  rw [values_guard, allStraight_cons, allStraight_cons, allStraight_nil, straight_boundaryMarker,
    and_true, and_comm]

theorem allStraight_setLocation : AllStraight ([setLocation d x].flatMap Rule.Script.values) ↔
    Straight (d.expandRemote x.cwd) := by
  rw [List.flatMap_singleton, values_setLocation, allStraight_cons, allStraight_nil, and_true]

theorem allStraight_invocation (argv : List Text) :
    AllStraight ([invocation argv].flatMap Rule.Script.values) ↔ AllStraight argv := by
  rw [List.flatMap_singleton, values_invocation]

theorem allStraight_nestedArgv (script : Script) : AllStraight (nestedArgv d script) := by
  unfold nestedArgv
  simp only [allStraight_cons]
  exact ⟨straight_psExe d, straight_text _ rfl rfl, straight_text _ rfl rfl,
    straight_text _ rfl rfl, straight_psEncode _, fun v hv => absurd hv List.not_mem_nil⟩

end Parts

/-! ## Commands are read as written -/

namespace Exec
variable (d : Device) (x : Exec)

theorem allStraight_exitLines :
    AllStraight (x.exitLines.flatMap Rule.Script.values) ↔ Straight x.nonce := by
  have hvalues : x.exitLines.flatMap Rule.Script.values = [x.exitMarker] := rfl
  have hmarker : Straight x.exitMarker ↔ Straight x.nonce :=
    straight_between (straight_text _ rfl rfl) (straight_text _ rfl rfl)
  rw [hvalues, allStraight_cons, allStraight_nil, and_true, hmarker]

theorem allStraight_lines : AllStraight ((x.lines d).flatMap Rule.Script.values) ↔
    AllStraight (x.context.texts d ++ [d.expandRemote x.context.cwd, x.program, x.nonce]) := by
  unfold lines
  simp only [List.flatMap_append, allStraight_append, allStraight_preferences,
    straight_environment, allStraight_setLocation, allStraight_guard, allStraight_cons,
    allStraight_nil, and_true, true_and, and_assoc]

theorem safe_plain : Safe (x.plain d) ↔
    AllStraight (x.context.texts d ++ [d.expandRemote x.context.cwd, x.program, x.nonce] ++
      x.arguments) := by
  rw [plain, safe_unlines, List.flatMap_append, List.flatMap_append, allStraight_append,
    allStraight_append, allStraight_lines, allStraight_invocation, allStraight_exitLines]
  simp only [command, allStraight_append, allStraight_cons, allStraight_nil]
  tauto

theorem safe_nested : Safe x.nested ↔ AllStraight (x.program :: x.arguments) := by
  unfold nested psCommandScript
  rw [safe_unlines]
  simp only [List.flatMap_append, allStraight_append, allStraight_preferences,
    allStraight_invocation, allStraight_endWithStatus]
  simp [allStraight_cons, allStraight_nil]

theorem allStraight_wrapperArgs : AllStraight (wrapperArgs d x) ↔
    Straight (home d) ∧ (x.allowObservedBreakaway = true → Straight x.nonce) := by
  have hwrapper : Straight (wrapperRemote d) ↔ Straight (home d) := by
    change Straight (home d ++ _) ↔ _
    rw [straight_append, and_iff_left (straight_text _ rfl rfl)]
  have hargv : Straight (argvRemote d x) ↔ Straight (home d) ∧ Straight x.nonce := by
    change Straight (home d ++ _ ++ x.nonce ++ _) ↔ _
    rw [straight_append, straight_append, straight_append, and_iff_left (straight_text _ rfl rfl),
      and_iff_left (straight_text _ rfl rfl)]
  have hdetailed := straight_text "--detailed" rfl rfl
  have hallow := straight_text "--allow-observed-breakaway" rfl rfl
  have hfile := straight_text "--argv-json-file" rfl rfl
  unfold wrapperArgs
  cases x.detailed <;> cases x.allowObservedBreakaway <;>
    simp only [if_true, Bool.false_eq_true, if_false, allStraight_append, allStraight_cons,
      allStraight_nil, hwrapper, hargv, hdetailed, hallow, hfile] <;> tauto

theorem safe_wrapped : Safe (wrapped d x) ↔
    AllStraight (x.context.texts d ++ [d.expandRemote x.context.cwd, x.program, x.nonce] ++
      [d.python, home d]) := by
  have hdash : Straight ['-', '-'] := by decide
  have hnested := allStraight_nestedArgv d x.nested
  unfold wrapped
  rw [safe_unlines]
  simp only [List.flatMap_append, allStraight_append, allStraight_lines, allStraight_invocation,
    allStraight_exitLines, allStraight_cons, allStraight_wrapperArgs, allStraight_nil]
  cases x.allowObservedBreakaway with
  | true =>
    simp
    simp only [allStraight_nil]
    tauto
  | false =>
    simp
    simp only [allStraight_nil]
    tauto

end Exec

namespace ExecControl
variable (d : Device) (x : ExecControl)

theorem safe_source : Safe (x.source d) ↔
    AllStraight (x.context.texts d ++ [d.expandRemote x.context.cwd, x.nonce] ++ x.command) := by
  have hmarker : Straight ("__REMRUN_CONTROL_EXIT_".toList ++ x.nonce ++ "__".toList) ↔
      Straight x.nonce := straight_between (straight_text _ rfl rfl) (straight_text _ rfl rfl)
  unfold source
  rw [safe_unlines]
  simp only [List.flatMap_append, List.flatMap_cons, List.flatMap_nil, allStraight_append,
    allStraight_preferences, straight_environment, values_setLocation, values_invocation,
    Rule.Script.values_append, values_code, values_codeValue, allStraight_cons, allStraight_nil,
    hmarker]
  tauto

theorem safe_script : Safe (x.script d) ↔
    AllStraight (x.context.texts d ++ [d.expandRemote x.context.cwd, x.nonce] ++ x.command) := by
  unfold script
  split
  · exact safe_source d x
  · have hsource := safe_source d x
    unfold Safe at hsource ⊢
    rw [Rule.Script.values_append, Rule.Script.values_append, allStraight_append,
      allStraight_append, hsource, values_setLocation, values_code]
    simp only [allStraight_append, allStraight_cons, allStraight_nil]
    tauto

end ExecControl

section Durable
variable (d : Device) (x : LaunchDurable)

theorem LaunchDurable.safe_script : Safe (x.script d) ↔
    AllStraight (x.context.texts d ++ [d.expandRemote x.context.cwd, x.program, x.nonce] ++
      x.arguments) := by
  unfold script
  rw [safe_unlines]
  simp only [List.flatMap_append, allStraight_append, allStraight_preferences,
    straight_environment, allStraight_setLocation, allStraight_guard, allStraight_invocation,
    allStraight_endWithStatus, allStraight_cons, allStraight_nil]
  tauto

theorem safe_validateCommandContext : Safe (validateCommandContext d x) ↔
    AllStraight (x.context.texts d ++ [x.program, x.nonce]) := by
  have hstop : Straight "Stop".toList := straight_text _ rfl rfl
  unfold validateCommandContext stopOnError
  rw [safe_unlines]
  simp only [List.flatMap_append, List.flatMap_singleton, allStraight_append,
    straight_environment, allStraight_guard, values_codeValue, values_code, allStraight_cons,
    allStraight_nil]
  tauto

theorem safe_runHelper (argv : List Text) : Safe (runHelper argv) ↔ AllStraight argv := by
  unfold runHelper Safe
  rw [Rule.Script.values_append, values_invocation, values_code, List.append_nil]

end Durable

/-! ## Cancel scripts are read as written -/

section Cancel
variable (c : Cancel)

theorem straight_wslCommands :
    AllStraight (wslCommands c) ↔ AllStraight (c.wslProcessPatterns ++ c.wslLockPaths) := by
  have hpkill : ∀ p : Text,
      Straight ("pkill -f ".toList ++ shlexQuote p ++ " 2>/dev/null || true".toList) ↔
        Straight p := fun p =>
      (straight_between (straight_text _ rfl rfl) (straight_text _ rfl rfl)).trans
        straight_shlexQuote
  have hrm : ∀ p : Text,
      Straight ("rm -rf -- ".toList ++ shlexQuote p ++ " 2>/dev/null || true".toList) ↔
        Straight p := fun p =>
      (straight_between (straight_text _ rfl rfl) (straight_text _ rfl rfl)).trans
        straight_shlexQuote
  unfold wslCommands
  rw [allStraight_append, allStraight_append, AllStraight, List.forall_mem_map, AllStraight,
    List.forall_mem_map]
  simp only [hpkill, hrm, straight_cancelList]

theorem values_map {β : Type} (xs : List β) (f : β → Script) (g : β → Text)
    (h : ∀ x, Rule.Script.values (f x) = [g x]) :
    (xs.map f).flatMap Rule.Script.values = xs.map g := by
  induction xs with
  | nil => rfl
  | cons x xs ih => simp [h, ih]

/-- Of an empty list the scripts keep nothing, and nothing in it has a curly mark. -/
theorem allStraight_native {patterns : List Text} {lines : List Script}
    (hvalues : lines.flatMap Rule.Script.values =
      if patterns = [] then [] else [regexOr patterns]) :
    AllStraight (lines.flatMap Rule.Script.values) ↔ AllStraight patterns := by
  rw [hvalues]
  split
  · rename_i h
    rw [h]
  · rw [allStraight_cons, straight_regexOr, allStraight_nil, and_true]

theorem values_cancelNative (patterns : List Text) :
    (cancelNative patterns).flatMap Rule.Script.values =
      if patterns = [] then [] else [regexOr patterns] := by
  unfold cancelNative
  split <;> rfl

theorem values_workersNative (patterns : List Text) :
    (workersNative patterns).flatMap Rule.Script.values =
      if patterns = [] then [] else [regexOr patterns] := by
  unfold workersNative
  split <;> rfl

theorem safe_cancelScript : Safe (powershellCancelScript c) ↔
    AllStraight (c.processPatterns ++ c.lockPaths ++ c.wslProcessPatterns ++ c.wslLockPaths) := by
  have hlines : (if cancelParts c = [] then [code "$null = $true"] else cancelParts c).flatMap
      Rule.Script.values = (cancelParts c).flatMap Rule.Script.values := by
    split
    · rename_i h
      rw [h]
      rfl
    · rfl
  have hnative := allStraight_native (values_cancelNative (cancelList c.processPatterns))
  have hlocks := values_map (cancelList c.lockPaths) cancelLock id fun _ => rfl
  have hwsl := values_map (wslCommands c) cancelWsl id fun _ => rfl
  unfold powershellCancelScript Safe
  rw [values_joined values_code, List.flatMap_append, hlines, List.flatMap_singleton, values_code,
    List.append_nil, cancelParts, List.flatMap_append, List.flatMap_append, allStraight_append,
    allStraight_append, hnative, hlocks, hwsl, List.map_id, List.map_id, straight_wslCommands]
  simp only [allStraight_append, AllStraight, straight_cancelList, and_assoc]

theorem straight_wslSearch (pattern : Text) :
    Straight (wslSearch pattern) ↔ Straight pattern :=
  (straight_between (straight_text _ rfl rfl) (straight_text _ rfl rfl)).trans straight_shlexQuote

theorem safe_workersScript : Safe (powershellWorkersRunningScript c) ↔
    AllStraight (c.processPatterns ++ c.wslProcessPatterns) := by
  have hnative := allStraight_native (values_workersNative (cancelList c.processPatterns))
  have hwsl := values_map (cancelList c.wslProcessPatterns) workersWsl wslSearch fun _ => rfl
  have hsearch : AllStraight ((cancelList c.wslProcessPatterns).map wslSearch) ↔
      AllStraight c.wslProcessPatterns := by
    rw [AllStraight, List.forall_mem_map]
    simp only [straight_wslSearch, straight_cancelList]
  unfold powershellWorkersRunningScript Safe
  rw [values_joined values_code, List.flatMap_append, List.flatMap_append, List.flatMap_append,
    allStraight_append, allStraight_append, allStraight_append, hnative, hwsl, hsearch]
  simp only [List.flatMap_singleton, values_code, allStraight_nil, allStraight_append,
    straight_cancelList, and_true, true_and]

end Cancel

/-! ## Operations are read as written -/

set_option maxRecDepth 2000 in
theorem values_pushFile (path : Text) (mtimeNs : Int) :
    Rule.Script.values (pushFile path mtimeNs) = [path] := by
  delta pushFile
  simp only [Rule.Script.values_append, values_codeValue, values_code, values_word,
    List.append_nil]

theorem values_pullFile (path : Text) : Rule.Script.values (pullFile path) = [path] := by
  delta pullFile
  simp only [Rule.Script.values_append, values_codeValue, values_code, List.append_nil]

theorem values_readSmallFile (path : Text) (limit : Nat) :
    Rule.Script.values (readSmallFile path limit) = [path] := by
  delta readSmallFile
  simp only [Rule.Script.values_append, values_codeValue, values_code,
    values_word, List.append_nil]

theorem safe_scripts (d : Device) (op : Operation) :
    (∀ s ∈ op.scripts d, Safe s) ↔ AllStraight (op.arguments d) := by
  have hone : ∀ s : Script, (∀ s' ∈ [s], Safe s') ↔ Safe s := fun s => by
    rw [List.forall_mem_singleton]
  cases op with
  | exec x =>
    simp only [Operation.scripts, Operation.arguments, Exec.scripts]
    by_cases hwrapped : x.runsWrapped d = true
    · rw [if_pos hwrapped, if_pos hwrapped, List.forall_mem_cons, Exec.safe_wrapped]
      cases hallow : x.allowObservedBreakaway with
      | true => simp [allStraight_append, allStraight_cons, allStraight_nil]
      | false =>
        simp only [Bool.false_eq_true, if_false, hone, Exec.safe_nested, allStraight_append,
          allStraight_cons, allStraight_nil]
        tauto
    · rw [if_neg hwrapped, if_neg hwrapped, hone, Exec.safe_plain]
  | execControl x => exact (hone _).trans (ExecControl.safe_script d x)
  | launchDurable x =>
    simp only [Operation.scripts, Operation.arguments, List.forall_mem_cons,
      safe_validateCommandContext, LaunchDurable.safe_script]
    simp only [allStraight_append, allStraight_cons, allStraight_nil]
    simp only [List.not_mem_nil, false_imp_iff, implies_true]
    tauto
  | runHelper argv => exact (hone _).trans (safe_runHelper argv)
  | ensureRemoteDir path | deleteRemote path | remotePathExists path => exact hone _
  | pushFile path mtimeNs =>
    refine (hone _).trans ?_
    rw [Safe, values_pushFile]
    rfl
  | pullFile path =>
    refine (hone _).trans ?_
    rw [Safe, values_pullFile]
    rfl
  | readSmallFile path limit =>
    refine (hone _).trans ?_
    rw [Safe, values_readSmallFile]
    rfl
  | removeRemoteTree path =>
    refine (hone _).trans ?_
    change AllStraight [d.expandRemote path, d.expandRemote path] ↔
      AllStraight [d.expandRemote path]
    simp only [allStraight_cons, allStraight_nil, and_true, and_self]
  | cancelWorkers c => exact (hone _).trans (safe_cancelScript c)
  | workersRunning c => exact (hone _).trans (safe_workersScript c)

/-- Every script of an operation is read as its template, with each argument as one literal,
exactly when no argument has one of the curly marks. -/
theorem scripts_read_as_written_iff (d : Device) (op : Operation) :
    (∀ s ∈ op.scripts d, rule.lex s.render = some s.tokens) ↔
      ∀ v ∈ op.arguments d, Straight v := by
  exact (forall₂_congr fun s _ => lex_iff s).trans (safe_scripts d op)

/-- The name of a tree to remove ends its literal: what follows in it is read as code. -/
theorem treeName_read_as_code : ¬ ∀ (d : Device) (op : Operation), ∀ s ∈ op.scripts d,
    rule.lex s.render = some s.tokens := by
  intro h
  have hscript := h ⟨"pwsh".toList, none, ['~'], none⟩
    (.removeRemoteTree ['C', ':', '\\', 'a', '\u2019', ';', 'b']) _ List.mem_cons_self
  revert hscript
  decide +kernel

end Remrun.PowerShell
