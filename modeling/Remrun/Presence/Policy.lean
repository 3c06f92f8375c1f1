import Mathlib.Data.List.Basic
import Remrun.Lib.Dict
import Remrun.Reconcile.Manifest

/-!
# Owner presence

The weekly windows in which the owner may be at a device, as `parse_presence` reads them from the
routing file, and the two questions placement asks of them. Dates end with the year 9999, and a
sum of a date and a number of days beyond that raises.
-/

namespace Remrun.Presence

open Keyed
set_option autoImplicit false

/-! ## Dates and times -/

def microsPerMinute : Nat := 60 * 1000000

def microsPerDay : Nat := 24 * 60 * microsPerMinute

/-- The ordinal of 9999-12-31, where that of 0001-01-01 is 1. -/
def maxOrdinal : Nat := 3652059

structure Date where
  ordinal : Nat
  pos : 1 ≤ ordinal
  le_max : ordinal ≤ maxOrdinal
  deriving DecidableEq, Repr

/-- `date.weekday()`, with 0 for Monday. -/
def Date.weekday (d : Date) : Nat := (d.ordinal + 6) % 7

structure OverflowError where
  deriving DecidableEq, Repr

/-- `date + timedelta(days=n)`. -/
def Date.addDays (d : Date) (n : Nat) : Except OverflowError Date :=
  if h : d.ordinal + n ≤ maxOrdinal then .ok ⟨d.ordinal + n, Nat.le_add_right_of_le d.pos, h⟩
  else .error ⟨⟩

/-- A time of day in microseconds. -/
structure Time where
  micros : Nat
  lt : micros < microsPerDay
  deriving DecidableEq, Repr

def Time.midnight : Time := ⟨0, by decide⟩

/-- A naive `datetime`. -/
structure DateTime where
  date : Date
  time : Time
  deriving DecidableEq, Repr

/-- The microseconds since the beginning of the calendar; the order of datetimes. -/
def DateTime.instant (t : DateTime) : Nat := t.date.ordinal * microsPerDay + t.time.micros

/-- `max` and `min` of a list, by the order of datetimes. -/
def latest : List DateTime → Option DateTime
  | [] => none
  | t :: rest => some (rest.foldl (fun best t => if best.instant < t.instant then t else best) t)

def earliest : List DateTime → Option DateTime
  | [] => none
  | t :: rest => some (rest.foldl (fun best t => if t.instant < best.instant then t else best) t)

/-! ## Windows -/

/-- A window of the weekly schedule; without an end it lasts to midnight. -/
structure Window where
  day : Fin 7
  start : Time
  stop : Option Time
  start_lt : ∀ stop', stop = some stop' → start.micros < stop'.micros

/-- `Window.contains`. -/
def Window.contains (w : Window) (now : DateTime) : Bool :=
  now.date.weekday = w.day && w.start.micros ≤ now.time.micros &&
    w.stop.all fun stop => now.time.micros < stop.micros

/-- `Window.end_on`. -/
def Window.endOn (w : Window) (day : DateTime) : Except OverflowError DateTime :=
  match w.stop with
  | none => do return ⟨← day.date.addDays 1, .midnight⟩
  | some stop => .ok ⟨day.date, stop⟩

inductive Status where
  | valid
  | absent
  | unavailable
  | malformed
  deriving DecidableEq, Repr

/-- What is wrong with a list item. -/
inductive Problem where
  | expectedBullet
  | unknownDevice (name : List Char)
  | notAWindow (item : List Char)
  | unknownDay (day : List Char)
  | invalidTime (text : List Char)
  | endsBeforeItStarts (item : List Char)
  deriving DecidableEq, Repr

/-- The details of a policy that is not valid. -/
inductive Detail where
  | line (number : Nat) (problem : Problem)
  | noSection
  deriving DecidableEq, Repr

abbrev Windows := Dict (id : String → String) (List Window)

structure PresencePolicy where
  status : Status
  source : Option String
  detail : Option Detail
  windows : Windows

/-- `self.windows.get(device, ())`. -/
def PresencePolicy.windowsOf (p : PresencePolicy) (device : String) : List Window :=
  (p.windows.get device).getD []

/-- `PresencePolicy.window_end`. -/
def PresencePolicy.windowEnd (p : PresencePolicy) (device : String) (now : DateTime) :
    Except OverflowError (Option DateTime) :=
  if p.status ≠ .valid then .ok none
  else do
    let ends ← ((p.windowsOf device).filter (·.contains now)).mapM (·.endOn now)
    return latest ends

/-- The starts on one of the eight days. -/
def startsOn (windows : List Window) (now : DateTime) (day : Date) : List DateTime :=
  (windows.filter fun w =>
    w.day = day.weekday && decide (now.instant < (DateTime.mk day w.start).instant)).map
      fun w => ⟨day, w.start⟩

/-- `PresencePolicy.next_window_start`. -/
def PresencePolicy.nextWindowStart (p : PresencePolicy) (device : String) (now : DateTime) :
    Except OverflowError (Option DateTime) :=
  if p.status ≠ .valid then .ok none
  else do
    let days ← (List.range 8).mapM now.date.addDays
    return earliest (days.flatMap (startsOn (p.windowsOf device) now))

/-! ## Reading the routing file -/

/-- Tables of the Unicode database: case folding, and the value of a decimal digit. -/
structure Unicode where
  casefold : List Char → List Char
  decimal : Char → Option Nat

abbrev Text := List Char

def strip (text : Text) : Text := Reconcile.strip Reconcile.isSpace text

/-- The characters at which `str.splitlines` splits. -/
def isLineEnd (c : Char) : Bool :=
  c.val ∈ ([0xa, 0xb, 0xc, 0xd, 0x1c, 0x1d, 0x1e, 0x85, 0x2028, 0x2029] : List UInt32)

def splitLines : Text → List Text
  | [] => []
  | '\r' :: '\n' :: rest => [] :: splitLines rest
  | c :: rest =>
    if isLineEnd c then [] :: splitLines rest
    else match splitLines rest with
    | [] => [[c]]
    | line :: lines => (c :: line) :: lines

def isBullet (c : Char) : Bool := c = '-' || c = '*' || c = '+'

def isAsciiLetter (c : Char) : Bool := ('A' ≤ c && c ≤ 'Z') || ('a' ≤ c && c ≤ 'z')

/-- `_NAME`. -/
def isName (text : Text) : Bool :=
  text ≠ [] && text.all fun c =>
    isAsciiLetter c || ('0' ≤ c && c ≤ '9') || c = '_' || c = '.' || c = '-'

/-- `DAYS.index(day)`. -/
def dayIndex (day : Text) : Option (Fin 7) :=
  match String.ofList day with
  | "mon" => some 0
  | "tue" => some 1
  | "wed" => some 2
  | "thu" => some 3
  | "fri" => some 4
  | "sat" => some 5
  | "sun" => some 6
  | _ => none

section Parsing
variable (U : Unicode)

/-- `_LIST_ITEM`. -/
def isListItem (line : Text) : Bool :=
  match line with
  | [] => false
  | c :: rest =>
    if isBullet c then rest.head?.any Reconcile.isSpace
    else (U.decimal c).isSome && match rest.dropWhile fun d => (U.decimal d).isSome with
      | mark :: space :: _ => (mark = '.' || mark = ')') && Reconcile.isSpace space
      | _ => false

/-- `_BULLET`: the names and the rest. Spaces around the names do not count. -/
def bullet (line : Text) : Option (Text × Text) :=
  match line with
  | c :: space :: body =>
    let names := body.takeWhile (· ≠ ':')
    match body.dropWhile (· ≠ ':') with
    | _ :: rest =>
      if isBullet c && Reconcile.isSpace space && names ≠ [] then some (names, rest) else none
    | [] => none
  | _ => none

/-- `HH:MM`, where the four characters are digits. -/
def hoursMinutes (text : Text) : Option (Nat × Nat) :=
  match text with
  | [a, b, ':', c, d] => do
    return (10 * (← U.decimal a) + (← U.decimal b), 10 * (← U.decimal c) + (← U.decimal d))
  | _ => none

/-- `_WINDOW`: the day and the two times. -/
def windowParts (item : Text) : Option (Text × (Text × Nat × Nat) × (Text × Nat × Nat)) :=
  let day := item.take 3
  let rest := item.drop 3
  let times := rest.dropWhile Reconcile.isSpace
  if day.length = 3 && day.all isAsciiLetter && rest.head?.any Reconcile.isSpace &&
      times.length = 11 && times[5]? = some '-' then do
    let start ← hoursMinutes U (times.take 5)
    let stop ← hoursMinutes U (times.drop 6)
    return (day, (times.take 5, start), (times.drop 6, stop))
  else none

theorem minute_lt {hours minutes : Nat} (h : hours ≤ 23) (h' : minutes ≤ 59) :
    (hours * 60 + minutes) * microsPerMinute < microsPerDay := by
  unfold microsPerDay
  exact Nat.mul_lt_mul_of_pos_right (by omega) (by decide)

/-- `_clock`, for a start. -/
def clock (text : Text) (hours minutes : Nat) : Except Problem Time :=
  if h : hours ≤ 23 ∧ minutes ≤ 59 then
    .ok ⟨(hours * 60 + minutes) * microsPerMinute, minute_lt h.1 h.2⟩
  else .error (.invalidTime text)

/-- `_clock`, for an end. -/
def endClock (text : Text) (hours minutes : Nat) : Except Problem (Option Time) :=
  if hours = 24 ∧ minutes = 0 then .ok none else some <$> clock text hours minutes

/-- The loop body of `_parse_windows`. -/
def parseWindow (item : Text) : Except Problem Window :=
  match windowParts U (strip item) with
  | none => .error (.notAWindow (strip item))
  | some (day, (startText, startHours, startMinutes), (stopText, stopHours, stopMinutes)) =>
    match dayIndex (U.casefold day) with
    | none => .error (.unknownDay day)
    | some index => do
      let start ← clock startText startHours startMinutes
      let stop ← endClock stopText stopHours stopMinutes
      if h : ∀ stop', stop = some stop' → start.micros < stop'.micros then
        return ⟨index, start, stop, h⟩
      else throw (.endsBeforeItStarts (strip item))

/-- `_parse_windows`. -/
def parseWindows (text : Text) : Except Problem (List Window) :=
  (text.splitOn ';').mapM (parseWindow U)

/-- `{name.casefold(): name for name in devices}`. -/
def knownNames (devices : List String) : Dict (id : List Char → List Char) String :=
  devices.foldl (fun known name => known.set (U.casefold name.toList) name) Dict.empty

/-- The devices of a list item and their windows. -/
def parseItem (known : Dict (id : List Char → List Char) String) (line : Text) :
    Except Problem (List String × List Window) :=
  match bullet line with
  | none => .error .expectedBullet
  | some (names, rest) => do
    let names ← ((names.splitOn ',').map strip).mapM fun name =>
      match known.get (U.casefold name) with
      | some device => if isName name then .ok device else .error (.unknownDevice name)
      | none => .error (.unknownDevice name)
    let windows ← parseWindows U (strip (rest.takeWhile (· ≠ '(')))
    return (names, windows)

/-- `windows.setdefault(device, []).extend(parsed)`, for each device. -/
def addWindows (windows : Windows) (names : List String) (parsed : List Window) : Windows :=
  names.foldl (fun windows name => windows.set name ((windows.get name).getD [] ++ parsed)) windows

/-- `inside`, `found` and `windows`. -/
structure Progress where
  inside : Bool
  found : Bool
  windows : Windows

/-- The loop body of `parse_presence`; the error carries the number of the line. -/
def presenceLine (known : Dict (id : List Char → List Char) String) (p : Progress)
    (numbered : Nat × Text) : Except (Nat × Problem) Progress :=
  let line := strip numbered.2
  if line.head? = some '#' then
    let inside := U.casefold (strip (line.dropWhile (· = '#'))) = "owner presence".toList
    .ok { p with inside := inside, found := p.found || inside }
  else if !p.inside || !isListItem U line then .ok p
  else match parseItem U known line with
  | .error problem => .error (numbered.1, problem)
  | .ok (names, parsed) => .ok { p with windows := addWindows p.windows names parsed }

/-- `parse_presence`. -/
def parsePresence (text : Text) (devices : List String) (source : String) : PresencePolicy :=
  let lines := (splitLines text).zipIdx.map fun row => (row.2 + 1, row.1)
  match lines.foldlM (presenceLine U (knownNames U devices)) ⟨false, false, Dict.empty⟩ with
  | .error (number, problem) =>
    ⟨.malformed, some source, some (.line number problem), Dict.empty⟩
  | .ok p =>
    if p.found then ⟨.valid, some source, none, p.windows⟩
    else ⟨.absent, some source, some .noSection, Dict.empty⟩

end Parsing

end Remrun.Presence
