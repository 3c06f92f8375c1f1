import Remrun.Lib.Doubles
import Remrun.Lib.JsonText

/-!
# Reading JSON within limits

A reader of arbitrary texts under the limits of an interpreter: how deep containers may nest and
how many digits a whole number may have. Strings are sequences of code points, since an escape may
leave a surrogate alone. A scanner returns what it left of its text together with the fact that
this is shorter, so that the reader is total and needs no fuel.
-/

namespace JsonReader

set_option autoImplicit false

open JsonText (skipSpace hexValue scanInteger scanFraction scanExponent readInt dropName)
open Doubles (Double)

universe u v

/-- A string of code points. -/
abbrev Text := List Nat

def text (s : String) : Text := s.toList.map Char.toNat

inductive Value where
  | null
  | bool (value : Bool)
  | int (value : Int)
  | float (value : Double)
  | str (value : Text)
  | arr (items : List Value)
  | obj (members : List (Text × Value))

/-- The members of an object, in the order in which their keys first came. -/
abbrev Members := List (Text × Value)

/-- `members.get(key)`. -/
def member (members : Members) (key : String) : Option Value :=
  (members.find? fun m => m.1 = text key).map Prod.snd

/-- Why a text was not read: it is no JSON, it has a constant that is refused, a whole number with
too many digits, or containers that are nested too deep. -/
inductive Fault where
  | malformed
  | constant
  | digits
  | depth
deriving DecidableEq

/-- The limits, and whether `NaN` and the infinities are read. -/
structure Limits where
  depth : Nat
  digits : Nat
  constants : Bool

/-! ## Scanned texts -/

structure Scanned (α : Type u) (cs : List Char) where
  value : α
  rest : List Char
  shorter : rest.length < cs.length

namespace Scanned
variable {α : Type u} {β : Type v} {cs ds : List Char}

def map (f : α → β) (x : Scanned α cs) : Scanned β cs := ⟨f x.value, x.rest, x.shorter⟩

/-- The same, seen from an earlier place. -/
def since (x : Scanned α ds) (h : ds.length ≤ cs.length) : Scanned α cs :=
  ⟨x.value, x.rest, x.shorter.trans_le h⟩

end Scanned

theorem length_skipSpace (cs : List Char) : (skipSpace cs).length ≤ cs.length :=
  (List.dropWhile_suffix _).length_le

theorem length_skipSpace_cons (c : Char) (cs : List Char) :
    (skipSpace cs).length ≤ (c :: cs).length :=
  (length_skipSpace cs).trans (Nat.le_succ _)

/-! ## Strings -/

def IsHigh (unit : Nat) : Prop := 0xd800 ≤ unit ∧ unit < 0xdc00

def IsLow (unit : Nat) : Prop := 0xdc00 ≤ unit ∧ unit < 0xe000

instance (unit : Nat) : Decidable (IsHigh unit) := instDecidableAnd
instance (unit : Nat) : Decidable (IsLow unit) := instDecidableAnd

def join (high low : Nat) : Nat := 0x10000 + (high - 0xd800) * 0x400 + (low - 0xdc00)

theorem length_after_digits {a b c d : Char} {rest : List Char} :
    rest.length < (a :: b :: c :: d :: rest).length := by
  simp only [List.length_cons]
  omega

theorem length_after_escape {rest : List Char} : rest.length ≤ ('\\' :: 'u' :: rest).length := by
  simp only [List.length_cons]
  omega

/-- Four hexadecimal digits. -/
def scanUnit : (cs : List Char) → Option (Scanned Nat cs)
  | a :: b :: c :: d :: rest =>
    match hexValue a, hexValue b, hexValue c, hexValue d with
    | some w, some x, some y, some z =>
      some ⟨4096 * w + 256 * x + 16 * y + z, rest, length_after_digits⟩
    | _, _, _, _ => none
  | _ => none

/-- The low surrogate escape at the start of a text. -/
def scanLow : (cs : List Char) → Option (Scanned Nat cs)
  | '\\' :: 'u' :: rest =>
    ((scanUnit rest).filter fun x => decide (IsLow x.value)).map fun x =>
      x.since length_after_escape
  | _ => none

/-- A high surrogate takes a low one after it; without one it stays alone. -/
def pairUp {cs : List Char} (x : Scanned Nat cs) : Scanned Nat cs :=
  if IsHigh x.value then
    match scanLow x.rest with
    | some y => (y.map (join x.value)).since x.shorter.le
    | none => x
  else x

def escapes : List (Char × Nat) := [
  ('"', 0x22), ('\\', 0x5c), ('/', 0x2f), ('b', 0x08), ('f', 0x0c), ('n', 0x0a), ('r', 0x0d),
  ('t', 0x09)]

/-- The code point an escape stands for, after its backslash. -/
def scanEscape : (cs : List Char) → Option (Scanned Nat cs)
  | [] => none
  | c :: rest =>
    if c = 'u' then (scanUnit rest).map fun x => (pairUp x).since (Nat.le_succ _)
    else (escapes.find? fun e => e.1 = c).map fun e => ⟨e.2, rest, Nat.lt_succ_self _⟩

/-- The rest of a string after its opening quote. -/
def scanString : (cs : List Char) → Option (Scanned Text cs)
  | [] => none
  | c :: rest =>
    if c = '"' then some ⟨[], rest, Nat.lt_succ_self _⟩
    else if c = '\\' then
      (scanEscape rest).bind fun x => (scanString x.rest).map fun y =>
        (y.map (x.value :: ·)).since (x.shorter.le.trans (Nat.le_succ _))
    else if c.toNat < 0x20 then none
    else (scanString rest).map fun y => (y.map (c.toNat :: ·)).since (Nat.le_succ _)
termination_by cs => cs.length
decreasing_by
  · exact x.shorter.trans (Nat.lt_succ_self _)
  · exact Nat.lt_succ_self _

/-! ## Numbers -/

theorem scanWhole_shorter {cs : List Char} {x : List Char × List Char}
    (h : JsonText.scanWhole cs = some x) : x.2.length < cs.length := by
  cases cs with
  | nil => cases h
  | cons c rest =>
    rw [JsonText.scanWhole] at h
    split at h
    · obtain rfl := Option.some.inj h
      exact Nat.lt_succ_self _
    · split at h
      · obtain rfl := Option.some.inj h
        exact Nat.lt_succ_of_le (List.dropWhile_suffix _).length_le
      · cases h

theorem scanInteger_shorter {cs : List Char} {x : List Char × List Char}
    (h : scanInteger cs = some x) : x.2.length < cs.length := by
  match cs with
  | [] => exact absurd h nofun
  | c :: rest =>
    rw [scanInteger] at h
    split at h
    · obtain ⟨y, hy, rfl⟩ := Option.map_eq_some_iff.mp h
      exact (scanWhole_shorter hy).trans (Nat.lt_succ_self _)
    · exact scanWhole_shorter h

theorem length_scanFraction (cs : List Char) : (scanFraction cs).2.length ≤ cs.length := by
  match cs with
  | [] => exact Nat.le_refl _
  | c :: rest =>
    rw [scanFraction]
    split
    · exact (List.dropWhile_suffix _).length_le.trans (Nat.le_succ _)
    · exact Nat.le_refl _

theorem length_scanSign (cs : List Char) : (JsonText.scanSign cs).2.length ≤ cs.length := by
  match cs with
  | [] => exact Nat.le_refl _
  | c :: rest =>
    rw [JsonText.scanSign]
    split
    · exact Nat.le_succ _
    · exact Nat.le_refl _

theorem length_scanExponent (cs : List Char) : (scanExponent cs).2.length ≤ cs.length := by
  match cs with
  | [] => exact Nat.le_refl _
  | c :: rest =>
    rw [scanExponent]
    split
    · exact (List.dropWhile_suffix _).length_le.trans ((length_scanSign rest).trans (Nat.le_succ _))
    · exact Nat.le_refl _

def digitsOf (cs : List Char) : List Char := cs.filter Char.isDigit

/-- The power of ten an exponent stands for. -/
def readExponent (exponent : List Char) : Int :=
  if '-' ∈ exponent then -(Nat.ofDigitChars 10 (digitsOf exponent) 0 : Int)
  else Nat.ofDigitChars 10 (digitsOf exponent) 0

def scale (n : Int) : Int → ℚ
  | .ofNat k => (n * 10 ^ k : Int)
  | .negSucc k => mkRat n (10 ^ (k + 1))

/-- The number a numeral with a fraction or an exponent stands for. -/
def decimal (whole fraction exponent : List Char) : ℚ :=
  let digits : Int := Nat.ofDigitChars 10 (digitsOf whole ++ digitsOf fraction) 0
  scale (if '-' ∈ whole then -digits else digits)
    (readExponent exponent - (digitsOf fraction).length)

def scanNumber (limits : Limits) (cs : List Char) : Except Fault (Scanned Value cs) :=
  match h : scanInteger cs with
  | none => .error .malformed
  | some (whole, rest) =>
    let fraction := scanFraction rest
    let exponent := scanExponent fraction.2
    if fraction.1 = [] ∧ exponent.1 = [] then
      if limits.digits < (digitsOf whole).length then .error .digits
      else .ok ⟨.int (readInt whole), rest, scanInteger_shorter h⟩
    else
      .ok ⟨.float (Doubles.ofRat (decimal whole fraction.1 exponent.1)), exponent.2,
        ((length_scanExponent _).trans (length_scanFraction _)).trans_lt (scanInteger_shorter h)⟩

/-! ## Constants -/

/-- The names that stand for a value, with their first character apart. -/
def literals : List (Char × List Char × Value) := [
  ('n', ['u', 'l', 'l'], .null), ('t', ['r', 'u', 'e'], .bool true),
  ('f', ['a', 'l', 's', 'e'], .bool false)]

/-- The names that `parse_constant` decides about. -/
def constants : List (Char × List Char × Value) := [
  ('N', ['a', 'N'], .float .nan),
  ('I', ['n', 'f', 'i', 'n', 'i', 't', 'y'], .float .infinity),
  ('-', ['I', 'n', 'f', 'i', 'n', 'i', 't', 'y'], .float .minusInfinity)]

theorem length_dropName : ∀ {name cs rest : List Char}, dropName name cs = some rest →
    rest.length ≤ cs.length
  | [], _, _, h => (congrArg List.length (Option.some.inj h)).ge
  | _ :: _, [], _, h => absurd h nofun
  | a :: name, c :: cs, rest, h => by
    rw [dropName] at h
    split at h
    · exact (length_dropName h).trans (Nat.le_succ _)
    · exact absurd h nofun

def scanName (names : List (Char × List Char × Value)) : (cs : List Char) →
    Option (Scanned Value cs)
  | [] => none
  | c :: cs => names.findSome? fun entry =>
    if c = entry.1 then
      match h : dropName entry.2.1 cs with
      | some rest => some ⟨entry.2.2, rest, Nat.lt_succ_of_le (length_dropName h)⟩
      | none => none
    else none

/-- A value that is neither a string nor a container. -/
def scanScalar (limits : Limits) (cs : List Char) : Except Fault (Scanned Value cs) :=
  match scanName literals cs with
  | some x => .ok x
  | none =>
    match scanName constants cs with
    | some x => if limits.constants then .ok x else .error .constant
    | none => scanNumber limits cs

/-! ## Values -/

/-- `dict(pairs)`: a key that comes again replaces the value under it. -/
def dict (pairs : Members) : Members :=
  (pairs.foldl (fun d pair => d.set pair.1 pair.2)
    (Keyed.Dict.empty : Keyed.Dict (id : Text → Text) Value)).rows

def orMalformed {α : Type u} : Option α → Except Fault α
  | some x => .ok x
  | none => .error .malformed

section Reader
variable (limits : Limits)

mutual
def scanValue (depth : Nat) : (cs : List Char) → Except Fault (Scanned Value cs)
  | [] => .error .malformed
  | c :: rest =>
    if c = '"' then
      (orMalformed (scanString rest)).map fun x => (x.map .str).since (Nat.le_succ _)
    else if c = '[' then
      match depth with
      | 0 => .error .depth
      | depth + 1 => (scanArray depth (skipSpace rest)).map fun x =>
        (x.map .arr).since (length_skipSpace_cons c rest)
    else if c = '{' then
      match depth with
      | 0 => .error .depth
      | depth + 1 => (scanObject depth (skipSpace rest)).map fun x =>
        (x.map fun pairs => .obj (dict pairs)).since (length_skipSpace_cons c rest)
    else scanScalar limits (c :: rest)
termination_by cs => 3 * cs.length
decreasing_by
  all_goals
    have := length_skipSpace rest
    simp only [List.length_cons]
    omega

/-- The rest of an array after its bracket. -/
def scanArray (depth : Nat) : (cs : List Char) → Except Fault (Scanned (List Value) cs)
  | [] => .error .malformed
  | c :: rest =>
    if c = ']' then .ok ⟨[], rest, Nat.lt_succ_self _⟩ else scanItems depth (c :: rest)
termination_by cs => 3 * cs.length + 2
decreasing_by omega

def scanItems (depth : Nat) (cs : List Char) : Except Fault (Scanned (List Value) cs) := do
  let x ← scanValue depth cs
  match h : skipSpace x.rest with
  | [] => .error .malformed
  | c :: rest =>
    have hrest : rest.length + 1 < cs.length := by
      have := h ▸ length_skipSpace x.rest
      exact (List.length_cons ▸ this).trans_lt x.shorter
    if c = ']' then .ok ⟨[x.value], rest, by omega⟩
    else if c = ',' then
      (scanItems depth (skipSpace rest)).map fun y =>
        (y.map (x.value :: ·)).since (by have := length_skipSpace rest; omega)
    else .error .malformed
termination_by 3 * cs.length + 1
decreasing_by
  · omega
  · have := length_skipSpace rest
    omega

/-- The rest of an object after its brace. -/
def scanObject (depth : Nat) : (cs : List Char) → Except Fault (Scanned Members cs)
  | [] => .error .malformed
  | c :: rest =>
    if c = '}' then .ok ⟨[], rest, Nat.lt_succ_self _⟩ else scanMembers depth (c :: rest)
termination_by cs => 3 * cs.length + 2
decreasing_by omega

def scanMembers (depth : Nat) : (cs : List Char) → Except Fault (Scanned Members cs)
  | [] => .error .malformed
  | quote :: rest =>
    if quote = '"' then do
      let key ← orMalformed (scanString rest)
      match hcolon : skipSpace key.rest with
      | [] => .error .malformed
      | colon :: after =>
        have hafter : after.length + 1 < rest.length := by
          have := hcolon ▸ length_skipSpace key.rest
          exact (List.length_cons ▸ this).trans_lt key.shorter
        if colon = ':' then do
          let x ← scanValue depth (skipSpace after)
          match hend : skipSpace x.rest with
          | [] => .error .malformed
          | c :: last =>
            have hlast : last.length + 1 < after.length := by
              have := hend ▸ length_skipSpace x.rest
              exact (List.length_cons ▸ this).trans_lt
                (x.shorter.trans_le (length_skipSpace after))
            if c = '}' then
              .ok ⟨[(key.value, x.value)], last, by simp only [List.length_cons]; omega⟩
            else if c = ',' then
              (scanMembers depth (skipSpace last)).map fun y =>
                (y.map ((key.value, x.value) :: ·)).since (by
                  have := length_skipSpace last
                  simp only [List.length_cons]
                  omega)
            else .error .malformed
        else .error .malformed
    else .error .malformed
termination_by cs => 3 * cs.length + 1
decreasing_by
  · have := length_skipSpace after
    simp only [List.length_cons]
    omega
  · have := length_skipSpace last
    simp only [List.length_cons]
    omega
end

/-- `json.loads(text)`. -/
def loads (cs : List Char) : Except Fault Value := do
  let x ← scanValue limits limits.depth (skipSpace cs)
  if skipSpace x.rest = [] then .ok x.value else .error .malformed

end Reader

end JsonReader
