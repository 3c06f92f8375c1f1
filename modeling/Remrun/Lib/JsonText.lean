import Mathlib.Data.List.Sort
import Mathlib.Data.String.Basic
import Remrun.Lib.Dict

/-!
# JSON texts

Values, the writer that sorts keys and escapes everything outside printable ASCII, and a
recursive-descent reader. A text the writer produced is read back as the same value with the
members of every object in key order, so writing that value again gives the same text.
-/

namespace JsonText

set_option autoImplicit false

universe u v

inductive Value (F : Type u) where
  | null
  | bool (value : Bool)
  | int (value : Int)
  | float (value : F)
  | str (value : String)
  | arr (items : List (Value F))
  | obj (members : List (String × Value F))

/-- How floating-point numbers are written and read. -/
structure FloatText (F : Type u) where
  repr : F → List Char
  read : List Char → F

/-! ## Names -/

def nullName : List Char := ['n', 'u', 'l', 'l']
def trueName : List Char := ['t', 'r', 'u', 'e']
def falseName : List Char := ['f', 'a', 'l', 's', 'e']
def nanName : List Char := ['N', 'a', 'N']
def infinityName : List Char := ['I', 'n', 'f', 'i', 'n', 'i', 't', 'y']
def minusInfinityName : List Char := '-' :: infinityName

/-! ## Writing -/

/-- Four lowercase hexadecimal digits. -/
def hex4 (n : Nat) : List Char :=
  [(n / 4096 % 16).digitChar, (n / 256 % 16).digitChar, (n / 16 % 16).digitChar,
    (n % 16).digitChar]

def escapeUnit (n : Nat) : List Char := '\\' :: 'u' :: hex4 n

/-- A character beyond the basic plane is written as its two surrogates. -/
def escapeChar (c : Char) : List Char :=
  if c = '"' then ['\\', '"']
  else if c = '\\' then ['\\', '\\']
  else if c = '\n' then ['\\', 'n']
  else if c = '\r' then ['\\', 'r']
  else if c = '\t' then ['\\', 't']
  else if c = '\x08' then ['\\', 'b']
  else if c = '\x0c' then ['\\', 'f']
  else if ' ' ≤ c ∧ c ≤ '~' then [c]
  else if c.toNat < 0x10000 then escapeUnit c.toNat
  else escapeUnit (0xd800 + (c.toNat - 0x10000) / 0x400) ++
    escapeUnit (0xdc00 + (c.toNat - 0x10000) % 0x400)

def quote (s : String) : List Char := '"' :: (s.toList.flatMap escapeChar ++ ['"'])

def intText : Int → List Char
  | .ofNat n => Nat.toDigits 10 n
  | .negSucc n => '-' :: Nat.toDigits 10 (n + 1)

def commaJoin : List (List Char) → List Char
  | [] => []
  | [x] => x
  | x :: y :: rest => x ++ ',' :: commaJoin (y :: rest)

def sortMembers {α : Type u} (members : List (String × α)) : List (String × α) :=
  members.insertionSort fun a b => a.1 ≤ b.1

def memberText (member : String × List Char) : List Char := quote member.1 ++ ':' :: member.2

section Writer
variable {F : Type u} (T : FloatText F)

mutual
/-- `json.dumps(value, sort_keys=True, separators=(",", ":"))`. -/
def dumps : Value F → List Char
  | .null => nullName
  | .bool true => trueName
  | .bool false => falseName
  | .int n => intText n
  | .float x => T.repr x
  | .str s => quote s
  | .arr items => '[' :: (commaJoin (dumpsItems items) ++ [']'])
  | .obj members =>
    '{' :: (commaJoin ((sortMembers (dumpsMembers members)).map memberText) ++ ['}'])

def dumpsItems : List (Value F) → List (List Char)
  | [] => []
  | item :: rest => dumps item :: dumpsItems rest

def dumpsMembers : List (String × Value F) → List (String × List Char)
  | [] => []
  | (key, value) :: rest => (key, dumps value) :: dumpsMembers rest
end

end Writer

section Normal
variable {F : Type u}

mutual
/-- The value with the members of every object in key order. -/
def Value.sorted : Value F → Value F
  | .arr items => .arr (sortedItems items)
  | .obj members => .obj (sortMembers (sortedMembers members))
  | value => value

def sortedItems : List (Value F) → List (Value F)
  | [] => []
  | item :: rest => item.sorted :: sortedItems rest

def sortedMembers : List (String × Value F) → List (String × Value F)
  | [] => []
  | (key, value) :: rest => (key, value.sorted) :: sortedMembers rest
end

/-- The keys of every object are distinct, as those of a dictionary are. -/
inductive Value.Proper : Value F → Prop where
  | null : Proper .null
  | bool (value : Bool) : Proper (.bool value)
  | int (value : Int) : Proper (.int value)
  | float (value : F) : Proper (.float value)
  | str (value : String) : Proper (.str value)
  | arr (items : List (Value F)) (proper : ∀ v ∈ items, Proper v) : Proper (.arr items)
  | obj (members : List (String × Value F)) (distinct : (members.map Prod.fst).Nodup)
      (proper : ∀ m ∈ members, Proper m.2) : Proper (.obj members)

end Normal

/-! ## Reading -/

def skipSpace (cs : List Char) : List Char :=
  cs.dropWhile fun c => c = ' ' || c = '\t' || c = '\n' || c = '\r'

def hexValue (c : Char) : Option Nat :=
  if '0' ≤ c ∧ c ≤ '9' then some (c.toNat - 48)
  else if 'a' ≤ c ∧ c ≤ 'f' then some (c.toNat - 87)
  else if 'A' ≤ c ∧ c ≤ 'F' then some (c.toNat - 55)
  else none

def scanHex4 : List Char → Option (Nat × List Char)
  | a :: b :: c :: d :: rest =>
    match hexValue a, hexValue b, hexValue c, hexValue d with
    | some w, some x, some y, some z => some (4096 * w + 256 * x + 16 * y + z, rest)
    | _, _, _, _ => none
  | _ => none

/-- The low surrogate that has to follow a high one. -/
def scanLow (high : Nat) : List Char → Option (Char × List Char)
  | '\\' :: 'u' :: rest =>
    match scanHex4 rest with
    | some (low, rest) =>
      if 0xdc00 ≤ low ∧ low < 0xe000 then
        some (Char.ofNat (0x10000 + (high - 0xd800) * 0x400 + (low - 0xdc00)), rest)
      else none
    | none => none
  | _ => none

/-- The character an escape stands for, after its backslash. A surrogate without its
partner stands for none. -/
def scanEscape : List Char → Option (Char × List Char)
  | [] => none
  | c :: rest =>
    if c = '"' then some ('"', rest)
    else if c = '\\' then some ('\\', rest)
    else if c = '/' then some ('/', rest)
    else if c = 'n' then some ('\n', rest)
    else if c = 'r' then some ('\r', rest)
    else if c = 't' then some ('\t', rest)
    else if c = 'b' then some ('\x08', rest)
    else if c = 'f' then some ('\x0c', rest)
    else if c = 'u' then
      match scanHex4 rest with
      | some (unit, rest) =>
        if 0xd800 ≤ unit ∧ unit < 0xdc00 then scanLow unit rest
        else if 0xdc00 ≤ unit ∧ unit < 0xe000 then none
        else some (Char.ofNat unit, rest)
      | none => none
    else none

/-- The rest of a string after its opening quote. -/
def scanString : Nat → List Char → Option (List Char × List Char)
  | 0, _ => none
  | _ + 1, [] => none
  | fuel + 1, c :: rest =>
    if c = '"' then some ([], rest)
    else if c = '\\' then
      (scanEscape rest).bind fun x => (scanString fuel x.2).map fun y => (x.1 :: y.1, y.2)
    else if c.toNat < 0x20 then none
    else (scanString fuel rest).map fun y => (c :: y.1, y.2)

def scanText (cs : List Char) : Option (String × List Char) :=
  (scanString (cs.length + 1) cs).map fun x => (String.ofList x.1, x.2)

def scanWhole : List Char → Option (List Char × List Char)
  | [] => none
  | c :: rest =>
    if c = '0' then some (['0'], rest)
    else if c.isDigit then some (c :: rest.takeWhile Char.isDigit, rest.dropWhile Char.isDigit)
    else none

def scanInteger : List Char → Option (List Char × List Char)
  | [] => none
  | c :: rest =>
    if c = '-' then (scanWhole rest).map fun x => ('-' :: x.1, x.2) else scanWhole (c :: rest)

def scanFraction : List Char → List Char × List Char
  | [] => ([], [])
  | c :: rest =>
    if c = '.' ∧ rest.takeWhile Char.isDigit ≠ [] then
      ('.' :: rest.takeWhile Char.isDigit, rest.dropWhile Char.isDigit)
    else ([], c :: rest)

def scanSign : List Char → List Char × List Char
  | [] => ([], [])
  | c :: rest => if c = '+' ∨ c = '-' then ([c], rest) else ([], c :: rest)

def scanExponent : List Char → List Char × List Char
  | [] => ([], [])
  | c :: rest =>
    if (c = 'e' ∨ c = 'E') ∧ (scanSign rest).2.takeWhile Char.isDigit ≠ [] then
      (c :: (scanSign rest).1 ++ (scanSign rest).2.takeWhile Char.isDigit,
        (scanSign rest).2.dropWhile Char.isDigit)
    else ([], c :: rest)

def readInt : List Char → Int
  | [] => 0
  | c :: rest =>
    if c = '-' then -(Nat.ofDigitChars 10 rest 0 : Int) else Nat.ofDigitChars 10 (c :: rest) 0

/-- What is left of a text that starts with a name. -/
def dropName : List Char → List Char → Option (List Char)
  | [], cs => some cs
  | _ :: _, [] => none
  | a :: name, c :: cs => if a = c then dropName name cs else none

section Reader
variable {F : Type u} (T : FloatText F)

/-- A numeral is a float as soon as it has a fraction or an exponent. -/
def scanNumber (cs : List Char) : Option (Value F × List Char) :=
  (scanInteger cs).map fun whole =>
    let fraction := scanFraction whole.2
    let exponent := scanExponent fraction.2
    if fraction.1 = [] ∧ exponent.1 = [] then (.int (readInt whole.1), whole.2)
    else (.float (T.read (whole.1 ++ fraction.1 ++ exponent.1)), exponent.2)

/-- The names that stand for a value. -/
def constants : List (List Char × Value F) := [
  (nullName, .null), (trueName, .bool true), (falseName, .bool false),
  (nanName, .float (T.read nanName)), (infinityName, .float (T.read infinityName)),
  (minusInfinityName, .float (T.read minusInfinityName))]

def scanConstant (cs : List Char) : Option (Value F × List Char) :=
  (constants T).findSome? fun entry => (dropName entry.1 cs).map fun rest => (entry.2, rest)

/-- `dict(pairs)`: a key that comes again replaces the value under it. -/
def dict (pairs : List (String × Value F)) : List (String × Value F) :=
  (pairs.foldl (fun d pair => d.set pair.1 pair.2)
    (Keyed.Dict.empty : Keyed.Dict (id : String → String) (Value F))).rows

mutual
def scanValue : Nat → List Char → Option (Value F × List Char)
  | 0, _ => none
  | _ + 1, [] => none
  | fuel + 1, c :: rest =>
    if c = '"' then (scanText rest).map fun x => (.str x.1, x.2)
    else if c = '[' then scanArray fuel (skipSpace rest)
    else if c = '{' then scanObject fuel (skipSpace rest)
    else (scanNumber T (c :: rest)).or (scanConstant T (c :: rest))

def scanArray : Nat → List Char → Option (Value F × List Char)
  | 0, _ => none
  | _ + 1, [] => none
  | fuel + 1, c :: rest =>
    if c = ']' then some (.arr [], rest)
    else (scanItems fuel (c :: rest)).map fun x => (.arr x.1, x.2)

def scanItems : Nat → List Char → Option (List (Value F) × List Char)
  | 0, _ => none
  | fuel + 1, cs =>
    (scanValue fuel cs).bind fun x =>
      match skipSpace x.2 with
      | [] => none
      | c :: rest =>
        if c = ']' then some ([x.1], rest)
        else if c = ',' then
          (scanItems fuel (skipSpace rest)).map fun y => (x.1 :: y.1, y.2)
        else none

def scanObject : Nat → List Char → Option (Value F × List Char)
  | 0, _ => none
  | _ + 1, [] => none
  | fuel + 1, c :: rest =>
    if c = '}' then some (.obj [], rest)
    else (scanMembers fuel (c :: rest)).map fun x => (.obj (dict x.1), x.2)

def scanMembers : Nat → List Char → Option (List (String × Value F) × List Char)
  | 0, _ => none
  | _ + 1, [] => none
  | fuel + 1, c :: rest =>
    if c = '"' then
      (scanText rest).bind fun key =>
        match skipSpace key.2 with
        | [] => none
        | colon :: rest =>
          if colon = ':' then
            (scanValue fuel (skipSpace rest)).bind fun x =>
              match skipSpace x.2 with
              | [] => none
              | c :: rest =>
                if c = '}' then some ([(key.1, x.1)], rest)
                else if c = ',' then
                  (scanMembers fuel (skipSpace rest)).map fun y => ((key.1, x.1) :: y.1, y.2)
                else none
          else none
    else none
end

/-- `json.loads(text)`. -/
def loads (text : List Char) : Option (Value F) :=
  match scanValue T (2 * text.length) (skipSpace text) with
  | some (value, rest) => if skipSpace rest = [] then some value else none
  | none => none

end Reader

/-! ## Strings are read back -/

theorem hexValue_digitChar : ∀ d < 16, hexValue d.digitChar = some d := by decide

theorem scanHex4_hex4 {n : Nat} (h : n < 0x10000) (rest : List Char) :
    scanHex4 (hex4 n ++ rest) = some (n, rest) := by
  simp only [hex4, List.cons_append, List.nil_append, scanHex4]
  rw [hexValue_digitChar _ (Nat.mod_lt _ (by decide)), hexValue_digitChar _ (Nat.mod_lt _ (by decide)),
    hexValue_digitChar _ (Nat.mod_lt _ (by decide)), hexValue_digitChar _ (Nat.mod_lt _ (by decide))]
  simp only [Option.some.injEq, Prod.mk.injEq, and_true]
  omega

theorem scanEscape_unit (rest : List Char) : scanEscape ('u' :: rest) =
    match scanHex4 rest with
    | some (unit, rest) =>
      if 0xd800 ≤ unit ∧ unit < 0xdc00 then scanLow unit rest
      else if 0xdc00 ≤ unit ∧ unit < 0xe000 then none
      else some (Char.ofNat unit, rest)
    | none => none := rfl

theorem toNat_cases (c : Char) : c.toNat < 0xd800 ∨ (0xdfff < c.toNat ∧ c.toNat < 0x110000) :=
  c.valid

/-- An escaped character is read as that character. -/
theorem scanString_escapeChar (c : Char) (fuel : Nat) (rest : List Char) :
    scanString (fuel + 1) (escapeChar c ++ rest) =
      (scanString fuel rest).map fun y => (c :: y.1, y.2) := by
  have hc := toNat_cases c
  unfold escapeChar
  split
  · rename_i h; subst h; rfl
  split
  · rename_i h; subst h; rfl
  split
  · rename_i h; subst h; rfl
  split
  · rename_i h; subst h; rfl
  split
  · rename_i h; subst h; rfl
  split
  · rename_i h; subst h; rfl
  split
  · rename_i h; subst h; rfl
  split
  · rename_i hquote hslash _ _ _ _ _ hprint
    have hspace : ¬ c.toNat < 0x20 := by
      have : ' '.toNat ≤ c.toNat := hprint.1
      simpa using this
    rw [List.singleton_append, scanString, if_neg hquote, if_neg hslash, if_neg hspace]
  split
  · rename_i hplane
    rw [escapeUnit, List.cons_append, List.cons_append, scanString, if_neg (by decide),
      if_pos rfl, scanEscape_unit, scanHex4_hex4 hplane]
    simp only
    rw [if_neg (by omega), if_neg (by omega), Char.ofNat_toNat]
    rfl
  · rename_i hplane
    have hhigh : 0xd800 + (c.toNat - 0x10000) / 0x400 < 0x10000 := by omega
    have hlow : 0xdc00 + (c.toNat - 0x10000) % 0x400 < 0x10000 := by omega
    simp only [escapeUnit, List.cons_append, List.append_assoc]
    rw [scanString, if_neg (by decide), if_pos rfl, scanEscape_unit, scanHex4_hex4 hhigh]
    simp only
    rw [if_pos (by omega), scanLow, scanHex4_hex4 hlow]
    simp only
    rw [if_pos (by omega)]
    have hsame : 0x10000 + (0xd800 + (c.toNat - 0x10000) / 0x400 - 0xd800) * 0x400 +
        (0xdc00 + (c.toNat - 0x10000) % 0x400 - 0xdc00) = c.toNat := by omega
    rw [hsame, Char.ofNat_toNat]
    rfl

theorem length_escapeChar (c : Char) : 1 ≤ (escapeChar c).length := by
  unfold escapeChar escapeUnit
  split_ifs <;> simp

theorem scanString_quoted (cs : List Char) (rest : List Char) {fuel : Nat}
    (hfuel : cs.length < fuel) :
    scanString fuel (cs.flatMap escapeChar ++ '"' :: rest) = some (cs, rest) := by
  induction cs generalizing fuel with
  | nil =>
    obtain ⟨fuel, rfl⟩ : ∃ n, fuel = n + 1 := ⟨fuel - 1, by simp at hfuel; omega⟩
    simp [scanString]
  | cons c cs ih =>
    obtain ⟨fuel, rfl⟩ : ∃ n, fuel = n + 1 := ⟨fuel - 1, by omega⟩
    rw [List.flatMap_cons, List.append_assoc, scanString_escapeChar,
      ih (by simpa using hfuel)]
    rfl

theorem length_flatMap_escapeChar (cs : List Char) :
    cs.length ≤ (cs.flatMap escapeChar).length := by
  induction cs with
  | nil => simp
  | cons c cs ih =>
    have h := length_escapeChar c
    rw [List.flatMap_cons, List.length_append, List.length_cons]
    omega

/-- A quoted string is read back, whatever follows it. -/
theorem scanText_quote (s : String) (rest : List Char) :
    scanText (s.toList.flatMap escapeChar ++ '"' :: rest) = some (s, rest) := by
  unfold scanText
  rw [scanString_quoted]
  · simp
  · have h := length_flatMap_escapeChar s.toList
    rw [List.length_append]
    omega

/-! ## Numbers are read back -/

/-- What can follow a value in a text of the writer. -/
def Delimited (rest : List Char) : Prop := ∀ c ∈ rest.head?, c = ',' ∨ c = ']' ∨ c = '}'

def Digits (ds : List Char) : Prop := ∀ d ∈ ds, d.isDigit = true

def NoDigit (rest : List Char) : Prop := ∀ c ∈ rest.head?, c.isDigit = false

def IsFraction (t : List Char) : Prop := t = [] ∨ ∃ ds, ds ≠ [] ∧ Digits ds ∧ t = '.' :: ds

def IsExponent (t : List Char) : Prop :=
  t = [] ∨ ∃ letter sign ds, (letter = 'e' ∨ letter = 'E') ∧
    (sign = [] ∨ sign = ['+'] ∨ sign = ['-']) ∧ ds ≠ [] ∧ Digits ds ∧ t = letter :: sign ++ ds

/-- A sign or nothing. -/
def IsMinus (t : List Char) : Prop := t = [] ∨ t = ['-']

theorem takeWhile_digits {ds rest : List Char} (hds : Digits ds) (hrest : NoDigit rest) :
    (ds ++ rest).takeWhile Char.isDigit = ds ∧ (ds ++ rest).dropWhile Char.isDigit = rest := by
  induction ds with
  | nil =>
    cases rest with
    | nil => exact ⟨rfl, rfl⟩
    | cons c rest =>
      have hc : c.isDigit = false := hrest c rfl
      simp [hc]
  | cons d ds ih =>
    have hd : d.isDigit = true := hds d List.mem_cons_self
    obtain ⟨h1, h2⟩ := ih fun e he => hds e (List.mem_cons_of_mem _ he)
    rw [List.cons_append, List.takeWhile_cons_of_pos hd, List.dropWhile_cons_of_pos hd, h1, h2]
    exact ⟨rfl, rfl⟩

theorem digits_toDigits (n : Nat) : Digits (Nat.toDigits 10 n) :=
  fun _ hd => Nat.isDigit_of_mem_toDigits (by decide) (by decide) hd

/-- The decimal digits of a positive number start with another digit than zero. -/
theorem toDigits_head {n : Nat} (hn : 0 < n) :
    ∃ c ds, Nat.toDigits 10 n = c :: ds ∧ c ≠ '0' := by
  induction n using Nat.strongRecOn with
  | ind n ih =>
    rcases Nat.lt_or_ge n 10 with hlt | hge
    · refine ⟨n.digitChar, [], Nat.toDigits_of_lt_base hlt, ?_⟩
      have hall : ∀ m < 10, 0 < m → m.digitChar ≠ '0' := by decide
      exact hall n hlt hn
    · obtain ⟨c, ds, heq, hc⟩ := ih (n / 10) (by omega) (by omega)
      refine ⟨c, ds ++ [(n % 10).digitChar], ?_, hc⟩
      rw [Nat.toDigits_of_base_le (by decide) hge, heq, List.cons_append]

theorem scanWhole_toDigits (n : Nat) {rest : List Char} (hrest : NoDigit rest) :
    scanWhole (Nat.toDigits 10 n ++ rest) = some (Nat.toDigits 10 n, rest) := by
  rcases Nat.eq_zero_or_pos n with rfl | hpos
  · rw [Nat.toDigits_zero]
    rfl
  · obtain ⟨c, ds, heq, hc⟩ := toDigits_head hpos
    have hdigits := heq ▸ digits_toDigits n
    obtain ⟨h1, h2⟩ := takeWhile_digits (fun d hd => hdigits d (List.mem_cons_of_mem _ hd)) hrest
    rw [heq, List.cons_append, scanWhole, if_neg hc, if_pos (hdigits c List.mem_cons_self), h1, h2]

theorem digit_ne {c : Char} (h : c.isDigit = true) {e : Char} (he : e.isDigit = false) :
    c ≠ e := by
  rintro rfl
  rw [h] at he
  cases he

theorem scanInteger_toDigits {sign : List Char} (hsign : IsMinus sign) (n : Nat)
    {rest : List Char} (hrest : NoDigit rest) :
    scanInteger (sign ++ (Nat.toDigits 10 n ++ rest)) = some (sign ++ Nat.toDigits 10 n, rest) := by
  have hwhole := scanWhole_toDigits n hrest
  rcases hsign with rfl | rfl
  · cases heq : Nat.toDigits 10 n with
    | nil => exact absurd heq Nat.toDigits_ne_nil
    | cons c ds =>
      have hc : c.isDigit = true := digits_toDigits n c (heq ▸ List.mem_cons_self)
      rw [heq] at hwhole
      rw [List.nil_append, List.cons_append, scanInteger, if_neg (digit_ne hc (by decide))]
      exact hwhole
  · rw [List.singleton_append, scanInteger, if_pos rfl, hwhole]
    rfl

theorem readInt_toDigits (n : Nat) : readInt (Nat.toDigits 10 n) = n := by
  cases heq : Nat.toDigits 10 n with
  | nil => exact absurd heq Nat.toDigits_ne_nil
  | cons c ds =>
    have hc : c.isDigit = true := digits_toDigits n c (heq ▸ List.mem_cons_self)
    rw [readInt, if_neg (digit_ne hc (by decide)), ← heq, Nat.ofDigitChars_ten_toDigits]

theorem readInt_minus (n : Nat) : readInt ('-' :: Nat.toDigits 10 n) = -n := by
  rw [readInt, if_pos rfl, Nat.ofDigitChars_ten_toDigits]

theorem scanFraction_append {t rest : List Char} (ht : IsFraction t) (hrest : NoDigit rest)
    (hpoint : ∀ c ∈ rest.head?, c ≠ '.') : scanFraction (t ++ rest) = (t, rest) := by
  rcases ht with rfl | ⟨ds, hne, hds, rfl⟩
  · cases rest with
    | nil => rfl
    | cons c rest =>
      rw [List.nil_append, scanFraction, if_neg]
      exact fun h => hpoint c rfl h.1
  · obtain ⟨h1, h2⟩ := takeWhile_digits hds hrest
    rw [List.cons_append, scanFraction, h1, h2, if_pos ⟨rfl, hne⟩]

theorem scanSign_append {sign ds rest : List Char} (hsign : sign = [] ∨ sign = ['+'] ∨ sign = ['-'])
    (hne : ds ≠ []) (hds : Digits ds) : scanSign (sign ++ (ds ++ rest)) = (sign, ds ++ rest) := by
  rcases hsign with rfl | rfl | rfl
  · cases ds with
    | nil => exact absurd rfl hne
    | cons d ds =>
      have hd : d.isDigit = true := hds d List.mem_cons_self
      rw [List.nil_append, List.cons_append, scanSign, if_neg]
      rintro (h | h)
      · exact digit_ne hd (by decide) h
      · exact digit_ne hd (by decide) h
  · rfl
  · rfl

theorem scanExponent_append {t rest : List Char} (ht : IsExponent t) (hrest : NoDigit rest)
    (hletter : ∀ c ∈ rest.head?, c ≠ 'e' ∧ c ≠ 'E') : scanExponent (t ++ rest) = (t, rest) := by
  rcases ht with rfl | ⟨letter, sign, ds, hl, hsign, hne, hds, rfl⟩
  · cases rest with
    | nil => rfl
    | cons c rest =>
      rw [List.nil_append, scanExponent, if_neg]
      rintro ⟨h | h, _⟩
      · exact (hletter c rfl).1 h
      · exact (hletter c rfl).2 h
  · obtain ⟨h1, h2⟩ := takeWhile_digits hds hrest
    rw [List.cons_append, List.cons_append, List.append_assoc, scanExponent,
      scanSign_append hsign hne hds]
    simp only
    rw [h1, h2, if_pos ⟨hl, hne⟩, List.cons_append]

theorem Delimited.noDigit {rest : List Char} (h : Delimited rest) : NoDigit rest := by
  intro c hc
  rcases h c hc with rfl | rfl | rfl <;> rfl

theorem Delimited.plain {rest : List Char} (h : Delimited rest) :
    ∀ c ∈ rest.head?, c ≠ '.' ∧ c ≠ 'e' ∧ c ≠ 'E' := by
  intro c hc
  rcases h c hc with rfl | rfl | rfl <;> decide

/-- What follows the whole part of a numeral, and what follows its fraction. -/
theorem exponent_head {t rest : List Char} (ht : IsExponent t) (hrest : Delimited rest) :
    NoDigit (t ++ rest) ∧ ∀ c ∈ (t ++ rest).head?, c ≠ '.' := by
  rcases ht with rfl | ⟨letter, sign, ds, hl, _, _, _, rfl⟩
  · exact ⟨hrest.noDigit, fun c hc => (hrest.plain c hc).1⟩
  · have hhead : ∀ c ∈ (letter :: sign ++ ds ++ rest).head?, c = letter := by
      intro c hc
      exact (Option.some.inj hc).symm
    constructor
    · intro c hc
      rw [hhead c hc]
      rcases hl with rfl | rfl <;> rfl
    · intro c hc
      rw [hhead c hc]
      rcases hl with rfl | rfl <;> decide

theorem fraction_head {t rest : List Char} (ht : IsFraction t) (hrest : NoDigit rest) :
    NoDigit (t ++ rest) := by
  rcases ht with rfl | ⟨ds, _, _, rfl⟩
  · exact hrest
  · intro c hc
    rw [← Option.some.inj hc]
    rfl

section Numbers
variable {F : Type u} {T : FloatText F}

/-- A numeral before a delimiter is scanned as a whole. -/
theorem scanNumber_numeral {sign fraction exponent rest : List Char} (hsign : IsMinus sign)
    (n : Nat) (hfraction : IsFraction fraction) (hexponent : IsExponent exponent)
    (hrest : Delimited rest) :
    scanNumber T (sign ++ Nat.toDigits 10 n ++ fraction ++ exponent ++ rest) = some
      (if fraction = [] ∧ exponent = [] then (.int (readInt (sign ++ Nat.toDigits 10 n)), rest)
      else (.float (T.read (sign ++ Nat.toDigits 10 n ++ fraction ++ exponent)), rest)) := by
  obtain ⟨hexpNoDigit, hexpPoint⟩ := exponent_head hexponent hrest
  have hwhole := scanInteger_toDigits hsign n (fraction_head hfraction hexpNoDigit)
  have hassoc : sign ++ Nat.toDigits 10 n ++ fraction ++ exponent ++ rest =
      sign ++ (Nat.toDigits 10 n ++ (fraction ++ (exponent ++ rest))) := by
    simp only [List.append_assoc]
  rw [hassoc, scanNumber, hwhole, Option.map_some]
  simp only
  rw [scanFraction_append hfraction hexpNoDigit hexpPoint]
  simp only
  rw [scanExponent_append hexponent hrest.noDigit fun c hc => (hrest.plain c hc).2]
  simp only
  split
  · rename_i hnone
    rw [hnone.1, hnone.2]
    rfl
  · rfl

theorem scanNumber_intText (n : Int) {rest : List Char} (hrest : Delimited rest) :
    scanNumber T (intText n ++ rest) = some (.int n, rest) := by
  cases n with
  | ofNat n =>
    have h := scanNumber_numeral (T := T) (Or.inl rfl) n (Or.inl rfl) (Or.inl rfl) hrest
    simp only [List.append_nil, List.nil_append, and_self, if_true, readInt_toDigits] at h
    exact h
  | negSucc n =>
    have h := scanNumber_numeral (T := T) (Or.inr rfl) (n + 1) (Or.inl rfl) (Or.inl rfl) hrest
    simp only [List.append_nil, List.singleton_append, and_self, if_true, readInt_minus] at h
    exact h

/-- What is documented of `float.__repr__`: the text is a numeral with a fraction or an
exponent, or the name of a value that is not finite, and reading it gives the number back. -/
structure FloatText.Faithful (T : FloatText F) : Prop where
  written : ∀ x, T.repr x ∈ [nanName, infinityName, minusInfinityName] ∨
    ∃ sign n fraction exponent, IsMinus sign ∧ IsFraction fraction ∧ IsExponent exponent ∧
      ¬ (fraction = [] ∧ exponent = []) ∧
      T.repr x = sign ++ Nat.toDigits 10 n ++ fraction ++ exponent
  readBack : ∀ x, T.read (T.repr x) = x

theorem scanScalar_float (hT : T.Faithful) (x : F) {rest : List Char} (hrest : Delimited rest) :
    (scanNumber T (T.repr x ++ rest)).or (scanConstant T (T.repr x ++ rest)) =
      some (.float x, rest) := by
  rcases hT.written x with hname | ⟨sign, n, fraction, exponent, hsign, hf, he, hne, htext⟩
  · have hread := hT.readBack x
    have hconstant : ∀ t ∈ [nanName, infinityName, minusInfinityName],
        (scanNumber T (t ++ rest)).or (scanConstant T (t ++ rest)) = some (.float (T.read t), rest) := by
      intro t ht
      simp only [List.mem_cons, List.not_mem_nil, or_false] at ht
      rcases ht with rfl | rfl | rfl <;> rfl
    rw [hconstant _ hname, hread]
  · rw [htext, scanNumber_numeral hsign n hf he hrest, if_neg hne, ← htext, hT.readBack]
    rfl
end Numbers

/-! ## Values are read back -/

section Members
variable {α : Type u} {β : Type v}

instance totalKeys : Std.Total fun a b : String × α => a.1 ≤ b.1 := ⟨fun a b => le_total a.1 b.1⟩
instance transKeys : IsTrans (String × α) fun a b => a.1 ≤ b.1 := ⟨fun _ _ _ => le_trans⟩

theorem mem_sortMembers {members : List (String × α)} {m : String × α} :
    m ∈ sortMembers members ↔ m ∈ members := List.mem_insertionSort _

theorem sortMembers_nil_iff {members : List (String × α)} :
    sortMembers members = [] ↔ members = [] := by
  rw [← List.length_eq_zero_iff, sortMembers, List.length_insertionSort, List.length_eq_zero_iff]

/-- Sorting looks at the keys only. -/
theorem map_sortMembers (f : String × α → String × β) (hf : ∀ m, (f m).1 = m.1)
    (members : List (String × α)) :
    (sortMembers members).map f = sortMembers (members.map f) := by
  apply List.map_insertionSort
  intro a _ b _
  rw [hf, hf]

theorem sortMembers_sortMembers (members : List (String × α)) :
    sortMembers (sortMembers members) = sortMembers members :=
  (List.pairwise_insertionSort _ members).insertionSort_eq

theorem nodup_sortMembers {members : List (String × α)} (h : (members.map Prod.fst).Nodup) :
    ((sortMembers members).map Prod.fst).Nodup :=
  ((List.perm_insertionSort _ members).map Prod.fst).nodup_iff.mpr h

theorem lookup_eq_some {members : List (String × α)} {name : String} {v : α}
    (h : (members.map Prod.fst).Nodup) : members.lookup name = some v ↔ (name, v) ∈ members := by
  induction members with
  | nil => simp
  | cons member rest ih =>
    obtain ⟨key, value⟩ := member
    obtain ⟨hout, hrest⟩ : key ∉ rest.map Prod.fst ∧ (rest.map Prod.fst).Nodup :=
      List.nodup_cons.mp h
    rw [List.lookup_cons]
    by_cases hkey : name = key
    · subst hkey
      have hno : (name, v) ∉ rest := fun hv => hout (List.mem_map_of_mem (f := Prod.fst) hv)
      simp [hno, eq_comm]
    · have hne : (name == key) = false := by simpa using hkey
      simp [hne, ih hrest, hkey]

theorem lookup_sortMembers {members : List (String × α)} (h : (members.map Prod.fst).Nodup)
    (name : String) : (sortMembers members).lookup name = members.lookup name := by
  apply Option.ext
  intro v
  rw [lookup_eq_some (nodup_sortMembers h), lookup_eq_some h, mem_sortMembers]

end Members

section Values
variable {F : Type u} (T : FloatText F)

theorem dumpsItems_eq (items : List (Value F)) : dumpsItems T items = items.map (dumps T) := by
  induction items with
  | nil => rfl
  | cons v items ih => rw [dumpsItems, ih, List.map_cons]

theorem dumpsMembers_eq (members : List (String × Value F)) :
    dumpsMembers T members = members.map fun m => (m.1, dumps T m.2) := by
  induction members with
  | nil => rfl
  | cons m members ih =>
    obtain ⟨key, v⟩ := m
    rw [dumpsMembers, ih, List.map_cons]

theorem sortedItems_eq (items : List (Value F)) : sortedItems items = items.map Value.sorted := by
  induction items with
  | nil => rfl
  | cons v items ih => rw [sortedItems, ih, List.map_cons]

theorem sortedMembers_eq (members : List (String × Value F)) :
    sortedMembers members = members.map fun m => (m.1, m.2.sorted) := by
  induction members with
  | nil => rfl
  | cons m members ih =>
    obtain ⟨key, v⟩ := m
    rw [sortedMembers, ih, List.map_cons]

/-- The text of one member of an object. -/
def memberOf (m : String × Value F) : List Char := memberText (m.1, dumps T m.2)

theorem dumps_obj (members : List (String × Value F)) : dumps T (.obj members) =
    '{' :: (commaJoin ((sortMembers members).map (memberOf T)) ++ ['}']) := by
  rw [dumps, dumpsMembers_eq, ← map_sortMembers (fun m : String × Value F => (m.1, dumps T m.2))
    (fun _ => rfl), List.map_map]
  rfl

theorem dumps_arr (items : List (Value F)) :
    dumps T (.arr items) = '[' :: (commaJoin (items.map (dumps T)) ++ [']']) := by
  rw [dumps, dumpsItems_eq]

/-- The pairs of distinct keys are the rows of their dictionary. -/
theorem dict_eq {pairs : List (String × Value F)} (h : (pairs.map Prod.fst).Nodup) :
    dict pairs = pairs := by
  have hfold : ∀ (pairs : List (String × Value F))
      (d : Keyed.Dict (id : String → String) (Value F)),
      ((d.rows ++ pairs).map Prod.fst).Nodup →
      (pairs.foldl (fun d pair => d.set pair.1 pair.2) d).rows = d.rows ++ pairs := by
    intro pairs
    induction pairs with
    | nil => intro d _; simp
    | cons m pairs ih =>
      intro d hnodup
      have hnew : ¬ id m.1 ∈ d.rows.map fun e => id e.1 := by
        intro hmem
        rw [List.map_append, List.nodup_append] at hnodup
        exact hnodup.2.2 m.1 hmem m.1 (by simp) rfl
      have hset : (d.set m.1 m.2).rows = d.rows ++ [m] := by
        rw [Keyed.Dict.set, dif_neg hnew]
      rw [List.foldl_cons, ih _ (by rw [hset]; simpa using hnodup), hset, List.append_assoc,
        List.singleton_append]
  exact hfold pairs _ h

end Values

/-- Every value is built from scalars, arrays and objects. -/
theorem Value.induction {F : Type u} {motive : Value F → Prop}
    (scalar : ∀ v, (∀ items, v ≠ .arr items) → (∀ members, v ≠ .obj members) → motive v)
    (arr : ∀ items, (∀ v ∈ items, motive v) → motive (.arr items))
    (obj : ∀ members, (∀ m ∈ members, motive m.2) → motive (.obj members)) (v : Value F) :
    motive v :=
  match v with
  | .null => scalar _ (fun _ h => by cases h) fun _ h => by cases h
  | .bool _ => scalar _ (fun _ h => by cases h) fun _ h => by cases h
  | .int _ => scalar _ (fun _ h => by cases h) fun _ h => by cases h
  | .float _ => scalar _ (fun _ h => by cases h) fun _ h => by cases h
  | .str _ => scalar _ (fun _ h => by cases h) fun _ h => by cases h
  | .arr items => arr items fun v _ => Value.induction scalar arr obj v
  | .obj members => obj members fun m _ => Value.induction scalar arr obj m.2
termination_by sizeOf v
decreasing_by
  · rename_i hv
    have := List.sizeOf_lt_of_mem hv
    simp only [Value.arr.sizeOf_spec]
    omega
  · rename_i hm
    have := List.sizeOf_lt_of_mem hm
    obtain ⟨key, v⟩ := m
    simp only [Value.obj.sizeOf_spec, Prod.mk.sizeOf_spec] at this ⊢
    omega

/-- The characters that end or open something where a scalar could start. -/
def structural : List Char := [' ', '\t', '\n', '\r', ']', '"', '[', '{']

theorem structural_notDigit : ∀ c ∈ structural, c.isDigit = false := by
  intro c hc
  simp only [structural, List.mem_cons, List.not_mem_nil, or_false] at hc
  rcases hc with rfl | rfl | rfl | rfl | rfl | rfl | rfl | rfl <;> rfl

/-- The text starts like a scalar that is no string. -/
def StartsScalar (text : List Char) : Prop := ∃ c cs, text = c :: cs ∧ c ∉ structural

theorem digit_notMem {c : Char} (h : c.isDigit = true) {l : List Char}
    (hl : ∀ e ∈ l, e.isDigit = false) : c ∉ l := by
  intro hmem
  rw [hl c hmem] at h
  cases h

theorem startsScalar_numeral {sign : List Char} (hsign : IsMinus sign) (n : Nat)
    (more : List Char) : StartsScalar (sign ++ Nat.toDigits 10 n ++ more) := by
  rcases hsign with rfl | rfl
  · cases heq : Nat.toDigits 10 n with
    | nil => exact absurd heq Nat.toDigits_ne_nil
    | cons c ds =>
      have hc : c.isDigit = true := digits_toDigits n c (heq ▸ List.mem_cons_self)
      exact ⟨c, ds ++ more, rfl, digit_notMem hc structural_notDigit⟩
  · exact ⟨'-', Nat.toDigits 10 n ++ more, rfl, by simp [structural]⟩

theorem skipSpace_cons {c : Char} (h : c ∉ [' ', '\t', '\n', '\r']) (cs : List Char) :
    skipSpace (c :: cs) = c :: cs := by
  simp only [List.mem_cons, List.not_mem_nil, or_false, not_or] at h
  unfold skipSpace
  rw [List.dropWhile_cons_of_neg]
  simp [h]

section Reading
variable {F : Type u} {T : FloatText F}

theorem startsScalar_float (hT : T.Faithful) (x : F) : StartsScalar (T.repr x) := by
  rcases hT.written x with hname | ⟨sign, n, fraction, exponent, hsign, _, _, _, htext⟩
  · simp only [List.mem_cons, List.not_mem_nil, or_false] at hname
    rcases hname with h | h | h <;> rw [h] <;> exact ⟨_, _, rfl, by decide⟩
  · rw [htext, List.append_assoc]
    exact startsScalar_numeral hsign n _

theorem startsScalar_int (n : Int) : StartsScalar (intText n) := by
  cases n with
  | ofNat n =>
    have h := startsScalar_numeral (Or.inl rfl) n []
    rw [List.append_nil] at h
    exact h
  | negSucc n =>
    have h := startsScalar_numeral (Or.inr rfl) (n + 1) []
    rw [List.append_nil] at h
    exact h

/-- A value is read back from its text, with fuel for twice the length of the text. -/
def Reads (T : FloatText F) (v : Value F) : Prop := ∀ fuel rest,
  2 * (dumps T v).length ≤ fuel → Delimited rest →
    scanValue T fuel (dumps T v ++ rest) = some (v.sorted, rest)

theorem scanValue_scalar {text rest : List Char} {v : Value F} (hstart : StartsScalar text)
    (hscan : (scanNumber T (text ++ rest)).or (scanConstant T (text ++ rest)) = some (v, rest))
    (fuel : Nat) : scanValue T (fuel + 1) (text ++ rest) = some (v, rest) := by
  obtain ⟨c, cs, rfl, hc⟩ := hstart
  simp only [structural, List.mem_cons, List.not_mem_nil, or_false, not_or] at hc
  rw [List.cons_append, scanValue, if_neg hc.2.2.2.2.2.1, if_neg hc.2.2.2.2.2.2.1,
    if_neg hc.2.2.2.2.2.2.2]
  exact hscan

theorem reads_scalar (hT : T.Faithful) (v : Value F) (harr : ∀ items, v ≠ .arr items)
    (hobj : ∀ members, v ≠ .obj members) : Reads T v := by
  intro fuel rest hfuel hrest
  have hscalar : ∀ text, StartsScalar text → dumps T v = text → v.sorted = v →
      (scanNumber T (text ++ rest)).or (scanConstant T (text ++ rest)) = some (v, rest) →
      scanValue T fuel (dumps T v ++ rest) = some (v.sorted, rest) := by
    intro text hstart htext hsorted hscan
    obtain ⟨c, cs, hcons, _⟩ := id hstart
    rw [htext, hcons, List.length_cons] at hfuel
    obtain ⟨fuel, rfl⟩ : ∃ n, fuel = n + 1 := ⟨fuel - 1, by omega⟩
    rw [htext, hsorted]
    exact scanValue_scalar hstart hscan fuel
  cases v with
  | null => exact hscalar nullName ⟨_, _, rfl, by decide⟩ rfl rfl rfl
  | bool b =>
    cases b with
    | true => exact hscalar trueName ⟨_, _, rfl, by decide⟩ rfl rfl rfl
    | false => exact hscalar falseName ⟨_, _, rfl, by decide⟩ rfl rfl rfl
  | int n =>
    apply hscalar (intText n) (startsScalar_int n) rfl rfl
    rw [scanNumber_intText n hrest]
    rfl
  | float x => exact hscalar (T.repr x) (startsScalar_float hT x) rfl rfl (scanScalar_float hT x hrest)
  | str s =>
    obtain ⟨fuel, rfl⟩ : ∃ n, fuel = n + 1 := ⟨fuel - 1, by simp [dumps, quote] at hfuel; omega⟩
    rw [dumps, quote, List.cons_append, List.append_assoc, List.singleton_append, scanValue,
      if_pos rfl, scanText_quote]
    rfl
  | arr items => exact absurd rfl (harr items)
  | obj members => exact absurd rfl (hobj members)

theorem dumps_start (hT : T.Faithful) (v : Value F) :
    ∃ c cs, dumps T v = c :: cs ∧ c ∉ [' ', '\t', '\n', '\r', ']'] := by
  have hscalar : ∀ text, StartsScalar text → ∃ c cs, text = c :: cs ∧
      c ∉ [' ', '\t', '\n', '\r', ']'] := by
    rintro _ ⟨c, cs, rfl, hc⟩
    exact ⟨c, cs, rfl, fun hmem => hc (List.mem_append_left ['"', '[', '{'] hmem)⟩
  cases v with
  | null => exact ⟨_, _, rfl, by decide⟩
  | bool b => cases b <;> exact ⟨_, _, rfl, by decide⟩
  | int n => exact hscalar _ (startsScalar_int n)
  | float x => exact hscalar _ (startsScalar_float hT x)
  | str s => exact ⟨_, _, rfl, by decide⟩
  | arr items => exact ⟨_, _, rfl, by decide⟩
  | obj members => exact ⟨_, _, rfl, by decide⟩

theorem skipSpace_dumps (hT : T.Faithful) (v : Value F) (rest : List Char) :
    skipSpace (dumps T v ++ rest) = dumps T v ++ rest := by
  obtain ⟨c, cs, heq, hc⟩ := dumps_start hT v
  rw [heq, List.cons_append]
  exact skipSpace_cons (fun hmem => hc (List.mem_append_left [']'] hmem)) _

theorem length_dumps_pos (hT : T.Faithful) (v : Value F) : 0 < (dumps T v).length := by
  obtain ⟨c, cs, heq, _⟩ := dumps_start hT v
  rw [heq]
  exact Nat.succ_pos _

theorem delimited_cons {c : Char} (h : c = ',' ∨ c = ']' ∨ c = '}') (cs : List Char) :
    Delimited (c :: cs) := by
  intro d hd
  rw [← Option.some.inj hd]
  exact h

/-- The items of a list that is not empty, up to its closing bracket. -/
theorem scanItems_items (hT : T.Faithful) (v : Value F) (items : List (Value F))
    (hread : ∀ w ∈ v :: items, Reads T w) (fuel : Nat) (rest : List Char)
    (hfuel : 2 * (commaJoin ((v :: items).map (dumps T))).length + 1 ≤ fuel) :
    scanItems T fuel (commaJoin ((v :: items).map (dumps T)) ++ ']' :: rest) =
      some ((v :: items).map Value.sorted, rest) := by
  induction items generalizing v fuel with
  | nil =>
    obtain ⟨fuel, rfl⟩ : ∃ n, fuel = n + 1 := ⟨fuel - 1, by omega⟩
    simp only [List.map_cons, List.map_nil, commaJoin] at hfuel ⊢
    rw [scanItems, hread v List.mem_cons_self fuel _ (by omega)
      (delimited_cons (Or.inr (Or.inl rfl)) rest)]
    simp only [Option.bind_some]
    rw [skipSpace_cons (by decide)]
    rfl
  | cons w items ih =>
    obtain ⟨fuel, rfl⟩ : ∃ n, fuel = n + 1 := ⟨fuel - 1, by omega⟩
    have hjoin : commaJoin ((v :: w :: items).map (dumps T)) =
        dumps T v ++ ',' :: commaJoin ((w :: items).map (dumps T)) := rfl
    have hpos := length_dumps_pos hT v
    rw [hjoin, List.length_append, List.length_cons] at hfuel
    rw [hjoin, List.append_assoc, List.cons_append, scanItems,
      hread v List.mem_cons_self fuel _ (by omega) (delimited_cons (Or.inl rfl) _)]
    simp only [Option.bind_some]
    have hnext := ih w (fun u hu => hread u (List.mem_cons_of_mem _ hu)) fuel (by omega)
    have hskip : skipSpace (commaJoin ((w :: items).map (dumps T)) ++ ']' :: rest) =
        commaJoin ((w :: items).map (dumps T)) ++ ']' :: rest := by
      cases items with
      | nil => exact skipSpace_dumps hT w _
      | cons u items =>
        have hw : commaJoin ((w :: u :: items).map (dumps T)) =
            dumps T w ++ ',' :: commaJoin ((u :: items).map (dumps T)) := rfl
        rw [hw, List.append_assoc]
        exact skipSpace_dumps hT w _
    rw [skipSpace_cons (by decide)]
    simp only [hskip, hnext]
    rfl

theorem reads_arr (hT : T.Faithful) (items : List (Value F)) (hread : ∀ v ∈ items, Reads T v) :
    Reads T (.arr items) := by
  intro fuel rest hfuel _
  have hsorted : (Value.arr items).sorted = .arr (items.map Value.sorted) := by
    rw [Value.sorted, sortedItems_eq]
  rw [dumps_arr] at hfuel ⊢
  simp only [List.length_cons, List.length_append, List.length_nil] at hfuel
  obtain ⟨fuel, rfl⟩ : ∃ n, fuel = n + 2 := ⟨fuel - 2, by omega⟩
  rw [hsorted, List.cons_append, List.append_assoc, List.singleton_append, scanValue,
    if_neg (by decide), if_pos rfl]
  cases items with
  | nil => rfl
  | cons v items =>
    have hitems := scanItems_items hT v items hread fuel rest (by omega)
    obtain ⟨c, cs, hstart, hc⟩ : ∃ c cs, commaJoin ((v :: items).map (dumps T)) = c :: cs ∧
        c ∉ [' ', '\t', '\n', '\r', ']'] := by
      obtain ⟨c, cs, heq, hc⟩ := dumps_start hT v
      cases items with
      | nil => exact ⟨c, cs, heq, hc⟩
      | cons w items =>
        refine ⟨c, cs ++ ',' :: commaJoin ((w :: items).map (dumps T)), ?_, hc⟩
        rw [← List.cons_append, ← heq]
        rfl
    rw [hstart, List.cons_append] at hitems ⊢
    rw [skipSpace_cons fun hmem => hc (List.mem_append_left [']'] hmem), scanArray,
      if_neg fun h => hc (by simp [h]), hitems]
    rfl

/-- The members of an object that is not empty, up to its closing brace. -/
theorem scanMembers_members (hT : T.Faithful) (m : String × Value F)
    (members : List (String × Value F)) (hread : ∀ n ∈ m :: members, Reads T n.2) (fuel : Nat)
    (rest : List Char)
    (hfuel : 2 * (commaJoin ((m :: members).map (memberOf T))).length + 1 ≤ fuel) :
    scanMembers T fuel (commaJoin ((m :: members).map (memberOf T)) ++ '}' :: rest) =
      some ((m :: members).map fun n => (n.1, n.2.sorted), rest) := by
  have hmember : ∀ (n : String × Value F) (more : List Char), memberOf T n ++ more =
      '"' :: (n.1.toList.flatMap escapeChar ++ '"' :: ':' :: (dumps T n.2 ++ more)) := by
    intro n more
    simp only [memberOf, memberText, quote, List.cons_append, List.append_assoc, List.nil_append]
  have hlength : ∀ n : String × Value F,
      (dumps T n.2).length + 3 ≤ (memberOf T n).length := by
    intro n
    simp only [memberOf, memberText, quote, List.length_cons, List.length_append, List.length_nil]
    omega
  induction members generalizing m fuel with
  | nil =>
    obtain ⟨fuel, rfl⟩ : ∃ n, fuel = n + 1 := ⟨fuel - 1, by omega⟩
    have hle := hlength m
    simp only [List.map_cons, List.map_nil, commaJoin] at hfuel ⊢
    rw [hmember, scanMembers, if_pos rfl, scanText_quote]
    simp only [Option.bind_some]
    rw [skipSpace_cons (by decide)]
    simp only [if_true]
    rw [skipSpace_dumps hT, hread m List.mem_cons_self fuel _ (by omega)
      (delimited_cons (Or.inr (Or.inr rfl)) rest)]
    simp only [Option.bind_some]
    rw [skipSpace_cons (by decide)]
    rfl
  | cons n members ih =>
    obtain ⟨fuel, rfl⟩ : ∃ k, fuel = k + 1 := ⟨fuel - 1, by omega⟩
    have hle := hlength m
    have hjoin : commaJoin ((m :: n :: members).map (memberOf T)) =
        memberOf T m ++ ',' :: commaJoin ((n :: members).map (memberOf T)) := rfl
    rw [hjoin, List.length_append, List.length_cons] at hfuel
    have hnext := ih n (fun u hu => hread u (List.mem_cons_of_mem _ hu)) fuel (by omega)
    have hskip : skipSpace (commaJoin ((n :: members).map (memberOf T)) ++ '}' :: rest) =
        commaJoin ((n :: members).map (memberOf T)) ++ '}' :: rest := by
      have hquote : ∀ more, skipSpace (memberOf T n ++ more) = memberOf T n ++ more := by
        intro more
        rw [hmember]
        exact skipSpace_cons (by decide) _
      cases members with
      | nil => exact hquote _
      | cons u members =>
        have hw : commaJoin ((n :: u :: members).map (memberOf T)) =
            memberOf T n ++ ',' :: commaJoin ((u :: members).map (memberOf T)) := rfl
        rw [hw, List.append_assoc]
        exact hquote _
    rw [hjoin, List.append_assoc, hmember, scanMembers, if_pos rfl, scanText_quote]
    simp only [Option.bind_some]
    rw [skipSpace_cons (by decide)]
    simp only [if_true]
    rw [skipSpace_dumps hT, List.cons_append, hread m List.mem_cons_self fuel _ (by omega)
      (delimited_cons (Or.inl rfl) _)]
    simp only [Option.bind_some]
    rw [skipSpace_cons (by decide)]
    simp only [hskip, hnext]
    rfl

theorem reads_obj (hT : T.Faithful) (members : List (String × Value F))
    (hdistinct : (members.map Prod.fst).Nodup) (hread : ∀ m ∈ members, Reads T m.2) :
    Reads T (.obj members) := by
  intro fuel rest hfuel _
  have hsorted : (Value.obj members).sorted =
      .obj ((sortMembers members).map fun m => (m.1, m.2.sorted)) := by
    rw [Value.sorted, sortedMembers_eq, map_sortMembers (fun m : String × Value F => (m.1, m.2.sorted)) (fun _ => rfl)]
  have hdict : dict ((sortMembers members).map fun m => (m.1, m.2.sorted)) =
      (sortMembers members).map fun m => (m.1, m.2.sorted) := by
    apply dict_eq
    rw [List.map_map]
    exact nodup_sortMembers hdistinct
  have hread' : ∀ m ∈ sortMembers members, Reads T m.2 :=
    fun m hm => hread m (mem_sortMembers.mp hm)
  rw [dumps_obj] at hfuel ⊢
  simp only [List.length_cons, List.length_append, List.length_nil] at hfuel
  obtain ⟨fuel, rfl⟩ : ∃ n, fuel = n + 2 := ⟨fuel - 2, by omega⟩
  rw [hsorted, List.cons_append, List.append_assoc, List.singleton_append, scanValue,
    if_neg (by decide), if_neg (by decide), if_pos rfl]
  generalize sortMembers members = sorted at hread' hdict hfuel
  cases sorted with
  | nil => rfl
  | cons m sorted =>
    have hmembers := scanMembers_members hT m sorted hread' fuel rest (by omega)
    obtain ⟨cs, hstart⟩ : ∃ cs, commaJoin ((m :: sorted).map (memberOf T)) = '"' :: cs := by
      cases sorted with
      | nil => exact ⟨_, rfl⟩
      | cons n sorted => exact ⟨_, rfl⟩
    rw [hstart, List.cons_append] at hmembers ⊢
    rw [skipSpace_cons (by decide), scanObject, if_neg (by decide), hmembers, Option.map_some,
      hdict]

/-- What the writer writes is read back with its members in key order. -/
theorem reads_of_proper (hT : T.Faithful) {v : Value F} (hv : v.Proper) : Reads T v := by
  induction v using Value.induction with
  | scalar v harr hobj => exact reads_scalar hT v harr hobj
  | arr items ih =>
    cases hv with
    | arr _ proper => exact reads_arr hT items fun v hmem => ih v hmem (proper v hmem)
  | obj members ih =>
    cases hv with
    | obj _ distinct proper =>
      exact reads_obj hT members distinct fun m hmem => ih m hmem (proper m hmem)

theorem loads_dumps (hT : T.Faithful) {v : Value F} (hv : v.Proper) :
    loads T (dumps T v) = some v.sorted := by
  have hread := reads_of_proper hT hv (2 * (dumps T v).length) [] (le_refl _)
    fun c hc => by cases hc
  have hskip := skipSpace_dumps hT v []
  rw [List.append_nil] at hread hskip
  rw [loads, hskip, hread]
  rfl

end Reading

section Canonical
variable {F : Type u} (T : FloatText F)

/-- Writing a value in key order gives the same text. -/
theorem dumps_sorted (v : Value F) : dumps T v.sorted = dumps T v := by
  induction v using Value.induction with
  | scalar v harr hobj =>
    cases v with
    | arr items => exact absurd rfl (harr items)
    | obj members => exact absurd rfl (hobj members)
    | null => rfl
    | bool b => rfl
    | int n => rfl
    | float x => rfl
    | str s => rfl
  | arr items ih =>
    rw [Value.sorted, sortedItems_eq, dumps_arr, dumps_arr, List.map_map]
    congr 3
    exact List.map_congr_left fun v hv => ih v hv
  | obj members ih =>
    rw [Value.sorted, sortedMembers_eq, dumps_obj, dumps_obj, sortMembers_sortMembers,
      ← map_sortMembers (fun m : String × Value F => (m.1, m.2.sorted)) (fun _ => rfl),
      List.map_map]
    congr 3
    apply List.map_congr_left
    intro m hm
    have hsame := ih m (mem_sortMembers.mp hm)
    simp only [Function.comp_apply, memberOf, hsame]

/-- Writing what was read from a written text gives that text again. -/
theorem dumps_loads_dumps {T : FloatText F} (hT : T.Faithful) {v w : Value F} (hv : v.Proper)
    (h : loads T (dumps T v) = some w) : dumps T w = dumps T v := by
  rw [loads_dumps hT hv] at h
  rw [← Option.some.inj h, dumps_sorted]

/-- Two values with one text differ at most in the order of their members. -/
theorem sorted_eq_of_dumps_eq {T : FloatText F} (hT : T.Faithful) {v w : Value F}
    (hv : v.Proper) (hw : w.Proper) (h : dumps T v = dumps T w) : v.sorted = w.sorted := by
  have hboth : some v.sorted = some w.sorted := by
    rw [← loads_dumps hT hv, h, loads_dumps hT hw]
  exact Option.some.inj hboth

/-- A member of an object is the one of its key in every object that differs only in order. -/
theorem member_of_sorted_eq {members members' : List (String × Value F)} {key : String}
    {v w : Value F} (h : (Value.obj members).sorted = (Value.obj members').sorted)
    (hv : (key, v) ∈ members) (hw : (key, w) ∈ members')
    (hdistinct : (members'.map Prod.fst).Nodup) : v.sorted = w.sorted := by
  have hsorted (ms : List (String × Value F)) :
      sortedMembers ms = ms.map fun m => (m.1, m.2.sorted) := by
    induction ms with
    | nil => rfl
    | cons m rest ih => rw [sortedMembers, ih, List.map_cons]
  rw [Value.sorted, Value.sorted, Value.obj.injEq, hsorted, hsorted] at h
  have hmem : (key, v.sorted) ∈ sortMembers (members.map fun m => (m.1, m.2.sorted)) :=
    mem_sortMembers.mpr (List.mem_map_of_mem hv)
  rw [h, mem_sortMembers] at hmem
  obtain ⟨⟨key', w'⟩, hw', heq⟩ := List.mem_map.mp hmem
  rw [Prod.mk.injEq] at heq
  obtain ⟨rfl, hsame⟩ := heq
  have hone := List.inj_on_of_nodup_map hdistinct hw' hw rfl
  rw [Prod.mk.injEq] at hone
  rw [← hsame, hone.2]

end Canonical

end JsonText
