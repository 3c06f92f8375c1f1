import Mathlib.Data.List.Basic
import Mathlib.Tactic

/-!
# UTF-8 with replacement

A text is read byte by byte. A byte that cannot go on what has begun gives one replacement
character for all of it and is read again as a first byte, so a text can be cut before any ASCII
byte and its parts read on their own.
-/

namespace Utf8

set_option autoImplicit false

/-- A character that has begun: how many bytes it is owed, its code so far and the range of the
next byte. -/
structure Pending where
  owed : Nat
  code : Nat
  low : Nat
  high : Nat
  tail : 0x80 ≤ low

def replacement : Char := '\uFFFD'

def first (b : Nat) : List Char × Option Pending :=
  if b < 0x80 then ([Char.ofNat b], none)
  else if 0xC2 ≤ b ∧ b ≤ 0xDF then ([], some ⟨1, b - 0xC0, 0x80, 0xBF, le_rfl⟩)
  else if b = 0xE0 then ([], some ⟨2, 0, 0xA0, 0xBF, by decide⟩)
  else if b = 0xED then ([], some ⟨2, 0xD, 0x80, 0x9F, le_rfl⟩)
  else if 0xE1 ≤ b ∧ b ≤ 0xEF then ([], some ⟨2, b - 0xE0, 0x80, 0xBF, le_rfl⟩)
  else if b = 0xF0 then ([], some ⟨3, 0, 0x90, 0xBF, by decide⟩)
  else if b = 0xF4 then ([], some ⟨3, 4, 0x80, 0x8F, le_rfl⟩)
  else if 0xF1 ≤ b ∧ b ≤ 0xF3 then ([], some ⟨3, b - 0xF0, 0x80, 0xBF, le_rfl⟩)
  else ([replacement], none)

def step : Option Pending → Nat → List Char × Option Pending
  | none, b => first b
  | some p, b =>
    if p.low ≤ b ∧ b ≤ p.high then
      let code := p.code * 64 + (b - 0x80)
      if p.owed ≤ 1 then ([Char.ofNat code], none)
      else ([], some ⟨p.owed - 1, code, 0x80, 0xBF, le_rfl⟩)
    else (replacement :: (first b).1, (first b).2)

/-- A character cut short by the end of the text. -/
def flush : Option Pending → List Char
  | none => []
  | some _ => [replacement]

def decodeFrom : Option Pending → List UInt8 → List Char
  | p, [] => flush p
  | p, b :: bytes => (step p b.toNat).1 ++ decodeFrom (step p b.toNat).2 bytes

/-- `data.decode("utf-8", "replace")`. -/
def decodeReplace (data : List UInt8) : List Char := decodeFrom none data

/-- The bytes of an ASCII text. -/
def ascii (text : List Char) : List UInt8 := text.map fun c => UInt8.ofNat c.toNat

theorem first_ascii {b : Nat} (h : b < 0x80) : first b = ([Char.ofNat b], none) := if_pos h

theorem step_ascii (p : Option Pending) {b : Nat} (h : b < 0x80) :
    step p b = (flush p ++ [Char.ofNat b], none) := by
  cases p with
  | none => exact first_ascii h
  | some p =>
    have hrange : ¬ (p.low ≤ b ∧ b ≤ p.high) := fun hin =>
      absurd (Nat.lt_of_lt_of_le h (p.tail.trans hin.1)) (Nat.lt_irrefl b)
    rw [step, if_neg hrange, first_ascii h]
    rfl

/-- Before an ASCII byte the text can be cut. -/
theorem decodeFrom_append_ascii (p : Option Pending) (data : List UInt8) {b : UInt8}
    {rest : List UInt8} (h : b.toNat < 0x80) :
    decodeFrom p (data ++ b :: rest) = decodeFrom p data ++ decodeReplace (b :: rest) := by
  induction data generalizing p with
  | nil =>
    rw [List.nil_append, decodeReplace, decodeFrom, decodeFrom, decodeFrom, step_ascii p h,
      step_ascii none h]
    exact List.append_assoc (flush p) [Char.ofNat b.toNat] (decodeFrom none rest)
  | cons a data ih => rw [List.cons_append, decodeFrom, decodeFrom, ih, List.append_assoc]

theorem ofNat_toNat {c : Char} (h : c.toNat < 0x80) : (UInt8.ofNat c.toNat).toNat = c.toNat := by
  rw [UInt8.toNat_ofNat']
  omega

theorem decodeReplace_ascii {text : List Char} (h : ∀ c ∈ text, c.toNat < 0x80) :
    decodeReplace (ascii text) = text := by
  induction text with
  | nil => rfl
  | cons c text ih =>
    obtain ⟨hc, htext⟩ := List.forall_mem_cons.mp h
    have hbyte : (UInt8.ofNat c.toNat).toNat = c.toNat := ofNat_toNat hc
    have hrest : decodeFrom none (ascii text) = text := ih htext
    rw [ascii, List.map_cons, decodeReplace, decodeFrom, hbyte, step_ascii none hc]
    simp only [flush, List.nil_append, Char.ofNat_toNat, List.singleton_append]
    rw [show List.map _ text = ascii text from rfl, hrest]

/-- An ASCII text at the end is read as it is, whatever comes before it. -/
theorem decodeReplace_append_ascii (data : List UInt8) {text : List Char}
    (h : ∀ c ∈ text, c.toNat < 0x80) :
    decodeReplace (data ++ ascii text) = decodeReplace data ++ text := by
  rcases text with _ | ⟨c, text⟩
  · rw [show ascii [] = [] from rfl, List.append_nil, List.append_nil]
  · have hbyte : (UInt8.ofNat c.toNat).toNat < 0x80 := by
      rw [ofNat_toNat (h c List.mem_cons_self)]
      exact h c List.mem_cons_self
    have hwhole := decodeReplace_ascii h
    rw [ascii, List.map_cons] at hwhole ⊢
    rw [decodeReplace, decodeFrom_append_ascii none data hbyte, hwhole]
    rfl

end Utf8
