import Remrun.Lib.Utf8

/-!
# Slices of encoded texts

Code points are encoded, cut at any byte and decoded with what is incomplete left out. A slice from
the start gives a prefix of the text and a slice up to the end a suffix, in whole code points, and
neither is longer in bytes than its slice.
-/

namespace Utf8

set_option autoImplicit false

/-- A code point that is not a surrogate. -/
def Scalar (c : Nat) : Prop := c < 0xD800 ∨ 0xE000 ≤ c ∧ c < 0x110000

instance (c : Nat) : Decidable (Scalar c) := instDecidableOr

def encodeChar (c : Nat) : List Nat :=
  if c < 0x80 then [c]
  else if c < 0x800 then [0xC0 + c / 64, 0x80 + c % 64]
  else if c < 0x10000 then [0xE0 + c / 4096, 0x80 + c / 64 % 64, 0x80 + c % 64]
  else [0xF0 + c / 262144, 0x80 + c / 4096 % 64, 0x80 + c / 64 % 64, 0x80 + c % 64]

def encode (text : List Nat) : List Nat := text.flatMap encodeChar

/-- What a surrogate is replaced by, a question mark. -/
def repaired (c : Nat) : Nat := if Scalar c then c else 0x3F

def repair (text : List Nat) : List Nat := text.map repaired

/-- `text.encode("utf-8", "replace")`. -/
def encodeReplace (text : List Nat) : List Nat := encode (repair text)

def firstIgnore (b : Nat) : List Nat × Option Pending :=
  if b < 0x80 then ([b], none) else ([], (first b).2)

theorem low_le : 0x80 ≤ 0x80 := le_rfl

def stepIgnore : Option Pending → Nat → List Nat × Option Pending
  | none, b => firstIgnore b
  | some p, b =>
    if p.low ≤ b ∧ b ≤ p.high then
      let code := p.code * 64 + (b - 0x80)
      if p.owed ≤ 1 then ([code], none)
      else ([], some ⟨p.owed - 1, code, 0x80, 0xBF, low_le⟩)
    else firstIgnore b

def decodeIgnoreFrom : Option Pending → List Nat → List Nat
  | _, [] => []
  | p, b :: bytes => (stepIgnore p b).1 ++ decodeIgnoreFrom (stepIgnore p b).2 bytes

/-- `data.decode("utf-8", "ignore")`. -/
def decodeIgnore (data : List Nat) : List Nat := decodeIgnoreFrom none data

/-! ## One code point -/

/-- The bytes that are still owed, after which `c` comes out. -/
inductive Completes (c : Nat) : Option Pending → List Nat → Prop where
  | last {p : Option Pending} {b : Nat} (step : stepIgnore p b = ([c], none)) : Completes c p [b]
  | more {p : Option Pending} {q : Pending} {b : Nat} {bytes : List Nat}
      (step : stepIgnore p b = ([], some q)) (rest : Completes c (some q) bytes) :
      Completes c p (b :: bytes)

theorem Completes.decode {c : Nat} {p : Option Pending} {bytes : List Nat}
    (h : Completes c p bytes) (rest : List Nat) :
    decodeIgnoreFrom p (bytes ++ rest) = c :: decodeIgnoreFrom none rest := by
  induction h with
  | last step =>
    rw [List.singleton_append, decodeIgnoreFrom, step]
    rfl
  | more step _ ih =>
    rw [List.cons_append, decodeIgnoreFrom, step]
    exact ih

/-- Before its last byte nothing comes out. -/
theorem Completes.decode_take {c : Nat} {p : Option Pending} {bytes : List Nat}
    (h : Completes c p bytes) {n : Nat} (hn : n < bytes.length) :
    decodeIgnoreFrom p (bytes.take n) = [] := by
  induction h generalizing n with
  | last step =>
    obtain rfl : n = 0 := Nat.lt_one_iff.mp hn
    rfl
  | more step _ ih =>
    cases n with
    | zero => rfl
    | succ n =>
      rw [List.take_succ_cons, decodeIgnoreFrom, step]
      exact ih (Nat.lt_of_succ_lt_succ hn)

theorem stepIgnore_last {code low high b : Nat} {tail : 0x80 ≤ low} (h : low ≤ b ∧ b ≤ high) :
    stepIgnore (some ⟨1, code, low, high, tail⟩) b = ([code * 64 + (b - 0x80)], none) := by
  simp only [stepIgnore, if_pos h, le_refl, if_true]

theorem stepIgnore_more {owed code low high b : Nat} {tail : 0x80 ≤ low} (h : low ≤ b ∧ b ≤ high) :
    stepIgnore (some ⟨owed + 2, code, low, high, tail⟩) b =
      ([], some ⟨owed + 1, code * 64 + (b - 0x80), 0x80, 0xBF, le_rfl⟩) := by
  have howed : ¬ owed + 2 ≤ 1 := by omega
  simp only [stepIgnore, if_pos h, if_neg howed]
  rfl

/-- The first byte of three admits the second one. -/
theorem first_three {c : Nat} (hlow : 0x800 ≤ c) (hhigh : c < 0x10000) (hscalar : Scalar c) :
    ∃ low high tail, (first (0xE0 + c / 4096)).2 = some ⟨2, c / 4096, low, high, tail⟩ ∧
      low ≤ 0x80 + c / 64 % 64 ∧ 0x80 + c / 64 % 64 ≤ high := by
  rw [Scalar] at hscalar
  by_cases hzero : c / 4096 = 0
  · refine ⟨0xA0, 0xBF, by decide, ?_, by omega, by omega⟩
    rw [hzero]
    rfl
  · by_cases hlast : c / 4096 = 0xD
    · refine ⟨0x80, 0x9F, le_rfl, ?_, by omega, by omega⟩
      rw [hlast]
      rfl
    · refine ⟨0x80, 0xBF, le_rfl, ?_, by omega, by omega⟩
      rw [first, if_neg (by omega), if_neg (by omega), if_neg (by omega), if_neg (by omega),
        if_pos (by omega)]
      simp

/-- The first byte of four admits the second one. -/
theorem first_four {c : Nat} (hlow : 0x10000 ≤ c) (hhigh : c < 0x110000) :
    ∃ low high tail, (first (0xF0 + c / 262144)).2 = some ⟨3, c / 262144, low, high, tail⟩ ∧
      low ≤ 0x80 + c / 4096 % 64 ∧ 0x80 + c / 4096 % 64 ≤ high := by
  by_cases hzero : c / 262144 = 0
  · refine ⟨0x90, 0xBF, by decide, ?_, by omega, by omega⟩
    rw [hzero]
    rfl
  · by_cases hlast : c / 262144 = 4
    · refine ⟨0x80, 0x8F, le_rfl, ?_, by omega, by omega⟩
      rw [hlast]
      rfl
    · refine ⟨0x80, 0xBF, le_rfl, ?_, by omega, by omega⟩
      rw [first, if_neg (by omega), if_neg (by omega), if_neg (by omega), if_neg (by omega),
        if_neg (by omega), if_neg (by omega), if_neg (by omega), if_pos (by omega)]
      simp

theorem firstIgnore_lead {b : Nat} {p : Pending} (hb : 0x80 ≤ b) (h : (first b).2 = some p) :
    firstIgnore b = ([], some p) := by
  rw [firstIgnore, if_neg (Nat.not_lt.mpr hb), h]

theorem completes_encodeChar {c : Nat} (h : Scalar c) : Completes c none (encodeChar c) := by
  rw [encodeChar]
  by_cases hone : c < 0x80
  · rw [if_pos hone]
    exact .last (if_pos hone)
  rw [if_neg hone]
  by_cases htwo : c < 0x800
  · rw [if_pos htwo]
    have hfirst : (first (0xC0 + c / 64)).2 = some ⟨1, c / 64, 0x80, 0xBF, le_rfl⟩ := by
      rw [first, if_neg (by omega), if_pos (by omega)]
      simp
    refine .more (firstIgnore_lead (by omega) hfirst) (.last ?_)
    rw [stepIgnore_last (by omega)]
    have hcode : c / 64 * 64 + (0x80 + c % 64 - 0x80) = c := by omega
    rw [hcode]
  rw [if_neg htwo]
  by_cases hthree : c < 0x10000
  · rw [if_pos hthree]
    obtain ⟨low, high, tail, hfirst, hrange⟩ := first_three (Nat.not_lt.mp htwo) hthree h
    refine .more (firstIgnore_lead (by omega) hfirst) (.more (stepIgnore_more hrange) (.last ?_))
    rw [stepIgnore_last (by omega)]
    have hcode : (c / 4096 * 64 + (0x80 + c / 64 % 64 - 0x80)) * 64 +
        (0x80 + c % 64 - 0x80) = c := by omega
    rw [hcode]
  · rw [if_neg hthree]
    have hhigh : c < 0x110000 := by
      rw [Scalar] at h
      omega
    obtain ⟨low, high, tail, hfirst, hrange⟩ := first_four (Nat.not_lt.mp hthree) hhigh
    refine .more (firstIgnore_lead (by omega) hfirst) (.more (stepIgnore_more hrange)
      (.more (stepIgnore_more (by omega)) (.last ?_)))
    rw [stepIgnore_last (by omega)]
    have hcode : ((c / 262144 * 64 + (0x80 + c / 4096 % 64 - 0x80)) * 64 +
        (0x80 + c / 64 % 64 - 0x80)) * 64 + (0x80 + c % 64 - 0x80) = c := by omega
    rw [hcode]

/-- The bytes after the first one. -/
theorem tail_encodeChar (c : Nat) : ∀ b ∈ (encodeChar c).tail, 0x80 ≤ b ∧ b ≤ 0xBF := by
  intro b hb
  rw [encodeChar] at hb
  split at hb
  · exact absurd hb List.not_mem_nil
  · split at hb
    · simp only [List.tail_cons, List.mem_singleton] at hb
      omega
    · split at hb
      all_goals
        simp only [List.tail_cons, List.mem_cons, List.not_mem_nil, or_false] at hb
        omega

theorem length_encodeChar_pos (c : Nat) : 0 < (encodeChar c).length := by
  rw [encodeChar]
  split
  · exact Nat.one_pos
  · split
    · exact Nat.two_pos
    · split <;> simp

/-- Bytes that go on what has not begun are left out. -/
theorem decodeIgnore_tail {bytes : List Nat} (h : ∀ b ∈ bytes, 0x80 ≤ b ∧ b ≤ 0xBF)
    (rest : List Nat) : decodeIgnore (bytes ++ rest) = decodeIgnore rest := by
  induction bytes with
  | nil => rfl
  | cons b bytes ih =>
    obtain ⟨hb, hbytes⟩ := List.forall_mem_cons.mp h
    have hfirst : (first b).2 = none := by
      rw [first, if_neg (by omega), if_neg (by omega), if_neg (by omega), if_neg (by omega),
        if_neg (by omega), if_neg (by omega), if_neg (by omega), if_neg (by omega)]
    rw [List.cons_append, decodeIgnore, decodeIgnoreFrom, stepIgnore, firstIgnore,
      if_neg (by omega), hfirst]
    exact ih hbytes

/-! ## Texts -/

theorem encode_cons (c : Nat) (text : List Nat) :
    encode (c :: text) = encodeChar c ++ encode text :=
  List.flatMap_cons

variable {text : List Nat}

theorem decodeIgnore_encode (h : ∀ c ∈ text, Scalar c) : decodeIgnore (encode text) = text := by
  induction text with
  | nil => rfl
  | cons c text ih =>
    obtain ⟨hc, htext⟩ := List.forall_mem_cons.mp h
    rw [encode_cons, decodeIgnore, (completes_encodeChar hc).decode]
    exact congrArg _ (ih htext)

/-- A slice from the start gives the code points that are whole in it. -/
theorem decodeIgnore_take (h : ∀ c ∈ text, Scalar c) (n : Nat) : ∃ k,
    decodeIgnore ((encode text).take n) = text.take k ∧ (encode (text.take k)).length ≤ n := by
  induction text generalizing n with
  | nil => exact ⟨0, by simp [encode, decodeIgnore, decodeIgnoreFrom], by simp [encode]⟩
  | cons c text ih =>
    obtain ⟨hc, htext⟩ := List.forall_mem_cons.mp h
    rw [encode_cons]
    by_cases hn : (encodeChar c).length ≤ n
    · obtain ⟨k, hk, hlength⟩ := ih htext (n - (encodeChar c).length)
      refine ⟨k + 1, ?_, ?_⟩
      · rw [List.take_append, List.take_of_length_le hn, decodeIgnore,
          (completes_encodeChar hc).decode, List.take_succ_cons]
        exact congrArg _ hk
      · rw [List.take_succ_cons, encode_cons, List.length_append]
        omega
    · refine ⟨0, ?_, Nat.zero_le n⟩
      rw [List.take_append_of_le_length (Nat.le_of_not_le hn)]
      exact (completes_encodeChar hc).decode_take (Nat.lt_of_not_le hn)

/-- A slice up to the end gives the code points that are whole in it. -/
theorem decodeIgnore_drop (h : ∀ c ∈ text, Scalar c) (n : Nat) : ∃ k,
    decodeIgnore ((encode text).drop n) = text.drop k ∧
      (encode (text.drop k)).length ≤ (encode text).length - n := by
  induction text generalizing n with
  | nil => exact ⟨0, by simp [encode, decodeIgnore, decodeIgnoreFrom], by simp [encode]⟩
  | cons c text ih =>
    obtain ⟨hc, htext⟩ := List.forall_mem_cons.mp h
    rcases Nat.eq_zero_or_pos n with rfl | hpos
    · exact ⟨0, decodeIgnore_encode h, le_rfl⟩
    rw [encode_cons, List.length_append]
    by_cases hn : (encodeChar c).length ≤ n
    · obtain ⟨k, hk, hlength⟩ := ih htext (n - (encodeChar c).length)
      refine ⟨k + 1, ?_, ?_⟩
      · rw [List.drop_append, List.drop_of_length_le hn, List.nil_append, List.drop_succ_cons, hk]
      · rw [List.drop_succ_cons]
        omega
    · refine ⟨1, ?_, ?_⟩
      · have htail : ∀ b ∈ (encodeChar c).drop n, 0x80 ≤ b ∧ b ≤ 0xBF := by
          intro b hb
          obtain ⟨m, rfl⟩ := Nat.exists_eq_succ_of_ne_zero hpos.ne'
          rw [Nat.succ_eq_add_one, ← List.drop_tail] at hb
          exact tail_encodeChar c b (List.mem_of_mem_drop hb)
        rw [List.drop_append_of_le_length (Nat.le_of_not_le hn), decodeIgnore_tail htail,
          decodeIgnore_encode htext]
        rfl
      · simp only [List.drop_succ_cons, List.drop_zero]
        omega

theorem encode_ascii (h : ∀ c ∈ text, c < 0x80) : encode text = text := by
  induction text with
  | nil => rfl
  | cons c text ih =>
    obtain ⟨hc, htext⟩ := List.forall_mem_cons.mp h
    rw [encode_cons, encodeChar, if_pos hc, ih htext]
    rfl

theorem scalar_of_ascii {c : Nat} (h : c < 0x80) : Scalar c := Or.inl (h.trans (by decide))

theorem decodeIgnore_ascii (h : ∀ c ∈ text, c < 0x80) : decodeIgnore text = text := by
  have hdecode := decodeIgnore_encode fun c hc => scalar_of_ascii (h c hc)
  rwa [encode_ascii h] at hdecode

theorem scalar_repaired (c : Nat) : Scalar (repaired c) := by
  rw [repaired]
  split
  · assumption
  · exact Or.inl (by decide)

theorem repair_eq (h : ∀ c ∈ text, Scalar c) : repair text = text := by
  have hsame : ∀ c ∈ text, repaired c = id c := fun c hc => if_pos (h c hc)
  rw [repair, List.map_congr_left hsame, List.map_id]

theorem scalar_repair : ∀ c ∈ repair text, Scalar c := by
  intro c hc
  obtain ⟨c', -, rfl⟩ := List.mem_map.mp hc
  exact scalar_repaired c'

theorem encode_append (text rest : List Nat) : encode (text ++ rest) = encode text ++ encode rest :=
  List.flatMap_append

end Utf8
