import Mathlib.Data.List.Basic

/-!
# Base64

Three bytes are four characters. A text is read strictly: whole groups of four, padding only in
the last of them and nothing after it.
-/

namespace Base64

set_option autoImplicit false

/-- The character of a group of six bits. -/
def digit (n : Nat) : UInt8 :=
  if n < 26 then UInt8.ofNat (65 + n)
  else if n < 52 then UInt8.ofNat (71 + n)
  else if n < 62 then UInt8.ofNat (n - 4)
  else if n = 62 then 43
  else 47

def value (c : UInt8) : Option Nat :=
  if 65 ≤ c.toNat ∧ c.toNat ≤ 90 then some (c.toNat - 65)
  else if 97 ≤ c.toNat ∧ c.toNat ≤ 122 then some (c.toNat - 71)
  else if 48 ≤ c.toNat ∧ c.toNat ≤ 57 then some (c.toNat + 4)
  else if c = 43 then some 62
  else if c = 47 then some 63
  else none

def pad : UInt8 := 61

def encode : List UInt8 → List UInt8
  | [] => []
  | [a] => [digit (a.toNat / 4), digit (a.toNat % 4 * 16), pad, pad]
  | [a, b] =>
    [digit (a.toNat / 4), digit (a.toNat % 4 * 16 + b.toNat / 16), digit (b.toNat % 16 * 4), pad]
  | a :: b :: c :: rest =>
    digit (a.toNat / 4) :: digit (a.toNat % 4 * 16 + b.toNat / 16) ::
      digit (b.toNat % 16 * 4 + c.toNat / 64) :: digit (c.toNat % 64) :: encode rest

/-- The bytes of the six-bit groups of a quadruple, with what is left over dropped. -/
def bytesOf : List Nat → List UInt8
  | [w, x] => [UInt8.ofNat (w * 4 + x / 16)]
  | [w, x, y] => [UInt8.ofNat (w * 4 + x / 16), UInt8.ofNat (x % 16 * 16 + y / 4)]
  | [w, x, y, z] =>
    [UInt8.ofNat (w * 4 + x / 16), UInt8.ofNat (x % 16 * 16 + y / 4), UInt8.ofNat (y % 4 * 64 + z)]
  | _ => []

def decode : List UInt8 → Option (List UInt8)
  | [] => some []
  | a :: b :: c :: d :: rest =>
    match value a, value b, value c, value d with
    | some w, some x, some y, some z => (decode rest).map (bytesOf [w, x, y, z] ++ ·)
    | some w, some x, some y, none =>
      if d = pad ∧ rest = [] then some (bytesOf [w, x, y]) else none
    | some w, some x, none, none =>
      if c = pad ∧ d = pad ∧ rest = [] then some (bytesOf [w, x]) else none
    | _, _, _, _ => none
  | _ => none

/-- The characters are ASCII. -/
theorem digit_lt (n : Nat) : (digit n).toNat < 128 := by
  unfold digit
  split
  · simp only [UInt8.toNat_ofNat']
    omega
  · split
    · simp only [UInt8.toNat_ofNat']
      omega
    · split
      · simp only [UInt8.toNat_ofNat']
        omega
      · split <;> decide

theorem lt_of_mem_encode {bytes : List UInt8} {c : UInt8} (h : c ∈ encode bytes) :
    c.toNat < 128 := by
  have hpad : pad.toNat < 128 := by decide
  induction bytes using encode.induct with
  | case1 => cases h
  | case2 a =>
    simp only [encode, List.mem_cons, List.not_mem_nil, or_false] at h
    rcases h with rfl | rfl | rfl | rfl <;> first | exact digit_lt _ | exact hpad
  | case3 a b =>
    simp only [encode, List.mem_cons, List.not_mem_nil, or_false] at h
    rcases h with rfl | rfl | rfl | rfl <;> first | exact digit_lt _ | exact hpad
  | case4 a b c rest ih =>
    simp only [encode, List.mem_cons] at h
    rcases h with rfl | rfl | rfl | rfl | h
    · exact digit_lt _
    · exact digit_lt _
    · exact digit_lt _
    · exact digit_lt _
    · exact ih h

theorem value_digit : ∀ n < 64, value (digit n) = some n := by decide

@[simp] theorem value_pad : value pad = none := by decide

theorem length_encode (bytes : List UInt8) :
    (encode bytes).length = 4 * ((bytes.length + 2) / 3) := by
  induction bytes using encode.induct with
  | case1 => rfl
  | case2 a => simp [encode]
  | case3 a b => simp [encode]
  | case4 a b c rest ih =>
    simp only [encode, List.length_cons, ih]
    omega

theorem first_byte (a : UInt8) {k : Nat} (hk : k < 16) :
    UInt8.ofNat (a.toNat / 4 * 4 + (a.toNat % 4 * 16 + k) / 16) = a := by
  have heq : a.toNat / 4 * 4 + (a.toNat % 4 * 16 + k) / 16 = a.toNat := by omega
  rw [heq, UInt8.ofNat_toNat]

theorem second_byte (b : UInt8) (n : Nat) {k : Nat} (hk : k < 4) :
    UInt8.ofNat ((n * 16 + b.toNat / 16) % 16 * 16 + (b.toNat % 16 * 4 + k) / 4) = b := by
  have hb := b.toNat_lt
  have heq : (n * 16 + b.toNat / 16) % 16 * 16 + (b.toNat % 16 * 4 + k) / 4 = b.toNat := by omega
  rw [heq, UInt8.ofNat_toNat]

theorem third_byte (c : UInt8) (n : Nat) :
    UInt8.ofNat ((n * 4 + c.toNat / 64) % 4 * 64 + c.toNat % 64) = c := by
  have hc := c.toNat_lt
  have heq : (n * 4 + c.toNat / 64) % 4 * 64 + c.toNat % 64 = c.toNat := by omega
  rw [heq, UInt8.ofNat_toNat]

/-- What was written is read back. -/
theorem decode_encode (bytes : List UInt8) : decode (encode bytes) = some bytes := by
  induction bytes using encode.induct with
  | case1 => rfl
  | case2 a =>
    have ha := a.toNat_lt
    rw [encode, decode, value_digit _ (by omega), value_digit _ (by omega), value_pad]
    simp only [and_self, if_true, bytesOf]
    have hfirst := first_byte a (show 0 < 16 by decide)
    rw [Nat.add_zero] at hfirst
    rw [hfirst]
  | case3 a b =>
    have ha := a.toNat_lt
    have hb := b.toNat_lt
    rw [encode, decode, value_digit _ (by omega), value_digit _ (by omega),
      value_digit _ (by omega), value_pad]
    simp only [and_self, if_true, bytesOf]
    have hsecond := second_byte b (a.toNat % 4) (show 0 < 4 by decide)
    rw [Nat.add_zero] at hsecond
    rw [first_byte a (by omega), hsecond]
  | case4 a b c rest ih =>
    have ha := a.toNat_lt
    have hb := b.toNat_lt
    have hc := c.toNat_lt
    rw [encode, decode, value_digit _ (by omega), value_digit _ (by omega),
      value_digit _ (by omega), value_digit _ (by omega)]
    simp only [ih, bytesOf, Option.map_some, List.cons_append, List.nil_append]
    rw [first_byte a (by omega), second_byte b _ (by omega), third_byte c]

end Base64
