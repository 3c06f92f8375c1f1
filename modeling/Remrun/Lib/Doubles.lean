import Mathlib.Data.Rat.Floor
import Mathlib.Tactic

/-!
# Numbers of a double's range

Finite values are exact: of a double only the range is kept, so a conversion says when it leaves
the range and arithmetic between finite values is that of the rationals.
-/

namespace Doubles

set_option autoImplicit false

/-- From here on a number is rounded to infinity. -/
def overflow : ℚ := 2 ^ 1024 - 2 ^ 970

def InRange (q : ℚ) : Prop := -overflow < q ∧ q < overflow

instance (q : ℚ) : Decidable (InRange q) := instDecidableAnd

inductive Double where
  | finite (value : ℚ) (range : InRange value)
  | infinity
  | minusInfinity
  | nan
deriving DecidableEq

theorem overflow_pos : 0 < overflow := by
  decide +kernel

theorem inRange_of_nonneg {q : ℚ} (h : 0 ≤ q) : InRange q ↔ q < overflow :=
  ⟨And.right, fun hq => ⟨(neg_lt_zero.mpr overflow_pos).trans_le h, hq⟩⟩

/-- The double nearest to a number, apart from rounding. -/
def ofRat (q : ℚ) : Double :=
  if h : InRange q then .finite q h else if 0 < q then .infinity else .minusInfinity

/-- `float(n)`, which has no value for a whole number beyond the range. -/
def ofInt (n : ℤ) : Option {q : ℚ // InRange q} :=
  if h : InRange n then some ⟨n, h⟩ else none

theorem ofInt_eq_none {n : ℤ} : ofInt n = none ↔ ¬ InRange n := by
  rw [ofInt]
  split <;> simp [*]

/-- `int(x)` of a finite value. -/
def truncate (q : ℚ) : ℤ := if 0 ≤ q then ⌊q⌋ else ⌈q⌉

end Doubles
