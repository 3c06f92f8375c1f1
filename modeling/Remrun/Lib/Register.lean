import Mathlib.Data.Option.Basic

/-!
# Columns that only move forward

How an optional value may change over the life of a record: it stays once it is recorded, or it
may be replaced but never cleared. Both are preorders, and the updates that keep them are a first
write and the fallback `x.or y`.
-/

namespace Register

set_option autoImplicit false

universe u
variable {α : Type u} {x y z : Option α}

/-- A recorded value stays. -/
def Stays (x y : Option α) : Prop := ∀ a, x = some a → y = some a

/-- A recorded value is never cleared. -/
def Remains (x y : Option α) : Prop := x.isSome = true → y.isSome = true

/-- Once `a`, always `a`. -/
def Absorbs (a : α) (x y : Option α) : Prop := x = some a → y = some a

@[refl, simp] theorem Stays.refl (x : Option α) : Stays x x := fun _ => id

theorem Stays.trans (h : Stays x y) (h' : Stays y z) : Stays x z := fun a ha => h' a (h a ha)

@[refl, simp] theorem Remains.refl (x : Option α) : Remains x x := id

theorem Remains.trans (h : Remains x y) (h' : Remains y z) : Remains x z := h' ∘ h

@[simp] theorem Absorbs.refl (a : α) (x : Option α) : Absorbs a x x := id

theorem Absorbs.trans {a : α} (h : Absorbs a x y) (h' : Absorbs a y z) : Absorbs a x z := h' ∘ h

theorem Stays.of_none (h : x = none) : Stays x y := by
  intro a ha
  rw [h] at ha
  cases ha

@[simp] theorem Stays.or (x y : Option α) : Stays x (x.or y) := by
  rintro a rfl
  rfl

theorem Stays.remains (h : Stays x y) : Remains x y := by
  intro hx
  obtain ⟨a, ha⟩ := Option.isSome_iff_exists.mp hx
  rw [h a ha]
  rfl

@[simp] theorem Remains.some (x : Option α) (a : α) : Remains x (some a) := fun _ => rfl

@[simp] theorem Remains.or (x y : Option α) : Remains x (x.or y) := (Stays.or x y).remains

/-- A conditional write that keeps the value on either branch. -/
theorem Remains.ite {p : Prop} [Decidable p] (h : Remains x y) (h' : Remains x z) :
    Remains x (if p then y else z) := by
  split
  · exact h
  · exact h'

end Register
