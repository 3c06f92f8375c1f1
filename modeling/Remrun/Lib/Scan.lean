import Mathlib.Data.List.Induction

/-!
# Scans

A scan goes over a list, keeps an account of what it has passed and may stop at an item. When its
account is a function of the items passed, the scan gets through exactly when every item fits what
came before it, and where it stops everything before fitted.
-/

namespace Scan

set_option autoImplicit false

universe u v w

variable {ε : Type u} {α : Type v} {β : Type w}

/-- Every item fits what came before it. -/
def Each (Fit : List β → β → Prop) (items : List β) : Prop :=
  ∀ before item after, items = before ++ item :: after → Fit before item

section Items
variable {Fit : List β → β → Prop} {items : List β} {item : β}

theorem each_nil : Each Fit [] := by
  intro before item after h
  exact absurd h.symm (List.append_ne_nil_of_right_ne_nil _ (List.cons_ne_nil _ _))

theorem Each.left {after : List β} (h : Each Fit (items ++ after)) : Each Fit items := by
  intro before item rest heq
  apply h before item (rest ++ after)
  rw [heq, List.append_assoc, List.cons_append]

theorem each_concat : Each Fit (items ++ [item]) ↔ Each Fit items ∧ Fit items item := by
  constructor
  · intro h
    exact ⟨h.left, h items item [] rfl⟩
  · rintro ⟨hitems, hitem⟩ before x after heq
    rcases List.eq_nil_or_concat after with rfl | ⟨after, last, rfl⟩
    · obtain ⟨rfl, hlast⟩ := List.append_inj' heq rfl
      obtain rfl := List.singleton_inj.mp hlast
      exact hitem
    · rw [List.concat_eq_append, ← List.cons_append, ← List.append_assoc] at heq
      obtain ⟨rfl, -⟩ := List.append_inj' heq rfl
      exact hitems before x after rfl

theorem Each.mono {Fit' : List β → β → Prop} (h : Each Fit items)
    (himp : ∀ before, Each Fit before → ∀ item, Fit before item → Fit' before item) :
    Each Fit' items := by
  intro before item after heq
  subst heq
  exact himp before h.left item (h before item after rfl)

end Items

section Folds
variable {f : α → β → Except ε α} {view : List β → α} {Fit : List β → β → Prop}
  {items : List β} {acc : α} {e : ε}

/-- From the account of what it has passed, the scan passes an item exactly when that fits. -/
def Follows (f : α → β → Except ε α) (view : List β → α) (Fit : List β → β → Prop) : Prop :=
  ∀ before, Each Fit before → ∀ item acc,
    f (view before) item = .ok acc ↔ Fit before item ∧ acc = view (before ++ [item])

theorem Follows.ok_iff (h : Follows f view Fit) :
    items.foldlM f (view []) = .ok acc ↔ Each Fit items ∧ acc = view items := by
  induction items using List.reverseRecOn generalizing acc with
  | nil =>
    rw [List.foldlM_nil]
    constructor
    · intro heq
      exact ⟨each_nil, (Except.ok.inj heq).symm⟩
    · rintro ⟨-, rfl⟩
      rfl
  | append_singleton items item ih =>
    rw [List.foldlM_append, each_concat]
    cases hfold : items.foldlM f (view []) with
    | error e =>
      constructor
      · intro heq
        exact absurd heq nofun
      · rintro ⟨⟨hitems, -⟩, -⟩
        rw [ih.mpr ⟨hitems, rfl⟩] at hfold
        exact absurd hfold nofun
    | ok passed =>
      obtain ⟨hitems, rfl⟩ := ih.mp hfold
      change List.foldlM f (view items) [item] = .ok acc ↔ _
      have hone : List.foldlM f (view items) [item] = f (view items) item := by
        rw [List.foldlM_cons]
        exact bind_pure _
      rw [hone, h items hitems]
      exact ⟨fun hor => ⟨⟨hitems, hor.1⟩, hor.2⟩, fun hand => ⟨hand.1.2, hand.2⟩⟩

theorem Follows.error_iff (h : Follows f view Fit) :
    items.foldlM f (view []) = .error e ↔ ∃ before item after,
      items = before ++ item :: after ∧ Each Fit before ∧ f (view before) item = .error e := by
  constructor
  · intro herror
    induction items using List.reverseRecOn generalizing e with
    | nil => exact absurd herror nofun
    | append_singleton items item ih =>
      rw [List.foldlM_append] at herror
      cases hfold : items.foldlM f (view []) with
      | error e' =>
        rw [hfold] at herror
        obtain ⟨before, x, after, rfl, hbefore, hx⟩ := ih hfold
        refine ⟨before, x, after ++ [item], by simp, hbefore, ?_⟩
        rw [hx]
        exact congrArg _ (Except.error.inj herror)
      | ok passed =>
        obtain ⟨hitems, rfl⟩ := h.ok_iff.mp hfold
        rw [hfold] at herror
        refine ⟨items, item, [], rfl, hitems, ?_⟩
        change List.foldlM f (view items) [item] = .error e at herror
        rw [List.foldlM_cons] at herror
        exact (bind_pure (f (view items) item)).symm.trans herror
  · rintro ⟨before, item, after, rfl, hbefore, hitem⟩
    rw [List.foldlM_append, h.ok_iff.mpr ⟨hbefore, rfl⟩]
    change List.foldlM f (view before) (item :: after) = _
    rw [List.foldlM_cons, hitem]
    rfl

end Folds

end Scan
