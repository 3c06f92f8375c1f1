import Mathlib.Logic.Relation

/-!
# Programs of atomic calls

A program makes calls on a shared state, one after the other, and ends with a value or an
exception. Between its calls other processes may change the state, as far as a rely relation
allows. `Holds` says that every call keeps a guarantee and that the program ends in its
postcondition, whatever the others do in between.
-/

namespace Interleave

open Relation
set_option autoImplicit false

variable {C : Type} {R : C → Type} {ε α β σ : Type}

inductive Prog (C : Type) (R : C → Type) (ε α : Type) where
  | ret (a : α)
  | raise (e : ε)
  | call (c : C) (k : R c → Prog C R ε α)

namespace Prog

def bind : Prog C R ε α → (α → Prog C R ε β) → Prog C R ε β
  | .ret a, f => f a
  | .raise e, _ => .raise e
  | .call c k, f => .call c fun r => (k r).bind f

/-- `try: … finally: …`, with a last part that does not raise. -/
def andFinally : Prog C R ε α → Prog C R ε Unit → Prog C R ε α
  | .ret a, q => q.bind fun _ => .ret a
  | .raise e, q => q.bind fun _ => .raise e
  | .call c k, q => .call c fun r => (k r).andFinally q

end Prog

/-! ## Programs under interference -/

/-- Kept by every step of the others. -/
def Stable (rely : σ → σ → Prop) (P : σ → Prop) : Prop := ∀ s s', rely s s' → P s → P s'

theorem Stable.chain {rely : σ → σ → Prop} {P : σ → Prop} (h : Stable rely P) {s s' : σ}
    (hchain : ReflTransGen rely s s') (hs : P s) : P s' := by
  induction hchain with
  | refl => exact hs
  | tail _ hstep ih => exact h _ _ hstep ih

theorem Stable.and {rely : σ → σ → Prop} {P Q : σ → Prop} (hP : Stable rely P)
    (hQ : Stable rely Q) : Stable rely fun s => P s ∧ Q s :=
  fun s s' hstep h => ⟨hP s s' hstep h.1, hQ s s' hstep h.2⟩

section Holds
variable (rely guar : σ → σ → Prop) (exec : (c : C) → σ → R c → σ → Prop)

/-- The program keeps the guarantee and ends in `post` or `fail`. -/
def Holds (post : α → σ → Prop) (fail : ε → σ → Prop) : Prog C R ε α → σ → Prop
  | .ret a, s => ∀ s', ReflTransGen rely s s' → post a s'
  | .raise e, s => ∀ s', ReflTransGen rely s s' → fail e s'
  | .call c k, s => ∀ s', ReflTransGen rely s s' → ∀ r s'', exec c s' r s'' →
      guar s' s'' ∧ Holds post fail (k r) s''

variable {rely guar exec} {post : α → σ → Prop} {fail : ε → σ → Prop} {s : σ}

/-- Steps of the others do not disturb a program. -/
theorem Holds.stable {prog : Prog C R ε α} {s' : σ} (hstep : rely s s')
    (h : Holds rely guar exec post fail prog s) : Holds rely guar exec post fail prog s' := by
  cases prog with
  | ret a => exact fun t ht => h t (ht.head hstep)
  | raise e => exact fun t ht => h t (ht.head hstep)
  | call c k => exact fun t ht => h t (ht.head hstep)

/-- A step of the program itself. -/
theorem Holds.step {c : C} {k : R c → Prog C R ε α} {r : R c} {s' : σ}
    (h : Holds rely guar exec post fail (.call c k) s) (hexec : exec c s r s') :
    guar s s' ∧ Holds rely guar exec post fail (k r) s' :=
  h s .refl r s' hexec

theorem Holds.ret {a : α} (hpost : Stable rely (post a)) (h : post a s) :
    Holds rely guar exec post fail (.ret a) s :=
  fun _ hchain => hpost.chain hchain h

theorem Holds.raise {e : ε} (hfail : Stable rely (fail e)) (h : fail e s) :
    Holds rely guar exec post fail (.raise e) s :=
  fun _ hchain => hfail.chain hchain h

/-- A call from a stable precondition. -/
theorem Holds.call {P : σ → Prop} {c : C} {k : R c → Prog C R ε α} (hstable : Stable rely P)
    (h : P s) (hstep : ∀ s' r s'', P s' → exec c s' r s'' →
      guar s' s'' ∧ Holds rely guar exec post fail (k r) s'') :
    Holds rely guar exec post fail (.call c k) s :=
  fun s' hchain r s'' hexec => hstep s' r s'' (hstable.chain hchain h) hexec

theorem Holds.imp {post' : α → σ → Prop} {fail' : ε → σ → Prop} {prog : Prog C R ε α}
    (h : Holds rely guar exec post fail prog s) (hpost : ∀ a s, post a s → post' a s)
    (hfail : ∀ e s, fail e s → fail' e s) : Holds rely guar exec post' fail' prog s := by
  induction prog generalizing s with
  | ret a => exact fun s' hchain => hpost a s' (h s' hchain)
  | raise e => exact fun s' hchain => hfail e s' (h s' hchain)
  | call c k ih => exact fun s' hchain r s'' hexec =>
      ⟨(h s' hchain r s'' hexec).1, ih r (h s' hchain r s'' hexec).2⟩

theorem Holds.bind {mid : β → σ → Prop} {prog : Prog C R ε β} {f : β → Prog C R ε α}
    (h : Holds rely guar exec mid fail prog s)
    (hnext : ∀ b s', mid b s' → Holds rely guar exec post fail (f b) s') :
    Holds rely guar exec post fail (prog.bind f) s := by
  induction prog generalizing s with
  | ret b => exact hnext b s (h s .refl)
  | raise e => exact h
  | call c k ih => exact fun s' hchain r s'' hexec =>
      ⟨(h s' hchain r s'' hexec).1, ih r (h s' hchain r s'' hexec).2⟩

/-- The last part runs after a value and after an exception. -/
theorem Holds.andFinally {mid : α → σ → Prop} {broken : ε → σ → Prop} {prog : Prog C R ε α}
    {last : Prog C R ε Unit} (h : Holds rely guar exec mid broken prog s)
    (hret : ∀ a s', mid a s' → Holds rely guar exec post fail (last.bind fun _ => .ret a) s')
    (hraise : ∀ e s', broken e s' → Holds rely guar exec post fail (last.bind fun _ => .raise e) s') :
    Holds rely guar exec post fail (prog.andFinally last) s := by
  induction prog generalizing s with
  | ret a => exact hret a s (h s .refl)
  | raise e => exact hraise e s (h s .refl)
  | call c k ih => exact fun s' hchain r s'' hexec =>
      ⟨(h s' hchain r s'' hexec).1, ih r (h s' hchain r s'' hexec).2⟩

end Holds

end Interleave
