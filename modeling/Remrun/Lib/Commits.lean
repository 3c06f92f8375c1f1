import Mathlib.Data.List.Basic
import Mathlib.Tactic

/-!
# Programs that commit step by step

A program reads a durable state and commits new ones, each with a label; it may raise. If the
process dies, the last committed state is what the next one finds. A rule of the logic says what
holds of every commit, at the end, and where the program raises.
-/

namespace Commits

set_option autoImplicit false

universe u v w

structure Trace (σ : Type u) (ℓ : Type v) (ε α : Type w) where
  commits : List (ℓ × σ)
  result : Except ε α

/-- The durable state after the commits. -/
def finalState {σ : Type u} {ℓ : Type v} (commits : List (ℓ × σ)) (s : σ) : σ :=
  (commits.getLast?.map Prod.snd).getD s

def Program (σ : Type u) (ℓ : Type v) (ε α : Type w) := σ → Trace σ ℓ ε α

namespace Program

variable {σ : Type u} {ℓ : Type v} {ε α β : Type w}

def bind (p : Program σ ℓ ε α) (f : α → Program σ ℓ ε β) : Program σ ℓ ε β := fun s =>
  match (p s).result with
  | .error e => ⟨(p s).commits, .error e⟩
  | .ok a =>
    ⟨(p s).commits ++ (f a (finalState (p s).commits s)).commits,
      (f a (finalState (p s).commits s)).result⟩

instance : Monad (Program σ ℓ ε) where
  pure a := fun _ => ⟨[], .ok a⟩
  bind := bind

/-- Reads the state, or raises. -/
def read (f : σ → Except ε α) : Program σ ℓ ε α := fun s => ⟨[], f s⟩

/-- One commit; a body that raises is rolled back. -/
def commit (f : σ → Except ε (α × ℓ × σ)) : Program σ ℓ ε α := fun s =>
  match f s with
  | .ok (a, label, s') => ⟨[(label, s')], .ok a⟩
  | .error e => ⟨[], .error e⟩

/-- The durable state if the process dies after `n` commits. -/
def cut (p : Program σ ℓ ε α) (n : Nat) (s : σ) : σ := finalState ((p s).commits.take n) s

/-- The commit after which the process dies. -/
def lastLabel (p : Program σ ℓ ε α) (n : Nat) (s : σ) : Option ℓ :=
  ((p s).commits.take n).getLast?.map Prod.fst

end Program

section Rules
variable {σ : Type u} {ℓ : Type v} {ε α β : Type w} {J : ℓ → σ → Prop} {E P : σ → Prop}
  {Q : α → σ → Prop} {R : β → σ → Prop}

/-- From `P`, every commit meets `J`, the end `Q`, and `E` holds where the program raises. -/
def Holds (J : ℓ → σ → Prop) (E P : σ → Prop) (p : Program σ ℓ ε α) (Q : α → σ → Prop) : Prop :=
  ∀ s, P s → (∀ c ∈ (p s).commits, J c.1 c.2) ∧
    (∀ a, (p s).result = .ok a → Q a (finalState (p s).commits s)) ∧
    ∀ e, (p s).result = .error e → E (finalState (p s).commits s)

@[simp] theorem finalState_nil (s : σ) : finalState ([] : List (ℓ × σ)) s = s := rfl

theorem finalState_append (cs ds : List (ℓ × σ)) (s : σ) :
    finalState (cs ++ ds) s = finalState ds (finalState cs s) := by
  unfold finalState
  rw [List.getLast?_append]
  cases ds.getLast? with
  | none => rfl
  | some c => rfl

theorem holds_pure {a : α} : Holds J E (Q a) (pure a : Program σ ℓ ε α) Q := by
  intro s hs
  refine ⟨fun _ hc => absurd hc List.not_mem_nil, fun b hb => ?_, fun e he => ?_⟩
  · cases hb
    exact hs
  · cases he

theorem Holds.bind {p : Program σ ℓ ε α} {f : α → Program σ ℓ ε β} (hp : Holds J E P p Q)
    (hf : ∀ a, Holds J E (Q a) (f a) R) : Holds J E P (p >>= f) R := by
  intro s hs
  obtain ⟨hcommits, hok, herror⟩ := hp s hs
  change (∀ c ∈ (Program.bind p f s).commits, _) ∧
    (∀ b, (Program.bind p f s).result = _ → R b (finalState (Program.bind p f s).commits s)) ∧
    ∀ e, (Program.bind p f s).result = _ → E (finalState (Program.bind p f s).commits s)
  cases hresult : (p s).result with
  | error e =>
    have hbind : Program.bind p f s = ⟨(p s).commits, .error e⟩ := by
      simp only [Program.bind, hresult]
    rw [hbind]
    exact ⟨hcommits, fun b hb => (by cases hb), fun e' _ => herror e hresult⟩
  | ok a =>
    have hbind : Program.bind p f s = ⟨(p s).commits ++
        (f a (finalState (p s).commits s)).commits, (f a (finalState (p s).commits s)).result⟩ := by
      simp only [Program.bind, hresult]
    obtain ⟨hcommits', hok', herror'⟩ := hf a _ (hok a hresult)
    rw [hbind]
    refine ⟨fun c hc => ?_, ?_, ?_⟩
    · rcases List.mem_append.mp hc with hc | hc
      · exact hcommits c hc
      · exact hcommits' c hc
    · rw [finalState_append]
      exact hok'
    · rw [finalState_append]
      exact herror'

theorem holds_read {f : σ → Except ε α} (hok : ∀ s a, P s → f s = .ok a → Q a s)
    (herror : ∀ s e, P s → f s = .error e → E s) :
    Holds J E P (Program.read f : Program σ ℓ ε α) Q := by
  intro s hs
  exact ⟨fun _ hc => absurd hc List.not_mem_nil, fun a ha => hok s a hs ha,
    fun e he => herror s e hs he⟩

theorem holds_commit {f : σ → Except ε (α × ℓ × σ)}
    (hok : ∀ s a label s', P s → f s = .ok (a, label, s') → J label s' ∧ Q a s')
    (herror : ∀ s e, P s → f s = .error e → E s) : Holds J E P (Program.commit f) Q := by
  intro s hs
  cases hresult : f s with
  | error e =>
    have hrun : Program.commit f s = ⟨[], .error e⟩ := by simp only [Program.commit, hresult]
    rw [hrun]
    exact ⟨fun _ hc => absurd hc List.not_mem_nil, fun a ha => (by cases ha),
      fun _ _ => herror s e hs hresult⟩
  | ok out =>
    obtain ⟨a, label, s'⟩ := out
    obtain ⟨hJ, hQ⟩ := hok s a label s' hs hresult
    have hrun : Program.commit f s = ⟨[(label, s')], .ok a⟩ := by
      simp only [Program.commit, hresult]
    rw [hrun]
    refine ⟨fun c hc => ?_, fun b hb => ?_, fun e he => (by cases he)⟩
    · rw [List.mem_singleton.mp hc]
      exact hJ
    · cases hb
      exact hQ

theorem Holds.pre {P' : σ → Prop} {p : Program σ ℓ ε α} (h : Holds J E P p Q)
    (himp : ∀ s, P' s → P s) : Holds J E P' p Q := fun s hs => h s (himp s hs)

theorem Holds.post {Q' : α → σ → Prop} {p : Program σ ℓ ε α} (h : Holds J E P p Q)
    (himp : ∀ a s, Q a s → Q' a s) : Holds J E P p Q' := by
  intro s hs
  obtain ⟨hcommits, hok, herror⟩ := h s hs
  exact ⟨hcommits, fun a ha => himp a _ (hok a ha), herror⟩

/-- A loop whose body keeps `P`. -/
theorem holds_forM {ι : Type w} {xs : List ι} {p : ι → Program σ ℓ ε PUnit}
    (h : ∀ x ∈ xs, Holds J E P (p x) fun _ => P) : Holds J E P (xs.forM p) fun _ => P := by
  induction xs with
  | nil => exact holds_pure (Q := fun _ => P)
  | cons x rest ih =>
    apply (h x List.mem_cons_self).bind
    exact fun _ => ih fun y hy => h y (List.mem_cons_of_mem _ hy)

/-- Where a process dies, either nothing is committed or the last commit stands. -/
theorem Holds.cut {p : Program σ ℓ ε α} (h : Holds J E P p Q) {s : σ} (hs : P s) (n : Nat) :
    (p.lastLabel n s = none ∧ p.cut n s = s) ∨
      ∃ label, p.lastLabel n s = some label ∧ J label (p.cut n s) := by
  unfold Program.lastLabel Program.cut finalState
  cases hlast : ((p s).commits.take n).getLast? with
  | none => exact Or.inl ⟨rfl, rfl⟩
  | some c =>
    have hmem : c ∈ (p s).commits := List.mem_of_mem_take (List.mem_of_getLast? hlast)
    exact Or.inr ⟨c.1, rfl, (h s hs).1 c hmem⟩

end Rules

end Commits
