import Mathlib.Data.List.Basic
import Mathlib.Order.Defs.PartialOrder

/-!
# Runs of a deterministic transition system

A system is a step function on a state and an event; what is assumed of the environment
is a condition on the state and the event at hand. The two rules below turn a lemma about
one step into one about a whole run.
-/

namespace Transition

set_option autoImplicit false

universe u v

variable {σ : Type u} {ε : Type v}

/-- The state after a list of events. -/
def run (step : σ → ε → σ) (s : σ) (events : List ε) : σ := events.foldl step s

/-- Every event of the run meets the condition `ok` in the state it happens in. -/
def Along (step : σ → ε → σ) (ok : σ → ε → Prop) : σ → List ε → Prop
  | _, [] => True
  | s, event :: rest => ok s event ∧ Along step ok (step s event) rest

instance decidableAlong (step : σ → ε → σ) (ok : σ → ε → Prop) [∀ s event, Decidable (ok s event)] :
    ∀ s events, Decidable (Along step ok s events)
  | _, [] => .isTrue trivial
  | s, event :: rest =>
    have := decidableAlong step ok (step s event) rest
    inferInstanceAs (Decidable (ok s event ∧ Along step ok (step s event) rest))

section Rules
variable {step : σ → ε → σ} {ok : σ → ε → Prop}

@[simp] theorem run_nil (s : σ) : run step s [] = s := rfl

@[simp] theorem run_cons (s : σ) (event : ε) (rest : List ε) :
    run step s (event :: rest) = run step (step s event) rest := rfl

theorem run_append (s : σ) (before after : List ε) :
    run step s (before ++ after) = run step (run step s before) after := List.foldl_append

theorem along_append {s : σ} {before after : List ε} :
    Along step ok s (before ++ after) ↔
      Along step ok s before ∧ Along step ok (run step s before) after := by
  induction before generalizing s with
  | nil => simp [Along]
  | cons event rest ih => simp [Along, ih, and_assoc]

/-- What every step keeps, every run keeps. -/
theorem run_invariant (Inv : σ → Prop)
    (hstep : ∀ s event, Inv s → ok s event → Inv (step s event)) {s : σ} (hs : Inv s)
    {events : List ε} (hok : Along step ok s events) : Inv (run step s events) := by
  induction events generalizing s with
  | nil => exact hs
  | cons event rest ih => exact ih (hstep s event hs hok.1) hok.2

/-- A preorder that every step from an invariant state climbs is climbed by every run. -/
theorem run_climbs (Inv : σ → Prop) (R : σ → σ → Prop) (hrefl : ∀ s, R s s)
    (htrans : ∀ a b c, R a b → R b c → R a c)
    (hstep : ∀ s event, Inv s → ok s event → Inv (step s event) ∧ R s (step s event))
    {s : σ} (hs : Inv s) {events : List ε} (hok : Along step ok s events) :
    R s (run step s events) := by
  induction events generalizing s with
  | nil => exact hrefl s
  | cons event rest ih =>
    obtain ⟨hinv, hr⟩ := hstep s event hs hok.1
    exact htrans _ _ _ hr (ih hinv hok.2)

theorem along_and {ok' : σ → ε → Prop} {s : σ} {events : List ε} (h : Along step ok s events)
    (h' : Along step ok' s events) :
    Along step (fun s event => ok s event ∧ ok' s event) s events := by
  induction events generalizing s with
  | nil => trivial
  | cons event rest ih => exact ⟨⟨h.1, h'.1⟩, ih h.2 h'.2⟩

/-- A condition on the event alone is met along every run of such events. -/
theorem along_of_forall {s : σ} {events : List ε}
    (h : ∀ event ∈ events, ∀ s, ok s event) : Along step ok s events := by
  induction events generalizing s with
  | nil => trivial
  | cons event rest ih =>
    exact ⟨h event List.mem_cons_self s, ih fun e he => h e (List.mem_cons_of_mem _ he)⟩

/-- From an invariant, every step of a run is as one step from an invariant state is. -/
theorem along_of_step {R : σ → ε → Prop} (Inv : σ → Prop)
    (hstep : ∀ s event, Inv s → ok s event → Inv (step s event) ∧ R s event) {s : σ} (hs : Inv s)
    {events : List ε} (hok : Along step ok s events) : Along step R s events := by
  induction events generalizing s with
  | nil => trivial
  | cons event rest ih =>
    obtain ⟨hinv, hR⟩ := hstep s event hs hok.1
    exact ⟨hR, ih hinv hok.2⟩

/-- What each step does to an observation that is there before and after, a run does, as long as
the observation is there all along. -/
theorem run_observed {β : Type*} (observe : σ → Option β) (R : β → β → Prop) (hrefl : ∀ b, R b b)
    (htrans : ∀ a b c, R a b → R b c → R a c) {s : σ} {events : List ε}
    (hstep : Along step (fun s event => ∀ b b', observe s = some b →
      observe (step s event) = some b' → R b b') s events)
    (hthere : Along step (fun s _ => (observe s).isSome = true) s events) {b b' : β}
    (hb : observe s = some b) (hb' : observe (run step s events) = some b') : R b b' := by
  induction events generalizing s b with
  | nil =>
    rw [run_nil, hb] at hb'
    rw [← Option.some.inj hb']
    exact hrefl b
  | cons event rest ih =>
    obtain ⟨c, hc⟩ : ∃ c, observe (step s event) = some c := by
      cases rest with
      | nil => exact ⟨b', hb'⟩
      | cons next rest => exact Option.isSome_iff_exists.mp hthere.2.1
    exact htrans b c b' (hstep.1 b c hb hc) (ih hstep.2 hthere.2 hc hb')

theorem along_imp {ok' : σ → ε → Prop} (h : ∀ s event, ok s event → ok' s event) {s : σ}
    {events : List ε} (hok : Along step ok s events) : Along step ok' s events := by
  induction events generalizing s with
  | nil => trivial
  | cons event rest ih => exact ⟨h s event hok.1, ih hok.2⟩

theorem along_true {s : σ} {events : List ε} :
    Along step (fun _ _ => True) s events :=
  along_of_forall fun _ _ _ => trivial

end Rules

end Transition
