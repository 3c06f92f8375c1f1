import Mathlib.Data.List.Basic
import Mathlib.Data.List.Forall2

/-!
# Pre- and postconditions of programs with state and exceptions

A program of `EStateM` keeps the state it reached when it raises, so a triple has a
postcondition for each way out. Loops are folds; their rule carries an invariant indexed by
the part of the list already done.
-/

namespace Effect

set_option autoImplicit false

universe u

variable {ε σ α β : Type u}

/-- From a state in `pre`, the program returns within `post` or raises within `fail`. -/
def Triple (pre : σ → Prop) (m : EStateM ε σ α) (post : α → σ → Prop) (fail : ε → σ → Prop) :
    Prop :=
  ∀ s, pre s → match m s with
    | .ok a s' => post a s'
    | .error e s' => fail e s'

section Rules
variable {P P' : σ → Prop} {Q Q' : α → σ → Prop} {E E' : ε → σ → Prop}

theorem Triple.ok {m : EStateM ε σ α} (h : Triple P m Q E) {s s' : σ} {a : α} (hs : P s)
    (hrun : m s = .ok a s') : Q a s' := by
  have := h s hs
  rwa [hrun] at this

theorem Triple.error {m : EStateM ε σ α} (h : Triple P m Q E) {s s' : σ} {e : ε} (hs : P s)
    (hrun : m s = .error e s') : E e s' := by
  have := h s hs
  rwa [hrun] at this

/-- A program that cannot raise returns. -/
theorem Triple.returns {m : EStateM ε σ α} (h : Triple P m Q fun _ _ => False) {s : σ} (hs : P s) :
    ∃ a s', m s = .ok a s' ∧ Q a s' := by
  have := h s hs
  cases hrun : m s with
  | ok a s' => exact ⟨a, s', rfl, by rwa [hrun] at this⟩
  | error e s' =>
    rw [hrun] at this
    exact this.elim

/-- Facts about every single start are facts about the states the program may start from. -/
theorem triple_of_each {m : EStateM ε σ α} {R : σ → α → σ → Prop}
    (h : ∀ s, P s → Triple (· = s) m (R s) E) (hpost : ∀ s a s', P s → R s a s' → Q a s') :
    Triple P m Q E := by
  intro s hs
  have hrun := h s hs s rfl
  cases hm : m s with
  | ok a s' => exact hpost s a s' hs (by rwa [hm] at hrun)
  | error e s' => rwa [hm] at hrun

/-- The program goes on from any state it may be in. -/
theorem triple_at {m : EStateM ε σ α} (h : ∀ s, P s → Triple (· = s) m Q E) : Triple P m Q E :=
  fun s hs => h s hs s rfl

theorem Triple.conseq {m : EStateM ε σ α} (h : Triple P m Q E) (hpre : ∀ s, P' s → P s)
    (hpost : ∀ a s, Q a s → Q' a s) (hfail : ∀ e s, E e s → E' e s) : Triple P' m Q' E' := by
  intro s hs
  have hrun := h s (hpre s hs)
  cases hm : m s with
  | ok a s' => exact hpost a s' (by rwa [hm] at hrun)
  | error e s' => exact hfail e s' (by rwa [hm] at hrun)

theorem Triple.pre {m : EStateM ε σ α} (h : Triple P m Q E) (hpre : ∀ s, P' s → P s) :
    Triple P' m Q E :=
  h.conseq hpre (fun _ _ => id) fun _ _ => id

theorem Triple.post {m : EStateM ε σ α} (h : Triple P m Q E) (hpost : ∀ a s, Q a s → Q' a s) :
    Triple P m Q' E :=
  h.conseq (fun _ => id) hpost fun _ _ => id

theorem Triple.and {m : EStateM ε σ α} (h : Triple P m Q E) (h' : Triple P' m Q' E') :
    Triple (fun s => P s ∧ P' s) m (fun a s => Q a s ∧ Q' a s) (fun e s => E e s ∧ E' e s) := by
  intro s hs
  have hrun := h s hs.1
  have hrun' := h' s hs.2
  cases hm : m s with
  | ok a s' => exact ⟨by rwa [hm] at hrun, by rwa [hm] at hrun'⟩
  | error e s' => exact ⟨by rwa [hm] at hrun, by rwa [hm] at hrun'⟩

/-- A fact that does not mention the state may be assumed. -/
theorem triple_of_pure {p : Prop} {m : EStateM ε σ α} (h : p → Triple P m Q E) :
    Triple (fun s => p ∧ P s) m Q E :=
  fun s hs => h hs.1 s hs.2

theorem triple_of_pure_right {p : Prop} {m : EStateM ε σ α} (h : p → Triple P m Q E) :
    Triple (fun s => P s ∧ p) m Q E :=
  fun s hs => h hs.2 s hs.1

theorem triple_pure {a : α} (h : ∀ s, P s → Q a s) : Triple P (pure a : EStateM ε σ α) Q E :=
  fun s hs => h s hs

theorem triple_throw {e : ε} (h : ∀ s, P s → E e s) : Triple P (throw e : EStateM ε σ α) Q E :=
  fun s hs => h s hs

theorem triple_modify {f : σ → σ} {Q : PUnit → σ → Prop} (h : ∀ s, P s → Q ⟨⟩ (f s)) :
    Triple P (modify f : EStateM ε σ PUnit) Q E :=
  fun s hs => h s hs

theorem triple_ofExcept {x : Except ε α} (hok : ∀ a, x = .ok a → ∀ s, P s → Q a s)
    (herror : ∀ e, x = .error e → ∀ s, P s → E e s) :
    Triple P (ofExcept x : EStateM ε σ α) Q E := by
  cases x with
  | ok a => exact triple_pure (hok a rfl)
  | error e => exact triple_throw (herror e rfl)

theorem triple_bind {m : EStateM ε σ β} {f : β → EStateM ε σ α} {R : β → σ → Prop}
    (hm : Triple P m R E) (hf : ∀ b, Triple (R b) (f b) Q E) : Triple P (m >>= f) Q E := by
  intro s hs
  have hrun := hm s hs
  change match EStateM.bind m f s with | .ok a s' => Q a s' | .error e s' => E e s'
  unfold EStateM.bind
  cases h : m s with
  | ok b s' => exact hf b s' (by rwa [h] at hrun)
  | error e s' => rwa [h] at hrun

/-- The program goes on from the state it reads. -/
theorem triple_get_bind {f : σ → EStateM ε σ α} (h : ∀ s, P s → Triple (· = s) (f s) Q E) :
    Triple P (get >>= f) Q E :=
  fun s hs => h s hs s rfl

theorem triple_map {m : EStateM ε σ β} {f : β → α} (hm : Triple P m (fun b => Q (f b)) E) :
    Triple P (f <$> m) Q E := by
  intro s hs
  have hrun := hm s hs
  change match EStateM.map f m s with | .ok a s' => Q a s' | .error e s' => E e s'
  unfold EStateM.map
  cases h : m s with
  | ok b s' => rwa [h] at hrun
  | error e s' => rwa [h] at hrun

theorem triple_ite {p : Prop} [Decidable p] {m m' : EStateM ε σ α} (h : p → Triple P m Q E)
    (h' : ¬p → Triple P m' Q E) : Triple P (if p then m else m') Q E := by
  split
  · exact h ‹_›
  · exact h' ‹_›

theorem triple_tryCatch {m : EStateM ε σ α} {handle : ε → EStateM ε σ α}
    (hm : Triple P m Q E') (hh : ∀ e, Triple (E' e) (handle e) Q E) :
    Triple P (tryCatch m handle) Q E := by
  intro s hs
  have hrun := hm s hs
  change match EStateM.tryCatch m handle s with | .ok a s' => Q a s' | .error e s' => E e s'
  unfold EStateM.tryCatch
  cases h : m s with
  | ok a s' => rwa [h] at hrun
  | error e s' => exact hh e s' (by rwa [h] at hrun)

/-- The rule of a loop over a list; `Inv done acc` is about the part already done. -/
theorem triple_foldlM {f : α → β → EStateM ε σ α} {items : List β} {init : α}
    (Inv : List β → α → σ → Prop)
    (hstep : ∀ done item rest acc, items = done ++ item :: rest →
      Triple (Inv done acc) (f acc item) (Inv (done ++ [item])) E) :
    Triple (Inv [] init) (items.foldlM f init) (Inv items) E := by
  suffices hgen : ∀ (todo done : List β) (acc : α), items = done ++ todo →
      Triple (Inv done acc) (todo.foldlM f acc) (Inv items) E from hgen items [] init rfl
  intro todo
  induction todo with
  | nil =>
    intro done acc hsplit
    rw [List.append_nil] at hsplit
    subst hsplit
    exact triple_pure fun _ => id
  | cons item rest ih =>
    intro done acc hsplit
    rw [List.foldlM_cons]
    refine triple_bind (hstep done item rest acc hsplit) fun acc' => ?_
    exact ih (done ++ [item]) acc' (by rw [hsplit, List.append_assoc, List.singleton_append])

/-- The rule of a loop that maps; `Inv done outs` is about the part already done. -/
theorem triple_mapM {f : α → EStateM ε σ β} {items : List α} (Inv : List α → List β → σ → Prop)
    (hstep : ∀ done item rest outs, items = done ++ item :: rest →
      Triple (Inv done outs) (f item) (fun out => Inv (done ++ [item]) (outs ++ [out])) E) :
    Triple (Inv [] []) (items.mapM f) (Inv items) E := by
  suffices hgen : ∀ (todo done : List α) (outs : List β), items = done ++ todo →
      Triple (Inv done outs) (todo.mapM f) (fun rest => Inv items (outs ++ rest)) E from
    hgen items [] [] rfl
  intro todo
  induction todo with
  | nil =>
    intro done outs hsplit
    rw [List.append_nil] at hsplit
    subst hsplit
    rw [List.mapM_nil]
    refine triple_pure fun s hs => ?_
    rwa [List.append_nil]
  | cons item rest ih =>
    intro done outs hsplit
    rw [List.mapM_cons]
    refine triple_bind (hstep done item rest outs hsplit) fun out => ?_
    have hrest := ih (done ++ [item]) (outs ++ [out])
      (by rw [hsplit, List.append_assoc, List.singleton_append])
    refine triple_bind hrest fun others => triple_pure fun s hs => ?_
    rwa [List.append_assoc, List.singleton_append] at hs

theorem triple_forM {f : β → EStateM ε σ PUnit} {items : List β}
    (h : ∀ item ∈ items, Triple P (f item) (fun _ => P) E) :
    Triple P (items.forM f) (fun _ => P) E := by
  induction items with
  | nil => exact triple_pure fun _ => id
  | cons item rest ih =>
    exact triple_bind (h item List.mem_cons_self)
      fun _ => ih fun item hitem => h item (List.mem_cons_of_mem _ hitem)

/-- What one item of a loop establishes holds at the end, if the items after it keep it. -/
theorem triple_forM_of_mem {f : β → EStateM ε σ PUnit} {items : List β} {item : β} {R : σ → Prop}
    (hmem : item ∈ items) (hbefore : ∀ item ∈ items, Triple P (f item) (fun _ => P) E)
    (hat : Triple P (f item) (fun _ => R) E)
    (hafter : ∀ item ∈ items, Triple R (f item) (fun _ => R) E) :
    Triple P (items.forM f) (fun _ => R) E := by
  induction items with
  | nil => simp at hmem
  | cons next rest ih =>
    have hrest : ∀ item ∈ rest, Triple R (f item) (fun _ => R) E :=
      fun item hitem => hafter item (List.mem_cons_of_mem _ hitem)
    rcases List.mem_cons.mp hmem with rfl | hmem
    · exact triple_bind hat fun _ => triple_forM hrest
    · exact triple_bind (hbefore next List.mem_cons_self) fun _ =>
        ih hmem (fun item hitem => hbefore item (List.mem_cons_of_mem _ hitem)) hrest

end Rules

/-- A composition that returns, returns in both parts. -/
theorem bind_returns {m : EStateM ε σ β} {f : β → EStateM ε σ α} {s s' : σ} {a : α}
    (h : (m >>= f) s = .ok a s') : ∃ b s1, m s = .ok b s1 ∧ f b s1 = .ok a s' := by
  change EStateM.bind m f s = .ok a s' at h
  unfold EStateM.bind at h
  cases hm : m s with
  | ok b s1 => exact ⟨b, s1, rfl, by rwa [hm] at h⟩
  | error e s1 => simp [hm] at h

theorem map_returns {m : EStateM ε σ β} {f : β → α} {s s' : σ} {a : α}
    (h : (f <$> m) s = .ok a s') : ∃ b, m s = .ok b s' ∧ f b = a := by
  change EStateM.map f m s = .ok a s' at h
  unfold EStateM.map at h
  cases hm : m s with
  | ok b s1 =>
    simp only [hm] at h
    cases h
    exact ⟨b, rfl, rfl⟩
  | error e s1 => simp [hm] at h

/-- What returns under a handler returned by itself, or was handled. -/
theorem tryCatch_returns {m : EStateM ε σ α} {handle : ε → EStateM ε σ α} {s s' : σ} {a : α}
    (h : tryCatch m handle s = .ok a s') :
    m s = .ok a s' ∨ ∃ e s1, m s = .error e s1 ∧ handle e s1 = .ok a s' := by
  change EStateM.tryCatch m handle s = .ok a s' at h
  unfold EStateM.tryCatch at h
  cases hm : m s with
  | ok b s1 =>
    simp only [hm] at h
    exact Or.inl h
  | error e s1 =>
    simp only [hm] at h
    exact Or.inr ⟨e, s1, rfl, h⟩

/-- The state in which a program ended, either way. -/
def ending : EStateM.Result ε σ α → σ
  | .ok _ s => s
  | .error _ s => s

/-! ## Invariants -/

/-- The condition is kept whichever way the program ends. -/
def Keeps (I : σ → Prop) (m : EStateM ε σ α) : Prop := Triple I m (fun _ => I) fun _ => I

section Invariants
variable {I : σ → Prop}

theorem Keeps.ending {m : EStateM ε σ α} (h : Keeps I m) {s : σ} (hs : I s) :
    I (Effect.ending (m s)) := by
  have hrun := h s hs
  cases hm : m s with
  | ok a s' => rwa [hm] at hrun
  | error e s' => rwa [hm] at hrun

theorem keeps_ofExcept {x : Except ε α} : Keeps I (ofExcept x : EStateM ε σ α) :=
  triple_ofExcept (fun _ _ _ => id) fun _ _ _ => id

theorem keeps_pure (a : α) : Keeps I (pure a : EStateM ε σ α) := triple_pure fun _ => id

theorem keeps_get : Keeps I (get : EStateM ε σ σ) := fun _ hs => hs

theorem keeps_throw (e : ε) : Keeps I (throw e : EStateM ε σ α) := triple_throw fun _ => id

theorem keeps_bind {m : EStateM ε σ β} {f : β → EStateM ε σ α} (hm : Keeps I m)
    (hf : ∀ b, Keeps I (f b)) : Keeps I (m >>= f) := triple_bind hm hf

theorem keeps_map {m : EStateM ε σ β} {f : β → α} (hm : Keeps I m) : Keeps I (f <$> m) :=
  triple_map hm

theorem keeps_ite {p : Prop} [Decidable p] {m m' : EStateM ε σ α} (h : Keeps I m)
    (h' : Keeps I m') : Keeps I (if p then m else m') := triple_ite (fun _ => h) fun _ => h'

theorem keeps_tryCatch {m : EStateM ε σ α} {handle : ε → EStateM ε σ α} (hm : Keeps I m)
    (hh : ∀ e, Keeps I (handle e)) : Keeps I (tryCatch m handle) := triple_tryCatch hm hh

theorem keeps_foldlM {f : α → β → EStateM ε σ α} {items : List β} {init : α}
    (hstep : ∀ acc, ∀ item ∈ items, Keeps I (f acc item)) : Keeps I (items.foldlM f init) := by
  refine triple_foldlM (fun _ _ => I) fun done item rest acc hsplit => hstep acc item ?_
  rw [hsplit]
  exact List.mem_append_right _ List.mem_cons_self

end Invariants

/-! ## Two programs side by side -/

/-- From states in `R` the second program returns what the first returns, and raises what the
first raises unless that is an error `alone` of the first. -/
def Mirrors (R : σ → σ → Prop) (alone : ε → Prop) (m m' : EStateM ε σ α)
    (R' : α → σ → σ → Prop) : Prop :=
  ∀ s t, R s t → match m s with
    | .ok a s' => ∃ t', m' t = .ok a t' ∧ R' a s' t'
    | .error e _ => alone e ∨ ∃ t', m' t = .error e t'

section Mirrors
variable {R : σ → σ → Prop} {alone : ε → Prop} {R' : α → σ → σ → Prop}

theorem Mirrors.ok {m m' : EStateM ε σ α} (h : Mirrors R alone m m' R') {s s' t : σ} {a : α}
    (hs : R s t) (hrun : m s = .ok a s') : ∃ t', m' t = .ok a t' ∧ R' a s' t' := by
  have := h s t hs
  rwa [hrun] at this

theorem Mirrors.error {m m' : EStateM ε σ α} (h : Mirrors R alone m m' R') {s s' t : σ} {e : ε}
    (hs : R s t) (hrun : m s = .error e s') : alone e ∨ ∃ t', m' t = .error e t' := by
  have := h s t hs
  rwa [hrun] at this

theorem mirrors_pure {a : α} (h : ∀ s t, R s t → R' a s t) :
    Mirrors R alone (pure a : EStateM ε σ α) (pure a) R' :=
  fun s t hs => ⟨t, rfl, h s t hs⟩

theorem Mirrors.conseq {S : σ → σ → Prop} {S' : α → σ → σ → Prop} {m m' : EStateM ε σ α}
    (h : Mirrors R alone m m' R') (hpre : ∀ s t, S s t → R s t)
    (hpost : ∀ a s t, R' a s t → S' a s t) : Mirrors S alone m m' S' := by
  intro s t hs
  have hrun := h s t (hpre s t hs)
  cases hm : m s with
  | ok a s' =>
    rw [hm] at hrun
    obtain ⟨t', ht', hrel⟩ := hrun
    exact ⟨t', ht', hpost a s' t' hrel⟩
  | error e s' => rwa [hm] at hrun

/-- Each program goes on from what it reads. -/
theorem mirrors_get_bind {f f' : σ → EStateM ε σ α}
    (h : ∀ s t, R s t → Mirrors (fun s' t' => s' = s ∧ t' = t) alone (f s) (f' t) R') :
    Mirrors R alone (get >>= f) (get >>= f') R' :=
  fun s t hs => h s t hs s t ⟨rfl, rfl⟩

theorem mirrors_throw {e : ε} : Mirrors R alone (throw e : EStateM ε σ α) (throw e) R' :=
  fun _ t _ => Or.inr ⟨t, rfl⟩

theorem mirrors_ofExcept {x : Except ε α} (h : ∀ a, x = .ok a → ∀ s t, R s t → R' a s t) :
    Mirrors R alone (ofExcept x : EStateM ε σ α) (ofExcept x) R' := by
  cases x with
  | ok a => exact mirrors_pure (h a rfl)
  | error e => exact mirrors_throw

/-- The second program does nothing where the first writes. -/
theorem mirrors_skip {m : EStateM ε σ PUnit} {R' : PUnit → σ → σ → Prop}
    (h : ∀ s t, R s t → match m s with
      | .ok _ s' => R' ⟨⟩ s' t
      | .error e _ => alone e) :
    Mirrors R alone m (pure ⟨⟩) R' := by
  intro s t hs
  have hrun := h s t hs
  cases hm : m s with
  | ok a s' => exact ⟨t, rfl, by rwa [hm] at hrun⟩
  | error e s' => exact Or.inl (by rwa [hm] at hrun)

theorem mirrors_bind {m m' : EStateM ε σ β} {f f' : β → EStateM ε σ α} {S : β → σ → σ → Prop}
    (hm : Mirrors R alone m m' S) (hf : ∀ b, Mirrors (S b) alone (f b) (f' b) R') :
    Mirrors R alone (m >>= f) (m' >>= f') R' := by
  intro s t hs
  have hrun := hm s t hs
  change match EStateM.bind m f s with
    | .ok a s' => ∃ t', EStateM.bind m' f' t = .ok a t' ∧ R' a s' t'
    | .error e _ => alone e ∨ ∃ t', EStateM.bind m' f' t = .error e t'
  unfold EStateM.bind
  cases h : m s with
  | ok b s' =>
    rw [h] at hrun
    obtain ⟨t', ht', hrel⟩ := hrun
    simp only [ht']
    exact hf b s' t' hrel
  | error e s' =>
    rw [h] at hrun
    refine hrun.imp id ?_
    rintro ⟨t', ht'⟩
    exact ⟨t', by simp only [ht']⟩

/-- The rule of two loops over one list. -/
theorem mirrors_foldlM {f f' : α → β → EStateM ε σ α} {items : List β} {init : α}
    (Inv : List β → α → σ → σ → Prop)
    (hstep : ∀ done item rest acc, items = done ++ item :: rest →
      Mirrors (Inv done acc) alone (f acc item) (f' acc item) (Inv (done ++ [item]))) :
    Mirrors (Inv [] init) alone (items.foldlM f init) (items.foldlM f' init) (Inv items) := by
  suffices hgen : ∀ (todo done : List β) (acc : α), items = done ++ todo →
      Mirrors (Inv done acc) alone (todo.foldlM f acc) (todo.foldlM f' acc) (Inv items)
    from hgen items [] init rfl
  intro todo
  induction todo with
  | nil =>
    intro done acc hsplit
    rw [List.append_nil] at hsplit
    subst hsplit
    exact mirrors_pure fun _ _ => id
  | cons item rest ih =>
    intro done acc hsplit
    rw [List.foldlM_cons, List.foldlM_cons]
    refine mirrors_bind (hstep done item rest acc hsplit) fun acc' => ?_
    exact ih (done ++ [item]) acc' (by rw [hsplit, List.append_assoc, List.singleton_append])

end Mirrors

/-! ## Conditions on the value alone -/

/-- Whatever the state, a value that is returned satisfies the condition. -/
def Yields (m : EStateM ε σ α) (post : α → Prop) : Prop :=
  Triple (fun _ => True) m (fun a _ => post a) fun _ _ => True

section Values
variable {p p' : α → Prop}

theorem Yields.ok {m : EStateM ε σ α} (h : Yields m p) {s s' : σ} {a : α}
    (hrun : m s = .ok a s') : p a := Triple.ok h trivial hrun

theorem yields_any (m : EStateM ε σ α) : Yields m fun _ => True := by
  intro s _
  cases m s <;> trivial

theorem yields_pure {a : α} (h : p a) : Yields (pure a : EStateM ε σ α) p :=
  triple_pure fun _ _ => h

theorem yields_throw (e : ε) : Yields (throw e : EStateM ε σ α) p := triple_throw fun _ _ => trivial

theorem yields_bind {m : EStateM ε σ β} {f : β → EStateM ε σ α} {r : β → Prop}
    (hm : Yields m r) (hf : ∀ b, r b → Yields (f b) p) : Yields (m >>= f) p :=
  triple_bind hm fun b s hb => hf b hb s trivial

theorem yields_map {m : EStateM ε σ β} {f : β → α} (hm : Yields m fun b => p (f b)) :
    Yields (f <$> m) p := triple_map hm

theorem yields_tryCatch {m : EStateM ε σ α} {handle : ε → EStateM ε σ α} (hm : Yields m p)
    (hh : ∀ e, Yields (handle e) p) : Yields (tryCatch m handle) p := triple_tryCatch hm hh

theorem yields_foldlM {f : α → β → EStateM ε σ α} {items : List β} {init : α}
    (Inv : List β → α → Prop) (hinit : Inv [] init)
    (hstep : ∀ done item rest acc, items = done ++ item :: rest → Inv done acc →
      Yields (f acc item) (Inv (done ++ [item]))) :
    Yields (items.foldlM f init) (Inv items) := by
  have hfold : Triple (fun _ => Inv [] init) (items.foldlM f init) (fun a _ => Inv items a)
      fun (_ : ε) (_ : σ) => True :=
    triple_foldlM (fun done acc _ => Inv done acc) fun done item rest acc hsplit s hs =>
      hstep done item rest acc hsplit hs s trivial
  exact hfold.pre fun _ _ => hinit

end Values

/-! ## Exceptions without a state -/

section Outcomes
variable {x : Except ε α} {f : α → Except ε β}

/-- What a bind that returned did. -/
theorem bind_eq_ok {b : β} : (x >>= f) = .ok b ↔ ∃ a, x = .ok a ∧ f a = .ok b := by
  cases x with
  | error e =>
    constructor
    · intro h
      cases h
    · rintro ⟨a, ha, -⟩
      cases ha
  | ok a =>
    constructor
    · exact fun h => ⟨a, rfl, h⟩
    · rintro ⟨a', ha, h⟩
      cases ha
      exact h

theorem pure_eq_ok {a b : α} : (pure a : Except ε α) = .ok b ↔ a = b :=
  ⟨Except.ok.inj, congrArg Except.ok⟩

theorem map_eq_ok {g : α → β} {b : β} : g <$> x = .ok b ↔ ∃ a, x = .ok a ∧ g a = b := by
  cases x with
  | error e =>
    constructor
    · intro h
      cases h
    · rintro ⟨a, ha, -⟩
      cases ha
  | ok a =>
    constructor
    · exact fun h => ⟨a, rfl, Except.ok.inj h⟩
    · rintro ⟨a', ha, h⟩
      cases ha
      exact congrArg Except.ok h

theorem foldlM_invariant {α β : Type u} {f : α → β → Except ε α} {items : List β} (Inv : α → Prop)
    (hstep : ∀ acc item acc', item ∈ items → Inv acc → f acc item = .ok acc' → Inv acc')
    {init result : α} (hinit : Inv init) (h : items.foldlM f init = .ok result) : Inv result := by
  induction items generalizing init with
  | nil =>
    rw [List.foldlM_nil, pure_eq_ok] at h
    rwa [← h]
  | cons item rest ih =>
    rw [List.foldlM_cons, bind_eq_ok] at h
    obtain ⟨acc, hacc, hrest⟩ := h
    exact ih (fun acc item acc' hmem => hstep acc item acc' (List.mem_cons_of_mem _ hmem))
      (hstep init item acc List.mem_cons_self hinit hacc) hrest

end Outcomes

section Lists
variable {f : α → Except ε β} {xs : List α}

theorem mapM_cons_eq_ok {x : α} {ys : List β} : (x :: xs).mapM f = .ok ys ↔
    ∃ z zs, f x = .ok z ∧ xs.mapM f = .ok zs ∧ ys = z :: zs := by
  rw [List.mapM_cons, bind_eq_ok]
  constructor
  · rintro ⟨z, hz, h⟩
    obtain ⟨zs, hzs, h⟩ := bind_eq_ok.mp h
    exact ⟨z, zs, hz, hzs, (pure_eq_ok.mp h).symm⟩
  · rintro ⟨z, zs, hz, hzs, rfl⟩
    exact ⟨z, hz, bind_eq_ok.mpr ⟨zs, hzs, rfl⟩⟩

theorem mapM_eq_ok {ys : List β} :
    xs.mapM f = .ok ys ↔ List.Forall₂ (fun x y => f x = .ok y) xs ys := by
  induction xs generalizing ys with
  | nil =>
    rw [List.forall₂_nil_left_iff]
    exact ⟨fun h => (Except.ok.inj h).symm, fun h => h ▸ rfl⟩
  | cons x rest ih =>
    rw [mapM_cons_eq_ok, List.forall₂_cons_left_iff]
    simp only [ih]

theorem mapM_mapM_eq_ok {γ : Type u} {g : β → Except ε γ} {zs : List γ} :
    (∃ ys, xs.mapM f = .ok ys ∧ ys.mapM g = .ok zs) ↔
      xs.mapM (fun x => f x >>= g) = .ok zs := by
  induction xs generalizing zs with
  | nil =>
    constructor
    · rintro ⟨ys, hys, hzs⟩
      rw [← Except.ok.inj hys] at hzs
      exact hzs
    · exact fun h => ⟨[], rfl, h⟩
  | cons x rest ih =>
    rw [mapM_cons_eq_ok]
    constructor
    · rintro ⟨ys, hys, hzs⟩
      obtain ⟨y, others, hy, hothers, rfl⟩ := mapM_cons_eq_ok.mp hys
      obtain ⟨z, last, hz, hlast, rfl⟩ := mapM_cons_eq_ok.mp hzs
      exact ⟨z, last, bind_eq_ok.mpr ⟨y, hy, hz⟩, ih.mp ⟨others, hothers, hlast⟩, rfl⟩
    · rintro ⟨z, last, hz, hlast, rfl⟩
      obtain ⟨y, hy, hz⟩ := bind_eq_ok.mp hz
      obtain ⟨others, hothers, hlast⟩ := ih.mpr hlast
      exact ⟨y :: others, mapM_cons_eq_ok.mpr ⟨y, others, hy, hothers, rfl⟩,
        mapM_cons_eq_ok.mpr ⟨z, last, hz, hlast, rfl⟩⟩

theorem mapM_error {e : ε} (h : xs.mapM f = .error e) : ∃ x ∈ xs, f x = .error e := by
  induction xs with
  | nil => exact absurd h nofun
  | cons x rest ih =>
    rw [List.mapM_cons] at h
    cases hx : f x with
    | error e' =>
      rw [hx] at h
      exact ⟨x, List.mem_cons_self, hx.trans (congrArg _ (Except.error.inj h))⟩
    | ok y =>
      rw [hx] at h
      cases hrest : rest.mapM f with
      | error e' =>
        rw [hrest] at h
        obtain ⟨x', hmem, hx'⟩ := ih (hrest.trans (congrArg _ (Except.error.inj h)))
        exact ⟨x', List.mem_cons_of_mem _ hmem, hx'⟩
      | ok ys =>
        rw [hrest] at h
        exact absurd h nofun

theorem ok_of_mapM {ys : List β} (h : xs.mapM f = .ok ys) {x : α} (hx : x ∈ xs) :
    ∃ y, f x = .ok y := by
  induction xs generalizing ys with
  | nil => exact absurd hx List.not_mem_nil
  | cons first rest ih =>
    obtain ⟨z, zs, hz, hzs, -⟩ := mapM_cons_eq_ok.mp h
    rcases List.mem_cons.mp hx with rfl | hmem
    · exact ⟨z, hz⟩
    · exact ih hzs hmem

theorem mapM_returns : (∃ ys, xs.mapM f = .ok ys) ↔ ∀ x ∈ xs, ∃ y, f x = .ok y := by
  refine ⟨fun ⟨_, h⟩ _ hx => ok_of_mapM h hx, fun h => ?_⟩
  cases hmap : xs.mapM f with
  | ok ys => exact ⟨ys, rfl⟩
  | error e =>
    obtain ⟨x, hx, he⟩ := mapM_error hmap
    obtain ⟨y, hy⟩ := h x hx
    exact absurd (he.symm.trans hy) nofun

theorem mem_of_mapM {ys : List β} (h : xs.mapM f = .ok ys) {y : β} :
    y ∈ ys ↔ ∃ x ∈ xs, f x = .ok y := by
  induction xs generalizing ys with
  | nil =>
    obtain rfl := Except.ok.inj h
    simp
  | cons x rest ih =>
    obtain ⟨z, zs, hz, hzs, rfl⟩ := mapM_cons_eq_ok.mp h
    simp only [List.mem_cons, ih hzs]
    constructor
    · rintro (rfl | ⟨x', hmem, hx'⟩)
      · exact ⟨x, Or.inl rfl, hz⟩
      · exact ⟨x', Or.inr hmem, hx'⟩
    · rintro ⟨x', rfl | hmem, hx'⟩
      · exact Or.inl (Except.ok.inj (hx'.symm.trans hz))
      · exact Or.inr ⟨x', hmem, hx'⟩

end Lists

end Effect
