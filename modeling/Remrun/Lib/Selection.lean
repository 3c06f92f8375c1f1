import Mathlib.Data.List.Nodup
import Mathlib.Data.List.Sort
import Mathlib.Tactic

/-!
# Groups, first minima and orders of a list

Rows under a key in the order in which the keys first appear, the first least element of a
list, and the orders of a list position by position, the first positions first.
-/

namespace Selection

set_option autoImplicit false

universe u v

variable {α : Type u} {κ : Type v}

/-! ## Groups -/

section Groups
variable [DecidableEq κ]

/-- Appends to the group of the key, or opens one at the end. -/
def place (k : κ) (a : α) : List (κ × List α) → List (κ × List α)
  | [] => [(k, [a])]
  | (k', as) :: rest => if k' = k then (k', as ++ [a]) :: rest else (k', as) :: place k a rest

def groupOn (key : α → κ) (rows : List α) : List (κ × List α) :=
  rows.foldl (fun groups a => place (key a) a groups) []

theorem keys_place (k : κ) (a : α) (groups : List (κ × List α)) :
    (place k a groups).map Prod.fst =
      if k ∈ groups.map Prod.fst then groups.map Prod.fst else groups.map Prod.fst ++ [k] := by
  induction groups with
  | nil => simp [place]
  | cons g rest ih =>
    obtain ⟨k', as⟩ := g
    by_cases hk : k' = k
    · simp [place, hk]
    · have hk' : k ≠ k' := fun h => hk h.symm
      by_cases hmem : k ∈ rest.map Prod.fst
      · simp_all [place]
      · simp_all [place]

theorem mem_place {k k' : κ} {a : α} {bs : List α} {groups : List (κ × List α)}
    (hnodup : (groups.map Prod.fst).Nodup) :
    (k', bs) ∈ place k a groups ↔
      (k' ≠ k ∧ (k', bs) ∈ groups) ∨ (k' = k ∧ ((∃ as, (k, as) ∈ groups ∧ bs = as ++ [a]) ∨
        k ∉ groups.map Prod.fst ∧ bs = [a])) := by
  induction groups with
  | nil => simp [place]
  | cons g rest ih =>
    obtain ⟨j, as⟩ := g
    rw [List.map_cons, List.nodup_cons] at hnodup
    have hfresh : ∀ bs, (j, bs) ∉ rest := fun bs h =>
      hnodup.1 (List.mem_map.mpr ⟨(j, bs), h, rfl⟩)
    by_cases hj : j = k
    · subst hj
      rw [place, if_pos rfl]
      by_cases hk' : k' = j
      · subst hk'
        simp [hfresh]
      · simp [hk']
    · rw [place, if_neg hj, List.mem_cons, ih hnodup.2]
      by_cases hk' : k' = k
      · subst hk'
        have hj' : k' ≠ j := fun h => hj h.symm
        simp [hj']
      · simp [hk']

theorem groupOn_append (key : α → κ) (rows : List α) (a : α) :
    groupOn key (rows ++ [a]) = place (key a) a (groupOn key rows) := by
  simp [groupOn]

theorem groupOn_spec (key : α → κ) (rows : List α) :
    ((groupOn key rows).map Prod.fst).Nodup ∧
      (∀ k, k ∈ (groupOn key rows).map Prod.fst ↔ ∃ a ∈ rows, key a = k) ∧
      ∀ k as, (k, as) ∈ groupOn key rows ↔ as = rows.filter (key · = k) ∧ as ≠ [] := by
  induction rows using List.reverseRecOn with
  | nil => simp [groupOn]
  | append_singleton rows a ih =>
    obtain ⟨hnodup, hkeys, hgroups⟩ := ih
    rw [groupOn_append, keys_place]
    refine ⟨?_, fun k => ?_, fun k as => ?_⟩
    · split
      · exact hnodup
      · rename_i hmem
        exact List.nodup_append.mpr ⟨hnodup, List.nodup_singleton _,
          fun x hx y hy h => hmem (by rw [List.mem_singleton] at hy; rwa [h, hy] at hx)⟩
    · split
      · rename_i hmem
        rw [hkeys]
        constructor
        · rintro ⟨b, hb, rfl⟩
          exact ⟨b, by simp [hb], rfl⟩
        · rintro ⟨b, hb, rfl⟩
          rcases List.mem_append.mp hb with hb | hb
          · exact ⟨b, hb, rfl⟩
          · rw [List.mem_singleton.mp hb]
            exact (hkeys _).mp hmem
      · rw [List.mem_append, hkeys, List.mem_singleton]
        constructor
        · rintro (⟨b, hb, rfl⟩ | rfl)
          · exact ⟨b, by simp [hb], rfl⟩
          · exact ⟨a, by simp, rfl⟩
        · rintro ⟨b, hb, rfl⟩
          rcases List.mem_append.mp hb with hb | hb
          · exact .inl ⟨b, hb, rfl⟩
          · rw [List.mem_singleton.mp hb]
            exact .inr rfl
    · rw [mem_place hnodup]
      by_cases hk : k = key a
      · subst hk
        have hfilter : (rows ++ [a]).filter (key · = key a) =
            rows.filter (key · = key a) ++ [a] := by simp
        rw [hfilter]
        have habsent : key a ∉ (groupOn key rows).map Prod.fst →
            rows.filter (key · = key a) = [] := by
          intro h
          apply List.filter_eq_nil_iff.mpr
          intro b hb heq
          exact h ((hkeys _).mpr ⟨b, hb, by simpa using heq⟩)
        simp only [ne_eq, not_true_eq_false, false_and, false_or, true_and]
        constructor
        · rintro (⟨bs, hbs, rfl⟩ | ⟨hnew, rfl⟩)
          · rw [((hgroups _ _).mp hbs).1]
            simp
          · rw [habsent hnew]
            simp
        · rintro ⟨rfl, -⟩
          by_cases hmem : key a ∈ (groupOn key rows).map Prod.fst
          · obtain ⟨⟨k, bs⟩, hbs, hk⟩ := List.mem_map.mp hmem
            simp only at hk
            subst hk
            exact .inl ⟨bs, hbs, by rw [((hgroups _ _).mp hbs).1]⟩
          · exact .inr ⟨hmem, by rw [habsent hmem]; rfl⟩
      · have hk' : ¬ key a = k := fun h => hk h.symm
        have hfilter : (rows ++ [a]).filter (key · = k) = rows.filter (key · = k) := by
          simp [hk']
        rw [hfilter, hgroups]
        simp [hk]

theorem mem_groupOn {key : α → κ} {rows : List α} {k : κ} {as : List α} :
    (k, as) ∈ groupOn key rows ↔ as = rows.filter (key · = k) ∧ as ≠ [] :=
  (groupOn_spec key rows).2.2 k as

theorem groupOn_member {key : α → κ} {rows : List α} {k : κ} {as : List α}
    (h : (k, as) ∈ groupOn key rows) {a : α} (ha : a ∈ as) : a ∈ rows ∧ key a = k := by
  rw [(mem_groupOn.mp h).1, List.mem_filter] at ha
  exact ⟨ha.1, by simpa using ha.2⟩

/-- Rows that share the key are one group. -/
theorem groupOn_uniform {key : α → κ} {rows : List α} {k : κ} (hne : rows ≠ [])
    (h : ∀ a ∈ rows, key a = k) : groupOn key rows = [(k, rows)] := by
  have hfilter : rows.filter (key · = k) = rows :=
    List.filter_eq_self.mpr fun a ha => by simp [h a ha]
  have hmem : (k, rows) ∈ groupOn key rows := mem_groupOn.mpr ⟨hfilter.symm, hne⟩
  have hall : ∀ g ∈ groupOn key rows, g = (k, rows) := by
    rintro ⟨k', as⟩ hg
    obtain ⟨a, ha⟩ := List.exists_mem_of_ne_nil _ (mem_groupOn.mp hg).2
    obtain ⟨hrow, hkey⟩ := groupOn_member hg ha
    have hk : k' = k := by rw [← hkey, h a hrow]
    subst hk
    rw [(mem_groupOn.mp hg).1, hfilter]
  have hnodup : (groupOn key rows).Nodup := .of_map _ (groupOn_spec key rows).1
  cases hgroups : groupOn key rows with
  | nil => simp [hgroups] at hmem
  | cons g rest =>
    rw [hgroups] at hall hnodup
    cases rest with
    | nil => rw [hall g List.mem_cons_self]
    | cons g' rest =>
      have := hall g List.mem_cons_self
      have := hall g' (by simp)
      simp_all

end Groups

/-! ## The first least element -/

section Least
variable {β : Type v}

def least (lt : β → β → Bool) (key : α → β) : List α → Option α
  | [] => none
  | a :: rest => some (rest.foldl (fun best b => if lt (key b) (key best) then b else best) a)

theorem foldl_least_mem (lt : β → β → Bool) (key : α → β) (rest : List α) (a : α) :
    rest.foldl (fun best b => if lt (key b) (key best) then b else best) a ∈ a :: rest := by
  induction rest generalizing a with
  | nil => simp
  | cons b rest ih =>
    rw [List.foldl_cons]
    by_cases hlt : lt (key b) (key a) = true
    · rw [if_pos hlt]
      exact List.mem_cons_of_mem _ (ih b)
    · rw [if_neg hlt]
      rcases List.mem_cons.mp (ih a) with h | h
      · rw [h]
        exact List.mem_cons_self
      · exact List.mem_cons_of_mem _ (List.mem_cons_of_mem _ h)

theorem least_mem {lt : β → β → Bool} {key : α → β} {xs : List α} {a : α}
    (h : least lt key xs = some a) : a ∈ xs := by
  cases xs with
  | nil => simp [least] at h
  | cons b rest =>
    rw [least, Option.some.injEq] at h
    rw [← h]
    exact foldl_least_mem lt key rest b

theorem exists_least (lt : β → β → Bool) (key : α → β) {xs : List α} (h : xs ≠ []) :
    ∃ a, least lt key xs = some a := by
  cases xs with
  | nil => exact absurd rfl h
  | cons b rest => exact ⟨_, rfl⟩

end Least

/-! ## Orders -/

/-- Every element with the others, in the order of the list. -/
def picks : List α → List (α × List α)
  | [] => []
  | a :: rest => (a, rest) :: (picks rest).map fun p => (p.1, a :: p.2)

/-- The orders of `n` elements of the list. -/
def orders : Nat → List α → List (List α)
  | 0, _ => [[]]
  | n + 1, xs => (picks xs).flatMap fun p => (orders n p.2).map (p.1 :: ·)

theorem mem_picks {xs : List α} {p : α × List α} (h : p ∈ picks xs) :
    p.1 ∈ xs ∧ p.2 ⊆ xs ∧ p.2.length + 1 = xs.length := by
  induction xs generalizing p with
  | nil => simp [picks] at h
  | cons a rest ih =>
    rw [picks, List.mem_cons, List.mem_map] at h
    rcases h with rfl | ⟨q, hq, rfl⟩
    · exact ⟨List.mem_cons_self, List.subset_cons_self _ _, rfl⟩
    · obtain ⟨hmem, hsub, hlength⟩ := ih hq
      exact ⟨List.mem_cons_of_mem _ hmem, List.cons_subset_cons a hsub, by simp [hlength]⟩

theorem picks_perm {xs : List α} {p : α × List α} (h : p ∈ picks xs) : (p.1 :: p.2).Perm xs := by
  induction xs generalizing p with
  | nil => simp [picks] at h
  | cons a rest ih =>
    rw [picks, List.mem_cons, List.mem_map] at h
    rcases h with rfl | ⟨q, hq, rfl⟩
    · exact .refl _
    · exact (List.Perm.swap a q.1 q.2).trans ((ih hq).cons a)

theorem orders_subset {n : Nat} {xs order : List α} (h : order ∈ orders n xs) : order ⊆ xs := by
  induction n generalizing xs order with
  | zero =>
    rw [orders, List.mem_singleton] at h
    subst h
    exact List.nil_subset _
  | succ n ih =>
    rw [orders, List.mem_flatMap] at h
    obtain ⟨p, hp, h⟩ := h
    obtain ⟨rest, hrest, rfl⟩ := List.mem_map.mp h
    obtain ⟨hmem, hsub, -⟩ := mem_picks hp
    exact List.cons_subset.mpr ⟨hmem, fun b hb => hsub (ih hrest hb)⟩

theorem orders_ne_nil {n : Nat} {xs : List α} (h : n = xs.length) : orders n xs ≠ [] := by
  induction n generalizing xs with
  | zero => simp [orders]
  | succ n ih =>
    cases xs with
    | nil => simp at h
    | cons a rest =>
      have hlength : n = rest.length := by simpa using h
      obtain ⟨order, horder⟩ := List.exists_mem_of_ne_nil _ (ih hlength)
      have hmem : a :: order ∈ orders (n + 1) (a :: rest) := by
        rw [orders, List.mem_flatMap]
        exact ⟨(a, rest), by simp [picks], List.mem_map_of_mem horder⟩
      exact List.ne_nil_of_mem hmem

theorem orders_perm {n : Nat} {xs order : List α} (hlength : n = xs.length)
    (h : order ∈ orders n xs) : order.Perm xs := by
  induction n generalizing xs order with
  | zero =>
    rw [orders, List.mem_singleton] at h
    rw [h, List.length_eq_zero_iff.mp hlength.symm]
  | succ n ih =>
    rw [orders, List.mem_flatMap] at h
    obtain ⟨p, hp, h⟩ := h
    obtain ⟨rest, hrest, rfl⟩ := List.mem_map.mp h
    obtain ⟨-, -, hpicks⟩ := mem_picks hp
    exact ((ih (by omega) hrest).cons p.1).trans (picks_perm hp)

example : orders 3 [1, 2, 3] =
    [[1, 2, 3], [1, 3, 2], [2, 1, 3], [2, 3, 1], [3, 1, 2], [3, 2, 1]] := by decide

/-! ## What is left out of a sorted list -/

section Sorted
variable {r : α → α → Prop} [DecidableRel r] {p : α → Bool} {xs : List α} {a : α}

theorem orderedInsert_of_forall (h : ∀ b ∈ xs, r a b) : xs.orderedInsert r a = a :: xs := by
  cases xs with
  | nil => rfl
  | cons b rest => rw [List.orderedInsert_cons, if_pos (h b List.mem_cons_self)]

theorem filter_orderedInsert [IsTrans α r] (hxs : xs.Pairwise r) :
    (xs.orderedInsert r a).filter p =
      if p a then (xs.filter p).orderedInsert r a else xs.filter p := by
  induction xs with
  | nil => cases hp : p a <;> simp [hp]
  | cons b rest ih =>
    obtain ⟨hb, hrest⟩ := List.pairwise_cons.mp hxs
    rw [List.orderedInsert_cons]
    split
    · rename_i hab
      have hall : ∀ c ∈ (b :: rest).filter p, r a c := by
        intro c hc
        rcases List.mem_cons.mp (List.mem_filter.mp hc).1 with rfl | hc
        · exact hab
        · exact IsTrans.trans a b c hab (hb c hc)
      rw [List.filter_cons, orderedInsert_of_forall hall]
    · rename_i hab
      rw [List.filter_cons, List.filter_cons, ih hrest]
      cases hpb : p b
      · simp
      · cases hpa : p a <;> simp [hab]

/-- A stable sort and a filter commute. -/
theorem filter_insertionSort [Std.Total r] [IsTrans α r] :
    (xs.insertionSort r).filter p = (xs.filter p).insertionSort r := by
  induction xs with
  | nil => rfl
  | cons a rest ih =>
    rw [List.insertionSort_cons, filter_orderedInsert (List.pairwise_insertionSort r rest), ih,
      List.filter_cons]
    split <;> rfl

end Sorted

end Selection
