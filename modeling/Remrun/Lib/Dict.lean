import Mathlib.Data.List.Nodup
import Mathlib.Tactic

/-!
# Insertion-ordered dictionaries

Keys are compared through `key`: with `id` this is a plain dictionary, with a case folding
it is a directory that keeps the spelling under which a name was first stored. An update in
place keeps the position and the spelling, a new key goes to the end.
-/

namespace Keyed

set_option autoImplicit false

universe u v w

structure Dict {κ : Type u} {ι : Type v} (key : κ → ι) (α : Type w) where
  rows : List (κ × α)
  nodup : (rows.map fun e => key e.1).Nodup

namespace Dict

variable {κ : Type u} {ι : Type v} [DecidableEq ι] {key : κ → ι} {α : Type w}

instance [DecidableEq κ] [DecidableEq α] : DecidableEq (Dict key α) := fun d e =>
  decidable_of_iff (d.rows = e.rows)
    ⟨fun h => by cases d; cases e; cases h; rfl, congrArg Dict.rows⟩

def empty : Dict key α := ⟨[], List.nodup_nil⟩

instance : Inhabited (Dict key α) := ⟨empty⟩

/-- The keys as they are stored. -/
def keys (d : Dict key α) : List κ := d.rows.map Prod.fst

def get (d : Dict key α) (k : κ) : Option α :=
  (d.rows.find? fun e => key e.1 = key k).map Prod.snd

/-- `d[k] = v`. -/
def set (d : Dict key α) (k : κ) (v : α) : Dict key α :=
  if h : key k ∈ d.rows.map fun e => key e.1 then
    { rows := d.rows.map fun e => if key e.1 = key k then (e.1, v) else e
      nodup := by
        have hsame : ((d.rows.map fun e => if key e.1 = key k then (e.1, v) else e).map
            fun e => key e.1) = d.rows.map fun e => key e.1 := by
          rw [List.map_map]
          apply List.map_congr_left
          intro e _
          simp only [Function.comp_apply]
          split <;> rfl
        rw [hsame]
        exact d.nodup }
  else
    { rows := d.rows ++ [(k, v)]
      nodup := by
        rw [List.map_append, List.nodup_append]
        refine ⟨d.nodup, by simp, ?_⟩
        intro a ha b hb heq
        rw [List.map_singleton, List.mem_singleton] at hb
        rw [heq, hb] at ha
        exact h ha }

/-- `d.pop(k, None)`. -/
def pop (d : Dict key α) (k : κ) : Dict key α where
  rows := d.rows.filter fun e => key e.1 ≠ key k
  nodup := d.nodup.sublist (List.filter_sublist.map _)

@[simp] theorem get_empty (k : κ) : (empty : Dict key α).get k = none := rfl

/-- What is found is the one row under the key. -/
theorem get_eq_some {d : Dict key α} {k : κ} {v : α} :
    d.get k = some v ↔ ∃ k', (k', v) ∈ d.rows ∧ key k' = key k := by
  unfold get
  constructor
  · intro h
    obtain ⟨e, he, rfl⟩ := Option.map_eq_some_iff.mp h
    exact ⟨e.1, List.mem_of_find?_eq_some he, by simpa using List.find?_some he⟩
  · rintro ⟨k', hmem, hkey⟩
    cases hfind : d.rows.find? fun e => key e.1 = key k with
    | none => exact absurd hkey (by simpa using List.find?_eq_none.mp hfind _ hmem)
    | some e =>
      have hek : key e.1 = key k := by simpa using List.find?_some hfind
      have heq : e = (k', v) := List.inj_on_of_nodup_map d.nodup
        (List.mem_of_find?_eq_some hfind) hmem (hek.trans hkey.symm)
      rw [heq]
      rfl

theorem get_congr (d : Dict key α) {k k' : κ} (h : key k = key k') : d.get k = d.get k' := by
  unfold get
  rw [h]

theorem get_eq_none {d : Dict key α} {k : κ} :
    d.get k = none ↔ ∀ k' ∈ d.keys, key k' ≠ key k := by
  simp only [get, keys, Option.map_eq_none_iff, List.find?_eq_none, List.mem_map,
    decide_eq_true_eq]
  constructor
  · rintro h _ ⟨e, he, rfl⟩
    exact h e he
  · intro h e he
    exact h e.1 ⟨e, he, rfl⟩

/-- Two dictionaries find the same rows under the same stored keys. -/
theorem mem_keys_of_get {d : Dict key α} {k : κ} {v : α} (h : d.get k = some v) :
    ∃ k' ∈ d.keys, key k' = key k := by
  obtain ⟨k', hmem, hkey⟩ := get_eq_some.mp h
  exact ⟨k', List.mem_map_of_mem hmem, hkey⟩

theorem get_of_mem_keys {d : Dict key α} {k : κ} (h : k ∈ d.keys) : ∃ v, d.get k = some v := by
  obtain ⟨e, he, rfl⟩ := List.mem_map.mp h
  exact ⟨e.2, get_eq_some.mpr ⟨e.1, he, rfl⟩⟩

omit [DecidableEq ι] in
theorem keys_nodup (d : Dict key α) : d.keys.Nodup := by
  apply List.Nodup.of_map key
  rw [keys, List.map_map]
  exact d.nodup

theorem get_set_self (d : Dict key α) (k : κ) (v : α) : (d.set k v).get k = some v := by
  rw [get_eq_some]
  unfold set
  split
  · rename_i h
    obtain ⟨e, he, hek⟩ := List.mem_map.mp h
    exact ⟨e.1, List.mem_map.mpr ⟨e, he, by rw [if_pos hek]⟩, hek⟩
  · exact ⟨k, by simp, rfl⟩

theorem get_set_other (d : Dict key α) {k k' : κ} (v : α) (h : key k' ≠ key k) :
    (d.set k v).get k' = d.get k' := by
  apply Option.ext
  intro x
  simp only [get_eq_some]
  unfold set
  split
  · constructor
    · rintro ⟨q, hq, hqk⟩
      obtain ⟨e, he, heq⟩ := List.mem_map.mp hq
      split at heq
      · rename_i hek
        have hfst : e.1 = q := congrArg Prod.fst heq
        exact absurd (hqk.symm.trans (hfst ▸ hek)) h
      · exact ⟨q, heq ▸ he, hqk⟩
    · rintro ⟨q, hq, hqk⟩
      refine ⟨q, List.mem_map.mpr ⟨(q, x), hq, ?_⟩, hqk⟩
      rw [if_neg]
      exact fun hek => h (hqk.symm.trans hek)
  · simp only [List.mem_append, List.mem_singleton, Prod.mk.injEq]
    constructor
    · rintro ⟨q, hq | ⟨rfl, _⟩, hqk⟩
      · exact ⟨q, hq, hqk⟩
      · exact absurd hqk.symm h
    · rintro ⟨q, hq, hqk⟩
      exact ⟨q, Or.inl hq, hqk⟩

theorem get_set (d : Dict key α) (k k' : κ) (v : α) :
    (d.set k v).get k' = if key k' = key k then some v else d.get k' := by
  split
  · rename_i h
    rw [get_congr _ h, get_set_self]
  · rename_i h
    exact get_set_other d v h

/-- A stored key keeps its spelling, a new one is stored as it is given. -/
theorem mem_keys_set {d : Dict key α} {k q : κ} {v : α} :
    q ∈ (d.set k v).keys ↔ q ∈ d.keys ∨ (q = k ∧ d.get k = none) := by
  unfold set keys
  split
  · rename_i hin
    obtain ⟨e, he, hkey⟩ := List.mem_map.mp hin
    have hsome : d.get k ≠ none := by
      intro hnone
      exact get_eq_none.mp hnone e.1 (List.mem_map_of_mem he) hkey
    have hsame : (d.rows.map fun e => if key e.1 = key k then (e.1, v) else e).map Prod.fst =
        d.rows.map Prod.fst := by
      rw [List.map_map]
      refine List.map_congr_left fun e _ => ?_
      simp only [Function.comp_apply]
      split <;> rfl
    dsimp only
    rw [hsame]
    exact ⟨Or.inl, fun h => h.resolve_right fun hno => hsome hno.2⟩
  · rename_i hout
    have hnone : d.get k = none := by
      rw [get_eq_none]
      intro q hq hkey
      obtain ⟨e, he, rfl⟩ := List.mem_map.mp hq
      exact hout (List.mem_map.mpr ⟨e, he, hkey⟩)
    rw [List.map_append, List.map_singleton, List.mem_append, List.mem_singleton]
    exact or_congr_right ⟨fun h => ⟨h, hnone⟩, And.left⟩

theorem mem_keys_pop {d : Dict key α} {k q : κ} :
    q ∈ (d.pop k).keys ↔ q ∈ d.keys ∧ key q ≠ key k := by
  simp only [pop, keys, List.mem_map, List.mem_filter, decide_eq_true_eq]
  constructor
  · rintro ⟨e, ⟨he, hkey⟩, rfl⟩
    exact ⟨⟨e, he, rfl⟩, hkey⟩
  · rintro ⟨⟨e, he, rfl⟩, hkey⟩
    exact ⟨e, ⟨he, hkey⟩, rfl⟩

theorem get_pop_self (d : Dict key α) (k : κ) : (d.pop k).get k = none := by
  rw [get_eq_none]
  intro k' hk'
  obtain ⟨e, he, rfl⟩ := List.mem_map.mp hk'
  simpa using (List.mem_filter.mp he).2

theorem get_pop_other (d : Dict key α) {k k' : κ} (h : key k' ≠ key k) :
    (d.pop k).get k' = d.get k' := by
  apply Option.ext
  intro x
  simp only [get_eq_some, pop, List.mem_filter]
  constructor
  · rintro ⟨q, ⟨hq, _⟩, hqk⟩
    exact ⟨q, hq, hqk⟩
  · rintro ⟨q, hq, hqk⟩
    exact ⟨q, ⟨hq, by simpa [hqk] using h⟩, hqk⟩

theorem get_pop (d : Dict key α) (k k' : κ) :
    (d.pop k).get k' = if key k' = key k then none else d.get k' := by
  split
  · rename_i h
    rw [get_congr _ h, get_pop_self]
  · rename_i h
    exact get_pop_other d h

/-- A dictionary comprehension over the items. -/
def mapValues {β : Type*} (d : Dict key α) (f : α → β) : Dict key β where
  rows := d.rows.map fun e => (e.1, f e.2)
  nodup := by
    rw [List.map_map]
    exact d.nodup

omit [DecidableEq ι] in
theorem keys_mapValues {β : Type*} (d : Dict key α) (f : α → β) : (d.mapValues f).keys = d.keys := by
  simp only [keys, mapValues, List.map_map, Function.comp_def]

theorem get_mapValues {β : Type*} (d : Dict key α) (f : α → β) (k : κ) :
    (d.mapValues f).get k = (d.get k).map f := by
  simp only [get, mapValues, List.find?_map, Option.map_map, Function.comp_def]

end Dict

/-- Storing items under distinct new keys one after the other. -/
theorem get_foldl_set {α β : Type} (f : α → β) : ∀ (items : List (String × α))
    (start : Dict (id : String → String) β) (path : String) (w : β), (items.map Prod.fst).Nodup →
    ((items.foldl (fun dict item => dict.set item.1 (f item.2)) start).get path = some w ↔
      (∃ v, (path, v) ∈ items ∧ f v = w) ∨ (path ∉ items.map Prod.fst ∧ start.get path = some w))
  | [], start, path, w, _ => by simp
  | (key, value) :: rest, start, path, w, hnodup => by
    obtain ⟨hout, hnodup⟩ : key ∉ rest.map Prod.fst ∧ (rest.map Prod.fst).Nodup :=
      List.nodup_cons.mp hnodup
    rw [List.foldl_cons, get_foldl_set f rest _ path w hnodup, Dict.get_set]
    by_cases hkey : path = key
    · subst hkey
      have hno : ∀ v, (path, v) ∉ rest := fun v hv => hout (List.mem_map_of_mem (f := Prod.fst) hv)
      simp [hno]
    · simp [hkey]

end Keyed
