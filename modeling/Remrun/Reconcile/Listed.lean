import Remrun.Reconcile.Blessing

/-!
# What a tree lists

On a case-insensitive side a path opens what is stored under any spelling of it, while a walk of the
tree meets the stored spelling only. A manifest is a function of what the walk meets.
-/

namespace Remrun.Reconcile

open Keyed Effect
set_option autoImplicit false

section Listed
variable {key : String → String} {root root₀ root' : Root key} {rel name : String}

/-- What the walk of the tree meets under exactly this name. -/
def Root.listed (root : Root key) (rel : String) : Option Node :=
  if root.Lists rel then root.get rel else none

theorem Root.get_of_lists (h : root.Lists rel) : ∃ node, root.get rel = some node := by
  cases root with
  | missing => exact h.elim
  | blocked => exact h.elim
  | directory files => exact Dict.get_of_mem_keys h

/-- One name of a file is listed. -/
theorem Root.lists_unique (h : root.Lists rel) (h' : root.Lists name) (hkey : key rel = key name) :
    rel = name := by
  cases root with
  | missing => exact h.elim
  | blocked => exact h.elim
  | directory files => exact distinct_keys files rel h name h' hkey

theorem Root.lists_of_get {node : Node} (h : root.get rel = some node) :
    ∃ q, root.Lists q ∧ key q = key rel := by
  cases root with
  | missing => cases h
  | blocked => cases h
  | directory files => exact Dict.mem_keys_of_get h

theorem Root.listed_eq_some {node : Node} :
    root.listed rel = some node ↔ root.Lists rel ∧ root.get rel = some node := by
  unfold Root.listed
  split
  · rename_i h
    exact ⟨fun hget => ⟨h, hget⟩, And.right⟩
  · rename_i h
    exact ⟨fun hnone => (nomatch hnone), fun hboth => absurd hboth.1 h⟩

theorem Root.listed_ne_none : root.listed rel ≠ none ↔ root.Lists rel := by
  rw [Option.ne_none_iff_exists']
  constructor
  · rintro ⟨node, h⟩
    exact (Root.listed_eq_some.mp h).1
  · intro h
    obtain ⟨node, hget⟩ := Root.get_of_lists h
    exact ⟨node, Root.listed_eq_some.mpr ⟨h, hget⟩⟩

theorem Root.get_of_listed {node : Node} (h : root.listed rel = some node) :
    root.get rel = some node := (Root.listed_eq_some.mp h).2

/-- What a path opens is what is listed under one of its spellings. -/
theorem Root.get_eq_some {node : Node} :
    root.get rel = some node ↔ ∃ q, key q = key rel ∧ root.listed q = some node := by
  constructor
  · intro h
    obtain ⟨q, hq, hkey⟩ := Root.lists_of_get h
    exact ⟨q, hkey, Root.listed_eq_some.mpr ⟨hq, (Root.get_congr root hkey).trans h⟩⟩
  · rintro ⟨q, hkey, hq⟩
    exact (Root.get_congr root hkey).symm.trans (Root.get_of_listed hq)

theorem Root.get_eq_of_listed
    (h : ∀ q, key q = key rel → root'.listed q = root.listed q) : root'.get rel = root.get rel := by
  apply Option.ext
  intro node
  rw [Root.get_eq_some, Root.get_eq_some]
  refine exists_congr fun q => and_congr_right fun hkey => ?_
  rw [h q hkey]

/-! ## Replacements -/

theorem Root.Replaced.listed_other {node : Option Node} (h : root.Replaced root' name node)
    (hkey : key rel ≠ key name) : root'.listed rel = root.listed rel := by
  unfold Root.listed
  rw [h.others rel hkey]
  simp only [h.names rel hkey]

/-- A write to a name that no other spelling occupies. -/
theorem Root.Replaced.listed_put {node : Node} (h : root.Replaced root' name (some node))
    (hown : ∀ q, root.Lists q → key q = key name → q = name) (rel : String) :
    root'.listed rel = if rel = name then some node else root.listed rel := by
  have hlists : root'.Lists name := h.spelled rfl hown
  split
  · rename_i heq
    subst heq
    exact Root.listed_eq_some.mpr ⟨hlists, h.self⟩
  · rename_i hne
    by_cases hkey : key rel = key name
    · have hnot : ¬ root.Lists rel := fun hin => hne (hown rel hin hkey)
      have hnot' : ¬ root'.Lists rel := fun hin => hne (Root.lists_unique hin hlists hkey)
      rw [Root.listed, Root.listed, if_neg hnot, if_neg hnot']
    · exact h.listed_other hkey

theorem Root.Replaced.listed_remove (h : root.Replaced root' name none) (hlists : root.Lists name)
    (rel : String) : root'.listed rel = if rel = name then none else root.listed rel := by
  by_cases hkey : key rel = key name
  · have hnone : root'.listed rel = none := by
      unfold Root.listed
      rw [Root.get_congr root' hkey, h.self]
      exact ite_self _
    rw [hnone]
    split
    · rfl
    · rename_i hne
      rw [Root.listed, if_neg fun hin => hne (Root.lists_unique hin hlists hkey)]
  · rw [h.listed_other hkey, if_neg fun heq => hkey (congrArg key heq)]

/-- A write keeps the names that are listed. -/
theorem Root.lists_put {node : Node} (h : root.put name node = .ok root') (hin : root.Lists rel) :
    root'.Lists rel := by
  cases root with
  | missing => exact hin.elim
  | blocked => exact hin.elim
  | directory files =>
    rw [Root.put, putNode] at h
    split at h
    · cases h
    · cases h
      exact Dict.mem_keys_set.mpr (Or.inl hin)

theorem Root.remove_replaced (h : root.remove name = .ok root') (hlists : root.Lists name) :
    root.Replaced root' name none := by
  have hdir : ∃ files, root = .directory files := by
    cases root with
    | missing => exact hlists.elim
    | blocked => exact hlists.elim
    | directory files => exact ⟨files, rfl⟩
  have hfree : root.get name ≠ some .other := by
    intro hother
    rw [Root.remove_other hdir hother] at h
    cases h
  obtain ⟨removed, hremove, hreplaced⟩ := Root.remove_spec hdir hfree
  rw [hremove] at h
  exact Except.ok.inj h ▸ hreplaced

/-! ## Loops of writes -/

/-- The names that were removed are listed no more. -/
def Root.Emptied (root₀ root : Root key) (done : List String) : Prop :=
  ∀ rel, root.listed rel = if rel ∈ done then none else root₀.listed rel

theorem Root.Emptied.remove {done : List String} (h : root₀.Emptied root done)
    (hremove : root.remove name = .ok root') (hlists : root₀.Lists name) (hnew : name ∉ done) :
    root₀.Emptied root' (done ++ [name]) := by
  have hnow : root.Lists name := by
    rw [← Root.listed_ne_none, h name, if_neg hnew]
    exact Root.listed_ne_none.mpr hlists
  intro rel
  rw [(Root.remove_replaced hremove hnow).listed_remove hnow, h rel]
  by_cases heq : rel = name
  · subst heq
    rw [if_pos rfl, if_pos (List.mem_append_right _ List.mem_cons_self)]
  · simp only [heq, if_false, List.mem_append, List.mem_singleton, or_false]

/-- The names that were written list what the source had; the others are as they were. -/
structure Root.Filled (root₀ root : Root key) (source : String → Option Bytes)
    (done : List String) : Prop where
  written : ∀ rel ∈ done, ∃ bytes mtimeNs mode,
    root.listed rel = some (.file bytes mtimeNs mode) ∧ source rel = some bytes
  others : ∀ rel, rel ∉ done → root.listed rel = root₀.listed rel

theorem Root.Filled.put {source : String → Option Bytes} {done : List String} {bytes : Bytes}
    {mtimeNs : Int} {mode : Nat} (h : root₀.Filled root source done)
    (hput : root.put name (.file bytes mtimeNs mode) = .ok root')
    (hsource : source name = some bytes)
    (hown : ∀ q, root₀.Lists q → key q = key name → q = name)
    (hdone : ∀ q ∈ done, key q = key name → q = name) :
    root₀.Filled root' source (done ++ [name]) := by
  have hspelled : ∀ q, root.Lists q → key q = key name → q = name := by
    intro q hq hkey
    by_cases hin : q ∈ done
    · exact hdone q hin hkey
    · refine hown q ?_ hkey
      rw [← Root.listed_ne_none, ← h.others q hin]
      exact Root.listed_ne_none.mpr hq
  have hlisted := (Root.put_replaced hput).listed_put hspelled
  constructor
  · intro rel hrel
    by_cases heq : rel = name
    · subst heq
      exact ⟨bytes, mtimeNs, mode, by rw [hlisted, if_pos rfl], hsource⟩
    · have hold : rel ∈ done := by
        rcases List.mem_append.mp hrel with hrel | hrel
        · exact hrel
        · exact absurd (List.mem_singleton.mp hrel) heq
      obtain ⟨b, t, m, hfile, hsrc⟩ := h.written rel hold
      exact ⟨b, t, m, by rw [hlisted, if_neg heq, hfile], hsrc⟩
  · intro rel hrel
    rw [List.mem_append, List.mem_singleton, not_or] at hrel
    rw [hlisted, if_neg hrel.2, h.others rel hrel.1]

end Listed

/-! ## Manifests -/

section Manifests
variable {P : Platform} {s : Surface} {side : Side} {key : String → String} {root : Root key}
  {rel : String}

theorem get_manifestOf_listed (s : Surface) (side : Side) (root : Root key) (rel : String) :
    (manifestOf P s side root).get rel =
      if s.covers P rel = true then entryOf P s side rel (root.listed rel) else none := by
  rw [get_manifestOf, Root.listed]
  by_cases hcovers : s.covers P rel = true
  · by_cases hlists : root.Lists rel
    · rw [if_pos ⟨hlists, hcovers⟩, if_pos hcovers, if_pos hlists]
    · rw [if_neg fun h => hlists h.1, if_pos hcovers, if_neg hlists]
      rfl
  · rw [if_neg fun h => hcovers h.2, if_neg hcovers]

/-- What a manifest has is a listed file of the surface. -/
theorem listed_of_manifestOf {entry : FileEntry}
    (h : (manifestOf P s side root).get rel = some entry) :
    s.covers P rel = true ∧ ∃ bytes mtimeNs mode,
      root.listed rel = some (.file bytes mtimeNs mode) ∧
      entryOf P s side rel (some (.file bytes mtimeNs mode)) = some entry := by
  rw [get_manifestOf_listed] at h
  split at h
  · rename_i hcovers
    refine ⟨hcovers, ?_⟩
    cases hlisted : root.listed rel with
    | none =>
      rw [hlisted] at h
      cases h
    | some node =>
      rw [hlisted] at h
      cases node with
      | file bytes mtimeNs mode => exact ⟨bytes, mtimeNs, mode, rfl, h⟩
      | link target => cases h
      | other => cases h
  · cases h

theorem manifestOf_of_listed {bytes : Bytes} {mtimeNs : Int} {mode : Nat}
    (hcovers : s.covers P rel = true) (h : root.listed rel = some (.file bytes mtimeNs mode)) :
    (manifestOf P s side root).get rel =
      entryOf P s side rel (some (.file bytes mtimeNs mode)) := by
  rw [get_manifestOf_listed, if_pos hcovers, h]

theorem manifestOf_congr {root' : Root key} (h : root'.listed rel = root.listed rel) :
    (manifestOf P s side root').get rel = (manifestOf P s side root).get rel := by
  rw [get_manifestOf_listed, get_manifestOf_listed, h]

end Manifests

end Remrun.Reconcile
