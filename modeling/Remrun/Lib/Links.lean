import Mathlib.Data.List.Infix

/-!
# Trees with symbolic links

A tree is what stands at each path from its root. A path that is followed goes through the links
that it meets, at most so many. A path that meets none leads to itself, and where another path
leads to meets none.
-/

namespace Links

set_option autoImplicit false

universe u v

variable {N : Type u} {B : Type v}

/-- The names from the root. -/
abbrev Path (N : Type u) := List N

inductive Step (N : Type u) where
  | into (name : N)
  | up
  deriving DecidableEq, Repr

structure Target (N : Type u) where
  absolute : Bool
  steps : List (Step N)

inductive Node (N : Type u) (B : Type v) where
  | file (content : B)
  | dir
  | link (target : Target N)

def Node.isLink : Node N B → Bool
  | .link _ => true
  | _ => false

def Node.isDir : Node N B → Bool
  | .dir => true
  | _ => false

abbrev Tree (N : Type u) (B : Type v) := Path N → Option (Node N B)

variable (t : Tree N B)

/-- Where the steps lead from a place, `follow` going on at a link. -/
def walkSteps (follow : Path N → List (Step N) → Option (Path N)) :
    Path N → List (Step N) → Option (Path N)
  | place, [] => some place
  | place, .up :: rest => walkSteps follow place.dropLast rest
  | place, .into name :: rest =>
    match t (place ++ [name]) with
    | some (.link target) => follow (if target.absolute then [] else place) (target.steps ++ rest)
    | _ => walkSteps follow (place ++ [name]) rest

/-- Where the steps lead from a place, through at most so many links. -/
def walk : Nat → Path N → List (Step N) → Option (Path N)
  | 0 => walkSteps t fun _ _ => none
  | links + 1 => walkSteps t (walk links)

variable (links : Nat)

/-- The entry that a path from the root names: its last link is not followed. -/
def spot (path : List (Step N)) : Option (Path N) :=
  match path.getLast? with
  | some (.into name) => (walk t links [] path.dropLast).map fun place => place ++ [name]
  | _ => walk t links [] path

/-- What stands at the end of a path. -/
def stat (path : List (Step N)) : Option (Node N B) := (walk t links [] path).bind t

/-- What the entry is that a path names. -/
def lstat (path : List (Step N)) : Option (Node N B) := (spot t links path).bind t

def isLink (path : List (Step N)) : Bool := (lstat t links path).any Node.isLink

/-! ## Plain paths -/

/-- No entry on the way is a link. -/
def Plain (path : Path N) : Prop :=
  ∀ q, q <+: path → q ≠ [] → ∀ target, t q ≠ some (.link target)

variable {t links}

theorem Plain.mono {path q : Path N} (h : Plain t path) (hq : q <+: path) : Plain t q :=
  fun p hp => h p (hp.trans hq)

theorem plain_nil : Plain t [] := fun _ hq hne => absurd (List.prefix_nil.mp hq) hne

theorem plain_append_singleton {path : Path N} {name : N} (h : Plain t path)
    (hlink : ∀ target, t (path ++ [name]) ≠ some (.link target)) : Plain t (path ++ [name]) := by
  intro q hq hne
  rcases List.prefix_concat_iff.mp hq with rfl | hq
  · exact hlink
  · exact h q hq hne

theorem walkSteps_plain {follow : Path N → List (Step N) → Option (Path N)} {names : List N} :
    ∀ {place : Path N}, Plain t (place ++ names) →
      walkSteps t follow place (names.map .into) = some (place ++ names) := by
  induction names with
  | nil =>
    intro place _
    rw [List.append_nil]
    rfl
  | cons name rest ih =>
    intro place h
    have hsplit : place ++ name :: rest = place ++ [name] ++ rest := by simp
    rw [hsplit] at h ⊢
    have hlink := h (place ++ [name]) (List.prefix_append _ _) (by simp)
    rw [List.map_cons, walkSteps]
    split
    · rename_i target htarget
      exact absurd htarget (hlink target)
    · exact ih h

/-- A path without links leads to itself. -/
theorem walk_plain {path : Path N} (h : Plain t path) :
    walk t links [] (path.map .into) = some path := by
  cases links <;> exact walkSteps_plain h

theorem plain_of_walkSteps {follow : Path N → List (Step N) → Option (Path N)} {dest : Path N}
    (hfollow : ∀ place steps, Plain t place → follow place steps = some dest → Plain t dest) :
    ∀ (steps : List (Step N)) {place : Path N}, Plain t place →
      walkSteps t follow place steps = some dest → Plain t dest := by
  intro steps
  induction steps with
  | nil =>
    intro place hplace h
    exact Option.some.inj h ▸ hplace
  | cons step rest ih =>
    intro place hplace h
    cases step with
    | up => exact ih (hplace.mono (List.dropLast_prefix _)) h
    | into name =>
      rw [walkSteps] at h
      split at h
      · refine hfollow _ _ ?_ h
        split
        · exact plain_nil
        · exact hplace
      · rename_i hno
        exact ih (plain_append_singleton hplace hno) h

theorem plain_of_walk {dest : Path N} : ∀ {links : Nat} {place : Path N} {steps : List (Step N)},
    Plain t place → walk t links place steps = some dest → Plain t dest := by
  intro links
  induction links with
  | zero =>
    intro place steps hplace h
    refine plain_of_walkSteps (fun _ _ _ hnone => ?_) steps hplace h
    cases hnone
  | succ links ih => exact fun hplace h => plain_of_walkSteps (fun _ _ hp => ih hp) _ hplace h

/-- Below a path without links an entry is where it seems to be. -/
theorem spot_plain {path : Path N} (h : Plain t path.dropLast) :
    spot t links (path.map .into) = some path := by
  rcases List.eq_nil_or_concat path with rfl | ⟨dir, name, rfl⟩
  · exact walk_plain plain_nil
  · rw [List.concat_eq_append] at h ⊢
    rw [List.dropLast_concat] at h
    rw [spot, List.map_append, List.map_singleton, List.getLast?_concat]
    simp only [List.dropLast_concat, walk_plain h, Option.map_some]

theorem lstat_plain {path : Path N} (h : Plain t path.dropLast) :
    lstat t links (path.map .into) = t path := by
  rw [lstat, spot_plain h, Option.bind_some]

/-- An entry below a path without links that is no link itself is what it leads to. -/
theorem plain_of_isLink {path : Path N} (h : Plain t path.dropLast)
    (hlink : isLink t links (path.map .into) = false) : Plain t path := by
  rcases List.eq_nil_or_concat path with rfl | ⟨dir, name, rfl⟩
  · exact plain_nil
  · rw [isLink, lstat_plain h] at hlink
    rw [List.concat_eq_append] at h hlink ⊢
    rw [List.dropLast_concat] at h
    refine plain_append_singleton h fun target htarget => ?_
    rw [htarget] at hlink
    cases hlink

theorem stat_plain {path : Path N} (h : Plain t path) : stat t links (path.map .into) = t path := by
  rw [stat, walk_plain h, Option.bind_some]

/-! ## Adding to a tree -/

section Put
variable [DecidableEq N]

def Tree.put (t : Tree N B) (path : Path N) (node : Node N B) : Tree N B :=
  fun q => if q = path then some node else t q

theorem put_eq_some {path q : Path N} {node found : Node N B} (habsent : t path = none) :
    t.put path node q = some found ↔ t q = some found ∨ (q = path ∧ found = node) := by
  unfold Tree.put
  split
  · rename_i heq
    rw [heq, habsent]
    constructor
    · intro h
      exact Or.inr ⟨rfl, (Option.some.inj h).symm⟩
    · rintro (h | ⟨-, rfl⟩)
      · cases h
      · rfl
  · rename_i hne
    simp [hne]

theorem Plain.put {path q : Path N} {node : Node N B} (h : Plain t q) (hnode : node.isLink = false) :
    Plain (t.put path node) q := by
  intro p hp hne target
  unfold Tree.put
  split
  · intro heq
    rw [Option.some.inj heq] at hnode
    cases hnode
  · exact h p hp hne target

end Put

end Links
