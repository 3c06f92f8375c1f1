import Mathlib.Data.List.Infix

/-!
# Searching and removing

The last occurrence of a pattern in a list, and the list without the pattern's occurrences, found
from left to right with no overlap. Where a list ends in a record that no occurrence reaches into,
both leave the record as it is.
-/

namespace Search

set_option autoImplicit false

universe u

variable {α : Type u} [DecidableEq α]

/-- What comes before and after the last occurrence of `pattern`. -/
def rfind (pattern : List α) : List α → Option (List α × List α)
  | [] => if pattern = [] then some ([], []) else none
  | x :: xs =>
    match rfind pattern xs with
    | some (before, after) => some (x :: before, after)
    | none => if pattern <+: x :: xs then some ([], (x :: xs).drop pattern.length) else none

/-- The list without the occurrences of `pattern`; the first `skip` items are of one that has been
found. -/
def removeFrom (pattern : List α) : Nat → List α → List α
  | _, [] => []
  | 0, x :: xs =>
    if pattern <+: x :: xs then removeFrom pattern (pattern.length - 1) xs
    else x :: removeFrom pattern 0 xs
  | skip + 1, _ :: xs => removeFrom pattern skip xs

def remove (pattern xs : List α) : List α := removeFrom pattern 0 xs

variable {pattern xs ys : List α}

/-! ## The last occurrence -/

theorem rfind_eq_none (h : ¬ pattern <:+: xs) : rfind pattern xs = none := by
  induction xs with
  | nil =>
    have hne : pattern ≠ [] := fun heq => h (heq ▸ List.infix_rfl)
    rw [rfind, if_neg hne]
  | cons x xs ih =>
    have htail : ¬ pattern <:+: xs := fun hin => h (hin.trans (List.suffix_cons x xs).isInfix)
    have hhead : ¬ pattern <+: x :: xs := fun hpre => h hpre.isInfix
    rw [rfind, ih htail]
    exact if_neg hhead

/-- An occurrence that no other follows is the last one. -/
theorem rfind_append {mark : α} {rest after : List α} (before : List α)
    (h : ¬ mark :: rest <:+: rest ++ after) :
    rfind (mark :: rest) (before ++ (mark :: rest ++ after)) = some (before, after) := by
  induction before with
  | nil =>
    rw [List.nil_append, List.cons_append, rfind, rfind_eq_none h]
    have hpre : mark :: rest <+: mark :: (rest ++ after) := List.prefix_append _ _
    simp only [if_pos hpre, List.length_cons, List.drop_succ_cons, List.drop_left]
  | cons x before ih => rw [List.cons_append, rfind, ih]

omit [DecidableEq α] in
/-- An occurrence begins at the pattern's first item. -/
theorem infix_append_iff {mark : α} {rest : List α} (h : mark ∉ xs) :
    mark :: rest <:+: xs ++ ys ↔ mark :: rest <:+: ys := by
  induction xs with
  | nil => rfl
  | cons x xs ih =>
    have hx : mark ≠ x := List.ne_of_not_mem_cons h
    have hxs : mark ∉ xs := List.not_mem_of_not_mem_cons h
    rw [List.cons_append, List.infix_cons_iff, ih hxs]
    constructor
    · rintro (hpre | hin)
      · exact absurd (List.cons_prefix_cons.mp hpre).1 hx
      · exact hin
    · exact Or.inr

/-! ## Removing -/

theorem removeFrom_of_not_infix (h : ¬ pattern <:+: xs) : removeFrom pattern 0 xs = xs := by
  induction xs with
  | nil => rfl
  | cons x xs ih =>
    have htail : ¬ pattern <:+: xs := fun hin => h (hin.trans (List.suffix_cons x xs).isInfix)
    have hhead : ¬ pattern <+: x :: xs := fun hpre => h hpre.isInfix
    rw [removeFrom, if_neg hhead, ih htail]

section Apart

omit [DecidableEq α]

/-- No occurrence begins in `xs` and ends in `ys`. -/
def Apart (pattern xs ys : List α) : Prop :=
  ∀ s p, pattern = s ++ p → s ≠ [] → p ≠ [] → p <+: ys → ¬ s <:+ xs

theorem Apart.tail {x : α} (h : Apart pattern (x :: xs) ys) : Apart pattern xs ys :=
  fun s p heq hs hp hpre hsuf => h s p heq hs hp hpre (hsuf.trans (List.suffix_cons x xs))

/-- An occurrence that begins in `xs` ends there. -/
theorem Apart.prefix_left (h : Apart pattern xs ys) (hxs : xs ≠ []) (hpre : pattern <+: xs ++ ys) :
    pattern <+: xs := by
  obtain ⟨t, ht⟩ := hpre
  rcases List.append_eq_append_iff.mp ht with ⟨as, rfl, -⟩ | ⟨p, rfl, rfl⟩
  · exact List.prefix_append _ _
  · rcases p with _ | ⟨y, p⟩
    · rw [List.append_nil]
    · exact absurd List.suffix_rfl
        (h xs (y :: p) rfl hxs (List.cons_ne_nil y p) (List.prefix_append _ _))

/-- An occurrence of a pattern whose first item comes again only at its end reaches into what
begins with that item only with its last one. -/
theorem apart_of_delimited {mark : α} {body : List α} (hmark : mark ∉ body)
    (hys : ys.head? = some mark) (hxs : ¬ mark :: body <:+ xs) :
    Apart (mark :: (body ++ [mark])) xs ys := by
  intro s p heq hs hp hpre hsuf
  obtain ⟨a, s, rfl⟩ := List.exists_cons_of_ne_nil hs
  obtain ⟨b, p, rfl⟩ := List.exists_cons_of_ne_nil hp
  obtain ⟨rfl, hbody⟩ := List.cons.inj heq
  obtain rfl : b = mark := by
    obtain ⟨rest, rfl⟩ := hpre
    simpa using hys
  rcases List.append_eq_append_iff.mp hbody with ⟨as, rfl, has⟩ | ⟨bs, rfl, hbs⟩
  · rcases as with _ | ⟨c, as⟩
    · rw [List.append_nil] at hsuf
      exact hxs hsuf
    · have hlen := congrArg List.length has
      simp at hlen
  · rcases bs with _ | ⟨c, bs⟩
    · rw [List.append_nil] at hxs
      exact hxs hsuf
    · obtain ⟨rfl, -⟩ := List.cons.inj hbs
      exact hmark (List.mem_append_right s List.mem_cons_self)

end Apart

theorem removeFrom_append (hys : ¬ pattern <:+: ys) (hxs : Apart pattern xs ys) {skip : Nat}
    (hskip : skip ≤ xs.length) :
    removeFrom pattern skip (xs ++ ys) = removeFrom pattern skip xs ++ ys := by
  induction xs generalizing skip with
  | nil =>
    obtain rfl : skip = 0 := Nat.le_zero.mp hskip
    rw [List.nil_append, removeFrom_of_not_infix hys]
    rfl
  | cons x xs ih =>
    rcases skip with _ | skip
    · rw [List.cons_append, removeFrom, removeFrom]
      by_cases hpre : pattern <+: x :: xs
      · have hlen : pattern.length - 1 ≤ xs.length := by
          have hle := hpre.length_le
          rw [List.length_cons] at hle
          omega
        have hwhole : pattern <+: x :: (xs ++ ys) := hpre.trans (List.prefix_append (x :: xs) ys)
        rw [if_pos hpre, if_pos hwhole, ih hxs.tail hlen]
      · have hwhole : ¬ pattern <+: x :: (xs ++ ys) := fun h =>
          hpre (hxs.prefix_left (List.cons_ne_nil x xs) h)
        rw [if_neg hpre, if_neg hwhole, ih hxs.tail (Nat.zero_le _), List.cons_append]
    · rw [List.cons_append, removeFrom, removeFrom,
        ih hxs.tail (Nat.le_of_succ_le_succ hskip)]

/-- What no occurrence reaches into stays. -/
theorem remove_append (hys : ¬ pattern <:+: ys) (hxs : Apart pattern xs ys) :
    remove pattern (xs ++ ys) = remove pattern xs ++ ys :=
  removeFrom_append hys hxs (Nat.zero_le _)

end Search
