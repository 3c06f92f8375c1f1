import Mathlib.Data.List.Basic
import Remrun.Lib.Dict

/-!
# Sync roots

`remote_spec_to_tree` maps an output root on a device back to a configured tree and a subpath.
Matching is on the folded spelling and the subpath is cut from the unfolded one, so the result is
right where the base and the part of the spec that it matches have the same number of characters.
-/

namespace Remrun.SyncRoots

open Keyed
set_option autoImplicit false

/-! ## Folding -/

/-- A case folding, character by character. No other character folds to a separator. -/
structure Folding where
  fold : Char → List Char
  fold_ne_nil : ∀ c, fold c ≠ []
  fold_slash : fold '/' = ['/']
  slash_of_mem : ∀ c, '/' ∈ fold c → c = '/'

/-- Exact comparison. -/
def Folding.exact : Folding where
  fold := fun c => [c]
  fold_ne_nil := fun _ => List.cons_ne_nil _ _
  fold_slash := rfl
  slash_of_mem := fun _ h => (List.mem_singleton.mp h).symm

def Folding.key (F : Folding) (text : List Char) : List Char := text.flatMap F.fold

section Keys
variable {F : Folding} {text left right base : List Char}

@[simp] theorem key_nil : F.key [] = [] := rfl

@[simp] theorem key_cons (c : Char) (text : List Char) : F.key (c :: text) = F.fold c ++ F.key text :=
  rfl

theorem key_append (left right : List Char) : F.key (left ++ right) = F.key left ++ F.key right :=
  List.flatMap_append

theorem key_slash (text : List Char) : F.key ('/' :: text) = '/' :: F.key text := by
  rw [key_cons, F.fold_slash]
  rfl

theorem key_eq_nil (h : F.key text = []) : text = [] := by
  cases text with
  | nil => rfl
  | cons c rest => exact absurd (List.append_eq_nil_iff.mp h).1 (F.fold_ne_nil c)

/-- A separator of the folded text is one of the text. -/
theorem exists_of_key {rest : List Char} (h : F.key text = left ++ '/' :: rest) :
    ∃ before after, text = before ++ '/' :: after ∧ F.key before = left ∧ F.key after = rest := by
  induction text generalizing left with
  | nil => exact absurd h.symm (List.append_ne_nil_of_right_ne_nil _ (List.cons_ne_nil _ _))
  | cons c text ih =>
    rw [key_cons] at h
    rcases List.append_eq_append_iff.mp h with ⟨gap, hleft, htext⟩ | ⟨gap, hfold, hrest⟩
    · obtain ⟨before, after, rfl, rfl, hafter⟩ := ih htext
      exact ⟨c :: before, after, rfl, hleft.symm, hafter⟩
    · cases gap with
      | nil =>
        obtain ⟨before, after, rfl, hbefore, hafter⟩ := ih (show F.key text = [] ++ '/' :: rest from hrest.symm)
        refine ⟨c :: before, after, rfl, ?_, hafter⟩
        rw [key_cons, hbefore, hfold, List.append_nil, List.append_nil]
      | cons d gap =>
        obtain ⟨rfl, hafter⟩ := List.cons.inj hrest
        have hc : c = '/' := F.slash_of_mem c (by rw [hfold]; exact List.mem_append_right _ (by simp))
        subst hc
        rw [F.fold_slash] at hfold
        cases left with
        | nil =>
          obtain ⟨-, rfl⟩ := List.cons.inj hfold
          exact ⟨[], text, rfl, rfl, hafter.symm⟩
        | cons e left => exact absurd (List.cons.inj hfold).2.symm (by simp)

/-- A tail with the same folded text is the same tail. -/
theorem length_eq_of_key_suffix (hsuffix : right.IsSuffix left ∨ left.IsSuffix right)
    (h : F.key left = F.key right) : left.length = right.length := by
  have hshort {x y : List Char} (hxy : x.IsSuffix y) (hkey : F.key y = F.key x) :
      y.length = x.length := by
    obtain ⟨gap, rfl⟩ := hxy
    rw [key_append] at hkey
    have hgap : gap = [] := key_eq_nil (List.append_left_eq_self.mp hkey)
    rw [hgap, List.nil_append]
  rcases hsuffix with hsuffix | hsuffix
  · exact hshort hsuffix h
  · exact (hshort hsuffix h.symm).symm

end Keys

/-! ## The reverse mapping -/

/-- A table of `[sync_roots]`: the bases by OS key. -/
abbrev Tree := Dict (id : String → String) String

abbrev Table := Dict (id : String → String) Tree

/-- `device_os_key`, from the operating system of the device. -/
def deviceOsKey (os : String) : String :=
  let os := os.toList.map Char.toLower
  if "win".toList.isPrefixOf os then "windows"
  else if "darwin".toList.isPrefixOf os || os.tails.any "mac".toList.isPrefixOf then "macos"
  else "default"

/-- `case_insensitive`. -/
def caseInsensitive (osKey : String) : Bool := osKey = "windows" || osKey = "macos"

/-- `_base_for`: an empty base counts as none. -/
def baseFor (tree : Tree) (osKey : String) : Option String :=
  match tree.get osKey with
  | some base => if base = "" then tree.get "default" else some base
  | none => tree.get "default"

/-- `.replace("\\", "/").rstrip("/")`. -/
def unified (text : String) : List Char :=
  ((text.toList.map fun c => if c = '\\' then '/' else c).reverse.dropWhile (· = '/')).reverse

/-- How a device with that operating system compares paths. -/
def Folding.on (casefold : Folding) (osKey : String) : Folding :=
  if caseInsensitive osKey then casefold else .exact

/-- The base of a tree for a device, if it is not empty. -/
def treeBase (osKey : String) (tree : Tree) : Option (List Char) :=
  match baseFor tree osKey with
  | some base => if base = "" then none else some (unified base)
  | none => none

/-- The subpath, if the base matches. -/
def matchBase (F : Folding) (spec base : List Char) : Option (List Char) :=
  if F.key spec = F.key base then some []
  else if (F.key base ++ ['/']).isPrefixOf (F.key spec) then some (spec.drop (base.length + 1))
  else none

/-- `(name, sub)` and `best_len`. -/
structure Best where
  name : String
  sub : List Char
  len : Nat
  deriving DecidableEq, Repr

/-- The loop body of `remote_spec_to_tree`. -/
def remoteSpecStep (F : Folding) (osKey : String) (spec : List Char) (best : Option Best)
    (row : String × Tree) : Option Best :=
  match treeBase osKey row.2 with
  | none => best
  | some base =>
    match matchBase F spec base with
    | none => best
    | some sub =>
      if best.all fun b => b.len < (F.key base).length then
        some ⟨row.1, sub, (F.key base).length⟩
      else best

/-- `remote_spec_to_tree`. -/
def remoteSpecToTree (casefold : Folding) (roots : Table) (os remoteSpec : String) :
    Option (String × List Char) :=
  let osKey := deviceOsKey os
  (roots.rows.foldl (remoteSpecStep (casefold.on osKey) osKey (unified remoteSpec)) none).map
    fun best => (best.name, best.sub)

/-! ## What the answer should be -/

section Spec
variable (F : Folding) (osKey : String) (spec : List Char) (roots : Table)

/-- The base is the spec, or an initial part of it that ends at a separator. -/
def PathPrefix (base : List Char) : Prop :=
  ∃ tail, F.key spec = F.key base ++ tail ∧ ∀ c ∈ tail.head?, c = '/'

/-- The path below a base. -/
def joined (base sub : List Char) : List Char := if sub = [] then base else base ++ '/' :: sub

/-- The answer inverts the mapping of trees and subpaths to paths. -/
def Inverts : Option (String × List Char) → Prop
  | some (name, sub) => ∃ tree base, roots.get name = some tree ∧ treeBase osKey tree = some base ∧
      F.key (joined base sub) = F.key spec ∧ (sub = [] ∨ ∃ before, spec = before ++ '/' :: sub) ∧
      ∀ row ∈ roots.rows, ∀ longer, treeBase osKey row.2 = some longer →
        PathPrefix F spec longer → (F.key longer).length ≤ (F.key base).length
  | none => ∀ row ∈ roots.rows, ∀ base, treeBase osKey row.2 = some base →
      ¬ PathPrefix F spec base

/-- The first tree among those with the longest matching base. -/
def FirstLongest (rows : List (String × Tree)) (row : String × Tree) (base : List Char) : Prop :=
  ∃ before after, rows = before ++ row :: after ∧ treeBase osKey row.2 = some base ∧
    PathPrefix F spec base ∧
    (∀ other ∈ before, ∀ base', treeBase osKey other.2 = some base' → PathPrefix F spec base' →
      (F.key base').length < (F.key base).length) ∧
    ∀ other ∈ after, ∀ base', treeBase osKey other.2 = some base' → PathPrefix F spec base' →
      (F.key base').length ≤ (F.key base).length

/-- The part of the spec that the winning base matches is as long as the base. -/
def Aligned : Prop :=
  ∀ row base, FirstLongest F osKey spec roots.rows row base → ∀ before after,
    spec = before ++ '/' :: after → F.key before = F.key base → before.length = base.length

end Spec

/-! ## One base -/

section Matching
variable {F : Folding} {osKey : String} {spec base sub : List Char}

theorem pathPrefix_iff : PathPrefix F spec base ↔
    F.key spec = F.key base ∨ ∃ rest, F.key spec = F.key base ++ '/' :: rest := by
  constructor
  · rintro ⟨tail, hkey, hhead⟩
    cases tail with
    | nil => exact Or.inl (hkey.trans (List.append_nil _))
    | cons c rest =>
      obtain rfl := hhead c rfl
      exact Or.inr ⟨rest, hkey⟩
  · rintro (hkey | ⟨rest, hkey⟩)
    · exact ⟨[], hkey.trans (List.append_nil _).symm, nofun⟩
    · exact ⟨'/' :: rest, hkey, fun c hc => (Option.some.inj hc).symm⟩

theorem isPrefixOf_slash :
    (F.key base ++ ['/']).isPrefixOf (F.key spec) = true ↔
      ∃ rest, F.key spec = F.key base ++ '/' :: rest := by
  rw [ List.isPrefixOf_iff_prefix]
  constructor
  · rintro ⟨rest, h⟩
    exact ⟨rest, by rw [← h, List.append_assoc]; rfl⟩
  · rintro ⟨rest, h⟩
    exact ⟨rest, by rw [h, List.append_assoc]; rfl⟩

theorem matchBase_eq_none : matchBase F spec base = none ↔ ¬ PathPrefix F spec base := by
  rw [pathPrefix_iff, ← isPrefixOf_slash]
  unfold matchBase
  split
  · next h => exact ⟨nofun, fun hnot => absurd (Or.inl h) hnot⟩
  · next h =>
    split
    · next hpath => exact ⟨nofun, fun hnot => absurd (Or.inr hpath) hnot⟩
    · next hpath => exact ⟨fun _ hor => hor.elim h hpath, fun _ => rfl⟩

/-- A unified path does not end with a separator. -/
theorem unified_ne_slash (text : String) (before : List Char) : unified text ≠ before ++ ['/'] := by
  intro h
  unfold unified at h
  rw [List.reverse_eq_iff, List.reverse_append] at h
  have hhead := List.head?_dropWhile_not (fun c => decide (c = '/'))
    (text.toList.map fun c => if c = '\\' then '/' else c).reverse
  rw [h] at hhead
  exact absurd hhead (by simp)

/-- The cut is right if the matched part of the spec is as long as the base. -/
theorem joined_of_aligned (hspec : ∀ before, spec ≠ before ++ ['/'])
    (hsub : matchBase F spec base = some sub)
    (haligned : ∀ before after, spec = before ++ '/' :: after → F.key before = F.key base →
      before.length = base.length) :
    F.key (joined base sub) = F.key spec ∧ (sub = [] ∨ ∃ before, spec = before ++ '/' :: sub) := by
  unfold matchBase at hsub
  split at hsub
  · next hkey =>
    obtain rfl := Option.some.inj hsub
    exact ⟨hkey.symm, Or.inl rfl⟩
  · split at hsub
    · next hpath =>
      obtain ⟨rest, hkey⟩ := isPrefixOf_slash.mp hpath
      obtain ⟨before, after, rfl, hbefore, hafter⟩ := exists_of_key hkey
      have hlength := haligned before after rfl hbefore
      have hdrop : (before ++ '/' :: after).drop (base.length + 1) = after := by
        rw [← hlength, ← List.drop_drop, List.drop_left]
        rfl
      rw [hdrop] at hsub
      obtain rfl := Option.some.inj hsub
      refine ⟨?_, Or.inr ⟨before, rfl⟩⟩
      have hne : after ≠ [] := fun hnil => hspec before (hnil ▸ rfl)
      rw [joined, if_neg hne, key_append, key_append, key_slash, hbefore]
    · exact absurd hsub nofun

/-- If the cut is right, the matched part of the spec is as long as the base. -/
theorem aligned_of_joined (hsub : matchBase F spec base = some sub)
    (hjoined : F.key (joined base sub) = F.key spec) {before after : List Char}
    (hspec : spec = before ++ '/' :: after) (hbefore : F.key before = F.key base) :
    before.length = base.length := by
  have hkey : F.key spec = F.key base ++ '/' :: F.key after := by
    rw [hspec, key_append, key_slash, hbefore]
  have hne : F.key spec ≠ F.key base := by
    rw [hkey]
    exact fun h => absurd (List.append_right_eq_self.mp h) (List.cons_ne_nil _ _)
  have hdrop : spec.drop (base.length + 1) = sub := by
    unfold matchBase at hsub
    rw [if_neg hne] at hsub
    split at hsub
    · exact Option.some.inj hsub
    · exact absurd hsub nofun
  unfold joined at hjoined
  split at hjoined
  · exact absurd hjoined.symm hne
  · next hsome =>
    rw [hkey, key_append, key_slash] at hjoined
    have hsame : F.key sub = F.key after :=
      (List.cons.inj (List.append_cancel_left hjoined)).2
    have hsuffix : sub.IsSuffix spec := hdrop ▸ List.drop_suffix _ _
    have hsuffix' : after.IsSuffix spec := hspec ▸ ⟨before ++ ['/'], by simp⟩
    have hlength : sub.length = after.length :=
      length_eq_of_key_suffix (List.suffix_or_suffix_of_suffix hsuffix' hsuffix) hsame
    have hpos : 0 < sub.length := List.length_pos_iff.mpr hsome
    rw [← hdrop, List.length_drop] at hlength hpos
    rw [hspec, List.length_append, List.length_cons] at hlength hpos
    omega

end Matching

/-! ## The loop -/

section Loop
variable {F : Folding} {osKey : String} {spec : List Char} {roots : Table}
  {rows done : List (String × Tree)} {row row' : String × Tree} {base base' : List Char}

theorem FirstLongest.le (h : FirstLongest F osKey spec rows row base) (hrow : row' ∈ rows)
    (hbase : treeBase osKey row'.2 = some base') (hpath : PathPrefix F spec base') :
    (F.key base').length ≤ (F.key base).length := by
  obtain ⟨before, after, rfl, htree, -, hbefore, hafter⟩ := h
  rcases List.mem_append.mp hrow with hmem | hmem
  · exact Nat.le_of_lt (hbefore row' hmem base' hbase hpath)
  · rcases List.mem_cons.mp hmem with rfl | hmem
    · exact le_of_eq (congrArg _ (congrArg _ (Option.some.inj (hbase.symm.trans htree))))
    · exact hafter row' hmem base' hbase hpath

theorem FirstLongest.mem (h : FirstLongest F osKey spec rows row base) : row ∈ rows := by
  obtain ⟨before, after, rfl, -⟩ := h
  exact List.mem_append_right _ List.mem_cons_self

/-- There is one winner. -/
theorem FirstLongest.unique (h : FirstLongest F osKey spec rows row base)
    (h' : FirstLongest F osKey spec rows row' base') : row = row' ∧ base = base' := by
  have hle := h.le h'.mem (by obtain ⟨_, _, _, h, _⟩ := h'; exact h)
    (by obtain ⟨_, _, _, _, h, _⟩ := h'; exact h)
  have hle' := h'.le h.mem (by obtain ⟨_, _, _, h, _⟩ := h; exact h)
    (by obtain ⟨_, _, _, _, h, _⟩ := h; exact h)
  obtain ⟨before, after, hrows, htree, hpath, hbefore, -⟩ := h
  obtain ⟨before', after', hrows', htree', hpath', hbefore', -⟩ := h'
  have hrow : row = row' := by
    rcases List.append_eq_append_iff.mp (hrows.symm.trans hrows') with
      ⟨gap, hb, hgap⟩ | ⟨gap, hb, hgap⟩
    · cases gap with
      | nil => exact (List.cons.inj hgap).1
      | cons other gap =>
        obtain rfl := (List.cons.inj hgap).1
        have hmem : row ∈ before' := hb ▸ List.mem_append_right _ List.mem_cons_self
        exact absurd (hbefore' row hmem base htree hpath) (Nat.not_lt.mpr hle)
    · cases gap with
      | nil => exact (List.cons.inj hgap).1.symm
      | cons other gap =>
        obtain rfl := (List.cons.inj hgap).1
        have hmem : row' ∈ before := hb ▸ List.mem_append_right _ List.mem_cons_self
        exact absurd (hbefore row' hmem base' htree' hpath') (Nat.not_lt.mpr hle')
  subst hrow
  exact ⟨rfl, Option.some.inj (htree.symm.trans htree')⟩

/-- What the loop has found in the trees it has seen. -/
def Found (F : Folding) (osKey : String) (spec : List Char) (done : List (String × Tree)) :
    Option Best → Prop
  | none => ∀ row ∈ done, ∀ base, treeBase osKey row.2 = some base → ¬ PathPrefix F spec base
  | some best => ∃ row base, FirstLongest F osKey spec done row base ∧ best.name = row.1 ∧
      best.len = (F.key base).length ∧ matchBase F spec base = some best.sub

/-- A tree that does not match, or not longer than what was found, changes nothing. -/
theorem Found.skip {best : Option Best} (h : Found F osKey spec done best)
    (hrow : ∀ base, treeBase osKey row.2 = some base → PathPrefix F spec base →
      ∃ b, best = some b ∧ (F.key base).length ≤ b.len) :
    Found F osKey spec (done ++ [row]) best := by
  cases best with
  | none =>
    intro other hother base hbase hpath
    rcases List.mem_append.mp hother with hmem | hmem
    · exact h other hmem base hbase hpath
    · obtain rfl := List.mem_singleton.mp hmem
      obtain ⟨b, hb, -⟩ := hrow base hbase hpath
      exact absurd hb nofun
  | some best =>
    obtain ⟨winner, base, ⟨before, after, rfl, htree, hpath, hbefore, hafter⟩, hname, hlen, hsub⟩ := h
    refine ⟨winner, base, ⟨before, after ++ [row], by simp, htree, hpath, hbefore, ?_⟩,
      hname, hlen, hsub⟩
    intro other hother base' hbase' hpath'
    rcases List.mem_append.mp hother with hmem | hmem
    · exact hafter other hmem base' hbase' hpath'
    · obtain rfl := List.mem_singleton.mp hmem
      obtain ⟨b, hb, hle⟩ := hrow base' hbase' hpath'
      rw [← hlen, Option.some.inj hb]
      exact hle

/-- A longer match replaces what was found. -/
theorem Found.replace {best : Option Best} {sub : List Char} (h : Found F osKey spec done best)
    (hbase : treeBase osKey row.2 = some base) (hsub : matchBase F spec base = some sub)
    (hlonger : ∀ b, best = some b → b.len < (F.key base).length) :
    Found F osKey spec (done ++ [row]) (some ⟨row.1, sub, (F.key base).length⟩) := by
  have hpath : PathPrefix F spec base := by
    by_contra hnot
    exact absurd ((matchBase_eq_none.mpr hnot).symm.trans hsub) nofun
  refine ⟨row, base, ⟨done, [], rfl, hbase, hpath, ?_, nofun⟩, rfl, rfl, hsub⟩
  intro other hother base' hbase' hpath'
  cases best with
  | none => exact absurd hpath' (h other hother base' hbase')
  | some b =>
    obtain ⟨winner, base₀, hlongest, -, hlen, -⟩ := h
    exact Nat.lt_of_le_of_lt (hlongest.le hother hbase' hpath') (hlen ▸ hlonger b rfl)

theorem found_step {best : Option Best} (h : Found F osKey spec done best) (row : String × Tree) :
    Found F osKey spec (done ++ [row]) (remoteSpecStep F osKey spec best row) := by
  unfold remoteSpecStep
  cases hbase : treeBase osKey row.2 with
  | none => exact h.skip fun base h => absurd (hbase.symm.trans h) nofun
  | some base =>
    simp only
    cases hsub : matchBase F spec base with
    | none =>
      refine h.skip fun base' hbase' hpath => ?_
      obtain rfl := Option.some.inj (hbase.symm.trans hbase')
      exact absurd hpath (matchBase_eq_none.mp hsub)
    | some sub =>
      simp only
      split
      · next hall =>
        refine h.replace hbase hsub fun b hb => ?_
        rw [hb] at hall
        exact of_decide_eq_true hall
      · next hall =>
        refine h.skip fun base' hbase' _ => ?_
        obtain rfl := Option.some.inj (hbase.symm.trans hbase')
        cases best with
        | none => exact absurd rfl hall
        | some b => exact ⟨b, rfl, Nat.le_of_not_lt fun hlt => hall (decide_eq_true hlt)⟩

theorem found_foldl {best : Option Best} (h : Found F osKey spec done best)
    (rest : List (String × Tree)) :
    Found F osKey spec (done ++ rest) (rest.foldl (remoteSpecStep F osKey spec) best) := by
  induction rest generalizing done best with
  | nil => exact (List.append_nil done).symm ▸ h
  | cons row rest ih =>
    rw [List.append_cons]
    exact ih (found_step h row)

theorem get_of_mem {entry : String × Tree} (h : entry ∈ roots.rows) :
    roots.get entry.1 = some entry.2 := Dict.get_eq_some.mpr ⟨entry.1, h, rfl⟩

end Loop

/-- The reverse mapping is right exactly where the winning base is as long as what it matches. -/
theorem remoteSpecToTree_inverts_iff (casefold : Folding) (roots : Table) (os remoteSpec : String) :
    Inverts (casefold.on (deviceOsKey os)) (deviceOsKey os) (unified remoteSpec) roots
        (remoteSpecToTree casefold roots os remoteSpec) ↔
      Aligned (casefold.on (deviceOsKey os)) (deviceOsKey os) (unified remoteSpec) roots := by
  have hfound : Found (casefold.on (deviceOsKey os)) (deviceOsKey os) (unified remoteSpec) roots.rows
      (roots.rows.foldl (remoteSpecStep (casefold.on (deviceOsKey os)) (deviceOsKey os)
        (unified remoteSpec)) none) :=
    found_foldl (show Found _ _ _ [] none from nofun) roots.rows
  unfold remoteSpecToTree
  simp only
  generalize casefold.on (deviceOsKey os) = F at hfound ⊢
  generalize deviceOsKey os = osKey at hfound ⊢
  generalize roots.rows.foldl _ none = best at hfound ⊢
  cases best with
  | none =>
    refine ⟨fun _ row base hlongest => ?_, fun _ => hfound⟩
    obtain ⟨_, _, _, htree, hpath, -⟩ := id hlongest
    exact absurd hpath (hfound row hlongest.mem base htree)
  | some best =>
    obtain ⟨winner, base, hlongest, hname, -, hsub⟩ := hfound
    obtain ⟨_, _, _, htree, -⟩ := id hlongest
    have hget : roots.get best.name = some winner.2 := hname ▸ get_of_mem hlongest.mem
    constructor
    · rintro ⟨tree, base', htree', hbase', hjoined, -⟩ row base'' hrow before after hspec hbefore
      obtain ⟨rfl, rfl⟩ := hlongest.unique hrow
      obtain rfl := Option.some.inj (hget.symm.trans htree')
      obtain rfl := Option.some.inj (htree.symm.trans hbase')
      exact aligned_of_joined hsub hjoined hspec hbefore
    · intro haligned
      obtain ⟨hjoined, htail⟩ := joined_of_aligned (unified_ne_slash remoteSpec) hsub
        (haligned winner base hlongest)
      exact ⟨winner.2, base, hget, htree, hjoined, htail, fun row hrow longer hlonger hpath =>
        hlongest.le hrow hlonger hpath⟩

/-! ## A spelling of another length -/

/-- ASCII letters and the sharp s. -/
def sampleFolding : Folding where
  fold := fun c => if c = 'ß' then ['s', 's'] else [c.toLower]
  fold_ne_nil := by
    intro c
    split <;> exact List.cons_ne_nil _ _
  fold_slash := by decide
  slash_of_mem := by
    intro c h
    split at h
    · exact absurd h (by decide)
    · have hlower : '/' = c.toLower := List.mem_singleton.mp h
      unfold Char.toLower at hlower
      split at hlower
      · next hupper =>
        have hval := congrArg (fun d => d.val.toNat) hlower
        have hlow := hupper.1
        have hhigh := hupper.2
        exfalso
        simp only [Char.isValue, Char.reduceVal, UInt32.reduceToNat, UInt32.reduceSub,
          UInt32.toNat_add, Char.toNat_val, Nat.reducePow, ge_iff_le,
          UInt32.le_iff_toNat_le] at hval hlow hhigh
        omega
      · exact hlower.symm

/-- One tree with a base on Windows. -/
def streetRoots : Table :=
  Dict.empty.set "outputs" (Dict.empty.set "windows" "D:\\Straße")

theorem remoteSpecToTree_not_inverts :
    remoteSpecToTree sampleFolding streetRoots "windows" "d:/STRASSE/alpha" =
      some ("outputs", "/alpha".toList) ∧
    ¬ Inverts (sampleFolding.on "windows") "windows" (unified "d:/STRASSE/alpha") streetRoots
      (remoteSpecToTree sampleFolding streetRoots "windows" "d:/STRASSE/alpha") := by
  have hanswer : remoteSpecToTree sampleFolding streetRoots "windows" "d:/STRASSE/alpha" =
      some ("outputs", "/alpha".toList) := by decide
  refine ⟨hanswer, ?_⟩
  rw [hanswer]
  rintro ⟨tree, base, htree, hbase, hkey, -⟩
  obtain rfl : Dict.empty.set "windows" "D:\\Straße" = tree := Option.some.inj htree
  obtain rfl : unified "D:\\Straße" = base := Option.some.inj hbase
  exact absurd hkey (by decide)

end Remrun.SyncRoots
