import Remrun.Snapshot.Walk

/-!
# Exact inclusions

A walk decides at every name of the tree whether to go on, so what it reaches is decided by the
names on the way to a file. An exclude pattern that matches at a directory keeps out what is below
it, and an inclusion below that directory opens it for everything in it.
-/

namespace Remrun.Snapshot

open Reconcile
set_option autoImplicit false

/-! ## Names on the way -/

/-- A path and the directories above it. -/
def trail (rel : String) : List String := rel :: parentDirs [] rel.toList

theorem parentDirs_of_plain {cs : List Char} (h : '/' ∉ cs) (seen : List Char) :
    parentDirs seen cs = [] := by
  induction cs generalizing seen with
  | nil => rfl
  | cons c rest ih =>
    rw [List.mem_cons, not_or] at h
    obtain ⟨hc, hrest⟩ := h
    rw [parentDirs, if_neg fun heq => hc heq.symm]
    exact ih hrest _

theorem parentDirs_append (xs ys seen : List Char) :
    parentDirs seen (xs ++ '/' :: ys) =
      parentDirs seen xs ++ String.ofList (seen ++ xs) :: parentDirs (seen ++ xs ++ ['/']) ys := by
  induction xs generalizing seen with
  | nil => simp [parentDirs]
  | cons c rest ih =>
    rw [List.cons_append, parentDirs, parentDirs]
    split
    · rw [ih]
      simp
    · rw [ih]
      simp

/-- A directory above a path is a prefix of it, up to a slash. -/
theorem prefix_of_mem_parentDirs {cs seen : List Char} {dir : String}
    (h : dir ∈ parentDirs seen cs) : dir.toList ++ ['/'] <+: seen ++ cs := by
  induction cs generalizing seen with
  | nil => exact absurd h List.not_mem_nil
  | cons c rest ih =>
    have hrest : dir ∈ parentDirs (seen ++ [c]) rest → dir.toList ++ ['/'] <+: seen ++ c :: rest := by
      intro hmem
      have := ih hmem
      rwa [List.append_assoc, List.singleton_append] at this
    rw [parentDirs] at h
    split at h
    · rename_i hc
      rcases List.mem_cons.mp h with rfl | hmem
      · rw [String.toList_ofList, hc]
        exact ⟨rest, by simp⟩
      · exact hrest hmem
    · exact hrest h

section Joined
variable {relDir name dir : String}

theorem joinRel_ne (hname : name ≠ "") : joinRel relDir name ≠ "" := by
  unfold joinRel
  split
  · exact hname
  · intro h
    have := congrArg String.toList h
    simp at this

theorem mem_trail_top (hname : '/' ∉ name.toList) : dir ∈ trail (joinRel "" name) ↔ dir = name := by
  rw [joinRel, if_pos rfl, trail, parentDirs_of_plain hname, List.mem_singleton]

theorem mem_trail_joinRel (hdir : relDir ≠ "") (hname : '/' ∉ name.toList) :
    dir ∈ trail (joinRel relDir name) ↔ dir = joinRel relDir name ∨ dir ∈ trail relDir := by
  have htext : (joinRel relDir name).toList = relDir.toList ++ '/' :: name.toList := by
    rw [joinRel, if_neg hdir]
    simp
  rw [trail, htext, parentDirs_append, parentDirs_of_plain hname, List.nil_append,
    String.ofList_toList, trail, List.mem_cons, List.mem_append, List.mem_singleton, List.mem_cons,
    or_comm (a := dir = relDir)]

end Joined

/-! ## What a walk reaches -/

mutual
/-- Names are not empty and hold no slash. -/
def Tree.Named : Tree → Prop
  | .directory _ _ children => children.Named
  | .file _ _ _ _ => True
  | .link => True
  | .special => True
def Forest.Named : Forest → Prop
  | .nil => True
  | .cons name node rest => name ≠ "" ∧ '/' ∉ name.toList ∧ node.Named ∧ rest.Named
end

def WalkRoot.Named : WalkRoot → Prop
  | .directory _ children => children.Named
  | _ => True

/-- The same walk without inclusions. -/
def WalkArgs.plain (a : WalkArgs) : WalkArgs := { a with includePaths := [] }

/-- A walk that leaves nothing out. -/
def everything : WalkArgs := ⟨[], [], none, false⟩

section Reaches
variable {P : Platform} {a : WalkArgs} {relDir rel : String} {f : Reached}

/-- Nothing on the way to the path is excluded. -/
def Clear (P : Platform) (a : WalkArgs) (rel : String) : Prop :=
  ∀ dir ∈ trail rel, a.excluded P dir = false

theorem excluded_everything : everything.excluded P rel = false := by
  simp [WalkArgs.excluded, Surface.excluded, everything, shouldExclude]

/-- A directory is the root, or the walk has come to it. -/
def Entered (P : Platform) (a : WalkArgs) (relDir : String) : Prop := relDir = "" ∨ Clear P a relDir

theorem clear_joinRel {name : String} (hdir : Entered P a relDir) (hname : '/' ∉ name.toList) :
    Clear P a (joinRel relDir name) ↔ a.excluded P (joinRel relDir name) = false := by
  by_cases hroot : relDir = ""
  · subst hroot
    simp only [Clear, mem_trail_top hname, forall_eq]
    rw [joinRel, if_pos rfl]
  · have hclear := hdir.resolve_left hroot
    simp only [Clear, mem_trail_joinRel hroot hname, forall_eq_or_imp]
    exact and_iff_left hclear

theorem clear_of_joinRel {name : String} (hroot : relDir ≠ "") (hname : '/' ∉ name.toList)
    (h : Clear P a (joinRel relDir name)) : Clear P a relDir :=
  fun dir hdir => h dir ((mem_trail_joinRel hroot hname).mpr (Or.inr hdir))

theorem mem_reachedFile {node : Tree} (h : f ∈ reachedFile P a rel node) : f.rel = rel := by
  cases node with
  | file bytes mtimeNs perm readable =>
    rw [reachedFile] at h
    split at h
    · exact absurd h List.not_mem_nil
    · rw [List.mem_singleton.mp h]
  | link => exact absurd h List.not_mem_nil
  | special => exact absurd h List.not_mem_nil
  | directory junction readable children => exact absurd h List.not_mem_nil

theorem mem_reachedFile_iff {node : Tree} : f ∈ reachedFile P a rel node ↔
    f ∈ reachedFile P everything rel node ∧ a.excluded P rel = false := by
  cases node with
  | file bytes mtimeNs perm readable =>
    simp only [reachedFile, excluded_everything]
    cases a.excluded P rel <;> simp
  | link => simp [reachedFile]
  | special => simp [reachedFile]
  | directory junction readable children => simp [reachedFile]

/-- What is reached below a directory is clear only if the directory is. -/
theorem clear_of_reachedFiles (hroot : relDir ≠ "") : ∀ forest : Forest, forest.Named →
    f ∈ reachedFiles P everything relDir forest → Clear P a f.rel → Clear P a relDir
  | .nil, _, h, _ => absurd h List.not_mem_nil
  | .cons name node rest, ⟨_, hslash, _, hrest⟩, h, hclear => by
    rcases List.mem_append.mp h with hhere | hlater
    · rw [mem_reachedFile hhere] at hclear
      exact clear_of_joinRel hroot hslash hclear
    · exact clear_of_reachedFiles hroot rest hrest hlater hclear

mutual
theorem clear_of_reachedDir : ∀ (rel : String) (node : Tree), rel ≠ "" → node.Named →
    f ∈ reachedDir P everything rel node → Clear P a f.rel → Clear P a rel
  | rel, .directory junction readable children, hrel, hnamed, h, hclear => by
    rw [reachedDir] at h
    split at h
    · exact absurd h List.not_mem_nil
    · rcases List.mem_append.mp h with hfile | hdir
      · exact clear_of_reachedFiles hrel children hnamed hfile hclear
      · exact clear_of_reachedDirs rel children hrel hnamed hdir hclear
  | _, .file _ _ _ _, _, _, h, _ => absurd h List.not_mem_nil
  | _, .link, _, _, h, _ => absurd h List.not_mem_nil
  | _, .special, _, _, h, _ => absurd h List.not_mem_nil
theorem clear_of_reachedDirs : ∀ (relDir : String) (forest : Forest), relDir ≠ "" → forest.Named →
    f ∈ reachedDirs P everything relDir forest → Clear P a f.rel → Clear P a relDir
  | _, .nil, _, _, h, _ => absurd h List.not_mem_nil
  | relDir, .cons name node rest, hroot, ⟨hname, hslash, hnode, hrest⟩, h, hclear => by
    rcases List.mem_append.mp h with hhere | hlater
    · exact clear_of_joinRel hroot hslash
        (clear_of_reachedDir _ node (joinRel_ne hname) hnode hhere hclear)
    · exact clear_of_reachedDirs relDir rest hroot hrest hlater hclear
end

theorem mem_reachedFiles (hdir : Entered P a relDir) : ∀ forest : Forest, forest.Named →
    (f ∈ reachedFiles P a relDir forest ↔
      f ∈ reachedFiles P everything relDir forest ∧ Clear P a f.rel)
  | .nil, _ => by simp [reachedFiles]
  | .cons name node rest, ⟨_, hslash, _, hrest⟩ => by
    rw [reachedFiles, reachedFiles, List.mem_append, List.mem_append, or_and_right,
      mem_reachedFiles hdir rest hrest, mem_reachedFile_iff]
    apply or_congr_left
    apply and_congr_right
    intro hhere
    rw [mem_reachedFile hhere, clear_joinRel hdir hslash]

mutual
theorem mem_reachedDir : ∀ (rel : String) (node : Tree), rel ≠ "" →
    (Clear P a rel ↔ a.excluded P rel = false) → node.Named →
    (f ∈ reachedDir P a rel node ↔ f ∈ reachedDir P everything rel node ∧ Clear P a f.rel)
  | rel, .directory junction readable children, hrel, hclear, hnamed => by
    have hopen : ∀ b : WalkArgs, reachedDir P b rel (.directory junction readable children) =
        if b.excluded P rel || junction then []
        else reachedFiles P b rel children ++ reachedDirs P b rel children := fun _ => rfl
    cases hexcluded : a.excluded P rel with
    | true =>
      rw [hopen, hexcluded, Bool.true_or, if_pos rfl]
      constructor
      · exact fun h => absurd h List.not_mem_nil
      · rintro ⟨hmem, hf⟩
        have := hclear.mp (clear_of_reachedDir rel _ hrel hnamed hmem hf)
        rw [hexcluded] at this
        exact absurd this.symm Bool.false_ne_true
    | false =>
      have hentered : Entered P a rel := Or.inr (hclear.mpr hexcluded)
      rw [hopen, hopen, hexcluded, excluded_everything]
      cases junction with
      | true => simp
      | false =>
        simp only [Bool.or_false, Bool.false_eq_true, if_false, List.mem_append]
        rw [mem_reachedFiles hentered children hnamed,
          mem_reachedDirs rel children hentered hnamed, or_and_right]
  | _, .file _ _ _ _, _, _, _ => by simp [reachedDir]
  | _, .link, _, _, _ => by simp [reachedDir]
  | _, .special, _, _, _ => by simp [reachedDir]
theorem mem_reachedDirs : ∀ (relDir : String) (forest : Forest), Entered P a relDir →
    forest.Named →
    (f ∈ reachedDirs P a relDir forest ↔
      f ∈ reachedDirs P everything relDir forest ∧ Clear P a f.rel)
  | _, .nil, _, _ => by simp [reachedDirs]
  | relDir, .cons name node rest, hdir, ⟨hname, hslash, hnode, hrest⟩ => by
    rw [reachedDirs, reachedDirs, List.mem_append, List.mem_append, or_and_right,
      mem_reachedDir _ node (joinRel_ne hname) (clear_joinRel hdir hslash) hnode,
      mem_reachedDirs relDir rest hdir hrest]
end

/-- The regular files below the root, through directories that are no links. -/
def regularFiles (P : Platform) (root : WalkRoot) : List Reached := reached P everything root

theorem mem_reached {root : WalkRoot} (hnamed : root.Named) :
    f ∈ reached P a root ↔ f ∈ regularFiles P root ∧ Clear P a f.rel := by
  cases root with
  | missing => simp [regularFiles, reached]
  | other => simp [regularFiles, reached]
  | directory readable children =>
    rw [regularFiles, reached, reached, List.mem_append, List.mem_append,
      mem_reachedFiles (Or.inl rfl) children hnamed,
      mem_reachedDirs "" children (Or.inl rfl) hnamed, or_and_right]

end Reaches

/-! ## Exactness -/

/-- The path is included by name. -/
def WalkArgs.lists (a : WalkArgs) (rel : String) : Prop :=
  ∃ path ∈ a.includePaths, path ≠ "" ∧ stripSlashes path.toList = rel.toList

/-- The path is included, or is on the way to one that is. -/
def WalkArgs.forced (a : WalkArgs) (rel : String) : Bool :=
  Surface.forced ⟨a.excludes, a.includePaths, 0⟩ rel

/-- The inclusions add their own files and nothing else. -/
def Exact (P : Platform) (item : Reached → String × FileEntry) (a : WalkArgs) (root : WalkRoot)
    (items plain : Items) : Prop :=
  ∀ entry, entry ∈ items ↔
    entry ∈ plain ∨ ∃ f ∈ regularFiles P root, a.lists f.rel ∧ entry = item f

/-- Every other file that the excludes keep out has an excluded name on its way that is not on the
way to an included path. -/
def KeptOut (P : Platform) (a : WalkArgs) (root : WalkRoot) : Prop :=
  ∀ f ∈ regularFiles P root, ¬ a.lists f.rel →
    (∃ dir ∈ trail f.rel, shouldExclude P dir a.excludes = true) →
    ∃ dir ∈ trail f.rel, shouldExclude P dir a.excludes = true ∧ a.forced dir = false

section Exactness
variable {P : Platform} {a : WalkArgs} {root : WalkRoot} {rel dir : String}

theorem forced_eq_true : a.forced dir = true ↔ ∃ path ∈ a.includePaths, path ≠ "" ∧
    (stripSlashes path.toList = dir.toList ∨ dir.toList ++ ['/'] <+: stripSlashes path.toList) := by
  simp [WalkArgs.forced, Surface.forced]

theorem excluded_eq_false : a.excluded P dir = false ↔
    shouldExclude P dir a.excludes = false ∨ a.forced dir = true := by
  unfold WalkArgs.excluded Surface.excluded WalkArgs.forced
  cases shouldExclude P dir a.excludes <;> simp

theorem excluded_plain : a.plain.excluded P dir = shouldExclude P dir a.excludes := by
  simp [WalkArgs.excluded, Surface.excluded, WalkArgs.plain, Surface.forced]

theorem forced_of_lists (h : a.lists rel) (hdir : dir ∈ trail rel) : a.forced dir = true := by
  obtain ⟨path, hpath, hne, hstrip⟩ := h
  refine forced_eq_true.mpr ⟨path, hpath, hne, ?_⟩
  rcases List.mem_cons.mp hdir with rfl | habove
  · exact Or.inl hstrip
  · rw [hstrip]
    exact Or.inr (prefix_of_mem_parentDirs habove)

theorem clear_of_plain (h : Clear P a.plain rel) : Clear P a rel := by
  intro dir hdir
  have := h dir hdir
  rw [excluded_plain] at this
  exact excluded_eq_false.mpr (Or.inl this)

theorem clear_of_lists (h : a.lists rel) : Clear P a rel :=
  fun _ hdir => excluded_eq_false.mpr (Or.inr (forced_of_lists h hdir))

theorem exact_iff (hnamed : root.Named) {item : Reached → String × FileEntry}
    (hitem : ∀ f, (item f).1 = f.rel) : Exact P item a root ((reached P a root).map item)
      ((reached P a.plain root).map item) ↔ KeptOut P a root := by
  have hrel : ∀ f f' : Reached, item f = item f' → f.rel = f'.rel := by
    intro f f' h
    rw [← hitem f, ← hitem f', h]
  constructor
  · rintro h f hf hlist ⟨dir, hdir, hexclude⟩
    by_contra hno
    have hclear : Clear P a f.rel := by
      intro dir' hdir'
      rw [excluded_eq_false]
      by_contra hboth
      simp only [not_or, Bool.not_eq_false, Bool.not_eq_true] at hboth
      exact hno ⟨dir', hdir', hboth⟩
    have hmem := List.mem_map_of_mem (f := item) ((mem_reached hnamed).mpr ⟨hf, hclear⟩)
    rcases (h _).mp hmem with hplain | ⟨f', -, hlist', heq⟩
    · obtain ⟨f', hf', heq⟩ := List.mem_map.mp hplain
      have hclear' := ((mem_reached hnamed).mp hf').2
      rw [hrel f' f heq] at hclear'
      have := hclear' dir hdir
      rw [excluded_plain, hexclude] at this
      exact absurd this.symm Bool.false_ne_true
    · rw [← hrel f f' heq] at hlist'
      exact hlist hlist'
  · intro h entry
    constructor
    · intro hentry
      obtain ⟨f, hf, rfl⟩ := List.mem_map.mp hentry
      obtain ⟨hregular, hclear⟩ := (mem_reached hnamed).mp hf
      by_cases hlist : a.lists f.rel
      · exact Or.inr ⟨f, hregular, hlist, rfl⟩
      left
      apply List.mem_map_of_mem
      refine (mem_reached hnamed).mpr ⟨hregular, fun dir hdir => ?_⟩
      rw [excluded_plain]
      by_contra hexclude
      obtain ⟨dir', hdir', hexclude', hforced⟩ :=
        h f hregular hlist ⟨dir, hdir, by simpa using hexclude⟩
      rcases excluded_eq_false.mp (hclear dir' hdir') with hkept | hkept
      · exact absurd (hexclude'.symm.trans hkept) (by decide)
      · exact absurd (hforced.symm.trans hkept) (by decide)
    · rintro (hplain | ⟨f, hf, hlist, rfl⟩)
      · obtain ⟨f, hf, rfl⟩ := List.mem_map.mp hplain
        obtain ⟨hregular, hclear⟩ := (mem_reached hnamed).mp hf
        exact List.mem_map_of_mem ((mem_reached hnamed).mpr ⟨hregular, clear_of_plain hclear⟩)
      · exact List.mem_map_of_mem ((mem_reached hnamed).mpr ⟨hf, clear_of_lists hlist⟩)

end Exactness

/-- A directory that is excluded with all that is below it. -/
def sampleRoot : WalkRoot :=
  .directory true (.cons "lib" (.directory false true
    (.cons "x" (.file [97] 1 0o100644 true) (.cons "y" (.file [98] 1 0o100644 true) .nil))) .nil)

end Remrun.Snapshot
