import Remrun.Locks.ProjectLock

/-!
# What the processes may do to each other

The guarantee that every call of the lock programs keeps, and the rely condition that a live
process can derive from it. A process makes a lock directory only with the guard and only where
there is none, and takes away only its own or, with the guard, one of a dead process.
-/

namespace Remrun.Locks

open Keyed Interleave Snapshot
set_option autoImplicit false

variable {ι : Type}

/-! ## The lock table -/

/-- The records name the process that made the directory. -/
structure World.WF (host : Host ι) (w : World ι) : Prop where
  recorded : ∀ path dir c info, w.locks.get path = some dir → dir.creator = some c →
    dir.metadata = .record info → info.field "pid" = .int (host.pid c)
  creators : ∀ path dir c, w.locks.get path = some dir → dir.creator = some c → c ∈ w.born
  scopes : ∀ key dir, w.locks.get (.scope key) = some dir → w.scopesDir = true

/-- The one lock directory is that of the process. -/
def Own (p : ι) (path : LockPath) (w : World ι) : Prop :=
  ∃ dir, w.locks.get path = some dir ∧ dir.creator = some p ∧
    ∀ path', path' ≠ path → w.locks.get path' = none

/-- What one call of the process `p` may change. -/
structure Guar (host : Host ι) (p : ι) (w w' : World ι) : Prop where
  born : w'.born = w.born
  dead : w'.dead = w.dead
  guardOthers : ∀ q, q ≠ p → (w'.guard = .held (some q) ↔ w.guard = .held (some q))
  added : ∀ path dir', w.locks.get path = none → w'.locks.get path = some dir' →
    w.guard = .held (some p) ∧ ∀ path', w.locks.get path' = none
  touched : ∀ path dir, w.locks.get path = some dir → w'.locks.get path ≠ some dir →
    dir.creator = some p ∨
      (w.guard = .held (some p) ∧ ∀ c, dir.creator = some c → c ∈ w.dead)
  kept : ∀ path dir dir', w.locks.get path = some dir → w'.locks.get path = some dir' →
    dir'.creator = dir.creator ∧ (dir'.metadata = dir.metadata ∨ dir'.metadata = .missing ∨
      w.guard = .held (some p))
  wf : w.WF host → w'.WF host

/-- What the live process `p` can count on while the others take a step. -/
structure Rely (host : Host ι) (p : ι) (w w' : World ι) : Prop where
  born : ∀ q ∈ w.born, q ∈ w'.born
  dead : ∀ q ∈ w.dead, q ∈ w'.dead
  guardMine : w'.guard = .held (some p) ↔ w.guard = .held (some p)
  noAdd : (w.guard = .held (some p) ∨ ∃ path dir, w.locks.get path = some dir ∧
    dir.creator = some p) → ∀ path, w.locks.get path = none → w'.locks.get path = none
  mine : ∀ path dir, w.locks.get path = some dir → dir.creator = some p →
    w'.locks.get path = some dir
  older : w.guard = .held (some p) → ∀ path dir', w'.locks.get path = some dir' →
    ∃ dir, w.locks.get path = some dir ∧ dir'.creator = dir.creator ∧
      (dir'.metadata = dir.metadata ∨ dir'.metadata = .missing)
  wf : w.WF host → w'.WF host

section
variable {host : Host ι} {p q : ι} {w w' : World ι}

theorem Guar.refl (w : World ι) : Guar host p w w where
  born := rfl
  dead := rfl
  guardOthers := fun _ _ => Iff.rfl
  added := by
    intro path dir' hnone hsome
    rw [hnone] at hsome
    cases hsome
  touched := fun path dir hsome hne => absurd hsome hne
  kept := by
    intro path dir dir' hsome hsome'
    rw [hsome] at hsome'
    cases hsome'
    exact ⟨rfl, Or.inl rfl⟩
  wf := id

/-- What one process guarantees, another one can rely on as long as it lives. -/
theorem Guar.rely (h : Guar host q w w') (hne : p ≠ q) (hlive : p ∉ w.dead) : Rely host p w w' := by
  have hnotq : w.guard = .held (some p) → w.guard ≠ .held (some q) := by
    intro hp hq
    rw [hp] at hq
    exact hne (Option.some.inj (Guard.held.inj hq))
  have hnoAdd : (w.guard = .held (some p) ∨ ∃ path dir, w.locks.get path = some dir ∧
      dir.creator = some p) → ∀ path, w.locks.get path = none → w'.locks.get path = none := by
    intro hblocks path hnone
    by_contra hadded
    obtain ⟨dir', hdir'⟩ := Option.ne_none_iff_exists'.mp hadded
    obtain ⟨hguard, hempty⟩ := h.added path dir' hnone hdir'
    rcases hblocks with hguard' | ⟨path', dir, hdir, -⟩
    · exact hnotq hguard' hguard
    · rw [hempty path'] at hdir
      cases hdir
  refine ⟨fun _ hq => h.born ▸ hq, fun _ hq => h.dead ▸ hq, h.guardOthers p hne, hnoAdd, ?_, ?_, h.wf⟩
  · intro path dir hdir hcreator
    by_contra htouched
    rcases h.touched path dir hdir htouched with hmine | ⟨-, hdead⟩
    · rw [hcreator] at hmine
      exact hne (Option.some.inj hmine)
    · exact hlive (hdead p hcreator)
  · intro hguard path dir' hdir'
    cases hdir : w.locks.get path with
    | none =>
      rw [hnoAdd (Or.inl hguard) path hdir] at hdir'
      cases hdir'
    | some dir =>
      obtain ⟨hcreator, hmetadata⟩ := h.kept path dir dir' hdir hdir'
      refine ⟨dir, rfl, hcreator, ?_⟩
      rcases hmetadata with hsame | hmissing | hguard'
      · exact Or.inl hsame
      · exact Or.inr hmissing
      · exact absurd hguard' (hnotq hguard)

/-- A process starts. -/
theorem rely_spawn : Rely host p w { w with born := q :: w.born } where
  born := fun _ h => List.mem_cons_of_mem _ h
  dead := fun _ h => h
  guardMine := Iff.rfl
  noAdd := fun _ _ h => h
  mine := fun _ _ h _ => h
  older := fun _ _ dir' h => ⟨dir', h, rfl, Or.inl rfl⟩
  wf := fun h => ⟨h.recorded, fun path dir c hdir hc =>
    List.mem_cons_of_mem _ (h.creators path dir c hdir hc), h.scopes⟩

/-- Another process crashes. -/
theorem rely_crash : Rely host p w { w with dead := q :: w.dead } where
  born := fun _ h => h
  dead := fun _ h => List.mem_cons_of_mem _ h
  guardMine := Iff.rfl
  noAdd := fun _ _ h => h
  mine := fun _ _ h _ => h
  older := fun _ _ dir' h => ⟨dir', h, rfl, Or.inl rfl⟩
  wf := fun h => ⟨h.recorded, h.creators, h.scopes⟩

theorem Own.stable (path : LockPath) : Stable (Rely host p) (Own p path) := by
  rintro w w' hrely ⟨dir, hdir, hcreator, hothers⟩
  refine ⟨dir, hrely.mine path dir hdir hcreator, hcreator, fun path' hne => ?_⟩
  exact hrely.noAdd (Or.inr ⟨path, dir, hdir, hcreator⟩) path' (hothers path' hne)

/-- Two processes cannot both own the one lock directory. -/
theorem Own.unique {path path' : LockPath} (h : Own p path w) (h' : Own q path' w) : p = q := by
  obtain ⟨dir, hdir, hcreator, hothers⟩ := h
  obtain ⟨dir', hdir', hcreator', -⟩ := h'
  by_cases hpath : path' = path
  · subst hpath
    rw [hdir] at hdir'
    cases hdir'
    rw [hcreator] at hcreator'
    exact Option.some.inj hcreator'
  · rw [hothers path' hpath] at hdir'
    cases hdir'

end

/-! ## Changes of one directory -/

section
variable {host : Host ι} {p : ι} {w : World ι} {path : LockPath}

theorem get_setLock (dir : LockDir ι) (path' : LockPath) :
    (w.setLock path dir).locks.get path' = if path' = path then some dir else w.locks.get path' :=
  Dict.get_set _ _ _ _

/-- The one entry that changes keeps its creator. -/
theorem guar_setLock {dir dir' : LockDir ι} (hdir : w.locks.get path = some dir)
    (hcreator : dir'.creator = dir.creator)
    (hright : dir.creator = some p ∨
      (w.guard = .held (some p) ∧ ∀ c, dir.creator = some c → c ∈ w.dead))
    (hmetadata : dir'.metadata = dir.metadata ∨ dir'.metadata = .missing ∨
      w.guard = .held (some p))
    (hrecorded : ∀ c info, dir'.creator = some c → dir'.metadata = .record info →
      w.WF host → info.field "pid" = .int (host.pid c)) :
    Guar host p w (w.setLock path dir') where
  born := rfl
  dead := rfl
  guardOthers := fun _ _ => Iff.rfl
  added := by
    intro path' dir'' hnone hsome
    rw [get_setLock] at hsome
    split at hsome
    · rename_i heq
      rw [heq, hdir] at hnone
      cases hnone
    · rw [hnone] at hsome
      cases hsome
  touched := by
    intro path' dir'' hsome hne
    rw [get_setLock] at hne
    split at hne
    · rename_i heq
      rw [heq, hdir] at hsome
      cases hsome
      exact hright
    · exact absurd hsome hne
  kept := by
    intro path' dir₁ dir₂ hsome hsome'
    rw [get_setLock] at hsome'
    split at hsome'
    · rename_i heq
      rw [heq, hdir] at hsome
      cases hsome
      cases hsome'
      exact ⟨hcreator, hmetadata⟩
    · rw [hsome] at hsome'
      cases hsome'
      exact ⟨rfl, Or.inl rfl⟩
  wf := by
    intro hwf
    refine ⟨fun path' dir'' c info hsome hc hinfo => ?_, fun path' dir'' c hsome hc => ?_,
      fun key dir'' hsome => ?_⟩
    · rw [get_setLock] at hsome
      split at hsome
      · cases hsome
        exact hrecorded c info hc hinfo hwf
      · exact hwf.recorded path' dir'' c info hsome hc hinfo
    · rw [get_setLock] at hsome
      split at hsome
      · cases hsome
        exact hwf.creators path dir c hdir (hcreator ▸ hc)
      · exact hwf.creators path' dir'' c hsome hc
    · rw [get_setLock] at hsome
      split at hsome
      · rename_i heq
        exact hwf.scopes key dir (heq ▸ hdir)
      · exact hwf.scopes key dir'' hsome

/-- A new directory in an empty table. -/
theorem guar_addLock (hguard : w.guard = .held (some p)) (hempty : ∀ path', w.locks.get path' = none)
    (hborn : p ∈ w.born) (hparent : w.hasParent path = true) :
    Guar host p w (w.setLock path ⟨.missing, false, some p⟩) where
  born := rfl
  dead := rfl
  guardOthers := fun _ _ => Iff.rfl
  added := fun _ _ _ _ => ⟨hguard, hempty⟩
  touched := by
    intro path' dir hsome
    rw [hempty path'] at hsome
    cases hsome
  kept := by
    intro path' dir dir' hsome
    rw [hempty path'] at hsome
    cases hsome
  wf := by
    intro hwf
    refine ⟨fun path' dir c info hsome hc hinfo => ?_, fun path' dir c hsome hc => ?_,
      fun key dir hsome => ?_⟩
    · rw [get_setLock] at hsome
      split at hsome
      · cases hsome
        cases hinfo
      · rw [hempty path'] at hsome
        cases hsome
    · rw [get_setLock] at hsome
      split at hsome
      · cases hsome
        cases hc
        exact hborn
      · rw [hempty path'] at hsome
        cases hsome
    · rw [get_setLock] at hsome
      split at hsome
      · rename_i heq
        rw [← heq] at hparent
        exact hparent
      · rw [hempty] at hsome
        cases hsome

/-- A directory is taken away. -/
theorem guar_popLock {dir : LockDir ι} (hdir : w.locks.get path = some dir)
    (hright : dir.creator = some p ∨
      (w.guard = .held (some p) ∧ ∀ c, dir.creator = some c → c ∈ w.dead)) :
    Guar host p w { w with locks := w.locks.pop path } := by
  have hget : ∀ path', (w.locks.pop path).get path' =
      if path' = path then none else w.locks.get path' := Dict.get_pop _ _
  have hold : ∀ path' dir', (w.locks.pop path).get path' = some dir' → w.locks.get path' = some dir' := by
    intro path' dir' h
    rw [hget] at h
    split at h
    · cases h
    · exact h
  refine ⟨rfl, rfl, fun _ _ => Iff.rfl, ?_, ?_, ?_, fun hwf => ⟨?_, ?_, ?_⟩⟩
  · intro path' dir' hnone hsome
    rw [hold path' dir' hsome] at hnone
    cases hnone
  · intro path' dir' hsome hne
    dsimp only at hne
    rw [hget] at hne
    split at hne
    · rename_i heq
      rw [heq, hdir] at hsome
      cases hsome
      exact hright
    · exact absurd hsome hne
  · intro path' dir₁ dir₂ hsome hsome'
    have hsame := hold path' dir₂ hsome'
    rw [hsome] at hsame
    cases hsame
    exact ⟨rfl, Or.inl rfl⟩
  · exact fun path' dir' c info hsome => hwf.recorded path' dir' c info (hold path' dir' hsome)
  · exact fun path' dir' c hsome => hwf.creators path' dir' c (hold path' dir' hsome)
  · exact fun key dir' hsome => hwf.scopes key dir' (hold _ dir' hsome)

end

/-! ## Changes of the guard and of the parent directory -/

section
variable {host : Host ι} {p : ι} {w : World ι}

/-- Where the lock directories stay as they are, only the guard is to be looked at. -/
theorem guar_guard {guard : Guard ι}
    (hguard : ∀ q, q ≠ p → (guard = .held (some q) ↔ w.guard = .held (some q))) :
    Guar host p w { w with guard := guard } where
  born := rfl
  dead := rfl
  guardOthers := hguard
  added := by
    intro path dir' hnone hsome
    rw [show w.locks.get path = some dir' from hsome] at hnone
    cases hnone
  touched := fun path dir hsome hne => absurd hsome hne
  kept := by
    intro path dir dir' hsome hsome'
    rw [show w.locks.get path = some dir' from hsome'] at hsome
    cases hsome
    exact ⟨rfl, Or.inl rfl⟩
  wf := fun hwf => ⟨hwf.recorded, hwf.creators, hwf.scopes⟩

theorem locks_withParent (path : LockPath) : (w.withParent path).locks = w.locks := by
  cases path <;> rfl

theorem guard_withParent (path : LockPath) : (w.withParent path).guard = w.guard := by
  cases path <;> rfl

theorem born_withParent (path : LockPath) : (w.withParent path).born = w.born := by
  cases path <;> rfl

theorem guar_withParent (path : LockPath) : Guar host p w (w.withParent path) := by
  have hrefl : Guar host p w w := Guar.refl w
  cases path with
  | whole => exact hrefl
  | scope key =>
    exact ⟨rfl, rfl, hrefl.guardOthers, hrefl.added, hrefl.touched, hrefl.kept,
      fun hwf => ⟨hwf.recorded, hwf.creators, fun _ _ _ => rfl⟩⟩

end

/-! ## What the changing calls do -/

section
variable [DecidableEq ι] {host : Host ι} {p : ι} {fault : Bool} {w w' : World ι} {path : LockPath}
  {r : Change}

attribute [local grind =] World.exec

theorem exec_makeGuard (h : w.exec host p fault .makeGuard = (r, w')) :
    (r ≠ .done ∧ w' = w) ∨
      (r = .done ∧ w.guard = .absent ∧ w' = { w with guard := .held (some p) }) := by
  cases fault with
  | true =>
    obtain ⟨rfl, rfl⟩ := Prod.mk.inj h
    exact Or.inl ⟨nofun, rfl⟩
  | false =>
    simp only [World.exec, Bool.false_eq_true, if_false] at h
    split at h
    · rename_i habsent
      obtain ⟨rfl, rfl⟩ := Prod.mk.inj h
      exact Or.inr ⟨rfl, habsent, rfl⟩
    · obtain ⟨rfl, rfl⟩ := Prod.mk.inj h
      exact Or.inl ⟨nofun, rfl⟩

theorem exec_removeGuard (h : w.exec host p fault .removeGuard = (r, w')) :
    w' = w ∨ w' = { w with guard := .absent } := by
  cases fault with
  | true =>
    obtain ⟨rfl, rfl⟩ := Prod.mk.inj h
    exact Or.inl rfl
  | false =>
    simp only [World.exec, Bool.false_eq_true, if_false] at h
    split at h
    · obtain ⟨rfl, rfl⟩ := Prod.mk.inj h
      exact Or.inl rfl
    · obtain ⟨rfl, rfl⟩ := Prod.mk.inj h
      exact Or.inr rfl

theorem exec_makeParent (h : w.exec host p fault (.makeParent path) = (r, w')) :
    (r = .failed ∧ w' = w) ∨ (r = .done ∧ w' = w.withParent path) := by
  cases fault with
  | true =>
    obtain ⟨rfl, rfl⟩ := Prod.mk.inj h
    exact Or.inl ⟨rfl, rfl⟩
  | false =>
    obtain ⟨rfl, rfl⟩ := Prod.mk.inj h
    exact Or.inr ⟨rfl, rfl⟩

theorem exec_makeLock (h : w.exec host p fault (.makeLock path) = (r, w')) :
    (r = .failed ∧ w' = w) ∨ (r = .alreadyThere ∧ w' = w ∧ w.locks.get path ≠ none) ∨
      (r = .done ∧ w.hasParent path = true ∧ w' = w.setLock path ⟨.missing, false, some p⟩) := by
  simp only [World.exec] at h
  split at h
  · obtain ⟨rfl, rfl⟩ := Prod.mk.inj h
    exact Or.inl ⟨rfl, rfl⟩
  · rename_i hready
    split at h
    · rename_i hthere
      obtain ⟨rfl, rfl⟩ := Prod.mk.inj h
      refine Or.inr (Or.inl ⟨rfl, rfl, fun hnone => ?_⟩)
      rw [World.has, hnone] at hthere
      cases hthere
    · obtain ⟨rfl, rfl⟩ := Prod.mk.inj h
      refine Or.inr (Or.inr ⟨rfl, ?_, rfl⟩)
      cases hparent : w.hasParent path with
      | true => rfl
      | false =>
        rw [hparent, Bool.not_false, Bool.or_true] at hready
        exact absurd rfl hready

/-- Where the directory is there, making it again changes nothing. -/
theorem exec_makeInfoParent (h : w.exec host p fault (.makeInfoParent path) = (r, w'))
    (hthere : w.locks.get path ≠ none) : (r = .failed ∨ r = .done) ∧ w' = w := by
  have hhas : w.has path = true := by
    obtain ⟨dir, hdir⟩ := Option.ne_none_iff_exists'.mp hthere
    rw [World.has, hdir]
    rfl
  simp only [World.exec, hhas, if_true] at h
  split at h
  · obtain ⟨rfl, rfl⟩ := Prod.mk.inj h
    exact ⟨Or.inl rfl, rfl⟩
  · obtain ⟨rfl, rfl⟩ := Prod.mk.inj h
    exact ⟨Or.inr rfl, rfl⟩

theorem exec_writeTmp (h : w.exec host p fault (.writeTmp path) = (r, w')) {dir : LockDir ι}
    (hdir : w.locks.get path = some dir) :
    (r = .failed ∨ r = .done) ∧ w' = w.setLock path { dir with tmp := true } := by
  simp only [World.exec, hdir] at h
  obtain ⟨rfl, rfl⟩ := Prod.mk.inj h
  refine ⟨?_, rfl⟩
  cases fault with
  | true => exact Or.inl rfl
  | false => exact Or.inr rfl

theorem exec_replaceInfo {info : LockInfo}
    (h : w.exec host p fault (.replaceInfo path info) = (r, w')) {dir : LockDir ι}
    (hdir : w.locks.get path = some dir) :
    (r = .failed ∧ w' = w) ∨
      (r = .done ∧ w' = w.setLock path { dir with metadata := .record info, tmp := false }) := by
  simp only [World.exec, hdir] at h
  split at h
  · obtain ⟨rfl, rfl⟩ := Prod.mk.inj h
    exact Or.inl ⟨rfl, rfl⟩
  · obtain ⟨rfl, rfl⟩ := Prod.mk.inj h
    exact Or.inr ⟨rfl, rfl⟩

theorem exec_unlinkInfo (h : w.exec host p fault (.unlinkInfo path) = (r, w')) :
    (r ≠ .done ∧ w' = w) ∨ (r = .done ∧ ∃ dir, w.locks.get path = some dir ∧
      dir.metadata ≠ .missing ∧ w' = w.setLock path { dir with metadata := .missing }) := by
  cases fault with
  | true =>
    obtain ⟨rfl, rfl⟩ := Prod.mk.inj h
    exact Or.inl ⟨by rintro ⟨⟩, rfl⟩
  | false =>
    simp only [World.exec, Bool.false_eq_true, if_false] at h
    split at h
    · rename_i dir hdir
      split at h
      · obtain ⟨rfl, rfl⟩ := Prod.mk.inj h
        exact Or.inl ⟨by rintro ⟨⟩, rfl⟩
      · rename_i hmetadata
        obtain ⟨rfl, rfl⟩ := Prod.mk.inj h
        exact Or.inr ⟨rfl, dir, hdir, hmetadata, rfl⟩
    · obtain ⟨rfl, rfl⟩ := Prod.mk.inj h
      exact Or.inl ⟨by rintro ⟨⟩, rfl⟩

theorem exec_removeLock (h : w.exec host p fault (.removeLock path) = (r, w')) :
    (r ≠ .done ∧ w' = w) ∨ (r = .done ∧ ∃ dir, w.locks.get path = some dir ∧
      w' = { w with locks := w.locks.pop path }) := by
  cases fault with
  | true =>
    obtain ⟨rfl, rfl⟩ := Prod.mk.inj h
    exact Or.inl ⟨by rintro ⟨⟩, rfl⟩
  | false =>
    simp only [World.exec, Bool.false_eq_true, if_false] at h
    split at h
    · rename_i dir hdir
      split at h
      · obtain ⟨rfl, rfl⟩ := Prod.mk.inj h
        exact Or.inl ⟨by rintro ⟨⟩, rfl⟩
      · obtain ⟨rfl, rfl⟩ := Prod.mk.inj h
        exact Or.inr ⟨rfl, dir, hdir, rfl⟩
    · obtain ⟨rfl, rfl⟩ := Prod.mk.inj h
      exact Or.inl ⟨by rintro ⟨⟩, rfl⟩

end

end Remrun.Locks
