import Remrun.Reconcile.Applied

/-!
# Repeating a conflicted synchronization

After a call that ends with conflicts the stored baseline is the old one. What it applied is
classified against that baseline again, and comes out settled unless a pulled file carries no digest
or is listed under another spelling.
-/

namespace Remrun.Reconcile

open Keyed Effect
set_option autoImplicit false

/-! ## The second call -/

section Again
variable {P : Platform} {env : Env P} {a : SyncArgs} {w w' : World P} {result : SyncResult}

/-- The call applied its plan and reports conflicts. -/
structure SyncResult.Conflicted (result : SyncResult) : Prop where
  exitCode : result.exitCode = .conflict
  conflicts : result.conflicts ≠ []

/-- The plan is carried out, the conflicts are left alone, and planning again finds them only.
A second call plans unless the remote root is missing, which a first call without failures
excludes. -/
structure Repeatable (a : SyncArgs) (w w' : World P) (result : SyncResult) : Prop where
  pulled : ∀ rel ∈ pathsFor .pull (a.planOf w), w'.localRoot.file rel = w.remoteRoot.file rel
  pushed : ∀ rel ∈ pathsFor .push (a.planOf w), w'.remoteRoot.file rel = w.localRoot.file rel
  deletedLocal : ∀ rel ∈ pathsFor .deleteLocal (a.planOf w), w'.localRoot.get rel = none
  deletedRemote : ∀ rel ∈ pathsFor .deleteRemote (a.planOf w), w'.remoteRoot.get rel = none
  untouched : ∀ rel ∈ pathsFor .abortConflict (a.planOf w), ∀ side,
    w'.node side rel = w.node side rel
  baseline : result.written = none
  plans : ∀ env' : Env P, env'.Calm → w'.remoteRoot ≠ .missing →
    ∃ seen w'', planSync env' a w' = .ok (.ok seen) w''
  again : ∀ env' : Env P, env'.Quiet → ∀ seen w'', planSync env' a w' = .ok (.ok seen) w'' →
    a.toApply seen.1 seen.2 = planConflicts (a.planOf w)

/-- Every pulled file is small enough to be hashed and finds its own spelling on the controller,
and nothing that is written is the file of a conflicting path under another spelling. -/
structure Settles (a : SyncArgs) (w : World P) : Prop where
  hashed : ∀ rel ∈ pathsFor .pull (a.planOf w), ∀ entry, (a.seenOf w).2.get rel = some entry →
    entry.size ≤ hashAll
  spelled : Spelled a w
  apartLocal : ∀ rel ∈ pathsFor .abortConflict (a.planOf w),
    ∀ p ∈ pathsFor .pull (a.planOf w) ++ pathsFor .deleteLocal (a.planOf w),
      P.localKey p ≠ P.localKey rel
  apartRemote : ∀ rel ∈ pathsFor .abortConflict (a.planOf w),
    ∀ p ∈ pathsFor .push (a.planOf w) ++ pathsFor .deleteRemote (a.planOf w),
      P.remoteKey p ≠ P.remoteKey rel

theorem planSync_conflicts : Yields (planSync env a) fun planned => match planned with
    | .error result => result.conflicts = []
    | .ok _ => True := by
  refine yields_bind (yields_any _) fun goes _ => ?_
  cases goes with
  | false => exact yields_pure rfl
  | true =>
    refine yields_bind (yields_any _) fun localManifest _ => ?_
    refine yields_bind (yields_any _) fun remote _ => ?_
    cases remote with
    | none => exact yields_pure rfl
    | some remoteManifest =>
      refine yields_bind (yields_any _) fun gone _ => ?_
      split
      · exact yields_pure rfl
      · split
        · exact yields_pure rfl
        · exact yields_pure trivial

/-- A run that ends with conflicts went through all stages and wrote no baseline. -/
theorem run_stages (hquiet : env.Quiet) (hrun : runSyncResult env a w = .ok (.ok result) w')
    (hends : result.Conflicted) : result.written = none ∧
      ∃ w₀, PlannedFrom P a w (a.seenOf w) w₀ ∧ Stages env a (a.seenOf w) w₀ w' := by
  obtain ⟨planned, w₀, hplan, hrest⟩ := bind_returns hrun
  cases planned with
  | error exit =>
    cases hrest
    exact absurd (planSync_conflicts.ok hplan) hends.conflicts
  | ok seen =>
    have hplanned := planSync_quiet hquiet hplan
    obtain rfl := hplanned.seen
    dsimp only at hrest
    unfold carryOut at hrest
    split at hrest
    · cases hrest
      exact absurd rfl hends.conflicts
    · obtain ⟨applied, w₁, happly, hrest⟩ := bind_returns hrest
      cases applied with
      | error failed =>
        cases hrest
        have hfailed : result.Failed := yields_applySync.ok happly
        have hexit := hfailed.exitCode
        rw [hends.exitCode] at hexit
        cases hexit
      | ok out =>
        have hreported : SyncReported P a _ _ _ out := yields_applySync.ok happly
        obtain ⟨hfinish, rfl⟩ : finishSync a (a.seenOf w) out.1 out.2 = .ok result ∧ w₁ = w' :=
          EStateM.Result.ok.inj hrest
        have hresult : result.written = none := by
          unfold finishSync at hfinish
          split at hfinish
          · rename_i hclear
            split at hfinish
            · obtain rfl := Except.ok.inj hfinish
              exact absurd hclear.2 hends.conflicts
            · cases hfinish
          · obtain rfl := Except.ok.inj hfinish
            exact hreported.written
        exact ⟨hresult, w₀, hplanned, applySync_stages happly⟩

/-! ### The entries of the two calls -/

theorem item_of_pathsFor (hboth : a.direction = .both) {action : Action} {rel : String}
    (h : rel ∈ pathsFor action (a.planOf w)) :
    ∃ item ∈ a.planOf w, item.path = rel ∧ item.action = action ∧
      a.classifyAt rel ((a.seenOf w).1.get rel) ((a.seenOf w).2.get rel) = some item ∧
      item.Concerns ((a.seenOf w).1.get rel) ((a.seenOf w).2.get rel) := by
  obtain ⟨item, hitem, haction, rfl⟩ := mem_pathsFor.mp h
  have hclassify := ((mem_planOf hboth).mp hitem).1
  exact ⟨item, hitem, rfl, haction, hclassify, classifyAt_concerns hclassify⟩

/-- Entries of one file content are the same if it is hashed. -/
theorem contentSame_entryOf {s : Surface} {side side' : Side} {rel : String} {bytes : Bytes}
    {t t' : Int} {m m' : Nat} {le re : FileEntry}
    (hle : entryOf P s side rel (some (.file bytes t m)) = some le)
    (hre : entryOf P s side' rel (some (.file bytes t' m')) = some re)
    (hhash : s.hashes bytes.length = true) : entriesContentSame le re = true := by
  obtain rfl := Option.some.inj hle
  obtain rfl := Option.some.inj hre
  exact entriesContentSame_eq_true.mpr ⟨rfl, rfl, P.sha256 bytes, if_pos hhash, if_pos hhash⟩

theorem entryOf_file (s : Surface) (side : Side) (rel : String) (bytes : Bytes) (t : Int)
    (m : Nat) :
    ∃ entry, entryOf P s side rel (some (.file bytes t m)) = some entry := ⟨_, rfl⟩

theorem surface_hashes {size : Nat} : a.surface.hashes size = true ↔ size ≤ hashAll := by
  have hbound : decide (hashAll ≠ 0) = true := by decide
  change (decide (hashAll ≠ 0) && decide (size ≤ hashAll)) = true ↔ _
  rw [hbound, Bool.true_and, decide_eq_true_eq]

/-- A pulled path is a remote file of the surface. -/
theorem pull_remote (hboth : a.direction = .both) {rel : String}
    (h : rel ∈ pathsFor .pull (a.planOf w)) :
    a.surface.covers P rel = true ∧ ∃ re bytes t m, (a.seenOf w).2.get rel = some re ∧
      w.remoteRoot.listed rel = some (.file bytes t m) ∧
      entryOf P a.surface .target rel (some (.file bytes t m)) = some re := by
  obtain ⟨item, _, rfl, haction, _, hconcerns⟩ := item_of_pathsFor hboth h
  simp only [ClassifiedPath.Concerns, haction] at hconcerns
  obtain ⟨re, hre⟩ := Option.isSome_iff_exists.mp hconcerns
  obtain ⟨hcovers, bytes, t, m, hlisted, hentry⟩ := listed_of_manifestOf hre
  exact ⟨hcovers, re, bytes, t, m, hre, hlisted, hentry⟩

theorem push_local (hboth : a.direction = .both) {rel : String}
    (h : rel ∈ pathsFor .push (a.planOf w)) :
    a.surface.covers P rel = true ∧ ∃ le bytes t m, (a.seenOf w).1.get rel = some le ∧
      w.localRoot.listed rel = some (.file bytes t m) ∧
      entryOf P a.surface .controller rel (some (.file bytes t m)) = some le := by
  obtain ⟨item, _, rfl, haction, _, hconcerns⟩ := item_of_pathsFor hboth h
  simp only [ClassifiedPath.Concerns, haction] at hconcerns
  obtain ⟨le, hle⟩ := Option.isSome_iff_exists.mp hconcerns
  obtain ⟨hcovers, bytes, t, m, hlisted, hentry⟩ := listed_of_manifestOf hle
  exact ⟨hcovers, le, bytes, t, m, hle, hlisted, hentry⟩

theorem file_of_get {key : String → String} {root : Root key} {rel : String} {bytes : Bytes}
    {t : Int} {m : Nat} (h : root.get rel = some (.file bytes t m)) :
    root.file rel = some bytes ∧ root.reads rel = some bytes := by
  rw [Root.file, Root.reads, h]
  exact ⟨rfl, rfl⟩

/-- What is pushed and shown afterwards is small enough to be hashed. -/
theorem pushed_hashed {rel : String} {le : FileEntry} {bytes : Bytes} {t : Int} {m : Nat}
    (hle : (a.seenOf w).1.get rel = some le)
    (hentry : entryOf P a.surface .controller rel (some (.file bytes t m)) = some le)
    (hvisible : mismatched (a.seenOf w).1 (a.seenOf w').2 rel = false) :
    a.surface.hashes bytes.length = true := by
  obtain ⟨le', re, hle', _, hsame⟩ := shown_of_visible hvisible
  rw [hle] at hle'
  obtain rfl := Option.some.inj hle'
  by_contra hno
  have hsha : le.sha256 = none := by
    rw [← Option.some.inj hentry]
    exact if_neg hno
  unfold sameContent at hsame
  rw [hsha] at hsame
  split at hsame <;> cases hsame

/-! ### The plan that settles -/

section Settled
variable (hran : Ran a w w') (hlanded : Landed a w w') (hboth : a.direction = .both)
include hran hlanded

/-- A path that nothing wrote has the entries it had. -/
theorem entries_unwritten {rel : String} (hpull : rel ∉ pathsFor .pull (a.planOf w))
    (hpush : rel ∉ pathsFor .push (a.planOf w)) (hlocal : rel ∉ pathsFor .deleteLocal (a.planOf w))
    (hremote : rel ∉ pathsFor .deleteRemote (a.planOf w)) :
    (a.seenOf w').1.get rel = (a.seenOf w).1.get rel ∧
      (a.seenOf w').2.get rel = (a.seenOf w).2.get rel := by
  constructor
  · exact manifestOf_congr (by rw [hlanded.locals rel hpull, if_neg hlocal])
  · exact manifestOf_congr (by rw [hran.remotes rel hpush, if_neg hremote])

include hboth

/-- A path that the plan wrote comes out settled, one case for each action. -/
theorem entries_written (hprev : a.PrevEqual)
    (hhashed : ∀ rel ∈ pathsFor .pull (a.planOf w), ∀ entry, (a.seenOf w).2.get rel = some entry →
      entry.size ≤ hashAll) {rel : String} {action : Action}
    (hrel : rel ∈ pathsFor action (a.planOf w)) (haction : action ≠ .abortConflict)
    {item : ClassifiedPath}
    (h : a.classifyAt rel ((a.seenOf w').1.get rel) ((a.seenOf w').2.get rel) = some item) :
    item.action = .none := by
  have hsettled : ∀ {le re : FileEntry}, (a.seenOf w').1.get rel = some le →
      (a.seenOf w').2.get rel = some re → entriesContentSame le re = true →
      item.action = .none := by
    intro le re hle hre hsame
    obtain ⟨item', hitem', hnone⟩ := classifyAt_content hprev rel hsame
    rw [hle, hre, hitem'] at h
    rw [← Option.some.inj h]
    exact hnone
  have hgone : (a.seenOf w').1.get rel = none → (a.seenOf w').2.get rel = none →
      item.action = .none := by
    intro hle hre
    rw [hle, hre] at h
    unfold SyncArgs.classifyAt at h
    split at h <;> cases h
  obtain ⟨first, _, _, hfirst, _, hconcerns⟩ := item_of_pathsFor hboth hrel
  have hno : ∀ action', action ≠ action' → rel ∉ pathsFor action' (a.planOf w) :=
    fun action' hne hin => hne (pathsFor_unique hboth hrel hin)
  cases action with
  | none =>
    obtain ⟨item', hitem', hnone, _⟩ := mem_pathsFor.mp hrel
    exact absurd hnone ((mem_planOf hboth).mp hitem').2
  | abortConflict => exact absurd rfl haction
  | pull =>
    obtain ⟨hcovers, re, bytes, t, m, hre, hlisted, hentry⟩ := pull_remote hboth hrel
    obtain ⟨bytes', t', m', hlisted', hreads⟩ := hlanded.pulled rel hrel
    have hbytes : bytes' = bytes := by
      have hsame := (file_of_get (Root.get_of_listed hlisted)).2
      exact Option.some.inj (hreads.symm.trans hsame)
    subst hbytes
    obtain ⟨le, hle⟩ := entryOf_file (P := P) a.surface .controller rel bytes' t' m'
    have hre' : (a.seenOf w').2.get rel = some re := by
      rw [← hre]
      refine manifestOf_congr ?_
      rw [hran.remotes rel (hno _ (by decide)), if_neg (hno _ (by decide))]
    have hsize : bytes'.length ≤ hashAll := by
      have hbound := hhashed rel hrel re hre
      rwa [← Option.some.inj hentry] at hbound
    exact hsettled ((manifestOf_of_listed hcovers hlisted').trans hle) hre'
      (contentSame_entryOf hle hentry (surface_hashes.mpr hsize))
  | push =>
    obtain ⟨hcovers, le, bytes, t, m, hle, hlisted, hentry⟩ := push_local hboth hrel
    have hlocal : w'.localRoot.listed rel = some (.file bytes t m) := by
      rw [hlanded.locals rel (hno _ (by decide)), if_neg (hno _ (by decide)), hlisted]
    obtain ⟨bytes', t', m', hlisted', hreads⟩ := hran.pushed rel hrel
    have hbytes : bytes' = bytes := by
      have hsame := (file_of_get (Root.get_of_listed hlocal)).2
      exact Option.some.inj (hreads.symm.trans hsame)
    subst hbytes
    have hle' : (a.seenOf w').1.get rel = some le :=
      (manifestOf_of_listed hcovers hlocal).trans hentry
    obtain ⟨re, hre⟩ := entryOf_file (P := P) a.surface .target rel bytes' t' m'
    exact hsettled hle' ((manifestOf_of_listed hcovers hlisted').trans hre)
      (contentSame_entryOf hentry hre (pushed_hashed hle hentry (hran.visible rel hrel)))
  | deleteLocal =>
    simp only [ClassifiedPath.Concerns, hfirst] at hconcerns
    refine hgone ?_ ?_
    · rw [SyncArgs.seenOf, get_manifestOf_listed, hlanded.locals rel (hno _ (by decide)),
        if_pos hrel]
      exact ite_self _
    · rw [← hconcerns.2]
      refine manifestOf_congr ?_
      rw [hran.remotes rel (hno _ (by decide)), if_neg (hno _ (by decide))]
  | deleteRemote =>
    simp only [ClassifiedPath.Concerns, hfirst] at hconcerns
    refine hgone ?_ ?_
    · rw [← hconcerns.1]
      refine manifestOf_congr ?_
      rw [hlanded.locals rel (hno _ (by decide)), if_neg (hno _ (by decide))]
    · rw [SyncArgs.seenOf, get_manifestOf_listed, hran.remotes rel (hno _ (by decide)),
        if_pos hrel]
      exact ite_self _

theorem planOf_again (hprev : a.PrevEqual)
    (hhashed : ∀ rel ∈ pathsFor .pull (a.planOf w), ∀ entry, (a.seenOf w).2.get rel = some entry →
      entry.size ≤ hashAll) : a.planOf w' = planConflicts (a.planOf w) := by
  have hconflict : ∀ {item : ClassifiedPath}, item ∈ planConflicts (a.planOf w) ↔
      item ∈ a.planOf w ∧ item.action = .abortConflict := by
    intro item
    simp [planConflicts]
  have hunwritten : ∀ {rel : String}, (∀ action, action ≠ .abortConflict →
      rel ∉ pathsFor action (a.planOf w)) → (a.seenOf w').1.get rel = (a.seenOf w).1.get rel ∧
      (a.seenOf w').2.get rel = (a.seenOf w).2.get rel :=
    fun h => entries_unwritten hran hlanded (h _ (by decide)) (h _ (by decide)) (h _ (by decide))
      (h _ (by decide))
  have hsub : (planConflicts (a.planOf w)).Sublist (a.planOf w) := List.filter_sublist
  have hsorted : ∀ w : World P, (a.planOf w).Pairwise fun x y => x.path ≤ y.path :=
    fun w => (classified_sorted a _ _).sublist List.filter_sublist
  refine plan_ext (toApply_nodup a _ _) ((toApply_nodup a _ _).sublist (hsub.map _)) (hsorted w')
    ((hsorted w).sublist hsub) fun item => ?_
  rw [hconflict, mem_planOf hboth]
  constructor
  · rintro ⟨hitem, haction⟩
    have hfree : ∀ action, action ≠ .abortConflict → item.path ∉ pathsFor action (a.planOf w) :=
      fun action hne hin =>
        haction (entries_written hran hlanded hboth hprev hhashed hin hne hitem)
    obtain ⟨hle, hre⟩ := hunwritten hfree
    rw [hle, hre] at hitem
    have hin : item ∈ a.planOf w := (mem_planOf hboth).mpr ⟨hitem, haction⟩
    refine ⟨hin, ?_⟩
    by_contra hne
    exact hfree item.action hne (mem_pathsFor.mpr ⟨item, hin, rfl, rfl⟩)
  · rintro ⟨hin, haction⟩
    have hrel := mem_pathsFor.mpr ⟨item, hin, haction, rfl⟩
    have hfree : ∀ action, action ≠ .abortConflict → item.path ∉ pathsFor action (a.planOf w) :=
      fun action hne hin' => hne (pathsFor_unique hboth hin' hrel)
    obtain ⟨hle, hre⟩ := hunwritten hfree
    rw [hle, hre]
    exact (mem_planOf hboth).mp hin

end Settled

section Main
variable {w₀ : World P}

/-- A deleted file has no other spelling that is left or pulled. -/
theorem deletedLocal_gone (hboth : a.direction = .both)
    (hplanned : PlannedFrom P a w (a.seenOf w) w₀) (hlanded : Landed a w w') {rel : String}
    (hrel : rel ∈ pathsFor .deleteLocal (a.planOf w)) : w'.localRoot.get rel = none := by
  obtain ⟨hlocalKeys, _⟩ := distinct_of_planned hplanned.distinct
  obtain ⟨item, _, rfl, haction, _, hconcerns⟩ := item_of_pathsFor hboth hrel
  simp only [ClassifiedPath.Concerns, haction] at hconcerns
  have hkey : item.path ∈ (a.seenOf w).1.keys :=
    mem_keys_iff.mpr (Option.isSome_iff_exists.mp hconcerns.1)
  cases hget : w'.localRoot.get item.path with
  | none => rfl
  | some node =>
    obtain ⟨q, hq, hlisted⟩ := Root.get_eq_some.mp hget
    by_cases hpull : q ∈ pathsFor .pull (a.planOf w)
    · obtain rfl := hlocalKeys q (List.mem_append_right _ hpull) item.path
        (List.mem_append_left _ hkey) hq
      exact absurd (pathsFor_unique hboth hpull hrel) (by decide)
    · rw [hlanded.locals q hpull] at hlisted
      split at hlisted
      · cases hlisted
      · rename_i hkept
        obtain rfl := Root.lists_unique (Root.listed_eq_some.mp hlisted).1
          (lists_of_manifestOf hconcerns.1) hq
        exact absurd hrel hkept

theorem deletedRemote_gone (hboth : a.direction = .both)
    (hplanned : PlannedFrom P a w (a.seenOf w) w₀) (hran : Ran a w w') {rel : String}
    (hrel : rel ∈ pathsFor .deleteRemote (a.planOf w)) : w'.remoteRoot.get rel = none := by
  obtain ⟨_, hremoteKeys⟩ := distinct_of_planned hplanned.distinct
  obtain ⟨item, _, rfl, haction, _, hconcerns⟩ := item_of_pathsFor hboth hrel
  simp only [ClassifiedPath.Concerns, haction] at hconcerns
  have hkey : item.path ∈ (a.seenOf w).2.keys :=
    mem_keys_iff.mpr (Option.isSome_iff_exists.mp hconcerns.2)
  cases hget : w'.remoteRoot.get item.path with
  | none => rfl
  | some node =>
    obtain ⟨q, hq, hlisted⟩ := Root.get_eq_some.mp hget
    by_cases hpush : q ∈ pathsFor .push (a.planOf w)
    · obtain rfl := hremoteKeys q (List.mem_append_right _ hpush) item.path
        (List.mem_append_left _ hkey) hq
      exact absurd (pathsFor_unique hboth hpush hrel) (by decide)
    · rw [hran.remotes q hpush] at hlisted
      split at hlisted
      · cases hlisted
      · rename_i hkept
        obtain rfl := Root.lists_unique (Root.listed_eq_some.mp hlisted).1
          (lists_of_manifestOf hconcerns.2) hq
        exact absurd hrel hkept

theorem pulled_file (hboth : a.direction = .both) (hlanded : Landed a w w') {rel : String}
    (hrel : rel ∈ pathsFor .pull (a.planOf w)) : w'.localRoot.file rel = w.remoteRoot.file rel := by
  obtain ⟨_, _, bytes, t, m, _, hlisted, _⟩ := pull_remote hboth hrel
  obtain ⟨bytes', t', m', hlisted', hreads⟩ := hlanded.pulled rel hrel
  have hremote := file_of_get (Root.get_of_listed hlisted)
  rw [(file_of_get (Root.get_of_listed hlisted')).1, hremote.1, ← hreads, hremote.2]

theorem pushed_file (hboth : a.direction = .both) (hran : Ran a w w') (hlanded : Landed a w w')
    {rel : String}
    (hrel : rel ∈ pathsFor .push (a.planOf w)) : w'.remoteRoot.file rel = w.localRoot.file rel := by
  obtain ⟨_, _, bytes, t, m, _, hlisted, _⟩ := push_local hboth hrel
  obtain ⟨bytes', t', m', hlisted', hreads⟩ := hran.pushed rel hrel
  have hlocal : w'.localRoot.listed rel = some (.file bytes t m) := by
    have hno : ∀ action, .push ≠ action → rel ∉ pathsFor action (a.planOf w) :=
      fun action hne hin => hne (pathsFor_unique hboth hrel hin)
    rw [hlanded.locals rel (hno _ (by decide)), if_neg (hno _ (by decide)), hlisted]
  rw [(file_of_get (Root.get_of_listed hlisted')).1, (file_of_get (Root.get_of_listed hlisted)).1,
    ← hreads, (file_of_get (Root.get_of_listed hlocal)).2]

theorem conflict_untouched (hran : Ran a w w') (hlanded : Landed a w w') (hsettles : Settles a w)
    {rel : String}
    (hrel : rel ∈ pathsFor .abortConflict (a.planOf w)) (side : Side) :
    w'.node side rel = w.node side rel := by
  cases side with
  | controller =>
    refine Root.get_eq_of_listed fun q hq => ?_
    have hnot : ∀ paths, q ∈ paths → paths = pathsFor .pull (a.planOf w) ∨
        paths = pathsFor .deleteLocal (a.planOf w) → False := by
      rintro paths hin (rfl | rfl)
      · exact hsettles.apartLocal rel hrel q (List.mem_append_left _ hin) hq
      · exact hsettles.apartLocal rel hrel q (List.mem_append_right _ hin) hq
    rw [hlanded.locals q fun hin => hnot _ hin (Or.inl rfl),
      if_neg fun hin => hnot _ hin (Or.inr rfl)]
  | target =>
    refine Root.get_eq_of_listed fun q hq => ?_
    have hnot : ∀ paths, q ∈ paths → paths = pathsFor .push (a.planOf w) ∨
        paths = pathsFor .deleteRemote (a.planOf w) → False := by
      rintro paths hin (rfl | rfl)
      · exact hsettles.apartRemote rel hrel q (List.mem_append_left _ hin) hq
      · exact hsettles.apartRemote rel hrel q (List.mem_append_right _ hin) hq
    rw [hran.remotes q fun hin => hnot _ hin (Or.inl rfl),
      if_neg fun hin => hnot _ hin (Or.inr rfl)]

theorem pathsFor_planConflicts {action : Action} (hne : action ≠ .abortConflict)
    (plan : List ClassifiedPath) : pathsFor action (planConflicts plan) = [] := by
  unfold pathsFor planConflicts
  rw [List.filter_filter, List.map_eq_nil_iff, List.filter_eq_nil_iff]
  intro item _ hitem
  simp only [Bool.and_eq_true, decide_eq_true_eq] at hitem
  exact hne (hitem.1.symm.trans hitem.2)

/-- Under the condition a second call plans, and finds the conflicts only. -/
theorem repeatable_of_settles (hboth : a.direction = .both) (hprev : a.PrevEqual)
    (hplanned : PlannedFrom P a w (a.seenOf w) w₀) (hran : Ran a w w')
    (hwritten : result.written = none)
    (hlanded : Landed a w w') (hsettles : Settles a w) : Repeatable a w w' result := by
  have hagain := planOf_again hran hlanded hboth hprev hsettles.hashed
  have hnone : ∀ action, action ≠ .abortConflict → pathsFor action (a.planOf w') = [] :=
    fun action hne => hagain ▸ pathsFor_planConflicts hne _
  refine ⟨fun rel => pulled_file hboth hlanded, fun rel => pushed_file hboth hran hlanded,
    fun rel => deletedLocal_gone hboth hplanned hlanded,
    fun rel => deletedRemote_gone hboth hplanned hran,
    fun rel hrel => conflict_untouched hran hlanded hsettles hrel, hwritten, ?_, ?_⟩
  · intro env' hcalm hmissing
    have hpresent : ∀ prev, a.baseline = some prev → prev.1.rows ≠ [] →
        (a.seenOf w').1.rows = [] → w'.localRoot ≠ .missing := by
      intro prev hbase hrows _ hmissing'
      have hgone := hran.stands.2 hmissing'
      refine hplanned.present prev hbase hrows ?_ hgone
      unfold SyncArgs.seenOf
      rw [hgone]
      rfl
    obtain ⟨w'', hplan⟩ := planSync_returns hcalm hboth hmissing hran.stands.1 hpresent
      (plannedCollisions_nil (distinct_manifestOf _) (distinct_manifestOf _) (hnone _ (by decide))
        (hnone _ (by decide)))
    exact ⟨_, w'', hplan⟩
  · intro env' hquiet' seen w'' hplan
    obtain rfl := (planSync_quiet hquiet' hplan).seen
    exact hagain

/-- What the second call plans, where it plans. -/
theorem Repeatable.plan_eq (h : Repeatable a w w' result) (hmissing : w'.remoteRoot ≠ .missing) :
    a.planOf w' = planConflicts (a.planOf w) := by
  obtain ⟨seen, w'', hplan⟩ := h.plans (calmEnv P) (calmEnv_calm P) hmissing
  obtain rfl := (planSync_quiet (calmEnv_calm P).toQuiet hplan).seen
  exact h.again (calmEnv P) (calmEnv_calm P).toQuiet _ _ hplan

/-- A call that plans to pull a remote file again was not repeatable. -/
theorem not_repeatable {rel : String} (hlists : w'.remoteRoot.Lists rel)
    (hpull : rel ∈ pathsFor .pull (a.planOf w')) : ¬ Repeatable a w w' result := by
  intro h
  have hmissing : w'.remoteRoot ≠ .missing := by
    intro hroot
    rw [hroot] at hlists
    exact hlists
  rw [h.plan_eq hmissing, pathsFor_planConflicts (by decide)] at hpull
  exact List.not_mem_nil hpull

/-- A pulled path gets no second action. -/
theorem Repeatable.pulled_settled (hboth : a.direction = .both) (hran : Ran a w w')
    (h : Repeatable a w w' result) {rel : String} (hrel : rel ∈ pathsFor .pull (a.planOf w))
    {item : ClassifiedPath}
    (hitem : a.classifyAt rel ((a.seenOf w').1.get rel) ((a.seenOf w).2.get rel) = some item) :
    item.action = .none := by
  by_contra hne
  obtain ⟨_, _, _, _, _, _, hlisted, _⟩ := pull_remote hboth hrel
  have hno : ∀ action, .pull ≠ action → rel ∉ pathsFor action (a.planOf w) :=
    fun action hne hin => hne (pathsFor_unique hboth hrel hin)
  have hsame : w'.remoteRoot.listed rel = w.remoteRoot.listed rel := by
    rw [hran.remotes rel (hno _ (by decide)), if_neg (hno _ (by decide))]
  have hmissing : w'.remoteRoot ≠ .missing := by
    intro hmissing
    rw [hmissing, hlisted] at hsame
    cases hsame
  obtain rfl := classifyAt_path hitem
  have hagain : item ∈ a.planOf w' := by
    refine (mem_planOf hboth).mpr ⟨?_, hne⟩
    rwa [show (a.seenOf w').2.get item.path = (a.seenOf w).2.get item.path from
      manifestOf_congr hsame]
  rw [h.plan_eq hmissing] at hagain
  obtain ⟨hin, hconflict⟩ := List.mem_filter.mp hagain
  have hrel' := mem_pathsFor.mpr ⟨item, hin, of_decide_eq_true hconflict, rfl⟩
  exact absurd (pathsFor_unique hboth hrel hrel') (by decide)

theorem Repeatable.spelled (hboth : a.direction = .both)
    (hplanned : PlannedFrom P a w (a.seenOf w) w₀) (hran : Ran a w w')
    (h : Repeatable a w w' result) : Spelled a w := by
  intro rel hrel q hq hkey
  by_contra hne
  obtain ⟨hlocalKeys, _⟩ := distinct_of_planned hplanned.distinct
  have hkept : q ∉ pathsFor .deleteLocal (a.planOf w) := by
    intro hin
    obtain ⟨item, _, rfl, haction, _, hconcerns⟩ := item_of_pathsFor hboth hin
    simp only [ClassifiedPath.Concerns, haction] at hconcerns
    exact hne (hlocalKeys _ (List.mem_append_left _ (mem_keys_iff.mpr
      (Option.isSome_iff_exists.mp hconcerns.1))) rel (List.mem_append_right _ hrel) hkey)
  -- the other spelling is still the one that is listed
  have hnot : ¬ w'.localRoot.Lists rel := fun hin =>
    hne (Root.lists_unique (hran.names q hq hkept) hin hkey)
  have hnone : (a.seenOf w').1.get rel = none := by
    rw [SyncArgs.seenOf, get_manifestOf_listed, Root.listed, if_neg hnot]
    exact ite_self _
  obtain ⟨_, re, _, _, _, hre, _, _⟩ := pull_remote hboth hrel
  obtain ⟨item, hitem, haction⟩ := classifyAt_remoteOnly a rel re
  rw [← hnone, ← hre] at hitem
  exact haction (h.pulled_settled hboth hran hrel hitem)

theorem Repeatable.hashed (hboth : a.direction = .both) (hprev : a.PrevEqual) (hran : Ran a w w')
    (hlanded : Landed a w w') (h : Repeatable a w w' result) {rel : String}
    (hrel : rel ∈ pathsFor .pull (a.planOf w)) {re : FileEntry}
    (hre : (a.seenOf w).2.get rel = some re) : re.size ≤ hashAll := by
  by_contra hlarge
  obtain ⟨hcovers, bytes, t, m, _, hentry⟩ := listed_of_manifestOf hre
  have hsha : re.sha256 = none := by
    have hno : ¬ a.surface.hashes bytes.length = true := by
      rw [surface_hashes]
      rwa [← Option.some.inj hentry] at hlarge
    rw [← Option.some.inj hentry]
    exact if_neg hno
  obtain ⟨bytes', t', m', hlisted, _⟩ := hlanded.pulled rel hrel
  obtain ⟨le, hle⟩ := entryOf_file (P := P) a.surface .controller rel bytes' t' m'
  obtain ⟨first, _, _, hfirst, hpull, _⟩ := item_of_pathsFor hboth hrel
  rw [hre] at hpull
  obtain ⟨item, hitem, haction⟩ := classifyAt_unhashed hprev hpull hfirst hsha le
  rw [← hre, ← (manifestOf_of_listed hcovers hlisted).trans hle] at hitem
  exact haction (h.pulled_settled hboth hran hrel hitem)

/-- A path that the plan transfers differs on the two sides. -/
theorem transfer_differs (hboth : a.direction = .both) (hprev : a.PrevEqual) {action : Action}
    {rel : String} (hrel : rel ∈ pathsFor action (a.planOf w)) {le re : FileEntry}
    (hle : (a.seenOf w).1.get rel = some le) (hre : (a.seenOf w).2.get rel = some re) :
    ¬ entriesContentSame le re = true := by
  intro hsame
  obtain ⟨item, hitem, _, _, hclassify, _⟩ := item_of_pathsFor hboth hrel
  obtain ⟨item', hitem', hnone⟩ := classifyAt_content hprev rel hsame
  rw [hle, hre, hitem'] at hclassify
  obtain rfl := Option.some.inj hclassify
  exact ((mem_planOf hboth).mp hitem).2 hnone

theorem Repeatable.apartLocal (hboth : a.direction = .both) (hprev : a.PrevEqual)
    (hlanded : Landed a w w') (h : Repeatable a w w' result)
    (hspelled : Spelled a w)
    (hhashed : ∀ rel ∈ pathsFor .pull (a.planOf w), ∀ entry, (a.seenOf w).2.get rel = some entry →
      entry.size ≤ hashAll) {rel p : String} (hrel : rel ∈ pathsFor .abortConflict (a.planOf w))
    (hp : p ∈ pathsFor .pull (a.planOf w) ++ pathsFor .deleteLocal (a.planOf w)) :
    P.localKey p ≠ P.localKey rel := by
  intro hkey
  have hsame : w'.localRoot.get p = w.localRoot.get p := by
    rw [Root.get_congr _ hkey, Root.get_congr w.localRoot hkey]
    exact h.untouched rel hrel .controller
  rcases List.mem_append.mp hp with hpull | hdelete
  · obtain ⟨bytes, t, m, hlisted, hreads⟩ := hlanded.pulled p hpull
    rw [Root.get_of_listed hlisted] at hsame
    obtain ⟨q, hq, hold⟩ := Root.get_eq_some.mp hsame.symm
    obtain rfl := hspelled p hpull q (Root.listed_eq_some.mp hold).1 hq
    obtain ⟨hcovers, re, bytes', t', m', hre, hremote, hentry⟩ := pull_remote hboth hpull
    obtain rfl : bytes = bytes' := Option.some.inj
      (hreads.symm.trans (file_of_get (Root.get_of_listed hremote)).2)
    obtain ⟨le, hle⟩ := entryOf_file (P := P) a.surface .controller q bytes t m
    have hsize : bytes.length ≤ hashAll := by
      have hbound := hhashed q hpull re hre
      rwa [← Option.some.inj hentry] at hbound
    exact transfer_differs hboth hprev hpull ((manifestOf_of_listed hcovers hold).trans hle) hre
      (contentSame_entryOf hle hentry (surface_hashes.mpr hsize))
  · rw [h.deletedLocal p hdelete] at hsame
    obtain ⟨item, _, rfl, haction, _, hconcerns⟩ := item_of_pathsFor hboth hdelete
    simp only [ClassifiedPath.Concerns, haction] at hconcerns
    obtain ⟨node, hnode⟩ := Root.get_of_lists (lists_of_manifestOf hconcerns.1)
    rw [hnode] at hsame
    cases hsame

theorem Repeatable.apartRemote (hboth : a.direction = .both) (hprev : a.PrevEqual)
    (hplanned : PlannedFrom P a w (a.seenOf w) w₀) (hran : Ran a w w') (hlanded : Landed a w w')
    (h : Repeatable a w w' result) {rel p : String}
    (hrel : rel ∈ pathsFor .abortConflict (a.planOf w))
    (hp : p ∈ pathsFor .push (a.planOf w) ++ pathsFor .deleteRemote (a.planOf w)) :
    P.remoteKey p ≠ P.remoteKey rel := by
  intro hkey
  have hsame : w'.remoteRoot.get p = w.remoteRoot.get p := by
    rw [Root.get_congr _ hkey, Root.get_congr w.remoteRoot hkey]
    exact h.untouched rel hrel .target
  rcases List.mem_append.mp hp with hpush | hdelete
  · obtain ⟨_, hremoteKeys⟩ := distinct_of_planned hplanned.distinct
    obtain ⟨bytes, t, m, hlisted, hreads⟩ := hran.pushed p hpush
    rw [Root.get_of_listed hlisted] at hsame
    obtain ⟨q, hq, hold⟩ := Root.get_eq_some.mp hsame.symm
    -- the file that is replaced has the spelling that is pushed
    obtain rfl : q = p := by
      by_cases hpush' : q ∈ pathsFor .push (a.planOf w)
      · exact hremoteKeys q (List.mem_append_right _ hpush') p (List.mem_append_right _ hpush) hq
      · by_cases hdelete : q ∈ pathsFor .deleteRemote (a.planOf w)
        · obtain ⟨item, _, rfl, haction, _, hconcerns⟩ := item_of_pathsFor hboth hdelete
          simp only [ClassifiedPath.Concerns, haction] at hconcerns
          exact hremoteKeys _ (List.mem_append_left _ (mem_keys_iff.mpr
            (Option.isSome_iff_exists.mp hconcerns.2))) p (List.mem_append_right _ hpush) hq
        · have hkept : w'.remoteRoot.listed q = some (.file bytes t m) := by
            rw [hran.remotes q hpush', if_neg hdelete, hold]
          exact Root.lists_unique (Root.listed_eq_some.mp hkept).1
            (Root.listed_eq_some.mp hlisted).1 hq
    obtain ⟨hcovers, le, bytes', t', m', hle, hlocal, hentry⟩ := push_local hboth hpush
    have hno : ∀ action, .push ≠ action → q ∉ pathsFor action (a.planOf w) :=
      fun action hne hin => hne (pathsFor_unique hboth hpush hin)
    have hlocal' : w'.localRoot.listed q = some (.file bytes' t' m') := by
      rw [hlanded.locals q (hno _ (by decide)), if_neg (hno _ (by decide)), hlocal]
    obtain rfl : bytes = bytes' := Option.some.inj
      (hreads.symm.trans (file_of_get (Root.get_of_listed hlocal')).2)
    obtain ⟨re, hre⟩ := entryOf_file (P := P) a.surface .target q bytes t m
    refine transfer_differs hboth hprev hpush hle ((manifestOf_of_listed hcovers hold).trans hre)
      (contentSame_entryOf hentry hre ?_)
    exact pushed_hashed hle hentry (hran.visible q hpush)
  · rw [h.deletedRemote p hdelete] at hsame
    obtain ⟨item, _, rfl, haction, _, hconcerns⟩ := item_of_pathsFor hboth hdelete
    simp only [ClassifiedPath.Concerns, haction] at hconcerns
    obtain ⟨node, hnode⟩ := Root.get_of_lists (lists_of_manifestOf hconcerns.2)
    rw [hnode] at hsame
    cases hsame

end Main

end Again

/-! ## Two conflicted calls -/

/-- The conflicts of a run that ends with them. -/
def reportedConflicts {P : Platform} :
    EStateM.Result Fault (World P) (Except String SyncResult) → List String
  | .ok (.ok result) _ => if result.exitCode = .conflict then result.conflicts else []
  | _ => []

theorem conflicted_of_reported {P : Platform}
    {run : EStateM.Result Fault (World P) (Except String SyncResult)}
    (h : reportedConflicts run ≠ []) :
    ∃ result, run = .ok (.ok result) (endState run) ∧ result.Conflicted := by
  cases run with
  | error fault w' => exact absurd rfl h
  | ok ending w' =>
    cases ending with
    | error path => exact absurd rfl h
    | ok result =>
      unfold reportedConflicts at h
      dsimp only at h
      split at h
      · exact ⟨result, rfl, ‹_›, h⟩
      · exact absurd rfl h

def oldBaseline : Manifest :=
  Dict.empty.set "f" ⟨"f", "file", 1, 1, some (sampleSha256 [99]), none⟩

/-- Both sides changed `f` since the baseline. -/
def conflictArgs (excludes : List String) : SyncArgs :=
  ⟨.both, .remote, excludes, some (oldBaseline, oldBaseline), 0, false⟩

theorem conflictArgs_prevEqual (excludes : List String) : (conflictArgs excludes).PrevEqual := by
  intro prev hprev
  obtain rfl := Option.some.inj hprev
  intro rel
  obtain rfl | hkeep := eq_or_ne rel "f"
  · have hkept : oldBaseline.get "f" =
        some ⟨"f", "file", 1, 1, some (sampleSha256 [99]), none⟩ := Dict.get_set_self _ _ _
    rw [hkept]
    decide +kernel
  · have hnone : oldBaseline.get rel = none := (Dict.get_set_other _ _ hkeep).trans rfl
    rw [hnone]
    trivial

/-- `f` differs, and only the target has `n`. -/
def conflictWorld : World (samplePlatform false) :=
  World.ofTrees (samplePlatform false) [("f", .file [97] 1 420)]
    [("f", .file [98] 1 420), ("n", .file [97, 98] 1 420)]

/-- The excluded `N` of a case-insensitive controller is the file that `n` is pulled to. -/
def spelledWorld : World (samplePlatform true) :=
  World.ofTrees (samplePlatform true) [("f", .file [97] 1 420), ("N", .file [] 1 420)]
    [("f", .file [98] 1 420), ("n", .file [97, 98] 1 420)]

end Remrun.Reconcile
