import Remrun.Reconcile.Refusals

/-!
# The final pair of manifests

A preflight result without conflicts is verified whatever other writers do between its
steps: every path is on both sides, and its two entries carry one digest or are the
generations that the baseline records.
-/

namespace Remrun.Reconcile

open Keyed Effect
set_option autoImplicit false

section Verification
variable {P : Platform} {env : Env P}

/-! ## Manifests hash by size -/

/-- Whether an entry has a digest depends on its size alone. -/
def HashedBySize (s : Surface) (manifest : Manifest) : Prop :=
  ∀ rel entry, manifest.get rel = some entry → entry.sha256.isSome = s.hashes entry.size

theorem yields_hashIf (wanted : Bool) (side : Side) (rel message : String) :
    Yields (hashIf env wanted side rel message) fun digest => digest.isSome = wanted := by
  unfold hashIf
  cases wanted with
  | true =>
    rw [if_pos rfl]
    exact yields_map ((yields_any _).post fun _ _ _ => rfl)
  | false =>
    rw [if_neg (by simp)]
    exact yields_pure rfl

theorem hashedBySize_set {s : Surface} {manifest : Manifest} (h : HashedBySize s manifest)
    {rel : String} {entry : FileEntry} (hentry : entry.sha256.isSome = s.hashes entry.size) :
    HashedBySize s (manifest.set rel entry) := by
  intro rel' entry' hget
  rw [Dict.get_set] at hget
  split at hget
  · rw [← Option.some.inj hget]
    exact hentry
  · exact h rel' entry' hget

theorem buildManifest_hashedBySize (env : Env P) (s : Surface) (side : Side) :
    Yields (buildManifest env s side) (HashedBySize s) := by
  have hempty : HashedBySize s Dict.empty := by
    intro rel entry hget
    simp at hget
  refine yields_bind (yields_any _) fun listing _ => ?_
  split
  · exact yields_pure hempty
  · split
    · exact yields_throw _
    · exact yields_pure hempty
  · refine yields_foldlM (fun _ => HashedBySize s) hempty fun done rel rest manifest _ h => ?_
    refine yields_bind (yields_any _) fun node _ => ?_
    split
    · split
      · exact yields_pure h
      · exact yields_throw _
    · refine yields_bind (yields_hashIf _ _ _ _) fun digest hdigest => ?_
      exact yields_pure (hashedBySize_set h hdigest)
    · exact yields_pure h

/-! ## What is accepted of a path -/

/-- Both entries carry one digest, and one size. -/
def ProvedEqual (left right : FileEntry) : Prop :=
  ∃ digest, left.sha256 = some digest ∧ right.sha256 = some digest ∧ left.size = right.size

/-- The entry is the same as its baseline entry; or the baseline entry has no digest, and the
entry has the digest of the planning entry, which was the same as the baseline entry. -/
def Retained (prev planned : Option FileEntry) (now : FileEntry) : Prop :=
  entriesSame prev (some now) = true ∨
    ∃ base entry, prev = some base ∧ planned = some entry ∧ base.sha256 = none ∧
      entriesSame prev planned = true ∧ entry.kind = now.kind ∧ entry.size = now.size ∧
      now.sha256.isSome = true ∧ entry.sha256 = now.sha256

/-- What a result without conflicts guarantees of one path. -/
def PathVerified (a : PreflightArgs) (planned : Manifest × Manifest) (result : ReconcileResult)
    (rel : String) : Prop :=
  ∃ left right, result.localManifest.get rel = some left ∧
    result.remoteManifest.get rel = some right ∧
    (ProvedEqual left right ∨ (rel ∉ result.touched ∧
      Retained (prevEntry a.prevLocal rel) (planned.1.get rel) left ∧
      Retained (prevEntry a.prevRemote rel) (planned.2.get rel) right))

/-- `entries_same` twice in a row, over two manifests of one surface. -/
theorem retained_of_same {s : Surface} {before now : Manifest} (hbefore : HashedBySize s before)
    (hnow : HashedBySize s now) {rel : String} {prev : Option FileEntry} {entry : FileEntry}
    (hentry : now.get rel = some entry) (hprev : prev.isSome = true)
    (h1 : entriesSame prev (before.get rel) = true)
    (h2 : entriesSame (before.get rel) (some entry) = true) :
    Retained prev (before.get rel) entry := by
  obtain ⟨base, rfl⟩ := Option.isSome_iff_exists.mp hprev
  cases hplan : before.get rel with
  | none => simp [hplan, entriesSame] at h1
  | some mid =>
    rw [hplan] at h1 h2
    obtain ⟨hkind1, hsize1, hcase1⟩ := entriesSame_some.mp h1
    obtain ⟨hkind2, hsize2, hcase2⟩ := entriesSame_some.mp h2
    -- the two manifests of one surface hash this size alike
    have hboth : mid.sha256.isSome = entry.sha256.isSome := by
      rw [hbefore rel mid hplan, hnow rel entry hentry, hsize2]
    rcases hcase2 with ⟨digest, hmid, hnowsha⟩ | ⟨hnone, hmtime2⟩
    · rcases hcase1 with ⟨digest', hbase, hmid'⟩ | ⟨hnone, hmtime1⟩
      · refine Or.inl (entriesSame_some.mpr ⟨hkind1.trans hkind2, hsize1.trans hsize2, ?_⟩)
        rw [hmid] at hmid'
        exact Or.inl ⟨digest, hmid' ▸ hbase, hnowsha⟩
      · have hbase : base.sha256 = none := by
          rcases hnone with hnone | hnone
          · exact hnone
          · rw [hmid] at hnone
            exact absurd hnone (by simp)
        exact Or.inr ⟨base, mid, rfl, rfl, hbase, h1, hkind2, hsize2, by rw [hnowsha]; rfl,
          hmid.trans hnowsha.symm⟩
    · have hunhashed : mid.sha256 = none ∧ entry.sha256 = none := by
        rcases hnone with hnone | hnone
        · rw [hnone] at hboth
          exact ⟨hnone, by simpa using hboth.symm⟩
        · rw [hnone] at hboth
          exact ⟨by simpa using hboth, hnone⟩
      rcases hcase1 with ⟨digest', hbase, hmid'⟩ | ⟨_, hmtime1⟩
      · rw [hunhashed.1] at hmid'
        exact absurd hmid' (by simp)
      · exact Or.inl (entriesSame_some.mpr ⟨hkind1.trans hkind2, hsize1.trans hsize2,
          Or.inr ⟨Or.inr hunhashed.2, hmtime1.trans hmtime2⟩⟩)

/-! ## The verification loop -/

theorem yields_expected {α : Type} {m : M P α} {p : α → Prop} (h : Yields m p) :
    Yields (expected m) fun answer => ∀ x, answer = some x → p x := by
  refine yields_tryCatch (yields_map (h.post fun a _ ha x hx => Option.some.inj hx ▸ ha)) ?_
  intro fault
  split
  · exact yields_pure fun x hx => absurd hx (by simp)
  · exact yields_throw _

theorem rehash_proves (rel : String) (right : FileEntry) :
    Yields (rehash env rel right) fun pair =>
      ∀ fresh hashed, pair = some (fresh, hashed) → ProvedEqual fresh hashed := by
  refine yields_bind (yields_any _) fun fresh _ => ?_
  refine yields_bind (yields_any _) fun remoteHash _ => ?_
  split
  · exact yields_pure fun _ _ h => absurd h (by simp)
  · split
    · rename_i entry hagree
      refine yields_pure fun fresh hashed h => ?_
      simp only [Option.some.injEq, Prod.mk.injEq] at h
      obtain ⟨rfl, rfl⟩ := h
      exact ⟨remoteHash, hagree.2.2, rfl, hagree.2.1⟩
    · exact yields_pure fun _ _ h => absurd h (by simp)

/-- The paths done are verified unless there is a conflict; the others are as manifested. -/
structure VerifyInv (a : PreflightArgs) (planned final : Manifest × Manifest)
    (touched : List String) (done : List String) (result : ReconcileResult) : Prop where
  touched : result.touched = touched
  rest : ∀ rel, rel ∉ done → result.localManifest.get rel = final.1.get rel ∧
    result.remoteManifest.get rel = final.2.get rel
  verified : result.conflicts = [] → ∀ rel ∈ done, PathVerified a planned result rel

section Loop
variable {a : PreflightArgs} {planned final : Manifest × Manifest} {touched done : List String}
  {result : ReconcileResult} {rel : String}

theorem VerifyInv.accept (h : VerifyInv a planned final touched done result)
    (hrel : PathVerified a planned result rel) :
    VerifyInv a planned final touched (done ++ [rel]) result := by
  refine ⟨h.touched, fun rel' hrel' => h.rest rel' fun hmem => hrel' ?_, fun hclean rel' hrel' => ?_⟩
  · exact List.mem_append_left _ hmem
  · rcases List.mem_append.mp hrel' with hmem | hmem
    · exact h.verified hclean rel' hmem
    · rw [List.mem_singleton.mp hmem]
      exact hrel

theorem VerifyInv.conflict (h : VerifyInv a planned final touched done result)
    (item : ClassifiedPath) :
    VerifyInv a planned final touched (done ++ [rel]) (result.conflict item) := by
  refine ⟨h.touched, fun rel' hrel' => h.rest rel' fun hmem => hrel' ?_, fun hclean => ?_⟩
  · exact List.mem_append_left _ hmem
  · exact absurd hclean (List.append_ne_nil_of_right_ne_nil _ (List.cons_ne_nil _ _))

/-- A rehashed pair replaces the two entries of its path. -/
theorem VerifyInv.replace (h : VerifyInv a planned final touched done result)
    (hfresh : rel ∉ done) {fresh hashed : FileEntry} (heq : ProvedEqual fresh hashed) :
    VerifyInv a planned final touched (done ++ [rel]) { result with
      localManifest := result.localManifest.set rel fresh
      remoteManifest := result.remoteManifest.set rel hashed } := by
  refine ⟨h.touched, fun rel' hrel' => ?_, fun hclean rel' hrel' => ?_⟩
  · rw [List.mem_append, not_or] at hrel'
    have hne : rel' ≠ rel := by simpa using hrel'.2
    obtain ⟨hl, hr⟩ := h.rest rel' hrel'.1
    exact ⟨(Dict.get_set_other _ _ hne).trans hl, (Dict.get_set_other _ _ hne).trans hr⟩
  · rcases List.mem_append.mp hrel' with hmem | hmem
    · have hne : rel' ≠ rel := fun heq => hfresh (heq ▸ hmem)
      obtain ⟨left, right, hl, hr, hcase⟩ := h.verified hclean rel' hmem
      exact ⟨left, right, (Dict.get_set_other _ _ hne).trans hl,
        (Dict.get_set_other _ _ hne).trans hr, hcase⟩
    · rw [List.mem_singleton.mp hmem]
      exact ⟨fresh, hashed, Dict.get_set_self _ _ _, Dict.get_set_self _ _ _, Or.inl heq⟩

theorem verifyPath_inv {s : Surface} (hplanned1 : HashedBySize s planned.1)
    (hplanned2 : HashedBySize s planned.2) (hfinal1 : HashedBySize s final.1)
    (hfinal2 : HashedBySize s final.2) (hfresh : rel ∉ done)
    (h : VerifyInv a planned final touched done result) :
    Yields (verifyPath env a planned touched result rel)
      (VerifyInv a planned final touched (done ++ [rel])) := by
  obtain ⟨hl, hr⟩ := h.rest rel hfresh
  unfold verifyPath
  split
  · rename_i left right hleft hright
    split
    · rename_i hagree
      simp only [hashesAgree, Bool.and_eq_true, decide_eq_true_eq] at hagree
      obtain ⟨⟨⟨⟨hsome, _⟩, _⟩, hsize⟩, hsha⟩ := hagree
      obtain ⟨digest, hdigest⟩ := Option.isSome_iff_exists.mp hsome
      refine yields_pure (h.accept ⟨left, right, hleft, hright, Or.inl ?_⟩)
      exact ⟨digest, hdigest, hsha ▸ hdigest, hsize⟩
    · split
      · rename_i hkept
        have hkept' := hkept.2
        simp only [keptGeneration, Bool.and_eq_true, decide_eq_true_eq] at hkept'
        obtain ⟨⟨⟨⟨⟨⟨⟨hout, _⟩, hpl⟩, hpr⟩, hl1⟩, hr1⟩, hl2⟩, hr2⟩ := hkept'
        refine yields_pure (h.accept ⟨left, right, hleft, hright, Or.inr ⟨?_, ?_, ?_⟩⟩)
        · rw [h.touched]
          exact hout
        · exact retained_of_same hplanned1 hfinal1 (hl ▸ hleft) hpl hl1 hl2
        · exact retained_of_same hplanned2 hfinal2 (hr ▸ hright) hpr hr1 hr2
      · refine yields_bind (yields_expected (rehash_proves rel right)) fun pair hpair => ?_
        split
        · exact yields_pure (h.replace hfresh (hpair _ rfl _ _ rfl))
        · exact yields_pure (h.conflict _)
  · exact yields_pure (h.conflict _)

end Loop

/-- Every path of a result without conflicts is verified. -/
def Verified (a : PreflightArgs) (planned : Manifest × Manifest) (result : ReconcileResult) : Prop :=
  ∀ rel, (result.localManifest.get rel = none ∧ result.remoteManifest.get rel = none) ∨
    PathVerified a planned result rel

theorem verifyFinal_verified (env : Env P) (a : PreflightArgs) {planned : Manifest × Manifest}
    (hplanned1 : HashedBySize a.surface planned.1) (hplanned2 : HashedBySize a.surface planned.2)
    (result : ReconcileResult) :
    Yields (verifyFinal env a planned result) fun final =>
      final.conflicts = [] → Verified a planned final := by
  refine yields_bind (buildManifest_hashedBySize env _ _) fun localManifest hlocal => ?_
  refine yields_bind (buildManifest_hashedBySize env _ _) fun remoteManifest hremote => ?_
  refine yields_bind (yields_any _) fun gone _ => ?_
  refine (yields_foldlM (VerifyInv a planned (localManifest, remoteManifest) result.touched) ?_
    fun done rel rest acc hsplit hacc => ?_).post ?_
  · exact ⟨rfl, fun _ _ => ⟨rfl, rfl⟩, fun _ rel hrel => absurd hrel List.not_mem_nil⟩
  · have hnodup := sortPaths_nodup (localManifest.keys ++ remoteManifest.keys)
    rw [show sortPaths _ = done ++ rel :: rest from hsplit, List.nodup_append] at hnodup
    have hfresh : rel ∉ done := fun hmem => hnodup.2.2 rel hmem rel List.mem_cons_self rfl
    exact verifyPath_inv hplanned1 hplanned2 hlocal hremote hfresh hacc
  · intro final _ hinv hclean rel
    by_cases hrel : rel ∈ unionPaths localManifest remoteManifest
    · exact Or.inr (hinv.verified hclean rel hrel)
    · obtain ⟨hl, hr⟩ := hinv.rest rel hrel
      rw [mem_unionPaths, not_or] at hrel
      refine Or.inl ⟨?_, ?_⟩
      · rw [hl]
        exact Option.eq_none_iff_forall_ne_some.mpr fun entry h => hrel.1 ⟨entry, h⟩
      · rw [hr]
        exact Option.eq_none_iff_forall_ne_some.mpr fun entry h => hrel.2 ⟨entry, h⟩

/-! ## The whole call -/

/-- The manifests a ready plan is from hash by size. -/
def Planned.HashedBySize (s : Surface) : Planned → Prop
  | .refused _ => True
  | .ready result _ => Reconcile.HashedBySize s result.localManifest ∧
      Reconcile.HashedBySize s result.remoteManifest

theorem settlePlan_hashedBySize {a : PreflightArgs} {s : Surface} {result : ReconcileResult}
    (plan : List ClassifiedPath) (hlocal : HashedBySize s result.localManifest)
    (hremote : HashedBySize s result.remoteManifest) :
    (settlePlan a P result plan).HashedBySize s := by
  unfold settlePlan
  dsimp only
  split
  · trivial
  · split
    · trivial
    · split
      · trivial
      · exact ⟨hlocal, hremote⟩

theorem planReconcile_hashedBySize (env : Env P) (a : PreflightArgs) :
    Yields (planReconcile env a) (Planned.HashedBySize a.surface) := by
  refine yields_bind (buildManifest_hashedBySize env _ _) fun localManifest hlocal => ?_
  refine yields_bind (buildManifest_hashedBySize env _ _) fun remoteManifest hremote => ?_
  refine yields_bind (yields_any _) fun vanished _ => ?_
  split
  · exact yields_pure trivial
  · unfold resolvePlan
    split
    · exact yields_pure (settlePlan_hashedBySize _ hlocal hremote)
    · refine yields_bind (yields_any _) fun resolved _ => ?_
      split
      · exact yields_pure trivial
      · exact yields_pure (settlePlan_hashedBySize _ hlocal hremote)

/-- A call that returns went through planning, and through the rest if that was ready. -/
theorem preflight_phases {a : PreflightArgs} {w w' : World P} {result : ReconcileResult}
    (hrun : preflightReconcile env a w = .ok result w') :
    ∃ planned w1, planReconcile env a w = .ok planned w1 ∧
      match planned with
      | .refused refusal => result = refusal
      | .ready start _ => ∃ applied w2,
          verifyFinal env a (start.localManifest, start.remoteManifest) applied w2 =
            .ok result w' := by
  obtain ⟨planned, w1, hplan, hrun⟩ := bind_returns hrun
  refine ⟨planned, w1, hplan, ?_⟩
  cases planned with
  | refused refusal =>
    injection hrun with hresult _
    exact hresult.symm
  | ready start plan =>
    obtain ⟨_, w2, _, hrun⟩ := bind_returns hrun
    obtain ⟨applied, w3, _, hrun⟩ := bind_returns hrun
    exact ⟨applied, w3, hrun⟩

/-- Whatever other writers do, a result without conflicts lists the same paths on both
sides, and each path has one digest on both sides, or was left alone and is on each side the
generation that the baseline records. -/
theorem preflight_verified (env : Env P) (a : PreflightArgs) (w w' : World P)
    (result : ReconcileResult) (hrun : preflightReconcile env a w = .ok result w')
    (hclean : result.conflicts = []) :
    ∃ planned plan w1, planReconcile env a w = .ok (.ready planned plan) w1 ∧
      Verified a (planned.localManifest, planned.remoteManifest) result := by
  obtain ⟨outcome, w1, hplan, hrest⟩ := preflight_phases hrun
  cases outcome with
  | refused refusal =>
    have hsound : refusal.conflicts ≠ [] := (planReconcile_sound env a).ok hplan
    exact absurd (hrest ▸ hclean) hsound
  | ready planned plan =>
    obtain ⟨applied, w2, hverify⟩ := hrest
    obtain ⟨hlocal, hremote⟩ := (planReconcile_hashedBySize env a).ok hplan
    exact ⟨planned, plan, w1, hplan,
      (verifyFinal_verified env a hlocal hremote applied).ok hverify hclean⟩

end Verification

/-! ## Concrete runs -/

/-- One local file that is hashed and one remote file that is not, with a baseline that
records both without a digest. -/
def unevenArgs : PreflightArgs where
  surface := ⟨[], [], 1⟩
  prevLocal := some (Dict.empty.set "f" ⟨"f", "file", 1, 5, none, none⟩)
  prevRemote := some (Dict.empty.set "f" ⟨"f", "file", 2, 5, none, none⟩)
  backupBelowBytes := 0
  isFallback := false

def unevenWorld : World (samplePlatform false) :=
  .ofTrees _ [("f", .file [97] 5 420)] [("f", .file [97, 98] 5 420)]

/-- The local file is touched after planning. -/
def touchingEnv : Env (samplePlatform false) :=
  { calmEnv (samplePlatform false) with
    disturbLocal := fun n root =>
      if n = 5 then .directory (ofNodes [("f", .file [97] 7 420)]) else root }

/-- The result lists one path, with these two entries. -/
def lists {P : Platform} (left right : FileEntry) :
    EStateM.Result Fault (World P) ReconcileResult → Bool
  | .ok result _ => result.conflicts = [] && result.localManifest.get "f" = some left &&
      result.remoteManifest.get "f" = some right
  | .error _ _ => false

theorem lists_ok {P : Platform} (left right : FileEntry)
    (outcome : EStateM.Result Fault (World P) ReconcileResult)
    (h : lists left right outcome = true) :
    ∃ result w', outcome = .ok result w' ∧ result.conflicts = [] ∧
      result.localManifest.get "f" = some left ∧ result.remoteManifest.get "f" = some right := by
  cases outcome with
  | error fault w' => simp [lists] at h
  | ok result w' =>
    simp only [lists, Bool.and_eq_true, decide_eq_true_eq] at h
    exact ⟨result, w', rfl, h.1.1, h.1.2, h.2⟩

theorem preflight_verified_uneven : ∃ result w',
    preflightReconcile touchingEnv unevenArgs unevenWorld = .ok result w' ∧
      result.conflicts = [] ∧ ∃ planned plan w1,
        planReconcile touchingEnv unevenArgs unevenWorld = .ok (.ready planned plan) w1 ∧
        Verified unevenArgs (planned.localManifest, planned.remoteManifest) result := by
  obtain ⟨result, w', hrun, hclean, _, _⟩ := lists_ok
    ⟨"f", "file", 1, 7, some (sampleSha256 [97]), some 420⟩ ⟨"f", "file", 2, 5, none, none⟩
    (preflightReconcile touchingEnv unevenArgs unevenWorld) (by decide +kernel)
  exact ⟨result, w', hrun, hclean, preflight_verified _ _ _ _ _ hrun hclean⟩

/-- Each path has one digest on both sides, or was left alone and is on each side the same
as its own baseline entry. -/
def StrictlyVerified (a : PreflightArgs) (result : ReconcileResult) : Prop :=
  ∀ rel, (result.localManifest.get rel = none ∧ result.remoteManifest.get rel = none) ∨
    ∃ left right, result.localManifest.get rel = some left ∧
      result.remoteManifest.get rel = some right ∧
      (ProvedEqual left right ∨ (rel ∉ result.touched ∧
        entriesSame (prevEntry a.prevLocal rel) (some left) = true ∧
        entriesSame (prevEntry a.prevRemote rel) (some right) = true))

theorem touched_not_strictlyVerified : ∃ result w',
    preflightReconcile touchingEnv unevenArgs unevenWorld = .ok result w' ∧
      result.conflicts = [] ∧ ¬ StrictlyVerified unevenArgs result := by
  obtain ⟨result, w', hrun, hclean, hleft, hright⟩ := lists_ok
    ⟨"f", "file", 1, 7, some (sampleSha256 [97]), some 420⟩ ⟨"f", "file", 2, 5, none, none⟩
    (preflightReconcile touchingEnv unevenArgs unevenWorld) (by decide +kernel)
  refine ⟨result, w', hrun, hclean, fun hstrict => ?_⟩
  rcases hstrict "f" with ⟨hnone, _⟩ | ⟨left, right, hl, hr, hcase⟩
  · rw [hleft] at hnone
    exact absurd hnone (by simp)
  · rw [hleft] at hl
    rw [hright] at hr
    obtain rfl := Option.some.inj hl
    obtain rfl := Option.some.inj hr
    rcases hcase with ⟨digest, _, hsha, _⟩ | ⟨_, hsame, _⟩
    · exact absurd hsha (by simp)
    · exact absurd hsame (by decide +kernel)

end Remrun.Reconcile
