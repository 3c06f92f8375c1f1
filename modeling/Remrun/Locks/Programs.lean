import Remrun.Locks.Interference

/-!
# The lock programs under interference

`acquire` keeps the guarantee at every call, returns only as the owner of the one lock directory,
and adopts only the exact lock of a dead run. Its steps follow the order of the source.
-/

namespace Remrun.Locks

open Keyed Interleave Snapshot
set_option autoImplicit false

variable {ι : Type} [DecidableEq ι]

/-! ## Views -/

/-- What an `acquire` acts on: the table, and the log of its own calls. -/
structure View (ι : Type) where
  world : World ι
  log : CallLog

/-- The lock directory that goes away is the exact one of a dead run. -/
def Adopts (host : Host ι) (a : Args) (v v' : View ι) : Prop :=
  ∀ path dir, v.world.locks.get path = some dir → v'.world.locks.get path = none →
    path = a.path host ∧ (∀ c, dir.creator = some c → c ∈ v.world.dead) ∧
    ∃ info runId pid, (path, .record info) ∈ v.log.unlinked ∧ a.runId = some runId ∧
      info.matches a runId = true ∧ info.field "pid" = .int pid ∧ pid ∈ v.log.probedDead

structure ViewRely (host : Host ι) (p : ι) (v v' : View ι) : Prop where
  world : Rely host p v.world v'.world
  log : v'.log = v.log

structure ViewGuar (host : Host ι) (p : ι) (a : Args) (v v' : View ι) : Prop where
  world : Guar host p v.world v'.world
  adopts : Adopts host a v v'

def callView (host : Host ι) (p : ι) (c : Call) (v : View ι) (r : Reply c) (v' : View ι) : Prop :=
  ∃ fault, v.world.exec host p fault c = (r, v'.world) ∧ v'.log = v.log.after v.world c r

/-- A part of `acquire` that keeps the guarantee and ends as stated. -/
def Runs {α : Type} (host : Host ι) (p : ι) (a : Args) (post : α → View ι → Prop)
    (fail : LockFault → View ι → Prop) : LockProg α → View ι → Prop :=
  Holds (ViewRely host p) (ViewGuar host p a) (callView host p) post fail

/-- The process holds the guard, and every lock directory is in `S`. -/
structure InSection (host : Host ι) (p : ι) (S : LockPath → Prop) (w : World ι) : Prop where
  guard : w.guard = .held (some p)
  wf : w.WF host
  born : p ∈ w.born
  within : ∀ path, w.locks.get path ≠ none → S path

section
variable {host : Host ι} {p : ι} {a : Args}

omit [DecidableEq ι] in
theorem stable_view {P : World ι → Prop} {L : CallLog → Prop} (h : Stable (Rely host p) P) :
    Stable (ViewRely host p) fun v => P v.world ∧ L v.log := by
  rintro v v' hrely ⟨hP, hL⟩
  exact ⟨h _ _ hrely.world hP, hrely.log ▸ hL⟩

omit [DecidableEq ι] in
theorem stable_world {P : World ι → Prop} (h : Stable (Rely host p) P) :
    Stable (ViewRely host p) fun v => P v.world :=
  fun _ _ hrely => h _ _ hrely.world

omit [DecidableEq ι] in
theorem InSection.stable (S : LockPath → Prop) : Stable (Rely host p) (InSection host p S) := by
  rintro w w' hrely ⟨hguard, hwf, hborn, hwithin⟩
  refine ⟨hrely.guardMine.mpr hguard, hrely.wf hwf, hrely.born p hborn, fun path hsome => ?_⟩
  exact hwithin path fun hnone => hsome (hrely.noAdd (Or.inl hguard) path hnone)

omit [DecidableEq ι] in
theorem InSection.mono {S T : LockPath → Prop} {w : World ι} (h : InSection host p S w)
    (hST : ∀ path, w.locks.get path ≠ none → S path → T path) : InSection host p T w :=
  ⟨h.guard, h.wf, h.born, fun path hsome => hST path hsome (h.within path hsome)⟩

omit [DecidableEq ι] in
theorem Adopts.same {v v' : View ι} (h : ∀ path, v.world.locks.get path ≠ none →
    v'.world.locks.get path ≠ none) : Adopts host a v v' := by
  intro path dir hsome hnone
  exact absurd hnone (h path (by rw [hsome]; exact Option.some_ne_none _))

omit [DecidableEq ι] in
theorem ViewGuar.refl {v v' : View ι} (hworld : v'.world = v.world) : ViewGuar host p a v v' := by
  refine ⟨?_, Adopts.same fun path h => ?_⟩
  · rw [hworld]
    exact Guar.refl v.world
  · rw [hworld]
    exact h

/-- A call that only looks. -/
theorem Runs.look {α : Type} {post : α → View ι → Prop} {fail : LockFault → View ι → Prop} {c : Call}
    {k : Reply c → LockProg α} {P : View ι → Prop} {v : View ι}
    (hworld : ∀ fault (w : World ι), (w.exec host p fault c).2 = w)
    (hlog : ∀ (log : CallLog) (w : World ι) r, log.after w c r = log)
    (hstable : Stable (ViewRely host p) P) (h : P v)
    (hnext : ∀ v fault, P v → Runs host p a post fail (k (v.world.exec host p fault c).1) v) :
    Runs host p a post fail (.call c k) v := by
  refine Holds.call hstable h ?_
  rintro v₁ r ⟨world, log⟩ hP ⟨fault, hexec, rfl⟩
  obtain ⟨rfl, hsame⟩ := Prod.mk.inj ((Prod.mk.eta (p := v₁.world.exec host p fault c)).trans hexec)
  rw [hworld] at hsame
  subst hsame
  rw [hlog]
  exact ⟨ViewGuar.refl rfl, hnext v₁ fault hP⟩

/-! ## Looking for conflicts -/

omit [DecidableEq ι] in
theorem has_eq_false {w : World ι} {path : LockPath} :
    w.has path = false ↔ w.locks.get path = none := by
  unfold World.has
  cases w.locks.get path <;> simp

/-- What `info.json` says, where the lock is not written meanwhile. -/
def KnowsInfo (host : Host ι) (path : LockPath) (info : LockInfo) (w : World ι) : Prop :=
  ∀ dir, w.locks.get path = some dir →
    (dir.metadata = .record info ∨ dir.metadata = .missing) ∧
      ∀ c, dir.creator = some c → info.field "pid" = .int (host.pid c)

omit [DecidableEq ι] in
theorem KnowsInfo.stable (S : LockPath → Prop) (path : LockPath) (info : LockInfo) :
    Stable (Rely host p) fun w => InSection host p S w ∧ KnowsInfo host path info w := by
  rintro w w' hrely ⟨hsection, hknows⟩
  refine ⟨InSection.stable S w w' hrely hsection, fun dir' hdir' => ?_⟩
  obtain ⟨dir, hdir, hcreator, hmetadata⟩ := hrely.older hsection.guard path dir' hdir'
  obtain ⟨hrecord, hpid⟩ := hknows dir hdir
  refine ⟨?_, fun c hc => hpid c (hcreator ▸ hc)⟩
  rcases hmetadata with hsame | hmissing
  · rw [hsame]
    exact hrecord
  · exact Or.inr hmissing

theorem readInfo_record {path : LockPath} {info : LockInfo} {fault : Bool} {w : World ι}
    (h : parsed (w.exec host p fault (.readInfo path)).1 = .record info) :
    (w.locks.get path).map LockDir.metadata = some (.record info) := by
  cases fault with
  | true => cases h
  | false =>
    cases hdir : w.locks.get path with
    | none =>
      simp only [World.exec, hdir] at h
      cases h
    | some dir =>
      obtain ⟨metadata, tmp, creator⟩ := dir
      simp only [World.exec, hdir] at h
      cases metadata with
      | missing => cases h
      | invalid => cases h
      | foreign => cases h
      | record info' =>
        replace h : (if info'.rows = [] then Metadata.missing else .record info') = .record info := h
        split at h
        · cases h
        · exact congrArg some h

/-- Reading the metadata leaves every stable fact as it is, and a record that is read is known. -/
theorem runs_lockInfo (path : LockPath) (S : LockPath → Prop) (L : CallLog → Prop) {v : View ι}
    (h : InSection host p S v.world ∧ L v.log) :
    Runs host p a
      (fun metadata v => (InSection host p S v.world ∧ L v.log) ∧
        ∀ info, metadata = .record info → KnowsInfo host path info v.world)
      (fun _ v => InSection host p S v.world ∧ L v.log) (lockInfo path) v := by
  have hstable : Stable (ViewRely host p) fun v => InSection host p S v.world ∧ L v.log :=
    stable_view (InSection.stable S)
  have hpost : ∀ metadata : Metadata, Stable (ViewRely host p) fun v =>
      (InSection host p S v.world ∧ L v.log) ∧
        ∀ info, metadata = .record info → KnowsInfo host path info v.world := by
    rintro metadata v v' hrely ⟨⟨hsection, hlog⟩, hknows⟩
    refine ⟨hstable v v' hrely ⟨hsection, hlog⟩, fun info hinfo => ?_⟩
    exact (KnowsInfo.stable S path info _ _ hrely.world ⟨hsection, hknows info hinfo⟩).2
  refine Runs.look (fun _ _ => rfl) (fun _ _ _ => rfl) hstable h fun v fault hv => ?_
  rcases World.exec host p fault (.infoExists path) v.world with ⟨_ | _ | _, w⟩
  · exact Holds.raise hstable hv
  · exact Holds.ret (hpost _) ⟨hv, nofun⟩
  · refine Runs.look (fun _ _ => rfl) (fun _ _ _ => rfl) hstable hv fun v fault hv => ?_
    rcases World.exec host p fault (.infoExists path) v.world with ⟨_ | _ | _, w⟩
    · exact Holds.ret (hpost _) ⟨hv, nofun⟩
    · exact Holds.ret (hpost _) ⟨hv, nofun⟩
    · refine Runs.look (fun _ _ => rfl) (fun _ _ _ => rfl) hstable hv fun v fault hv => ?_
      refine Holds.ret (hpost _) ⟨hv, fun info hinfo dir hdir => ?_⟩
      have hrecord := readInfo_record hinfo
      rw [hdir] at hrecord
      have hmetadata : dir.metadata = .record info := Option.some.inj hrecord
      exact ⟨Or.inl hmetadata, fun c hc => hv.1.wf.recorded path dir c info hdir hc hmetadata⟩

/-- Naming the holder changes nothing. -/
theorem runs_describeHolder (path : LockPath) (S : LockPath → Prop) (L : CallLog → Prop) {v : View ι}
    (h : InSection host p S v.world ∧ L v.log) :
    Runs host p a (fun _ v => InSection host p S v.world ∧ L v.log)
      (fun _ v => InSection host p S v.world ∧ L v.log) (describeHolder path) v := by
  have hstable : Stable (ViewRely host p) fun v => InSection host p S v.world ∧ L v.log :=
    stable_view (InSection.stable S)
  refine Holds.bind (runs_lockInfo path S L h) ?_
  rintro (_ | _ | _ | info) v ⟨hv, -⟩
  · exact Holds.ret hstable hv
  · exact Holds.ret hstable hv
  · exact Holds.raise hstable hv
  · exact Holds.ret hstable hv

/-- The listed names that are no longer directories are ruled out. -/
theorem runs_stillThere (L : CallLog → Prop) : ∀ (keys : List String) (S : LockPath → Prop)
    {v : View ι}, InSection host p S v.world ∧ L v.log →
    Runs host p a
      (fun there v => InSection host p (fun path => S path ∧ ∀ key, path = .scope key → key ∈ keys →
        key ∈ there) v.world ∧ L v.log)
      (fun _ v => InSection host p (fun _ => True) v.world ∧ L v.log) (stillThere keys) v
  | [], S, v, h => by
    refine Holds.ret (stable_view (InSection.stable _)) ⟨h.1.mono fun path _ hS => ?_, h.2⟩
    exact ⟨hS, fun key _ hmem => nomatch hmem⟩
  | key :: rest, S, v, h => by
    have hstable : Stable (ViewRely host p) fun v => InSection host p S v.world ∧ L v.log :=
      stable_view (InSection.stable S)
    refine Runs.look (fun _ _ => rfl) (fun _ _ _ => rfl) hstable h fun v fault hv => ?_
    cases fault with
    | true =>
      exact Holds.raise (stable_view (InSection.stable _))
        ⟨hv.1.mono fun _ _ _ => trivial, hv.2⟩
    | false =>
      show Runs host p a _ _ ((stillThere rest).bind fun others =>
        .ret (if v.world.has (.scope key) then key :: others else others)) v
      cases hthere : v.world.has (.scope key) with
      | true =>
        refine Holds.bind (runs_stillThere L rest S hv) fun others v' hv' => ?_
        refine Holds.ret (stable_view (InSection.stable _)) ⟨hv'.1.mono fun path _ hS => ?_, hv'.2⟩
        refine ⟨hS.1, fun key' hpath hmem => ?_⟩
        rcases List.mem_cons.mp hmem with rfl | hmem
        · exact List.mem_cons_self
        · exact List.mem_cons_of_mem _ (hS.2 key' hpath hmem)
      | false =>
        have hgone : InSection host p (fun path => S path ∧ path ≠ .scope key) v.world := by
          refine hv.1.mono fun path hsome hS => ⟨hS, ?_⟩
          rintro rfl
          exact hsome (has_eq_false.mp hthere)
        refine Holds.bind (runs_stillThere L rest _ ⟨hgone, hv.2⟩) fun others v' hv' => ?_
        refine Holds.ret (stable_view (InSection.stable _)) ⟨hv'.1.mono fun path _ hS => ?_, hv'.2⟩
        refine ⟨hS.1.1, fun key' hpath hmem => ?_⟩
        rcases List.mem_cons.mp hmem with rfl | hmem
        · exact absurd hpath hS.1.2
        · exact hS.2 key' hpath hmem

def scopeKey : LockPath → Option String
  | .whole => none
  | .scope key => some key

/-- Every scope lock that is left is among the conflicts. -/
theorem runs_conflictingScopeLocks (L : CallLog → Prop) (S : LockPath → Prop) {v : View ι}
    (h : InSection host p S v.world ∧ L v.log) :
    Runs host p a
      (fun scopes v => InSection host p (fun path => S path ∧ ∀ key, path = .scope key →
        .scope key ∈ scopes) v.world ∧ L v.log)
      (fun _ v => InSection host p (fun _ => True) v.world ∧ L v.log) conflictingScopeLocks v := by
  have hstable : Stable (ViewRely host p) fun v => InSection host p S v.world ∧ L v.log :=
    stable_view (InSection.stable S)
  have hfail : Stable (ViewRely host p) fun v =>
      InSection host p (fun _ => True) v.world ∧ L v.log := stable_view (InSection.stable _)
  refine Runs.look (fun _ _ => rfl) (fun _ _ _ => rfl) hstable h fun v fault hv => ?_
  cases fault with
  | true => exact Holds.raise hfail ⟨hv.1.mono fun _ _ _ => trivial, hv.2⟩
  | false =>
    cases hdir : v.world.scopesDir with
    | false =>
      simp only [World.exec, Bool.false_eq_true, hdir]
      refine Holds.ret (stable_view (InSection.stable _)) ⟨hv.1.mono fun path hsome hS => ?_, hv.2⟩
      refine ⟨hS, fun key hpath => ?_⟩
      obtain ⟨dir, hget⟩ := Option.ne_none_iff_exists'.mp hsome
      have hthere := hv.1.wf.scopes key dir (hpath ▸ hget)
      rw [hdir] at hthere
      cases hthere
    | true =>
      simp only [World.exec, Bool.false_eq_true, hdir]
      refine Runs.look (fun _ _ => rfl) (fun _ _ _ => rfl) hstable hv fun v fault hv => ?_
      cases fault with
      | true => exact Holds.raise hfail ⟨hv.1.mono fun _ _ _ => trivial, hv.2⟩
      | false =>
        have hlisted : InSection host p (fun path => S path ∧ ∀ key, path = .scope key →
            key ∈ v.world.locks.keys.filterMap scopeKey) v.world := by
          refine hv.1.mono fun path hsome hS => ⟨hS, ?_⟩
          rintro key rfl
          obtain ⟨dir, hget⟩ := Option.ne_none_iff_exists'.mp hsome
          obtain ⟨path', hmem, hsame⟩ := Dict.mem_keys_of_get hget
          obtain rfl : path' = .scope key := hsame
          exact List.mem_filterMap.mpr ⟨_, hmem, rfl⟩
        refine Holds.bind (runs_stillThere L _ _ ⟨hlisted, hv.2⟩) fun there v' hv' => ?_
        refine Holds.ret (stable_view (InSection.stable _)) ⟨hv'.1.mono fun path _ hS => ?_, hv'.2⟩
        refine ⟨hS.1.1, fun key hpath => List.mem_map_of_mem ?_⟩
        exact (List.mem_insertionSort _).mpr (hS.2 key hpath (hS.1.2 key hpath))

/-- Every lock directory that is left is among the conflicts. -/
theorem runs_conflictingLocks (L : CallLog → Prop) {v : View ι}
    (h : InSection host p (fun _ => True) v.world ∧ L v.log) :
    Runs host p a (fun conflicts v => InSection host p (· ∈ conflicts) v.world ∧ L v.log)
      (fun _ v => InSection host p (fun _ => True) v.world ∧ L v.log) conflictingLocks v := by
  have hstable : Stable (ViewRely host p) fun v =>
      InSection host p (fun _ => True) v.world ∧ L v.log := stable_view (InSection.stable _)
  refine Runs.look (fun _ _ => rfl) (fun _ _ _ => rfl) hstable h fun v fault hv => ?_
  cases fault with
  | true => exact Holds.raise hstable hv
  | false =>
    have hwhole : InSection host p (fun path => path = .whole → v.world.has .whole = true) v.world := by
      refine hv.1.mono fun path hsome _ hpath => ?_
      by_contra hnot
      exact hsome (hpath ▸ has_eq_false.mp (Bool.eq_false_of_not_eq_true hnot))
    refine Holds.bind (runs_conflictingScopeLocks L _ ⟨hwhole, hv.2⟩) fun scopes v' hv' => ?_
    refine Holds.ret (stable_view (InSection.stable _)) ⟨hv'.1.mono fun path _ hS => ?_, hv'.2⟩
    cases path with
    | whole =>
      rw [hS.1 rfl, if_pos rfl]
      exact List.mem_cons_self
    | scope key => exact List.mem_append_right _ (hS.2 key rfl)

/-! ## Adoption -/

/-- The processes that made the directory are dead. -/
def MakerDead (path : LockPath) (w : World ι) : Prop :=
  ∀ dir, w.locks.get path = some dir → ∀ c, dir.creator = some c → c ∈ w.dead

omit [DecidableEq ι] in
theorem MakerDead.stable (S : LockPath → Prop) (path : LockPath) (info : LockInfo) :
    Stable (Rely host p) fun w =>
      (InSection host p S w ∧ KnowsInfo host path info w) ∧ MakerDead path w := by
  rintro w w' hrely ⟨⟨hsection, hknows⟩, hdead⟩
  refine ⟨KnowsInfo.stable S path info w w' hrely ⟨hsection, hknows⟩, fun dir' hdir' c hc => ?_⟩
  obtain ⟨dir, hdir, hcreator, -⟩ := hrely.older hsection.guard path dir' hdir'
  exact hrely.dead c (hdead dir hdir c (hcreator ▸ hc))

/-- The log of an `acquire` that made, removed and broke nothing yet. -/
structure Untouched (log : CallLog) : Prop where
  made : log.made = []
  removed : log.removed = []
  failedMake : log.failedMake = false
  failedWrite : log.failedWrite = false

/-- The log after an adoption. -/
structure Adopted (path : LockPath) (log : CallLog) : Prop where
  made : log.made = []
  removed : log.removed = [path]
  failedMake : log.failedMake = false
  failedWrite : log.failedWrite = false

/-- The log once nothing is in the way: at most the one lock was removed. -/
structure Cleared (path : LockPath) (log : CallLog) : Prop where
  made : log.made = []
  removed : log.removed = [] ∨ log.removed = [path]
  failedMake : log.failedMake = false
  failedWrite : log.failedWrite = false

/-- The log with the evidence for an adoption. -/
structure Evidence (a : Args) (info : LockInfo) (runId : String) (pid : Int) (log : CallLog) : Prop where
  untouched : Untouched log
  named : a.runId = some runId
  matched : info.matches a runId = true
  recorded : info.field "pid" = .int pid
  dead : pid ∈ log.probedDead

/-- How an attempt to adopt ends. -/
def AdoptionEnds (host : Host ι) (p : ι) (a : Args) (adopted : Bool) (v : View ι) : Prop :=
  match adopted with
  | true => InSection host p (fun _ => False) v.world ∧ Adopted (a.path host) v.log
  | false => InSection host p (fun _ => True) v.world ∧ Untouched v.log

omit [DecidableEq ι] in
theorem AdoptionEnds.stable (adopted : Bool) :
    Stable (ViewRely host p) (AdoptionEnds host p a adopted) := by
  cases adopted with
  | true => exact stable_view (InSection.stable _)
  | false => exact stable_view (InSection.stable _)

/-- The second half of the removal: the emptied directory. -/
theorem runs_removeEmptied {info : LockInfo} {runId : String} {pid : Int}
    {fail : LockFault → View ι → Prop} {v : View ι}
    (h : ((InSection host p (· ∈ [a.path host]) v.world ∧ KnowsInfo host (a.path host) info v.world) ∧
      MakerDead (a.path host) v.world) ∧ Evidence a info runId pid v.log ∧
        (a.path host, .record info) ∈ v.log.unlinked) :
    Runs host p a (AdoptionEnds host p a) fail (removeEmptied (a.path host)) v := by
  have hstable : Stable (ViewRely host p) _ := stable_view
    (L := fun log => Evidence a info runId pid log ∧ (a.path host, .record info) ∈ log.unlinked)
    (MakerDead.stable (· ∈ [a.path host]) (a.path host) info)
  refine Holds.call hstable h ?_
  rintro v r ⟨world, log⟩ ⟨⟨⟨hsection, hknows⟩, hdead⟩, hevidence, hunlinked⟩ ⟨fault, hexec, rfl⟩
  rcases exec_removeLock hexec with ⟨hr, hworld⟩ | ⟨rfl, dir, hdir, hworld⟩
  · obtain rfl : world = v.world := hworld
    have hends : AdoptionEnds host p a false v :=
      ⟨hsection.mono fun _ _ _ => trivial, hevidence.untouched⟩
    refine ⟨ViewGuar.refl rfl, ?_⟩
    cases r with
    | done => exact absurd rfl hr
    | alreadyThere => exact Holds.ret (AdoptionEnds.stable false) hends
    | notThere => exact Holds.ret (AdoptionEnds.stable false) hends
    | failed => exact Holds.ret (AdoptionEnds.stable false) hends
  · obtain rfl : world = _ := hworld
    have hget : ∀ path, (v.world.locks.pop (a.path host)).get path =
        if path = a.path host then none else v.world.locks.get path := Dict.get_pop _ _
    have hguar : Guar host p v.world
        { v.world with locks := v.world.locks.pop (a.path host) } :=
      guar_popLock hdir (Or.inr ⟨hsection.guard, hdead dir hdir⟩)
    refine ⟨⟨hguar, ?_⟩, Holds.ret (AdoptionEnds.stable true) ⟨⟨hsection.guard,
      hguar.wf hsection.wf, hsection.born, ?_⟩, hevidence.untouched.made, ?_,
      hevidence.untouched.failedMake, hevidence.untouched.failedWrite⟩⟩
    · intro path dir' hsome hnone
      have hpath : path = a.path host :=
        List.mem_singleton.mp (hsection.within path (by rw [hsome]; exact Option.some_ne_none _))
      subst hpath
      exact ⟨rfl, hdead dir' hsome, info, runId, pid, hunlinked, hevidence.named,
        hevidence.matched, hevidence.recorded, hevidence.dead⟩
    · intro path hsome
      dsimp only at hsome
      rw [hget] at hsome
      split at hsome
      · exact hsome rfl
      · rename_i hne
        exact hne (List.mem_singleton.mp (hsection.within path hsome))
    · show v.log.removed ++ [a.path host] = [a.path host]
      rw [hevidence.untouched.removed]
      rfl

/-- The directory is taken away; if a call fails it stays. -/
theorem runs_removeAdopted {info : LockInfo} {runId : String} {pid : Int}
    {fail : LockFault → View ι → Prop} {v : View ι}
    (h : ((InSection host p (· ∈ [a.path host]) v.world ∧ KnowsInfo host (a.path host) info v.world) ∧
      MakerDead (a.path host) v.world) ∧ Evidence a info runId pid v.log) :
    Runs host p a (AdoptionEnds host p a) fail (removeAdopted (a.path host)) v := by
  have hstable : Stable (ViewRely host p) _ := stable_view (L := Evidence a info runId pid)
    (MakerDead.stable (· ∈ [a.path host]) (a.path host) info)
  refine Holds.call hstable h ?_
  rintro v r ⟨world, log⟩ ⟨⟨⟨hsection, hknows⟩, hdead⟩, hevidence⟩ ⟨fault, hexec, rfl⟩
  rcases exec_unlinkInfo hexec with ⟨hr, hworld⟩ | ⟨rfl, dir, hdir, hmetadata, hworld⟩
  · obtain rfl : world = v.world := hworld
    have hends : AdoptionEnds host p a false ⟨v.world, v.log.after v.world (.unlinkInfo _) r⟩ := by
      have hlog : v.log.after v.world (.unlinkInfo (a.path host)) r = v.log := by
        cases r with
        | done => exact absurd rfl hr
        | alreadyThere => rfl
        | notThere => rfl
        | failed => rfl
      rw [hlog]
      exact ⟨hsection.mono fun _ _ _ => trivial, hevidence.untouched⟩
    refine ⟨ViewGuar.refl rfl, ?_⟩
    cases r with
    | done => exact absurd rfl hr
    | alreadyThere => exact Holds.ret (AdoptionEnds.stable false) hends
    | notThere => exact Holds.ret (AdoptionEnds.stable false) hends
    | failed => exact Holds.ret (AdoptionEnds.stable false) hends
  · obtain rfl : world = _ := hworld
    have hright : dir.creator = some p ∨
        (v.world.guard = .held (some p) ∧ ∀ c, dir.creator = some c → c ∈ v.world.dead) :=
      Or.inr ⟨hsection.guard, hdead dir hdir⟩
    have hguar : Guar host p v.world
        (v.world.setLock (a.path host) { dir with metadata := .missing }) :=
      guar_setLock hdir rfl hright (Or.inr (Or.inl rfl)) (by rintro _ _ _ ⟨⟩)
    have hlog : v.log.after v.world (.unlinkInfo (a.path host)) .done =
        { v.log with unlinked := v.log.unlinked ++ [(a.path host, .record info)] } := by
      have hrecord : dir.metadata = .record info := (hknows dir hdir).1.resolve_right hmetadata
      simp only [CallLog.after, hdir, ← hrecord]
    rw [hlog]
    refine ⟨⟨hguar, Adopts.same fun path hsome => ?_⟩, ?_⟩
    · rw [get_setLock]
      split
      · exact Option.some_ne_none _
      · exact hsome
    · refine runs_removeEmptied (v := ⟨v.world.setLock (a.path host) { dir with metadata := .missing },
        { v.log with unlinked := v.log.unlinked ++ [(a.path host, .record info)] }⟩)
        ⟨⟨⟨⟨hsection.guard, hguar.wf hsection.wf, hsection.born, ?_⟩, ?_⟩, ?_⟩,
        ⟨⟨hevidence.untouched.1, hevidence.untouched.2, hevidence.untouched.3, hevidence.untouched.4⟩,
          hevidence.named, hevidence.matched, hevidence.recorded, hevidence.dead⟩,
        List.mem_append_right _ List.mem_cons_self⟩
      · intro path hsome
        rw [get_setLock] at hsome
        split at hsome
        · rename_i hpath
          exact hpath ▸ List.mem_cons_self
        · exact hsection.within path hsome
      · intro dir' hdir'
        rw [get_setLock, if_pos rfl] at hdir'
        obtain rfl := Option.some.inj hdir'
        exact ⟨Or.inr rfl, (hknows dir hdir).2⟩
      · intro dir' hdir'
        rw [get_setLock, if_pos rfl] at hdir'
        obtain rfl := Option.some.inj hdir'
        exact hdead dir hdir

/-- What a probe tells. -/
def ProbeEnds (host : Host ι) (p : ι) (a : Args) (S : LockPath → Prop) (path : LockPath)
    (info : LockInfo) (runId : String) (alive : Bool) (v : View ι) : Prop :=
  match alive with
  | true => InSection host p S v.world ∧ Untouched v.log
  | false => ((InSection host p S v.world ∧ KnowsInfo host path info v.world) ∧
      MakerDead path v.world) ∧ ∃ pid, Evidence a info runId pid v.log

/-- A probe that finds no process says that the maker of the directory is dead. -/
theorem runs_pidIsAlive {info : LockInfo} {runId : String} {path : LockPath} {S : LockPath → Prop}
    {fail : LockFault → View ι → Prop} {v : View ι}
    (hnamed : a.runId = some runId) (hmatched : info.matches a runId = true)
    (h : (InSection host p S v.world ∧ KnowsInfo host path info v.world) ∧ Untouched v.log) :
    Runs host p a (ProbeEnds host p a S path info runId) fail (pidIsAlive (info.field "pid")) v := by
  have hstable : Stable (ViewRely host p) _ := stable_view (L := Untouched)
    (KnowsInfo.stable S path info)
  have hyes : Stable (ViewRely host p) (ProbeEnds host p a S path info runId true) :=
    stable_view (InSection.stable S)
  have hno : Stable (ViewRely host p) (ProbeEnds host p a S path info runId false) :=
    stable_view (L := fun log => ∃ pid, Evidence a info runId pid log) (MakerDead.stable S path info)
  cases hpid : info.field "pid" with
  | null => exact Holds.ret hyes ⟨h.1.1, h.2⟩
  | bool b => exact Holds.ret hyes ⟨h.1.1, h.2⟩
  | str text => exact Holds.ret hyes ⟨h.1.1, h.2⟩
  | int pid =>
    by_cases hpos : pid ≤ 0
    · rw [pidIsAlive, if_pos hpos]
      exact Holds.ret hyes ⟨h.1.1, h.2⟩
    · rw [pidIsAlive, if_neg hpos]
      refine Holds.call hstable h ?_
      rintro v r ⟨world, log⟩ ⟨⟨hsection, hknows⟩, huntouched⟩ ⟨fault, hexec, rfl⟩
      obtain ⟨hr, hworld⟩ := Prod.mk.inj hexec
      obtain rfl : v.world = world := hworld
      refine ⟨ViewGuar.refl rfl, ?_⟩
      cases r with
      | true => exact Holds.ret hyes ⟨hsection, huntouched⟩
      | false =>
        refine Holds.ret hno ⟨⟨⟨hsection, hknows⟩, fun dir hdir c hc => ?_⟩, pid,
          ⟨huntouched.1, huntouched.2, huntouched.3, huntouched.4⟩, hnamed, hmatched, hpid,
          List.mem_append_right _ List.mem_cons_self⟩
        have hborn := hsection.wf.creators path dir c hdir hc
        have hsame : host.pid c = pid := by
          have hrecorded := (hknows dir hdir).2 c hc
          rw [hpid] at hrecorded
          exact (Value.int.inj hrecorded).symm
        have hnone := List.any_eq_false.mp (Bool.or_eq_false_iff.mp hr).2 c hborn
        simpa [World.live, hborn, hsame] using hnone

/-- Adoption takes away the one lock in the way, or leaves everything as it is. -/
theorem runs_adoptExactDeadRun (conflicts : List LockPath) {v : View ι}
    (h : InSection host p (· ∈ conflicts) v.world ∧ Untouched v.log) :
    Runs host p a (AdoptionEnds host p a)
      (fun _ v => InSection host p (fun _ => True) v.world ∧ Untouched v.log)
      (adoptExactDeadRun host a conflicts) v := by
  have hstable : Stable (ViewRely host p) fun v =>
      InSection host p (fun _ => True) v.world ∧ Untouched v.log := stable_view (InSection.stable _)
  have hends : ∀ {S : LockPath → Prop} {v : View ι}, InSection host p S v.world ∧ Untouched v.log →
      AdoptionEnds host p a false v := fun h => ⟨h.1.mono fun _ _ _ => trivial, h.2⟩
  unfold adoptExactDeadRun
  split
  · exact Holds.ret (AdoptionEnds.stable false) (hends h)
  · rename_i runId hnamed
    split
    · exact Holds.ret (AdoptionEnds.stable false) (hends h)
    · rename_i hexact
      simp only [Bool.or_eq_true, decide_eq_true_eq, not_or, not_not] at hexact
      obtain ⟨-, rfl⟩ := hexact
      refine Holds.bind ((runs_lockInfo (a.path host) (· ∈ [a.path host]) Untouched h).imp
        (fun _ _ h => h) fun _ _ h => hends h) ?_
      rintro (_ | _ | _ | info) v ⟨hv, hknows⟩
      · exact Holds.ret (AdoptionEnds.stable false) (hends hv)
      · exact Holds.ret (AdoptionEnds.stable false) (hends hv)
      · exact Holds.raise hstable (hends hv)
      · dsimp only
        cases hmatched : info.matches a runId with
        | false => exact Holds.ret (AdoptionEnds.stable false) (hends hv)
        | true =>
          refine Holds.bind (runs_pidIsAlive hnamed hmatched ⟨⟨hv.1, hknows info rfl⟩, hv.2⟩) ?_
          rintro (_ | _) v hprobe
          · obtain ⟨hdead, pid, hevidence⟩ := hprobe
            exact runs_removeAdopted ⟨hdead, hevidence⟩
          · exact Holds.ret (AdoptionEnds.stable false) (hends hprobe)

/-- With nothing in the way the program goes on, else it refuses. -/
theorem runs_clearConflicts (conflicts : List LockPath) {v : View ι}
    (h : InSection host p (· ∈ conflicts) v.world ∧ Untouched v.log) :
    Runs host p a
      (fun _ v => InSection host p (fun _ => False) v.world ∧ Cleared (a.path host) v.log)
      (fun _ v => InSection host p (fun _ => True) v.world ∧ Untouched v.log)
      (clearConflicts host a conflicts) v := by
  have hpost : Stable (ViewRely host p) fun v =>
      InSection host p (fun _ => False) v.world ∧ Cleared (a.path host) v.log :=
    stable_view (InSection.stable _)
  have hfail : Stable (ViewRely host p) fun v =>
      InSection host p (fun _ => True) v.world ∧ Untouched v.log := stable_view (InSection.stable _)
  cases conflicts with
  | nil =>
    exact Holds.ret hpost ⟨h.1.mono fun _ _ hmem => List.not_mem_nil hmem,
      h.2.made, Or.inl h.2.removed, h.2.failedMake, h.2.failedWrite⟩
  | cons first rest =>
    refine Holds.bind (runs_adoptExactDeadRun (first :: rest) h) ?_
    rintro (_ | _) v hends
    · refine Holds.bind (runs_describeHolder first (fun _ => True) Untouched hends) ?_
      intro holder v hv
      exact Holds.raise hfail hv
    · exact Holds.ret hpost ⟨hends.1, hends.2.made, Or.inr hends.2.removed, hends.2.failedMake,
        hends.2.failedWrite⟩

/-! ## The lock directory -/

/-- A call failed before a removed lock was there again, or after a new one was made. -/
def Harmful (log : CallLog) : Prop :=
  (log.failedMake = true ∧ log.removed ≠ []) ∨ (log.failedWrite = true ∧ log.removed = [])

/-- The call removed just the lock directories that it made again. -/
def LeavesAsFound (log : CallLog) : Prop := ∀ path, path ∈ log.removed ↔ path ∈ log.made

/-- The log of an `acquire` that has raised. -/
def Fair (log : CallLog) : Prop := LeavesAsFound log ↔ ¬ Harmful log

theorem Untouched.fair {log : CallLog} (h : Untouched log) : Fair log := by
  unfold Fair LeavesAsFound Harmful
  rw [h.made, h.removed, h.failedMake, h.failedWrite]
  simp

theorem Cleared.fair_failed {path : LockPath} {log : CallLog} (h : Cleared path log) :
    Fair { log with failedMake := true } := by
  unfold Fair LeavesAsFound Harmful
  dsimp only
  rw [h.made, h.failedWrite]
  rcases h.removed with hremoved | hremoved <;> rw [hremoved] <;> simp

/-- The log once the lock directory is made. -/
structure Made (path : LockPath) (log : CallLog) : Prop where
  made : log.made = [path]
  removed : log.removed = [] ∨ log.removed = [path]
  failedMake : log.failedMake = false

theorem Made.fair_failed {path : LockPath} {log : CallLog} (h : Made path log) :
    Fair { log with failedWrite := true } := by
  unfold Fair LeavesAsFound Harmful
  dsimp only
  rw [h.made, h.failedMake]
  rcases h.removed with hremoved | hremoved <;> rw [hremoved] <;> simp

/-- The process has the guard and the lock. -/
def Owns (host : Host ι) (p : ι) (path : LockPath) (w : World ι) : Prop :=
  InSection host p (fun _ => True) w ∧ Own p path w

omit [DecidableEq ι] in
theorem Owns.stable (path : LockPath) : Stable (Rely host p) (Owns host p path) :=
  (InSection.stable _).and (Own.stable path)

theorem Runs.change {post : Unit → View ι → Prop} {fail : LockFault → View ι → Prop} {c : Call}
    {reply : Reply c → Change} {next : LockProg Unit} {P : View ι → Prop} {v : View ι}
    (hstable : Stable (ViewRely host p) P) (hfail : Stable (ViewRely host p) (fail .osError)) (h : P v)
    (hstep : ∀ v r v', P v → callView host p c v r v' → ViewGuar host p a v v' ∧
      (reply r = .done → Runs host p a post fail next v') ∧ (reply r ≠ .done → fail .osError v')) :
    Runs host p a post fail (change c reply next) v := by
  refine Holds.call hstable h fun v r v' hP hcall => ?_
  obtain ⟨hguar, hdone, hbroken⟩ := hstep v r v' hP hcall
  refine ⟨hguar, ?_⟩
  cases hr : reply r with
  | done => exact hdone hr
  | alreadyThere => exact Holds.raise hfail (hbroken (by rw [hr]; exact nofun))
  | notThere => exact Holds.raise hfail (hbroken (by rw [hr]; exact nofun))
  | failed => exact Holds.raise hfail (hbroken (by rw [hr]; exact nofun))

omit [DecidableEq ι] in
/-- A change of the own directory that keeps it the own one. -/
theorem owns_setLock {path : LockPath} {w : World ι} {dir : LockDir ι} (dir' : LockDir ι)
    (h : Owns host p path w) (hdir : w.locks.get path = some dir) (hcreator : dir.creator = some p)
    (hsame : dir'.creator = dir.creator)
    (hpid : ∀ info, dir'.metadata = .record info → dir.metadata = .record info ∨
      info.field "pid" = .int (host.pid p)) :
    Guar host p w (w.setLock path dir') ∧ Owns host p path (w.setLock path dir') := by
  have hguar : Guar host p w (w.setLock path dir') := by
    refine guar_setLock hdir hsame (Or.inl hcreator) (Or.inr (Or.inr h.1.guard)) ?_
    intro c info hc hinfo hwf
    have hmine : c = p := Option.some.inj (hc.symm.trans (hsame.trans hcreator))
    rcases hpid info hinfo with hold | hnew
    · exact hwf.recorded path dir c info hdir (hmine ▸ hcreator) hold
    · rw [hmine]
      exact hnew
  obtain ⟨_, hget, _, hothers⟩ := h.2
  refine ⟨hguar, ⟨h.1.guard, hguar.wf h.1.wf, h.1.born, fun _ _ => trivial⟩, dir', ?_,
    hsame.trans hcreator, fun path' hne => ?_⟩
  · rw [get_setLock, if_pos rfl]
  · rw [get_setLock, if_neg hne]
    exact hothers path' hne

omit [DecidableEq ι] in
theorem adopts_setLock {v : View ι} {path : LockPath} {dir : LockDir ι} {log : CallLog} :
    Adopts host a v ⟨v.world.setLock path dir, log⟩ := by
  refine Adopts.same fun path' hsome => ?_
  rw [get_setLock]
  split
  · exact Option.some_ne_none _
  · exact hsome

omit [DecidableEq ι] in
theorem stable_writing : Stable (ViewRely host p) fun v =>
    Owns host p (a.path host) v.world ∧ Made (a.path host) v.log :=
  stable_view (Owns.stable _)

omit [DecidableEq ι] in
theorem stable_broken : Stable (ViewRely host p) fun v =>
    InSection host p (fun _ => True) v.world ∧ Fair v.log :=
  stable_view (InSection.stable _)

theorem runs_replaceInfo {v : View ι}
    (h : Owns host p (a.path host) v.world ∧ Made (a.path host) v.log) :
    Runs host p a (fun _ v => Owns host p (a.path host) v.world)
      (fun _ v => InSection host p (fun _ => True) v.world ∧ Fair v.log)
      (change (.replaceInfo (a.path host) (ownInfo host p a)) id (.ret ())) v := by
  refine Runs.change stable_writing stable_broken h ?_
  rintro v r ⟨world, log⟩ ⟨howns, hmade⟩ ⟨fault, hexec, rfl⟩
  obtain ⟨dir, hdir, hcreator, -⟩ := howns.2
  rcases exec_replaceInfo hexec hdir with ⟨rfl, hworld⟩ | ⟨rfl, hworld⟩
  · obtain rfl : world = v.world := hworld
    exact ⟨ViewGuar.refl rfl, nofun, fun _ => ⟨howns.1, hmade.fair_failed⟩⟩
  · obtain rfl : world = _ := hworld
    have hpid : ∀ info, Metadata.record (ownInfo host p a) = .record info →
        dir.metadata = .record info ∨ info.field "pid" = .int (host.pid p) := by
      intro info hinfo
      rw [← Metadata.record.inj hinfo]
      exact Or.inr rfl
    obtain ⟨hguar, howns'⟩ := owns_setLock
      { dir with metadata := .record (ownInfo host p a), tmp := false } howns hdir hcreator rfl hpid
    refine ⟨⟨hguar, adopts_setLock⟩, fun _ => ?_, fun hnot => absurd rfl hnot⟩
    exact Holds.ret (stable_world (Owns.stable _)) howns'

theorem runs_writeTmp {v : View ι}
    (h : Owns host p (a.path host) v.world ∧ Made (a.path host) v.log) :
    Runs host p a (fun _ v => Owns host p (a.path host) v.world)
      (fun _ v => InSection host p (fun _ => True) v.world ∧ Fair v.log)
      (change (.writeTmp (a.path host)) id
        (change (.replaceInfo (a.path host) (ownInfo host p a)) id (.ret ()))) v := by
  refine Runs.change stable_writing stable_broken h ?_
  rintro v r ⟨world, log⟩ ⟨howns, hmade⟩ ⟨fault, hexec, rfl⟩
  obtain ⟨dir, hdir, hcreator, -⟩ := howns.2
  obtain ⟨hr, hworld⟩ := exec_writeTmp hexec hdir
  obtain rfl : world = _ := hworld
  obtain ⟨hguar, howns'⟩ := owns_setLock { dir with tmp := true } howns hdir hcreator rfl
    fun info hinfo => Or.inl hinfo
  refine ⟨⟨hguar, adopts_setLock⟩, fun hdone => ?_, fun hnot => ?_⟩
  · obtain rfl : r = .done := hdone
    exact runs_replaceInfo ⟨howns', hmade⟩
  · obtain rfl := hr.resolve_right hnot
    exact ⟨howns'.1, hmade.fair_failed⟩

/-- The metadata is written into the own directory. -/
theorem runs_writeInfo {v : View ι}
    (h : Owns host p (a.path host) v.world ∧ Made (a.path host) v.log) :
    Runs host p a (fun _ v => Owns host p (a.path host) v.world)
      (fun _ v => InSection host p (fun _ => True) v.world ∧ Fair v.log)
      (writeInfo (a.path host) (ownInfo host p a)) v := by
  refine Runs.change stable_writing stable_broken h ?_
  rintro v r ⟨world, log⟩ ⟨howns, hmade⟩ ⟨fault, hexec, rfl⟩
  obtain ⟨dir, hdir, -⟩ := howns.2
  obtain ⟨hr, hworld⟩ := exec_makeInfoParent hexec (by rw [hdir]; exact Option.some_ne_none _)
  obtain rfl : world = v.world := hworld
  refine ⟨ViewGuar.refl rfl, fun hdone => ?_, fun hnot => ?_⟩
  · obtain rfl : r = .done := hdone
    have hhas : v.world.has (a.path host) = true := by
      unfold World.has
      rw [hdir]
      rfl
    have hlog : v.log.after v.world (.makeInfoParent (a.path host)) .done = v.log := if_pos hhas
    rw [hlog]
    exact runs_writeTmp ⟨howns, hmade⟩
  · obtain rfl := hr.resolve_right hnot
    exact ⟨howns.1, hmade.fair_failed⟩

/-- The directory is made where there is none. -/
theorem runs_makeLock {v : View ι}
    (h : InSection host p (fun _ => False) v.world ∧ Cleared (a.path host) v.log) :
    Runs host p a (fun _ v => Owns host p (a.path host) v.world)
      (fun _ v => InSection host p (fun _ => True) v.world ∧ Fair v.log) (makeLock host p a) v := by
  have hstable : Stable (ViewRely host p) fun v =>
      InSection host p (fun _ => False) v.world ∧ Cleared (a.path host) v.log :=
    stable_view (InSection.stable _)
  refine Holds.call hstable h ?_
  rintro v r ⟨world, log⟩ ⟨hsection, hcleared⟩ ⟨fault, hexec, rfl⟩
  have hempty : ∀ path, v.world.locks.get path = none := by
    intro path
    by_contra hsome
    exact hsection.within path hsome
  rcases exec_makeLock hexec with ⟨rfl, hworld⟩ | ⟨rfl, -, hthere⟩ | ⟨rfl, hparent, hworld⟩
  · obtain rfl : world = v.world := hworld
    exact ⟨ViewGuar.refl rfl, Holds.raise stable_broken
      ⟨hsection.mono fun _ _ h => h.elim, hcleared.fair_failed⟩⟩
  · exact absurd (hempty _) hthere
  · obtain rfl : world = _ := hworld
    have hguar : Guar host p v.world (v.world.setLock (a.path host) ⟨.missing, false, some p⟩) :=
      guar_addLock hsection.guard hempty hsection.born hparent
    refine ⟨⟨hguar, adopts_setLock⟩, runs_writeInfo ⟨⟨⟨hsection.guard, hguar.wf hsection.wf,
      hsection.born, fun _ _ => trivial⟩, ⟨.missing, false, some p⟩, ?_, rfl, fun path' hne => ?_⟩,
      ?_, hcleared.removed, hcleared.failedMake⟩⟩
    · rw [get_setLock, if_pos rfl]
    · rw [get_setLock, if_neg hne]
      exact hempty path'
    · show v.log.made ++ [a.path host] = [a.path host]
      rw [hcleared.made]
      rfl

/-- The lock is created where nothing is in the way. -/
theorem runs_createLock {v : View ι}
    (h : InSection host p (fun _ => False) v.world ∧ Cleared (a.path host) v.log) :
    Runs host p a (fun _ v => Owns host p (a.path host) v.world)
      (fun _ v => InSection host p (fun _ => True) v.world ∧ Fair v.log) (createLock host p a) v := by
  have hstable : Stable (ViewRely host p) fun v =>
      InSection host p (fun _ => False) v.world ∧ Cleared (a.path host) v.log :=
    stable_view (InSection.stable _)
  refine Runs.change hstable stable_broken h ?_
  rintro v r ⟨world, log⟩ ⟨hsection, hcleared⟩ ⟨fault, hexec, rfl⟩
  rcases exec_makeParent hexec with ⟨rfl, hworld⟩ | ⟨rfl, hworld⟩
  · obtain rfl : world = v.world := hworld
    refine ⟨ViewGuar.refl rfl, nofun, fun _ => ?_⟩
    exact ⟨hsection.mono fun _ _ h => h.elim, hcleared.fair_failed⟩
  · obtain rfl : world = _ := hworld
    have hguar : Guar host p v.world (v.world.withParent (a.path host)) := guar_withParent _
    refine ⟨⟨hguar, Adopts.same fun path hsome => ?_⟩, fun _ => ?_, fun hnot => absurd rfl hnot⟩
    · rw [locks_withParent]
      exact hsome
    · refine runs_makeLock ⟨⟨?_, hguar.wf hsection.wf, ?_, fun path hsome => ?_⟩, hcleared⟩
      · rw [guard_withParent]
        exact hsection.guard
      · rw [born_withParent]
        exact hsection.born
      · rw [locks_withParent] at hsome
        exact hsection.within path hsome

/-! ## The guard -/

omit [DecidableEq ι] in
theorem stable_outside : Stable (ViewRely host p) fun v =>
    (v.world.WF host ∧ p ∈ v.world.born) ∧ Untouched v.log :=
  stable_view (P := fun w => w.WF host ∧ p ∈ w.born)
    fun _ _ hrely h => ⟨hrely.wf h.1, hrely.born p h.2⟩

omit [DecidableEq ι] in
theorem stable_fair : Stable (ViewRely host p) fun v => Fair v.log := by
  intro v v' hrely h
  rw [hrely.log]
  exact h

/-- One attempt: the guard is made, or nothing happened. -/
theorem runs_makeGuard {v : View ι} {next : LockProg Unit} {k : Change → LockProg Unit}
    (h : (v.world.WF host ∧ p ∈ v.world.born) ∧ Untouched v.log)
    (hdone : k .done = .ret ()) (hthere : k .alreadyThere = next)
    (hfailed : k .failed = .raise .osError) (hgone : k .notThere = .raise .osError)
    (hnext : ∀ {v : View ι}, (v.world.WF host ∧ p ∈ v.world.born) ∧ Untouched v.log →
      Runs host p a (fun _ v => InSection host p (fun _ => True) v.world ∧ Untouched v.log)
        (fun _ v => Fair v.log) next v) :
    Runs host p a (fun _ v => InSection host p (fun _ => True) v.world ∧ Untouched v.log)
      (fun _ v => Fair v.log) (.call .makeGuard k) v := by
  refine Holds.call stable_outside h ?_
  rintro v r ⟨world, log⟩ ⟨⟨hwf, hborn⟩, huntouched⟩ ⟨fault, hexec, rfl⟩
  have hlog : v.log.after v.world .makeGuard r = v.log := rfl
  rw [hlog]
  rcases exec_makeGuard hexec with ⟨hr, hworld⟩ | ⟨rfl, habsent, hworld⟩
  · obtain rfl : world = v.world := hworld
    refine ⟨ViewGuar.refl rfl, ?_⟩
    cases r with
    | done => exact absurd rfl hr
    | alreadyThere =>
      rw [hthere]
      exact hnext ⟨⟨hwf, hborn⟩, huntouched⟩
    | notThere =>
      rw [hgone]
      exact Holds.raise stable_fair huntouched.fair
    | failed =>
      rw [hfailed]
      exact Holds.raise stable_fair huntouched.fair
  · obtain rfl : world = _ := hworld
    have hguar : Guar host p v.world { v.world with guard := .held (some p) } := by
      refine guar_guard fun q hne => ?_
      rw [habsent]
      exact ⟨fun hq => absurd (Option.some.inj (Guard.held.inj hq)).symm hne, nofun⟩
    rw [hdone]
    refine ⟨⟨hguar, Adopts.same fun _ hsome => hsome⟩, Holds.ret (stable_view (InSection.stable _))
      ⟨⟨rfl, hguar.wf hwf, hborn, fun _ _ => trivial⟩, huntouched⟩⟩

theorem runs_guardLoop : ∀ (rounds : Nat) {v : View ι},
    (v.world.WF host ∧ p ∈ v.world.born) ∧ Untouched v.log →
    Runs host p a (fun _ v => InSection host p (fun _ => True) v.world ∧ Untouched v.log)
      (fun _ v => Fair v.log) (guardLoop rounds) v
  | 0, _, h => runs_makeGuard h rfl rfl rfl rfl fun h => Holds.raise stable_fair h.2.fair
  | rounds + 1, _, h => runs_makeGuard h rfl rfl rfl rfl (runs_guardLoop rounds)

theorem runs_acquireGuard {v : View ι}
    (h : (v.world.WF host ∧ p ∈ v.world.born) ∧ Untouched v.log) :
    Runs host p a (fun _ v => InSection host p (fun _ => True) v.world ∧ Untouched v.log)
      (fun _ v => Fair v.log) (acquireGuard a) v := by
  refine Runs.change stable_outside stable_fair h ?_
  rintro v r ⟨world, log⟩ hP ⟨fault, hexec, rfl⟩
  obtain ⟨-, hworld⟩ := Prod.mk.inj hexec
  obtain rfl : v.world = world := hworld
  exact ⟨ViewGuar.refl rfl, fun _ => runs_guardLoop _ hP, fun _ => hP.2.fair⟩

/-- The guard goes away, or stays for good; the lock directories are as before. -/
theorem runs_releaseGuard {P : World ι → Prop} {L : CallLog → Prop} {next : LockProg Unit}
    {post : Unit → View ι → Prop} {fail : LockFault → View ι → Prop} {v : View ι}
    (hstable : Stable (Rely host p) P)
    (hguard : ∀ w, P w → w.guard = .held (some p))
    (hnext : ∀ (w : World ι) guard log, P w → L log → Runs host p a post fail next
      ⟨{ w with guard := guard }, log⟩)
    (h : P v.world ∧ L v.log) : Runs host p a post fail (releaseGuard.bind fun _ => next) v := by
  refine Holds.call (stable_view (L := L) hstable) h ?_
  rintro v r ⟨world, log⟩ ⟨hP, hL⟩ ⟨fault, hexec, rfl⟩
  rcases exec_removeGuard hexec with hworld | hworld
  · obtain rfl : world = v.world := hworld
    exact ⟨ViewGuar.refl rfl, hnext v.world v.world.guard v.log hP hL⟩
  · obtain rfl : world = _ := hworld
    have hguar : Guar host p v.world { v.world with guard := .absent } := by
      refine guar_guard fun q hne => ⟨nofun, fun hq => ?_⟩
      rw [hguard v.world hP] at hq
      exact absurd (Option.some.inj (Guard.held.inj hq)).symm hne
    exact ⟨⟨hguar, Adopts.same fun _ hsome => hsome⟩, hnext v.world .absent v.log hP hL⟩

/-- `acquire` returns as the owner of the one lock directory, or raises with a fair log. -/
theorem runs_acquire {v : View ι} (h : (v.world.WF host ∧ p ∈ v.world.born) ∧ Untouched v.log) :
    Runs host p a (fun _ v => Own p (a.path host) v.world) (fun _ v => Fair v.log)
      (acquire host p a) v := by
  refine Holds.bind (runs_acquireGuard h) fun _ v hv => ?_
  have hbody : Runs host p a (fun _ v => Owns host p (a.path host) v.world)
      (fun _ v => InSection host p (fun _ => True) v.world ∧ Fair v.log)
      (conflictingLocks.bind fun conflicts => (clearConflicts host a conflicts).bind fun _ =>
        createLock host p a) v := by
    refine Holds.bind ((runs_conflictingLocks Untouched hv).imp (fun _ _ h => h)
      fun _ _ h => ⟨h.1, h.2.fair⟩) fun conflicts v hv => ?_
    refine Holds.bind ((runs_clearConflicts conflicts hv).imp (fun _ _ h => h)
      fun _ _ h => ⟨h.1, h.2.fair⟩) fun _ v hv => ?_
    exact runs_createLock hv
  refine Holds.andFinally hbody ?_ ?_
  · intro _ v hv
    refine runs_releaseGuard (L := fun _ => True) (Owns.stable (a.path host)) (fun w hw => hw.1.guard) ?_
      ⟨hv, trivial⟩
    intro w guard log hw _
    exact Holds.ret (stable_world (Own.stable _)) hw.2
  · intro fault v hv
    refine runs_releaseGuard (L := Fair) (InSection.stable fun _ => True) (fun w hw => hw.guard) ?_ hv
    intro w guard log _ hlog
    exact Holds.raise stable_fair hlog

end

end Remrun.Locks
