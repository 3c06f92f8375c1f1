import Remrun.Reconcile.Reclassify

/-!
# Applying a plan

What the two trees list after the apply phase, when nobody else writes: the deletions, the pulls and
the pushes of the plan. The target is known whatever the spelling, since the pushes are verified.
-/

namespace Remrun.Reconcile

open Keyed Effect
set_option autoImplicit false

/-! ## Applying when nobody else writes -/

section Applying
variable {P : Platform} {env : Env P} {a : SyncArgs} {w : World P}

/-- A root that stood still stands. -/
def Root.Stands {key : String → String} (root₀ root : Root key) : Prop :=
  root ≠ .blocked ∧ (root = .missing → root₀ = .missing)

theorem Root.stands_put {key : String → String} {root₀ root root' : Root key} {name : String}
    {node : Node} (h : root.put name node = .ok root') : root₀.Stands root' := by
  obtain ⟨files, rfl⟩ := (Root.put_replaced h).directory
  exact ⟨nofun, nofun⟩

theorem Root.Stands.remove {key : String → String} {root₀ root root' : Root key} {name : String}
    (h : root₀.Stands root) (hremove : root.remove name = .ok root') : root₀.Stands root' := by
  cases root with
  | missing => exact Except.ok.inj hremove ▸ h
  | blocked => exact absurd rfl h.1
  | directory files =>
    rw [Root.remove] at hremove
    split at hremove
    · cases hremove
    · obtain rfl := Except.ok.inj hremove
      constructor <;> rintro ⟨⟩

/-- The rule of a write for what holds where it returns. -/
theorem triple_act_returns {I Q : World P → Prop} {change : Nat → World P → Except Fault (World P)}
    (hI : Steady env I) (h : ∀ n w w', I w → change n w = .ok w' → Q w') :
    Triple I (act env change) (fun _ => Q) fun _ _ => True := by
  refine triple_act hI (excuses_true env) (excuses_true env) fun n w hw => ?_
  cases hchange : change n w with
  | ok w' => exact h n w w' hw hchange
  | error fault => trivial

/-- The deletions of the items of `done` are made, and nothing else. -/
structure Swept (w : World P) (done : List ClassifiedPath) (w' : World P) : Prop where
  locals : w.localRoot.Emptied w'.localRoot (pathsFor .deleteLocal done)
  remotes : w.remoteRoot.Emptied w'.remoteRoot (pathsFor .deleteRemote done)
  stands : w.localRoot.Stands w'.localRoot

theorem steady_swept (hquiet : env.Quiet) {done : List ClassifiedPath} :
    Steady env (Swept w done) :=
  steady_of_quiet hquiet fun _ _ h => ⟨h.locals, h.remotes, h.stands⟩

theorem pathsFor_append (action : Action) (done : List ClassifiedPath) (item : ClassifiedPath) :
    pathsFor action (done ++ [item]) =
      pathsFor action done ++ if item.action = action then [item.path] else [] := by
  simp only [pathsFor, List.filter_append, List.map_append]
  split
  · rename_i h
    simp [h]
  · rename_i h
    simp [h]

/-- An item that deletes nothing. -/
theorem Swept.append {done : List ClassifiedPath} {item : ClassifiedPath} {w' : World P}
    (h : Swept w done w') (hlocal : item.action ≠ .deleteLocal)
    (hremote : item.action ≠ .deleteRemote) : Swept w (done ++ [item]) w' := by
  refine ⟨?_, ?_, h.stands⟩
  · rw [pathsFor_append, if_neg hlocal, List.append_nil]
    exact h.locals
  · rw [pathsFor_append, if_neg hremote, List.append_nil]
    exact h.remotes

theorem mem_planOf (hboth : a.direction = .both) {item : ClassifiedPath} :
    item ∈ a.planOf w ↔ a.classifyAt item.path ((a.seenOf w).1.get item.path)
      ((a.seenOf w).2.get item.path) = some item ∧ item.action ≠ .none := by
  unfold SyncArgs.planOf
  rw [mem_toApply hboth, mem_classified]

/-- The entries of a manifest are listed. -/
theorem lists_of_manifestOf {s : Surface} {side : Side} {key : String → String} {root : Root key}
    {rel : String} (h : ((manifestOf P s side root).get rel).isSome = true) : root.Lists rel := by
  obtain ⟨entry, hentry⟩ := Option.isSome_iff_exists.mp h
  obtain ⟨_, bytes, mtimeNs, mode, hlisted, _⟩ := listed_of_manifestOf hentry
  exact (Root.listed_eq_some.mp hlisted).1

theorem triple_itemEffect (hquiet : env.Quiet) (hboth : a.direction = .both)
    {done : List ClassifiedPath} {item : ClassifiedPath} (hitem : item ∈ a.planOf w)
    (hnew : item.path ∉ done.map ClassifiedPath.path) (remoteManifest : Manifest) :
    Triple (Swept w done) (itemEffect env a remoteManifest item)
      (fun _ => Swept w (done ++ [item])) fun _ _ => True := by
  have hsteady : ∀ {items : List ClassifiedPath}, Steady env (Swept w items) := steady_swept hquiet
  have hconcerns := classifyAt_concerns ((mem_planOf hboth).mp hitem).1
  have hfresh : ∀ action, item.path ∉ pathsFor action done := by
    intro action hin
    obtain ⟨other, hother, _, hpath⟩ := mem_pathsFor.mp hin
    exact hnew (hpath ▸ List.mem_map_of_mem hother)
  have hbackup : Keeps (Swept w done) (backupLocal env item.path a.backupBelowBytes) :=
    keeps_backupLocal _ _ hsteady fun _ _ h => ⟨h.locals, h.remotes, h.stands⟩
  have hkept : item.action ≠ .deleteLocal → item.action ≠ .deleteRemote →
      ∀ {m : M P Unit}, Keeps (Swept w done) m →
      Triple (Swept w done) m (fun _ => Swept w (done ++ [item])) fun _ _ => True :=
    fun hlocal hremote _ hm =>
      hm.conseq (fun _ => id) (fun _ _ h => h.append hlocal hremote) fun _ _ _ => trivial
  unfold itemEffect
  cases haction : item.action with
  | none => exact hkept (by rw [haction]; decide) (by rw [haction]; decide) (keeps_pure _)
  | push => exact hkept (by rw [haction]; decide) (by rw [haction]; decide) (keeps_pure _)
  | pull =>
    exact hkept (by rw [haction]; decide) (by rw [haction]; decide) (keeps_map hbackup)
  | abortConflict =>
    refine hkept (by rw [haction]; decide) (by rw [haction]; decide) (keeps_ite ?_ (keeps_pure _))
    exact keeps_saveRemote _ hsteady fun _ _ h => ⟨h.locals, h.remotes, h.stands⟩
  | deleteLocal =>
    simp only [ClassifiedPath.Concerns, haction] at hconcerns
    refine triple_bind (keeps_to_triple hbackup) fun _ => ?_
    refine triple_act_returns hsteady fun n w₁ w₂ hswept hchange => ?_
    obtain ⟨root, hremove, heq⟩ := bind_eq_ok.mp hchange
    obtain rfl := Except.ok.inj heq
    refine ⟨?_, ?_, hswept.stands.remove hremove⟩
    · rw [pathsFor_append, if_pos haction]
      exact hswept.locals.remove hremove (lists_of_manifestOf hconcerns.1) (hfresh _)
    · rw [pathsFor_append, if_neg (by rw [haction]; decide), List.append_nil]
      exact hswept.remotes
  | deleteRemote =>
    simp only [ClassifiedPath.Concerns, haction] at hconcerns
    refine triple_act_returns hsteady fun n w₁ w₂ hswept hchange => ?_
    obtain ⟨root, hremove, heq⟩ := bind_eq_ok.mp hchange
    obtain rfl := Except.ok.inj heq
    refine ⟨?_, ?_, hswept.stands⟩
    · rw [pathsFor_append, if_neg (by rw [haction]; decide), List.append_nil]
      exact hswept.locals
    · rw [pathsFor_append, if_pos haction]
      exact hswept.remotes.remove hremove (lists_of_manifestOf hconcerns.2) (hfresh _)

theorem triple_sweep (hquiet : env.Quiet) (hboth : a.direction = .both)
    (hscanned : w.localRoot ≠ .blocked) (remoteManifest : Manifest) (result : SyncResult) :
    Triple (SameTrees w) (syncItems env a remoteManifest result (a.planOf w))
      (OnOk fun _ => Swept w (a.planOf w)) fun _ _ => True := by
  refine (triple_foldlM (fun done acc => OnOk (fun _ => Swept w done) acc) ?_).pre
    fun w' htrees r _ => ?_
  · intro done item rest acc hsplit
    refine triple_continuing (fun result => ?_) acc
    have hnodup := toApply_nodup a (a.seenOf w).1 (a.seenOf w).2
    rw [show a.toApply (a.seenOf w).1 (a.seenOf w).2 = done ++ item :: rest from hsplit,
      List.map_append, List.map_cons] at hnodup
    have hnew : item.path ∉ done.map ClassifiedPath.path := fun hin =>
      (List.nodup_append.mp hnodup).2.2 _ hin _ List.mem_cons_self rfl
    have hitem : item ∈ a.planOf w := by
      rw [hsplit]
      exact List.mem_append_right _ List.mem_cons_self
    exact (triple_attempt (triple_itemEffect hquiet hboth hitem hnew _) _ _).post
      fun out w₁ h r heq => (h r heq).2
  · obtain ⟨hlocal, hremote⟩ := htrees
    refine ⟨fun rel => ?_, fun rel => ?_, ?_⟩
    · rw [hlocal]
      rfl
    · rw [hremote]
      rfl
    · rw [hlocal]
      exact ⟨hscanned, id⟩

/-- What opening a path of the other side reads. -/
def Root.reads {key : String → String} (root : Root key) (rel : String) : Option Bytes :=
  (root.get rel).bind Node.contents

/-- The pulls of `done` are made, and nothing else. -/
structure PulledFrom (w : World P) (done : List String) (w' : World P) : Prop where
  remote : w'.remoteRoot = w.remoteRoot
  filled : w.localRoot.Filled w'.localRoot w.remoteRoot.reads done
  stands : w.localRoot.Stands w'.localRoot

theorem triple_pullFiles (hquiet : env.Quiet) {paths : List String}
    (hscanned : w.localRoot ≠ .blocked) (hdistinct : Distinct P.localKey paths)
    (hown : ∀ rel ∈ paths, ∀ q, w.localRoot.Lists q → P.localKey q = P.localKey rel → q = rel) :
    Triple (SameTrees w) (pullFiles env paths) (fun _ => PulledFrom w paths) fun _ _ => True := by
  refine (triple_foldlM (fun done _ => PulledFrom w done) ?_).pre fun w' htrees => ?_
  · intro done rel rest _ hsplit
    have hmem : ∀ q ∈ done ++ [rel], q ∈ paths := by
      intro q hq
      rw [hsplit]
      rcases List.mem_append.mp hq with hq | hq
      · exact List.mem_append_left _ hq
      · exact List.mem_append_right _ (List.mem_singleton.mp hq ▸ List.mem_cons_self)
    have hrel : rel ∈ paths := hmem rel (List.mem_append_right _ List.mem_cons_self)
    refine triple_act_returns (steady_of_quiet hquiet fun _ _ h => ⟨h.remote, h.filled, h.stands⟩)
      fun n w₁ w₂ hpulled hchange => ?_
    cases hread : (w₁.node .target rel).bind Node.contents with
    | none =>
      rw [hread] at hchange
      cases hchange
    | some bytes =>
      rw [hread] at hchange
      obtain ⟨root, hput, heq⟩ := bind_eq_ok.mp hchange
      obtain rfl := Except.ok.inj heq
      refine ⟨hpulled.remote, ?_, Root.stands_put hput⟩
      refine hpulled.filled.put hput ?_ (hown rel hrel) fun q hq => ?_
      · rw [Root.reads, ← hpulled.remote]
        exact hread
      · exact hdistinct q (hmem q (List.mem_append_left _ hq)) rel hrel
  · refine ⟨htrees.2, ⟨fun _ hin => absurd hin List.not_mem_nil, fun rel _ => by rw [htrees.1]⟩, ?_⟩
    rw [htrees.1]
    exact ⟨hscanned, id⟩

/-- What pulls do whatever the spelling. -/
structure Widened (w w' : World P) : Prop where
  remote : w'.remoteRoot = w.remoteRoot
  names : ∀ q, w.localRoot.Lists q → w'.localRoot.Lists q
  stands : w.localRoot.Stands w'.localRoot

theorem triple_widened (hquiet : env.Quiet) (hscanned : w.localRoot ≠ .blocked)
    (paths : List String) :
    Triple (SameTrees w) (pullFiles env paths) (fun _ => Widened w) fun _ _ => True := by
  refine (triple_foldlM (fun _ _ => Widened w) fun done rel rest _ _ => ?_).pre fun w' htrees => ?_
  · refine triple_act_returns (steady_of_quiet hquiet fun _ _ h => ⟨h.remote, h.names, h.stands⟩)
      fun n w₁ w₂ hwidened hchange => ?_
    cases hread : (w₁.node .target rel).bind Node.contents with
    | none =>
      rw [hread] at hchange
      cases hchange
    | some bytes =>
      rw [hread] at hchange
      obtain ⟨root, hput, heq⟩ := bind_eq_ok.mp hchange
      obtain rfl := Except.ok.inj heq
      exact ⟨hwidened.remote, fun q hq => Root.lists_put hput (hwidened.names q hq),
        Root.stands_put hput⟩
  · refine ⟨htrees.2, fun q hq => htrees.1 ▸ hq, ?_⟩
    rw [htrees.1]
    exact ⟨hscanned, id⟩

/-- The pushes of `done` are made, and nothing else. -/
structure PushedFrom (w : World P) (done : List String) (w' : World P) : Prop where
  controller : w'.localRoot = w.localRoot
  filled : w.remoteRoot.Filled w'.remoteRoot w.localRoot.reads done

/-- The pushes after the directory is made. -/
def pushAll (env : Env P) (paths : List String) : M P Unit := do
  ensureRemoteDir env
  pushFiles env paths

theorem triple_ensureRemoteDir {I : World P → Prop} (hI : Steady env I)
    (h : ∀ w root, I w → (∀ rel, root.listed rel = w.remoteRoot.listed rel) →
      I { w with remoteRoot := root, log := w.log ++ [.ensureRemoteDir] }) :
    Triple I (ensureRemoteDir env) (fun _ => I) fun _ _ => True := by
  refine triple_act_returns hI fun n w₁ w₂ hw hchange => ?_
  split at hchange
  · rename_i hmissing
    obtain rfl := Except.ok.inj hchange
    refine h w₁ _ hw fun rel => ?_
    rw [hmissing]
    have hnot : ∀ root : Root P.remoteKey, ¬ root.Lists rel → root.listed rel = none :=
      fun root hno => if_neg hno
    rw [hnot _ List.not_mem_nil, hnot _ id]
  · cases hchange
  · obtain rfl := Except.ok.inj hchange
    exact h w₁ w₁.remoteRoot hw fun _ => rfl

theorem triple_pushAll (hquiet : env.Quiet) {paths : List String}
    (hdistinct : Distinct P.remoteKey paths)
    (hown : ∀ rel ∈ paths, ∀ q, w.remoteRoot.Lists q → P.remoteKey q = P.remoteKey rel → q = rel) :
    Triple (SameTrees w) (pushAll env paths) (fun _ => PushedFrom w paths) fun _ _ => True := by
  have hsteady : ∀ {done : List String}, Steady env (PushedFrom w done) :=
    steady_of_quiet hquiet fun _ _ h => ⟨h.controller, h.filled⟩
  have hensure : Triple (PushedFrom w []) (ensureRemoteDir env) (fun _ => PushedFrom w [])
      fun _ _ => True := triple_ensureRemoteDir hsteady fun w' root h hlisted =>
    ⟨h.controller, fun _ hin => absurd hin List.not_mem_nil,
      fun rel hrel => (hlisted rel).trans (h.filled.others rel hrel)⟩
  refine (triple_bind hensure fun _ => triple_foldlM (fun done _ => PushedFrom w done) ?_).pre
    fun w' htrees => ?_
  · intro done rel rest _ hsplit
    have hmem : ∀ q ∈ done ++ [rel], q ∈ paths := by
      intro q hq
      rw [hsplit]
      rcases List.mem_append.mp hq with hq | hq
      · exact List.mem_append_left _ hq
      · exact List.mem_append_right _ (List.mem_singleton.mp hq ▸ List.mem_cons_self)
    have hrel : rel ∈ paths := hmem rel (List.mem_append_right _ List.mem_cons_self)
    refine triple_act_returns hsteady fun n w₁ w₂ hpushed hchange => ?_
    cases hread : (w₁.node .controller rel).bind Node.contents with
    | none =>
      rw [hread] at hchange
      cases hchange
    | some bytes =>
      rw [hread] at hchange
      obtain ⟨root, hput, heq⟩ := bind_eq_ok.mp hchange
      obtain rfl := Except.ok.inj heq
      refine ⟨hpushed.controller, ?_⟩
      refine hpushed.filled.put hput ?_ (hown rel hrel) fun q hq => ?_
      · rw [Root.reads, ← hpushed.controller]
        exact hread
      · exact hdistinct q (hmem q (List.mem_append_left _ hq)) rel hrel
  · exact ⟨htrees.1, fun _ hin => absurd hin List.not_mem_nil, fun rel _ => by rw [htrees.2]⟩

/-- A push keeps the names that are listed, and the controller's tree. -/
theorem keeps_lists_pushAll (hquiet : env.Quiet) {q : String} (paths : List String) :
    Triple (fun w' : World P => w'.remoteRoot.Lists q) (pushAll env paths)
      (fun _ w' => w'.remoteRoot.Lists q) fun _ _ => True := by
  have hsteady : Steady env fun w' : World P => w'.remoteRoot.Lists q :=
    steady_of_quiet hquiet fun _ _ h => h
  refine triple_bind (triple_ensureRemoteDir hsteady fun w' root hlists hlisted => ?_)
    fun _ => triple_foldlM (fun _ _ (w' : World P) => w'.remoteRoot.Lists q)
      fun done rel rest _ _ => ?_
  · rw [← Root.listed_ne_none, hlisted q]
    exact Root.listed_ne_none.mpr hlists
  · refine triple_act_returns hsteady fun n w₁ w₂ hlists hchange => ?_
    cases hread : (w₁.node .controller rel).bind Node.contents with
    | none =>
      rw [hread] at hchange
      cases hchange
    | some bytes =>
      rw [hread] at hchange
      obtain ⟨root, hput, heq⟩ := bind_eq_ok.mp hchange
      obtain rfl := Except.ok.inj heq
      exact Root.lists_put hput hlists

/-! ## The stages of a run that applied its plan -/

variable {seen : Observed} {w' : World P} {out : SyncResult × Manifest}

theorem continuing_returns {α β : Type} {f : α → M P (Except SyncResult β)}
    {acc : Except SyncResult α} {x : β} (h : continuing f acc w = .ok (.ok x) w') :
    ∃ y, acc = .ok y ∧ f y w = .ok (.ok x) w' := by
  cases acc with
  | ok y => exact ⟨y, rfl, h⟩
  | error result => cases h

theorem attempt_returns {m : M P Unit} {before after result : SyncResult}
    (h : attempt m before after w = .ok (.ok result) w') : m w = .ok () w' := by
  obtain ⟨done, w₁, hm, h⟩ := bind_returns h
  cases done with
  | none => cases h
  | some value =>
    cases h
    exact transported_some hm

/-- The apply phase went through its three stages. -/
structure Stages (env : Env P) (a : SyncArgs) (seen : Observed) (w w' : World P) : Prop where
  swept : ∃ r w₁ w₂, syncItems env a seen.2 (a.opened seen) (a.toApply seen.1 seen.2) w =
      .ok (.ok r) w₁ ∧
    pullFiles env (pathsFor .pull (a.toApply seen.1 seen.2)) w₁ = .ok () w₂ ∧
    (pathsFor .push (a.toApply seen.1 seen.2) = [] ∧ w' = w₂ ∨
      ∃ verified w₃, pushAll env (pathsFor .push (a.toApply seen.1 seen.2)) w₂ = .ok () w₃ ∧
        verifiedRemote env a seen.1 (pathsFor .push (a.toApply seen.1 seen.2)) w₃ =
          .ok (some verified) w')

theorem applySync_stages (h : applySync env a seen w = .ok (.ok out) w') :
    Stages env a seen w w' := by
  obtain ⟨acc, w₁, hitems, h⟩ := bind_returns h
  obtain ⟨acc', w₂, hpulls, h⟩ := bind_returns h
  obtain ⟨r', rfl, hpushes⟩ := continuing_returns h
  obtain ⟨r, rfl, hpulls⟩ := continuing_returns hpulls
  refine ⟨r, w₁, w₂, hitems, ?_, ?_⟩
  · unfold syncPulls at hpulls
    split at hpulls
    · rename_i hnil
      rw [hnil]
      cases hpulls
      rfl
    · exact attempt_returns hpulls
  · unfold syncPushes at hpushes
    split at hpushes
    · rename_i hnil
      cases hpushes
      exact Or.inl ⟨hnil, rfl⟩
    · obtain ⟨done, w₃, hpush, h⟩ := bind_returns hpushes
      cases done with
      | error failed => cases h
      | ok r'' =>
        obtain ⟨verified, w₄, hverified, h⟩ := bind_returns h
        cases verified with
        | none => cases h
        | some verified =>
          cases h
          exact Or.inr ⟨verified, w₃, attempt_returns hpush, hverified⟩

/-- The manifest after the pushes shows what was pushed. -/
theorem verifiedRemote_quiet (hquiet : env.Quiet) {localManifest verified : Manifest}
    {pushes : List String}
    (h : verifiedRemote env a localManifest pushes w = .ok (some verified) w') :
    SameTrees w w' ∧ ∀ rel ∈ pushes, mismatched localManifest (a.seenOf w').2 rel = false := by
  have hread := (returns_seenOf (a := a) (w := w) hquiet (excuses_true env)
    fun _ _ _ => trivial).2
  have hverify : Triple (SameTrees w) (verifiedRemote env a localManifest pushes)
      (fun out w' => ∀ v, out = some v → SameTrees w w' ∧
        ∀ rel ∈ pushes, mismatched localManifest (a.seenOf w).2 rel = false) fun _ _ => True := by
    refine triple_tryCatch (triple_bind hread fun manifest => ?_) fun fault => ?_
    · split
      · exact triple_throw fun _ _ => trivial
      · rename_i hshown
        refine triple_pure fun w₁ h v _ => ⟨h.2, fun rel hrel => ?_⟩
        rw [← h.1]
        simpa using fun hmis => hshown (List.any_eq_true.mpr ⟨rel, hrel, hmis⟩)
    · cases fault with
      | transportError message => exact triple_pure fun _ _ _ heq => nomatch heq
      | notImplemented => exact triple_pure fun _ _ _ heq => nomatch heq
      | valueError => exact triple_pure fun _ _ _ heq => nomatch heq
      | _ => exact triple_throw fun _ _ => trivial
  obtain ⟨htrees, hshown⟩ := hverify.ok ⟨rfl, rfl⟩ h verified rfl
  refine ⟨htrees, fun rel hrel => ?_⟩
  have hsame : (a.seenOf w').2 = (a.seenOf w).2 := by
    unfold SyncArgs.seenOf
    rw [htrees.2]
  rw [hsame]
  exact hshown rel hrel

theorem shown_of_visible {localManifest remoteManifest : Manifest} {rel : String}
    (h : mismatched localManifest remoteManifest rel = false) :
    ∃ le re, localManifest.get rel = some le ∧ remoteManifest.get rel = some re ∧
      sameContent le re = true := by
  unfold mismatched at h
  split at h
  · rename_i le re hle hre
    exact ⟨le, re, hle, hre, by simpa using h⟩
  · cases h

/-- What the trees list after the plan is applied, whatever the spelling on the controller. -/
structure Ran (a : SyncArgs) (w w' : World P) : Prop where
  remotes : ∀ rel, rel ∉ pathsFor .push (a.planOf w) → w'.remoteRoot.listed rel =
    if rel ∈ pathsFor .deleteRemote (a.planOf w) then none else w.remoteRoot.listed rel
  pushed : ∀ rel ∈ pathsFor .push (a.planOf w), ∃ bytes mtimeNs mode,
    w'.remoteRoot.listed rel = some (.file bytes mtimeNs mode) ∧
      w'.localRoot.reads rel = some bytes
  visible : ∀ rel ∈ pathsFor .push (a.planOf w),
    mismatched (a.seenOf w).1 (a.seenOf w').2 rel = false
  names : ∀ q, w.localRoot.Lists q → q ∉ pathsFor .deleteLocal (a.planOf w) → w'.localRoot.Lists q
  stands : w.localRoot.Stands w'.localRoot

/-- No pulled path is taken on the controller by another spelling. -/
def Spelled (a : SyncArgs) (w : World P) : Prop :=
  ∀ rel ∈ pathsFor .pull (a.planOf w), ∀ q, w.localRoot.Lists q →
    P.localKey q = P.localKey rel → q = rel

/-- What the controller's tree lists after the plan is applied. -/
structure Landed (a : SyncArgs) (w w' : World P) : Prop where
  locals : ∀ rel, rel ∉ pathsFor .pull (a.planOf w) → w'.localRoot.listed rel =
    if rel ∈ pathsFor .deleteLocal (a.planOf w) then none else w.localRoot.listed rel
  pulled : ∀ rel ∈ pathsFor .pull (a.planOf w), ∃ bytes mtimeNs mode,
    w'.localRoot.listed rel = some (.file bytes mtimeNs mode) ∧ w.remoteRoot.reads rel = some bytes

theorem Root.Emptied.lists {key : String → String} {root₀ root : Root key} {done : List String}
    (h : root₀.Emptied root done) {q : String} : root.Lists q ↔ root₀.Lists q ∧ q ∉ done := by
  rw [← Root.listed_ne_none, h q, ← Root.listed_ne_none]
  split
  · rename_i hin
    exact ⟨fun hne => absurd rfl hne, fun hne => absurd hin hne.2⟩
  · rename_i hout
    exact ⟨fun hne => ⟨hne, hout⟩, And.left⟩

theorem stages_pushes (hquiet : env.Quiet) {w₂ : World P} {localManifest : Manifest}
    {pushes : List String} (hdistinct : Distinct P.remoteKey pushes)
    (h : pushes = [] ∧ w' = w₂ ∨ ∃ verified w₃, pushAll env pushes w₂ = .ok () w₃ ∧
      verifiedRemote env a localManifest pushes w₃ = .ok (some verified) w') :
    w'.localRoot = w₂.localRoot ∧
      w₂.remoteRoot.Filled w'.remoteRoot w₂.localRoot.reads pushes ∧
      ∀ rel ∈ pushes, mismatched localManifest (a.seenOf w').2 rel = false := by
  rcases h with ⟨rfl, rfl⟩ | ⟨verified, w₃, hpush, hverified⟩
  · exact ⟨rfl, ⟨fun _ hin => absurd hin List.not_mem_nil, fun _ _ => rfl⟩,
      fun _ hin => absurd hin List.not_mem_nil⟩
  · obtain ⟨htrees, hshown⟩ := verifiedRemote_quiet hquiet hverified
    -- a pushed file that is shown has no other spelling beside it
    have hown : ∀ rel ∈ pushes, ∀ q, w₂.remoteRoot.Lists q → P.remoteKey q = P.remoteKey rel →
        q = rel := by
      intro rel hrel q hq hkey
      have hlists : w₃.remoteRoot.Lists q := (keeps_lists_pushAll hquiet pushes).ok hq hpush
      obtain ⟨_, re, _, hre, _⟩ := shown_of_visible (hshown rel hrel)
      have hrel' : w'.remoteRoot.Lists rel :=
        lists_of_manifestOf (Option.isSome_iff_exists.mpr ⟨re, hre⟩)
      rw [htrees.2] at hrel'
      exact Root.lists_unique hlists hrel' hkey
    have hpushed := (triple_pushAll hquiet hdistinct hown).ok ⟨rfl, rfl⟩ hpush
    exact ⟨htrees.1.trans hpushed.controller, htrees.2 ▸ hpushed.filled, hshown⟩

theorem stages_ran (hquiet : env.Quiet) (hboth : a.direction = .both) {w₀ : World P}
    (hplanned : PlannedFrom P a w seen w₀) (h : Stages env a seen w₀ w') :
    Ran a w w' ∧ (Spelled a w → Landed a w w') := by
  obtain ⟨r, w₁, w₂, hitems, hpulls, hpushes⟩ := h.swept
  obtain rfl := hplanned.seen
  obtain ⟨hlocalKeys, hremoteKeys⟩ := distinct_of_planned hplanned.distinct
  have hswept : Swept w (a.planOf w) w₁ :=
    (triple_sweep hquiet hboth hplanned.scanned _ _).ok hplanned.trees hitems r rfl
  have hwidened : Widened w₁ w₂ := (triple_widened hquiet hswept.stands.1 _).ok ⟨rfl, rfl⟩ hpulls
  obtain ⟨hlocal, hfilled, hvisible⟩ := stages_pushes hquiet
    (fun p hp q hq => hremoteKeys p (List.mem_append_right _ hp) q (List.mem_append_right _ hq))
    hpushes
  constructor
  · refine ⟨fun rel hrel => ?_, fun rel hrel => ?_, hvisible, fun q hq hkept => ?_, ?_⟩
    · rw [hfilled.others rel hrel, hwidened.remote]
      exact hswept.remotes rel
    · rw [hlocal]
      exact hfilled.written rel hrel
    · rw [hlocal]
      exact hwidened.names q (hswept.locals.lists.mpr ⟨hq, hkept⟩)
    · rw [hlocal]
      exact ⟨hwidened.stands.1, fun h => hswept.stands.2 (hwidened.stands.2 h)⟩
  · intro hspelled
    have hown : ∀ rel ∈ pathsFor .pull (a.planOf w), ∀ q, w₁.localRoot.Lists q →
        P.localKey q = P.localKey rel → q = rel :=
      fun rel hrel q hq hkey => hspelled rel hrel q (hswept.locals.lists.mp hq).1 hkey
    have hpulled : PulledFrom w₁ (pathsFor .pull (a.planOf w)) w₂ :=
      (triple_pullFiles hquiet hswept.stands.1
        (fun p hp q hq => hlocalKeys p (List.mem_append_right _ hp) q (List.mem_append_right _ hq))
        hown).ok ⟨rfl, rfl⟩ hpulls
    refine ⟨fun rel hrel => ?_, fun rel hrel => ?_⟩
    · rw [hlocal, hpulled.filled.others rel hrel]
      exact hswept.locals rel
    · obtain ⟨bytes, mtimeNs, mode, hlisted, hread⟩ := hpulled.filled.written rel hrel
      refine ⟨bytes, mtimeNs, mode, by rw [hlocal, hlisted], ?_⟩
      -- the pulled file was there before the deletions
      obtain ⟨item, hitem, haction, rfl⟩ := mem_pathsFor.mp hrel
      have hconcerns := classifyAt_concerns ((mem_planOf hboth).mp hitem).1
      simp only [ClassifiedPath.Concerns, haction] at hconcerns
      have hlists : w.remoteRoot.Lists item.path := lists_of_manifestOf hconcerns
      have hkeep : item.path ∉ pathsFor .deleteRemote (a.planOf w) := fun hin =>
        absurd (pathsFor_unique hboth hrel hin) (by decide)
      obtain ⟨node, hnode⟩ := Root.get_of_lists hlists
      have hsame : w₁.remoteRoot.listed item.path = w.remoteRoot.listed item.path := by
        rw [hswept.remotes item.path, if_neg hkeep]
      have hget : w₁.remoteRoot.get item.path = w.remoteRoot.get item.path := by
        rw [hnode]
        refine Root.get_of_listed (hsame.trans ?_)
        exact Root.listed_eq_some.mpr ⟨hlists, hnode⟩
      rw [← hread, Root.reads, Root.reads, hget]

end Applying

end Remrun.Reconcile
