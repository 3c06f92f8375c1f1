import Remrun.Fleet.Delivery

/-!
# Deliveries stay in their roots

Each call keeps what the history and the return root under way say, whatever others add before it
and whether it fails or not. A file is installed only where the parents were found to be plain, so
it is where its path says.
-/

namespace Remrun.Fleet.Delivery

open Effect Links Results JsonText
set_option autoImplicit false
set_option linter.unusedSectionVars false

variable {N F : Type} [DecidableEq N] {c : Controller N} {tree : Tree N Bytes}

/-! ## The history -/

section History
variable {s : Local N}

theorem mem_of_rootOf {root : String} {base : Path N} : ∀ {log : List (Deed N)},
    rootOf log = some (root, base) → .resolved root base ∈ log := by
  intro log
  induction log with
  | nil =>
    intro h
    cases h
  | cons deed older ih =>
    intro h
    cases deed with
    | resolved root' base' =>
      obtain ⟨rfl, rfl⟩ := Prod.mk.inj (Option.some.inj h)
      exact List.mem_cons_self
    | theirs path node => exact List.mem_cons_of_mem _ (ih h)
    | made path => exact List.mem_cons_of_mem _ (ih h)
    | filled dir => exact List.mem_cons_of_mem _ (ih h)
    | installed path content => exact List.mem_cons_of_mem _ (ih h)

theorem rootOf_cons {deed : Deed N} (h : ∀ root base, deed ≠ .resolved root base)
    (older : List (Deed N)) : rootOf (deed :: older) = rootOf older := by
  cases deed with
  | resolved root base => exact absurd rfl (h root base)
  | theirs path node => rfl
  | made path => rfl
  | filled dir => rfl
  | installed path content => rfl

/-- A deed that puts nothing where something stands. -/
def Fresh (s : Local N) (deed : Deed N) : Prop :=
  ∀ path node, deed.node = some (path, node) → s.tree path = none

theorem record_tree {deed : Deed N} (hfresh : Fresh s deed) (path : Path N)
    (node : Links.Node N Bytes) : (s.record deed).tree path = some node ↔
      s.tree path = some node ∨ deed.node = some (path, node) := by
  unfold Local.record
  cases hnode : deed.node with
  | none => simp
  | some entry =>
    obtain ⟨place, put⟩ := entry
    dsimp only
    rw [put_eq_some (hfresh place put hnode), Option.some.injEq, Prod.mk.injEq]
    simp only [eq_comm]

theorem record_keeps {deed : Deed N} (hfresh : Fresh s deed) {path : Path N}
    {node : Links.Node N Bytes} (h : s.tree path = some node) :
    (s.record deed).tree path = some node := (record_tree hfresh path node).mpr (Or.inl h)

theorem Confined.record (h : Confined c tree s) {deed : Deed N} (hfresh : Fresh s deed)
    (hwithin : deed.Within (rootOf s.log))
    (hled : ∀ root base, deed = .resolved root base →
      walk s.tree c.links [] (c.absolute root) = some base) : Confined c tree (s.record deed) where
  history := by
    intro path node
    rw [record_tree hfresh, h.history]
    constructor
    · rintro ((hold | ⟨old, hmem, hnode⟩) | hnode)
      · exact Or.inl hold
      · exact Or.inr ⟨old, List.mem_cons_of_mem _ hmem, hnode⟩
      · exact Or.inr ⟨deed, List.mem_cons_self, hnode⟩
    · rintro (hold | ⟨old, hmem, hnode⟩)
      · exact Or.inl (Or.inl hold)
      · rcases List.mem_cons.mp hmem with rfl | hmem
        · exact Or.inr hnode
        · exact Or.inl (Or.inr ⟨old, hmem, hnode⟩)
  within := ⟨hwithin, h.within⟩
  led := by
    intro root base hmem
    rcases List.mem_cons.mp hmem with heq | hmem
    · exact ⟨s.tree, fun path node => record_keeps hfresh, hled root base heq.symm⟩
    · obtain ⟨t, hkept, hwalk⟩ := h.led root base hmem
      exact ⟨t, fun path node ht => record_keeps hfresh (hkept path node ht), hwalk⟩
  left := h.left

end History

/-! ## A return under way -/

/-- The log has grown since `past`, and `tmp` holds of the temporary file. -/
structure Underway (c : Controller N) (tree : Tree N Bytes) (past : List (Deed N))
    (tmp : Option (Temp N) → Prop) (s : Local N) : Prop where
  confined : Confined c tree s
  past : past ⊆ s.log
  tmp : tmp s.tmp

/-- The return root is resolved, and the way to `dir` is free of links. -/
structure Toward (c : Controller N) (tree : Tree N Bytes) (past : List (Deed N))
    (tmp : Option (Temp N) → Prop) (root : String) (base dir : Path N) (s : Local N) : Prop
    extends Underway c tree past tmp s where
  root : rootOf s.log = some (root, base)
  plain : Plain s.tree dir

/-- Others keep it when they add what is no link, and so does time. -/
structure Steady (I : Local N → Prop) : Prop where
  now : ∀ s n, I s → I { s with now := n }
  add : ∀ s entry, entry.2.isLink = false → I s → I (s.add entry)

def Idle (tmp : Option (Temp N)) : Prop := tmp = none

def Any (_ : Option (Temp N)) : Prop := True

section Steady
variable {past : List (Deed N)} {tmp : Option (Temp N) → Prop} {root : String} {base dir : Path N}

theorem Underway.record {s : Local N} (h : Underway c tree past tmp s) {deed : Deed N}
    (hfresh : Fresh s deed) (hwithin : deed.Within (rootOf s.log))
    (hled : ∀ root base, deed = .resolved root base →
      walk s.tree c.links [] (c.absolute root) = some base) :
    Underway c tree past tmp (s.record deed) where
  confined := h.confined.record hfresh hwithin hled
  past := fun _ hmem => List.mem_cons_of_mem _ (h.past hmem)
  tmp := h.tmp

theorem Underway.add {s : Local N} (h : Underway c tree past tmp s)
    (entry : Path N × Links.Node N Bytes) : Underway c tree past tmp (s.add entry) := by
  unfold Local.add
  split
  · exact h
  · rename_i hfree
    refine h.record ?_ trivial fun _ _ heq => by cases heq
    intro path node hnode
    obtain ⟨rfl, -⟩ := Prod.mk.inj (Option.some.inj hnode)
    exact Option.not_isSome_iff_eq_none.mp hfree

theorem Underway.weaken {s : Local N} (h : Underway c tree past tmp s) :
    Underway c tree past Any s := ⟨h.confined, h.past, trivial⟩

theorem steady_underway : Steady (Underway c tree past tmp) where
  now := fun _ _ h => ⟨⟨h.confined.history, h.confined.within, h.confined.led, h.confined.left⟩,
    h.past, h.tmp⟩
  add := fun _ entry _ h => h.add entry

/-- A deed other than resolving a root leaves the root under way. -/
theorem Toward.record {s : Local N} (h : Toward c tree past tmp root base dir s) {deed : Deed N}
    (hother : ∀ root base, deed ≠ .resolved root base) (hfresh : Fresh s deed)
    (hwithin : deed.Within (some (root, base)))
    (hlink : ∀ path node, deed.node = some (path, node) → node.isLink = false) :
    Toward c tree past tmp root base dir (s.record deed) where
  toUnderway := h.toUnderway.record hfresh (by rw [h.root]; exact hwithin) fun root' base' heq =>
    absurd heq (hother root' base')
  root := (rootOf_cons hother s.log).trans h.root
  plain := by
    unfold Local.record
    cases hnode : deed.node with
    | none => exact h.plain
    | some entry => exact h.plain.put (hlink entry.1 entry.2 hnode)

theorem steady_toward : Steady (Toward c tree past tmp root base dir) where
  now := fun s n h => ⟨steady_underway.now s n h.toUnderway, h.root, h.plain⟩
  add := by
    intro s entry hlink h
    unfold Local.add
    split
    · exact h
    · rename_i hfree
      refine h.record (fun _ _ heq => by cases heq) ?_ trivial ?_
      · intro path node hnode
        obtain ⟨rfl, -⟩ := Prod.mk.inj (Option.some.inj hnode)
        exact Option.not_isSome_iff_eq_none.mp hfree
      · intro path node hnode
        obtain ⟨-, rfl⟩ := Prod.mk.inj (Option.some.inj hnode)
        exact hlink

end Steady

/-! ## Calls -/

section Calls
variable {I : Local N → Prop} {E : Fault → Local N → Prop}

theorem triple_tick (hnow : ∀ s n, I s → I { s with now := n }) :
    Triple I (tick c) (fun m s => (∃ i, m = c.moment i) ∧ I s) E := by
  intro s hs
  exact ⟨⟨s.now, rfl⟩, hnow s (s.now + 1) hs⟩

theorem foldl_add (h : Steady I) {entries : List (Path N × Links.Node N Bytes)}
    (hlink : ∀ entry ∈ entries, entry.2.isLink = false) {s : Local N} (hs : I s) :
    I (entries.foldl Local.add s) := by
  induction entries generalizing s with
  | nil => exact hs
  | cons entry rest ih =>
    exact ih (fun other hmem => hlink other (List.mem_cons_of_mem _ hmem))
      (h.add s entry (hlink entry List.mem_cons_self) hs)

theorem triple_meanwhile (h : Steady I) :
    Triple I (meanwhile c) (fun m s => (∃ i, m = c.moment i) ∧ I s) E := by
  refine triple_bind (triple_tick h.now) fun m => triple_of_pure fun hm => ?_
  refine triple_bind (triple_modify (Q := fun _ => I) fun s hs => foldl_add h ?_ hs) fun _ =>
    triple_pure fun s hs => ⟨hm, hs⟩
  intro entry hmem
  simpa using (List.mem_filter.mp hmem).2

theorem triple_raiseAny {m : Moment N} (hE : ∀ fault s, I s → E fault s) :
    Triple I (raiseAny m) (fun _ => I) E := by
  unfold raiseAny
  split
  · exact triple_throw fun s hs => hE _ s hs
  · exact triple_pure fun _ => id

theorem triple_attempt (h : Steady I) (hE : ∀ fault s, I s → E fault s) :
    Triple I (attempt c) (fun _ => I) E := by
  refine triple_bind (triple_meanwhile h) fun m => triple_of_pure fun _ => ?_
  exact triple_bind (triple_raiseAny hE) fun _ => triple_pure fun _ => id

theorem triple_pass {past : List (Deed N)} {tmp : Option (Temp N) → Prop} :
    Triple (Underway c tree past tmp) (pass c) (fun _ => Underway c tree past tmp) E := by
  refine triple_bind (triple_tick fun s n => steady_underway.now s n) fun m =>
    triple_of_pure fun _ => ?_
  refine triple_bind (triple_modify (Q := fun _ => Underway c tree past tmp) fun s hs => ?_)
    fun _ => triple_pure fun _ => id
  induction m.adds generalizing s with
  | nil => exact hs
  | cons entry rest ih => exact ih _ (hs.add entry)

theorem triple_readTemp {tmp : Option (Temp N) → Prop} (htmp : ∀ s, I s → tmp s.tmp)
    (hE : ∀ fault s, I s → E fault s) :
    Triple I readTemp (fun temp s => tmp (some temp) ∧ s.tmp = some temp ∧ I s) E := by
  refine triple_get_bind fun s hs => ?_
  split
  · rename_i temp heq
    refine triple_pure fun s' hs' => ?_
    subst hs'
    exact ⟨heq ▸ htmp _ hs, heq, hs⟩
  · refine triple_throw fun s' hs' => ?_
    subst hs'
    exact hE _ _ hs

end Calls

/-! ## Destinations -/

section Destinations
variable {past : List (Deed N)} {tmp : Option (Temp N) → Prop} {root : String} {base : Path N}
  {parts : List String}

/-- The parts are names of entries. -/
def Named (c : Controller N) (parts : List String) : Prop :=
  ∀ part ∈ parts, part ≠ "" ∧ part ≠ "." ∧ part ≠ ".." ∧ c.drive part = none

theorem join_named (h : Named c parts) {part : String} (hmem : part ∈ parts)
    (path : List (Step N)) : join c path part = path ++ [.into (c.entry part)] := by
  obtain ⟨hempty, hdot, hdots, hdrive⟩ := h part hmem
  rw [join, if_neg (by simp [hempty, hdot]), if_neg hdots, hdrive]

theorem foldl_join (h : Named c parts) (path : Path N) :
    parts.foldl (join c) (path.map .into) = (path ++ parts.map c.entry).map .into := by
  induction parts generalizing path with
  | nil => simp
  | cons part rest ih =>
    rw [List.foldl_cons, join_named h List.mem_cons_self]
    have hrest : Named c rest := fun other hmem => h other (List.mem_cons_of_mem _ hmem)
    have hpath : path.map Step.into ++ [Step.into (c.entry part)] =
        (path ++ [c.entry part]).map .into := by simp
    rw [hpath, ih hrest, List.map_cons, List.append_assoc, List.singleton_append]

theorem triple_resolveRoot : Triple (Underway c tree past tmp) (resolveRoot c root)
    (fun base => Toward c tree past tmp root base base) fun _ => Underway c tree past tmp := by
  refine triple_bind (triple_attempt steady_underway fun _ _ => id) fun _ => ?_
  refine triple_get_bind fun s hs => ?_
  split
  · refine triple_throw fun s' hs' => ?_
    subst hs'
    exact hs
  · rename_i base hwalk
    refine triple_bind (triple_modify (Q := fun _ => Toward c tree past tmp root base base) ?_)
      fun _ => triple_pure fun _ => id
    rintro s' rfl
    refine ⟨hs.record (fun _ _ heq => by cases heq) trivial ?_, rfl, plain_of_walk plain_nil hwalk⟩
    intro root' base' heq
    obtain ⟨rfl, rfl⟩ := Deed.resolved.inj heq
    exact hwalk

theorem Toward.underway {dir : Path N} {s : Local N}
    (h : Toward c tree past tmp root base dir s) : Underway c tree past tmp s := h.toUnderway

theorem Toward.mono {dir dir' : Path N} {s : Local N} (h : Toward c tree past tmp root base dir s)
    (hdir : dir' <+: dir) : Toward c tree past tmp root base dir' s :=
  ⟨h.toUnderway, h.root, h.plain.mono hdir⟩

/-- A parent that passes the checks is no link. -/
theorem triple_checkParent {dir : Path N} {name : N} :
    Triple (Toward c tree past tmp root base dir) (checkParent c base ((dir ++ [name]).map .into))
      (fun _ => Toward c tree past tmp root base (dir ++ [name]))
      fun _ => Underway c tree past tmp := by
  refine triple_bind (triple_attempt steady_toward fun _ _ h => h.underway) fun m => ?_
  refine triple_get_bind fun s hs => ?_
  have hfail : ∀ fault, Triple (· = s) (throw fault : M N Unit)
      (fun _ => Toward c tree past tmp root base (dir ++ [name]))
      fun _ => Underway c tree past tmp := by
    intro fault
    refine triple_throw fun s' hs' => ?_
    subst hs'
    exact hs.underway
  dsimp only
  refine triple_ite (fun _ => hfail _) fun hlink => ?_
  refine triple_ite (fun _ => hfail _) fun _ => triple_ite (fun _ => hfail _) fun _ => ?_
  refine triple_pure fun s' hs' => ?_
  subst hs'
  have hno : isLink s'.tree c.links ((dir ++ [name]).map .into) = false := by
    rw [← Bool.not_eq_true]
    exact fun h => hlink (by rw [h]; rfl)
  refine ⟨hs.toUnderway, hs.root, plain_of_isLink ?_ hno⟩
  rw [List.dropLast_concat]
  exact hs.plain

/-- The destination is below the root that was resolved, and its parents are no links. -/
theorem triple_confinedReturnPath (hparts : Named c parts) :
    Triple (Underway c tree past tmp) (confinedReturnPath c root parts)
      (fun dest s => ∃ base, dest = (base ++ parts.map c.entry).map .into ∧
        Toward c tree past tmp root base (base ++ parts.map c.entry).dropLast s)
      fun _ => Underway c tree past tmp := by
  refine triple_bind triple_resolveRoot fun base => ?_
  -- the cursor has passed the parents that are done
  have hloop : Triple (fun s => base.map Step.into = (base ++ [].map c.entry).map .into ∧
        Toward c tree past tmp root base (base ++ [].map c.entry) s)
      (parts.dropLast.foldlM (fun cursor component => do
        checkParent c base (join c cursor component)
        return join c cursor component) (base.map .into))
      (fun cursor s => cursor = (base ++ parts.dropLast.map c.entry).map .into ∧
        Toward c tree past tmp root base (base ++ parts.dropLast.map c.entry) s)
      fun _ => Underway c tree past tmp := by
    refine triple_foldlM (fun done cursor s => cursor = (base ++ done.map c.entry).map Step.into ∧
      Toward c tree past tmp root base (base ++ done.map c.entry) s) ?_
    intro done part rest cursor hsplit
    refine triple_of_pure fun hcursor => ?_
    have hmem : part ∈ parts := by
      refine List.dropLast_subset parts ?_
      rw [hsplit]
      exact List.mem_append_right _ List.mem_cons_self
    have hnext : base ++ (done ++ [part]).map c.entry =
        base ++ done.map c.entry ++ [c.entry part] := by simp
    have hjoin : join c cursor part =
        (base ++ done.map c.entry ++ [c.entry part]).map Step.into := by
      rw [hcursor, join_named hparts hmem]
      simp
    rw [hnext, hjoin]
    exact triple_bind triple_checkParent fun _ => triple_pure fun s hs => ⟨rfl, hs⟩
  refine triple_bind (hloop.pre fun s hs => ?_) fun cursor => triple_pure fun s hs => ?_
  · rw [List.map_nil, List.append_nil]
    exact ⟨rfl, hs⟩
  · refine ⟨base, foldl_join hparts base, hs.2.mono ?_⟩
    rw [List.map_dropLast]
    rcases List.eq_nil_or_concat (parts.map c.entry) with hnil | ⟨dirs, name, hconcat⟩
    · rw [hnil, List.append_nil, List.dropLast_nil, List.append_nil]
      exact List.dropLast_prefix base
    · rw [hconcat, List.concat_eq_append, ← List.append_assoc, List.dropLast_concat,
        List.dropLast_concat]

end Destinations

/-! ## Fetching -/

section Fetching
variable {past : List (Deed N)} {tmp : Option (Temp N) → Prop} {root rel digest : String}
  {base place : Path N}

/-- The destination is a file with the digest. -/
def At (c : Controller N) (place : Path N) (digest : String) (s : Local N) : Prop :=
  ∃ content, s.tree place = some (.file content) ∧ c.sha256 content = digest

/-- On the way to a place in a directory of the root. -/
def Approach (c : Controller N) (tree : Tree N Bytes) (past : List (Deed N))
    (tmp : Option (Temp N) → Prop) (root : String) (base place : Path N) (s : Local N) : Prop :=
  Toward c tree past tmp root base place.dropLast s ∧ base <+: place.dropLast

theorem add_keeps {s : Local N} {entry : Path N × Links.Node N Bytes} {path : Path N}
    {node : Links.Node N Bytes} (h : s.tree path = some node) :
    (s.add entry).tree path = some node := by
  unfold Local.add
  split
  · exact h
  · rename_i hfree
    refine record_keeps ?_ h
    intro path node hnode
    obtain ⟨rfl, -⟩ := Prod.mk.inj (Option.some.inj hnode)
    exact Option.not_isSome_iff_eq_none.mp hfree

theorem Steady.and {I J : Local N → Prop} (hI : Steady I) (hJ : Steady J) :
    Steady fun s => I s ∧ J s where
  now := fun s n h => ⟨hI.now s n h.1, hJ.now s n h.2⟩
  add := fun s entry hlink h => ⟨hI.add s entry hlink h.1, hJ.add s entry hlink h.2⟩

theorem steady_at : Steady (At c place digest) where
  now := fun _ _ h => h
  add := by
    rintro s entry - ⟨content, hfile, hdigest⟩
    exact ⟨content, add_keeps hfile, hdigest⟩

theorem steady_pure {p : Prop} : Steady fun _ : Local N => p where
  now := fun _ _ h => h
  add := fun _ _ _ h => h

theorem steady_approach : Steady (Approach c tree past tmp root base place) :=
  steady_toward.and steady_pure

theorem Approach.underway {s : Local N} (h : Approach c tree past tmp root base place s) :
    Underway c tree past tmp s := h.1.toUnderway

theorem Approach.spot {s : Local N} (h : Approach c tree past tmp root base place s) :
    spot s.tree c.links (place.map .into) = some place := spot_plain h.1.plain

/-- What the checks of the destination see is the file there. -/
theorem at_of_holds {s : Local N} (h : Approach c tree past tmp root base place s)
    (hholds : holds c s.tree (place.map .into) digest = true) : At c place digest s := by
  unfold holds at hholds
  split at hholds
  · rename_i content hstat
    simp only [Bool.and_eq_true, Bool.not_eq_true', decide_eq_true_eq] at hholds
    rw [stat_plain (plain_of_isLink h.1.plain hholds.1)] at hstat
    exact ⟨content, hstat, hholds.2⟩
  · cases hholds

theorem stat_of_at {s : Local N} (h : Approach c tree past tmp root base place s)
    (hat : At c place digest s) : ∃ content, stat s.tree c.links (place.map .into) =
      some (.file content) ∧ s.tree place = some (.file content) ∧ c.sha256 content = digest := by
  obtain ⟨content, hfile, hdigest⟩ := hat
  have hlink : isLink s.tree c.links (place.map .into) = false := by
    rw [isLink, lstat_plain h.1.plain, hfile]
    rfl
  exact ⟨content, (stat_plain (plain_of_isLink h.1.plain hlink)).trans hfile, hfile, hdigest⟩

theorem triple_measured {names : List N} {route : Route}
    (hnames : names = (rel.splitOn "/").map c.entry) :
    Triple (fun s => Approach c tree past tmp root base (base ++ names) s ∧
        At c (base ++ names) digest s)
      (measured c rel ((base ++ names).map .into) route digest)
      (fun receipt s => Underway c tree past tmp s ∧ Held c s root receipt ∧ receipt.path = rel)
      fun _ => Underway c tree past tmp := by
  refine triple_bind (triple_attempt (steady_approach.and steady_at)
    fun _ _ h => h.1.underway) fun _ => ?_
  refine triple_get_bind fun s hs => ?_
  obtain ⟨content, hstat, hfile, hdigest⟩ := stat_of_at hs.1 hs.2
  rw [hstat]
  refine triple_pure fun s' hs' => ?_
  subst hs'
  refine ⟨hs.1.underway, ⟨base, content, mem_of_rootOf hs.1.1.root, ?_, ?_, rfl⟩, rfl⟩
  · rw [← hnames]
    exact hfile
  · rw [hdigest]

theorem triple_reused {names : List N} {error : String}
    (hnames : names = (rel.splitOn "/").map c.entry) :
    Triple (Approach c tree past tmp root base (base ++ names))
      (reused c rel ((base ++ names).map .into) digest error)
      (fun receipt s => Underway c tree past tmp s ∧ Held c s root receipt ∧ receipt.path = rel)
      fun _ => Underway c tree past tmp := by
  refine triple_bind (triple_attempt steady_approach fun _ _ h => h.underway) fun _ => ?_
  refine triple_get_bind fun s hs => triple_ite (fun hholds => ?_) fun _ => ?_
  · refine (triple_measured hnames).pre fun s' hs' => ?_
    subst hs'
    exact ⟨hs, at_of_holds hs hholds⟩
  · refine triple_throw fun s' hs' => ?_
    subst hs'
    exact hs.underway

/-- A directory is made in the root or on the way to it. -/
theorem triple_makeDirectory {path dir : Path N} (hpath : path <+: dir) (hdir : base <+: dir) :
    Triple (Toward c tree past tmp root base dir) (makeDirectory c (path.map .into))
      (fun _ => Toward c tree past tmp root base dir) fun _ => Underway c tree past tmp := by
  refine triple_bind (triple_attempt steady_toward fun _ _ h => h.underway) fun _ => ?_
  refine triple_get_bind fun s hs => ?_
  dsimp only
  rw [spot_plain (hs.plain.mono ((List.dropLast_prefix path).trans hpath))]
  dsimp only
  refine triple_ite (fun _ => triple_ite (fun _ => ?_) fun _ => ?_) fun hfree => ?_
  · refine triple_pure fun s' hs' => ?_
    subst hs'
    exact hs
  · refine triple_throw fun s' hs' => ?_
    subst hs'
    exact hs.underway
  · refine triple_modify fun s' hs' => ?_
    subst hs'
    refine hs.record (fun _ _ heq => by cases heq) ?_ ⟨_, rfl, ?_⟩ ?_
    · intro place node hnode
      obtain ⟨rfl, -⟩ := Prod.mk.inj (Option.some.inj hnode)
      exact Option.not_isSome_iff_eq_none.mp hfree
    · exact List.prefix_or_prefix_of_prefix hdir hpath
    · intro place node hnode
      obtain ⟨-, rfl⟩ := Prod.mk.inj (Option.some.inj hnode)
      rfl

theorem triple_makeDirectories {dir : Path N} (hdir : base <+: dir) :
    Triple (Toward c tree past tmp root base dir) (makeDirectories c (dir.map .into))
      (fun _ => Toward c tree past tmp root base dir) fun _ => Underway c tree past tmp := by
  refine triple_forM fun path hmem => ?_
  have hprefix : path <+: dir.map Step.into := List.mem_inits _ _ |>.mp (List.mem_of_mem_tail hmem)
  obtain ⟨path', hpath', rfl⟩ := List.prefix_map_iff.mp hprefix
  exact triple_makeDirectory hpath' hdir

/-- The temporary file has the digest that the target gave. -/
def Verified (c : Controller N) (digest : String) (tmp : Option (Temp N)) : Prop :=
  ∃ temp, tmp = some temp ∧ c.sha256 temp.content = digest

theorem Approach.setTemp {tmp' : Option (Temp N) → Prop} {s : Local N}
    (h : Approach c tree past tmp root base place s) {temp : Option (Temp N)} (htemp : tmp' temp) :
    Approach c tree past tmp' root base place { s with tmp := temp } :=
  ⟨⟨⟨⟨h.1.confined.history, h.1.confined.within, h.1.confined.led, h.1.confined.left⟩, h.1.past,
    htemp⟩, h.1.root, h.1.plain⟩, h.2⟩

theorem Approach.weaken {s : Local N} (h : Approach c tree past tmp root base place s) :
    Approach c tree past Any root base place s :=
  ⟨⟨h.1.toUnderway.weaken, h.1.root, h.1.plain⟩, h.2⟩

/-- The file is put where nothing stands. -/
theorem triple_installOutputNoReplace :
    Triple (Approach c tree past (Verified c digest) root base place)
      (installOutputNoReplace c (place.map .into))
      (fun _ s => Approach c tree past Any root base place s ∧ At c place digest s)
      fun _ => Approach c tree past Any root base place := by
  refine triple_bind (triple_attempt steady_approach fun _ _ h => h.weaken) fun _ => ?_
  refine triple_bind (triple_readTemp (fun _ h => h.1.tmp) fun _ _ h => h.weaken) fun temp => ?_
  refine triple_of_pure fun hverified => ?_
  obtain ⟨_, heq, hdigest⟩ := hverified
  obtain rfl := Option.some.inj heq
  refine triple_get_bind fun s hs => ?_
  obtain ⟨-, hs⟩ := hs
  dsimp only
  rw [hs.spot]
  refine triple_ite (fun _ => ?_) fun hfree => ?_
  · refine triple_throw fun s' hs' => ?_
    subst hs'
    exact hs.weaken
  have habsent : s.tree place = none := Option.not_isSome_iff_eq_none.mp hfree
  have hafter : Steady fun s => Approach c tree past Any root base place s ∧ At c place digest s :=
    steady_approach.and steady_at
  refine triple_bind (R := fun _ s => Approach c tree past Any root base place s ∧
    At c place digest s) (triple_modify fun s' hs' => ?_) fun _ => ?_
  · subst hs'
    have hfresh : Fresh s' (.installed place temp.content) := by
      intro path node hnode
      obtain ⟨rfl, -⟩ := Prod.mk.inj (Option.some.inj hnode)
      exact habsent
    refine ⟨⟨hs.weaken.1.record (fun _ _ heq => by cases heq) hfresh ⟨_, rfl, ?_⟩ ?_, hs.2⟩,
      temp.content, (record_tree hfresh _ _).mpr (Or.inr rfl), hdigest⟩
    · exact hs.2.trans (List.dropLast_prefix _)
    · intro path node hnode
      obtain ⟨-, rfl⟩ := Prod.mk.inj (Option.some.inj hnode)
      rfl
  · have hforget : Triple (fun s => Approach c tree past Any root base place s ∧
        At c place digest s) forget (fun _ s => Approach c tree past Any root base place s ∧
        At c place digest s) fun _ => Approach c tree past Any root base place :=
      triple_modify fun s hs => ⟨hs.1.setTemp trivial, hs.2⟩
    refine triple_ite (fun _ => hforget) fun _ => ?_
    exact triple_bind (triple_attempt hafter fun _ _ h => h.1) fun _ => hforget

theorem triple_installed :
    Triple (Approach c tree past (Verified c digest) root base place)
      (installed c (place.map .into))
      (fun put s => Approach c tree past Any root base place s ∧
        (put = true → At c place digest s))
      fun _ => Underway c tree past Any := by
  have hput : Triple (Approach c tree past (Verified c digest) root base place)
      (do
        installOutputNoReplace c (place.map .into)
        return true)
      (fun put s => Approach c tree past Any root base place s ∧
        (put = true → At c place digest s)) fun _ => Approach c tree past Any root base place :=
    triple_bind triple_installOutputNoReplace fun _ => triple_pure fun s hs =>
      ⟨hs.1, fun _ => hs.2⟩
  refine triple_tryCatch hput fun fault => ?_
  cases fault with
  | fileExists why => exact triple_pure fun s hs => ⟨hs, fun h => by cases h⟩
  | osError why => exact triple_throw fun s hs => hs.underway
  | transportError why => exact triple_throw fun s hs => hs.underway
  | ownershipLost => exact triple_throw fun s hs => hs.underway
  | raised why => exact triple_throw fun s hs => hs.underway

theorem triple_fill : Triple (Approach c tree past tmp root base place) (fill c place.dropLast)
    (fun _ => Approach c tree past Any root base place)
    fun _ => Approach c tree past Any root base place := by
  refine triple_bind (triple_meanwhile steady_approach) fun m => triple_of_pure fun _ => ?_
  refine triple_bind (R := fun _ => Approach c tree past Any root base place)
    (triple_modify fun s hs => ?_) fun _ => triple_raiseAny fun _ _ => id
  cases m.content with
  | none => exact hs.weaken
  | some content =>
    have hrecord : Toward c tree past Any root base place.dropLast
        (s.record (.filled place.dropLast)) :=
      hs.weaken.1.record (fun _ _ heq => by cases heq) (fun _ _ hnode => by cases hnode)
        ⟨_, rfl, hs.2⟩ fun _ _ hnode => by cases hnode
    exact Approach.setTemp ⟨hrecord, hs.2⟩ trivial

theorem triple_fetchVerified {names : List N} (hnames : names = (rel.splitOn "/").map c.entry) :
    Triple (Approach c tree past tmp root base (base ++ names))
      (fetchVerified c rel ((base ++ names).map .into) (base ++ names).dropLast digest)
      (fun receipt s => Underway c tree past Any s ∧ Held c s root receipt ∧ receipt.path = rel)
      fun _ => Underway c tree past Any := by
  refine triple_bind (triple_fill.conseq (fun _ => id) (fun _ _ => id) fun _ _ h => h.underway)
    fun _ => ?_
  refine triple_bind (triple_attempt steady_approach fun _ _ h => h.underway) fun _ => ?_
  have hread : Triple (Approach c tree past Any root base (base ++ names)) readTemp
      (fun temp s => Any (some temp) ∧ s.tmp = some temp ∧
        Approach c tree past Any root base (base ++ names) s) fun _ => Underway c tree past Any :=
    triple_readTemp (fun _ _ => trivial) fun _ _ h => h.underway
  refine triple_bind hread fun temp => triple_of_pure fun _ => ?_
  refine triple_ite (fun _ => triple_throw fun s hs => hs.2.underway) fun hdigest => ?_
  -- the temporary file is verified from here on
  have hsync : Triple (Approach c tree past (Verified c digest) root base (base ++ names))
      (attempt c) (fun _ => Approach c tree past (Verified c digest) root base (base ++ names))
      fun _ => Underway c tree past Any :=
    triple_attempt steady_approach fun _ _ h => h.underway.weaken
  refine triple_bind (hsync.pre fun s hs => ?_) fun _ => ?_
  · exact hs.2.setTemp ⟨temp, hs.1, not_not.mp hdigest⟩
  · refine triple_bind triple_installed fun put => ?_
    cases put with
    | true =>
      refine triple_bind ((triple_attempt (steady_approach.and steady_at)
        fun _ _ h => h.1.underway).pre fun s hs => ⟨hs.1, hs.2 rfl⟩) fun _ => ?_
      exact triple_measured hnames
    | false => exact (triple_reused hnames).pre fun s hs => hs.1

theorem steady_held {receipt : Receipt} : Steady fun s => Held c s root receipt where
  now := fun _ _ h => h
  add := by
    rintro s entry - ⟨base, content, hlog, hfile, hsha, hbytes⟩
    refine ⟨base, content, ?_, add_keeps hfile, hsha, hbytes⟩
    unfold Local.add
    split
    · exact hlog
    · exact List.mem_cons_of_mem _ hlog

/-- Afterwards there is no temporary file, or it is among those that could not be removed. -/
theorem triple_removeTemp {J : Local N → Prop} {E : Fault → Local N → Prop} (hJ : Steady J)
    (hset : ∀ s temp left, J s → J { s with tmp := temp, left := left }) :
    Triple (fun s => Underway c tree past tmp s ∧ J s) (removeTemp c)
      (fun _ s => Underway c tree past Idle s ∧ J s) E := by
  refine triple_bind (triple_meanwhile (steady_underway.and hJ)) fun m => ?_
  refine triple_of_pure fun hm => ?_
  obtain ⟨i, rfl⟩ := hm
  refine triple_modify fun s hs => ?_
  obtain ⟨⟨⟨hhistory, hwithin, hled, hleft⟩, hpast, -⟩, hj⟩ := hs
  split
  · exact ⟨⟨⟨hhistory, hwithin, hled, hleft⟩, hpast, rfl⟩, hset s none s.left hj⟩
  · rename_i hstays
    refine ⟨⟨⟨hhistory, hwithin, hled, fun hall => absurd (hall i) hstays⟩, hpast, rfl⟩, ?_⟩
    exact hset s none _ hj

/-- What holds when the body of a `try` has ended. -/
def Ended {α : Type} (Q : α → Local N → Prop) (E : Fault → Local N → Prop) :
    Except Fault α → Local N → Prop
  | .ok a => Q a
  | .error fault => E fault

theorem triple_withFinally {α : Type} {body : M N α} {final : M N Unit} {P : Local N → Prop}
    {Q Q' : α → Local N → Prop} {E E' : Fault → Local N → Prop} (hbody : Triple P body Q' E')
    (hok : ∀ a, Triple (Q' a) final (fun _ => Q a) E)
    (herror : ∀ fault, Triple (E' fault) final (fun _ => E fault) E) :
    Triple P (withFinally body final) Q E := by
  have htry : Triple P (tryCatch (Except.ok <$> body) fun fault => return .error fault)
      (Ended Q' E') E :=
    triple_tryCatch (triple_map hbody) fun fault => triple_pure fun _ => id
  refine triple_bind htry fun result => ?_
  cases result with
  | ok a => exact triple_bind (hok a) fun _ => triple_pure fun _ => id
  | error fault => exact triple_bind (herror fault) fun _ => triple_throw fun _ => id

/-- The receipt of a fetch is about the file at the destination. -/
theorem triple_fetchOutputLocal {names : List N} (hnames : names = (rel.splitOn "/").map c.entry) :
    Triple (Approach c tree past Idle root base (base ++ names))
      (fetchOutputLocal c rel ((base ++ names).map .into) digest)
      (fun receipt s => Underway c tree past Idle s ∧ Held c s root receipt ∧ receipt.path = rel)
      fun _ => Underway c tree past Idle := by
  refine triple_bind (triple_attempt steady_approach fun _ _ h => h.underway) fun _ => ?_
  refine triple_get_bind fun s hs => triple_ite (fun _ => ?_) fun _ => ?_
  · exact (triple_reused hnames).pre fun s' hs' => hs' ▸ hs
  · have hmake : Triple (Approach c tree past Idle root base (base ++ names))
        (makeDirectories c ((base ++ names).dropLast.map .into))
        (fun _ => Approach c tree past Idle root base (base ++ names))
        fun _ => Underway c tree past Idle :=
      triple_of_pure_right fun hbase => (triple_makeDirectories hbase).conseq (fun _ => id)
        (fun _ _ h => ⟨h, hbase⟩) fun _ _ => id
    rw [List.map_dropLast] at hmake
    refine triple_bind (hmake.pre fun s' hs' => hs' ▸ hs) fun _ => ?_
    refine triple_get_bind fun s' hs' => ?_
    rw [← List.map_dropLast, walk_plain hs'.1.plain]
    refine triple_withFinally ((triple_fetchVerified hnames).pre fun s'' hs'' => hs'' ▸ hs') ?_ ?_
    · intro receipt
      exact triple_removeTemp (steady_held.and steady_pure) fun _ _ _ h => h
    · intro fault
      have hremove : Triple (fun s => Underway c tree past Any s ∧ True) (removeTemp c)
          (fun _ s => Underway c tree past Idle s ∧ True) fun _ => Underway c tree past Idle :=
        triple_removeTemp steady_pure fun _ _ _ h => h
      exact hremove.conseq (fun s h => ⟨h, trivial⟩) (fun _ _ h => h.1) fun _ _ => id

end Fetching

/-! ## Rows -/

section Rows
variable {past : List (Deed N)} {root : String} {returnRoot : String → Option String}

theorem splitOnAux_ne_nil (s sep : String) (b i j : String.Pos.Raw) (r : List String) :
    String.splitOnAux s sep b i j r ≠ [] := by
  fun_induction String.splitOnAux s sep b i j r <;> simp_all

theorem splitOn_ne_nil (s sep : String) : s.splitOn sep ≠ [] := by
  unfold String.splitOn
  split
  · exact List.cons_ne_nil _ _
  · exact splitOnAux_ne_nil _ _ _ _ _ _

theorem triple_returnPath {rel : String} (hrel : Named c (rel.splitOn "/")) :
    Triple (Underway c tree past Idle) (returnPath c root rel)
      (fun receipt s => Underway c tree past Idle s ∧ Held c s root receipt ∧ receipt.path = rel)
      fun _ => Underway c tree past Idle := by
  refine triple_bind triple_pass fun m => triple_ite (fun _ => triple_throw fun _ => id) fun _ => ?_
  refine triple_bind (R := fun _ => Underway c tree past Idle) (triple_modify fun s hs => ?_)
    fun _ => ?_
  · exact ⟨⟨hs.confined.history, hs.confined.within, hs.confined.led, hs.confined.left⟩, hs.past,
      hs.tmp⟩
  refine triple_bind (triple_confinedReturnPath hrel) fun dest => ?_
  refine triple_at fun s hs => ?_
  obtain ⟨base, rfl, htoward⟩ := hs
  have hbase : base <+: (base ++ (rel.splitOn "/").map c.entry).dropLast := by
    rw [List.dropLast_append_of_ne_nil (by simpa using splitOn_ne_nil rel "/")]
    exact List.prefix_append _ _
  have hstart : Triple (Approach c tree past Idle root base (base ++ (rel.splitOn "/").map c.entry))
      (attempt c) (fun _ => Approach c tree past Idle root base
        (base ++ (rel.splitOn "/").map c.entry)) fun _ => Underway c tree past Idle :=
    triple_attempt steady_approach fun _ _ h => h.underway
  refine triple_bind (hstart.pre fun s' hs' => hs' ▸ ⟨htoward, hbase⟩) fun m => ?_
  exact triple_fetchOutputLocal rfl

/-- The log grows, so what a receipt says stays so. -/
theorem Held.later {receipt : Receipt} {s s' : Local N} (h : Held c s root receipt)
    (hs : Confined c tree s) (hs' : Confined c tree s') (hlog : s.log ⊆ s'.log) :
    Held c s' root receipt := by
  obtain ⟨base, content, hmem, hfile, hsha, hbytes⟩ := h
  refine ⟨base, content, hlog hmem, ?_, hsha, hbytes⟩
  rw [hs'.history]
  rcases (hs.history _ _).mp hfile with hold | ⟨deed, hdeed, hnode⟩
  · exact Or.inl hold
  · exact Or.inr ⟨deed, hlog hdeed, hnode⟩

theorem Underway.since {tmp : Option (Temp N) → Prop} {s s' : Local N}
    (h : Underway c tree past tmp s) (h' : Underway c tree s.log tmp s') :
    Underway c tree past tmp s' := ⟨h'.confined, List.Subset.trans h.past h'.past, h'.tmp⟩

theorem Underway.restart {tmp : Option (Temp N) → Prop} {s : Local N}
    (h : Underway c tree past tmp s) : Underway c tree s.log tmp s :=
  ⟨h.confined, List.Subset.refl _, h.tmp⟩

theorem triple_caught {α : Type} (fault : Fault) :
    Triple (Underway c tree past Idle) (caught fault : M N (Except String α))
      (fun result s => (∃ why, result = .error why) ∧ Underway c tree past Idle s)
      fun _ => Underway c tree past Idle := by
  cases fault with
  | osError why => exact triple_pure fun s hs => ⟨⟨why, rfl⟩, hs⟩
  | fileExists why => exact triple_pure fun s hs => ⟨⟨why, rfl⟩, hs⟩
  | transportError why => exact triple_pure fun s hs => ⟨⟨why, rfl⟩, hs⟩
  | ownershipLost => exact triple_throw fun _ => id
  | raised why => exact triple_throw fun _ => id

/-- What is known of the result of one return. -/
def Tried (c : Controller N) (root rel : String) (s : Local N) : Except String Receipt → Prop
  | .ok receipt => Held c s root receipt ∧ receipt.path = rel
  | .error _ => True

theorem triple_tried {rel : String} (hrel : Named c (rel.splitOn "/")) :
    Triple (Underway c tree past Idle) (tryCatch (Except.ok <$> returnPath c root rel) caught)
      (fun result s => Underway c tree past Idle s ∧ Tried c root rel s result)
      fun _ => Underway c tree past Idle := by
  refine triple_tryCatch (triple_map (triple_returnPath hrel)) fun fault => ?_
  refine (triple_caught fault).post ?_
  rintro result s ⟨⟨why, rfl⟩, hs⟩
  exact ⟨hs, trivial⟩

/-- Every receipt holds, and if nothing failed there is one for each path. -/
theorem triple_returnPaths {rels : List String}
    (hrels : ∀ rel ∈ rels, Named c (rel.splitOn "/")) :
    Triple (Underway c tree past Idle) (returnPaths c root rels)
      (fun out s => Underway c tree past Idle s ∧ (∀ receipt ∈ out.1, Held c s root receipt) ∧
        (out.2 = none → out.1.map Receipt.path = rels))
      fun _ => Underway c tree past Idle := by
  induction rels generalizing past with
  | nil => exact triple_pure fun s hs => ⟨hs, List.forall_mem_nil _, fun _ => rfl⟩
  | cons rel rest ih =>
    refine triple_bind (triple_tried (hrels rel List.mem_cons_self)) fun result => ?_
    cases result with
    | error why =>
      exact triple_pure fun s hs => ⟨hs.1, List.forall_mem_nil _, fun h => by cases h⟩
    | ok receipt =>
      refine triple_at fun s hs => ?_
      obtain ⟨hs, hheld, hpath⟩ := hs
      have hrest : Triple (Underway c tree s.log Idle) (returnPaths c root rest)
          (fun out s' => Underway c tree s.log Idle s' ∧
            (∀ receipt ∈ out.1, Held c s' root receipt) ∧
            (out.2 = none → out.1.map Receipt.path = rest))
          fun _ => Underway c tree s.log Idle :=
        ih fun other hmem => hrels other (List.mem_cons_of_mem _ hmem)
      refine triple_bind (hrest.conseq (fun s' hs' => hs' ▸ hs.restart) (fun _ _ => id)
        fun _ s' h => hs.since h) fun out => triple_pure fun s' h => ?_
      obtain ⟨hs', hall, hpaths⟩ := h
      refine ⟨hs.since hs', List.forall_mem_cons.mpr ⟨?_, hall⟩, fun hnone => ?_⟩
      · exact hheld.later hs.confined hs'.confined hs'.past
      · rw [List.map_cons, hpath, hpaths hnone]

theorem Settled.later {s s' : Local N} {row row' : Row F} (h : Settled c returnRoot s row row')
    (hs : Confined c tree s) (hs' : Confined c tree s') (hlog : s.log ⊆ s'.log) :
    Settled c returnRoot s' row row' := by
  unfold Settled at h ⊢
  split
  · rename_i hnone
    simpa [hnone] using h
  · rename_i root hroot
    simp only [hroot] at h
    split at h
    · rename_i hpublication
      rw [if_pos hpublication]
      exact h
    · rename_i hpublication
      rw [if_neg hpublication]
      refine h.imp ?_ id
      rintro ⟨receipts, hrow, hpaths, hall⟩
      exact ⟨receipts, hrow, hpaths, fun receipt hmem => (hall receipt hmem).later hs hs' hlog⟩

theorem Accepted.named {item : Item F} (h : Accepted c item) {rel : String}
    (hmem : rel ∈ item.paths) : Named c (rel.splitOn "/") := by
  obtain ⟨⟨field, hsafe⟩, hdrive⟩ := h rel hmem
  intro part hpart
  rw [safePath] at hsafe
  split at hsafe
  · cases hsafe
  · rename_i hgood
    simp only [not_or, Bool.not_eq_true, List.any_eq_false, Bool.or_eq_true,
      decide_eq_true_eq] at hgood
    obtain ⟨⟨hempty, hdot⟩, hdots⟩ := hgood.2.2.2 part hpart
    exact ⟨hempty, hdot, hdots, hdrive part hpart⟩

theorem triple_returnRow {row : Row F} (hrow : Accepted c row.item) :
    Triple (Underway c tree past Idle) (returnRow c returnRoot row)
      (fun row' s => Underway c tree past Idle s ∧ Settled c returnRoot s row row')
      fun _ => Underway c tree past Idle := by
  unfold returnRow Settled
  split
  · exact triple_pure fun s hs => ⟨hs, rfl⟩
  · rename_i root _
    refine triple_ite (fun hnone => triple_pure fun s hs => ?_) fun hsome => ?_
    · rw [if_pos hnone]
      exact ⟨hs, rfl⟩
    · refine triple_bind (triple_returnPaths fun rel hmem => hrow.named hmem) fun out => ?_
      cases hfailure : out.2 with
      | some why =>
        refine triple_pure fun s hs => ⟨hs.1, ?_⟩
        rw [if_neg hsome]
        exact Or.inr ⟨⟨_, why, rfl⟩, rfl, rfl⟩
      | none =>
        refine triple_pure fun s hs => ⟨hs.1, ?_⟩
        rw [if_neg hsome]
        exact Or.inl ⟨out.1, rfl, hs.2.2 rfl, hs.2.1⟩

/-- The rows that are done are settled. -/
def SoFar (c : Controller N) (tree : Tree N Bytes) (past : List (Deed N))
    (returnRoot : String → Option String) (rows rows' : List (Row F)) (s : Local N) : Prop :=
  Underway c tree past Idle s ∧ List.Forall₂ (Settled c returnRoot s) rows rows'

theorem triple_returnOutputs {rows : List (Row F)} (hrows : ∀ row ∈ rows, Accepted c row.item) :
    Triple (Underway c tree past Idle) (returnOutputs c returnRoot rows)
      (fun out => SoFar c tree past returnRoot rows out.1) fun _ => Underway c tree past Idle := by
  have hloop : Triple (SoFar c tree past returnRoot ([] : List (Row F)) [])
      (rows.mapM (returnRow c returnRoot)) (SoFar c tree past returnRoot rows)
      fun _ => Underway c tree past Idle := by
    refine triple_mapM (SoFar c tree past returnRoot) fun done row rest outs hsplit => ?_
    have hmem : row ∈ rows := hsplit ▸ List.mem_append_right _ List.mem_cons_self
    refine triple_at fun s hs => ?_
    have hrow : Triple (Underway c tree s.log Idle) (returnRow c returnRoot row)
        (fun row' s' => Underway c tree s.log Idle s' ∧ Settled c returnRoot s' row row')
        fun _ => Underway c tree s.log Idle := triple_returnRow (hrows row hmem)
    refine hrow.conseq (fun s' hs' => hs' ▸ hs.1.restart) (fun row' s' h => ?_)
      fun _ s' h => hs.1.since h
    have hearlier : List.Forall₂ (Settled c returnRoot s') done outs :=
      hs.2.imp fun _ _ hsettled => hsettled.later hs.1.confined h.1.confined h.1.past
    exact ⟨hs.1.since h.1, List.rel_append hearlier (.cons h.2 .nil)⟩
  refine triple_bind (hloop.pre fun s hs => ⟨hs, .nil⟩) fun outs => ?_
  refine triple_get_bind fun s hs => triple_pure fun s' hs' => ?_
  subst hs'
  exact hs

theorem underway_start : Underway c tree [] Idle (Local.start tree) where
  confined := by
    refine ⟨fun path node => ?_, trivial, fun _ _ hmem => ?_, fun _ => rfl⟩
    · constructor
      · exact Or.inl
      · rintro (h | ⟨deed, hmem, -⟩)
        · exact h
        · cases hmem
    · cases hmem
  past := List.Subset.refl _
  tmp := rfl

/-- Whether the rows are returned or the call ends in an exception, the return keeps to its roots. -/
theorem confined_deliveries {rows : List (Row F)} (hrows : ∀ row ∈ rows, Accepted c row.item)
    (returnRoot : String → Option String) (tree : Tree N Bytes) :
    Triple (· = Local.start tree) (returnOutputs c returnRoot rows)
      (fun out s => Confined c tree s ∧ s.tmp = none ∧
        List.Forall₂ (Settled c returnRoot s) rows out.1)
      fun _ s => Confined c tree s ∧ s.tmp = none := by
  have hrun : Triple (Underway c tree [] Idle) (returnOutputs c returnRoot rows)
      (fun out => SoFar c tree [] returnRoot rows out.1) fun _ => Underway c tree [] Idle :=
    triple_returnOutputs hrows
  refine hrun.conseq (fun s hs => ?_) (fun out s h => ?_) fun _ s h => ?_
  · subst hs
    exact underway_start
  · exact ⟨h.1.confined, h.1.tmp, h.2⟩
  · exact ⟨h.confined, h.tmp⟩

end Rows

/-! ## A root that is not there yet -/

section Example

/-- An output without bytes is returned. -/
def emptyOutput : Controller String where
  windows := false
  entry := id
  drive := fun _ => none
  absolute := fun _ => [.into "a", .into "b"]
  links := 40
  sha256 := fun _ => "e3b0c44298fc1c149afbf4c8996fb92427ae41e4649b934ca495991b7852b855"
  moment := fun _ => {
    adds := [], fault := none, owned := true, mounts := fun _ => false
    digest := "e3b0c44298fc1c149afbf4c8996fb92427ae41e4649b934ca495991b7852b855"
    content := some [], removes := true }

def emptyRow : Row Nat := Row.of {
  jobId := "j", preparedId := "p", index := 0, outcome := .succeeded, disposition := .none
  retryAfter := .null, publication := .produced, workPerformed := true, outputs := ["x"]
  companion := none, message := none, failureCode := none, resource := .none, workUnits := .null
  elapsed := .null, details := [] }

def emptyTree : Tree String Bytes := fun _ => none

theorem splitOn_x : "x".splitOn "/" = ["x"] := by
  rw [String.splitOn, if_neg (by decide), String.splitOnAux, if_neg (by decide), if_neg (by decide),
    String.splitOnAux, if_pos (by decide)]
  decide

theorem emptyRow_accepted : ∀ row ∈ [emptyRow], Accepted emptyOutput row.item := by
  intro row hrow rel hrel
  rw [List.mem_singleton.mp hrow] at hrel
  obtain rfl : rel = "x" := List.mem_singleton.mp hrel
  refine ⟨⟨"result output", ?_⟩, fun part _ => rfl⟩
  rw [safePath, splitOn_x]
  rfl

theorem emptyRow_run : ∃ out s,
    returnOutputs emptyOutput (fun _ => some "/a/b") [emptyRow] (Local.start emptyTree) =
      .ok out s ∧
    s.tree ["a"] = some .dir ∧ s.log.reverse = [.resolved "/a/b" ["a", "b"], .made ["a"],
      .made ["a", "b"], .filled ["a", "b"], .installed ["a", "b", "x"] []] := by
  have hpaths : emptyRow.item.paths = ["x"] := rfl
  simp only [returnOutputs, returnRow, hpaths, returnPaths, returnPath, splitOn_x, List.mapM_cons,
    List.mapM_nil]
  exact ⟨_, _, rfl, rfl, rfl⟩

theorem emptyRow_confined :
    Triple (· = Local.start emptyTree)
      (returnOutputs emptyOutput (fun _ => some "/a/b") [emptyRow])
      (fun out s => Confined emptyOutput emptyTree s ∧ s.tmp = none ∧
        List.Forall₂ (Settled emptyOutput (fun _ => some "/a/b") s) [emptyRow] out.1)
      fun _ s => Confined emptyOutput emptyTree s ∧ s.tmp = none :=
  confined_deliveries emptyRow_accepted (fun _ => some "/a/b") emptyTree

/-- The directories on the way to the root are outside it. -/
theorem made_outside : ¬ ∀ (c : Controller String) (rows : List (Row Nat))
    (returnRoot : String → Option String) (tree : Tree String Bytes),
    (∀ row ∈ rows, Accepted c row.item) →
    ∀ out s, returnOutputs c returnRoot rows (Local.start tree) = .ok out s →
    ∀ path node, s.tree path = some node →
      tree path = some node ∨ .theirs path node ∈ s.log ∨
        ∃ root base, .resolved root base ∈ s.log ∧ base <+: path := by
  intro hinside
  obtain ⟨out, s, hrun, hmade, hlog⟩ := emptyRow_run
  have hmem : ∀ deed, deed ∈ s.log ↔ deed ∈ [Deed.resolved "/a/b" ["a", "b"], .made ["a"],
      .made ["a", "b"], .filled ["a", "b"], .installed ["a", "b", "x"] []] := by
    intro deed
    rw [← hlog, List.mem_reverse]
  rcases hinside emptyOutput [emptyRow] _ emptyTree emptyRow_accepted out s hrun ["a"] .dir hmade
    with hold | htheirs | ⟨root, base, hroot, hprefix⟩
  · cases hold
  · simp [hmem] at htheirs
  · simp only [hmem, List.mem_cons, Deed.resolved.injEq, reduceCtorEq, List.not_mem_nil,
      or_false] at hroot
    rw [hroot.2] at hprefix
    exact absurd hprefix (by decide)

end Example

/-! ## The rows of a worker -/

section Validated
variable {H : Host F}

theorem safePath_ok {value : Value F} {field rel : String}
    (h : safePath value field = .ok rel) : safePath (.str rel : Value F) field = .ok rel := by
  cases value with
  | str text =>
    have hrun := h
    rw [safePath] at h
    split at h
    · cases h
    · obtain rfl := Except.ok.inj h
      exact hrun
  | null => cases h
  | bool b => cases h
  | int n => cases h
  | float x => cases h
  | arr values => cases h
  | obj members => cases h

/-- Every path of the item is one that the envelope accepts. -/
def Checked (item : Item F) : Prop :=
  ∀ rel ∈ item.paths, ∃ field, safePath (.str rel : Value F) field = .ok rel

theorem checked_paths {outputs : List String} {companion : Option String}
    {value companionValue : Value F} (houtputs : readOutputs value = .ok outputs)
    (hcompanion : readCompanion companionValue = .ok companion) {rel : String}
    (hrel : rel ∈ outputs ++ companion.toList) :
    ∃ field, safePath (.str rel : Value F) field = .ok rel := by
  rcases List.mem_append.mp hrel with hout | hcomp
  · obtain ⟨values, -, hmap⟩ := bind_eq_ok.mp houtputs
    obtain ⟨value, -, hpath⟩ := (mem_of_mapM hmap).mp hout
    exact ⟨_, safePath_ok hpath⟩
  · obtain rfl : companion = some rel := Option.mem_toList.mp hcomp
    unfold readCompanion at hcompanion
    split at hcompanion
    · cases hcompanion
    · obtain ⟨path, hpath, hsome⟩ := map_eq_ok.mp hcompanion
      obtain rfl := Option.some.inj hsome
      exact ⟨_, safePath_ok hpath⟩

theorem validateItem_checked {expected : Expected F} {completion : Completion} {raw : Value F}
    {item : Item F} (h : validateItem H expected completion raw = .ok item) : Checked item := by
  obtain ⟨members, -, hrun⟩ := bind_eq_ok.mp h
  obtain ⟨_, -, hrun⟩ := bind_eq_ok.mp hrun
  obtain ⟨_, -, hrun⟩ := bind_eq_ok.mp hrun
  obtain ⟨a, -, hrun⟩ := bind_eq_ok.mp hrun
  obtain ⟨_, -, hrun⟩ := bind_eq_ok.mp hrun
  obtain ⟨outputs, houtputs, hrun⟩ := bind_eq_ok.mp hrun
  obtain ⟨_, -, hrun⟩ := bind_eq_ok.mp hrun
  obtain ⟨companion, hcompanion, hrun⟩ := bind_eq_ok.mp hrun
  obtain ⟨_, -, hrun⟩ := bind_eq_ok.mp hrun
  obtain ⟨failureCode, -, hrun⟩ := bind_eq_ok.mp hrun
  obtain ⟨mismatch, -, hrun⟩ := bind_eq_ok.mp hrun
  obtain ⟨_, -, hrun⟩ := bind_eq_ok.mp hrun
  obtain ⟨details, -, hrun⟩ := bind_eq_ok.mp hrun
  have hitem := pure_eq_ok.mp hrun
  intro rel hrel
  cases mismatch with
  | true =>
    subst hitem
    exact checked_paths houtputs hcompanion hrel
  | false =>
    subst hitem
    exact checked_paths houtputs hcompanion hrel

theorem tallied_checked {expectedItems : List (Expected F)} {completion : Completion}
    {t t' : Tally F} {raw : Value F} (ht : ∀ item ∈ t.out, Checked item)
    (h : tallyItem H expectedItems completion t raw = .ok t') : ∀ item ∈ t'.out, Checked item := by
  obtain ⟨_, -, h⟩ := bind_eq_ok.mp h
  obtain ⟨_, -, h⟩ := bind_eq_ok.mp h
  obtain ⟨_, -, h⟩ := bind_eq_ok.mp h
  obtain ⟨item, hitem, h⟩ := bind_eq_ok.mp h
  obtain ⟨_, -, h⟩ := bind_eq_ok.mp h
  obtain ⟨_, -, h⟩ := bind_eq_ok.mp h
  obtain rfl := pure_eq_ok.mp h
  intro other hmem
  rcases List.mem_append.mp hmem with hold | hnew
  · exact ht other hold
  · rw [List.mem_singleton.mp hnew]
    exact validateItem_checked hitem

/-- The rows of an envelope that is accepted may be returned, unless a part names a drive. -/
theorem accepted_of_valid {envelope : Value F} {batchId specId adapterId : String}
    {expectedItems : List (Expected F)} {completion : Completion} {items : List (Item F)}
    (h : validateResultEnvelope H envelope batchId specId adapterId expectedItems completion =
      .ok items)
    (hdrive : ∀ item ∈ items, ∀ rel ∈ item.paths, ∀ part ∈ rel.splitOn "/", c.drive part = none) :
    ∀ row ∈ items.map Row.of, Accepted c row.item := by
  obtain ⟨members, -, hrun⟩ := bind_eq_ok.mp h
  obtain ⟨_, -, hrun⟩ := bind_eq_ok.mp hrun
  obtain ⟨_, -, hrun⟩ := bind_eq_ok.mp hrun
  obtain ⟨_, -, hrun⟩ := bind_eq_ok.mp hrun
  obtain ⟨_, -, hrun⟩ := bind_eq_ok.mp hrun
  obtain ⟨_, -, hrun⟩ := bind_eq_ok.mp hrun
  obtain ⟨raws, -, hrun⟩ := bind_eq_ok.mp hrun
  obtain ⟨_, -, hrun⟩ := bind_eq_ok.mp hrun
  obtain ⟨_, -, hrun⟩ := bind_eq_ok.mp hrun
  obtain ⟨t, hloop, hrun⟩ := bind_eq_ok.mp hrun
  obtain ⟨_, -, hrun⟩ := bind_eq_ok.mp hrun
  obtain rfl := pure_eq_ok.mp hrun
  have hchecked : ∀ item ∈ t.out, Checked item :=
    foldlM_invariant (fun t => ∀ item ∈ t.out, Checked item)
      (fun _ _ _ _ ht hstep => tallied_checked ht hstep) (List.forall_mem_nil _) hloop
  intro row hrow
  obtain ⟨item, hmem, rfl⟩ := List.mem_map.mp hrow
  exact fun rel hrel => ⟨hchecked item hmem rel hrel, hdrive item hmem rel hrel⟩

end Validated
end Remrun.Fleet.Delivery
