import Remrun.Lib.Dict
import Remrun.Lib.Effect

/-!
# Batched transfers between POSIX hosts

A list of files travels in one archive or file by file. Names are bytes; the archive path rewrites
backslashes and refuses some names, each single transfer takes a name as it is. Trees have no other
writers, and room for every name and every byte.
-/

namespace Remrun.Transfer

open Effect Keyed
set_option autoImplicit false

abbrev Bytes := List UInt8

def slash : UInt8 := 47
def backslash : UInt8 := 92
def colon : UInt8 := 58
def dot : UInt8 := 46

/-! ## Trees -/

/-- The parts of a path below a root. -/
abbrev Path := List Bytes

structure File where
  bytes : Bytes
  mode : Nat
  deriving DecidableEq, Repr

inductive Node where
  | file (file : File)
  | dir
  deriving DecidableEq, Repr

abbrev Tree := Dict (id : Path → Path) Node

/-- The regular file at a path. -/
def Tree.file (t : Tree) (path : Path) : Option File :=
  match t.get path with
  | some (.file file) => some file
  | _ => none

/-- The directories above a path. -/
def parents (path : Path) : List Path := path.inits.tail.dropLast

inductive Fault where
  | transportError
  | osError
  | valueError
  deriving DecidableEq, Repr

/-- A transfer that raised leaves what it wrote before. -/
abbrev Outcome := Tree × Option Fault

/-- A file stands where a directory is needed, or a directory where the file is to be. -/
def blocked (t : Tree) (path : Path) : Bool :=
  (parents path).any (fun parent => (t.file parent).isSome) || t.get path = some .dir

/-- Makes the directories and puts the file in its place. -/
def install (t : Tree) (path : Path) (file : File) : Outcome :=
  if blocked t path then (t, some .osError)
  else (((parents path).foldl (fun t parent => t.set parent .dir) t).set path (.file file), none)

/-- One transfer after the other, up to the first that raises. -/
def each {α : Type} (step : Tree → α → Outcome) : List α → Tree → Outcome
  | [], t => (t, none)
  | item :: rest, t =>
    match step t item with
    | (t, none) => each step rest t
    | raised => raised

/-! ## Names -/

/-- `.replace("\\", "/")`. -/
def slashed (rel : Bytes) : Bytes := rel.map fun b => if b = backslash then slash else b

/-- `.split("/")`. -/
def parts (rel : Bytes) : Path := rel.splitOn slash

def badPart (part : Bytes) : Bool :=
  part = [] || part = [dot] || part = [dot, dot] || colon ∈ part

/-- `_safe_rel`. -/
def safeRel (rel : Bytes) : Except Fault Bytes :=
  if rel.head? = some slash ∨ rel.head? = some backslash ∨
      (parts (slashed rel)).any badPart = true then .error .transportError
  else .ok (slashed rel)

/-- `safe` of the two programs on the target. -/
def safe (name : Bytes) : Except Fault Bytes :=
  if (slashed name).head? = some slash ∨ (parts (slashed name)).any badPart = true then
    .error .valueError
  else .ok (slashed name)

/-! ## Single transfers -/

/-- The bytes and the permission bits travel. -/
def File.sent (file : File) : File := { file with mode := file.mode % 0o1000 }

def need {α : Type} (value : Option α) (fault : Fault) : Except Fault α :=
  match value with
  | some a => .ok a
  | none => .error fault

/-- A copy that raises before it writes if there is no source. -/
def copy (fault : Fault) (source : Tree) (src dest : Path) (t : Tree) : Outcome :=
  match need (source.file src) fault with
  | .error fault => (t, some fault)
  | .ok file => install t dest file.sent

/-- `push_file`. -/
def pushFile (source : Tree) (src dest : Path) (t : Tree) : Outcome :=
  copy .osError source src dest t

/-- `pull_file`. -/
def pullFile (source : Tree) (src dest : Path) (t : Tree) : Outcome :=
  copy .transportError source src dest t

/-- `push_file(local_root / rel, remote_join(remote_root, rel))` for each path. -/
def pushEach (source : Tree) (rels : List Bytes) : Tree → Outcome :=
  each (fun t rel => pushFile source (parts rel) (parts rel) t) rels

/-- `pull_file(remote_join(remote_root, rel), local_root / rel)` for each path. -/
def pullEach (source : Tree) (rels : List Bytes) : Tree → Outcome :=
  each (fun t rel => pullFile source (parts rel) (parts rel) t) rels

/-! ## Archives -/

structure Member where
  name : Bytes
  file : File

/-- The loop body of `_tar_bytes_from_local`; `_rel_to_path` checks the name once more. -/
def localMember (source : Tree) (rel : Bytes) : Except Fault Member := do
  let name ← safeRel rel
  let path ← safeRel name
  let file ← need (source.file (parts path)) .osError
  return ⟨name, file.sent⟩

/-- The loop body of the program that extracts on the target. -/
def extractRemote (t : Tree) (member : Member) : Outcome :=
  match safe member.name with
  | .error fault => (t, some fault)
  | .ok rel => install t (parts rel) member.file

/-- The loop body of the program that creates on the target. -/
def remoteMember (source : Tree) (name : Bytes) : Except Fault Member := do
  let rel ← safe name
  let file ← need (source.file (parts rel)) .osError
  return ⟨rel, file.sent⟩

/-- The loop body of `_extract_tar_to_local`. -/
def extractLocal (t : Tree) (member : Member) : Outcome :=
  match safeRel member.name with
  | .error fault => (t, some fault)
  | .ok rel => install t (parts rel) member.file

/-- An archive that was made is extracted member by member. -/
def extracted (members : Except Fault (List Member)) (extract : Tree → Member → Outcome)
    (t : Tree) : Outcome :=
  match members with
  | .error fault => (t, some fault)
  | .ok members => each extract members t

/-- `push_files`; below two paths that of the base class. -/
def pushFiles (source : Tree) (rels : List Bytes) (t : Tree) : Outcome :=
  if rels.length < 2 then
    each (fun t rel => match safeRel rel with
      | .error fault => (t, some fault)
      | .ok name => pushFile source (parts name) (parts rel) t) rels t
  else
    extracted (do
      let _ ← rels.mapM safeRel
      rels.mapM (localMember source)) extractRemote t

/-- `pull_files`. A program that fails on the target is a `TransportError` here. -/
def pullFiles (source : Tree) (rels : List Bytes) (t : Tree) : Outcome :=
  if rels.length < 2 then
    each (fun t rel => match safeRel rel with
      | .error fault => (t, some fault)
      | .ok name => pullFile source (parts rel) (parts name) t) rels t
  else
    extracted (do
      let names ← rels.mapM safeRel
      (names.mapM (remoteMember source)).mapError fun _ => .transportError) extractLocal t

/-! ## Faithful transfers -/

/-- The archive path carries the name as it is. -/
def Carried (rel : Bytes) : Prop := safeRel rel = .ok rel

/-- The batched transfer ends as the single ones do, and changes nothing but the paths of the list
and the directories above them. -/
structure SameAs (rels : List Bytes) (t : Tree) (batch single : Outcome) : Prop where
  tree : ∀ path, batch.1.get path = single.1.get path
  raises : batch.2.isSome = single.2.isSome
  others : ∀ path, (∀ rel ∈ rels, path ≠ parts rel ∧ path ∉ parents (parts rel)) →
    batch.1.get path = t.get path

/-- The transfer raised before it wrote. -/
structure Refused (t : Tree) (batch : Outcome) : Prop where
  raises : batch.2.isSome = true
  tree : ∀ path, batch.1.get path = t.get path

/-- Into every tree: a list that the archive path carries arrives as file by file, and any other
is refused. -/
structure Faithful (batch single : Tree → Outcome) (rels : List Bytes) : Prop where
  carried : (∀ rel ∈ rels, Carried rel) → ∀ t, SameAs rels t (batch t) (single t)
  refused : (∃ rel ∈ rels, ¬ Carried rel) → ∀ t, Refused t (batch t)

/-! ## Names that travel -/

theorem mem_slashed {rel : Bytes} : backslash ∉ slashed rel := by
  intro hmem
  obtain ⟨b, -, hb⟩ := List.mem_map.mp hmem
  split at hb
  · exact absurd hb (by decide)
  · rename_i hne
    exact hne hb

theorem slashed_eq_self {rel : Bytes} (h : backslash ∉ rel) : slashed rel = rel := by
  conv_rhs => rw [← List.map_id rel]
  refine List.map_congr_left fun b hb => ?_
  have hne : b ≠ backslash := fun heq => h (heq ▸ hb)
  rw [if_neg hne, id_eq]

theorem safeRel_ok {rel name : Bytes} : safeRel rel = .ok name ↔
    (rel.head? ≠ some slash ∧ rel.head? ≠ some backslash ∧
      (parts (slashed rel)).any badPart = false) ∧ name = slashed rel := by
  unfold safeRel
  split
  · rename_i hbad
    constructor
    · exact fun h => absurd h nofun
    · rintro ⟨⟨hslash, hback, hparts⟩, -⟩
      rcases hbad with h | h | h
      · exact absurd h hslash
      · exact absurd h hback
      · exact absurd (h.symm.trans hparts) nofun
  · rename_i hgood
    obtain ⟨hslash, hback, hparts⟩ : rel.head? ≠ some slash ∧ rel.head? ≠ some backslash ∧
        (parts (slashed rel)).any badPart = false := by
      simpa only [not_or, Bool.not_eq_true] using hgood
    constructor
    · exact fun h => ⟨⟨hslash, hback, hparts⟩, (Except.ok.inj h).symm⟩
    · rintro ⟨-, rfl⟩
      rfl

theorem head_slashed {rel : Bytes} (hslash : rel.head? ≠ some slash)
    (hback : rel.head? ≠ some backslash) : (slashed rel).head? ≠ some slash := by
  cases rel with
  | nil => exact nofun
  | cons b rest =>
    have hb : b ≠ backslash := fun heq => hback (congrArg some heq)
    intro h
    rw [slashed, List.map_cons, if_neg hb] at h
    exact hslash h

/-- A name that was made safe passes every further check as it is. -/
theorem safe_safeRel {rel name : Bytes} (h : safeRel rel = .ok name) :
    safeRel name = .ok name ∧ safe name = .ok name := by
  obtain ⟨⟨hslash, hback, hparts⟩, rfl⟩ := safeRel_ok.mp h
  have htwice : slashed (slashed rel) = slashed rel := slashed_eq_self mem_slashed
  have hhead := head_slashed hslash hback
  constructor
  · refine safeRel_ok.mpr ⟨⟨hhead, ?_, by rw [htwice]; exact hparts⟩, htwice.symm⟩
    intro hhead'
    exact mem_slashed (List.mem_of_mem_head? hhead')
  · rw [safe, htwice, if_neg]
    rintro (h' | h')
    · exact hhead h'
    · exact absurd (h'.symm.trans hparts) nofun

theorem carried_iff {rel : Bytes} :
    Carried rel ↔ (∃ name, safeRel rel = .ok name) ∧ backslash ∉ rel := by
  constructor
  · intro h
    refine ⟨⟨rel, h⟩, ?_⟩
    rw [(safeRel_ok.mp h).2]
    exact mem_slashed
  · rintro ⟨⟨name, h⟩, hback⟩
    have hname := (safeRel_ok.mp h).2
    rw [slashed_eq_self hback] at hname
    rw [Carried, h, hname]

/-! ## What a transfer writes -/

theorem get_foldl_dir (path : Path) : ∀ (above : List Path) (t : Tree), path ∉ above →
    (above.foldl (fun t parent => t.set parent .dir) t).get path = t.get path
  | [], _, _ => rfl
  | parent :: above, t, h => by
    rw [List.foldl_cons, get_foldl_dir path above _ (List.not_mem_of_not_mem_cons h)]
    exact Dict.get_set_other _ _ (List.ne_of_not_mem_cons h)

theorem install_other {t : Tree} {dest path : Path} (file : File) (hne : path ≠ dest)
    (hout : path ∉ parents dest) : (install t dest file).1.get path = t.get path := by
  unfold install
  split
  · rfl
  · dsimp only
    rw [Dict.get_set_other, get_foldl_dir path _ _ hout]
    exact hne

theorem each_other {α : Type} {step : Tree → α → Outcome} {path : Path} {items : List α}
    (hstep : ∀ t, ∀ item ∈ items, (step t item).1.get path = t.get path) (t : Tree) :
    (each step items t).1.get path = t.get path := by
  induction items generalizing t with
  | nil => rfl
  | cons item rest ih =>
    rw [each]
    have hitem := hstep t item List.mem_cons_self
    split
    · rename_i t' heq
      rw [heq] at hitem
      rw [ih (fun t item hmem => hstep t item (List.mem_cons_of_mem _ hmem)), hitem]
    · exact hitem

theorem each_congr {α : Type} {step step' : Tree → α → Outcome} {items : List α}
    (h : ∀ t, ∀ item ∈ items, step t item = step' t item) (t : Tree) :
    each step items t = each step' items t := by
  induction items generalizing t with
  | nil => rfl
  | cons item rest ih =>
    rw [each, each, h t item List.mem_cons_self]
    split
    · exact ih (fun t item hmem => h t item (List.mem_cons_of_mem _ hmem)) _
    · rfl

theorem each_map {α β : Type} {step : Tree → β → Outcome} {g : α → β} (items : List α) (t : Tree) :
    each step (items.map g) t = each (fun t item => step t (g item)) items t := by
  induction items generalizing t with
  | nil => rfl
  | cons item rest ih =>
    rw [List.map_cons, each, each]
    split
    · exact ih _
    · rfl

/-! ## Lists that the archive path carries -/

section Lists
variable {source : Tree} {rels : List Bytes}

theorem copy_other (fault : Fault) {src dest path : Path} {t : Tree} (hne : path ≠ dest)
    (hout : path ∉ parents dest) : (copy fault source src dest t).1.get path = t.get path := by
  unfold copy
  split
  · rfl
  · exact install_other _ hne hout

theorem need_ok {α : Type} {value : Option α} {fault : Fault} {a : α} :
    need value fault = .ok a ↔ value = some a := by
  cases value <;> simp [need]

theorem localMember_ok {rel : Bytes} {member : Member} : localMember source rel = .ok member ↔
    ∃ name file, safeRel rel = .ok name ∧ source.file (parts name) = some file ∧
      member = ⟨name, file.sent⟩ := by
  rw [localMember, bind_eq_ok]
  constructor
  · rintro ⟨name, hname, hrest⟩
    obtain ⟨path, hpath, hread⟩ := bind_eq_ok.mp hrest
    obtain ⟨file, hfile, hmember⟩ := bind_eq_ok.mp hread
    rw [← Except.ok.inj ((safe_safeRel hname).1.symm.trans hpath)] at hfile
    exact ⟨name, file, hname, need_ok.mp hfile, (pure_eq_ok.mp hmember).symm⟩
  · rintro ⟨name, file, hname, hfile, rfl⟩
    exact ⟨name, hname, bind_eq_ok.mpr ⟨name, (safe_safeRel hname).1,
      bind_eq_ok.mpr ⟨file, need_ok.mpr hfile, rfl⟩⟩⟩

theorem remoteMember_ok {rel name : Bytes} (hname : safeRel rel = .ok name) {member : Member} :
    remoteMember source name = .ok member ↔
      ∃ file, source.file (parts name) = some file ∧ member = ⟨name, file.sent⟩ := by
  rw [remoteMember, bind_eq_ok]
  constructor
  · rintro ⟨rel', hrel, hread⟩
    obtain ⟨file, hfile, hmember⟩ := bind_eq_ok.mp hread
    rw [Except.ok.inj (hrel.symm.trans (safe_safeRel hname).2)] at hfile hmember
    exact ⟨file, need_ok.mp hfile, (pure_eq_ok.mp hmember).symm⟩
  · rintro ⟨file, hfile, rfl⟩
    exact ⟨name, (safe_safeRel hname).2, bind_eq_ok.mpr ⟨file, need_ok.mpr hfile, rfl⟩⟩

/-- The archive that pushing a list makes. -/
def pushed (source : Tree) (rels : List Bytes) : Except Fault (List Member) := do
  let _ ← rels.mapM safeRel
  rels.mapM (localMember source)

/-- The archive that pulling a list makes. -/
def pulled (source : Tree) (rels : List Bytes) : Except Fault (List Member) := do
  let names ← rels.mapM safeRel
  (names.mapM (remoteMember source)).mapError fun _ => .transportError

/-- The members are the files under the names that were made safe. -/
def MembersOf (source : Tree) (rels : List Bytes) (members : List Member) : Prop :=
  List.Forall₂ (fun rel member => localMember source rel = .ok member) rels members

theorem pushed_ok {members : List Member} :
    pushed source rels = .ok members ↔ MembersOf source rels members := by
  rw [pushed, bind_eq_ok, MembersOf, ← mapM_eq_ok]
  constructor
  · rintro ⟨_, -, h⟩
    exact h
  · intro h
    obtain ⟨names, hnames⟩ := mapM_returns.mpr fun rel hrel => by
      obtain ⟨member, hmember⟩ := ok_of_mapM h hrel
      obtain ⟨name, _, hname, -, -⟩ := localMember_ok.mp hmember
      exact ⟨name, hname⟩
    exact ⟨names, hnames, h⟩

theorem mapError_ok {α : Type} {x : Except Fault α} {f : Fault → Fault} {a : α} :
    x.mapError f = .ok a ↔ x = .ok a := by
  cases x <;> simp [Except.mapError]

theorem pulled_ok {members : List Member} :
    pulled source rels = .ok members ↔ MembersOf source rels members := by
  rw [pulled, bind_eq_ok, MembersOf]
  simp only [mapError_ok]
  rw [mapM_mapM_eq_ok, mapM_eq_ok]
  have hone : ∀ rel member, (safeRel rel >>= remoteMember source) = .ok member ↔
      localMember source rel = .ok member := by
    intro rel member
    rw [bind_eq_ok, localMember_ok]
    constructor
    · rintro ⟨name, hname, h⟩
      obtain ⟨file, hfile, rfl⟩ := (remoteMember_ok hname).mp h
      exact ⟨name, file, hname, hfile, rfl⟩
    · rintro ⟨name, file, hname, hfile, rfl⟩
      exact ⟨name, hname, (remoteMember_ok hname).mpr ⟨file, hfile, rfl⟩⟩
  simp only [hone]

/-- An archive is extracted to the paths of its names, on either side. -/
theorem each_extract {members : List Member} (h : MembersOf source rels members) (t : Tree) :
    each extractRemote members t =
        each (fun t member => install t (parts member.name) member.file) members t ∧
      each extractLocal members t =
        each (fun t member => install t (parts member.name) member.file) members t := by
  have hsafe : ∀ member ∈ members,
      safeRel member.name = .ok member.name ∧ safe member.name = .ok member.name := by
    intro member hmember
    obtain ⟨rel, -, hrel⟩ := (mem_of_mapM (mapM_eq_ok.mpr h)).mp hmember
    obtain ⟨name, file, hname, -, rfl⟩ := localMember_ok.mp hrel
    exact safe_safeRel hname
  constructor
  · refine each_congr (fun t member hmember => ?_) t
    rw [extractRemote, (hsafe member hmember).2]
  · refine each_congr (fun t member hmember => ?_) t
    rw [extractLocal, (hsafe member hmember).1]

/-- Installing the members of a list that is carried is the single transfers. -/
theorem each_install (hcarried : ∀ rel ∈ rels, Carried rel) (fault : Fault)
    {members : List Member} (h : MembersOf source rels members) (t : Tree) :
    each (fun t member => install t (parts member.name) member.file) members t =
      each (fun t rel => copy fault source (parts rel) (parts rel) t) rels t := by
  induction h generalizing t with
  | nil => rfl
  | @cons rel member rels members hmember _ ih =>
    obtain ⟨name, file, hname, hfile, rfl⟩ := localMember_ok.mp hmember
    obtain rfl := Except.ok.inj (hname.symm.trans (hcarried rel List.mem_cons_self))
    have hstep : copy fault source (parts name) (parts name) t =
        install t (parts name) file.sent := by
      rw [copy, hfile]
      rfl
    rw [each, each, hstep]
    obtain ⟨t', raised⟩ := install t (parts name) file.sent
    cases raised with
    | none => exact ih (fun rel hrel => hcarried rel (List.mem_cons_of_mem _ hrel)) t'
    | some fault => rfl

/-! ## Faithful lists -/

theorem each_short {step : Tree → Bytes → Outcome} (hshort : rels.length < 2)
    (P : Bytes → Tree → Outcome → Prop) (hstep : ∀ rel ∈ rels, ∀ t, P rel t (step t rel))
    {rel : Bytes} (hrel : rel ∈ rels) (t : Tree) : P rel t (each step rels t) := by
  match rels, hrel with
  | [only], hrel =>
    obtain rfl := List.mem_singleton.mp hrel
    have h := hstep rel hrel t
    rw [each]
    split
    · rename_i heq
      rw [heq] at h
      exact h
    · exact h
  | _ :: _ :: _, _ => exact absurd hshort (by simp)

theorem pushFiles_carried (hlisted : ∀ rel ∈ rels, (source.file (parts rel)).isSome)
    (hcarried : ∀ rel ∈ rels, Carried rel) (t : Tree) :
    pushFiles source rels t = pushEach source rels t := by
  unfold pushFiles pushEach
  split
  · refine each_congr (fun t rel hrel => ?_) t
    rw [hcarried rel hrel]
  · obtain ⟨members, hmembers⟩ := mapM_returns.mpr fun rel hrel => by
      obtain ⟨file, hfile⟩ := Option.isSome_iff_exists.mp (hlisted rel hrel)
      exact ⟨_, localMember_ok.mpr ⟨rel, file, hcarried rel hrel, hfile, rfl⟩⟩
    have hall : MembersOf source rels members := mapM_eq_ok.mp hmembers
    change extracted (pushed source rels) _ t = _
    rw [pushed_ok.mpr hall, extracted, (each_extract hall t).1, each_install hcarried .osError hall]
    rfl

theorem pullFiles_carried (hlisted : ∀ rel ∈ rels, (source.file (parts rel)).isSome)
    (hcarried : ∀ rel ∈ rels, Carried rel) (t : Tree) :
    pullFiles source rels t = pullEach source rels t := by
  unfold pullFiles pullEach
  split
  · refine each_congr (fun t rel hrel => ?_) t
    rw [hcarried rel hrel]
  · obtain ⟨members, hmembers⟩ := mapM_returns.mpr fun rel hrel => by
      obtain ⟨file, hfile⟩ := Option.isSome_iff_exists.mp (hlisted rel hrel)
      exact ⟨_, localMember_ok.mpr ⟨rel, file, hcarried rel hrel, hfile, rfl⟩⟩
    have hall : MembersOf source rels members := mapM_eq_ok.mp hmembers
    change extracted (pulled source rels) _ t = _
    rw [pulled_ok.mpr hall, extracted, (each_extract hall t).2,
      each_install hcarried .transportError hall]
    rfl

/-- Single transfers change their own paths and the directories above them. -/
theorem sameAs_of_eq {fault : Fault} {t : Tree} {batch : Outcome}
    (h : batch = each (fun t rel => copy fault source (parts rel) (parts rel) t) rels t) :
    SameAs rels t batch
      (each (fun t rel => copy fault source (parts rel) (parts rel) t) rels t) := by
  refine ⟨fun _ => by rw [h], by rw [h], fun path hout => ?_⟩
  rw [h]
  refine each_other (fun t rel hrel => ?_) t
  exact copy_other fault (hout rel hrel).1 (hout rel hrel).2

/-! ## Lists that are not carried -/

/-- Nothing in the list can be read for the archive: a name is refused, or the path that a name is
rewritten to holds no file. -/
def Unreadable (source : Tree) (rel : Bytes) : Prop :=
  (∀ name, safeRel rel ≠ .ok name) ∨ source.file (parts (slashed rel)) = none

theorem not_unreadable {rel : Bytes} (h : ¬ Unreadable source rel) :
    ∃ file, safeRel rel = .ok (slashed rel) ∧
      source.file (parts (slashed rel)) = some file := by
  rw [Unreadable, not_or] at h
  obtain ⟨hname, hfile⟩ := h
  push Not at hname
  obtain ⟨name, hname⟩ := hname
  obtain ⟨file, hfile⟩ := Option.ne_none_iff_exists'.mp hfile
  exact ⟨file, (safeRel_ok.mp hname).2 ▸ hname, hfile⟩

theorem localMember_unreadable {rel : Bytes} (h : Unreadable source rel) (member : Member) :
    localMember source rel ≠ .ok member := by
  intro hmember
  obtain ⟨name, file, hname, hfile, -⟩ := localMember_ok.mp hmember
  rcases h with hno | hnone
  · exact hno name hname
  · rw [(safeRel_ok.mp hname).2, hnone] at hfile
    exact absurd hfile nofun

/-- An archive that cannot be made writes nothing. -/
theorem refused_of_unreadable {archive : Except Fault (List Member)}
    (harchive : ∀ members, archive = .ok members → MembersOf source rels members)
    {rel : Bytes} (hrel : rel ∈ rels) (h : Unreadable source rel)
    (extract : Tree → Member → Outcome) (t : Tree) : Refused t (extracted archive extract t) := by
  cases hcase : archive with
  | error fault => exact ⟨rfl, fun _ => rfl⟩
  | ok members =>
    obtain ⟨member, hmember⟩ := ok_of_mapM (mapM_eq_ok.mpr (harchive members hcase)) hrel
    exact absurd hmember (localMember_unreadable h member)

theorem install_grows {t : Tree} {dest path : Path} (file : File) (h : (t.get path).isSome) :
    ((install t dest file).1.get path).isSome := by
  have hdirs : ∀ (above : List Path) (t : Tree), (t.get path).isSome →
      ((above.foldl (fun t parent => t.set parent .dir) t).get path).isSome := by
    intro above
    induction above with
    | nil => exact fun _ => id
    | cons parent above ih =>
      intro t ht
      refine ih _ ?_
      rw [Dict.get_set]
      split
      · rfl
      · exact ht
  unfold install
  split
  · exact h
  · dsimp only
    rw [Dict.get_set]
    split
    · rfl
    · exact hdirs _ t h

theorem each_install_grows {members : List Member} {t : Tree} {path : Path}
    (h : (t.get path).isSome) : ((each (fun t (member : Member) =>
      install t (parts member.name) member.file) members t).1.get path).isSome := by
  induction members generalizing t with
  | nil => exact h
  | cons member rest ih =>
    have hgrown : ((install t (parts member.name) member.file).1.get path).isSome :=
      install_grows member.file h
    rw [each]
    split
    · rename_i t' heq
      rw [heq] at hgrown
      exact ih hgrown
    · exact hgrown

/-- Into the empty tree the first file arrives. -/
theorem install_empty (dest : Path) (file : File) :
    (install Dict.empty dest file).2 = none ∧
      (install Dict.empty dest file).1.get dest = some (.file file) := by
  have hfree : blocked Dict.empty dest = false := by
    simp [blocked, Tree.file]
  rw [install, if_neg (by rw [hfree]; exact Bool.false_ne_true)]
  exact ⟨rfl, Dict.get_set_self _ _ _⟩

theorem not_refused_empty {members : List Member} (hne : members ≠ []) :
    ¬ Refused Dict.empty (each (fun t (member : Member) =>
      install t (parts member.name) member.file) members Dict.empty) := by
  intro h
  cases members with
  | nil => exact hne rfl
  | cons member rest =>
    have htree := h.tree (parts member.name)
    obtain ⟨hnone, hget⟩ := install_empty (parts member.name) member.file
    rw [each] at htree
    split at htree
    · rename_i t' heq
      rw [heq] at hget
      have hthere : (t'.get (parts member.name)).isSome := by rw [hget]; rfl
      have hgrown : ((each (fun t (member : Member) =>
          install t (parts member.name) member.file) rest t').1.get (parts member.name)).isSome :=
        each_install_grows hthere
      rw [htree] at hgrown
      exact absurd hgrown (by simp)
    · rename_i hraised
      exact hraised _ (Prod.ext rfl hnone)

/-- A single copy into the empty tree, of a file that is there, is not refused. -/
theorem copy_not_refused (fault : Fault) {src dest : Path} {file : File}
    (hfile : source.file src = some file) :
    ¬ Refused Dict.empty (copy fault source src dest Dict.empty) := by
  intro h
  have htree := h.tree dest
  rw [copy, hfile] at htree
  exact absurd ((install_empty dest file.sent).2.symm.trans htree) (by simp)

theorem pushFiles_refused {rel : Bytes} (hrel : rel ∈ rels) (h : Unreadable source rel)
    (t : Tree) : Refused t (pushFiles source rels t) := by
  unfold pushFiles
  split
  · rename_i hshort
    refine each_short hshort (fun rel t out => Unreadable source rel → Refused t out)
      (fun rel _ t hunreadable => ?_) hrel t h
    split
    · exact ⟨rfl, fun _ => rfl⟩
    · rename_i name hname
      have hnone := hunreadable.resolve_left fun hno => hno name hname
      rw [← (safeRel_ok.mp hname).2] at hnone
      rw [pushFile, copy, hnone]
      exact ⟨rfl, fun _ => rfl⟩
  · exact refused_of_unreadable (fun members => pushed_ok.mp) hrel h _ t

theorem pullFiles_refused {rel : Bytes} (hrel : rel ∈ rels)
    (h : (∀ name, safeRel rel ≠ .ok name) ∨
      (2 ≤ rels.length ∧ source.file (parts (slashed rel)) = none)) (t : Tree) :
    Refused t (pullFiles source rels t) := by
  unfold pullFiles
  split
  · rename_i hshort
    have hno := h.resolve_right fun hlong => by omega
    refine each_short hshort
      (fun rel t out => (∀ name, safeRel rel ≠ .ok name) → Refused t out)
      (fun rel _ t hno => ?_) hrel t hno
    split
    · exact ⟨rfl, fun _ => rfl⟩
    · rename_i name hname
      exact absurd hname (hno name)
  · exact refused_of_unreadable (fun members => pulled_ok.mp) hrel (h.imp_right And.right) _ t

/-- A list whose names are all rewritten to files is not refused by an archive. -/
theorem archive_not_refused {archive : Except Fault (List Member)} (hne : rels ≠ [])
    (hreadable : ∀ rel ∈ rels, ¬ Unreadable source rel)
    (harchive : ∀ members, MembersOf source rels members → archive = .ok members)
    {extract : Tree → Member → Outcome}
    (hextract : ∀ members, MembersOf source rels members → ∀ t, each extract members t =
      each (fun t member => install t (parts member.name) member.file) members t) :
    ¬ Refused Dict.empty (extracted archive extract Dict.empty) := by
  obtain ⟨members, hmembers⟩ := mapM_returns.mpr fun rel hrel => by
    obtain ⟨file, hname, hfile⟩ := not_unreadable (hreadable rel hrel)
    exact ⟨_, localMember_ok.mpr ⟨slashed rel, file, hname, hfile, rfl⟩⟩
  have hall : MembersOf source rels members := mapM_eq_ok.mp hmembers
  rw [harchive members hall, extracted, hextract members hall]
  refine not_refused_empty fun hnil => hne ?_
  rw [hnil] at hall
  exact List.forall₂_nil_right_iff.mp hall

/-- For every list of files of the source: pushing it is faithful into every tree exactly if no
name has a backslash, or the archive cannot be made. -/
theorem pushFiles_faithful_iff (source : Tree) (rels : List Bytes)
    (hlisted : ∀ rel ∈ rels, (source.file (parts rel)).isSome) :
    Faithful (pushFiles source rels) (pushEach source rels) rels ↔
      (∀ rel ∈ rels, backslash ∉ rel) ∨ ∃ rel ∈ rels, Unreadable source rel := by
  constructor
  · intro h
    by_contra hcond
    rw [not_or] at hcond
    obtain ⟨hback, hunreadable⟩ := hcond
    push Not at hback hunreadable
    obtain ⟨rel, hrel, hback⟩ := hback
    have hrefused := h.refused ⟨rel, hrel, fun hc => (carried_iff.mp hc).2 hback⟩ Dict.empty
    revert hrefused
    unfold pushFiles
    split
    · rename_i hshort
      refine each_short hshort (fun _ t out => t = Dict.empty → ¬ Refused t out)
        (fun rel hrel t ht => ?_) hrel Dict.empty rfl
      obtain ⟨file, hname, hfile⟩ := not_unreadable (hunreadable rel hrel)
      rw [ht, hname]
      exact copy_not_refused .osError hfile
    · exact archive_not_refused (List.ne_nil_of_mem hrel) hunreadable
        (fun _ => pushed_ok.mpr) fun _ hall t => (each_extract hall t).1
  · intro hcond
    refine ⟨fun hcarried t => sameAs_of_eq (pushFiles_carried hlisted hcarried t), ?_⟩
    rintro ⟨rel, hrel, hnot⟩ t
    rcases hcond with hback | ⟨rel', hrel', hunreadable⟩
    · refine pushFiles_refused hrel (Or.inl fun name hname => ?_) t
      exact hnot (carried_iff.mpr ⟨⟨name, hname⟩, hback rel hrel⟩)
    · exact pushFiles_refused hrel' hunreadable t

/-- For every list of files of the source: pulling it is faithful into every tree exactly if no
name has a backslash, or a name is refused, or the archive of two or more cannot be made. -/
theorem pullFiles_faithful_iff (source : Tree) (rels : List Bytes)
    (hlisted : ∀ rel ∈ rels, (source.file (parts rel)).isSome) :
    Faithful (pullFiles source rels) (pullEach source rels) rels ↔
      (∀ rel ∈ rels, backslash ∉ rel) ∨ ∃ rel ∈ rels, (∀ name, safeRel rel ≠ .ok name) ∨
        (2 ≤ rels.length ∧ source.file (parts (slashed rel)) = none) := by
  constructor
  · intro h
    by_contra hcond
    rw [not_or] at hcond
    obtain ⟨hback, hunreadable⟩ := hcond
    push Not at hback hunreadable
    obtain ⟨rel, hrel, hback⟩ := hback
    have hrefused := h.refused ⟨rel, hrel, fun hc => (carried_iff.mp hc).2 hback⟩ Dict.empty
    revert hrefused
    unfold pullFiles
    split
    · rename_i hshort
      refine each_short hshort (fun _ t out => t = Dict.empty → ¬ Refused t out)
        (fun rel hrel t ht => ?_) hrel Dict.empty rfl
      obtain ⟨name, hname⟩ := (hunreadable rel hrel).1
      obtain ⟨file, hfile⟩ := Option.isSome_iff_exists.mp (hlisted rel hrel)
      rw [ht, hname]
      exact copy_not_refused .transportError hfile
    · rename_i hlong
      refine archive_not_refused (List.ne_nil_of_mem hrel) (fun rel hrel => ?_)
        (fun _ => pulled_ok.mpr) fun _ hall t => (each_extract hall t).2
      rintro (hno | hnone)
      · obtain ⟨name, hname⟩ := (hunreadable rel hrel).1
        exact hno name hname
      · exact (hunreadable rel hrel).2 (by omega) hnone
  · intro hcond
    refine ⟨fun hcarried t => sameAs_of_eq (pullFiles_carried hlisted hcarried t), ?_⟩
    rintro ⟨rel, hrel, hnot⟩ t
    rcases hcond with hback | ⟨rel', hrel', hunreadable⟩
    · refine pullFiles_refused hrel (Or.inl fun name hname => ?_) t
      exact hnot (carried_iff.mpr ⟨⟨name, hname⟩, hback rel hrel⟩)
    · exact pullFiles_refused hrel' hunreadable t

end Lists

/-! ## A name with a backslash -/

/-- `a`, `b` below `a`, and `a\b` in the root, in bytes. -/
def nested : Bytes := [97, 47, 98]
def flat : Bytes := [97, 92, 98]
def other : Bytes := [99]

def twinTree : Tree :=
  (((Dict.empty.set [[97]] .dir).set (parts nested) (.file ⟨[1], 420⟩)).set (parts flat)
    (.file ⟨[2], 420⟩)).set (parts other) (.file ⟨[3], 493⟩)

theorem twinTree_listed : ∀ rel ∈ [flat, other], (twinTree.file (parts rel)).isSome := by
  decide

end Remrun.Transfer
