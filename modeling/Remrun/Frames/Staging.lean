import Remrun.Lib.Scan
import Remrun.Frames.Delimiting
import Remrun.Frames.TarFrame

/-!
# Staging of tar frames

When the reader of a tar frame keeps its contract, and when what the writer framed is staged
again. Both questions come down to the two scans of the reader, over the declared members and over
the archive: a scan gets through when every item fits what came before it, and an exception
escapes at the first item that trips it.
-/

namespace Remrun.Frames
open JsonText Scan

set_option autoImplicit false

universe u

/-! ## Paths -/

theorem normalized_normalized (name : String) : normalized (normalized name) = normalized name := by
  rw [normalized, normalized, String.toList_ofList, List.map_map]
  congr 1
  apply List.map_congr_left
  intro c _
  simp only [Function.comp_apply]
  split
  · rfl
  · rfl

theorem safeMemberPath_ok {name path : String} (h : safeMemberPath name = .ok path) :
    path = normalized name := by
  unfold safeMemberPath at h
  split at h
  · cases h
  split at h
  · cases h
  split at h
  · cases h
  · exact (Except.ok.inj h).symm

/-- A checked path passes the check as it is. -/
theorem safeMemberPath_checked {name path : String} (h : safeMemberPath name = .ok path) :
    safeMemberPath path = .ok path := by
  obtain rfl := safeMemberPath_ok h
  unfold safeMemberPath at h
  split at h
  · cases h
  split at h
  · cases h
  split at h
  · cases h
  · rename_i hroot hparts
    have hne : normalized name ≠ "" := by
      intro hempty
      rw [hempty] at hparts
      exact hparts (by decide)
    rw [safeMemberPath, normalized_normalized, if_neg hne, if_neg hroot, if_neg hparts]

theorem mem_splitOn {c sep : Char} {cs : List Char} (h : c ∈ cs) :
    c = sep ∨ ∃ part ∈ cs.splitOn sep, c ∈ part := by
  induction cs with
  | nil => exact absurd h List.not_mem_nil
  | cons d cs ih =>
    rw [List.splitOn_cons_eq_if_modifyHead]
    obtain ⟨first, rest, hsplit⟩ := List.exists_cons_of_ne_nil (List.splitOn_ne_nil sep cs)
    rw [hsplit] at ih ⊢
    by_cases hd : d = sep
    · rw [if_pos (beq_iff_eq.mpr hd)]
      rcases List.mem_cons.mp h with rfl | h
      · exact Or.inl hd
      · obtain hc | ⟨part, hpart, hc⟩ := ih h
        · exact Or.inl hc
        · exact Or.inr ⟨part, List.mem_cons_of_mem _ hpart, hc⟩
    · rw [if_neg (by rwa [beq_iff_eq]), List.modifyHead_cons]
      rcases List.mem_cons.mp h with rfl | h
      · exact Or.inr ⟨c :: first, List.mem_cons_self, List.mem_cons_self⟩
      · obtain hc | ⟨part, hpart, hc⟩ := ih h
        · exact Or.inl hc
        · rcases List.mem_cons.mp hpart with rfl | hpart
          · exact Or.inr ⟨_, List.mem_cons_self, List.mem_cons_of_mem _ hc⟩
          · exact Or.inr ⟨part, List.mem_cons_of_mem _ hpart, hc⟩

theorem mem_partsOf {path : String} {c : Char} (h : c ∈ path.toList) :
    c = '/' ∨ ∃ part ∈ partsOf path, c ∈ part.toList := by
  have hsplit : c = '/' ∨ ∃ part ∈ path.toList.splitOn '/', c ∈ part := mem_splitOn h
  rcases hsplit with rfl | ⟨part, hpart, hc⟩
  · exact Or.inl rfl
  · refine Or.inr ⟨String.ofList part, List.mem_map_of_mem hpart, ?_⟩
    rwa [String.toList_ofList]

/-! ## The staging directory -/

section Disks
variable {fs : FileSystem} {disk : Disk} {files : List (String × Bytes)} {path : String}
  {payload : Bytes}

variable (fs) in
def place (disk : Disk) (file : String × Bytes) : Disk :=
  disk.filter (fun other => other.key != fs.key file.1) ++ [⟨fs.key file.1, file.2⟩]

variable (fs) in
/-- The disk after some files were written in turn. -/
def diskOf (files : List (String × Bytes)) : Disk := files.foldl (place fs) []

theorem diskOf_concat (files : List (String × Bytes)) (file : String × Bytes) :
    diskOf fs (files ++ [file]) = place fs (diskOf fs files) file := by
  rw [diskOf, List.foldl_append]
  rfl

theorem of_mem_diskOf {file : StagedFile} (h : file ∈ diskOf fs files) :
    ∃ e ∈ files, file = ⟨fs.key e.1, e.2⟩ := by
  induction files using List.reverseRecOn with
  | nil => exact absurd h List.not_mem_nil
  | append_singleton files e ih =>
    rw [diskOf_concat, place, List.mem_append, List.mem_singleton] at h
    rcases h with h | rfl
    · obtain ⟨e', he', heq⟩ := ih (List.mem_of_mem_filter h)
      exact ⟨e', List.mem_append_left _ he', heq⟩
    · exact ⟨e, List.mem_append_right _ List.mem_cons_self, rfl⟩

variable (fs) in
theorem mem_diskOf {e : String × Bytes} (h : e ∈ files) :
    ∃ bytes, ⟨fs.key e.1, bytes⟩ ∈ diskOf fs files := by
  induction files using List.reverseRecOn with
  | nil => exact absurd h List.not_mem_nil
  | append_singleton files last ih =>
    rw [diskOf_concat, place]
    by_cases hkey : fs.key e.1 = fs.key last.1
    · exact ⟨last.2, List.mem_append_right _ (by rw [hkey]; exact List.mem_cons_self)⟩
    · rcases List.mem_append.mp h with h | h
      · obtain ⟨bytes, hmem⟩ := ih h
        exact ⟨bytes, List.mem_append_left _ (List.mem_filter.mpr ⟨hmem, bne_iff_ne.mpr hkey⟩)⟩
      · rw [List.mem_singleton] at h
        exact absurd (h ▸ rfl) hkey

theorem nodup_diskOf (files : List (String × Bytes)) :
    ((diskOf fs files).map StagedFile.key).Nodup := by
  induction files using List.reverseRecOn with
  | nil => exact List.nodup_nil
  | append_singleton files last ih =>
    rw [diskOf_concat, place, List.map_append, List.nodup_append]
    refine ⟨ih.sublist (List.filter_sublist.map _), List.nodup_singleton _, ?_⟩
    intro key hkey key' hkey' heq
    obtain ⟨file, hfile, rfl⟩ := List.mem_map.mp hkey
    rw [List.map_singleton, List.mem_singleton] at hkey'
    exact bne_iff_ne.mp (List.mem_filter.mp hfile).2 (heq.trans hkey')

theorem one_file {key : List String} {bytes bytes' : Bytes} (h : ⟨key, bytes⟩ ∈ diskOf fs files)
    (h' : ⟨key, bytes'⟩ ∈ diskOf fs files) : bytes = bytes' := by
  have heq := List.inj_on_of_nodup_map (nodup_diskOf files) h h' rfl
  exact (StagedFile.mk.inj heq).2

/-- One of two paths is a directory of the other. -/
def Clash (fs : FileSystem) (path other : String) : Prop :=
  under (fs.key other) (fs.key path) = true ∨ under (fs.key path) (fs.key other) = true

theorem Clash.symm {other : String} (h : Clash fs path other) : Clash fs other path := Or.symm h

theorem not_clash_self : ¬ Clash fs path path := by
  simp [Clash, under]

variable (fs) in
/-- There is room for a path among files. -/
def Room (files : List (String × Bytes)) (path : String) : Prop :=
  (∀ part ∈ partsOf path, fs.names part = true) ∧ ∀ e ∈ files, ¬ Clash fs path e.1

theorem stage_eq_some {disk' : Disk} : stage fs (diskOf fs files) path payload = some disk' ↔
    Room fs files path ∧ disk' = diskOf fs (files ++ [(path, payload)]) := by
  have hclash : ((diskOf fs files).any fun file =>
      under file.key (fs.key path) || under (fs.key path) file.key) = true ↔
        ∃ e ∈ files, Clash fs path e.1 := by
    simp only [List.any_eq_true, Bool.or_eq_true]
    constructor
    · rintro ⟨file, hfile, hunder⟩
      obtain ⟨e, he, rfl⟩ := of_mem_diskOf hfile
      exact ⟨e, he, hunder⟩
    · rintro ⟨e, he, hunder⟩
      obtain ⟨bytes, hmem⟩ := mem_diskOf fs he
      exact ⟨_, hmem, hunder⟩
  rw [diskOf_concat, stage]
  by_cases hnames : (partsOf path).all fs.names = true
  · rw [hnames, Bool.not_true, if_neg Bool.false_ne_true]
    rw [List.all_eq_true] at hnames
    split
    · rename_i h
      obtain ⟨e, he, hbad⟩ := hclash.mp h
      exact ⟨nofun, fun hand => absurd hbad (hand.1.2 e he)⟩
    · rename_i h
      have hroom : Room fs files path :=
        ⟨hnames, fun e he hbad => h (hclash.mpr ⟨e, he, hbad⟩)⟩
      rw [Option.some.injEq]
      exact ⟨fun heq => ⟨hroom, heq.symm⟩, fun hand => hand.2.symm⟩
  · rw [Bool.not_eq_true] at hnames
    rw [hnames, Bool.not_false, if_pos rfl]
    refine ⟨nofun, fun hand => ?_⟩
    rw [List.all_eq_true.mpr hand.1.1] at hnames
    cases hnames

theorem stage_eq_none : stage fs (diskOf fs files) path payload = none ↔ ¬ Room fs files path := by
  constructor
  · intro h hroom
    rw [stage_eq_some.mpr ⟨hroom, rfl⟩] at h
    cases h
  · intro hroom
    cases h : stage fs (diskOf fs files) path payload with
    | none => rfl
    | some disk' => exact absurd (stage_eq_some.mp h).1 hroom

end Disks

/-! ## The declared members -/

section Declaring
variable {F : Type u} {W : Wire F} {before items : List (Value F)} {item : Value F}
  {path : String} {spec : Members F} {declared : Declared F}

variable (W) in
/-- What an item declares. -/
def declares : Value F → Option (String × Members F)
  | .obj spec =>
    match spec.lookup "path" with
    | none => none
    | some value => (safePathOf W value).toOption.map fun path => (path, spec)
  | _ => none

variable (W) in
def specsOf (items : List (Value F)) : Declared F := items.filterMap (declares W)

variable (W) in
/-- An item that declares a member of its own. -/
def FitsHeader (before : List (Value F)) (item : Value F) : Prop :=
  ∃ e, declares W item = some e ∧ e.1 ∉ (specsOf W before).map Prod.fst

variable (W) in
/-- An item that is not an object, or whose `path` is missing or neither text nor empty. -/
def Malformed : Value F → Prop
  | .obj spec =>
    match spec.lookup "path" with
    | none => True
    | some value => falsy W value = false ∧ ∀ name, value ≠ .str name
  | _ => True

def Raised.escapes : Raised → Prop
  | .frameError _ => False
  | _ => True

theorem declares_eq_some : declares W item = some (path, spec) ↔
    item = .obj spec ∧ ∃ value, spec.lookup "path" = some value ∧ safePathOf W value = .ok path := by
  cases item with
  | obj spec' =>
    rw [declares]
    cases hpath : spec'.lookup "path" with
    | none =>
      refine ⟨nofun, ?_⟩
      rintro ⟨heq, value, hvalue, -⟩
      rw [← Value.obj.inj heq, hpath] at hvalue
      cases hvalue
    | some value =>
      simp only [Option.map_eq_some_iff, toOption_eq_some, Prod.mk.injEq]
      constructor
      · rintro ⟨_, hsafe, rfl, rfl⟩
        exact ⟨rfl, value, hpath, hsafe⟩
      · rintro ⟨heq, value', hvalue, hsafe⟩
        obtain rfl := Value.obj.inj heq
        rw [hpath] at hvalue
        exact ⟨path, Option.some.inj hvalue ▸ hsafe, rfl, rfl⟩
  | _ => exact ⟨nofun, fun h => absurd h.1 nofun⟩

theorem safePathOf_error {value : Value F} {e : Raised} (h : safePathOf W value = .error e) :
    e.escapes ↔ falsy W value = false ∧ ∀ name, value ≠ .str name := by
  unfold safePathOf at h
  split at h
  · rename_i hfalsy
    obtain rfl := Except.error.inj h
    rw [hfalsy]
    exact ⟨False.elim, fun hand => absurd hand.1 nofun⟩
  · rename_i hfalsy
    split at h
    · rename_i name
      split at h
      · obtain rfl := Except.error.inj h
        exact ⟨False.elim, fun hand => absurd rfl (hand.2 name)⟩
      · cases h
    · rename_i hname
      obtain rfl := Except.error.inj h
      rw [Bool.not_eq_true] at hfalsy
      exact ⟨fun _ => ⟨hfalsy, hname⟩, fun _ => trivial⟩

theorem specsOf_concat (items : List (Value F)) {e : String × Members F}
    (h : declares W item = some e) : specsOf W (items ++ [item]) = specsOf W items ++ [e] := by
  rw [specsOf, List.filterMap_append, List.filterMap_cons, h]
  rfl

theorem declare_follows : Follows (declare W) (specsOf W) (FitsHeader W) := by
  intro before _ item acc
  constructor
  · intro h
    unfold declare at h
    split at h
    · rename_i spec
      split at h
      · cases h
      · rename_i value hvalue
        split at h
        · cases h
        · rename_i path hsafe
          split at h
          · cases h
          · rename_i hnew
            have hdeclares : declares W (.obj spec) = some (path, spec) :=
              declares_eq_some.mpr ⟨rfl, value, hvalue, hsafe⟩
            rw [specsOf_concat before hdeclares]
            exact ⟨⟨_, hdeclares, hnew⟩, (Except.ok.inj h).symm⟩
    · cases h
  · rintro ⟨⟨⟨path, spec⟩, hdeclares, hnew⟩, rfl⟩
    rw [specsOf_concat before hdeclares]
    obtain ⟨rfl, value, hvalue, hsafe⟩ := declares_eq_some.mp hdeclares
    simp only [declare, hvalue, hsafe, if_neg hnew]

variable (declared) in
theorem declare_escapes : (∃ e, declare W declared item = .error e ∧ e.escapes) ↔
    Malformed W item := by
  cases item with
  | obj spec =>
    rw [declare, Malformed]
    cases hpath : spec.lookup "path" with
    | none => exact ⟨fun _ => trivial, fun _ => ⟨_, rfl, trivial⟩⟩
    | some value =>
      simp only
      cases hsafe : safePathOf W value with
      | error e =>
        rw [← safePathOf_error hsafe]
        constructor
        · rintro ⟨e', heq, hescapes⟩
          rwa [Except.error.inj heq]
        · intro hescapes
          exact ⟨e, rfl, hescapes⟩
      | ok path =>
        constructor
        · rintro ⟨e, heq, hescapes⟩
          simp only at heq
          split at heq
          · obtain rfl := Except.error.inj heq
            exact hescapes.elim
          · cases heq
        · rintro ⟨hfalsy, hname⟩
          unfold safePathOf at hsafe
          rw [hfalsy, if_neg Bool.false_ne_true] at hsafe
          cases value with
          | str name => exact absurd rfl (hname name)
          | _ => cases hsafe
  | _ => exact ⟨fun _ => trivial, fun _ => ⟨_, rfl, trivial⟩⟩

theorem nodup_specsOf (h : Each (FitsHeader W) items) :
    ((specsOf W items).map Prod.fst).Nodup := by
  induction items using List.reverseRecOn with
  | nil => exact List.nodup_nil
  | append_singleton items item ih =>
    obtain ⟨hitems, e, hdeclares, hnew⟩ := each_concat.mp h
    rw [specsOf_concat items hdeclares, List.map_append, List.nodup_append]
    refine ⟨ih hitems, List.nodup_singleton _, ?_⟩
    rintro path hpath _ hlast rfl
    rw [List.map_singleton, List.mem_singleton] at hlast
    exact hnew (hlast ▸ hpath)

end Declaring

/-! ## The archive -/

section Staging
variable {F : Type u} {W : Wire F} {fs : FileSystem} {declared : Declared F} {s s' : Staged}
  {spec : Members F} {path : String} {payload : Bytes} {info : Entry} {before entries : List Entry}

variable (W) in
def HasSize (spec : Members F) (size : Nat) : Prop := equalsNat W size (spec.lookup "size") = true

variable (W) in
def HasDigest (spec : Members F) (payload : Bytes) : Prop :=
  equalsText (W.sha256 payload) (spec.lookup "sha256") = true

theorem checkPayload_ok : checkPayload W fs s path spec payload = .ok s' ↔
    HasDigest W spec payload ∧ ∃ disk, stage fs s.disk path payload = some disk ∧
      s' = ⟨s.observed ++ [path], disk⟩ := by
  rw [checkPayload, HasDigest]
  cases spec.lookup "sha256" with
  | none => exact ⟨nofun, fun h => absurd h.1 nofun⟩
  | some digest =>
    simp only
    cases equalsText (W.sha256 payload) (some digest) with
    | false => exact ⟨nofun, fun h => absurd h.1 nofun⟩
    | true =>
      rw [Bool.not_true, if_neg Bool.false_ne_true]
      cases stage fs s.disk path payload with
      | none => exact ⟨nofun, fun h => absurd h.2.choose_spec.1 nofun⟩
      | some disk =>
        constructor
        · intro h
          exact ⟨rfl, disk, rfl, (Except.ok.inj h).symm⟩
        · rintro ⟨-, _, hdisk, rfl⟩
          rw [Option.some.inj hdisk]

theorem checkPayload_escapes :
    (∃ e, checkPayload W fs s path spec payload = .error e ∧ e.escapes) ↔
      spec.lookup "sha256" = none ∨
        HasDigest W spec payload ∧ stage fs s.disk path payload = none := by
  rw [checkPayload, HasDigest]
  cases spec.lookup "sha256" with
  | none => exact ⟨fun _ => Or.inl rfl, fun _ => ⟨_, rfl, trivial⟩⟩
  | some digest =>
    simp only
    cases equalsText (W.sha256 payload) (some digest) with
    | false =>
      constructor
      · rintro ⟨e, heq, hescapes⟩
        obtain rfl := Except.error.inj heq
        exact hescapes.elim
      · rintro (h | ⟨h, -⟩) <;> cases h
    | true =>
      rw [Bool.not_true, if_neg Bool.false_ne_true]
      cases stage fs s.disk path payload with
      | none => exact ⟨fun _ => Or.inr ⟨rfl, rfl⟩, fun _ => ⟨_, rfl, trivial⟩⟩
      | some disk =>
        constructor
        · rintro ⟨e, heq, -⟩
          cases heq
        · rintro (h | ⟨-, h⟩) <;> cases h

theorem checkMember_ok : checkMember W fs s info path spec = .ok s' ↔
    HasSize W spec info.size ∧ ∃ payload, info.content = some (.bytes payload) ∧
      checkPayload W fs s path spec payload = .ok s' := by
  rw [checkMember, HasSize]
  cases spec.lookup "size" with
  | none => exact ⟨nofun, fun h => absurd h.1 nofun⟩
  | some size =>
    simp only
    cases equalsNat W info.size (some size) with
    | false => exact ⟨nofun, fun h => absurd h.1 nofun⟩
    | true =>
      rw [Bool.not_true, if_neg Bool.false_ne_true]
      constructor
      · intro h
        split at h
        · cases h
        · cases h
        · cases h
        · rename_i payload hcontent
          exact ⟨rfl, payload, hcontent, h⟩
      · rintro ⟨-, payload, hcontent, h⟩
        rw [hcontent]
        exact h

theorem checkMember_escapes : (∃ e, checkMember W fs s info path spec = .error e ∧ e.escapes) ↔
    spec.lookup "size" = none ∨ HasSize W spec info.size ∧ (info.content = some .raised ∨
      ∃ payload, info.content = some (.bytes payload) ∧
        ∃ e, checkPayload W fs s path spec payload = .error e ∧ e.escapes) := by
  rw [checkMember, HasSize]
  cases spec.lookup "size" with
  | none => exact ⟨fun _ => Or.inl rfl, fun _ => ⟨_, rfl, trivial⟩⟩
  | some size =>
    simp only
    cases equalsNat W info.size (some size) with
    | false =>
      constructor
      · rintro ⟨e, heq, hescapes⟩
        obtain rfl := Except.error.inj heq
        exact hescapes.elim
      · rintro (h | ⟨h, -⟩) <;> cases h
    | true =>
      rw [Bool.not_true, if_neg Bool.false_ne_true]
      constructor
      · rintro ⟨e, heq, hescapes⟩
        split at heq
        · obtain rfl := Except.error.inj heq
          exact hescapes.elim
        · obtain rfl := Except.error.inj heq
          exact hescapes.elim
        · rename_i hcontent
          exact Or.inr ⟨rfl, Or.inl hcontent⟩
        · rename_i payload hcontent
          exact Or.inr ⟨rfl, Or.inr ⟨payload, hcontent, e, heq, hescapes⟩⟩
      · rintro (h | ⟨-, hcontent | ⟨payload, hcontent, e, heq, hescapes⟩⟩)
        · cases h
        · rw [hcontent]
          exact ⟨_, rfl, trivial⟩
        · rw [hcontent]
          exact ⟨e, heq, hescapes⟩

variable (declared) in
/-- The declared member an entry is the first to bring. -/
def Brings (observed : List String) (info : Entry) (path : String) (spec : Members F) : Prop :=
  info.kind = .regular ∧ safeMemberPath info.name = .ok path ∧
    declared.lookup path = some spec ∧ path ∉ observed

theorem stageEntry_ok : stageEntry W fs declared s info = .ok s' ↔
    info.kind = .directory ∧ s' = s ∨ ∃ path spec, Brings declared s.observed info path spec ∧
      checkMember W fs s info path spec = .ok s' := by
  unfold stageEntry Brings
  cases info.kind with
  | directory =>
    constructor
    · intro h
      exact Or.inl ⟨rfl, (Except.ok.inj h).symm⟩
    · rintro (⟨-, rfl⟩ | ⟨_, _, ⟨hkind, -⟩, -⟩)
      · rfl
      · cases hkind
  | other =>
    refine ⟨nofun, ?_⟩
    rintro (⟨hkind, -⟩ | ⟨_, _, ⟨hkind, -⟩, -⟩) <;> cases hkind
  | regular =>
    cases hsafe : safeMemberPath info.name with
    | error e =>
      refine ⟨nofun, ?_⟩
      rintro (⟨hkind, -⟩ | ⟨_, _, ⟨-, hsafe', -⟩, -⟩)
      · cases hkind
      · cases hsafe'
    | ok path =>
      simp only
      constructor
      · intro h
        split at h
        · cases h
        · rename_i spec hspec
          split at h
          · cases h
          · rename_i hnew
            exact Or.inr ⟨path, spec, ⟨trivial, rfl, hspec, hnew⟩, h⟩
      · rintro (⟨hkind, -⟩ | ⟨path', spec, ⟨-, hpath, hspec, hnew⟩, h⟩)
        · cases hkind
        · obtain rfl := Except.ok.inj hpath
          rw [hspec]
          simp only
          rw [if_neg hnew]
          exact h

theorem stageEntry_escapes :
    (∃ e, stageEntry W fs declared s info = .error e ∧ e.escapes) ↔
      ∃ path spec, Brings declared s.observed info path spec ∧
        ∃ e, checkMember W fs s info path spec = .error e ∧ e.escapes := by
  unfold stageEntry Brings
  cases info.kind with
  | directory =>
    constructor
    · rintro ⟨e, heq, -⟩
      cases heq
    · rintro ⟨_, _, ⟨hkind, -⟩, -⟩
      cases hkind
  | other =>
    constructor
    · rintro ⟨e, heq, hescapes⟩
      obtain rfl := Except.error.inj heq
      exact hescapes.elim
    · rintro ⟨_, _, ⟨hkind, -⟩, -⟩
      cases hkind
  | regular =>
    cases hsafe : safeMemberPath info.name with
    | error e =>
      constructor
      · rintro ⟨e, heq, hescapes⟩
        obtain rfl := Except.error.inj heq
        exact hescapes.elim
      · rintro ⟨_, _, ⟨-, hsafe', -⟩, -⟩
        cases hsafe'
    | ok path =>
      simp only
      constructor
      · rintro ⟨e, heq, hescapes⟩
        split at heq
        · obtain rfl := Except.error.inj heq
          exact hescapes.elim
        · rename_i spec hspec
          split at heq
          · obtain rfl := Except.error.inj heq
            exact hescapes.elim
          · rename_i hnew
            exact ⟨path, spec, ⟨trivial, rfl, hspec, hnew⟩, e, heq, hescapes⟩
      · rintro ⟨path', spec, ⟨-, hpath, hspec, hnew⟩, e, heq, hescapes⟩
        obtain rfl := Except.ok.inj hpath
        rw [hspec]
        simp only
        rw [if_neg hnew]
        exact ⟨e, heq, hescapes⟩

/-- The file an entry carries. -/
def carried (info : Entry) : Option (String × Bytes) :=
  match info.kind, safeMemberPath info.name, info.content with
  | .regular, .ok path, some (.bytes payload) => some (path, payload)
  | _, _, _ => none

def carriedBy (entries : List Entry) : List (String × Bytes) := entries.filterMap carried

variable (fs) in
def stagedBy (entries : List Entry) : Staged :=
  ⟨(carriedBy entries).map Prod.fst, diskOf fs (carriedBy entries)⟩

variable (W fs declared) in
/-- An entry that is a directory, or the first to bring a declared member with the size and the
digest declared for it, with room for it. -/
def FitsArchive (before : List Entry) (info : Entry) : Prop :=
  info.kind = .directory ∨ ∃ path spec payload,
    Brings declared ((carriedBy before).map Prod.fst) info path spec ∧ HasSize W spec info.size ∧
      info.content = some (.bytes payload) ∧ HasDigest W spec payload ∧
        Room fs (carriedBy before) path

variable (W fs declared) in
/-- An entry that brings a declared member whose spec has no size; or one of the declared size
whose data cannot be read; or one whose spec has no digest; or one of the declared digest for which
there is no room. -/
def Trips (before : List Entry) (info : Entry) : Prop :=
  ∃ path spec, Brings declared ((carriedBy before).map Prod.fst) info path spec ∧
    (spec.lookup "size" = none ∨ HasSize W spec info.size ∧ (info.content = some .raised ∨
      ∃ payload, info.content = some (.bytes payload) ∧ (spec.lookup "sha256" = none ∨
        HasDigest W spec payload ∧ ¬ Room fs (carriedBy before) path)))

theorem carried_file (hkind : info.kind = .regular) (hsafe : safeMemberPath info.name = .ok path)
    (hcontent : info.content = some (.bytes payload)) : carried info = some (path, payload) := by
  rw [carried, hkind, hsafe, hcontent]

theorem carriedBy_concat (before : List Entry) (info : Entry) :
    carriedBy (before ++ [info]) = carriedBy before ++ (carried info).toList := by
  rw [carriedBy, List.filterMap_append, List.filterMap_cons]
  cases carried info <;> rfl

theorem stageEntry_follows :
    Follows (stageEntry W fs declared) (stagedBy fs) (FitsArchive W fs declared) := by
  intro before _ info acc
  rw [stageEntry_ok, FitsArchive]
  constructor
  · rintro (⟨hkind, rfl⟩ | ⟨path, spec, hbrings, hcheck⟩)
    · have hcarried : carried info = none := by
        rw [carried, hkind]
      refine ⟨Or.inl hkind, ?_⟩
      rw [stagedBy, stagedBy, carriedBy_concat, hcarried, Option.toList_none, List.append_nil]
    · obtain ⟨hsize, payload, hcontent, hpayload⟩ := checkMember_ok.mp hcheck
      obtain ⟨hdigest, disk, hstage, rfl⟩ := checkPayload_ok.mp hpayload
      obtain ⟨hroom, rfl⟩ := stage_eq_some.mp hstage
      have hcarried := carried_file hbrings.1 hbrings.2.1 hcontent
      refine ⟨Or.inr ⟨path, spec, payload, hbrings, hsize, hcontent, hdigest, hroom⟩, ?_⟩
      rw [stagedBy, stagedBy, carriedBy_concat, hcarried, Option.toList_some, List.map_append]
      rfl
  · rintro ⟨hkind | ⟨path, spec, payload, hbrings, hsize, hcontent, hdigest, hroom⟩, rfl⟩
    · have hcarried : carried info = none := by
        rw [carried, hkind]
      refine Or.inl ⟨hkind, ?_⟩
      rw [stagedBy, stagedBy, carriedBy_concat, hcarried, Option.toList_none, List.append_nil]
    · have hcarried := carried_file hbrings.1 hbrings.2.1 hcontent
      refine Or.inr ⟨path, spec, hbrings, checkMember_ok.mpr ⟨hsize, payload, hcontent,
        checkPayload_ok.mpr ⟨hdigest, _, stage_eq_some.mpr ⟨hroom, rfl⟩, ?_⟩⟩⟩
      rw [stagedBy, stagedBy, carriedBy_concat, hcarried, Option.toList_some, List.map_append]
      rfl

theorem stageEntry_trips :
    (∃ e, stageEntry W fs declared (stagedBy fs before) info = .error e ∧ e.escapes) ↔
      Trips W fs declared before info := by
  rw [stageEntry_escapes, Trips]
  simp only [checkMember_escapes, checkPayload_escapes, stagedBy, stage_eq_none]

/-- What a scan of the archive that got through has staged. -/
structure Orderly (W : Wire F) (fs : FileSystem) (declared : Declared F)
    (files : List (String × Bytes)) : Prop where
  once : (files.map Prod.fst).Nodup
  declared : ∀ e ∈ files, ∃ spec, declared.lookup e.1 = some spec ∧ HasDigest W spec e.2
  named : ∀ e ∈ files, ∀ part ∈ partsOf e.1, fs.names part = true
  apart : ∀ e ∈ files, ∀ e' ∈ files, ¬ Clash fs e.1 e'.1

theorem orderly (h : Each (FitsArchive W fs declared) entries) :
    Orderly W fs declared (carriedBy entries) := by
  induction entries using List.reverseRecOn with
  | nil => exact ⟨List.nodup_nil, nofun, nofun, nofun⟩
  | append_singleton entries info ih =>
    obtain ⟨hentries, hfits⟩ := each_concat.mp h
    have hbefore := ih hentries
    rw [carriedBy_concat]
    rcases hfits with hkind | ⟨path, spec, payload, hbrings, -, hcontent, hdigest, hroom⟩
    · have hcarried : carried info = none := by
        rw [carried, hkind]
      rwa [hcarried, Option.toList_none, List.append_nil]
    · rw [carried_file hbrings.1 hbrings.2.1 hcontent, Option.toList_some]
      have hmem : ∀ e ∈ carriedBy entries ++ [(path, payload)],
          e ∈ carriedBy entries ∨ e = (path, payload) := by
        intro e he
        rw [List.mem_append, List.mem_singleton] at he
        exact he
      constructor
      · rw [List.map_append, List.nodup_append]
        refine ⟨hbefore.once, List.nodup_singleton _, ?_⟩
        rintro p hp _ hlast rfl
        rw [List.map_singleton, List.mem_singleton] at hlast
        rw [hlast] at hp
        exact hbrings.2.2.2 hp
      · intro e he
        rcases hmem e he with he | rfl
        · exact hbefore.declared e he
        · exact ⟨spec, hbrings.2.2.1, hdigest⟩
      · intro e he
        rcases hmem e he with he | rfl
        · exact hbefore.named e he
        · exact hroom.1
      · intro e he e' he'
        rcases hmem e he with he | rfl
        · rcases hmem e' he' with he' | rfl
          · exact hbefore.apart e he e' he'
          · exact fun hclash => hroom.2 e he hclash.symm
        · rcases hmem e' he' with he' | rfl
          · exact hroom.2 e' he'
          · exact not_clash_self

variable {reading : Reading}

theorem stageArchive_ok : stageArchive W fs declared reading [] = .ok s ↔
    Each (FitsArchive W fs declared) reading.entries ∧ reading.ending = .done ∧
      (∀ path ∈ declared.map Prod.fst, path ∈ (carriedBy reading.entries).map Prod.fst) ∧
        s = stagedBy fs reading.entries := by
  have hstart : (⟨[], []⟩ : Staged) = stagedBy fs [] := rfl
  rw [stageArchive, hstart]
  cases hscan : reading.entries.foldlM (stageEntry W fs declared) (stagedBy fs []) with
  | error e =>
    refine ⟨nofun, fun h => ?_⟩
    rw [stageEntry_follows.ok_iff.mpr ⟨h.1, rfl⟩] at hscan
    cases hscan
  | ok staged =>
    obtain ⟨hfits, rfl⟩ := stageEntry_follows.ok_iff.mp hscan
    cases reading.ending with
    | tarError => exact ⟨nofun, fun h => absurd h.2.1 nofun⟩
    | raised => exact ⟨nofun, fun h => absurd h.2.1 nofun⟩
    | done =>
      simp only [List.all_eq_true, decide_eq_true_eq]
      constructor
      · intro h
        split at h
        · rename_i hall
          exact ⟨hfits, trivial, hall, (Except.ok.inj h).symm⟩
        · cases h
      · rintro ⟨-, -, hall, rfl⟩
        exact if_pos hall

theorem stageArchive_escapes :
    (∃ e, stageArchive W fs declared reading [] = .error e ∧ e.escapes) ↔
      (∃ before info after, reading.entries = before ++ info :: after ∧
        Each (FitsArchive W fs declared) before ∧ Trips W fs declared before info) ∨
      Each (FitsArchive W fs declared) reading.entries ∧ reading.ending = .raised := by
  have hstart : (⟨[], []⟩ : Staged) = stagedBy fs [] := rfl
  have hscans : (∃ e, reading.entries.foldlM (stageEntry W fs declared) (stagedBy fs []) = .error e ∧
      e.escapes) ↔ ∃ before info after, reading.entries = before ++ info :: after ∧
        Each (FitsArchive W fs declared) before ∧ Trips W fs declared before info := by
    simp only [← stageEntry_trips]
    constructor
    · rintro ⟨e, hscan, hescapes⟩
      obtain ⟨before, info, after, heq, hfits, hinfo⟩ := stageEntry_follows.error_iff.mp hscan
      exact ⟨before, info, after, heq, hfits, e, hinfo, hescapes⟩
    · rintro ⟨before, info, after, heq, hfits, e, hinfo, hescapes⟩
      exact ⟨e, stageEntry_follows.error_iff.mpr ⟨before, info, after, heq, hfits, hinfo⟩, hescapes⟩
  rw [← hscans, stageArchive, hstart]
  cases hscan : reading.entries.foldlM (stageEntry W fs declared) (stagedBy fs []) with
  | error e =>
    have hnot : ¬ Each (FitsArchive W fs declared) reading.entries := by
      intro hfits
      rw [stageEntry_follows.ok_iff.mpr ⟨hfits, rfl⟩] at hscan
      cases hscan
    exact ⟨fun h => Or.inl h, fun h => h.resolve_right fun hand => hnot hand.1⟩
  | ok staged =>
    obtain ⟨hfits, rfl⟩ := stageEntry_follows.ok_iff.mp hscan
    have hno : ¬ ∃ e, (Except.ok (stagedBy fs reading.entries) : Except Raised Staged) = .error e ∧
        e.escapes := fun ⟨e, heq, _⟩ => absurd heq nofun
    rw [or_iff_right hno]
    cases reading.ending with
    | tarError =>
      constructor
      · rintro ⟨e, heq, hescapes⟩
        obtain rfl := Except.error.inj heq
        exact hescapes.elim
      · exact fun h => absurd h.2 nofun
    | raised => exact ⟨fun _ => ⟨hfits, rfl⟩, fun _ => ⟨_, rfl, trivial⟩⟩
    | done =>
      constructor
      · rintro ⟨e, heq, hescapes⟩
        simp only at heq
        split at heq
        · cases heq
        · obtain rfl := Except.error.inj heq
          exact hescapes.elim
      · exact fun h => absurd h.2 nofun

end Staging

end Remrun.Frames
