import Remrun.Lib.JsonText
import Remrun.Reconcile.Manifest

/-!
# Baselines on disk

A manifest is written as a JSON object from paths to the comparable parts of their entries. What
is read back carries each key as the path of its entry, and no mode.
-/

namespace Remrun.Reconcile

open Keyed JsonText
set_option autoImplicit false

/-- The values of a state file; nothing writes a floating-point number into one. -/
abbrev StoredValue := Value Empty

/-! ## Writing -/

def digestJson : Option String → StoredValue
  | none => .null
  | some digest => .str digest

def FileEntry.members (entry : FileEntry) : List (String × StoredValue) := [
  ("kind", .str entry.kind), ("size", .int entry.size), ("mtime_ns", .int entry.mtimeNs),
  ("sha256", digestJson entry.sha256)]

def FileEntry.toJson (entry : FileEntry) : StoredValue := .obj entry.members

/-- `manifest_to_json`. -/
def manifestToJson (manifest : Manifest) : StoredValue := .obj [
  ("version", .int 1),
  ("files", .obj ((sortMembers manifest.rows).map fun row => (row.1, row.2.toJson)))]

/-- What `read_json` finds in the file of `write_manifest`: `write_json` sorts the keys. -/
def writeManifest (manifest : Manifest) : StoredValue := (manifestToJson manifest).sorted

/-- What `read_json` finds in the file of `write_baseline`. -/
def writeBaseline (localManifest remoteManifest : Manifest) : StoredValue :=
  (Value.obj [("version", .int 1), ("local", manifestToJson localManifest),
    ("remote", manifestToJson remoteManifest)] : StoredValue).sorted

/-! ## Reading -/

def truthy : StoredValue → Bool
  | .null => false
  | .bool value => value
  | .int value => value ≠ 0
  | .str value => value ≠ ""
  | .arr items => !items.isEmpty
  | .obj members => !members.isEmpty

/-- `members.get(name, default)`. -/
def field (members : List (String × StoredValue)) (name : String) (default : StoredValue) :
    StoredValue :=
  (members.lookup name).getD default

section Reading
variable (parse : String → Option Int)

/-- `int(value)`; `parse` is `int` of a text. -/
def toInt : StoredValue → Option Int
  | .bool value => some value.toInt
  | .int value => some value
  | .str value => parse value
  | _ => none

/-- The entry under a path: `none` where reading it raises, or where a member has a type or a
sign that no entry has. -/
def readEntry (path : String) : StoredValue → Option FileEntry
  | .obj members => do
    let size ← toInt parse (field members "size" (.int 0))
    let mtimeNs ← toInt parse (field members "mtime_ns" (.int 0))
    match field members "kind" (.str "file"), field members "sha256" .null, size with
    | .str kind, .null, .ofNat size => some ⟨path, kind, size, mtimeNs, none, none⟩
    | .str kind, .str digest, .ofNat size => some ⟨path, kind, size, mtimeNs, some digest, none⟩
    | _, _, _ => none
  | _ => none

/-- `manifest_from_json`. -/
def manifestFromJson (data : StoredValue) : Option Manifest :=
  if truthy data then
    match data with
    | .obj members =>
      match field members "files" (.obj []) with
      | .obj files => files.foldlM (fun out row => do
          let entry ← readEntry parse row.1 row.2
          return out.set row.1 entry) Dict.empty
      | _ => none
    | _ => none
  else some Dict.empty

/-- `read_manifest`. -/
def readManifest (file : Option StoredValue) : Option Manifest :=
  manifestFromJson parse (file.getD .null)

/-- `read_baseline`. -/
def readBaseline (file : Option StoredValue) : Option (Option Manifest × Option Manifest) :=
  match file with
  | none => some (none, none)
  | some data =>
    if truthy data then
      match data with
      | .obj members => do
        let localManifest ← manifestFromJson parse (field members "local" .null)
        let remoteManifest ← manifestFromJson parse (field members "remote" .null)
        return (some localManifest, some remoteManifest)
      | _ => none
    else some (none, none)

end Reading

/-! ## Reading back -/

/-- A member of an object that was written. -/
theorem field_sorted {members : List (String × StoredValue)} (h : (members.map Prod.fst).Nodup)
    {name : String} {value : StoredValue} (hmem : (name, value) ∈ members)
    (default : StoredValue) :
    field (sortMembers (sortedMembers members)) name default = value.sorted := by
  have hkeys : (sortedMembers members).map Prod.fst = members.map Prod.fst := by
    rw [sortedMembers_eq, List.map_map]
    rfl
  have hmem' : (name, value.sorted) ∈ sortedMembers members := by
    rw [sortedMembers_eq]
    exact List.mem_map_of_mem (f := fun m : String × StoredValue => (m.1, m.2.sorted)) hmem
  rw [← hkeys] at h
  rw [field, lookup_sortMembers h, (lookup_eq_some h).mpr hmem', Option.getD_some]

/-- The entry as it comes back under a key. -/
def FileEntry.restored (key : String) (entry : FileEntry) : FileEntry :=
  { entry with path := key, mode := none }

/-- The manifest as it comes back. -/
def restored (manifest : Manifest) : Manifest :=
  (sortMembers manifest.rows).foldl (fun out row => out.set row.1 (row.2.restored row.1))
    Dict.empty

variable (parse : String → Option Int)

theorem readEntry_toJson (key : String) (entry : FileEntry) :
    readEntry parse key entry.toJson.sorted = some (entry.restored key) := by
  have hmember : ∀ name value default, (name, value) ∈ entry.members →
      field (sortMembers (sortedMembers entry.members)) name default = value.sorted :=
    fun _ _ default hmem => field_sorted (by simp [FileEntry.members]) hmem default
  rw [FileEntry.toJson, Value.sorted, readEntry,
    hmember "size" (.int entry.size) _ (by simp [FileEntry.members]),
    hmember "mtime_ns" (.int entry.mtimeNs) _ (by simp [FileEntry.members]),
    hmember "kind" (.str entry.kind) _ (by simp [FileEntry.members]),
    hmember "sha256" (digestJson entry.sha256) _ (by simp [FileEntry.members])]
  cases hsha : entry.sha256 with
  | none => simp [toInt, Value.sorted, digestJson, FileEntry.restored, hsha]
  | some digest => simp [toInt, Value.sorted, digestJson, FileEntry.restored, hsha]

/-- The members of a written manifest, in the order of their paths. -/
theorem sorted_files (manifest : Manifest) :
    sortMembers (sortedMembers ((sortMembers manifest.rows).map fun row => (row.1, row.2.toJson))) =
      (sortMembers manifest.rows).map fun row => (row.1, row.2.toJson.sorted) := by
  rw [sortedMembers_eq, List.map_map]
  calc sortMembers ((sortMembers manifest.rows).map fun row => (row.1, row.2.toJson.sorted))
      = (sortMembers (sortMembers manifest.rows)).map fun row => (row.1, row.2.toJson.sorted) :=
        (map_sortMembers (fun row : String × FileEntry => (row.1, row.2.toJson.sorted))
          (fun _ => rfl) _).symm
    _ = _ := by rw [sortMembers_sortMembers]

theorem truthy_sorted {members : List (String × StoredValue)} (h : members ≠ []) :
    truthy (Value.obj members).sorted = true := by
  rw [Value.sorted, truthy, Bool.not_eq_true', List.isEmpty_eq_false_iff, ne_eq,
    sortMembers_nil_iff, sortedMembers_eq, List.map_eq_nil_iff]
  exact h

theorem manifestFromJson_written (manifest : Manifest) :
    manifestFromJson parse (manifestToJson manifest).sorted = some (restored manifest) := by
  have hfiles : ∀ files default, field (sortMembers (sortedMembers
      [("version", .int 1), ("files", .obj files)])) "files" default = (Value.obj files).sorted :=
    fun _ default => field_sorted (by simp) (by simp) default
  unfold manifestFromJson manifestToJson
  rw [if_pos (truthy_sorted (by simp))]
  simp only [Value.sorted, hfiles]
  rw [sorted_files, List.foldlM_map]
  simp only [readEntry_toJson]
  exact List.foldlM_pure (m := Option)

theorem readManifest_written (manifest : Manifest) :
    readManifest parse (some (writeManifest manifest)) = some (restored manifest) :=
  manifestFromJson_written parse manifest

theorem readBaseline_written (localManifest remoteManifest : Manifest) :
    readBaseline parse (some (writeBaseline localManifest remoteManifest)) =
      some (some (restored localManifest), some (restored remoteManifest)) := by
  have hmember : ∀ name value, (name, value) ∈ [("version", (.int 1 : StoredValue)),
      ("local", manifestToJson localManifest), ("remote", manifestToJson remoteManifest)] →
      field (sortMembers (sortedMembers [("version", .int 1),
        ("local", manifestToJson localManifest), ("remote", manifestToJson remoteManifest)]))
        name .null = value.sorted :=
    fun _ _ hmem => field_sorted (by simp) hmem .null
  unfold readBaseline writeBaseline
  dsimp only
  rw [if_pos (truthy_sorted (by simp))]
  simp only [Value.sorted]
  rw [hmember "local" (manifestToJson localManifest) (by simp),
    hmember "remote" (manifestToJson remoteManifest) (by simp), manifestFromJson_written,
    manifestFromJson_written]
  rfl

theorem get_restored (manifest : Manifest) (key : String) :
    (restored manifest).get key = (manifest.get key).map (FileEntry.restored key) := by
  have hnodup : (((sortMembers manifest.rows).map fun row =>
      (row.1, row.2.restored row.1)).map Prod.fst).Nodup := by
    rw [List.map_map]
    exact nodup_sortMembers manifest.nodup
  apply Option.ext
  intro entry
  have hget := get_foldl_set id ((sortMembers manifest.rows).map fun row =>
    (row.1, row.2.restored row.1)) Dict.empty key entry hnodup
  rw [List.foldl_map] at hget
  rw [restored, Option.map_eq_some_iff]
  refine hget.trans ?_
  constructor
  · rintro (⟨v, hv, rfl⟩ | ⟨_, hempty⟩)
    · obtain ⟨⟨path, entry⟩, hmem, heq⟩ := List.mem_map.mp hv
      obtain ⟨rfl, rfl⟩ := Prod.mk.inj heq
      exact ⟨entry, Dict.get_eq_some.mpr ⟨path, mem_sortMembers.mp hmem, rfl⟩, rfl⟩
    · simp at hempty
  · rintro ⟨entry, hentry, rfl⟩
    obtain ⟨path, hmem, rfl⟩ := Dict.get_eq_some.mp hentry
    exact Or.inl ⟨_, List.mem_map.mpr ⟨_, mem_sortMembers.mpr hmem, rfl⟩, rfl⟩

/-! ## Entries under their own keys -/

/-- Every entry stands under its own path. -/
def OwnPaths (manifest : Manifest) : Prop :=
  ∀ key entry, manifest.get key = some entry → entry.path = key

def FileEntry.withoutMode (entry : FileEntry) : FileEntry := { entry with mode := none }

/-- The same manifest up to the modes. -/
def SameButModes (manifest back : Manifest) : Prop :=
  ∀ key, back.get key = (manifest.get key).map FileEntry.withoutMode

theorem sameButModes_restored_iff (manifest : Manifest) :
    SameButModes manifest (restored manifest) ↔ OwnPaths manifest := by
  constructor
  · intro h key entry hentry
    have hback := h key
    rw [get_restored, hentry] at hback
    injection hback with hback
    exact congrArg FileEntry.path hback.symm
  · intro h key
    rw [get_restored]
    cases hentry : manifest.get key with
    | none => rfl
    | some entry =>
      rw [← h key entry hentry]
      rfl

theorem ownPaths_restored (manifest : Manifest) : OwnPaths (restored manifest) := by
  intro key entry hentry
  rw [get_restored, Option.map_eq_some_iff] at hentry
  obtain ⟨_, _, rfl⟩ := hentry
  rfl

theorem ownPaths_empty : OwnPaths Dict.empty := by
  intro key entry hentry
  simp at hentry

theorem OwnPaths.set {manifest : Manifest} (h : OwnPaths manifest) {key : String}
    {entry : FileEntry} (hentry : entry.path = key) : OwnPaths (manifest.set key entry) := by
  intro key' entry' hget
  rw [Dict.get_set] at hget
  split at hget
  · rename_i hkey
    rw [← Option.some.inj hget, hentry]
    exact hkey.symm
  · exact h key' entry' hget

theorem OwnPaths.pop {manifest : Manifest} (h : OwnPaths manifest) (key : String) :
    OwnPaths (manifest.pop key) := by
  intro key' entry' hget
  rw [Dict.get_pop] at hget
  split at hget
  · simp at hget
  · exact h key' entry' hget

/-- A pair of manifests whose entries stand under their own paths, and which a baseline file
gives back. -/
structure Represented (parse : String → Option Int) (localManifest remoteManifest : Manifest) :
    Prop where
  localPaths : OwnPaths localManifest
  remotePaths : OwnPaths remoteManifest
  restores : ∃ localBack remoteBack,
    readBaseline parse (some (writeBaseline localManifest remoteManifest)) =
      some (some localBack, some remoteBack) ∧
    SameButModes localManifest localBack ∧ SameButModes remoteManifest remoteBack

theorem represented_iff {localManifest remoteManifest : Manifest} :
    Represented parse localManifest remoteManifest ↔
      OwnPaths localManifest ∧ OwnPaths remoteManifest := by
  constructor
  · exact fun h => ⟨h.localPaths, h.remotePaths⟩
  · rintro ⟨hlocal, hremote⟩
    exact ⟨hlocal, hremote, _, _, readBaseline_written parse _ _,
      (sameButModes_restored_iff _).mpr hlocal, (sameButModes_restored_iff _).mpr hremote⟩

end Remrun.Reconcile
