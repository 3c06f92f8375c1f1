import Remrun.Reconcile.Quiet
import Remrun.Reconcile.Sync

/-!
# Reading and writing beside other writers

What one call can rely on while others write the remote tree: a path that they leave alone
is reported alike by every manifest, and keeps its file through the writes of the call to
other files.
-/

namespace Remrun.Reconcile

open Keyed Effect
set_option autoImplicit false

section Interference
variable {P : Platform} {env : Env P} {α β : Type} {I : World P → Prop}

/-! ## Looks -/

theorem triple_inspect (hI : Steady env I) (message : String) (read : World P → α) :
    Triple I (inspect env message read) (fun a w => I w ∧ a = read w) (fun _ => I) :=
  triple_tryCatch ((triple_look hI (fun _ _ _ => id) read).post fun _ _ h => ⟨h.2, h.1⟩) fun _ =>
    triple_throw fun _ => id

theorem triple_hashOrRaise (hI : Steady env I) {side : Side} {rel message : String}
    {bytes : Bytes} (h : ∀ w, I w → (w.node side rel).bind Node.contents = some bytes) :
    Triple I (hashOrRaise env side rel message) (fun a w => I w ∧ a = P.sha256 bytes)
      (fun _ => I) := by
  refine triple_bind (triple_inspect hI _ _) fun answer => ?_
  rintro w ⟨hw, rfl⟩
  rw [h w hw]
  exact ⟨hw, rfl⟩

/-- The digest that a manifest records. -/
def digestOf (P : Platform) (s : Surface) (bytes : Bytes) : Option String :=
  if s.hashes bytes.length then some (P.sha256 bytes) else none

theorem triple_hashIf (hI : Steady env I) {s : Surface} {side : Side} {rel message : String}
    {bytes : Bytes} (h : ∀ w, I w → (w.node side rel).bind Node.contents = some bytes) :
    Triple I (hashIf env (s.hashes bytes.length) side rel message)
      (fun a w => I w ∧ a = digestOf P s bytes) (fun _ => I) := by
  unfold hashIf digestOf
  split
  · exact triple_map ((triple_hashOrRaise hI h).post fun _ _ h => ⟨h.1, congrArg some h.2⟩)
  · exact triple_pure fun _ hw => ⟨hw, rfl⟩

/-! ## Every manifest -/

/-- What a manifest of the tree can hold. -/
structure Manifest.Built (P : Platform) (s : Surface) (manifest : Manifest) : Prop where
  covered : ∀ rel entry, manifest.get rel = some entry → s.covers P rel = true
  kind : ∀ rel entry, manifest.get rel = some entry → entry.kind = "file"
  hashed : ∀ rel entry, manifest.get rel = some entry → s.hashes entry.size = true →
    ∃ digest, entry.sha256 = some digest

theorem Manifest.built_empty (s : Surface) : Manifest.Built P s Dict.empty where
  covered := fun _ _ h => by simp at h
  kind := fun _ _ h => by simp at h
  hashed := fun _ _ h => by simp at h

theorem Manifest.Built.set {s : Surface} {manifest : Manifest} (h : manifest.Built P s)
    {rel : String} {entry : FileEntry} (hcovers : s.covers P rel = true)
    (hkind : entry.kind = "file")
    (hhash : s.hashes entry.size = true → ∃ digest, entry.sha256 = some digest) :
    Manifest.Built P s (manifest.set rel entry) := by
  have hcases : ∀ rel' entry', (manifest.set rel entry).get rel' = some entry' →
      (rel' = rel ∧ entry' = entry) ∨ manifest.get rel' = some entry' := by
    intro rel' entry' hget
    rw [Dict.get_set] at hget
    split at hget
    · rename_i heq
      exact Or.inl ⟨heq, (Option.some.inj hget).symm⟩
    · exact Or.inr hget
  refine ⟨fun rel' entry' hget => ?_, fun rel' entry' hget => ?_, fun rel' entry' hget => ?_⟩
  all_goals rcases hcases rel' entry' hget with ⟨rfl, rfl⟩ | hold
  exacts [hcovers, h.covered _ _ hold, hkind, h.kind _ _ hold, hhash, h.hashed _ _ hold]

theorem addEntry_built (env : Env P) {s : Surface} {side : Side} {manifest : Manifest}
    {rel : String} (h : manifest.Built P s) (hcovers : s.covers P rel = true) :
    Yields (addEntry env s side manifest rel) (Manifest.Built P s) := by
  refine yields_bind (yields_any _) fun node _ => ?_
  split
  · split
    · exact yields_pure h
    · exact yields_throw _
  · rename_i bytes mtimeNs mode
    have hdigest : Yields (hashIf env (s.hashes bytes.length) side rel
        ("file changed while hashing " ++ rel ++ "; retry the command"))
        fun digest => s.hashes bytes.length = true → ∃ text, digest = some text := by
      unfold hashIf
      split
      · exact yields_map ((yields_any _).post fun a _ _ _ => ⟨a, rfl⟩)
      · rename_i hno
        exact yields_pure fun hyes => absurd hyes hno
    exact yields_bind hdigest fun digest hd => yields_pure (h.set hcovers rfl hd)
  · exact yields_pure h

theorem buildManifest_built (env : Env P) (s : Surface) (side : Side) :
    Yields (buildManifest env s side) (Manifest.Built P s) := by
  refine yields_bind (yields_any _) fun listing _ => ?_
  split
  · exact yields_pure (Manifest.built_empty s)
  · split
    · exact yields_throw _
    · exact yields_pure (Manifest.built_empty s)
  · rename_i names
    refine yields_foldlM (fun _ => Manifest.Built P s) (Manifest.built_empty s) ?_
    intro done rel rest manifest hsplit hbuilt
    have hmem : rel ∈ names.filter (s.covers P) := by
      rw [hsplit]
      exact List.mem_append_right _ List.mem_cons_self
    exact addEntry_built env hbuilt (List.mem_filter.mp hmem).2

theorem addEntry_keys (env : Env P) {s : Surface} {side : Side} {manifest : Manifest}
    {rel : String} : Yields (addEntry env s side manifest rel)
      fun manifest' => ∀ q ∈ manifest'.keys, q ∈ manifest.keys ∨ q = rel := by
  refine yields_bind (yields_any _) fun node _ => ?_
  split
  · split
    · exact yields_pure fun _ => Or.inl
    · exact yields_throw _
  · refine yields_bind (yields_any _) fun digest _ => yields_pure fun q hq => ?_
    exact (Dict.mem_keys_set.mp hq).imp_right And.left
  · exact yields_pure fun _ => Or.inl

/-- The manifest lists no two names of one remote file. -/
def Distinct (key : String → String) (paths : List String) : Prop :=
  ∀ p ∈ paths, ∀ q ∈ paths, key p = key q → p = q

theorem distinct_keys {key : String → String} (files : Dict key α) : Distinct key files.keys := by
  intro p hp q hq hkey
  obtain ⟨e, he, rfl⟩ := List.mem_map.mp hp
  obtain ⟨f, hf, rfl⟩ := List.mem_map.mp hq
  rw [List.inj_on_of_nodup_map files.nodup he hf hkey]

theorem buildManifest_distinct (env : Env P) (s : Surface) :
    Yields (buildManifest env s .target) fun manifest => Distinct P.remoteKey manifest.keys := by
  have hlisting : Yields (inspect env "cannot scan a directory" fun w => w.listing .target)
      fun listing => ∀ names, listing = .names names → Distinct P.remoteKey names := by
    refine (triple_inspect (fun _ _ => trivial) _ _).conseq (fun _ _ => trivial) ?_
      fun _ _ _ => trivial
    rintro listing w ⟨_, rfl⟩ names hnames
    simp only [World.listing, Root.listing] at hnames
    split at hnames
    · simp at hnames
    · simp at hnames
    · rename_i files _
      rw [← Listing.names.inj hnames]
      exact distinct_keys files
  refine yields_bind hlisting fun listing hlist => ?_
  split
  · exact yields_pure fun p hp => absurd hp List.not_mem_nil
  · exact yields_pure fun p hp => absurd hp List.not_mem_nil
  · rename_i names
    have hsub : Yields ((names.filter (s.covers P)).foldlM (addEntry env s .target) Dict.empty)
        fun manifest => ∀ q ∈ manifest.keys, q ∈ names.filter (s.covers P) := by
      refine yields_foldlM (fun done (manifest : Manifest) => ∀ q ∈ manifest.keys, q ∈ done)
        (fun q hq => absurd hq List.not_mem_nil) ?_
      intro done rel rest manifest _ hsubset
      refine (addEntry_keys env).post fun manifest' _ hkeys q hq => ?_
      rcases hkeys q hq with hq | rfl
      · exact List.mem_append_left _ (hsubset q hq)
      · exact List.mem_append_right _ List.mem_cons_self
    refine hsub.post fun manifest _ hsubset p hp q hq => ?_
    exact hlist names rfl p (List.mem_filter.mp (hsubset p hp)).1 q
      (List.mem_filter.mp (hsubset q hq)).1

/-! ## A path that other writers leave alone -/

/-- The regular file that a listing shows under exactly this name. -/
def Root.shown {key : String → String} (root : Root key) (rel : String) : Option Bytes :=
  if root.Lists rel then root.file rel else none

/-- From a step on, other writers of the remote tree neither change the file at a path nor
what name it is listed under. -/
def Env.Leaves (env : Env P) (start : Nat) (rel : String) : Prop :=
  ∀ n root, start ≤ n → (env.disturbRemote n root).file rel = root.file rel ∧
    ((env.disturbRemote n root).Lists rel ↔ root.Lists rel)

/-- The remote tree shows the file, at a step within the window. -/
structure Shows (start : Nat) (rel : String) (bytes : Option Bytes) (w : World P) : Prop where
  within : start ≤ w.calls
  shown : w.remoteRoot.shown rel = bytes

/-- The file at the path and its place in the listing, within the window. -/
structure Stays (start : Nat) (rel : String) (file : Option Bytes) (listed : Prop)
    (w : World P) : Prop where
  within : start ≤ w.calls
  file : w.remoteRoot.file rel = file
  listed : w.remoteRoot.Lists rel ↔ listed

variable {start : Nat} {rel : String} {bytes : Option Bytes}

theorem steady_stays {listed : Prop} (h : env.Leaves start rel) :
    Steady env (Stays start rel bytes listed) := by
  intro w hw
  have hleft := h w.calls w.remoteRoot hw.within
  exact ⟨Nat.le_succ_of_le hw.within, hleft.1.trans hw.file, hleft.2.trans hw.listed⟩

theorem steady_shows (h : env.Leaves start rel) : Steady env (Shows start rel bytes) := by
  intro w hw
  have hleft := h w.calls w.remoteRoot hw.within
  refine ⟨Nat.le_succ_of_le hw.within, ?_⟩
  have hshown := hw.shown
  unfold Root.shown at hshown ⊢
  change (if (env.disturbRemote w.calls w.remoteRoot).Lists rel then _ else _) = _
  simp only [hleft.2]
  rw [← hshown, ← hleft.1]
  rfl

theorem Stays.shows {listed : Prop} [Decidable listed] {w : World P}
    (h : Stays start rel bytes listed w) :
    Shows start rel (if listed then bytes else none) w := by
  refine ⟨h.within, ?_⟩
  unfold Root.shown
  simp only [h.listed, h.file]

theorem Shows.stays {w : World P} (h : Shows start rel bytes w) :
    Stays start rel (w.remoteRoot.file rel) (w.remoteRoot.Lists rel) w :=
  ⟨h.within, rfl, Iff.rfl⟩

/-- The digest that a manifest holds for a path. -/
def digestAt (manifest : Manifest) (rel : String) : Option (Option String) :=
  (manifest.get rel).map FileEntry.sha256

theorem digestAt_set (manifest : Manifest) (name rel : String) (entry : FileEntry) :
    digestAt (manifest.set name entry) rel =
      if rel = name then some entry.sha256 else digestAt manifest rel := by
  rw [digestAt, Dict.get_set]
  split <;> rename_i h
  · rw [if_pos (show rel = name from h)]
    rfl
  · rw [if_neg (show rel ≠ name from h)]
    rfl

theorem addEntry_other (env : Env P) {s : Surface} {side : Side} {manifest : Manifest}
    {name : String} (h : rel ≠ name) (hI : Steady env I) :
    Triple I (addEntry env s side manifest name)
      (fun manifest' w => I w ∧ digestAt manifest' rel = digestAt manifest rel) (fun _ => I) := by
  have hsame : Yields (addEntry env s side manifest name)
      fun manifest' => digestAt manifest' rel = digestAt manifest rel := by
    refine yields_bind (yields_any _) fun node _ => ?_
    split
    · split
      · exact yields_pure rfl
      · exact yields_throw _
    · refine yields_bind (yields_any _) fun digest _ => yields_pure ?_
      rw [digestAt_set, if_neg h]
    · exact yields_pure rfl
  exact ((reading_addEntry s side manifest name I hI).and hsame).conseq
    (fun _ h => ⟨h, trivial⟩) (fun _ _ h => h) fun _ _ h => h.1

theorem node_of_file {w : World P} {b : Bytes} (h : w.remoteRoot.file rel = some b) :
    ∃ mtimeNs mode, w.node .target rel = some (.file b mtimeNs mode) := by
  rw [Root.file, Option.bind_eq_some_iff] at h
  obtain ⟨node, hnode, hfile⟩ := h
  cases node with
  | file b' mtimeNs mode => exact ⟨mtimeNs, mode, by rw [World.node, hnode, Option.some.inj hfile]⟩
  | link target => simp [Node.fileBytes] at hfile
  | other => simp [Node.fileBytes] at hfile

theorem addEntry_self (h : env.Leaves start rel) {s : Surface} {manifest : Manifest}
    {file : Option Bytes} {listed : Prop} (hnew : digestAt manifest rel = none) :
    Triple (Stays start rel file listed) (addEntry env s .target manifest rel)
      (fun manifest' w => Stays start rel file listed w ∧
        digestAt manifest' rel = file.map (digestOf P s))
      (fun _ => Stays start rel file listed) := by
  have hI : Steady env (Stays start rel file listed) := steady_stays h
  refine triple_bind (triple_inspect hI _ _) fun node => ?_
  rintro w ⟨hw, rfl⟩
  cases file with
  | some b =>
    obtain ⟨mtimeNs, mode, hnode⟩ := node_of_file hw.file
    have hbytes : ∀ w' : World P, Stays start rel (some b) listed w' →
        (w'.node .target rel).bind Node.contents = some b := by
      intro w' hw'
      exact (get_of_file hw'.file).1
    rw [hnode]
    refine triple_bind (triple_hashIf hI hbytes) (fun digest => ?_) w hw
    refine triple_pure fun w' hw' => ⟨hw'.1, ?_⟩
    rw [digestAt_set, if_pos rfl, hw'.2]
    rfl
  | none =>
    cases hnode : w.node .target rel with
    | none => exact hw
    | some node =>
      cases node with
      | file b mtimeNs mode =>
        have hfile := hw.file
        rw [Root.file, show w.remoteRoot.get rel = _ from hnode] at hfile
        simp [Node.fileBytes] at hfile
      | link target => exact ⟨hw, hnew⟩
      | other => exact ⟨hw, hnew⟩

/-- The loop over the listed names meets the path at most once. -/
theorem triple_entries (h : env.Leaves start rel) (s : Surface) {file : Option Bytes}
    {listed : Prop} {names : List String} (hnodup : names.Nodup) :
    Triple (Stays start rel file listed) (names.foldlM (addEntry env s .target) Dict.empty)
      (fun manifest w => Stays start rel file listed w ∧
        digestAt manifest rel = if rel ∈ names then file.map (digestOf P s) else none)
      (fun _ => Stays start rel file listed) := by
  have hI : Steady env (Stays start rel file listed) := steady_stays h
  refine (triple_foldlM (fun done manifest w => Stays start rel file listed w ∧
    digestAt manifest rel = if rel ∈ done then file.map (digestOf P s) else none) ?_).pre
    fun w hw => ⟨hw, by rw [if_neg List.not_mem_nil]; rfl⟩
  intro done name rest manifest hsplit
  refine triple_of_pure_right fun hacc => ?_
  by_cases hname : rel = name
  · subst hname
    rw [hsplit] at hnodup
    have hfresh : rel ∉ done := fun hin =>
      (List.nodup_append.mp hnodup).2.2 rel hin rel List.mem_cons_self rfl
    rw [if_neg hfresh] at hacc
    refine (addEntry_self h hacc).post fun manifest' w' hw' => ⟨hw'.1, ?_⟩
    rw [hw'.2, if_pos (List.mem_append_right _ List.mem_cons_self)]
  · refine (addEntry_other env hname hI).post fun manifest' w' hw' => ⟨hw'.1, ?_⟩
    rw [hw'.2, hacc]
    simp only [List.mem_append, List.mem_singleton, hname, or_false]

theorem triple_manifest_stays (h : env.Leaves start rel) {s : Surface}
    (hcovers : s.covers P rel = true) {file : Option Bytes} {listed : Prop} [Decidable listed] :
    Triple (Stays start rel file listed) (buildManifest env s .target)
      (fun manifest w => Stays start rel file listed w ∧
        digestAt manifest rel = (if listed then file else none).map (digestOf P s))
      (fun _ => Stays start rel file listed) := by
  have hI : Steady env (Stays start rel file listed) := steady_stays h
  refine triple_bind (triple_inspect hI _ _) fun listing => ?_
  rintro w ⟨hw, rfl⟩
  have hlisted := hw.listed
  cases hroot : w.remoteRoot with
  | missing =>
    rw [hroot] at hlisted
    simp only [World.listing, hroot, Root.listing]
    exact ⟨hw, by rw [if_neg fun hyes => hlisted.mpr hyes]; rfl⟩
  | blocked =>
    rw [hroot] at hlisted
    simp only [World.listing, hroot, Root.listing]
    exact ⟨hw, by rw [if_neg fun hyes => hlisted.mpr hyes]; rfl⟩
  | directory files =>
    have hnames : rel ∈ files.keys.filter (s.covers P) ↔ listed := by
      rw [← hlisted, hroot, List.mem_filter]
      exact and_iff_left hcovers
    simp only [World.listing, hroot, Root.listing]
    refine (triple_entries h s (files.keys_nodup.filter _)).post (fun manifest w' hw' => ?_) w hw
    refine ⟨hw'.1, ?_⟩
    rw [hw'.2]
    simp only [hnames]
    split <;> rfl

/-- A manifest reports a path that others leave alone as the tree shows it. -/
theorem triple_manifest (h : env.Leaves start rel) {s : Surface} (hcovers : s.covers P rel = true) :
    Triple (Shows start rel bytes) (buildManifest env s .target)
      (fun manifest w => Shows start rel bytes w ∧
        digestAt manifest rel = bytes.map (digestOf P s))
      (fun _ => Shows start rel bytes) := by
  intro w₀ hw₀
  have hback : ∀ w : World P,
      Stays start rel (w₀.remoteRoot.file rel) (w₀.remoteRoot.Lists rel) w →
      Shows start rel bytes w := by
    intro w hw
    have hshows := hw.shows
    rwa [← Root.shown, hw₀.shown] at hshows
  refine (triple_manifest_stays h hcovers).conseq (fun _ => id) (fun manifest w hw => ?_)
    (fun _ => hback) w₀ hw₀.stays
  refine ⟨hback w hw.1, ?_⟩
  rw [hw.2, ← Root.shown, hw₀.shown]

/-! ## Writes of the call to other files -/

section Trees
variable {key : String → String}

theorem shown_replaced {root root' : Root key} {name : String} {node : Option Node}
    (h : root.Replaced root' name node) (hne : key rel ≠ key name) :
    root'.shown rel = root.shown rel := by
  unfold Root.shown Root.file
  simp only [h.names rel hne, h.others rel hne]

theorem shown_put {root root' : Root key} {name : String} {node : Node}
    (h : root.put name node = .ok root') (hne : key rel ≠ key name) :
    root'.shown rel = root.shown rel := shown_replaced (Root.put_replaced h) hne

/-- A removal changes another name only where that names the same file. -/
theorem shown_remove {root root' : Root key} {name : String} (h : root.remove name = .ok root')
    (hsame : key rel = key name → root.shown rel = none) : root'.shown rel = root.shown rel := by
  cases root with
  | missing => rw [← Except.ok.inj h]
  | blocked => rw [← Except.ok.inj h]
  | directory files =>
    have hdir : ∃ files', (Root.directory files : Root key) = .directory files' := ⟨files, rfl⟩
    have hother : (Root.directory files).get name ≠ some .other := by
      intro hother
      rw [Root.remove_other hdir hother] at h
      simp at h
    obtain ⟨root₁, hremove, hreplaced⟩ := Root.remove_spec hdir hother
    rw [hremove] at h
    obtain rfl := Except.ok.inj h
    by_cases hkey : key rel = key name
    · rw [hsame hkey, Root.shown, Root.file, Root.get_congr _ hkey, hreplaced.self]
      split <;> rfl
    · exact shown_replaced hreplaced hkey

end Trees

section Writes
variable {name : String} (h : env.Leaves start rel)
include h

theorem keeps_shows_deleteRemote (hsame : P.remoteKey rel = P.remoteKey name → bytes = none) :
    Keeps (Shows start rel bytes) (deleteRemote env name) := by
  refine keeps_act (steady_shows h) fun n w w' hw hchange => ?_
  obtain ⟨root, hroot, heq⟩ := bind_eq_ok.mp hchange
  rw [← Except.ok.inj heq]
  refine ⟨hw.within, ?_⟩
  change root.shown rel = bytes
  rw [shown_remove hroot fun hkey => hw.shown.trans (hsame hkey)]
  exact hw.shown

theorem keeps_shows_pushFile (hne : P.remoteKey rel ≠ P.remoteKey name) :
    Keeps (Shows start rel bytes) (pushFile env name) := by
  refine keeps_act (steady_shows h) fun n w w' hw hchange => ?_
  split at hchange
  · simp at hchange
  · obtain ⟨root, hroot, heq⟩ := bind_eq_ok.mp hchange
    rw [← Except.ok.inj heq]
    refine ⟨hw.within, ?_⟩
    change root.shown rel = bytes
    rw [shown_put hroot hne]
    exact hw.shown

theorem keeps_shows_ensureRemoteDir : Keeps (Shows start rel bytes) (ensureRemoteDir env) := by
  refine keeps_act (steady_shows h) fun n w w' hw hchange => ?_
  split at hchange
  · rename_i hroot
    rw [← Except.ok.inj hchange]
    have hshown := hw.shown
    rw [hroot] at hshown
    exact ⟨hw.within, hshown⟩
  · simp at hchange
  · rw [← Except.ok.inj hchange]
    exact ⟨hw.within, hw.shown⟩

/-- The apply loop keeps a file of the remote tree that it does not delete. -/
theorem keeps_shows_itemEffect (a : SyncArgs) (remoteManifest : Manifest) {item : ClassifiedPath}
    (hsame : item.action = .deleteRemote → P.remoteKey rel = P.remoteKey item.path → bytes = none) :
    Keeps (Shows start rel bytes) (itemEffect env a remoteManifest item) := by
  have hI : Steady env (Shows start rel bytes) := steady_shows h
  have hbackup : Keeps (Shows start rel bytes) (backupLocal env item.path a.backupBelowBytes) :=
    keeps_backupLocal _ _ hI fun _ _ hw => ⟨hw.within, hw.shown⟩
  unfold itemEffect
  cases hact : item.action with
  | none => exact keeps_pure _
  | push => exact keeps_pure _
  | pull => exact keeps_map hbackup
  | deleteLocal =>
    exact keeps_bind hbackup fun _ => keeps_deleteLocal _ hI fun _ _ hw => ⟨hw.within, hw.shown⟩
  | deleteRemote => exact keeps_shows_deleteRemote h (hsame hact)
  | abortConflict =>
    dsimp only
    split
    · exact keeps_saveRemote _ hI fun _ _ hw => ⟨hw.within, hw.shown⟩
    · exact keeps_pure _

end Writes

/-- The file is shown remotely, and it is on the controller too if it was pulled. -/
structure Pulled (start : Nat) (rel : String) (bytes : Option Bytes) (done : List String)
    (w : World P) : Prop extends Shows start rel bytes w where
  pulled : rel ∈ done → w.localRoot.file rel = bytes

theorem steady_pulled (h : env.Leaves start rel)
    (hlocal : ∀ n root, env.disturbLocal n root = root) {done : List String} :
    Steady env (Pulled start rel bytes done) := by
  intro w hw
  refine ⟨steady_shows h w hw.toShows, fun hin => ?_⟩
  change (env.disturbLocal _ _).file rel = _
  rw [hlocal]
  exact hw.pulled hin

/-- A pull writes what the remote tree shows, and no later pull replaces it. -/
theorem triple_shows_pullFiles (h : env.Leaves start rel)
    (hlocal : ∀ n root, env.disturbLocal n root = root) {b : Bytes} {paths : List String}
    (hkeys : ∀ name ∈ paths, name ≠ rel → P.localKey rel ≠ P.localKey name) :
    Triple (Shows start rel (some b)) (pullFiles env paths)
      (fun _ => Pulled start rel (some b) paths) (fun _ _ => True) := by
  have htrue : ∀ Q : World P → Prop, Excuses env Q fun _ _ => True := fun _ _ _ _ _ => trivial
  refine (triple_foldlM (fun done _ => Pulled start rel (some b) done) ?_).pre
    fun w hw => ⟨hw, fun hin => absurd hin List.not_mem_nil⟩
  intro done name rest _ hsplit
  refine triple_act (steady_pulled h hlocal) (htrue _) (htrue _) fun n w hw => ?_
  cases hnode : (w.node .target name).bind Node.contents with
  | none => trivial
  | some bytes =>
    cases hput : w.localRoot.put name (env.written n bytes) with
    | error fault => simp [hput, bind, Except.bind]
    | ok root =>
      simp only [hput, bind, Except.bind, pure, Except.pure]
      refine ⟨⟨hw.within, hw.shown⟩, fun hin => ?_⟩
      change root.file rel = some b
      have hreplaced := Root.put_replaced hput
      by_cases hname : name = rel
      · subst hname
        have hshown := hw.shown
        rw [Root.shown] at hshown
        split at hshown
        · have hread := (get_of_file hshown).1
          rw [show w.node .target name = w.remoteRoot.get name from rfl, hread] at hnode
          rw [Root.file, hreplaced.self, ← Option.some.inj hnode]
          rfl
        · simp at hshown
      · have hmem : name ∈ paths := by
          rw [hsplit]
          exact List.mem_append_right _ List.mem_cons_self
        have hold : rel ∈ done := by
          rcases List.mem_append.mp hin with hin | hin
          · exact hin
          · exact absurd (List.mem_singleton.mp hin).symm hname
        rw [Root.file, hreplaced.others rel (hkeys name hmem hname)]
        exact hw.pulled hold

end Interference

end Remrun.Reconcile
