import Remrun.Reconcile.Steps

/-!
# Calls without other writers

In a quiet environment a look returns what the trees hold, so a program of looks returns a
value that can be read off the trees, or stops at a failing step.
-/

namespace Remrun.Reconcile

open Keyed Effect
set_option autoImplicit false

section Quiet
variable {P : Platform} {env : Env P} {α β : Type} {I : World P → Prop}
  {E : Fault → World P → Prop}

/-- The program returns `v` and keeps `I`. -/
def Returns (I : World P → Prop) (E : Fault → World P → Prop) (m : M P α) (v : α) : Prop :=
  Triple I m (fun a w => a = v ∧ I w) E

/-- A failing step may end the program. -/
def Excuses (env : Env P) (I : World P → Prop) (E : Fault → World P → Prop) : Prop :=
  ∀ fault w, (∃ n, env.failure n ≠ none) → I w → E fault w

theorem Env.Calm.excuses (h : env.Calm) : Excuses env I E := by
  rintro fault w ⟨n, hn⟩ _
  exact absurd (h.works n) hn

theorem disturbed_quiet (h : env.Quiet) (w : World P) :
    w.disturbed env = { w with calls := w.calls + 1 } := by
  simp only [World.disturbed, h.stillLocal, h.stillRemote]

/-- A condition that does not count the steps is steady in a quiet environment. -/
theorem steady_of_quiet (h : env.Quiet) (hcalls : ∀ w n, I w → I { w with calls := n }) :
    Steady env I := by
  intro w hw
  rw [disturbed_quiet h]
  exact hcalls w _ hw

theorem returns_pure (v : α) : Returns I E (pure v : M P α) v := triple_pure fun _ h => ⟨rfl, h⟩

theorem returns_bind {m : M P β} {f : β → M P α} {b : β} {v : α} (hm : Returns I E m b)
    (hf : Returns I E (f b) v) : Returns I E (m >>= f) v := by
  refine triple_bind hm fun b' => ?_
  rintro w ⟨rfl, hw⟩
  exact hf w hw

theorem returns_map {m : M P β} {f : β → α} {b : β} (hm : Returns I E m b) :
    Returns I E (f <$> m) (f b) :=
  triple_map (hm.post fun _ _ h => ⟨by rw [h.1], h.2⟩)

theorem returns_foldlM {f : α → β → M P α} {g : α → β → α} {items : List β} {init : α}
    (h : ∀ acc, ∀ item ∈ items, Returns I E (f acc item) (g acc item)) :
    Returns I E (items.foldlM f init) (items.foldl g init) := by
  induction items generalizing init with
  | nil => exact returns_pure _
  | cons item rest ih =>
    rw [List.foldlM_cons, List.foldl_cons]
    refine returns_bind (h init item List.mem_cons_self) (ih fun acc x hx => ?_)
    exact h acc x (List.mem_cons_of_mem _ hx)

/-- A loop whose every round returns the accumulator it was given. -/
theorem returns_foldlM_const {f : α → β → M P α} {items : List β} {init : α}
    (h : ∀ item ∈ items, Returns I E (f init item) init) :
    Returns I E (items.foldlM f init) init := by
  induction items with
  | nil => exact returns_pure _
  | cons item rest ih =>
    rw [List.foldlM_cons]
    refine returns_bind (h item List.mem_cons_self) (ih fun x hx => ?_)
    exact h x (List.mem_cons_of_mem _ hx)

section Looks
variable (hI : Steady env I) (hE : Excuses env I E)
include hI hE

theorem triple_look (read : World P → α) :
    Triple I (look env read) (fun a w => a = read w ∧ I w) E := by
  intro w hw
  unfold look
  cases hf : env.failure w.calls with
  | some failure => exact hE _ _ ⟨w.calls, by rw [hf]; simp⟩ (hI w hw)
  | none => exact ⟨rfl, hI w hw⟩

theorem returns_look {read : World P → α} {v : α} (hread : ∀ w, I w → read w = v) :
    Returns I E (look env read) v :=
  (triple_look hI hE read).post fun _ w h => ⟨h.1.trans (hread w h.2), h.2⟩

theorem returns_inspect {read : World P → α} {v : α} {message : String}
    (hread : ∀ w, I w → read w = v) : Returns I E (inspect env message read) v := by
  have hlook : Returns I (fun _ w => (∃ n, env.failure n ≠ none) ∧ I w) (look env read) v :=
    returns_look hI (fun _ _ hmishap hw => ⟨hmishap, hw⟩) hread
  refine triple_tryCatch hlook fun fault => triple_throw fun w hw => ?_
  exact hE _ w hw.1 hw.2

theorem returns_hashOrRaise {side : Side} {rel message : String} {bytes : Bytes}
    (h : ∀ w, I w → (w.node side rel).bind Node.contents = some bytes) :
    Returns I E (hashOrRaise env side rel message) (P.sha256 bytes) :=
  returns_bind (returns_inspect hI hE h) (returns_pure _)

theorem returns_hashIf (wanted : Bool) (message : String) {side : Side} {rel : String}
    {bytes : Bytes} (h : ∀ w, I w → (w.node side rel).bind Node.contents = some bytes) :
    Returns I E (hashIf env wanted side rel message)
      (if wanted then some (P.sha256 bytes) else none) := by
  unfold hashIf
  split
  · exact returns_map (returns_hashOrRaise hI hE h)
  · exact returns_pure _

end Looks

/-! ## Manifests of a still tree -/

/-- The manifest entry of a node. -/
def entryOf (P : Platform) (s : Surface) (side : Side) (rel : String) :
    Option Node → Option FileEntry
  | some (.file bytes mtimeNs mode) => some {
      path := rel, kind := "file", size := bytes.length, mtimeNs := mtimeNs
      sha256 := if s.hashes bytes.length then some (P.sha256 bytes) else none
      mode := match side with
        | .controller => some mode
        | .target => none }
  | _ => none

def setEntry (manifest : Manifest) (rel : String) (entry : Option FileEntry) : Manifest :=
  match entry with
  | some entry => manifest.set rel entry
  | none => manifest

/-- The manifest of a tree that nobody writes. -/
def manifestOf (P : Platform) (s : Surface) (side : Side) {key : String → String}
    (root : Root key) : Manifest :=
  match root with
  | .directory files => (files.keys.filter (s.covers P)).foldl
      (fun manifest rel => setEntry manifest rel (entryOf P s side rel (files.get rel))) Dict.empty
  | _ => Dict.empty

/-- The path is one that the walk of the tree meets. -/
def Root.Lists {key : String → String} (root : Root key) (rel : String) : Prop :=
  match root with
  | .directory files => rel ∈ files.keys
  | _ => False

instance {key : String → String} (root : Root key) (rel : String) : Decidable (root.Lists rel) :=
  match root with
  | .missing => inferInstanceAs (Decidable False)
  | .blocked => inferInstanceAs (Decidable False)
  | .directory files => inferInstanceAs (Decidable (rel ∈ files.keys))

theorem get_setEntry {manifest : Manifest} {name : String} {entry : Option FileEntry}
    (hnew : manifest.get name = none) (rel : String) :
    (setEntry manifest name entry).get rel = if rel = name then entry else manifest.get rel := by
  cases entry with
  | some entry =>
    change (manifest.set name entry).get rel = _
    exact Dict.get_set manifest name rel entry
  | none =>
    change manifest.get rel = _
    split
    · rename_i heq
      rw [heq, hnew]
    · rfl

theorem get_foldl_setEntry (f : String → Option FileEntry) {names : List String}
    (hnodup : names.Nodup) {manifest : Manifest} (hnew : ∀ rel ∈ names, manifest.get rel = none)
    (rel : String) :
    (names.foldl (fun m name => setEntry m name (f name)) manifest).get rel =
      if rel ∈ names then f rel else manifest.get rel := by
  induction names generalizing manifest with
  | nil => simp
  | cons name rest ih =>
    rw [List.nodup_cons] at hnodup
    have hname := hnew name List.mem_cons_self
    have hrest : ∀ rel' ∈ rest, (setEntry manifest name (f name)).get rel' = none := by
      intro rel' hrel'
      rw [get_setEntry hname, if_neg (fun heq : rel' = name => hnodup.1 (heq ▸ hrel'))]
      exact hnew rel' (List.mem_cons_of_mem _ hrel')
    rw [List.foldl_cons, ih hnodup.2 hrest, get_setEntry hname]
    by_cases heq : rel = name
    · rw [if_pos heq, if_neg (heq ▸ hnodup.1), if_pos (heq ▸ List.mem_cons_self), heq]
    · simp only [List.mem_cons, heq, false_or, if_false]

/-- A manifest has the entries of the covered paths that the tree lists. -/
theorem get_manifestOf (s : Surface) (side : Side) {key : String → String} (root : Root key)
    (rel : String) : (manifestOf P s side root).get rel =
      if root.Lists rel ∧ s.covers P rel = true then entryOf P s side rel (root.get rel)
      else none := by
  cases root with
  | missing => simp [manifestOf, Root.Lists]
  | blocked => simp [manifestOf, Root.Lists]
  | directory files =>
    unfold manifestOf
    dsimp only
    rw [get_foldl_setEntry (fun rel => entryOf P s side rel (files.get rel))
      (files.keys_nodup.filter _) (fun _ _ => Dict.get_empty _)]
    simp only [List.mem_filter, Root.Lists, Root.get, Dict.get_empty]
    congr

section Looks
variable (hI : Steady env I) (hE : Excuses env I E)
include hI hE

theorem returns_addEntry {s : Surface} {side : Side} {rel : String} {node : Node}
    (manifest : Manifest) (h : ∀ w, I w → w.node side rel = some node) :
    Returns I E (addEntry env s side manifest rel)
      (setEntry manifest rel (entryOf P s side rel (some node))) := by
  refine returns_bind (returns_inspect hI hE h) ?_
  cases node with
  | file bytes mtimeNs mode =>
    have hbytes : ∀ w, I w → (w.node side rel).bind Node.contents = some bytes := by
      intro w hw
      rw [h w hw]
      rfl
    exact returns_bind (returns_hashIf hI hE _ _ hbytes) (returns_pure _)
  | link target => exact returns_pure _
  | other => exact returns_pure _

/-- A controller's root that is no directory cannot be scanned. -/
theorem returns_buildManifest {s : Surface} {side : Side} {key : String → String}
    {root : Root key} (hlisting : ∀ w, I w → w.listing side = root.listing)
    (hnode : ∀ w rel, I w → w.node side rel = root.get rel)
    (hroot : side = .controller → root = .blocked → ∀ fault w, I w → E fault w) :
    Returns I E (buildManifest env s side) (manifestOf P s side root) := by
  refine returns_bind (returns_inspect hI hE hlisting) ?_
  cases root with
  | missing => exact returns_pure _
  | blocked =>
    cases side with
    | controller => exact triple_throw fun w hw => hroot rfl rfl _ w hw
    | target => exact returns_pure _
  | directory files =>
    refine returns_foldlM fun manifest rel hrel => ?_
    obtain ⟨node, hget⟩ := Dict.get_of_mem_keys (List.mem_filter.mp hrel).1
    rw [hget]
    refine returns_addEntry hI hE manifest fun w hw => ?_
    rw [hnode w rel hw]
    exact hget

/-- The entry that a fresh look at a local path makes. -/
def freshEntry (P : Platform) (rel : String) (hashIfSize : Option Nat) :
    Option Node → Option FileEntry
  | some (.file bytes mtimeNs _) => some {
      path := baseName rel, kind := "file", size := bytes.length, mtimeNs := mtimeNs
      sha256 := if hashIfSize = some bytes.length then some (P.sha256 bytes) else none
      mode := none }
  | _ => none

theorem returns_freshLocalEntry {rel : String} {hashIfSize : Option Nat} {node : Option Node}
    (h : ∀ w, I w → w.node .controller rel = node) :
    Returns I E (freshLocalEntry env rel hashIfSize) (freshEntry P rel hashIfSize node) := by
  refine returns_bind (returns_inspect hI hE h) ?_
  cases node with
  | none => exact returns_pure _
  | some node =>
    cases node with
    | file bytes mtimeNs mode =>
      have hbytes : ∀ w, I w → (w.node .controller rel).bind Node.contents = some bytes := by
        intro w hw
        rw [h w hw]
        rfl
      refine returns_bind (returns_hashIf hI hE _ _ hbytes) ?_
      simp only [decide_eq_true_eq]
      exact returns_pure _
    | link target => exact returns_pure _
    | other => exact returns_pure _

end Looks

/-! ## Digests -/

theorem isHexDigit_plain {c : Char} (h : isHexDigit c = true) :
    isSpace c = false ∧ c.toLower = c := by
  have hval : (48 ≤ c.val.toNat ∧ c.val.toNat ≤ 57) ∨ (97 ≤ c.val.toNat ∧ c.val.toNat ≤ 102) := by
    simpa [isHexDigit, Char.le_def, UInt32.le_iff_toNat_le] using h
  constructor
  · simp only [isSpace, List.mem_cons, List.not_mem_nil, or_false, decide_eq_false_iff_not,
      ← UInt32.toNat_inj]
    simp only [UInt32.reduceToNat]
    omega
  · unfold Char.toLower
    rw [dif_neg]
    have hA : 'A'.val.toNat = 65 := rfl
    have hZ : 'Z'.val.toNat = 90 := rfl
    simp only [ge_iff_le, UInt32.le_iff_toNat_le, not_and_or, hA, hZ]
    omega

theorem normalDigest_eq {text : String} (h : isDigest text = true) :
    normalDigest text = text.toList := by
  have hall : ∀ c ∈ text.toList, isHexDigit c = true := by
    simp only [isDigest, Bool.and_eq_true, List.all_eq_true] at h
    exact h.2
  have hdrop : ∀ chars : List Char, (∀ c ∈ chars, isHexDigit c = true) →
      chars.dropWhile isSpace = chars := by
    intro chars hchars
    cases chars with
    | nil => rfl
    | cons c rest =>
      rw [List.dropWhile_cons_of_neg]
      rw [(isHexDigit_plain (hchars c List.mem_cons_self)).1]
      simp
  have hstrip : strip isSpace text.toList = text.toList := by
    unfold strip
    rw [hdrop _ hall, hdrop _ fun c hc => hall c (List.mem_reverse.mp hc), List.reverse_reverse]
  rw [normalDigest, hstrip]
  conv_rhs => rw [← List.map_id text.toList]
  exact List.map_congr_left fun c hc => (isHexDigit_plain (hall c hc)).2

theorem toLower_digest {text : String} (h : isDigest text = true) : text.toLower = text := by
  have hall : ∀ c ∈ text.toList, isHexDigit c = true := by
    simp only [isDigest, Bool.and_eq_true, List.all_eq_true] at h
    exact h.2
  unfold String.toLower
  rw [← String.toList_inj, String.toList_map]
  conv_rhs => rw [← List.map_id text.toList]
  exact List.map_congr_left fun c hc => (isHexDigit_plain (hall c hc)).2

theorem digest_ne_empty {text : String} (h : isDigest text = true) : text ≠ "" := by
  rintro rfl
  simp [isDigest] at h

theorem returns_orHash {digest : String} {compute : M P String} (h : digest ≠ "") :
    Returns I E (orHash (some digest) compute) digest := by
  unfold orHash
  dsimp only
  rw [if_pos h]
  exact returns_pure _

theorem returns_expected {m : M P α} {v : α} (h : Returns I (fun _ _ => False) m v) :
    Returns I E (expected m) (some v) :=
  triple_tryCatch (returns_map h) fun _ _ hfalse => hfalse.elim

/-! ## Writes -/

/-- A write of a quiet environment: it takes effect, or raises, or a failing step ends it. -/
theorem triple_act {Q : World P → Prop} {change : Nat → World P → Except Fault (World P)}
    (hI : Steady env I) (hE : Excuses env I E) (hE' : Excuses env Q E)
    (h : ∀ n w, I w → match change n w with
      | .ok w' => Q w'
      | .error fault => E fault w) :
    Triple I (act env change) (fun _ => Q) E := by
  intro w hw
  have hchange := h w.calls (w.disturbed env) (hI w hw)
  unfold act
  cases hf : env.failure w.calls with
  | none =>
    cases hc : change w.calls (w.disturbed env) <;> simpa [hc] using hchange
  | some failure =>
    have hmishap : ∃ n, env.failure n ≠ none := ⟨w.calls, by rw [hf]; simp⟩
    obtain ⟨fault, landed⟩ := failure
    cases landed with
    | false => exact hE _ _ hmishap (hI w hw)
    | true =>
      cases hc : change w.calls (w.disturbed env) with
      | ok w' =>
        rw [hc] at hchange
        exact hE' _ _ hmishap hchange
      | error fault' => simpa [hc] using hchange

section Trees
variable {key : String → String}

/-- What a replacement makes of a tree. -/
structure Root.Replaced (root root' : Root key) (rel : String) (node : Option Node) : Prop where
  directory : ∃ files, root' = .directory files
  self : root'.get rel = node
  others : ∀ rel', key rel' ≠ key rel → root'.get rel' = root.get rel'
  names : ∀ rel', key rel' ≠ key rel → (root'.Lists rel' ↔ root.Lists rel')
  spelled : node.isSome = true → (∀ q, root.Lists q → key q = key rel → q = rel) → root'.Lists rel

/-- What setting a file makes of a directory. -/
theorem Root.replaced_set (files : Dict key Node) (rel : String) (node : Node) :
    Root.Replaced (.directory files) (.directory (files.set rel node)) rel (some node) where
  directory := ⟨_, rfl⟩
  self := Dict.get_set_self _ _ _
  others := fun _ hne => Dict.get_set_other _ _ hne
  names := by
    intro rel' hne
    change rel' ∈ (files.set rel node).keys ↔ rel' ∈ files.keys
    rw [Dict.mem_keys_set]
    exact ⟨fun h => h.resolve_right fun hself => hne (by rw [hself.1]), Or.inl⟩
  spelled := by
    intro _ hown
    change rel ∈ (files.set rel node).keys
    rw [Dict.mem_keys_set]
    cases hget : files.get rel with
    | none => exact Or.inr ⟨rfl, rfl⟩
    | some old =>
      obtain ⟨q, hq, hkey⟩ := Dict.mem_keys_of_get hget
      exact Or.inl (hown q hq hkey ▸ hq)

theorem putNode_ok {files : Dict key Node} {rel : String} (hfree : files.get rel ≠ some .other)
    (node : Node) : putNode files rel node = .ok (files.set rel node) := if_neg hfree

theorem putNode_other {files : Dict key Node} {rel : String} (h : files.get rel = some .other)
    (node : Node) : putNode files rel node = .error .osError := if_pos h

theorem Root.put_spec {root : Root key} (hroot : root ≠ .blocked) {rel : String}
    (hfree : root.get rel ≠ some .other) (node : Node) :
    ∃ root', root.put rel node = .ok root' ∧ root.Replaced root' rel (some node) := by
  cases root with
  | blocked => exact absurd rfl hroot
  | missing =>
    have hset := Root.replaced_set (Dict.empty : Dict key Node) rel node
    have hempty : ∀ q, ¬ Root.Lists (.directory (Dict.empty : Dict key Node)) q :=
      fun q => List.not_mem_nil
    refine ⟨.directory (Dict.empty.set rel node), rfl, hset.directory, hset.self, hset.others,
      fun rel' hne => ?_, fun hsome _ => hset.spelled hsome fun q hq => absurd hq (hempty q)⟩
    exact (hset.names rel' hne).trans ⟨fun h => absurd h (hempty rel'), fun h => h.elim⟩
  | directory files =>
    refine ⟨.directory (files.set rel node), ?_, Root.replaced_set files rel node⟩
    rw [Root.put, putNode_ok hfree]
    rfl

theorem Root.remove_spec {root : Root key} (hdir : ∃ files, root = .directory files) {rel : String}
    (hfree : root.get rel ≠ some .other) :
    ∃ root', root.remove rel = .ok root' ∧ root.Replaced root' rel none := by
  obtain ⟨files, rfl⟩ := hdir
  refine ⟨.directory (files.pop rel), ?_, ⟨_, rfl⟩, Dict.get_pop_self _ _,
    fun rel' hne => Dict.get_pop_other _ hne, fun rel' hne => ?_, fun hnone => nomatch hnone⟩
  swap
  · exact Dict.mem_keys_pop.trans ⟨And.left, fun h => ⟨h, hne⟩⟩
  have hnot : ¬ files.get rel = some .other := hfree
  simp only [Root.remove, if_neg hnot]

theorem Root.put_other {root : Root key} {rel : String} (h : root.get rel = some .other)
    (node : Node) : root.put rel node = .error .osError := by
  cases root with
  | missing => simp [Root.get] at h
  | blocked => rfl
  | directory files =>
    rw [Root.put, putNode_other h]
    rfl

theorem Root.remove_other {root : Root key}
    (hdir : ∃ files, root = .directory files) {rel : String} (h : root.get rel = some .other) :
    root.remove rel = .error .osError := by
  obtain ⟨files, rfl⟩ := hdir
  have hget : files.get rel = some .other := h
  simp only [Root.remove, if_pos hget]

theorem Root.put_replaced {root root' : Root key} {rel : String} {node : Node}
    (h : root.put rel node = .ok root') : root.Replaced root' rel (some node) := by
  have hother : root.get rel ≠ some .other := by
    intro hother
    rw [Root.put_other hother] at h
    simp at h
  have hblocked : root ≠ .blocked := by
    rintro rfl
    simp [Root.put] at h
  obtain ⟨root₁, hput, hreplaced⟩ := Root.put_spec hblocked hother node
  rw [hput] at h
  exact Except.ok.inj h ▸ hreplaced

theorem get_of_file {root : Root key} {rel : String} {bytes : Bytes}
    (h : root.file rel = some bytes) : (root.get rel).bind Node.contents = some bytes ∧
      root.get rel ≠ some .other := by
  rw [Root.file] at h
  cases hget : root.get rel with
  | none => simp [hget] at h
  | some node =>
    rw [hget] at h
    cases node with
    | file bytes' mtimeNs mode => exact ⟨h, by simp⟩
    | link target => simp [Node.fileBytes] at h
    | other => simp [Node.fileBytes] at h

theorem Root.get_congr (root : Root key) {rel rel' : String} (h : key rel = key rel') :
    root.get rel = root.get rel' := by
  cases root with
  | missing => rfl
  | blocked => rfl
  | directory files => exact files.get_congr h

end Trees

/-- The content of the path goes to the backup area. -/
def backedUp (env : Env P) (rel : String) (n : Nat) (w : World P) : Except Fault (World P) :=
  match (w.node .controller rel).bind Node.contents with
  | none => .error .osError
  | some bytes => .ok { w with
      backup := w.backup.set rel (env.written n bytes), log := w.log ++ [.backup rel] }

/-- A backup is made unless something other than a file stands at the path. -/
theorem triple_backupLocal {rel : String} (maxBytes : Nat) {node : Option Node}
    (hI : Steady env I) (hE : Excuses env I E)
    (hnode : ∀ w, I w → w.localRoot.get rel = node)
    (hbackup : ∀ w area, I w → I { w with backup := area, log := w.log ++ [.backup rel] })
    (hother : node = some .other → ∀ w, I w → E .osError w) :
    Triple I (backupLocal env rel maxBytes) (fun _ => I) E := by
  refine triple_bind (returns_look hI hE hnode) fun node' => ?_
  rintro w ⟨rfl, hw⟩
  have hact : (node'.bind Node.contents).isSome = true ∨ node' = some .other →
      Triple I (act env (backedUp env rel)) (fun _ => I) E := by
    intro hcases
    refine triple_act hI hE hE fun n w hw => ?_
    have hget : w.node .controller rel = node' := hnode w hw
    rw [backedUp, hget]
    rcases hcases with hsome | hother'
    · obtain ⟨bytes, hbytes⟩ := Option.isSome_iff_exists.mp hsome
      rw [hbytes]
      exact hbackup w _ hw
    · rw [hother']
      exact hother hother' w hw
  have hrest : (node'.bind Node.contents).isSome = true ∨ node' = some .other →
      ∀ condition : Prop, [Decidable condition] →
      Triple I (if condition then pure false else do
        act env (backedUp env rel)
        pure true : M P Bool) (fun _ => I) E := by
    intro hcases condition _
    split
    · exact triple_pure fun _ => id
    · exact triple_bind (hact hcases) fun _ => triple_pure fun _ => id
  cases node' with
  | none => exact hw
  | some node' =>
    cases node' with
    | file bytes mtimeNs mode => exact hrest (Or.inl rfl) _ w hw
    | other => exact hrest (Or.inr rfl) _ w hw
    | link target =>
      cases target with
      | none => exact hw
      | some bytes => exact hrest (Or.inl rfl) _ w hw

section Writes
variable {Q : World P → Prop} {rel : String} (hI : Steady env I) (hE : Excuses env I E)
  (hE' : Excuses env Q E)
include hI hE hE'

theorem triple_pullFile (bytes : Bytes)
    (hbytes : ∀ w, I w → (w.remoteRoot.get rel).bind Node.contents = some bytes)
    (hroot : ∀ w, I w → w.localRoot ≠ .blocked)
    (hother : ∀ w, I w → w.localRoot.get rel = some .other → E .osError w)
    (h : ∀ n w root, I w → w.localRoot.get rel ≠ some .other →
      w.localRoot.Replaced root rel (some (env.written n bytes)) →
      Q { w with localRoot := root, log := w.log ++ [.pull rel (w.localRoot.get rel)] }) :
    Triple I (pullFile env rel) (fun _ => Q) E := by
  refine triple_act hI hE hE' fun n w hw => ?_
  rw [show (w.node .target rel).bind Node.contents = some bytes from hbytes w hw]
  by_cases hput : w.localRoot.get rel = some .other
  · dsimp only
    rw [Root.put_other hput]
    exact hother w hw hput
  · obtain ⟨root, hok, hreplaced⟩ := Root.put_spec (hroot w hw) hput (env.written n bytes)
    dsimp only
    rw [hok]
    exact h n w root hw hput hreplaced

theorem triple_saveRemote (bytes : Bytes)
    (hbytes : ∀ w, I w → (w.remoteRoot.get rel).bind Node.contents = some bytes)
    (hother : ∀ w, I w → w.saved.get rel = some .other → E .osError w)
    (h : ∀ n w, I w → w.saved.get rel ≠ some .other → Q { w with
      saved := w.saved.set rel (env.written n bytes), log := w.log ++ [.save rel] }) :
    Triple I (saveRemote env rel) (fun _ => Q) E := by
  refine triple_act hI hE hE' fun n w hw => ?_
  rw [show (w.node .target rel).bind Node.contents = some bytes from hbytes w hw]
  by_cases hput : w.saved.get rel = some .other
  · dsimp only
    rw [putNode_other hput]
    exact hother w hw hput
  · dsimp only
    rw [putNode_ok hput]
    exact h n w hw hput

theorem triple_pushFile (bytes : Bytes)
    (hbytes : ∀ w, I w → (w.localRoot.get rel).bind Node.contents = some bytes)
    (hroot : ∀ w, I w → w.remoteRoot ≠ .blocked)
    (hother : ∀ w, I w → w.remoteRoot.get rel = some .other → E .osError w)
    (h : ∀ n w root, I w → w.remoteRoot.Replaced root rel (some (env.written n bytes)) →
      Q { w with remoteRoot := root, log := w.log ++ [.push rel] }) :
    Triple I (pushFile env rel) (fun _ => Q) E := by
  refine triple_act hI hE hE' fun n w hw => ?_
  rw [show (w.node .controller rel).bind Node.contents = some bytes from hbytes w hw]
  by_cases hput : w.remoteRoot.get rel = some .other
  · dsimp only
    rw [Root.put_other hput]
    exact hother w hw hput
  · obtain ⟨root, hok, hreplaced⟩ := Root.put_spec (hroot w hw) hput (env.written n bytes)
    dsimp only
    rw [hok]
    exact h n w root hw hreplaced

theorem triple_deleteRemote (hdir : ∀ w, I w → ∃ files, w.remoteRoot = .directory files)
    (hother : ∀ w, I w → w.remoteRoot.get rel = some .other → E .osError w)
    (h : ∀ w root, I w → w.remoteRoot.Replaced root rel none →
      Q { w with remoteRoot := root, log := w.log ++ [.deleteRemote rel] }) :
    Triple I (deleteRemote env rel) (fun _ => Q) E := by
  refine triple_act hI hE hE' fun n w hw => ?_
  by_cases hget : w.remoteRoot.get rel = some .other
  · rw [Root.remove_other (hdir w hw) hget]
    exact hother w hw hget
  · obtain ⟨root, hroot, hreplaced⟩ := Root.remove_spec (hdir w hw) hget
    rw [hroot]
    exact h w root hw hreplaced

theorem triple_deleteLocal (hdir : ∀ w, I w → ∃ files, w.localRoot = .directory files)
    (hother : ∀ w, I w → w.localRoot.get rel = some .other → E .osError w)
    (h : ∀ w root, I w → w.localRoot.Replaced root rel none → Q { w with
      localRoot := root, log := w.log ++ [.deleteLocal rel (w.localRoot.get rel)] }) :
    Triple I (deleteLocal env rel) (fun _ => Q) E := by
  refine triple_act hI hE hE' fun n w hw => ?_
  by_cases hget : w.localRoot.get rel = some .other
  · rw [Root.remove_other (hdir w hw) hget]
    exact hother w hw hget
  · obtain ⟨root, hroot, hreplaced⟩ := Root.remove_spec (hdir w hw) hget
    rw [hroot]
    exact h w root hw hreplaced

end Writes

end Quiet

end Remrun.Reconcile
