import Remrun.Frames.Staging

/-!
# The contract of tar frames

The reader of a tar frame says that it stages everything or nothing and raises only its own error.
It does so exactly on the frames whose header and archive nothing trips; and what the writer framed
is staged again exactly when the header is short enough and the file system has room for the
paths.
-/

namespace Remrun.Frames
open JsonText Scan

set_option autoImplicit false

universe u

section Contract
variable {F : Type u} {W : Wire F} {tar : Tar} {fs : FileSystem} {data : Bytes}
  {header : Members F} {archive : Bytes} {items : List (Value F)} {declared : Declared F}
  {reading : Reading}

variable (W) in
def IsTar (header : Members F) : Prop :=
  equalsNat W 2 (header.lookup "v") = true ∧ equalsText "tar" (header.lookup "kind") = true

variable (W tar fs) in
/-- All the declared members are staged with contents of their digests, or a `FrameError` is
raised and nothing is staged. -/
def KeepsContract (data : Bytes) : Prop :=
  match verifyTarFrame W tar fs data none with
  | (.ok observed, some disk) => ∃ header archive items,
      decodeFrame W data = .ok (header, archive) ∧ itemsOf header = .ok items ∧
        observed.Perm ((specsOf W items).map Prod.fst) ∧
          ∀ e ∈ specsOf W items, ∃ bytes, ⟨fs.key e.1, bytes⟩ ∈ disk ∧ HasDigest W e.2 bytes
  | (.error (.frameError _), none) => True
  | _ => False

variable (W) in
/-- The declared members can be gone over, and none is malformed as long as those before it declare
members of their own. -/
def SoundHeader (header : Members F) : Prop :=
  ∃ items, itemsOf header = .ok items ∧ ∀ before item after, items = before ++ item :: after →
    Each (FitsHeader W) before → ¬ Malformed W item

variable (W fs) in
/-- No entry trips the reader after entries that fit. When all fit, reading ends with nothing but a
`TarError`, and when moreover everything declared is there, members the file system takes for one
are declared with one digest. -/
structure SoundArchive (declared : Declared F) (reading : Reading) : Prop where
  entries : ∀ before info after, reading.entries = before ++ info :: after →
    Each (FitsArchive W fs declared) before → ¬ Trips W fs declared before info
  ending : Each (FitsArchive W fs declared) reading.entries → reading.ending ≠ .raised
  digests : Each (FitsArchive W fs declared) reading.entries → reading.ending = .done →
    (∀ path ∈ declared.map Prod.fst, path ∈ (carriedBy reading.entries).map Prod.fst) →
      ∀ e ∈ declared, ∀ e' ∈ declared, fs.key e.1 = fs.key e'.1 →
        e.2.lookup "sha256" = e'.2.lookup "sha256"

variable (W tar fs) in
def Sound (data : Bytes) : Prop :=
  ∀ header archive, decodeFrame W data = .ok (header, archive) → IsTar W header →
    SoundHeader W header ∧ ∀ items, itemsOf header = .ok items → Each (FitsHeader W) items →
      SoundArchive W fs (specsOf W items) (tar.read archive)

theorem hasDigest_iff {spec : Members F} {payload : Bytes} :
    HasDigest W spec payload ↔ spec.lookup "sha256" = some (.str (W.sha256 payload)) := by
  rw [HasDigest]
  cases spec.lookup "sha256" with
  | none => simp [equalsText]
  | some value =>
    cases value with
    | str s => simp [equalsText]
    | _ => simp [equalsText]

theorem mem_of_lookup {e : String × Members F} (h : declared.lookup e.1 = some e.2) :
    e ∈ declared := by
  induction declared with
  | nil => cases h
  | cons first rest ih =>
    rw [List.lookup_cons] at h
    split at h
    · rename_i hkey
      have hfst : e.1 = first.1 := beq_iff_eq.mp hkey
      obtain rfl := Prod.ext hfst (Option.some.inj h).symm
      exact List.mem_cons_self
    · exact List.mem_cons_of_mem _ (ih h)

/-! ## What is staged -/

/-- A scan that found everything staged exactly what was declared, with the declared digests where
one file stands for members of one digest. -/
theorem staged_digests (hdeclared : (declared.map Prod.fst).Nodup)
    (hfits : Each (FitsArchive W fs declared) reading.entries)
    (hall : ∀ path ∈ declared.map Prod.fst, path ∈ (carriedBy reading.entries).map Prod.fst) :
    ((stagedBy fs reading.entries).observed.Perm (declared.map Prod.fst)) ∧
      ((∀ e ∈ declared, ∃ bytes, ⟨fs.key e.1, bytes⟩ ∈ (stagedBy fs reading.entries).disk ∧
        HasDigest W e.2 bytes) ↔
      ∀ e ∈ declared, ∀ e' ∈ declared, fs.key e.1 = fs.key e'.1 →
        e.2.lookup "sha256" = e'.2.lookup "sha256") := by
  have horderly := orderly hfits
  constructor
  · rw [stagedBy, List.perm_ext_iff_of_nodup horderly.once hdeclared]
    intro path
    refine ⟨fun hpath => ?_, hall path⟩
    obtain ⟨e, he, rfl⟩ := List.mem_map.mp hpath
    obtain ⟨spec, hlookup, -⟩ := horderly.declared e he
    exact List.mem_map.mpr ⟨(e.1, spec), mem_of_lookup hlookup, rfl⟩
  constructor
  · intro hfiles e he e' he' hkey
    obtain ⟨bytes, hmem, hdigest⟩ := hfiles e he
    obtain ⟨bytes', hmem', hdigest'⟩ := hfiles e' he'
    rw [hkey] at hmem
    obtain rfl := one_file hmem hmem'
    rw [hasDigest_iff.mp hdigest, hasDigest_iff.mp hdigest']
  · intro hsame e he
    obtain ⟨file, hfile, hpath⟩ := List.mem_map.mp (hall e.1 (List.mem_map_of_mem he))
    obtain ⟨bytes, hmem⟩ := mem_diskOf fs hfile
    obtain ⟨last, hlast, heq⟩ := of_mem_diskOf hmem
    obtain ⟨spec, hlookup, hdigest⟩ := horderly.declared last hlast
    obtain ⟨hkey, rfl⟩ := StagedFile.mk.inj heq
    rw [hpath] at hmem hkey
    refine ⟨last.2, hmem, ?_⟩
    rw [hasDigest_iff] at hdigest ⊢
    rw [hsame e he (last.1, spec) (mem_of_lookup hlookup) hkey]
    exact hdigest

/-! ## When the contract is kept -/

theorem soundHeader_of_each (hitems : itemsOf header = .ok items)
    (h : Each (FitsHeader W) items) : SoundHeader W header := by
  refine ⟨items, hitems, fun before item after heq hbefore hmalformed => ?_⟩
  obtain ⟨e, herror, -⟩ := (declare_escapes (specsOf W before)).mpr hmalformed
  have hok := (declare_follows before hbefore item _).mpr ⟨h before item after heq, rfl⟩
  rw [herror] at hok
  cases hok

theorem soundHeader_iff (hitems : itemsOf header = .ok items) {e : Raised}
    (h : items.foldlM (declare W) [] = .error e) : SoundHeader W header ↔ ¬ e.escapes := by
  obtain ⟨before, item, after, hsplit, hbefore, herror⟩ :=
    (declare_follows (W := W)).error_iff.mp (show items.foldlM (declare W) (specsOf W []) = .error e from h)
  constructor
  · rintro ⟨items', hitems', hsound⟩ hescapes
    obtain rfl := Except.ok.inj (hitems.symm.trans hitems')
    exact hsound before item after hsplit hbefore ((declare_escapes _).mp ⟨e, herror, hescapes⟩)
  · intro hframe
    refine ⟨items, hitems, fun before' item' after' hsplit' hbefore' hmalformed => ?_⟩
    obtain ⟨e', herror', hescapes'⟩ :=
      (declare_escapes (specsOf W before')).mpr hmalformed
    have hfirst : items.foldlM (declare W) [] = .error e' :=
      (declare_follows (W := W)).error_iff.mpr ⟨before', item', after', hsplit', hbefore', herror'⟩
    rw [h] at hfirst
    exact hframe (Except.error.inj hfirst ▸ hescapes')

theorem soundArchive_of_error {e : Raised}
    (h : stageArchive W fs declared reading [] = .error e) :
    SoundArchive W fs declared reading ↔ ¬ e.escapes := by
  constructor
  · intro hsound hescapes
    rcases stageArchive_escapes.mp ⟨e, h, hescapes⟩ with
      ⟨before, info, after, heq, hbefore, htrips⟩ | ⟨hfits, hending⟩
    · exact hsound.entries before info after heq hbefore htrips
    · exact hsound.ending hfits hending
  · intro hframe
    have hnot (hescapes : ∃ e, stageArchive W fs declared reading [] = .error e ∧ e.escapes) :
        False := by
      obtain ⟨e', h', hescapes'⟩ := hescapes
      rw [h] at h'
      exact hframe (Except.error.inj h' ▸ hescapes')
    constructor
    · intro before info after heq hbefore htrips
      exact hnot (stageArchive_escapes.mpr (Or.inl ⟨before, info, after, heq, hbefore, htrips⟩))
    · intro hfits hending
      exact hnot (stageArchive_escapes.mpr (Or.inr ⟨hfits, hending⟩))
    · intro hfits hending hall
      rw [stageArchive_ok.mpr ⟨hfits, hending, hall, rfl⟩] at h
      cases h

theorem soundArchive_of_ok {s : Staged} (h : stageArchive W fs declared reading [] = .ok s) :
    SoundArchive W fs declared reading ↔ ∀ e ∈ declared, ∀ e' ∈ declared,
      fs.key e.1 = fs.key e'.1 → e.2.lookup "sha256" = e'.2.lookup "sha256" := by
  obtain ⟨hfits, hending, hall, -⟩ := stageArchive_ok.mp h
  constructor
  · intro hsound
    exact hsound.digests hfits hending hall
  · intro hsame
    have hnot (hescapes : ∃ e, stageArchive W fs declared reading [] = .error e ∧ e.escapes) :
        False := by
      obtain ⟨e', h', -⟩ := hescapes
      rw [h] at h'
      cases h'
    constructor
    · intro before info after heq hbefore htrips
      exact hnot (stageArchive_escapes.mpr (Or.inl ⟨before, info, after, heq, hbefore, htrips⟩))
    · rw [hending]
      exact fun _ => nofun
    · exact fun _ _ _ => hsame

theorem sound_of_decode (hdecode : decodeFrame W data = .ok (header, archive)) :
    Sound W tar fs data ↔ (IsTar W header → SoundHeader W header ∧
      ∀ items, itemsOf header = .ok items → Each (FitsHeader W) items →
        SoundArchive W fs (specsOf W items) (tar.read archive)) := by
  constructor
  · intro h
    exact h header archive hdecode
  · intro h header' archive' hdecode'
    rw [hdecode, Except.ok.injEq, Prod.mk.injEq] at hdecode'
    obtain ⟨rfl, rfl⟩ := hdecode'
    exact h

/-- How the reader goes on with a tar frame whose members can be gone over. -/
theorem verify_items (hdecode : decodeFrame W data = .ok (header, archive)) (htar : IsTar W header)
    (hitems : itemsOf header = .ok items) : verifyTarFrame W tar fs data none =
      match items.foldlM (declare W) [] with
      | .error e => (.error e, none)
      | .ok declared =>
        match stageArchive W fs declared (tar.read archive) [] with
        | .error e => (.error e, none)
        | .ok s => (.ok s.observed, some s.disk) := by
  rw [verifyTarFrame, hdecode]
  simp only [htar.1, htar.2, hitems, Bool.not_true, Bool.or_self, Bool.false_eq_true, if_false]
  rfl

theorem keepsContract_items (hdecode : decodeFrame W data = .ok (header, archive))
    (htar : IsTar W header) (hitems : itemsOf header = .ok items) :
    KeepsContract W tar fs data ↔ SoundHeader W header ∧ (Each (FitsHeader W) items →
      SoundArchive W fs (specsOf W items) (tar.read archive)) := by
  rw [KeepsContract, verify_items hdecode htar hitems]
  cases hscan : items.foldlM (declare W) [] with
  | error e =>
    have hnot : ¬ Each (FitsHeader W) items := by
      intro hfits
      have hok := (declare_follows (W := W)).ok_iff.mpr ⟨hfits, rfl⟩
      rw [show specsOf W [] = [] from rfl, hscan] at hok
      cases hok
    rw [soundHeader_iff hitems hscan, and_iff_left fun hfits => absurd hfits hnot]
    cases e with
    | frameError _ => exact ⟨fun _ hno => hno, fun _ => trivial⟩
    | _ => exact ⟨False.elim, fun hno => hno trivial⟩
  | ok declared =>
    obtain ⟨hfits, rfl⟩ := (declare_follows (W := W)).ok_iff.mp
      (show items.foldlM (declare W) (specsOf W []) = .ok declared from hscan)
    rw [and_iff_right (soundHeader_of_each hitems hfits), imp_iff_right hfits]
    simp only
    cases hstage : stageArchive W fs (specsOf W items) (tar.read archive) [] with
    | error e =>
      rw [soundArchive_of_error hstage]
      cases e with
      | frameError _ => exact ⟨fun _ hno => hno, fun _ => trivial⟩
      | _ => exact ⟨False.elim, fun hno => hno trivial⟩
    | ok s =>
      obtain ⟨hentries, -, hall, rfl⟩ := stageArchive_ok.mp hstage
      obtain ⟨hperm, hdigests⟩ := staged_digests (nodup_specsOf hfits) hentries hall
      rw [soundArchive_of_ok hstage, ← hdigests]
      constructor
      · rintro ⟨header', archive', items', hdecode', hitems', -, hfiles⟩
        rw [hdecode, Except.ok.injEq, Prod.mk.injEq] at hdecode'
        obtain ⟨rfl, rfl⟩ := hdecode'
        obtain rfl := Except.ok.inj (hitems.symm.trans hitems')
        exact hfiles
      · intro hfiles
        exact ⟨header, archive, items, hdecode, hitems, hperm, hfiles⟩

theorem keepsContract_iff (data : Bytes) : KeepsContract W tar fs data ↔ Sound W tar fs data := by
  cases hdecode : decodeFrame W data with
  | error e =>
    have hverify : verifyTarFrame W tar fs data none =
        (.error (.frameError (.badFrame e)), none) := by
      rw [verifyTarFrame, hdecode]
    rw [KeepsContract, hverify]
    refine ⟨fun _ header archive hok => ?_, fun _ => trivial⟩
    rw [hdecode] at hok
    cases hok
  | ok frame =>
    obtain ⟨header, archive⟩ := frame
    rw [sound_of_decode hdecode]
    by_cases htar : IsTar W header
    · rw [imp_iff_right htar]
      cases hitems : itemsOf header with
      | error e =>
        have hverify : verifyTarFrame W tar fs data none = (.error e, none) := by
          rw [verifyTarFrame, hdecode]
          simp only [htar.1, htar.2, hitems, Bool.not_true, Bool.or_self, Bool.false_eq_true,
            if_false]
          rfl
        have hescapes : e = .typeError := by
          unfold itemsOf at hitems
          split at hitems <;> cases hitems
          rfl
        rw [KeepsContract, hverify, hescapes]
        refine ⟨False.elim, fun h => ?_⟩
        obtain ⟨items, hok, -⟩ := h.1
        rw [hitems] at hok
        cases hok
      | ok items =>
        rw [keepsContract_items hdecode htar hitems]
        simp only [Except.ok.injEq, forall_eq']
    · have hnot : (!equalsNat W 2 (header.lookup "v") ||
          !equalsText "tar" (header.lookup "kind")) = true := by
        rwa [← Bool.not_and, Bool.not_eq_true', ← Bool.not_eq_true, Bool.and_eq_true]
      rw [KeepsContract, verifyTarFrame, hdecode]
      simp only [hnot, if_true]
      exact ⟨fun _ h => absurd h htar, fun _ => trivial⟩

end Contract

/-! ## What the writer framed -/

section Writing
variable {F : Type u} {W : Wire F} {tar : Tar} {fs : FileSystem} {members : List Member}
  {checked : List (String × Member)} {transferId : String}

theorem checkedMembers_safe (h : checkedMembers members = .ok checked) :
    ∀ e ∈ checked, safeMemberPath e.1 = .ok e.1 := by
  induction members generalizing checked with
  | nil =>
    obtain rfl := Except.ok.inj h
    exact nofun
  | cons m rest ih =>
    unfold checkedMembers at h
    split at h
    · cases h
    · rename_i path hpath
      split at h
      · cases h
      · rename_i others hothers
        obtain rfl := Except.ok.inj h
        intro e he
        rcases List.mem_cons.mp he with rfl | he
        · exact safeMemberPath_checked hpath
        · exact ih hothers e he

variable (W) in
def specRows (e : String × Member) : Members F := [("path", .str e.1),
  ("size", .int e.2.data.bytes.length), ("sha256", .str (W.sha256 e.2.data.bytes)),
  ("mtime_ns", .int 0), ("mode", e.2.mode.elim .null .int)]

variable (W) in
/-- The declared spec of a member as it is read back, its keys in order. -/
def specRead (e : String × Member) : Members F := sortMembers (sortedMembers (specRows W e))

theorem specRead_lookup (e : String × Member) (key : String) :
    (specRead W e).lookup key = ((specRows W e).lookup key).map Value.sorted := by
  apply lookup_sorted
  change ["path", "size", "sha256", "mtime_ns", "mode"].Nodup
  decide

theorem specRead_path (e : String × Member) :
    (specRead W e).lookup "path" = some (.str e.1) := by
  rw [specRead_lookup]
  rfl

theorem specRead_size (e : String × Member) : HasSize W (specRead W e) e.2.data.bytes.length := by
  rw [HasSize, specRead_lookup]
  simp [specRows, List.lookup_cons, Value.sorted, equalsNat]

theorem specRead_digest (e : String × Member) : HasDigest W (specRead W e) e.2.data.bytes := by
  rw [hasDigest_iff, specRead_lookup]
  rfl

variable (W) in
def itemsRead (checked : List (String × Member)) : List (Value F) :=
  checked.map fun e => .obj (specRead W e)

variable (W tar) in
def headerRead (transferId : String) (checked : List (String × Member)) : Members F :=
  decoded W (tarFrameHeader W transferId checked) (archiveOf tar checked).bytes

theorem headerRead_lookup {key : String} (hsha : key ≠ "sha256") (hlen : key ≠ "decoded_length") :
    (headerRead W tar transferId checked).lookup key =
      ((tarFrameHeader W transferId checked).members.get key).map Value.sorted := by
  rw [headerRead, decoded_lookup, packed_get, if_neg hsha, if_neg hlen]

theorem headerRead_isTar : IsTar W (headerRead W tar transferId checked) := by
  constructor
  · rw [headerRead_lookup (by decide) (by decide)]
    rfl
  · rw [headerRead_lookup (by decide) (by decide)]
    rfl

theorem headerRead_items :
    itemsOf (headerRead W tar transferId checked) = .ok (itemsRead W checked) := by
  have hmembers : (tarFrameHeader W transferId checked).members.get "members" =
      some (.arr (checked.map fun e => specOf W e.1 e.2)) := rfl
  rw [itemsOf, headerRead_lookup (by decide) (by decide), hmembers, Option.map_some, Value.sorted,
    sortedItems_eq, List.map_map]
  rfl

theorem declares_specRead {e : String × Member} (h : safeMemberPath e.1 = .ok e.1) :
    declares W (.obj (specRead W e)) = some (e.1, specRead W e) := by
  rw [declares_eq_some]
  refine ⟨rfl, .str e.1, specRead_path e, ?_⟩
  have hne : e.1 ≠ "" := by
    intro hempty
    rw [hempty] at h
    cases h
  simp only [safePathOf, falsy, hne, decide_false, Bool.false_eq_true, if_false, h]

theorem specsOf_itemsRead (hsafe : ∀ e ∈ checked, safeMemberPath e.1 = .ok e.1) :
    specsOf W (itemsRead W checked) = checked.map fun e => (e.1, specRead W e) := by
  rw [specsOf, itemsRead, List.filterMap_map]
  induction checked with
  | nil => rfl
  | cons e rest ih =>
    have hone : (declares W ∘ fun e => Value.obj (specRead W e)) e = some (e.1, specRead W e) :=
      declares_specRead (hsafe e List.mem_cons_self)
    rw [List.filterMap_cons, hone, List.map_cons,
      ih fun e he => hsafe e (List.mem_cons_of_mem _ he)]

theorem itemsRead_fit (hsafe : ∀ e ∈ checked, safeMemberPath e.1 = .ok e.1)
    (hdistinct : (checked.map Prod.fst).Nodup) : Each (FitsHeader W) (itemsRead W checked) := by
  induction checked using List.reverseRecOn with
  | nil => exact each_nil
  | append_singleton checked e ih =>
    have hbefore : ∀ e' ∈ checked, safeMemberPath e'.1 = .ok e'.1 :=
      fun e' he' => hsafe e' (List.mem_append_left _ he')
    rw [List.map_append, List.nodup_append] at hdistinct
    have hitems : itemsRead W (checked ++ [e]) = itemsRead W checked ++ [.obj (specRead W e)] := by
      rw [itemsRead, List.map_append]
      rfl
    rw [hitems, each_concat]
    refine ⟨ih hbefore hdistinct.1, _,
      declares_specRead (hsafe e (List.mem_append_right _ List.mem_cons_self)), ?_⟩
    rw [specsOf_itemsRead hbefore, List.map_map]
    intro hmem
    exact hdistinct.2.2 _ hmem _ List.mem_cons_self rfl

/-! ## What is staged again -/

def entriesOf (checked : List (String × Member)) : List Entry :=
  checked.map fun e => TarMember.entry ⟨e.1, e.2.mode, e.2.data⟩

def filesOf (checked : List (String × Member)) : List (String × Bytes) :=
  checked.map fun e => (e.1, e.2.data.bytes)

theorem carriedBy_entriesOf (hsafe : ∀ e ∈ checked, safeMemberPath e.1 = .ok e.1) :
    carriedBy (entriesOf checked) = filesOf checked := by
  rw [carriedBy, entriesOf, List.filterMap_map, filesOf]
  induction checked with
  | nil => rfl
  | cons e rest ih =>
    have hone : (carried ∘ fun e : String × Member => TarMember.entry ⟨e.1, e.2.mode, e.2.data⟩) e =
        some (e.1, e.2.data.bytes) := carried_file rfl (hsafe e List.mem_cons_self) rfl
    rw [List.filterMap_cons, hone, List.map_cons,
      ih fun e he => hsafe e (List.mem_cons_of_mem _ he)]

variable (fs) in
/-- The file system has room for all the paths, and takes two for one only where the members are
the same. -/
structure Roomy (checked : List (String × Member)) : Prop where
  named : ∀ e ∈ checked, ∀ part ∈ partsOf e.1, fs.names part = true
  apart : ∀ e ∈ checked, ∀ e' ∈ checked, ¬ Clash fs e.1 e'.1
  same : ∀ e ∈ checked, ∀ e' ∈ checked, fs.key e.1 = fs.key e'.1 →
    e.2.data.bytes = e'.2.data.bytes

theorem Roomy.noNul (h : Roomy fs checked) {e : String × Member} (he : e ∈ checked) :
    '\x00' ∉ e.1.toList := by
  intro hnul
  rcases mem_partsOf hnul with hslash | ⟨part, hpart, hc⟩
  · exact absurd hslash (by decide)
  · exact fs.noNul part (h.named e he part hpart) hc

theorem entriesOf_fit (hsafe : ∀ e ∈ checked, safeMemberPath e.1 = .ok e.1)
    (hdistinct : (checked.map Prod.fst).Nodup) (hroomy : Roomy fs checked) :
    Each (FitsArchive W fs (checked.map fun e => (e.1, specRead W e))) (entriesOf checked) := by
  intro before info after hsplit
  rw [entriesOf, List.map_eq_append_iff] at hsplit
  obtain ⟨earlier, others, rfl, rfl, hothers⟩ := hsplit
  obtain ⟨e, later, rfl, rfl, -⟩ := List.map_eq_cons_iff.mp hothers
  have he : e ∈ earlier ++ e :: later := List.mem_append_right _ List.mem_cons_self
  have hearlier : ∀ e' ∈ earlier, e' ∈ earlier ++ e :: later :=
    fun e' he' => List.mem_append_left _ he'
  have hfiles : carriedBy (earlier.map fun e => TarMember.entry ⟨e.1, e.2.mode, e.2.data⟩) =
      filesOf earlier := carriedBy_entriesOf fun e' he' => hsafe e' (hearlier e' he')
  refine Or.inr ⟨e.1, specRead W e, e.2.data.bytes, ⟨rfl, hsafe e he, ?_, ?_⟩, specRead_size e, rfl,
    specRead_digest e, hroomy.named e he, ?_⟩
  · rw [lookup_eq_some_iff (by rw [List.map_map]; exact hdistinct)]
    exact List.mem_map.mpr ⟨e, he, rfl⟩
  · rw [hfiles, filesOf, List.map_map]
    rw [List.map_append, List.nodup_append] at hdistinct
    intro hmem
    exact hdistinct.2.2 _ hmem _ List.mem_cons_self rfl
  · rw [hfiles]
    intro file hfile
    obtain ⟨e', he', rfl⟩ := List.mem_map.mp hfile
    exact hroomy.apart e he e' (hearlier e' he')

variable (W tar fs) in
/-- The frame is verified, and exactly its paths are staged with exactly their bytes. -/
def RoundTrips (frame : Bytes) (checked : List (String × Member)) : Prop :=
  ∃ observed disk, verifyTarFrame W tar fs frame none = (.ok observed, some disk) ∧
    observed.Perm (checked.map Prod.fst) ∧
    (∀ e ∈ checked, ⟨fs.key e.1, e.2.data.bytes⟩ ∈ disk) ∧
    ∀ file ∈ disk, ∃ e ∈ checked, file = ⟨fs.key e.1, e.2.data.bytes⟩

variable (W tar) in
def tarFrame (transferId : String) (checked : List (String × Member)) : Bytes :=
  encodeFrame W (tarFrameHeader W transferId checked) (archiveOf tar checked).bytes

theorem encodeTarFrame_ok {frame : Bytes} (h : encodeTarFrame W tar members transferId = .ok frame)
    (hchecked : checkedMembers members = .ok checked) : frame = tarFrame W tar transferId checked := by
  rw [encodeTarFrame, hchecked] at h
  exact (Except.ok.inj h).symm

variable (W tar) in
/-- The header is within the reader's bound. -/
def Short (transferId : String) (checked : List (String × Member)) : Prop :=
  (headerBytes W (tarFrameHeader W transferId checked) (archiveOf tar checked).bytes).length ≤
    maxHeaderBytes

theorem roundTrips_of_roomy (hT : W.floats.Faithful) (htar : tar.ReadsBack (tarMembers checked))
    (hsafe : ∀ e ∈ checked, safeMemberPath e.1 = .ok e.1)
    (hdistinct : (checked.map Prod.fst).Nodup) (hshort : Short W tar transferId checked)
    (hroomy : Roomy fs checked) : RoundTrips W tar fs (tarFrame W tar transferId checked) checked := by
  have hdecode := decodeFrame_ok_iff.mpr
    (framed_encoded hT (tarFrameHeader W transferId checked) (archiveOf tar checked) hshort)
  have hread : tar.read (archiveOf tar checked).bytes = ⟨entriesOf checked, .done⟩ := by
    rw [archiveOf, htar, tarMembers, List.map_map]
    · rfl
    · intro m hm
      obtain ⟨e, he, rfl⟩ := List.mem_map.mp hm
      exact hroomy.noNul he
  have hscan : (itemsRead W checked).foldlM (declare W) [] =
      .ok (checked.map fun e => (e.1, specRead W e)) := by
    rw [← specsOf_itemsRead hsafe]
    exact declare_follows.ok_iff.mpr ⟨itemsRead_fit hsafe hdistinct, rfl⟩
  have hfiles := carriedBy_entriesOf hsafe
  have hstage : stageArchive W fs (checked.map fun e => (e.1, specRead W e))
      ⟨entriesOf checked, .done⟩ [] = .ok (stagedBy fs (entriesOf checked)) := by
    refine stageArchive_ok.mpr ⟨entriesOf_fit hsafe hdistinct hroomy, rfl, ?_, rfl⟩
    rw [hfiles, filesOf, List.map_map, List.map_map]
    exact fun path hpath => hpath
  refine ⟨(stagedBy fs (entriesOf checked)).observed, (stagedBy fs (entriesOf checked)).disk,
    ?_, ?_, ?_, ?_⟩
  · rw [tarFrame, verify_items hdecode headerRead_isTar headerRead_items, hread, hscan]
    simp only [hstage]
  · rw [stagedBy, hfiles, filesOf, List.map_map]
    exact List.Perm.refl _
  · intro e he
    have hfile : (e.1, e.2.data.bytes) ∈ filesOf checked := List.mem_map.mpr ⟨e, he, rfl⟩
    rw [stagedBy, hfiles]
    obtain ⟨bytes, hmem⟩ := mem_diskOf fs hfile
    obtain ⟨last, hlast, heq⟩ := of_mem_diskOf hmem
    obtain ⟨e', he', rfl⟩ := List.mem_map.mp hlast
    obtain ⟨hkey, rfl⟩ := StagedFile.mk.inj heq
    rw [hroomy.same e he e' he' hkey]
    exact hmem
  · intro file hfile
    rw [stagedBy, hfiles] at hfile
    obtain ⟨entry, hentry, rfl⟩ := of_mem_diskOf hfile
    obtain ⟨e, he, rfl⟩ := List.mem_map.mp hentry
    exact ⟨e, he, rfl⟩

theorem roomy_of_roundTrips (hT : W.floats.Faithful)
    (hsafe : ∀ e ∈ checked, safeMemberPath e.1 = .ok e.1)
    (h : RoundTrips W tar fs (tarFrame W tar transferId checked) checked) :
    Short W tar transferId checked ∧ Roomy fs checked := by
  obtain ⟨observed, disk, hverify, -, hstaged, -⟩ := h
  rw [tarFrame] at hverify
  have hshort : Short W tar transferId checked := by
    cases hdecode : decodeFrame W (encodeFrame W (tarFrameHeader W transferId checked)
        (archiveOf tar checked).bytes) with
    | error e =>
      rw [verifyTarFrame, hdecode] at hverify
      cases hverify
    | ok frame => exact cap_of_framed (decodeFrame_ok_iff.mp hdecode) rfl
  refine ⟨hshort, ?_⟩
  have hdecode := decodeFrame_ok_iff.mpr
    (framed_encoded hT (tarFrameHeader W transferId checked) (archiveOf tar checked) hshort)
  rw [verify_items hdecode headerRead_isTar headerRead_items] at hverify
  split at hverify
  · cases hverify
  · rename_i declared hscan
    obtain ⟨hitems, rfl⟩ := (declare_follows (W := W)).ok_iff.mp
      (show (itemsRead W checked).foldlM (declare W) (specsOf W []) = .ok declared from hscan)
    split at hverify
    · cases hverify
    · rename_i s hstage
      obtain ⟨hfits, -, hall, rfl⟩ := stageArchive_ok.mp hstage
      have horderly := orderly hfits
      rw [specsOf_itemsRead hsafe, List.map_map] at hall
      have hcarried (e : String × Member) (he : e ∈ checked) :
          ∃ file ∈ carriedBy (tar.read (archiveOf tar checked).bytes).entries, file.1 = e.1 :=
        List.mem_map.mp (hall e.1 (List.mem_map.mpr ⟨e, he, rfl⟩))
      constructor
      · intro e he
        obtain ⟨file, hfile, hpath⟩ := hcarried e he
        rw [← hpath]
        exact horderly.named file hfile
      · intro e he e' he'
        obtain ⟨file, hfile, hpath⟩ := hcarried e he
        obtain ⟨file', hfile', hpath'⟩ := hcarried e' he'
        rw [← hpath, ← hpath']
        exact horderly.apart file hfile file' hfile'
      · intro e he e' he' hkey
        obtain ⟨-, hdisk⟩ := Prod.mk.inj hverify
        have hmem := hstaged e he
        have hmem' := hstaged e' he'
        rw [← Option.some.inj hdisk] at hmem hmem'
        rw [hkey] at hmem
        exact one_file hmem hmem'

end Writing

section Verdict
variable {F : Type u}

/-- A `tarfile` that knows the archive without members. -/
def blankTar : Tar where
  write _ := ⟨List.replicate 10240 0, by rw [List.length_replicate]; decide⟩
  read _ := ⟨[], .done⟩

/-- The digest of that archive. -/
def blankWire : Wire Unit where
  floats := nanWire.floats
  floatIs _ _ := false
  sha256 _ := "84ff92691f909a05b224e1c56abb4864f01b4f8e3c854e4bb4c7baf1d3f6d652"

/-- Names without NUL, told apart as they are. -/
def posix : FileSystem where
  names name := !name.toList.contains '\x00'
  fold := id
  noNul name h := by
    simpa using h

/-- Two paths of which one is a directory of the other. -/
def nested : List Member := [⟨"a", ⟨[], Nat.zero_le _⟩, none⟩, ⟨"a/b", ⟨[], Nat.zero_le _⟩, none⟩]

def nestedChecked : List (String × Member) := nested.map fun m => (m.path, m)

/-- A `tarfile` that knows the archive of these. -/
def nestedTar : Tar where
  write := blankTar.write
  read _ := ⟨entriesOf nestedChecked, .done⟩

/-- A header whose one member is a number. -/
def numberHeader : Header Unit where
  members := ⟨[("v", .int 2), ("kind", .str "tar"), ("members", .arr [.int 5])], by decide⟩
  proper m hm := by
    simp only [List.mem_cons, List.not_mem_nil, or_false] at hm
    rcases hm with rfl | rfl | rfl
    · exact .int _
    · exact .str _
    · refine .arr _ fun v hv => ?_
      obtain rfl := List.mem_singleton.mp hv
      exact .int _

end Verdict

end Remrun.Frames
