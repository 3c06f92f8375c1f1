import Remrun.Runner.Enrollment
import Remrun.Runner.Protocol

/-!
# Key enrollment is safe and can always be finished

Every invariant is about what backs a key: its row at the authority, the secret on file under
the row's name, and the same secret on file at the target once the target committed it.
-/

namespace Remrun.Runner

open Relational
set_option autoImplicit false

variable {P : Prims}

/-! ## Keys the authority backs -/

/-- The authority has a row for the key and its secret on file. -/
structure Authority.Backs (P : Prims) (db : Authority) (key : TargetKey) (secret : Bytes) :
    Prop where
  row : ∃ t ∈ db.targets, t.key = key
  file : ∃ path, secretPath P db.info.clusterId key.targetDeviceId key.authorityEpoch key.keyId =
    .ok path ∧ db.keys path = some secret
  digest : P.sha256 secret = key.keySha256
  length : secret.length = 32

structure Authority.Sound (P : Prims) (clusterId : String) (db : Authority) : Prop where
  cluster : db.info.clusterId = clusterId
  opened : db.info.sealed = false
  epoch : 1 ≤ db.info.authorityEpoch
  rows : ∀ t ∈ db.targets, t.authorityEpoch ≤ db.info.authorityEpoch ∧ t.keyId ≠ "" ∧
    ∃ secret, db.Backs P t.key secret

/-- What every later store keeps. -/
structure Authority.Grows (db db' : Authority) : Prop where
  cluster : db'.info.clusterId = db.info.clusterId
  rows : ∀ t ∈ db.targets, ∃ t' ∈ db'.targets, t'.key = t.key
  keys : ∀ path secret, db.keys path = some secret → db'.keys path = some secret

/-- What one transaction keeps besides: a pending key holds the epoch, and is not retired. -/
structure Authority.Follows (db db' : Authority) : Prop extends Authority.Grows db db' where
  pending : ∀ t ∈ db.targets, t.state = .pending →
    db'.info.authorityEpoch = db.info.authorityEpoch ∧
      ∃ t' ∈ db'.targets, t'.key = t.key ∧ t'.state ≠ .retired

theorem Authority.Backs.grow {db db' : Authority} {key : TargetKey} {secret : Bytes}
    (h : db.Backs P key secret) (hgrow : db.Grows db') : db'.Backs P key secret := by
  obtain ⟨t, ht, hkey⟩ := h.row
  obtain ⟨t', ht', hkey'⟩ := hgrow.rows t ht
  obtain ⟨path, hpath, hfile⟩ := h.file
  refine ⟨⟨t', ht', hkey'.trans hkey⟩, ⟨path, ?_, hgrow.keys path secret hfile⟩, h.digest, h.length⟩
  rw [hgrow.cluster]
  exact hpath

/-- One target has one key in an epoch. -/
theorem Authority.Backs.unique {db : Authority} {k k' : TargetKey} {secret secret' : Bytes}
    (h : db.Backs P k secret) (h' : db.Backs P k' secret')
    (htarget : k.targetDeviceId = k'.targetDeviceId)
    (hepoch : k.authorityEpoch = k'.authorityEpoch) : k = k' ∧ secret = secret' := by
  obtain ⟨t, ht, rfl⟩ := h.row
  obtain ⟨t', ht', rfl⟩ := h'.row
  have heq : t = t' := Table.eq_of_clash ht ht' ⟨htarget, hepoch⟩ ⟨htarget.symm, hepoch.symm⟩
  subst heq
  obtain ⟨path, hpath, hfile⟩ := h.file
  obtain ⟨path', hpath', hfile'⟩ := h'.file
  rw [hpath] at hpath'
  cases hpath'
  rw [hfile] at hfile'
  exact ⟨rfl, Option.some.inj hfile'⟩

/-! ## Authority moves -/

theorem keySide_eq {db : Authority} {targets : Table AuthorityTarget AuthorityTarget.Clash}
    {keys : KeyFiles} {info : Meta} :
    db.keySide = (targets, keys, info) ↔ db.targets = targets ∧ db.keys = keys ∧ db.info = info := by
  simp [Authority.keySide]

/-- Updating the state column keeps the keys of all rows. -/
theorem setState_key (p : AuthorityTarget → Bool) (state : TargetState) (t : AuthorityTarget) :
    (Table.setWhere p (fun t => { t with state := state }) t).key = t.key :=
  Table.setWhere_column AuthorityTarget.key p (fun t => { t with state := state }) (fun _ => rfl) t

theorem follows_kept {db db' : Authority} (h : db'.keySide = db.keySide) : db.Follows db' := by
  obtain ⟨htargets, hkeys, hinfo⟩ := keySide_eq.mp h
  refine ⟨⟨congrArg Meta.clusterId hinfo, ?_, ?_⟩, ?_⟩
  · intro t ht
    exact ⟨t, htargets ▸ ht, rfl⟩
  · rw [hkeys]
    exact fun _ _ hfile => hfile
  · intro t ht hstate
    refine ⟨congrArg Meta.authorityEpoch hinfo, t, htargets ▸ ht, rfl, ?_⟩
    rw [hstate]
    simp

theorem KeyMove.follows {request : AuthorityRequest} {r : Readings} {db db' : Authority}
    (h : KeyMove P request r db db') : db.Follows db' := by
  cases h with
  | kept _ same => exact follows_kept same
  | created target path targets _ absent named free insert after =>
    obtain ⟨htargets, hkeys, hinfo⟩ := keySide_eq.mp after
    have hold : ∀ t ∈ db.targets, t ∈ db'.targets := by
      intro t ht
      rw [htargets]
      exact (Table.mem_insert insert).mpr (Or.inl ht)
    refine ⟨⟨congrArg Meta.clusterId hinfo, fun t ht => ⟨t, hold t ht, rfl⟩, ?_⟩, ?_⟩
    · intro path' secret hfile
      have hne : path' ≠ path := by
        rintro rfl
        rw [free] at hfile
        cases hfile
      rw [hkeys, Function.update_of_ne hne]
      exact hfile
    · intro t ht hstate
      refine ⟨congrArg Meta.authorityEpoch hinfo, t, hold t ht, rfl, ?_⟩
      rw [hstate]
      simp
  | finalized receipt row _ delivered stored target epoch keyId digest after =>
    obtain ⟨htargets, hkeys, hinfo⟩ := keySide_eq.mp after
    refine ⟨⟨congrArg Meta.clusterId hinfo, ?_, ?_⟩, ?_⟩
    · intro t ht
      rw [htargets]
      exact ⟨_, Table.update_mem _ ht, setState_key _ _ t⟩
    · rw [hkeys]
      exact fun _ _ hfile => hfile
    · intro t ht hstate
      rw [htargets]
      refine ⟨congrArg Meta.authorityEpoch hinfo, _, Table.update_mem _ ht, setState_key _ _ t, ?_⟩
      unfold Table.setWhere
      split
      · simp
      · rw [hstate]
        simp
  | rotated _ quiescent after =>
    obtain ⟨htargets, hkeys, hinfo⟩ := keySide_eq.mp after
    refine ⟨⟨by rw [hinfo], ?_, ?_⟩, ?_⟩
    · intro t ht
      rw [htargets]
      exact ⟨_, Table.update_mem _ ht, setState_key _ _ t⟩
    · rw [hkeys]
      exact fun _ _ hfile => hfile
    · intro t ht hstate
      simp only [Authority.quiescent, Bool.and_eq_true, List.isEmpty_iff] at quiescent
      exact absurd (decide_eq_true hstate) (Table.select_eq_nil.mp quiescent.2 t ht)

theorem KeyMove.epoch {request : AuthorityRequest} {r : Readings} {db db' : Authority}
    (h : KeyMove P request r db db') : db.info.authorityEpoch ≤ db'.info.authorityEpoch ∧
      db'.info.sealed = db.info.sealed := by
  cases h with
  | kept _ same =>
    obtain ⟨_, _, hinfo⟩ := keySide_eq.mp same
    rw [hinfo]
    exact ⟨le_refl _, rfl⟩
  | created _ _ _ _ _ _ _ _ after =>
    obtain ⟨_, _, hinfo⟩ := keySide_eq.mp after
    rw [hinfo]
    exact ⟨le_refl _, rfl⟩
  | finalized _ _ _ _ _ _ _ _ _ after =>
    obtain ⟨_, _, hinfo⟩ := keySide_eq.mp after
    rw [hinfo]
    exact ⟨le_refl _, rfl⟩
  | rotated _ _ after =>
    obtain ⟨_, _, hinfo⟩ := keySide_eq.mp after
    rw [hinfo]
    exact ⟨by simp, rfl⟩

/-- The rows a move leaves: an old row with a new state, or the row of the key it created. -/
theorem KeyMove.rows {request : AuthorityRequest} {r : Readings} {db db' : Authority}
    (h : KeyMove P request r db db') (t' : AuthorityTarget) (ht' : t' ∈ db'.targets) :
    (∃ t ∈ db.targets, t.key = t'.key) ∨
      (t'.state = .pending ∧ t'.authorityEpoch = db.info.authorityEpoch ∧ t'.keyId = r.uuid ∧
        t'.keySha256 = P.sha256 r.urandom ∧
        ∃ path, secretPath P db.info.clusterId t'.targetDeviceId t'.authorityEpoch t'.keyId =
          .ok path ∧ db'.keys path = some r.urandom) := by
  cases h with
  | kept _ same =>
    obtain ⟨htargets, _, _⟩ := keySide_eq.mp same
    exact Or.inl ⟨t', htargets ▸ ht', rfl⟩
  | created target path targets _ absent named free insert after =>
    obtain ⟨htargets, hkeys, hinfo⟩ := keySide_eq.mp after
    rw [htargets] at ht'
    rcases (Table.mem_insert insert).mp ht' with hold | rfl
    · exact Or.inl ⟨t', hold, rfl⟩
    · refine Or.inr ⟨rfl, rfl, rfl, rfl, path, named, ?_⟩
      rw [hkeys, Function.update_self]
  | finalized _ _ _ _ _ _ _ _ _ after =>
    obtain ⟨htargets, _, _⟩ := keySide_eq.mp after
    rw [htargets] at ht'
    obtain ⟨t, ht, rfl⟩ := Table.mem_update.mp ht'
    exact Or.inl ⟨t, ht, (setState_key _ _ t).symm⟩
  | rotated _ _ after =>
    obtain ⟨htargets, _, _⟩ := keySide_eq.mp after
    rw [htargets] at ht'
    obtain ⟨t, ht, rfl⟩ := Table.mem_update.mp ht'
    exact Or.inl ⟨t, ht, (setState_key _ _ t).symm⟩

theorem KeyMove.sound {request : AuthorityRequest} {r : Readings} {db db' : Authority}
    {clusterId : String} (h : KeyMove P request r db db') (hlength : r.urandom.length = 32)
    (hsound : db.Sound P clusterId) : db'.Sound P clusterId := by
  have hfollows := h.follows
  obtain ⟨hepoch, hsealed⟩ := h.epoch
  refine ⟨hfollows.cluster.trans hsound.cluster, hsealed.trans hsound.opened,
    le_trans hsound.epoch hepoch, ?_⟩
  intro t' ht'
  rcases h.rows t' ht' with ⟨t, ht, hkey⟩ | ⟨_, hnow, hid, hdigest, path, hpath, hfile⟩
  · obtain ⟨hle, hne, secret, hback⟩ := hsound.rows t ht
    rw [← hkey]
    refine ⟨?_, ?_, secret, hback.grow hfollows.toGrows⟩
    · exact le_trans (le_of_eq (congrArg TargetKey.authorityEpoch hkey.symm)) (le_trans hle hepoch)
    · rw [show t'.keyId = t.keyId from congrArg TargetKey.keyId hkey.symm]
      exact hne
  · refine ⟨hnow ▸ hepoch, hid ▸ r.uuid_ne, r.urandom, ⟨t', ht', rfl⟩, ⟨path, ?_, hfile⟩,
      hdigest.symm, hlength⟩
    rw [hfollows.cluster]
    exact hpath

/-! ## What the targets committed -/

/-- The target of the key has committed it. -/
def Committed (participants : String → Participant) (clusterId : String) (key : TargetKey) : Prop :=
  ∃ a ∈ (participants key.targetDeviceId).enrolled, a.clusterId = clusterId ∧
    a.key key.targetDeviceId = key

/-- Every key the authority ever marked as enrolled was committed by its target. -/
def Confirmed (participants : String → Participant) (db : Authority) : Prop :=
  ∀ t ∈ db.targets, t.state ≠ .pending → Committed participants db.info.clusterId t.key

/-- What an enrollment receipt says of a store. -/
def Participant.Answers (p : Participant) (d clusterId : String) (receipt : Envelope) : Prop :=
  ∃ a ∈ p.enrolled, a.clusterId = clusterId ∧ receipt.body.targetDeviceId = some d ∧
    receipt.body.authorityEpoch = some a.authorityEpoch ∧ receipt.body.keyId = some a.keyId ∧
    receipt.body.keySha256 = some a.keySha256

theorem KeyMove.confirmed {request : AuthorityRequest} {r : Readings} {db db' : Authority}
    {participants : String → Participant} (h : KeyMove P request r db db')
    (hprinted : ∀ e, request = .targetKeyFinalize (some e) →
      ∃ d, (participants d).Answers d db.info.clusterId e)
    (hconf : Confirmed participants db) : Confirmed participants db' := by
  have hcluster : db'.info.clusterId = db.info.clusterId := h.follows.cluster
  have hold : ∀ (p : AuthorityTarget → Bool) (state : TargetState), ∀ t ∈ db.targets,
      t.state ≠ .pending → Committed participants db'.info.clusterId
        (Table.setWhere p (fun t => { t with state := state }) t).key := by
    intro p state t ht hstate
    rw [setState_key, hcluster]
    exact hconf t ht hstate
  intro t' ht' hstate
  cases h with
  | kept _ same =>
    obtain ⟨htargets, _, _⟩ := keySide_eq.mp same
    rw [hcluster]
    exact hconf t' (htargets ▸ ht') hstate
  | created target path targets _ absent named free insert after =>
    obtain ⟨htargets, hkeys, hinfo⟩ := keySide_eq.mp after
    rw [htargets] at ht'
    rcases (Table.mem_insert insert).mp ht' with hin | rfl
    · rw [hcluster]
      exact hconf t' hin hstate
    · exact absurd rfl hstate
  | finalized receipt row _ delivered stored target epoch keyId digest after =>
    obtain ⟨htargets, hkeys, hinfo⟩ := keySide_eq.mp after
    rw [htargets] at ht'
    obtain ⟨t, ht, rfl⟩ := Table.mem_update.mp ht'
    by_cases hpending : t.state = .pending
    · by_cases hnamed : t.targetDeviceId = row.targetDeviceId ∧
          t.authorityEpoch = row.authorityEpoch ∧ t.keyId = row.keyId ∧ t.state = .pending
      · obtain ⟨d, a, ha, hac, hd, hepoch, hkeyId, hsha⟩ := hprinted receipt delivered
        have heq : t = row := Table.eq_of_clash ht stored ⟨hnamed.1, hnamed.2.1⟩
          ⟨hnamed.1.symm, hnamed.2.1.symm⟩
        rw [setState_key, hcluster, heq]
        rw [hd, Option.getD_some] at target
        rw [hepoch, Option.getD_some] at epoch
        rw [hkeyId, Option.getD_some] at keyId
        rw [hsha, Option.getD_some] at digest
        subst target
        exact ⟨a, ha, hac, by rw [EnrolledAuthority.key, AuthorityTarget.key, epoch, keyId, digest]⟩
      · rw [Table.setWhere_neg (by simpa using hnamed)] at hstate
        exact absurd hpending hstate
    · exact hold _ _ t ht hpending
  | rotated _ quiescent after =>
    obtain ⟨htargets, hkeys, hinfo⟩ := keySide_eq.mp after
    rw [htargets] at ht'
    obtain ⟨t, ht, rfl⟩ := Table.mem_update.mp ht'
    by_cases hpending : t.state = .pending
    · simp only [Authority.quiescent, Bool.and_eq_true, List.isEmpty_iff] at quiescent
      exact absurd (decide_eq_true hpending) (Table.select_eq_nil.mp quiescent.2 t ht)
    · exact hold _ _ t ht hpending

/-! ## The target's store -/

/-- Each row has the authority's secret on file; one row of a cluster is enrolled, and the
retired ones are below it. -/
structure Participant.Sound (P : Prims) (db : Authority) (d : String) (p : Participant) : Prop where
  device : p.deviceId = d
  rows : ∀ a ∈ p.enrolled, a.clusterId = db.info.clusterId ∧ ∃ secret,
    db.Backs P (a.key d) secret ∧
      p.keys ⟨a.clusterId, d, a.authorityEpoch, a.keyId⟩ = some secret
  retired : ∀ a ∈ p.enrolled, a.state = .retired → ∃ b ∈ p.enrolled, b.clusterId = a.clusterId ∧
    b.state = .enrolled ∧ a.authorityEpoch < b.authorityEpoch
  single : ∀ a ∈ p.enrolled, ∀ b ∈ p.enrolled, a.clusterId = b.clusterId → a.state = .enrolled →
    b.state = .enrolled → a.authorityEpoch = b.authorityEpoch

/-- Rows stay, and a cluster with an enrolled row keeps one of at least its epoch. -/
structure Participant.Grows (p p' : Participant) : Prop where
  rows : ∀ a ∈ p.enrolled, ∃ b ∈ p'.enrolled, b.clusterId = a.clusterId ∧
    b.authorityEpoch = a.authorityEpoch ∧ b.keyId = a.keyId ∧ b.keySha256 = a.keySha256
  climbs : ∀ a ∈ p.enrolled, a.state = .enrolled → ∃ b ∈ p'.enrolled, b.clusterId = a.clusterId ∧
    b.state = .enrolled ∧ a.authorityEpoch ≤ b.authorityEpoch

theorem Participant.Grows.refl (p : Participant) : p.Grows p :=
  ⟨fun a ha => ⟨a, ha, rfl, rfl, rfl, rfl⟩, fun a ha h => ⟨a, ha, rfl, h, le_refl _⟩⟩

theorem Participant.Grows.trans {p p' p'' : Participant} (h : p.Grows p') (h' : p'.Grows p'') :
    p.Grows p'' := by
  constructor
  · intro a ha
    obtain ⟨b, hb, hb1, hb2, hb3, hb4⟩ := h.rows a ha
    obtain ⟨c, hc, hc1, hc2, hc3, hc4⟩ := h'.rows b hb
    exact ⟨c, hc, hc1.trans hb1, hc2.trans hb2, hc3.trans hb3, hc4.trans hb4⟩
  · intro a ha hstate
    obtain ⟨b, hb, hb1, hb2, hb3⟩ := h.climbs a ha hstate
    obtain ⟨c, hc, hc1, hc2, hc3⟩ := h'.climbs b hb hb2
    exact ⟨c, hc, hc1.trans hb1, hc2, le_trans hb3 hc3⟩

theorem Participant.Grows.answers {p p' : Participant} (h : p.Grows p') {d clusterId : String}
    {receipt : Envelope} (hans : p.Answers d clusterId receipt) :
    p'.Answers d clusterId receipt := by
  obtain ⟨a, ha, hac, hd, hepoch, hkeyId, hsha⟩ := hans
  obtain ⟨b, hb, hb1, hb2, hb3, hb4⟩ := h.rows a ha
  refine ⟨b, hb, hb1.trans hac, hd, ?_, ?_, ?_⟩
  · rw [hb2, hepoch]
  · rw [hb3, hkeyId]
  · rw [hb4, hsha]

theorem Participant.Sound.grow {db db' : Authority} {d : String} {p : Participant}
    (h : p.Sound P db d) (hgrow : db.Grows db') : p.Sound P db' d := by
  refine ⟨h.device, ?_, h.retired, h.single⟩
  intro a ha
  obtain ⟨hcluster, secret, hback, hfile⟩ := h.rows a ha
  exact ⟨hcluster.trans hgrow.cluster.symm, secret, hback.grow hgrow, hfile⟩

/-- One target committed one key in an epoch. -/
theorem Participant.Sound.key_eq {db : Authority} {d : String} {p : Participant}
    (h : p.Sound P db d) {a : EnrolledAuthority} (ha : a ∈ p.enrolled) {key : TargetKey}
    {secret : Bytes} (hback : db.Backs P key secret) (htarget : key.targetDeviceId = d)
    (hepoch : a.authorityEpoch = key.authorityEpoch) :
    a.key d = key ∧ p.keys ⟨a.clusterId, d, a.authorityEpoch, a.keyId⟩ = some secret := by
  obtain ⟨_, secret', hback', hfile⟩ := h.rows a ha
  obtain ⟨hkey, hsecret⟩ := hback'.unique hback htarget.symm hepoch
  exact ⟨hkey, hsecret ▸ hfile⟩

/-! ## The import -/

theorem secretPath_ok {clusterId target keyId : String} {epoch : Int} {path : KeyPath}
    (h : secretPath P clusterId target epoch keyId = .ok path) :
    path = ⟨clusterId, target, epoch, keyId⟩ := by
  simp only [secretPath, bind_eq_ok, pure_eq_ok] at h
  obtain ⟨_, _, rfl⟩ := h
  rfl

/-- The published file is the frame's secret; the file of a committed row is not replaced. -/
theorem publishKey_spec {e : Enrollment} {path : KeyPath} {p : Participant} {keys : KeyFiles}
    (h : publishKey e path p = .ok keys) : keys path = some e.secret ∧
      (∀ path', path' ≠ path → keys path' = p.keys path') ∧
      ∀ a ∈ p.enrolled, a.clusterId = e.clusterId → a.authorityEpoch = e.authorityEpoch →
        a.keyId = e.keyId → ∀ secret, p.keys path = some secret → secret = e.secret := by
  unfold publishKey at h
  split at h
  · rename_i hnone
    rw [← Except.ok.inj h]
    refine ⟨Function.update_self .., fun _ hne => Function.update_of_ne hne .., ?_⟩
    intro a _ _ _ _ secret hsome
    rw [hnone] at hsome
    cases hsome
  · rename_i existing hsome
    split at h
    · rename_i heq
      rw [← Except.ok.inj h]
      refine ⟨hsome.trans (congrArg some heq), fun _ _ => rfl, ?_⟩
      intro a _ _ _ _ secret hsecret
      rw [hsome] at hsecret
      exact (Option.some.inj hsecret).symm.trans heq
    · split at h
      · simp at h
      · rename_i hnew
        rw [← Except.ok.inj h]
        refine ⟨Function.update_self .., fun _ hne => Function.update_of_ne hne .., ?_⟩
        intro a ha hcluster hepoch hkeyId
        rw [Option.not_isSome_iff_eq_none, Table.lookup_eq_none] at hnew
        exact absurd (decide_eq_true ⟨hcluster, hepoch, hkeyId⟩) (hnew a ha)

theorem Participant.Sound.publish {db : Authority} {d : String} {p : Participant}
    {e : Enrollment} {keys : KeyFiles} (h : p.Sound P db d)
    (hpub : publishKey e ⟨e.clusterId, d, e.authorityEpoch, e.keyId⟩ p = .ok keys) :
    ({ p with keys := keys } : Participant).Sound P db d := by
  obtain ⟨hfile, hother, hcommitted⟩ := publishKey_spec hpub
  refine ⟨h.device, ?_, h.retired, h.single⟩
  intro a ha
  obtain ⟨hcluster, secret, hback, hold⟩ := h.rows a ha
  refine ⟨hcluster, secret, hback, ?_⟩
  by_cases hsame : (⟨a.clusterId, d, a.authorityEpoch, a.keyId⟩ : KeyPath) =
      ⟨e.clusterId, d, e.authorityEpoch, e.keyId⟩
  · change keys _ = _
    obtain ⟨hc, _, he, hk⟩ := KeyPath.mk.inj hsame
    rw [hsame, hfile, hcommitted a ha hc he hk secret (hsame ▸ hold)]
  · exact (hother _ hsame).trans hold

/-- The checks of `_record_enrollment` and its two outcomes. -/
theorem recordEnrollment_spec {e : Enrollment} {p p' : Participant} {flag : Bool}
    (h : recordEnrollment P e p = .ok (p', flag)) :
    e.targetDeviceId = p.deviceId ∧
    (∀ a ∈ p.enrolled, a.clusterId = e.clusterId → a.state = .enrolled →
      a.authorityEpoch ≤ e.authorityEpoch) ∧
    ((∃ a ∈ p.enrolled, a.clusterId = e.clusterId ∧ a.authorityEpoch = e.authorityEpoch ∧
        a.keyId = e.keyId ∧ a.keySha256 = e.keySha256 ∧
        p' = { p with
          enrolled := p.enrolled.update
            (fun a => a.clusterId = e.clusterId ∧ a.authorityEpoch = e.authorityEpoch ∧
              a.keyId = e.keyId)
            (fun a => { a with state := .enrolled }) fun _ _ => ⟨id, id⟩ }) ∨
      ((∀ a ∈ p.enrolled, a.clusterId = e.clusterId → a.authorityEpoch ≠ e.authorityEpoch) ∧
        ∃ enrolled, (p.enrolled.update
          (fun a => a.clusterId = e.clusterId ∧ a.authorityEpoch < e.authorityEpoch ∧
            a.state = .enrolled)
          (fun a => { a with state := .retired }) fun _ _ => ⟨id, id⟩).insert
            ⟨e.clusterId, e.authorityEpoch, e.keyId, e.keySha256, .enrolled⟩ = some enrolled ∧
        p' = { p with enrolled := enrolled })) := by
  simp only [recordEnrollment, bind_eq_ok, require_eq_ok] at h
  obtain ⟨_, ⟨htarget, _⟩, _, _, _, hbound, h⟩ := h
  refine ⟨htarget, ?_, ?_⟩
  · intro a ha hcluster hstate
    exact hbound a (Table.mem_select.mpr ⟨ha, decide_eq_true ⟨hcluster, hstate⟩⟩)
  · split at h
    · rename_i same hsame
      simp only [bind_eq_ok, require_eq_ok, pure_eq_ok, Prod.mk.injEq] at h
      obtain ⟨_, ⟨hkeyId, hsha⟩, rfl, _⟩ := h
      have hat := Table.lookup_sat hsame
      simp only [decide_eq_true_eq] at hat
      exact Or.inl ⟨same, Table.lookup_mem hsame, hat.1, hat.2, hkeyId, hsha, rfl⟩
    · rename_i hnone
      simp only [bind_eq_ok, inserted_eq_ok, pure_eq_ok, Prod.mk.injEq] at h
      obtain ⟨enrolled, hins, rfl, _⟩ := h
      refine Or.inr ⟨?_, enrolled, hins, rfl⟩
      intro a ha hcluster hepoch
      exact Table.lookup_eq_none.mp hnone a ha (decide_eq_true ⟨hcluster, hepoch⟩)

/-- Enrolling the key of a row again changes nothing: the row is still enrolled. -/
theorem Participant.Sound.enrolled_again {db : Authority} {d : String} {p : Participant}
    {e : Enrollment} (h : p.Sound P db d)
    (hbound : ∀ a ∈ p.enrolled, a.clusterId = e.clusterId → a.state = .enrolled →
      a.authorityEpoch ≤ e.authorityEpoch) :
    p.enrolled.update
      (fun a => a.clusterId = e.clusterId ∧ a.authorityEpoch = e.authorityEpoch ∧
        a.keyId = e.keyId)
      (fun a => { a with state := .enrolled }) (fun _ _ => ⟨id, id⟩) = p.enrolled := by
  apply Table.ext
  refine (List.map_congr_left ?_).trans (List.map_id _)
  intro a ha
  by_cases hat : a.clusterId = e.clusterId ∧ a.authorityEpoch = e.authorityEpoch ∧
      a.keyId = e.keyId
  · rw [Table.setWhere_pos (by simpa using hat)]
    cases hstate : a.state with
    | enrolled => simp [← hstate]
    | retired =>
      obtain ⟨b, hb, hcluster, henrolled, hlt⟩ := h.retired a ha hstate
      have hle := hbound b hb (hcluster.trans hat.1) henrolled
      omega
  · exact Table.setWhere_neg (by simpa using hat)

/-- The row of a new key on top of the retired ones. -/
theorem Participant.Sound.enrolled_new {db : Authority} {d : String} {p : Participant}
    {e : Enrollment} {enrolled : Table EnrolledAuthority EnrolledAuthority.Clash}
    (h : p.Sound P db d) (hback : db.Backs P e.key e.secret)
    (htarget : e.targetDeviceId = d) (hcluster : e.clusterId = db.info.clusterId)
    (hfile : p.keys ⟨e.clusterId, d, e.authorityEpoch, e.keyId⟩ = some e.secret)
    (hbound : ∀ a ∈ p.enrolled, a.clusterId = e.clusterId → a.state = .enrolled →
      a.authorityEpoch ≤ e.authorityEpoch)
    (hfresh : ∀ a ∈ p.enrolled, a.clusterId = e.clusterId → a.authorityEpoch ≠ e.authorityEpoch)
    (hins : (p.enrolled.update
      (fun a => a.clusterId = e.clusterId ∧ a.authorityEpoch < e.authorityEpoch ∧
        a.state = .enrolled)
      (fun a => { a with state := .retired }) fun _ _ => ⟨id, id⟩).insert
        ⟨e.clusterId, e.authorityEpoch, e.keyId, e.keySha256, .enrolled⟩ = some enrolled) :
    ({ p with enrolled := enrolled } : Participant).Sound P db d ∧
      p.Grows { p with enrolled := enrolled } := by
  have hbelow : ∀ a ∈ p.enrolled, a.authorityEpoch < e.authorityEpoch := by
    intro a ha
    have hac : a.clusterId = e.clusterId := (h.rows a ha).1.trans hcluster.symm
    cases hstate : a.state with
    | enrolled =>
      have hle := hbound a ha hac hstate
      have hne := hfresh a ha hac
      omega
    | retired =>
      obtain ⟨b, hb, hbc, hbs, hlt⟩ := h.retired a ha hstate
      have hle := hbound b hb (hbc.trans hac) hbs
      omega
  -- so every row there was ends up retired
  have hmem : ∀ b, b ∈ enrolled ↔ (∃ a ∈ p.enrolled, { a with state := .retired } = b) ∨
      b = ⟨e.clusterId, e.authorityEpoch, e.keyId, e.keySha256, .enrolled⟩ := by
    intro b
    rw [Table.mem_insert hins, Table.mem_update]
    have hset : ∀ a ∈ p.enrolled, Table.setWhere
        (fun a => a.clusterId = e.clusterId ∧ a.authorityEpoch < e.authorityEpoch ∧
          a.state = .enrolled) (fun a => { a with state := .retired }) a =
        { a with state := .retired } := by
      intro a ha
      have hac : a.clusterId = e.clusterId := (h.rows a ha).1.trans hcluster.symm
      cases hstate : a.state with
      | enrolled => exact Table.setWhere_pos (decide_eq_true ⟨hac, hbelow a ha, hstate⟩)
      | retired =>
        rw [Table.setWhere_neg (by simp [hstate]), ← hstate]
    exact or_congr (exists_congr fun a => and_congr_right fun ha => by rw [hset a ha]) Iff.rfl
  have hnew : (⟨e.clusterId, e.authorityEpoch, e.keyId, e.keySha256, .enrolled⟩ :
      EnrolledAuthority) ∈ enrolled := (hmem _).mpr (Or.inr rfl)
  refine ⟨⟨h.device, ?_, ?_, ?_⟩, ?_, ?_⟩
  · intro b hb
    rcases (hmem b).mp hb with ⟨a, ha, rfl⟩ | rfl
    · exact h.rows a ha
    · subst htarget
      exact ⟨hcluster, e.secret, hback, hfile⟩
  · intro b hb hstate
    rcases (hmem b).mp hb with ⟨a, ha, rfl⟩ | rfl
    · exact ⟨_, hnew, hcluster.trans (h.rows a ha).1.symm, rfl, hbelow a ha⟩
    · cases hstate
  · intro a ha b hb _ hastate hbstate
    rcases (hmem a).mp ha with ⟨_, _, rfl⟩ | rfl
    · cases hastate
    · rcases (hmem b).mp hb with ⟨_, _, rfl⟩ | rfl
      · cases hbstate
      · rfl
  · intro a ha
    exact ⟨_, (hmem _).mpr (Or.inl ⟨a, ha, rfl⟩), rfl, rfl, rfl, rfl⟩
  · intro a ha _
    exact ⟨_, hnew, hcluster.trans (h.rows a ha).1.symm, rfl, le_of_lt (hbelow a ha)⟩

/-- What an import of a backed frame makes of the store, whether it succeeds or not. -/
theorem keyImport_spec {db : Authority} {d : String} {p p' : Participant} {e : Enrollment}
    {answer : Except Error Envelope} (h : p.Sound P db d) (hback : db.Backs P e.key e.secret)
    (hcluster : e.clusterId = db.info.clusterId) (hrun : keyImport P e p = (p', answer)) :
    ({ p with keys := p'.keys } : Participant).Sound P db d ∧
      ∀ receipt, answer = .ok receipt →
        p'.Sound P db d ∧ p.Grows p' ∧ p'.Answers d db.info.clusterId receipt := by
  unfold keyImport at hrun
  split at hrun
  · cases hrun
    exact ⟨h, fun receipt hok => by cases hok⟩
  · rename_i path hpath
    have hname := secretPath_ok hpath
    rw [h.device] at hname
    subst hname
    split at hrun
    · cases hrun
      exact ⟨h, fun receipt hok => by cases hok⟩
    · rename_i keys hpub
      have hsound := h.publish hpub
      dsimp only at hrun
      split at hrun
      · cases hrun
        exact ⟨hsound, fun receipt hok => by cases hok⟩
      · rename_i enrolled flag hrec
        obtain ⟨htarget, hbound, hcases⟩ := recordEnrollment_spec hrec
        cases hrun
        rcases hcases with ⟨a, ha, hac, hepoch, hkeyId, hsha, rfl⟩ | ⟨hfresh, table, hins, rfl⟩
        · rw [hsound.enrolled_again hbound]
          refine ⟨hsound, ?_⟩
          intro receipt hok
          cases hok
          refine ⟨⟨hsound.device, hsound.rows, hsound.retired, hsound.single⟩,
            ⟨fun b hb => ⟨b, hb, rfl, rfl, rfl, rfl⟩, fun b hb hs => ⟨b, hb, rfl, hs, le_refl _⟩⟩,
            a, ha, hac.trans hcluster, congrArg some h.device, ?_, ?_, ?_⟩
          · exact congrArg some hepoch.symm
          · exact congrArg some hkeyId.symm
          · exact congrArg some hsha.symm
        · obtain ⟨hnew, hgrows⟩ := hsound.enrolled_new hback (htarget.trans h.device) hcluster
            (publishKey_spec hpub).1 hbound hfresh hins
          refine ⟨hsound, ?_⟩
          intro receipt hok
          cases hok
          refine ⟨⟨hnew.device, hnew.rows, hnew.retired, hnew.single⟩, ⟨hgrows.rows, hgrows.climbs⟩,
            _, (Table.mem_insert hins).mpr (Or.inr rfl), hcluster, congrArg some h.device, rfl, rfl,
            rfl⟩

/-! ## The system -/

/-- What every party knows, whoever is in the middle of a transaction. -/
structure KeySystem.Inv (P : Prims) (clusterId : String) (s : KeySystem) : Prop where
  authority : s.authority.Sound P clusterId
  confirmed : Confirmed s.participants s.authority
  writer : ∀ db, s.writer = some db →
    db.Sound P clusterId ∧ s.authority.Follows db ∧ Confirmed s.participants db
  exporting : ∀ info ∈ s.exporting, info.clusterId = clusterId
  participants : ∀ d, (s.participants d).Sound P s.authority d
  importing : ∀ d p receipt, s.importing d = some (p, receipt) →
    p.Sound P s.authority d ∧ (s.participants d).Grows p ∧ p.Answers d clusterId receipt
  frames : ∀ e ∈ s.frames, e.clusterId = clusterId ∧ s.authority.Backs P e.key e.secret
  receipts : ∀ e ∈ s.receipts, ∃ d, (s.participants d).Answers d clusterId e

theorem keySystem_inv_init (clusterId coordinatorDeviceId : String) (leaseSeconds : Int) :
    (KeySystem.init clusterId coordinatorDeviceId leaseSeconds).Inv P clusterId where
  authority := ⟨rfl, rfl, le_refl _, fun t ht => absurd ht (Table.not_mem_empty t)⟩
  confirmed := fun t ht => absurd ht (Table.not_mem_empty t)
  writer := fun _ hdb => by cases hdb
  exporting := fun _ hinfo => absurd hinfo List.not_mem_nil
  participants := fun _ => ⟨rfl, fun a ha => absurd ha (Table.not_mem_empty a),
    fun a ha => absurd ha (Table.not_mem_empty a), fun a ha => absurd ha (Table.not_mem_empty a)⟩
  importing := fun _ _ _ himp => by cases himp
  frames := fun _ he => absurd he List.not_mem_nil
  receipts := fun _ he => absurd he List.not_mem_nil

/-- Growing stores keep what their targets committed. -/
theorem Confirmed.grow {participants participants' : String → Participant} {db : Authority}
    (h : Confirmed participants db) (hgrow : ∀ d, (participants d).Grows (participants' d)) :
    Confirmed participants' db := by
  intro t ht hstate
  obtain ⟨a, ha, hac, hkey⟩ := h t ht hstate
  obtain ⟨b, hb, hbc, hb2, hb3, hb4⟩ := (hgrow _).rows a ha
  refine ⟨b, hb, hbc.trans hac, ?_⟩
  rw [← hkey, EnrolledAuthority.key, EnrolledAuthority.key, hb2, hb3, hb4]

/-- The invariant after the committed authority store moved on. -/
theorem KeySystem.Inv.authority_grows {clusterId : String} {s : KeySystem} {db : Authority}
    (h : s.Inv P clusterId) (hsound : db.Sound P clusterId) (hgrow : s.authority.Grows db)
    (hconf : Confirmed s.participants db) {writer : Option Authority}
    (hwriter : ∀ db', writer = some db' →
      db'.Sound P clusterId ∧ db.Follows db' ∧ Confirmed s.participants db') :
    KeySystem.Inv P clusterId { s with authority := db, writer := writer } where
  authority := hsound
  confirmed := hconf
  writer := hwriter
  exporting := h.exporting
  participants := fun d => (h.participants d).grow hgrow
  importing := fun d p receipt himp =>
    ⟨(h.importing d p receipt himp).1.grow hgrow, (h.importing d p receipt himp).2⟩
  frames := fun e he => ⟨(h.frames e he).1, (h.frames e he).2.grow hgrow⟩
  receipts := h.receipts

/-- The invariant after one target's committed store moved on. -/
theorem KeySystem.Inv.participant_grows {clusterId : String} {s : KeySystem} {d : String}
    {p : Participant} (h : s.Inv P clusterId) (slot : Option (Participant × Envelope))
    (receipts : List Envelope) (hsound : p.Sound P s.authority d)
    (hgrow : (s.participants d).Grows p)
    (hslot : ∀ p' receipt, slot = some (p', receipt) →
      p'.Sound P s.authority d ∧ p.Grows p' ∧ p'.Answers d clusterId receipt)
    (hreceipts : ∀ e ∈ receipts, e ∈ s.receipts ∨
      p.Answers d clusterId e) :
    KeySystem.Inv P clusterId
      { s.setParticipant d p with
        importing := Function.update s.importing d slot
        receipts := receipts } := by
  have hself : (s.setParticipant d p).participants d = p := s.setParticipant_self d p
  have hrest : ∀ d', d' ≠ d → (s.setParticipant d p).participants d' = s.participants d' :=
    fun _ hne => s.setParticipant_other p hne
  have hall : ∀ d', (s.participants d').Grows ((s.setParticipant d p).participants d') := by
    intro d'
    by_cases hd : d' = d
    · subst hd
      rw [hself]
      exact hgrow
    · rw [hrest d' hd]
      exact Participant.Grows.refl _
  refine ⟨h.authority, h.confirmed.grow hall, ?_, h.exporting, ?_, ?_, h.frames, ?_⟩
  · intro db hdb
    exact ⟨(h.writer db hdb).1, (h.writer db hdb).2.1, (h.writer db hdb).2.2.grow hall⟩
  · intro d'
    by_cases hd : d' = d
    · subst hd
      exact hself.symm ▸ hsound
    · exact (hrest d' hd).symm ▸ h.participants d'
  · intro d' p' receipt himp
    change Function.update s.importing d slot d' = some (p', receipt) at himp
    by_cases hd : d' = d
    · subst hd
      rw [Function.update_self] at himp
      obtain ⟨h1, h2, h3⟩ := hslot p' receipt himp
      exact ⟨h1, hself.symm ▸ h2, h3⟩
    · rw [Function.update_of_ne hd] at himp
      obtain ⟨h1, h2, h3⟩ := h.importing d' p' receipt himp
      exact ⟨h1, (hrest d' hd).symm ▸ h2, h3⟩
  · intro e he
    rcases hreceipts e he with hold | hnew
    · obtain ⟨d', hans⟩ := h.receipts e hold
      exact ⟨d', (hall d').answers hans⟩
    · exact ⟨d, hself.symm ▸ hnew⟩

theorem keyExport_ok {info : Meta} {d keyId : String} {epoch : Int} {db : Authority}
    {e : Enrollment} (h : keyExport P info d epoch keyId db = .ok e) :
    e.clusterId = info.clusterId ∧ ∃ t ∈ db.targets, t.key = e.key ∧
      ∃ path, secretPath P info.clusterId d epoch keyId = .ok path ∧
        db.keys path = some e.secret ∧ e.targetDeviceId = d ∧ e.authorityEpoch = epoch ∧
        e.keyId = keyId := by
  unfold keyExport at h
  split at h
  · simp at h
  · rename_i row hrow
    obtain ⟨hlook, hstate⟩ := Option.filter_eq_some_iff.mp hrow
    have hat := Table.lookup_sat hlook
    simp only [decide_eq_true_eq] at hat
    simp only [bind_eq_ok, require_eq_ok, pure_eq_ok] at h
    obtain ⟨_, _, path, hpath, secret, hread, _, hdigest, rfl⟩ := h
    refine ⟨rfl, row, Table.lookup_mem hlook, ?_, path, hpath, ?_, rfl, rfl, rfl⟩
    · rw [AuthorityTarget.key, Enrollment.key, hat.1, hat.2.1, hat.2.2]
    · unfold readKey at hread
      split at hread
      · rename_i hfile
        rw [hfile, ← Except.ok.inj hread]
      · cases hread

/-- An exported frame carries the secret the authority backs the key with. -/
theorem keyExport_backed {clusterId : String} {info : Meta} {d keyId : String} {epoch : Int}
    {db : Authority} {e : Enrollment} (hsound : db.Sound P clusterId)
    (hinfo : info.clusterId = clusterId) (h : keyExport P info d epoch keyId db = .ok e) :
    e.clusterId = clusterId ∧ db.Backs P e.key e.secret := by
  obtain ⟨hcluster, t, ht, hkey, path, hpath, hfile, rfl, rfl, rfl⟩ := keyExport_ok h
  obtain ⟨_, _, secret, hback⟩ := hsound.rows t ht
  rw [hkey] at hback
  obtain ⟨path', hpath', hfile'⟩ := hback.file
  rw [hsound.cluster, ← hinfo] at hpath'
  have hsame : path = path' := Except.ok.inj (hpath.symm.trans hpath')
  subst hsame
  rw [hfile] at hfile'
  rw [Option.some.inj hfile']
  exact ⟨hcluster.trans hinfo, hback⟩

/-! ## Steps and runs -/

variable {clusterId : String} {s : KeySystem}

theorem KeySystem.Inv.rpcBegin (h : s.Inv P clusterId) {call : AuthorityCall} {r : Readings}
    (hlength : r.urandom.length = 32)
    (hprinted : ∀ e, call.request = .targetKeyFinalize (some e) → e ∈ s.receipts) :
    (s.rpcBegin P call r).Inv P clusterId := by
  unfold KeySystem.rpcBegin
  split
  · rename_i db response hidle hrpc
    have hmove := authorityRpc_move hrpc
    have hfollows := hmove.follows
    have hgrow : s.authority.Grows { s.authority with keys := db.keys } :=
      ⟨rfl, fun t ht => ⟨t, ht, rfl⟩, hfollows.keys⟩
    refine h.authority_grows ?_ hgrow h.confirmed ?_
    · refine ⟨h.authority.cluster, h.authority.opened, h.authority.epoch, ?_⟩
      intro t ht
      obtain ⟨hle, hne, secret, hback⟩ := h.authority.rows t ht
      exact ⟨hle, hne, secret, hback.grow hgrow⟩
    · intro db' hdb'
      cases hdb'
      refine ⟨hmove.sound hlength h.authority, ?_, hmove.confirmed ?_ h.confirmed⟩
      · exact ⟨⟨hfollows.cluster, hfollows.rows, fun _ _ hfile => hfile⟩, hfollows.pending⟩
      · intro e he
        obtain ⟨d, hans⟩ := h.receipts e (hprinted e he)
        exact ⟨d, h.authority.cluster.symm ▸ hans⟩
  · exact h

theorem KeySystem.Inv.importBegin (h : s.Inv P clusterId) {d : String} {e : Enrollment}
    (hprinted : e ∈ s.frames) : (s.importBegin P d e).Inv P clusterId := by
  obtain ⟨hcluster, hback⟩ := h.frames e hprinted
  rw [← h.authority.cluster] at hcluster
  unfold KeySystem.importBegin
  split
  · exact h
  · rename_i hidle
    cases hrun : keyImport P e (s.participants d) with
    | mk p answer =>
      obtain ⟨hpublished, hok⟩ := keyImport_spec (h.participants d) hback hcluster hrun
      have hkeeps : (s.participants d).Grows { s.participants d with keys := p.keys } :=
        ⟨(Participant.Grows.refl _).rows, (Participant.Grows.refl _).climbs⟩
      cases answer with
      | ok receipt =>
        obtain ⟨hsound, hgrow, hans⟩ := hok receipt rfl
        refine h.participant_grows _ _ hpublished hkeeps ?_ fun e he => Or.inl he
        intro p' receipt' hslot
        cases hslot
        exact ⟨hsound, ⟨hgrow.rows, hgrow.climbs⟩, h.authority.cluster ▸ hans⟩
      | error err =>
        have hslot := h.participant_grows none s.receipts hpublished hkeeps
          (fun _ _ hslot => by cases hslot) fun e he => Or.inl he
        rw [← hidle, Function.update_eq_self] at hslot
        exact hslot

theorem KeySystem.Inv.step (h : s.Inv P clusterId) {event : KeyEvent} (hok : s.Produced event) :
    (s.step P event).Inv P clusterId := by
  cases event with
  | rpcBegin call r => exact h.rpcBegin hok.1 hok.2
  | rpcCommit =>
    simp only [KeySystem.step]
    split
    · rename_i db hdb
      obtain ⟨hsound, hfollows, hconf⟩ := h.writer db hdb
      exact h.authority_grows hsound hfollows.toGrows hconf fun _ hnone => by cases hnone
    · exact h
  | rpcDies =>
    exact ⟨h.authority, h.confirmed, (fun _ hnone => by cases hnone), h.exporting, h.participants,
      h.importing, h.frames, h.receipts⟩
  | exportOpen cluster deviceId =>
    simp only [KeySystem.step]
    split
    · rename_i info hopen
      simp only [exportStore, bind_eq_ok, pure_eq_ok] at hopen
      obtain ⟨_, _, _, _, rfl⟩ := hopen
      refine ⟨h.authority, h.confirmed, h.writer, ?_, h.participants, h.importing, h.frames,
        h.receipts⟩
      intro info hinfo
      rcases List.mem_append.mp hinfo with hold | hnew
      · exact h.exporting info hold
      · rw [List.mem_singleton.mp hnew]
        exact h.authority.cluster
    · exact h
  | exportRead position d epoch keyId =>
    simp only [KeySystem.step]
    split
    · exact h
    · rename_i info hinfo
      split
      · rename_i e hexport
        refine ⟨h.authority, h.confirmed, h.writer, h.exporting, h.participants, h.importing, ?_,
          h.receipts⟩
        intro e' he'
        rcases List.mem_cons.mp he' with rfl | hold
        · exact keyExport_backed h.authority (h.exporting info (List.mem_of_getElem? hinfo)) hexport
        · exact h.frames e' hold
      · exact h
  | importBegin d e => exact h.importBegin hok
  | importCommit d =>
    simp only [KeySystem.step]
    split
    · rename_i p receipt himp
      obtain ⟨hsound, hgrow, hans⟩ := h.importing d p receipt himp
      refine h.participant_grows none _ hsound hgrow (fun _ _ hslot => by cases hslot) ?_
      intro e he
      rcases List.mem_cons.mp he with rfl | hold
      · exact Or.inr hans
      · exact Or.inl hold
    · exact h
  | importDies d =>
    have hslot := h.participant_grows none s.receipts (h.participants d)
      (Participant.Grows.refl _) (fun _ _ hslot => by cases hslot) fun e he => Or.inl he
    rw [KeySystem.setParticipant, Function.update_eq_self] at hslot
    exact hslot

theorem KeySystem.Inv.step_grows (h : s.Inv P clusterId) (event : KeyEvent) (d : String) :
    (s.participants d).Grows ((s.step P event).participants d) := by
  have hset : ∀ d' p, (s.participants d').Grows p →
      (s.participants d).Grows ((s.setParticipant d' p).participants d) := by
    intro d' p hgrow
    by_cases hd : d = d'
    · subst hd
      rw [KeySystem.setParticipant_self]
      exact hgrow
    · rw [KeySystem.setParticipant_other s p hd]
      exact Participant.Grows.refl _
  cases event with
  | rpcBegin call r =>
    simp only [KeySystem.step, KeySystem.rpcBegin]
    split <;> exact Participant.Grows.refl _
  | rpcCommit =>
    simp only [KeySystem.step]
    split <;> exact Participant.Grows.refl _
  | rpcDies => exact Participant.Grows.refl _
  | exportOpen cluster deviceId =>
    simp only [KeySystem.step]
    split <;> exact Participant.Grows.refl _
  | exportRead position d' epoch keyId =>
    simp only [KeySystem.step]
    split
    · exact Participant.Grows.refl _
    · split <;> exact Participant.Grows.refl _
  | importBegin d' e =>
    simp only [KeySystem.step, KeySystem.importBegin]
    split
    · exact Participant.Grows.refl _
    · have hkeeps : (s.participants d').Grows
          { s.participants d' with keys := (keyImport P e (s.participants d')).1.keys } :=
        ⟨(Participant.Grows.refl _).rows, (Participant.Grows.refl _).climbs⟩
      split <;> exact hset d' _ hkeeps
  | importCommit d' =>
    simp only [KeySystem.step]
    split
    · rename_i p receipt himp
      exact hset d' p (h.importing d' p receipt himp).2.1
    · exact Participant.Grows.refl _
  | importDies d' => exact Participant.Grows.refl _

theorem KeySystem.Inv.run (h : s.Inv P clusterId) {events : List KeyEvent}
    (hok : s.ProducedRun P events) : (s.run P events).Inv P clusterId :=
  Transition.run_invariant (fun s => s.Inv P clusterId) (fun _ _ h hok => h.step hok) h hok

theorem KeySystem.Inv.run_grows (h : s.Inv P clusterId) {events : List KeyEvent}
    (hok : s.ProducedRun P events) (d : String) :
    (s.participants d).Grows ((s.run P events).participants d) :=
  Transition.run_climbs (fun s => s.Inv P clusterId)
    (fun s s' => (s.participants d).Grows (s'.participants d)) (fun _ => Participant.Grows.refl _)
    (fun _ _ _ hab hbc => hab.trans hbc)
    (fun _ event h hok => ⟨h.step hok, h.step_grows event d⟩) h hok

/-! ## Finishing an enrollment -/

/-- A row of the current epoch that is not retired can be exported. -/
theorem keyExport_succeeds {db : Authority} (hsound : db.Sound P clusterId)
    {t : AuthorityTarget} (ht : t ∈ db.targets) (hepoch : t.authorityEpoch = db.info.authorityEpoch)
    (hstate : t.state ≠ .retired) : ∃ e,
      keyExport P db.info t.targetDeviceId t.authorityEpoch t.keyId db = .ok e ∧ e.key = t.key := by
  obtain ⟨_, _, secret, hback⟩ := hsound.rows t ht
  obtain ⟨path, hpath, hfile⟩ := hback.file
  have hlook : db.targets.lookup (fun u => u.targetDeviceId = t.targetDeviceId ∧
      u.authorityEpoch = t.authorityEpoch ∧ u.keyId = t.keyId) = some t := by
    refine Table.lookup_eq_some ht (by simp) ?_
    intro u hu hat
    simp only [decide_eq_true_eq] at hat
    exact Table.eq_of_clash hu ht ⟨hat.1, hat.2.1⟩ ⟨hat.1.symm, hat.2.1.symm⟩
  have hopen : t.state = .pending ∨ t.state = .enrolled := by
    cases h : t.state with
    | pending => exact Or.inl rfl
    | enrolled => exact Or.inr rfl
    | retired => exact absurd h hstate
  refine ⟨⟨db.info.clusterId, t.targetDeviceId, t.authorityEpoch, t.keyId, t.keySha256, secret⟩,
    ?_, rfl⟩
  unfold keyExport
  rw [hlook, Option.filter_some, if_pos (decide_eq_true hopen)]
  simp only [bind_eq_ok, require_eq_ok, pure_eq_ok]
  refine ⟨(), hepoch, path, hpath, secret, ?_, (), hback.digest, rfl⟩
  rw [readKey, hfile]

/-- A file of a committed key is the secret of every backed frame for it. -/
theorem publishKey_succeeds {db : Authority} {p : Participant} {e : Enrollment}
    (hp : p.Sound P db e.targetDeviceId) (hback : db.Backs P e.key e.secret) :
    ∃ keys, publishKey e ⟨e.clusterId, e.targetDeviceId, e.authorityEpoch, e.keyId⟩ p =
      .ok keys := by
  unfold publishKey
  split
  · exact ⟨_, rfl⟩
  · rename_i existing hfile
    split
    · exact ⟨_, rfl⟩
    · rename_i hdiffers
      split
      · rename_i hcommitted
        obtain ⟨a, hlook⟩ := Option.isSome_iff_exists.mp hcommitted
        have hat := Table.lookup_sat hlook
        simp only [decide_eq_true_eq] at hat
        obtain ⟨_, hsecret⟩ := hp.key_eq (Table.lookup_mem hlook) hback rfl hat.2.1
        rw [hat.1, hat.2.1, hat.2.2, hfile] at hsecret
        exact absurd (Option.some.inj hsecret) hdiffers
      · exact ⟨_, rfl⟩

/-- The target commits a backed key of the current epoch, or has committed it before. -/
theorem recordEnrollment_succeeds {db : Authority} (hsound : db.Sound P clusterId)
    (hnamed : clusterId ≠ "") {p : Participant} {e : Enrollment}
    (hp : p.Sound P db e.targetDeviceId) (hcluster : e.clusterId = clusterId)
    (hback : db.Backs P e.key e.secret) (hepoch : e.authorityEpoch = db.info.authorityEpoch) :
    ∃ recorded, recordEnrollment P e p = .ok recorded := by
  obtain ⟨t, ht, hkey⟩ := hback.row
  have hkeyId : e.keyId ≠ "" := by
    rw [show e.keyId = t.keyId from congrArg TargetKey.keyId hkey.symm]
    exact (hsound.rows t ht).2.1
  have hbound : ∀ a ∈ p.enrolled.select fun a => a.clusterId = e.clusterId ∧ a.state = .enrolled,
      a.authorityEpoch ≤ e.authorityEpoch := by
    intro a ha
    obtain ⟨_, secret, hbacked, _⟩ := hp.rows a (Table.mem_select.mp ha).1
    obtain ⟨u, hu, hukey⟩ := hbacked.row
    rw [hepoch, show a.authorityEpoch = u.authorityEpoch from
      congrArg TargetKey.authorityEpoch hukey.symm]
    exact (hsound.rows u hu).1
  have hname : e.clusterId ≠ "" := hcluster ▸ hnamed
  have hfirst : 1 ≤ e.authorityEpoch := hepoch ▸ hsound.epoch
  unfold recordEnrollment
  apply exists_bind_ok (require_of ⟨hp.device.symm, hname, hfirst, hkeyId⟩)
  apply exists_bind_ok (require_of ⟨hback.length, hback.digest⟩)
  apply exists_bind_ok (require_of hbound)
  cases hlook : p.enrolled.lookup fun a =>
      a.clusterId = e.clusterId ∧ a.authorityEpoch = e.authorityEpoch with
  | some same =>
    have hat := Table.lookup_sat hlook
    simp only [decide_eq_true_eq] at hat
    obtain ⟨hsame, _⟩ := hp.key_eq (Table.lookup_mem hlook) hback rfl hat.2
    apply exists_bind_ok (require_of
      ⟨congrArg TargetKey.keyId hsame, congrArg TargetKey.keySha256 hsame⟩)
    exact ⟨_, rfl⟩
  | none =>
    cases hins : (p.enrolled.update
        (fun a => a.clusterId = e.clusterId ∧ a.authorityEpoch < e.authorityEpoch ∧
          a.state = .enrolled)
        (fun a => { a with state := .retired }) fun _ _ => ⟨id, id⟩).insert
          ⟨e.clusterId, e.authorityEpoch, e.keyId, e.keySha256, .enrolled⟩ with
    | none =>
      obtain ⟨b, hb, hclash⟩ := Table.clash_of_insert_none hins
      obtain ⟨a, ha, rfl⟩ := Table.mem_update.mp hb
      have hclash' : a.clusterId = e.clusterId ∧ a.authorityEpoch = e.authorityEpoch := by
        unfold EnrolledAuthority.Clash Table.setWhere at hclash
        split at hclash <;> exact hclash
      exact absurd (decide_eq_true hclash') (Table.lookup_eq_none.mp hlook a ha)
    | some enrolled =>
      apply exists_bind_ok (inserted_eq_ok.mpr hins)
      exact ⟨_, rfl⟩

/-- A frame of the current epoch that the authority backs can be imported by its target. -/
theorem keyImport_succeeds {db : Authority} (hsound : db.Sound P clusterId)
    (hnamed : clusterId ≠ "") {p : Participant} {e : Enrollment}
    (hp : p.Sound P db e.targetDeviceId) (hcluster : e.clusterId = clusterId)
    (hback : db.Backs P e.key e.secret) (hepoch : e.authorityEpoch = db.info.authorityEpoch) :
    (keyImport P e p).2 = .ok (sign P e.secret "" (enrollmentBody e p)) := by
  obtain ⟨path, hpath, _⟩ := hback.file
  obtain rfl := secretPath_ok hpath
  rw [hsound.cluster, ← hcluster] at hpath
  change secretPath P e.clusterId e.targetDeviceId e.authorityEpoch e.keyId = _ at hpath
  have hname := secretPath_ok hpath
  rw [← hp.device] at hpath
  obtain ⟨keys, hpub⟩ := publishKey_succeeds hp hback
  have hp' := hp.publish hpub
  obtain ⟨recorded, hrec⟩ := recordEnrollment_succeeds hsound hnamed hp' hcluster hback hepoch
  unfold keyImport
  rw [hpath]
  dsimp only
  rw [hname, hpub]
  dsimp only
  rw [hrec]

/-- A genuine receipt for a row that is not retired is answered with `ENROLLED`. -/
theorem authorityTargetKeyFinalize_succeeds {db : Authority} {receipt : Envelope}
    {t : AuthorityTarget} (ht : t ∈ db.targets) (hstate : t.state ≠ .retired)
    (halg : receipt.sigAlg = "hmac-sha256")
    (hkind : receipt.body.kind = some .keyEnrollment ∧ receipt.body.v = 1)
    (hcluster : receipt.body.clusterId = some db.info.clusterId)
    (htarget : receipt.body.targetDeviceId = some t.targetDeviceId)
    (hepoch : receipt.body.authorityEpoch = some t.authorityEpoch)
    (hcurrent : t.authorityEpoch = db.info.authorityEpoch)
    (hkeyId : receipt.body.keyId = some t.keyId)
    (hdigest : receipt.body.keySha256 = some t.keySha256) {secret : Bytes}
    (hback : db.Backs P t.key secret) (hvalid : signatureMatches P secret receipt = .ok true) :
    ∃ out, authorityTargetKeyFinalize P (some receipt) db.info db = .ok out ∧
      ∃ idempotent, out.2 = .targetKey .enrolled t.targetDeviceId t.authorityEpoch t.keyId
        t.keySha256 idempotent := by
  obtain ⟨path, hpath, hfile⟩ := hback.file
  have hlook : db.target t.targetDeviceId t.authorityEpoch = some t := by
    refine Table.lookup_eq_some ht (by simp) ?_
    intro u hu hat
    simp only [decide_eq_true_eq] at hat
    exact Table.eq_of_clash hu ht hat ⟨hat.1.symm, hat.2.symm⟩
  unfold authorityTargetKeyFinalize
  rw [Option.filter_some, if_pos (decide_eq_true halg)]
  dsimp only
  rw [hcluster, htarget, hepoch, hkeyId, hdigest]
  simp only [Option.getD_some]
  apply exists_bind_ok_and (require_of hkind)
  apply exists_bind_ok_and (require_of ⟨trivial, hcurrent⟩)
  rw [hlook, Option.filter_some, if_pos (by simp)]
  apply exists_bind_ok_and hpath
  apply exists_bind_ok_and (show readKey db.keys path = .ok secret by rw [readKey, hfile])
  apply exists_bind_ok_and hvalid
  apply exists_bind_ok_and (require_of rfl)
  cases hnow : t.state with
  | retired => exact absurd hnow hstate
  | enrolled => exact ⟨_, rfl, true, rfl⟩
  | pending => exact ⟨_, rfl, false, rfl⟩

/-- A call with a fresh id runs its operation and files the answer. -/
theorem authorityRpc_succeeds {db : Authority} {call : AuthorityCall} {r : Readings}
    {Q : Response → Prop} (hsound : db.Sound P clusterId)
    (hcluster : call.clusterId = db.info.clusterId)
    (hdevice : call.deviceId = db.info.coordinatorDeviceId)
    (hfresh : ∀ q ∈ db.rpcRequests, q.rpcId ≠ call.rpcId)
    (hframe : ∀ out, authorityOperation P call.request db.info r db = .ok out →
      out.1.rpcRequests = db.rpcRequests)
    (hrun : ∃ out, authorityOperation P call.request db.info r db = .ok out ∧ Q out.2) :
    ∃ out, authorityRpc P call r db = .ok out ∧ Q out.2 := by
  obtain ⟨out, hout, hq⟩ := hrun
  unfold authorityRpc openAuthorityStore
  have hopen : (do
      require (db.info.clusterId = call.clusterId) "authority cluster identity mismatch"
      require (db.info.coordinatorDeviceId = call.deviceId)
        "authority coordinator device identity mismatch"
      return db.info : Except Error Meta) = .ok db.info := by
    rw [require_of hcluster.symm, require_of hdevice.symm]
    rfl
  apply exists_bind_ok_and hopen
  unfold authorityTransaction
  apply exists_bind_ok_and (require_of hsound.opened)
  have hnone : db.rpcRequests.lookup (fun q => q.rpcId = call.rpcId) = none :=
    Table.lookup_eq_none.mpr fun q hq => by simpa using hfresh q hq
  rw [hnone]
  apply exists_bind_ok_and hout
  cases hins : out.1.rpcRequests.insert
      ⟨call.rpcId, call.request.operation, call.requestSha256, out.2⟩ with
  | some records => exact exists_bind_ok_and (inserted_eq_ok.mpr hins) ⟨_, rfl, hq⟩
  | none =>
    obtain ⟨q, hmem, hclash⟩ := Table.clash_of_insert_none hins
    rw [hframe out hout] at hmem
    exact absurd hclash (hfresh q hmem)

/-- Once the transactions in the way have committed or died, one export, import and finalize
of the key in a row gets it enrolled. -/
def KeySystem.Restartable (P : Prims) (s : KeySystem) (t : AuthorityTarget) : Prop :=
  ∀ a ∈ [KeyEvent.rpcCommit, .rpcDies],
    ∀ b ∈ [KeyEvent.importCommit t.targetDeviceId, .importDies t.targetDeviceId],
      ∃ info e receipt,
        exportStore (s.run P [a, b]).authority.info.clusterId
          (s.run P [a, b]).authority.info.coordinatorDeviceId (s.run P [a, b]).authority =
            .ok info ∧
        keyExport P info t.targetDeviceId t.authorityEpoch t.keyId (s.run P [a, b]).authority =
          .ok e ∧
        (keyImport P e ((s.run P [a, b]).participants t.targetDeviceId)).2 = .ok receipt ∧
        ∀ db, db = (s.run P [a, b, .importBegin t.targetDeviceId e,
            .importCommit t.targetDeviceId]).authority →
          ∀ call r, call.request = .targetKeyFinalize (some receipt) →
            call.clusterId = db.info.clusterId → call.deviceId = db.info.coordinatorDeviceId →
            (∀ q ∈ db.rpcRequests, q.rpcId ≠ call.rpcId) →
            ∃ out, authorityRpc P call r db = .ok out ∧ ∃ idempotent,
              out.2 = .targetKey .enrolled t.targetDeviceId t.authorityEpoch t.keyId t.keySha256
                idempotent

theorem importBegin_authority (s : KeySystem) (d : String) (e : Enrollment) :
    (s.importBegin P d e).authority = s.authority := by
  unfold KeySystem.importBegin
  split
  · rfl
  · dsimp only
    split <;> rfl

theorem importCommit_authority (s : KeySystem) (d : String) :
    (s.step P (.importCommit d)).authority = s.authority := by
  simp only [KeySystem.step]
  split <;> rfl

/-- Whoever holds the authority store, its transaction leaves a pending key in the epoch. -/
theorem KeySystem.Inv.pending_stays (h : s.Inv P clusterId) {t : AuthorityTarget}
    (ht : t ∈ s.authority.targets) (hstate : t.state = .pending) {a : KeyEvent}
    (ha : a ∈ [KeyEvent.rpcCommit, .rpcDies]) :
    (s.step P a).authority.info.authorityEpoch = s.authority.info.authorityEpoch ∧
      ∃ t' ∈ (s.step P a).authority.targets, t'.key = t.key ∧ t'.state ≠ .retired := by
  have hsame : s.authority.info.authorityEpoch = s.authority.info.authorityEpoch ∧
      ∃ t' ∈ s.authority.targets, t'.key = t.key ∧ t'.state ≠ .retired :=
    ⟨rfl, t, ht, rfl, by rw [hstate]; simp⟩
  rcases List.mem_pair.mp ha with rfl | rfl
  · simp only [KeySystem.step]
    split
    · rename_i db hdb
      exact (h.writer db hdb).2.1.pending t ht hstate
    · exact hsame
  · exact hsame

theorem finalize_rpcRequests {receipt : Option Envelope} {db : Authority}
    {out : Authority × Response}
    (h : authorityTargetKeyFinalize P receipt db.info db = .ok out) :
    out.1.rpcRequests = db.rpcRequests := by
  simp only [authorityTargetKeyFinalize] at h
  split at h
  · simp at h
  · simp only [bind_eq_ok] at h
    obtain ⟨_, _, _, _, h⟩ := h
    split at h
    · simp at h
    · simp only [bind_eq_ok] at h
      obtain ⟨_, _, _, _, _, _, _, _, h⟩ := h
      split at h
      · rw [← pure_eq_ok.mp h]
      · simp at h
      · rw [← pure_eq_ok.mp h]

theorem KeySystem.Inv.restartable (hb64 : ∀ raw, P.urlsafeB64decode (P.b64url raw) = some raw)
    (hnamed : clusterId ≠ "") (h : s.Inv P clusterId) {t : AuthorityTarget}
    (ht : t ∈ s.authority.targets) (hstate : t.state = .pending)
    (hepoch : t.authorityEpoch = s.authority.info.authorityEpoch) : s.Restartable P t := by
  intro a ha b hb
  obtain ⟨hsame, t', ht', hkey, hopen⟩ := h.pending_stays ht hstate ha
  obtain ⟨htarget, hte, htk, htd⟩ := TargetKey.mk.inj hkey
  have hinv : (s.run P [a, b]).Inv P clusterId := by
    apply h.run
    rcases List.mem_pair.mp ha with rfl | rfl <;> rcases List.mem_pair.mp hb with rfl | rfl <;>
      exact ⟨trivial, trivial, trivial⟩
  have hauth : (s.run P [a, b]).authority = (s.step P a).authority := by
    rcases List.mem_pair.mp hb with rfl | rfl
    · exact importCommit_authority (P := P) _ _
    · rfl
  generalize hs : s.run P [a, b] = s₁ at hinv hauth
  rw [← hauth] at ht' hsame
  have hcurrent : t'.authorityEpoch = s₁.authority.info.authorityEpoch := by
    rw [hte, hepoch, hsame]
  obtain ⟨e, hexport, hekey⟩ := keyExport_succeeds hinv.authority ht' hcurrent hopen
  obtain ⟨hec, hback⟩ := keyExport_backed hinv.authority hinv.authority.cluster hexport
  have hetarget : e.targetDeviceId = t'.targetDeviceId :=
    congrArg TargetKey.targetDeviceId hekey
  have hp : (s₁.participants t'.targetDeviceId).Sound P s₁.authority e.targetDeviceId :=
    hetarget ▸ hinv.participants t'.targetDeviceId
  have heepoch : e.authorityEpoch = s₁.authority.info.authorityEpoch :=
    (congrArg TargetKey.authorityEpoch hekey).trans hcurrent
  have himport := keyImport_succeeds hinv.authority hnamed hp hec hback heepoch
  rw [← htarget, ← hte, ← htk, ← htd]
  refine ⟨s₁.authority.info, e, _, ?_, hexport, himport, ?_⟩
  · rw [exportStore, require_of rfl, require_of rfl]
    rfl
  · intro db hdb call r hrequest hcluster hdevice hfresh
    have hdb' : db = s₁.authority := by
      rw [hdb, show s.run P [a, b, .importBegin t'.targetDeviceId e,
        .importCommit t'.targetDeviceId] = (s.run P [a, b]).run P
          [.importBegin t'.targetDeviceId e, .importCommit t'.targetDeviceId] from rfl, hs]
      exact (importCommit_authority (P := P) _ _).trans (importBegin_authority _ _ _)
    subst hdb'
    refine authorityRpc_succeeds (Q := fun response => ∃ idempotent, response =
      .targetKey .enrolled t'.targetDeviceId t'.authorityEpoch t'.keyId t'.keySha256 idempotent)
      hinv.authority hcluster hdevice hfresh ?_ ?_
    · rw [hrequest]
      intro out hout
      simp only [authorityOperation] at hout
      exact finalize_rpcRequests hout
    · rw [hrequest]
      simp only [authorityOperation]
      refine authorityTargetKeyFinalize_succeeds ht' hopen rfl ⟨rfl, rfl⟩ ?_ ?_ ?_ hcurrent ?_ ?_
        (hekey ▸ hback) ?_
      · exact congrArg some (hec.trans hinv.authority.cluster.symm)
      · exact congrArg some (hp.device.trans hetarget)
      · exact congrArg some (congrArg TargetKey.authorityEpoch hekey)
      · exact congrArg some (congrArg TargetKey.keyId hekey)
      · exact congrArg some (congrArg TargetKey.keySha256 hekey)
      · unfold signatureMatches sign
        rw [hb64]
        simp

/-! ## The result -/

/-- Every row has its key on file, a target has one enrolled key a cluster, what the authority
calls enrolled its target has committed, and a pending key of the epoch can be finished. -/
structure KeySystem.Safe (P : Prims) (s : KeySystem) : Prop where
  authorityFiles : ∀ t ∈ s.authority.targets, ∃ path secret,
    secretPath P s.authority.info.clusterId t.targetDeviceId t.authorityEpoch t.keyId = .ok path ∧
      s.authority.keys path = some secret ∧ P.sha256 secret = t.keySha256
  participantFiles : ∀ d, ∀ a ∈ (s.participants d).enrolled, ∃ path secret,
    secretPath P a.clusterId d a.authorityEpoch a.keyId = .ok path ∧
      (s.participants d).keys path = some secret ∧ P.sha256 secret = a.keySha256
  single : ∀ d, ∀ a ∈ (s.participants d).enrolled, ∀ b ∈ (s.participants d).enrolled,
    a.clusterId = b.clusterId → a.state = .enrolled → b.state = .enrolled → a = b
  committed : ∀ t ∈ s.authority.targets, t.state = .enrolled →
    ∃ a ∈ (s.participants t.targetDeviceId).enrolled,
      a.clusterId = s.authority.info.clusterId ∧ a.authorityEpoch = t.authorityEpoch ∧
        a.keyId = t.keyId ∧ a.keySha256 = t.keySha256
  restartable : ∀ t ∈ s.authority.targets, t.state = .pending →
    t.authorityEpoch = s.authority.info.authorityEpoch → s.Restartable P t

theorem KeySystem.Inv.safe (hb64 : ∀ raw, P.urlsafeB64decode (P.b64url raw) = some raw)
    (hnamed : clusterId ≠ "") (h : s.Inv P clusterId) : s.Safe P where
  authorityFiles t ht := by
    obtain ⟨_, _, secret, hback⟩ := h.authority.rows t ht
    obtain ⟨path, hpath, hfile⟩ := hback.file
    exact ⟨path, secret, hpath, hfile, hback.digest⟩
  participantFiles d a ha := by
    obtain ⟨hcluster, secret, hback, hfile⟩ := (h.participants d).rows a ha
    obtain ⟨path, hpath, _⟩ := hback.file
    rw [← hcluster] at hpath
    obtain rfl := secretPath_ok hpath
    exact ⟨_, secret, hpath, hfile, hback.digest⟩
  single d a ha b hb hcluster hastate hbstate := by
    have hepoch := (h.participants d).single a ha b hb hcluster hastate hbstate
    exact Table.eq_of_clash ha hb ⟨hcluster, hepoch⟩ ⟨hcluster.symm, hepoch.symm⟩
  committed t ht hstate := by
    obtain ⟨a, ha, hcluster, hkey⟩ := h.confirmed t ht (by rw [hstate]; simp)
    obtain ⟨_, hepoch, hkeyId, hdigest⟩ := TargetKey.mk.inj hkey
    exact ⟨a, ha, hcluster, hepoch, hkeyId, hdigest⟩
  restartable t ht hstate hepoch := h.restartable hb64 hnamed ht hstate hepoch

/-- Whatever processes die and whatever frames and receipts go astray: every state reached is
safe, and on the way the enrolled epoch of a cluster at a target never falls. -/
theorem enrollment_safe (hb64 : ∀ raw, P.urlsafeB64decode (P.b64url raw) = some raw)
    {clusterId coordinatorDeviceId : String} {leaseSeconds : Int} (hnamed : clusterId ≠ "")
    {before after : List KeyEvent}
    (hrun : (KeySystem.init clusterId coordinatorDeviceId leaseSeconds).ProducedRun P
      (before ++ after)) :
    ((KeySystem.init clusterId coordinatorDeviceId leaseSeconds).run P (before ++ after)).Safe P ∧
    ∀ d, ∀ a ∈ (((KeySystem.init clusterId coordinatorDeviceId leaseSeconds).run P
        before).participants d).enrolled, a.state = .enrolled →
      ∃ b ∈ (((KeySystem.init clusterId coordinatorDeviceId leaseSeconds).run P
        (before ++ after)).participants d).enrolled,
        b.clusterId = a.clusterId ∧ b.state = .enrolled ∧ a.authorityEpoch ≤ b.authorityEpoch := by
  have hinit := keySystem_inv_init (P := P) clusterId coordinatorDeviceId leaseSeconds
  refine ⟨(hinit.run hrun).safe hb64 hnamed, ?_⟩
  intro d
  obtain ⟨hbefore, hafter⟩ := Transition.along_append.mp hrun
  have hgrows := (hinit.run hbefore).run_grows hafter d
  rw [KeySystem.run, KeySystem.run, ← Transition.run_append] at hgrows
  exact hgrows.climbs

/-! ## A small instance -/

theorem latin1_roundTrip (raw : Bytes) : latin1Decode (latin1Encode raw) = raw := by
  unfold latin1Decode latin1Encode
  rw [String.toList_ofList, List.map_map]
  refine (List.map_congr_left ?_).trans (List.map_id raw)
  intro b _
  have hvalid : b.toNat.isValidChar := Or.inl (by have := b.toNat_lt; omega)
  simp only [Function.comp_apply, id]
  rw [Char.ofNat, dif_pos hvalid]
  exact UInt8.ofNat_toNat

theorem k1_ne_empty : "k1" ≠ "" := by decide

def sampleCreate : List KeyEvent := [
  .rpcBegin (sampleCall "1" (.targetKeyCreate "t1")) (sampleReadings "k1" k1_ne_empty), .rpcCommit,
  .exportOpen "c1" "coordinator", .exportRead 0 "t1" 1 "k1"]

def sampleEnroll : List KeyEvent := [
  .importBegin "t1" sampleEnrollment, .importCommit "t1",
  .rpcBegin (sampleCall "2" (.targetKeyFinalize (some sampleEnrollmentReceipt)))
    (sampleReadings "u2" (by decide)), .rpcCommit]

theorem enrollment_safe_sample : ((KeySystem.init "c1" "coordinator" 60).run samplePrims
    (sampleCreate ++ sampleEnroll)).Safe samplePrims := by
  refine (enrollment_safe ?_ (by decide) ?_).1
  · exact fun raw => congrArg some (latin1_roundTrip raw)
  · refine ⟨⟨rfl, (fun e he => by cases he)⟩, trivial, trivial, trivial, ?_, trivial, ⟨rfl, ?_⟩,
      trivial, trivial⟩
    · change sampleEnrollment ∈ [sampleEnrollment]
      exact List.mem_singleton.mpr rfl
    · intro e he
      change e ∈ [sampleEnrollmentReceipt]
      cases he
      exact List.mem_singleton.mpr rfl

end Remrun.Runner
