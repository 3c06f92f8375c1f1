import Remrun.Reconcile.Pullback
import Remrun.Reconcile.Quiet
import Remrun.Reconcile.Refusals

/-!
# What one step of a pullback does

Without other writers a round of a pullback loop has few outcomes, and each of them is
decided by the local file, the remote file and the manifest from before the run.
-/

namespace Remrun.Reconcile

open Keyed Effect
set_option autoImplicit false

def Mutation.IsBackup : Mutation → Prop
  | .backup _ => True
  | _ => False

section Relations
variable {P : Platform}

/-- The write was made between the two states. -/
def Logged (m : Mutation) (w w' : World P) : Prop := ∃ made, w'.log = w.log ++ made ∧ m ∈ made

/-- Nothing but backups was written. -/
structure Idle (w w' : World P) : Prop where
  localRoot : w'.localRoot = w.localRoot
  remoteRoot : w'.remoteRoot = w.remoteRoot
  saved : w'.saved = w.saved
  made : Made Mutation.IsBackup w w'

/-- The remote version of a path was saved outside the project tree. -/
structure Saves (env : Env P) (rel : String) (bytes : Bytes) (w w' : World P) : Prop where
  free : w.saved.get rel ≠ some .other
  localRoot : w'.localRoot = w.localRoot
  remoteRoot : w'.remoteRoot = w.remoteRoot
  saved : ∃ n, w'.saved = w.saved.set rel (env.written n bytes)
  made : Made (fun m => m.IsBackup ∨ m = .save rel) w w'

/-- The remote version of a path was pulled over the local one. -/
structure Pulls (env : Env P) (rel : String) (bytes : Bytes) (w w' : World P) : Prop where
  free : w.localRoot.get rel ≠ some .other
  localRoot : ∃ n, w.localRoot.Replaced w'.localRoot rel (some (env.written n bytes))
  remoteRoot : w'.remoteRoot = w.remoteRoot
  saved : w'.saved = w.saved
  made : Made (fun m => m.IsBackup ∨ m = .pull rel (w.localRoot.get rel)) w w'
  logged : Logged (.pull rel (w.localRoot.get rel)) w w'

/-- The local file was deleted. -/
structure Deletes (rel : String) (w w' : World P) : Prop where
  localRoot : w.localRoot.Replaced w'.localRoot rel none
  remoteRoot : w'.remoteRoot = w.remoteRoot
  saved : w'.saved = w.saved
  made : Made (fun m => m.IsBackup ∨ m = .deleteLocal rel (w.localRoot.get rel)) w w'

theorem Made.mono {ok ok' : Mutation → Prop} {w w' : World P} (h : Made ok w w')
    (hok : ∀ m, ok m → ok' m) : Made ok' w w' := by
  obtain ⟨made, hlog, hall⟩ := h
  exact ⟨made, hlog, fun m hm => hok m (hall m hm)⟩

theorem Made.trans {ok : Mutation → Prop} {w w' w'' : World P} (h : Made ok w w')
    (h' : Made ok w' w'') : Made ok w w'' := by
  obtain ⟨made, hlog, hall⟩ := h
  obtain ⟨made', hlog', hall'⟩ := h'
  refine ⟨made ++ made', by rw [hlog', hlog, List.append_assoc], fun m hm => ?_⟩
  rcases List.mem_append.mp hm with hm | hm
  · exact hall m hm
  · exact hall' m hm

theorem Logged.extend {m : Mutation} {ok : Mutation → Prop} {w w' w'' : World P}
    (h : Logged m w w') (h' : Made ok w' w'') : Logged m w w'' := by
  obtain ⟨made, hlog, hm⟩ := h
  obtain ⟨made', hlog', _⟩ := h'
  exact ⟨made ++ made', by rw [hlog', hlog, List.append_assoc], List.mem_append_left _ hm⟩

theorem Logged.after {m : Mutation} {ok : Mutation → Prop} {w w' w'' : World P}
    (h : Made ok w w') (h' : Logged m w' w'') : Logged m w w'' := by
  obtain ⟨made, hlog, _⟩ := h
  obtain ⟨made', hlog', hm⟩ := h'
  exact ⟨made ++ made', by rw [hlog', hlog, List.append_assoc], List.mem_append_right _ hm⟩

/-- Every write that was made is one of those made. -/
theorem Made.of_logged {m : Mutation} {ok : Mutation → Prop} {w w' : World P} (h : Made ok w w')
    (hm : Logged m w w') : ok m := by
  obtain ⟨made, hlog, hall⟩ := h
  obtain ⟨made', hlog', hm⟩ := hm
  rw [hlog, List.append_cancel_left_eq] at hlog'
  exact hall m (hlog' ▸ hm)

theorem Idle.refl (w : World P) : Idle w w := ⟨rfl, rfl, rfl, .refl _ w⟩

/-! ## Looks -/

variable {env : Env P} {I : World P → Prop} {E : Fault → World P → Prop}

theorem steady_idle (h : env.Quiet) (w : World P) : Steady env (Idle w) :=
  steady_of_quiet h fun _ _ hw => ⟨hw.localRoot, hw.remoteRoot, hw.saved, hw.made⟩

/-- A step fails or a hash is not answered. -/
def Mishap (env : Env P) : Prop := ∃ n, env.failure n ≠ none ∨ env.reply n ≠ none

/-- A checked digest is the digest of the remote file. -/
theorem triple_checkedDigest {rel : String} {bytes : Bytes} (h : env.Quiet) (hI : Steady env I)
    (hbytes : ∀ w, I w → (w.remoteRoot.get rel).bind Node.contents = some bytes) :
    Triple I (checkedDigest env rel) (fun digest w => digest = P.sha256 bytes ∧ I w)
      (fun fault w => I w ∧ Mishap env ∧
        (fault.isExpected = false → ∃ n, env.failure n ≠ none)) := by
  have hE : Excuses env I (fun fault w => I w ∧ Mishap env ∧
      (fault.isExpected = false → ∃ n, env.failure n ≠ none)) := by
    rintro fault w ⟨n, hn⟩ hw
    exact ⟨hw, ⟨n, Or.inl hn⟩, fun _ => ⟨n, hn⟩⟩
  refine triple_bind (R := fun text w => I w ∧
    (text = P.sha256 bytes ∨ ∃ n, env.reply n = some text)) ?_ fun text => ?_
  · refine triple_bind (triple_look hI hE _) fun answer w => ?_
    rintro ⟨rfl, hw⟩
    rw [show (w.node .target rel).bind Node.contents = some bytes from hbytes w hw]
    cases hreply : env.reply (w.calls - 1) with
    | none => exact ⟨hw, Or.inl rfl⟩
    | some text => exact ⟨hw, Or.inr ⟨_, hreply⟩⟩
  · rintro w ⟨hw, rfl | ⟨n, hn⟩⟩
    · rw [toLower_digest (P.sha256_digest bytes), if_pos (P.sha256_digest bytes)]
      exact ⟨rfl, hw⟩
    · rw [if_neg (by rw [h.honest n text hn]; simp)]
      exact ⟨hw, ⟨n, Or.inr (by rw [hn]; simp)⟩, fun hno => by simp [Fault.isExpected] at hno⟩

/-- The entry of a remote file in the manifest after the run. -/
structure ManifestEntry (P : Platform) (rel : String) (bytes : Bytes) (entry : FileEntry) :
    Prop where
  path : entry.path = rel
  kind : entry.kind = "file"
  size : entry.size = bytes.length
  sha256 : entry.sha256 = none ∨ entry.sha256 = some (P.sha256 bytes)

/-- The entry with its strong hash. -/
def hashed (P : Platform) (bytes : Bytes) (entry : FileEntry) : FileEntry :=
  { entry with sha256 := some (P.sha256 bytes) }

theorem triple_strongEntry {rel : String} {bytes : Bytes} {entry : FileEntry} (h : env.Quiet)
    (hI : Steady env I) (hE : Excuses env I E)
    (hbytes : ∀ w, I w → (w.remoteRoot.get rel).bind Node.contents = some bytes)
    (hentry : ManifestEntry P rel bytes entry) :
    Triple I (strongEntry env rel entry) (fun answer w => I w ∧
      (answer = some (hashed P bytes entry) ∨ answer = none ∧ Mishap env)) E := by
  unfold strongEntry
  rcases hentry.sha256 with hsha | hsha
  · rw [hsha]
    refine triple_tryCatch (triple_map (triple_map ((triple_checkedDigest h hI hbytes).post ?_)))
      fun fault => ?_
    · rintro digest w ⟨rfl, hw⟩
      exact ⟨hw, Or.inl rfl⟩
    · split
      · exact triple_pure fun w hw => ⟨hw.1, Or.inr ⟨rfl, hw.2.1⟩⟩
      · rename_i hno
        exact triple_throw fun w hw => hE _ w (hw.2.2 (by simpa using hno)) hw.1
  · rw [hsha]
    refine triple_pure fun w hw => ⟨hw, Or.inl ?_⟩
    rw [hashed, ← hsha]

/-! ## Changed paths -/

/-- What becomes of an output whose remote entry has a strong hash. -/
inductive Decision where
  | skip (entry : FileEntry)
  | edited
  | pull

def decision (a : PullbackArgs) (rel : String) (remoteEntry : FileEntry)
    (localNow : Option FileEntry) : Decision :=
  match sameEntry localNow remoteEntry with
  | some entry => .skip entry
  | none => if changedSince (a.preLocal.get rel) localNow then .edited else .pull

/-- The decision about a local node and the bytes of the remote file. -/
def decided (P : Platform) (a : PullbackArgs) (rel : String) (bytes : Bytes)
    (entry : FileEntry) (node : Option Node) : Decision :=
  decision a rel (hashed P bytes entry) (freshEntry P rel (some bytes.length) node)

/-- Something that cannot be replaced stands in the way of the decision. -/
def Stops (P : Platform) (a : PullbackArgs) (rel : String) (bytes : Bytes) (entry : FileEntry)
    (w : World P) : Prop :=
  (decided P a rel bytes entry (w.localRoot.get rel) = .edited ∧ w.saved.get rel = some .other) ∨
    (decided P a rel bytes entry (w.localRoot.get rel) = .pull ∧
      w.localRoot.get rel = some .other)

/-- The ways in which a round over a changed path returns. -/
inductive ChangedOk (env : Env P) (a : PullbackArgs) (collide : List String) (rel : String)
    (bytes : Bytes) (entry : FileEntry) (acc : Progress) (w : World P) :
    Progress → World P → Prop
  | collided {w' : World P} (h : rel ∈ collide) (idle : Idle w w') :
    ChangedOk env a collide rel bytes entry acc w (acc.conflict rel) w'
  | preserved {w' : World P} (h : rel ∉ collide)
    (reason : Mishap env ∨ decided P a rel bytes entry (w.localRoot.get rel) = .edited)
    (saves : Saves env rel bytes w w') :
    ChangedOk env a collide rel bytes entry acc w (acc.conflict rel) w'
  | skipped {w' : World P} {localEntry : FileEntry} (h : rel ∉ collide)
    (reason : decided P a rel bytes entry (w.localRoot.get rel) = .skip localEntry)
    (idle : Idle w w') :
    ChangedOk env a collide rel bytes entry acc w (acc.skip rel localEntry entry) w'
  | pulled {w' : World P} {localEntry : FileEntry} (h : rel ∉ collide)
    (reason : decided P a rel bytes entry (w.localRoot.get rel) = .pull)
    (pulls : Pulls env rel bytes w w')
    (verified : freshEntry P rel (some bytes.length) (w'.localRoot.get rel) = some localEntry) :
    ChangedOk env a collide rel bytes entry acc w (acc.pull rel localEntry entry) w'

/-- The ways in which it raises: something stands in the way, or a step fails. -/
inductive ChangedFail (env : Env P) (a : PullbackArgs) (collide : List String) (rel : String)
    (bytes : Bytes) (entry : FileEntry) (w : World P) : World P → Prop
  | stopped {w' : World P} (h : rel ∉ collide)
    (reason : Mishap env ∨ Stops P a rel bytes entry w) (idle : Idle w w') :
    ChangedFail env a collide rel bytes entry w w'
  | saved {w' : World P} (h : rel ∉ collide) (reason : Mishap env)
    (saves : Saves env rel bytes w w') : ChangedFail env a collide rel bytes entry w w'
  | pulled {w' : World P} (h : rel ∉ collide) (mishap : Mishap env)
    (reason : decided P a rel bytes entry (w.localRoot.get rel) = .pull)
    (pulls : Pulls env rel bytes w w') : ChangedFail env a collide rel bytes entry w w'

section Changed
variable {a : PullbackArgs} {collide : List String} {rel : String} {bytes : Bytes}
  {entry : FileEntry} {w : World P}

theorem excuses_idle (hclear : rel ∉ collide) : Excuses env (Idle w) (fun _ =>
    ChangedFail env a collide rel bytes entry w) := by
  rintro fault w' ⟨n, hn⟩ hw'
  exact .stopped hclear (Or.inl ⟨n, Or.inl hn⟩) hw'

theorem triple_preserveRemote (h : env.Quiet) (hclear : rel ∉ collide)
    (hbytes : (w.remoteRoot.get rel).bind Node.contents = some bytes)
    (reason : Mishap env ∨ decided P a rel bytes entry (w.localRoot.get rel) = .edited)
    (acc : Progress) :
    Triple (Idle w) (preserveRemote env acc rel) (ChangedOk env a collide rel bytes entry acc w)
      (fun _ => ChangedFail env a collide rel bytes entry w) := by
  refine triple_bind (R := fun _ => Saves env rel bytes w) ?_ fun _ =>
    triple_pure fun w' hw' => .preserved hclear reason hw'
  refine triple_saveRemote (steady_idle h w) (excuses_idle hclear) ?_ bytes ?_ ?_ ?_
  · rintro fault w' ⟨n, hn⟩ hw'
    exact .saved hclear ⟨n, Or.inl hn⟩ hw'
  · intro w' hw'
    rw [hw'.remoteRoot]
    exact hbytes
  · intro w' hw' hother
    rw [hw'.saved] at hother
    exact .stopped hclear (reason.imp_right fun hdecided => Or.inl ⟨hdecided, hother⟩) hw'
  · intro n w' hw' hfree
    rw [hw'.saved] at hfree
    exact ⟨hfree, hw'.localRoot, hw'.remoteRoot, ⟨n, by rw [← hw'.saved]⟩,
      (hw'.made.mono fun _ => Or.inl).append rfl (Or.inr rfl)⟩

/-- A pulled file has the size and the digest of the remote one. -/
theorem sameEntry_written (env : Env P) (hentry : ManifestEntry P rel bytes entry) (n : Nat) :
    ∃ localEntry, sameEntry (freshEntry P rel (some bytes.length) (some (env.written n bytes)))
      (hashed P bytes entry) = some localEntry := by
  refine ⟨_, Option.filter_eq_some_iff.mpr ⟨rfl, ?_⟩⟩
  rw [entriesSame_some]
  exact ⟨hentry.kind.symm, hentry.size.symm, Or.inl ⟨_, if_pos rfl, rfl⟩⟩

theorem triple_pullOutput (h : env.Quiet) (hclear : rel ∉ collide)
    (hroot : w.localRoot ≠ .blocked)
    (hbytes : (w.remoteRoot.get rel).bind Node.contents = some bytes)
    (hentry : ManifestEntry P rel bytes entry)
    (reason : decided P a rel bytes entry (w.localRoot.get rel) = .pull) (acc : Progress) :
    Triple (Idle w) (pullOutput env a acc rel entry (hashed P bytes entry))
      (ChangedOk env a collide rel bytes entry acc w)
      (fun _ => ChangedFail env a collide rel bytes entry w) := by
  have hstop : w.localRoot.get rel = some .other → Stops P a rel bytes entry w :=
    fun hother => Or.inr ⟨reason, hother⟩
  have hpulled : ∀ I : World P → Prop, (∀ w', I w' → Pulls env rel bytes w w') →
      Excuses env I (fun _ => ChangedFail env a collide rel bytes entry w) := by
    rintro I hI fault w' ⟨n, hn⟩ hw'
    exact .pulled hclear ⟨n, Or.inl hn⟩ reason (hI w' hw')
  have hbackup : Triple (Idle w) (backupLocal env rel a.backupBelowBytes) (fun _ => Idle w)
      (fun _ => ChangedFail env a collide rel bytes entry w) := by
    refine triple_backupLocal _ (steady_idle h w) (excuses_idle hclear)
      (fun w' hw' => by rw [hw'.localRoot]) ?_ ?_
    · exact fun w' area hw' =>
        ⟨hw'.localRoot, hw'.remoteRoot, hw'.saved, hw'.made.append rfl trivial⟩
    · exact fun hother w' hw' => .stopped hclear (Or.inr (hstop hother)) hw'
  refine triple_bind hbackup fun _ => ?_
  refine triple_bind (R := fun _ w' => ∃ n, Pulls env rel bytes w w' ∧
    w'.localRoot.get rel = some (env.written n bytes)) ?_ fun _ => ?_
  · refine triple_pullFile (steady_idle h w) (excuses_idle hclear)
      (hpulled _ fun w' hw' => hw'.elim fun _ => And.left) bytes ?_ ?_ ?_ ?_
    · intro w' hw'
      rw [hw'.remoteRoot]
      exact hbytes
    · intro w' hw'
      rw [hw'.localRoot]
      exact hroot
    · intro w' hw' hother
      rw [hw'.localRoot] at hother
      exact .stopped hclear (Or.inr (hstop hother)) hw'
    · intro n w' root hw' hfree hreplaced
      rw [hw'.localRoot] at hfree hreplaced
      refine ⟨n, ⟨hfree, ⟨n, hreplaced⟩, hw'.remoteRoot, hw'.saved, ?_, ?_⟩, hreplaced.self⟩
      · refine (hw'.made.mono fun _ => Or.inl).append rfl (Or.inr ?_)
        rw [hw'.localRoot]
      · obtain ⟨made, hlog, _⟩ := hw'.made
        refine ⟨made ++ [.pull rel (w.localRoot.get rel)], ?_, by simp⟩
        rw [← List.append_assoc, ← hlog, ← hw'.localRoot]
  · intro w1 hw1
    obtain ⟨n, hpulls, hnode⟩ := hw1
    obtain ⟨localEntry, hsame⟩ := sameEntry_written env hentry n
    have hlook : Returns (fun w' => Pulls env rel bytes w w' ∧
        w'.localRoot.get rel = some (env.written n bytes))
        (fun _ => ChangedFail env a collide rel bytes entry w)
        (freshLocalEntry env rel (some bytes.length))
        (freshEntry P rel (some bytes.length) (some (env.written n bytes))) := by
      refine returns_freshLocalEntry ?_ (hpulled _ fun w' hw' => hw'.1) fun w' hw' => hw'.2
      exact steady_of_quiet h fun _ _ hw' => ⟨⟨hw'.1.free, hw'.1.localRoot, hw'.1.remoteRoot,
        hw'.1.saved, hw'.1.made, hw'.1.logged⟩, hw'.2⟩
    have hrest : Triple (fun w' => Pulls env rel bytes w w' ∧
        w'.localRoot.get rel = some (env.written n bytes))
        (freshLocalEntry env rel (some (hashed P bytes entry).size) >>= fun verify =>
          match sameEntry verify (hashed P bytes entry) with
          | some entry' => pure (acc.pull rel entry' entry)
          | none => throw (.transportError ("pull verification failed for " ++ rel)))
        (ChangedOk env a collide rel bytes entry acc w)
        (fun _ => ChangedFail env a collide rel bytes entry w) := by
      rw [show (hashed P bytes entry).size = bytes.length from hentry.size]
      refine triple_bind hlook fun verify => ?_
      rintro w' ⟨rfl, hw'⟩
      rw [hsame]
      refine .pulled hclear reason hw'.1 ?_
      rw [hw'.2]
      exact (Option.filter_eq_some_iff.mp hsame).1
    exact hrest w1 ⟨hpulls, hnode⟩

theorem triple_settleOutput (h : env.Quiet) (hclear : rel ∉ collide)
    (hroot : w.localRoot ≠ .blocked)
    (hbytes : (w.remoteRoot.get rel).bind Node.contents = some bytes)
    (hentry : ManifestEntry P rel bytes entry) (acc : Progress) :
    Triple (Idle w) (settleOutput env a acc rel entry (hashed P bytes entry))
      (ChangedOk env a collide rel bytes entry acc w)
      (fun _ => ChangedFail env a collide rel bytes entry w) := by
  have hlook : Returns (Idle w) (fun _ => ChangedFail env a collide rel bytes entry w)
      (freshLocalEntry env rel (some (hashed P bytes entry).size))
      (freshEntry P rel (some bytes.length) (w.localRoot.get rel)) := by
    rw [show (hashed P bytes entry).size = bytes.length from hentry.size]
    refine returns_freshLocalEntry (steady_idle h w) (excuses_idle hclear) fun w' hw' => ?_
    change w'.localRoot.get rel = _
    rw [hw'.localRoot]
  refine triple_bind hlook fun localNow => triple_of_pure ?_
  rintro rfl
  cases hsame : sameEntry (freshEntry P rel (some bytes.length) (w.localRoot.get rel))
      (hashed P bytes entry) with
  | some localEntry =>
    refine triple_pure fun w' hw' => .skipped hclear ?_ hw'
    rw [decided, decision, hsame]
  | none =>
    dsimp only
    split
    · rename_i hchanged
      refine triple_preserveRemote h hclear hbytes (Or.inr ?_) acc
      rw [decided, decision, hsame]
      exact if_pos hchanged
    · rename_i hchanged
      refine triple_pullOutput h hclear hroot hbytes hentry ?_ acc
      rw [decided, decision, hsame]
      exact if_neg hchanged

/-- The outcomes of a round over a changed path. -/
theorem triple_changedStep (h : env.Quiet) (hroot : w.localRoot ≠ .blocked)
    (hbytes : (w.remoteRoot.get rel).bind Node.contents = some bytes)
    (hentry : ManifestEntry P rel bytes entry) {postRemote : Manifest}
    (hpost : postRemote.get rel = some entry) (acc : Progress) :
    Triple (fun s => s = w) (changedStep env a postRemote collide acc rel)
      (ChangedOk env a collide rel bytes entry acc w)
      (fun _ => ChangedFail env a collide rel bytes entry w) := by
  unfold changedStep
  split
  · rename_i hmem
    refine triple_pure ?_
    rintro w' rfl
    exact .collided hmem (.refl w')
  · rename_i hclear
    rw [hpost]
    refine Triple.pre (P := Idle w) ?_ fun s hs => hs ▸ .refl w
    refine triple_bind (triple_strongEntry h (steady_idle h w) (excuses_idle hclear) ?_ hentry)
      fun answer => ?_
    · intro w' hw'
      rw [hw'.remoteRoot]
      exact hbytes
    · refine triple_of_pure_right ?_
      rintro (rfl | ⟨rfl, hmishap⟩)
      · exact triple_settleOutput h hclear hroot hbytes hentry acc
      · exact triple_preserveRemote h hclear hbytes (Or.inl hmishap) acc

end Changed

/-! ## Deleted paths -/

/-- The local entry that a round over a deleted path looks at. -/
def deletedNow (P : Platform) (a : PullbackArgs) (rel : String) (node : Option Node) :
    Option FileEntry :=
  freshEntry P rel ((a.preLocal.get rel).map FileEntry.size) node

/-- The ways in which a round over a deleted path returns. -/
inductive DeletedOk (a : PullbackArgs) (rel : String) (acc : Progress) (w : World P) :
    Progress → World P → Prop
  | absent {w' : World P} (gone : deletedNow P a rel (w.localRoot.get rel) = none)
    (idle : Idle w w') : DeletedOk a rel acc w (acc.forget rel) w'
  | edited {w' : World P} {localNow : FileEntry}
    (present : deletedNow P a rel (w.localRoot.get rel) = some localNow)
    (reason : changedSince (a.preLocal.get rel) (some localNow) = true) (idle : Idle w w') :
    DeletedOk a rel acc w (acc.conflict rel) w'
  | deleted {w' : World P} {localNow : FileEntry}
    (present : deletedNow P a rel (w.localRoot.get rel) = some localNow)
    (reason : changedSince (a.preLocal.get rel) (some localNow) = false)
    (deletes : Deletes rel w w') : DeletedOk a rel acc w (acc.delete rel) w'

/-- The ways in which it raises. -/
inductive DeletedFail (a : PullbackArgs) (rel : String) (w : World P) : World P → Prop
  | idle {w' : World P} (idle : Idle w w') : DeletedFail a rel w w'
  | deleted {w' : World P} {localNow : FileEntry}
    (present : deletedNow P a rel (w.localRoot.get rel) = some localNow)
    (reason : changedSince (a.preLocal.get rel) (some localNow) = false)
    (deletes : Deletes rel w w') : DeletedFail a rel w w'

theorem freshEntry_some {rel : String} {size : Option Nat} {node : Option Node}
    {entry : FileEntry} (h : freshEntry P rel size node = some entry) :
    ∃ bytes mtimeNs mode, node = some (.file bytes mtimeNs mode) ∧
      entry = ⟨baseName rel, "file", bytes.length, mtimeNs,
        if size = some bytes.length then some (P.sha256 bytes) else none, none⟩ := by
  unfold freshEntry at h
  split at h
  · exact ⟨_, _, _, rfl, (Option.some.inj h).symm⟩
  · simp at h

theorem directory_of_get {key : String → String} {root : Root key} {rel : String} {node : Node}
    (h : root.get rel = some node) : ∃ files, root = .directory files := by
  cases root with
  | missing => simp [Root.get] at h
  | blocked => simp [Root.get] at h
  | directory files => exact ⟨files, rfl⟩

section Deleted
variable {a : PullbackArgs} {rel : String} {w : World P}

theorem file_of_freshEntry_none {size : Option Nat} {root : Root P.localKey}
    (h : freshEntry P rel size (root.get rel) = none) : root.file rel = none := by
  rw [Root.file]
  cases hnode : root.get rel with
  | none => rfl
  | some node =>
    rw [hnode] at h
    cases node with
    | file bytes mtimeNs mode => cases h
    | link target => rfl
    | other => rfl

/-- A deletion brings no file back. -/
theorem Deletes.file_none {w' : World P} (h : Deletes rel w w') {q : String} (hq : w.localRoot.file q = none) :
    w'.localRoot.file q = none := by
  by_cases hkey : P.localKey q = P.localKey rel
  · rw [Root.file, Root.get_congr _ hkey, h.localRoot.self]
    rfl
  · rw [Root.file, h.localRoot.others q hkey]
    exact hq

theorem triple_deleteOutput (h : env.Quiet) {localNow : FileEntry}
    (present : deletedNow P a rel (w.localRoot.get rel) = some localNow)
    (reason : changedSince (a.preLocal.get rel) (some localNow) = false) (acc : Progress) :
    Triple (Idle w) (deleteOutput env a acc rel) (DeletedOk a rel acc w)
      (fun _ => DeletedFail a rel w) := by
  obtain ⟨bytes, mtimeNs, mode, hnode, _⟩ := freshEntry_some present
  have hfile : w.localRoot.get rel ≠ some .other := by
    rw [hnode]
    simp
  have hidle : Excuses env (Idle w) (fun _ => DeletedFail a rel w) := fun _ _ _ hw' => .idle hw'
  have hdeletes : Excuses env (Deletes rel w) (fun _ => DeletedFail a rel w) :=
    fun _ _ _ hw' => .deleted present reason hw'
  have hbackup : Triple (Idle w) (backupLocal env rel a.backupBelowBytes) (fun _ => Idle w)
      (fun _ => DeletedFail a rel w) := by
    refine triple_backupLocal _ (steady_idle h w) hidle (fun w' hw' => by rw [hw'.localRoot]) ?_ ?_
    · exact fun w' area hw' =>
        ⟨hw'.localRoot, hw'.remoteRoot, hw'.saved, hw'.made.append rfl trivial⟩
    · exact fun hother => absurd hother hfile
  have hdelete : Triple (Idle w) (deleteLocal env rel) (fun _ => Deletes rel w)
      (fun _ => DeletedFail a rel w) := by
    refine triple_deleteLocal (steady_idle h w) hidle hdeletes ?_ ?_ ?_
    · intro w' hw'
      rw [hw'.localRoot]
      exact directory_of_get hnode
    · intro w' hw' hother
      rw [hw'.localRoot] at hother
      exact absurd hother hfile
    · intro w' root hw' hreplaced
      rw [hw'.localRoot] at hreplaced
      refine ⟨hreplaced, hw'.remoteRoot, hw'.saved, ?_⟩
      refine (hw'.made.mono fun _ => Or.inl).append rfl (Or.inr ?_)
      rw [hw'.localRoot]
  refine triple_bind hbackup fun _ => triple_bind hdelete fun _ => ?_
  refine triple_bind (returns_freshLocalEntry ?_ hdeletes fun w' hw' => hw'.localRoot.self)
    fun verify => triple_of_pure ?_
  · exact steady_of_quiet h fun _ _ hw' =>
      ⟨hw'.localRoot, hw'.remoteRoot, hw'.saved, hw'.made⟩
  · rintro rfl
    exact triple_pure fun w' hw' => .deleted present reason hw'

/-- The outcomes of a round over a deleted path. -/
theorem triple_deletedStep (h : env.Quiet) (acc : Progress) :
    Triple (fun s => s = w) (deletedStep env a acc rel) (DeletedOk a rel acc w)
      (fun _ => DeletedFail a rel w) := by
  refine Triple.pre (P := Idle w) ?_ fun s hs => hs ▸ .refl w
  have hlook : Returns (Idle w) (fun _ => DeletedFail a rel w)
      (freshLocalEntry env rel ((a.preLocal.get rel).map FileEntry.size))
      (deletedNow P a rel (w.localRoot.get rel)) := by
    refine returns_freshLocalEntry (steady_idle h w) (fun _ _ _ hw' => .idle hw') fun w' hw' => ?_
    change w'.localRoot.get rel = _
    rw [hw'.localRoot]
  refine triple_bind hlook fun localNow => triple_of_pure ?_
  rintro rfl
  cases hnow : deletedNow P a rel (w.localRoot.get rel) with
  | none => exact triple_pure fun w' hw' => .absent hnow hw'
  | some localNow =>
    dsimp only
    split
    · rename_i hchanged
      exact triple_pure fun w' hw' => .edited hnow hchanged hw'
    · rename_i hchanged
      exact triple_deleteOutput h hnow (by simpa using hchanged) acc

end Deleted

/-! ## The paths of a call -/

variable (P) in
/-- The manifest of the remote tree after the run. -/
def postOf (a : PullbackArgs) (w : World P) : Manifest :=
  manifestOf P a.surface .target w.remoteRoot

def changedAt (a : PullbackArgs) (w : World P) : List String := a.changed (postOf P a w)

def deletedAt (a : PullbackArgs) (w : World P) : List String := a.deleted (postOf P a w)

def escapedAt (a : PullbackArgs) (w : World P) : List String := a.escaped P (postOf P a w)

def collideAt (a : PullbackArgs) (w : World P) : List String :=
  a.collide P (postOf P a w) (manifestOf P a.surface .controller w.localRoot)

section Paths
variable {a : PullbackArgs} {w : World P} {rel : String}

theorem entry_of_manifestOf {s : Surface} {root : Root P.remoteKey} {entry : FileEntry}
    (h : (manifestOf P s .target root).get rel = some entry) :
    ∃ bytes, root.file rel = some bytes ∧ ManifestEntry P rel bytes entry := by
  rw [get_manifestOf] at h
  split at h
  · cases hnode : root.get rel with
    | none =>
      rw [hnode] at h
      simp [entryOf] at h
    | some node =>
      rw [hnode] at h
      cases node with
      | link target => simp [entryOf] at h
      | other => simp [entryOf] at h
      | file bytes mtimeNs mode =>
        rw [← Option.some.inj h]
        refine ⟨bytes, by rw [Root.file, hnode]; rfl, rfl, rfl, rfl, ?_⟩
        dsimp only
        split
        · exact Or.inr rfl
        · exact Or.inl rfl
  · simp at h

/-- A changed path is a file of the remote tree, with its entry. -/
theorem mem_changedAt (h : rel ∈ changedAt a w) : ∃ bytes entry,
    w.remoteRoot.file rel = some bytes ∧ (postOf P a w).get rel = some entry ∧
      ManifestEntry P rel bytes entry := by
  have hsome := (List.mem_filter.mp h).2
  rw [Bool.and_eq_true] at hsome
  obtain ⟨entry, hentry⟩ := Option.isSome_iff_exists.mp hsome.1
  obtain ⟨bytes, hbytes, hman⟩ := entry_of_manifestOf hentry
  exact ⟨bytes, entry, hbytes, hentry, hman⟩

theorem mem_deletedAt (h : rel ∈ deletedAt a w) : (postOf P a w).get rel = none := by
  have hnone := (List.mem_filter.mp h).2
  rw [Bool.and_eq_true] at hnone
  exact Option.isNone_iff_eq_none.mp hnone.2

theorem changedAt_nodup (a : PullbackArgs) (w : World P) : (changedAt a w).Nodup :=
  (sortPaths_nodup _).filter _

theorem deletedAt_nodup (a : PullbackArgs) (w : World P) : (deletedAt a w).Nodup :=
  (sortPaths_nodup _).filter _

/-- A path that does not collide is the only changed one of its local file. -/
theorem localKey_ne (h : rel ∈ changedAt a w) (hclear : rel ∉ collideAt a w) {q : String}
    (hq : q ∈ changedAt a w) (hne : q ≠ rel) : P.localKey q ≠ P.localKey rel := by
  intro heq
  cases hcase : P.localInsensitive with
  | false =>
    simp only [Platform.localKey, hcase, Bool.false_eq_true, if_false, id_eq] at heq
    exact hne heq
  | true =>
    simp only [Platform.localKey, hcase, if_true] at heq
    apply hclear
    unfold collideAt PullbackArgs.collide
    rw [if_pos hcase]
    refine List.mem_filter.mpr ⟨h, List.any_eq_true.mpr ?_⟩
    have hmem : ∀ path ∈ changedAt a w, path ∈ (manifestOf P a.surface .controller
        w.localRoot).keys ++ changedAt a w := fun path => List.mem_append_right _
    have hgroup : ∀ path ∈ changedAt a w, P.casefold path = P.casefold rel →
        path ∈ sortPaths (((manifestOf P a.surface .controller w.localRoot).keys ++
          changedAt a w).filter fun path => P.casefold path = P.casefold rel) := by
      intro path hpath hfold
      exact mem_sortPaths.mpr (List.mem_filter.mpr ⟨hmem path hpath, by simpa using hfold⟩)
    refine ⟨(P.casefold rel, _), List.mem_filterMap.mpr ⟨P.casefold rel, ?_, ?_⟩,
      decide_eq_true (hgroup rel h rfl)⟩
    · exact List.mem_eraseDups.mpr (List.mem_map_of_mem (hmem rel h))
    · refine if_pos ?_
      have hsub : [q, rel] ⊆ sortPaths (((manifestOf P a.surface .controller
          w.localRoot).keys ++ changedAt a w).filter fun path =>
            P.casefold path = P.casefold rel) := by
        intro path hpath
        rcases List.mem_cons.mp hpath with rfl | hpath
        · exact hgroup path hq heq
        · rw [List.mem_singleton.mp hpath]
          exact hgroup rel h rfl
      have hnodup : [q, rel].Nodup := by simpa using hne
      exact (hnodup.subperm hsub).length_le

end Paths

/-! ## The loop over the changed paths -/

theorem mem_of_split {α : Type} {items done rest : List α} {x : α}
    (h : items = done ++ x :: rest) : x ∈ items := by
  rw [h]
  exact List.mem_append_right _ List.mem_cons_self

/-- What the rounds over `done` leave alone. -/
structure Frame (start : World P) (done : List String) (w : World P) : Prop where
  remoteRoot : w.remoteRoot = start.remoteRoot
  notBlocked : w.localRoot ≠ .blocked
  made : Made (fun _ => True) start w
  localRest : ∀ rel, (∀ q ∈ done, P.localKey q ≠ P.localKey rel) →
    w.localRoot.get rel = start.localRoot.get rel
  savedRest : ∀ rel, (∀ q ∈ done, P.localKey q ≠ P.localKey rel) →
    w.saved.get rel = start.saved.get rel
  namesRest : ∀ rel, (∀ q ∈ done, P.localKey q ≠ P.localKey rel) →
    (w.localRoot.Lists rel ↔ start.localRoot.Lists rel)

theorem Frame.of_idle {start w : World P} (h : Idle start w)
    (hroot : start.localRoot ≠ .blocked) : Frame start [] w where
  remoteRoot := h.remoteRoot
  notBlocked := by rw [h.localRoot]; exact hroot
  made := h.made.mono fun _ _ => trivial
  localRest := fun _ _ => by rw [h.localRoot]
  savedRest := fun _ _ => by rw [h.saved]
  namesRest := fun _ _ => by rw [h.localRoot]

section Frames
variable {a : PullbackArgs} {collide : List String} {rel : String} {bytes : Bytes}
  {entry : FileEntry} {start w w' : World P} {done : List String}

theorem Frame.idle (h : Frame start done w) (hidle : Idle w w') :
    Frame start (done ++ [rel]) w' where
  remoteRoot := hidle.remoteRoot.trans h.remoteRoot
  notBlocked := by rw [hidle.localRoot]; exact h.notBlocked
  made := h.made.trans (hidle.made.mono fun _ _ => trivial)
  localRest := fun rel' hrel' => by
    rw [hidle.localRoot]
    exact h.localRest rel' fun q hq => hrel' q (List.mem_append_left _ hq)
  savedRest := fun rel' hrel' => by
    rw [hidle.saved]
    exact h.savedRest rel' fun q hq => hrel' q (List.mem_append_left _ hq)
  namesRest := fun rel' hrel' => by
    rw [hidle.localRoot]
    exact h.namesRest rel' fun q hq => hrel' q (List.mem_append_left _ hq)

theorem Frame.saves (h : Frame start done w) (hsaves : Saves env rel bytes w w') :
    Frame start (done ++ [rel]) w' where
  remoteRoot := hsaves.remoteRoot.trans h.remoteRoot
  notBlocked := by rw [hsaves.localRoot]; exact h.notBlocked
  made := h.made.trans (hsaves.made.mono fun _ _ => trivial)
  localRest := fun rel' hrel' => by
    rw [hsaves.localRoot]
    exact h.localRest rel' fun q hq => hrel' q (List.mem_append_left _ hq)
  savedRest := fun rel' hrel' => by
    obtain ⟨n, hsaved⟩ := hsaves.saved
    have hne : P.localKey rel' ≠ P.localKey rel :=
      (hrel' rel (List.mem_append_right _ List.mem_cons_self)).symm
    rw [hsaved, Dict.get_set_other _ _ hne]
    exact h.savedRest rel' fun q hq => hrel' q (List.mem_append_left _ hq)
  namesRest := fun rel' hrel' => by
    rw [hsaves.localRoot]
    exact h.namesRest rel' fun q hq => hrel' q (List.mem_append_left _ hq)

theorem Frame.pulls (h : Frame start done w) (hpulls : Pulls env rel bytes w w') :
    Frame start (done ++ [rel]) w' where
  remoteRoot := hpulls.remoteRoot.trans h.remoteRoot
  notBlocked := by
    obtain ⟨n, hreplaced⟩ := hpulls.localRoot
    obtain ⟨files, hfiles⟩ := hreplaced.directory
    rw [hfiles]
    exact fun heq => nomatch heq
  made := h.made.trans (hpulls.made.mono fun _ _ => trivial)
  localRest := fun rel' hrel' => by
    obtain ⟨n, hreplaced⟩ := hpulls.localRoot
    have hne : P.localKey rel' ≠ P.localKey rel :=
      (hrel' rel (List.mem_append_right _ List.mem_cons_self)).symm
    rw [hreplaced.others rel' hne]
    exact h.localRest rel' fun q hq => hrel' q (List.mem_append_left _ hq)
  savedRest := fun rel' hrel' => by
    rw [hpulls.saved]
    exact h.savedRest rel' fun q hq => hrel' q (List.mem_append_left _ hq)
  namesRest := fun rel' hrel' => by
    obtain ⟨n, hreplaced⟩ := hpulls.localRoot
    have hne : P.localKey rel' ≠ P.localKey rel :=
      (hrel' rel (List.mem_append_right _ List.mem_cons_self)).symm
    rw [hreplaced.names rel' hne]
    exact h.namesRest rel' fun q hq => hrel' q (List.mem_append_left _ hq)

theorem Frame.deletes (h : Frame start done w) (hdeletes : Deletes rel w w') :
    Frame start (done ++ [rel]) w' where
  remoteRoot := hdeletes.remoteRoot.trans h.remoteRoot
  notBlocked := by
    obtain ⟨files, hfiles⟩ := hdeletes.localRoot.directory
    rw [hfiles]
    exact fun heq => nomatch heq
  made := h.made.trans (hdeletes.made.mono fun _ _ => trivial)
  localRest := fun rel' hrel' => by
    have hne : P.localKey rel' ≠ P.localKey rel :=
      (hrel' rel (List.mem_append_right _ List.mem_cons_self)).symm
    rw [hdeletes.localRoot.others rel' hne]
    exact h.localRest rel' fun q hq => hrel' q (List.mem_append_left _ hq)
  savedRest := fun rel' hrel' => by
    rw [hdeletes.saved]
    exact h.savedRest rel' fun q hq => hrel' q (List.mem_append_left _ hq)
  namesRest := fun rel' hrel' => by
    have hne : P.localKey rel' ≠ P.localKey rel :=
      (hrel' rel (List.mem_append_right _ List.mem_cons_self)).symm
    rw [hdeletes.localRoot.names rel' hne]
    exact h.namesRest rel' fun q hq => hrel' q (List.mem_append_left _ hq)

theorem ChangedOk.frame {acc acc' : Progress}
    (h : ChangedOk env a collide rel bytes entry acc w acc' w') (hframe : Frame start done w) :
    Frame start (done ++ [rel]) w' := by
  cases h with
  | collided _ idle => exact hframe.idle idle
  | preserved _ _ saves => exact hframe.saves saves
  | skipped _ _ idle => exact hframe.idle idle
  | pulled _ _ pulls _ => exact hframe.pulls pulls

/-- At its turn, a path that does not collide is as it was at the start. -/
theorem Frame.at_turn (h : Frame start done w) {rest : List String}
    (hsplit : changedAt a start = done ++ rel :: rest) (hclear : rel ∉ collideAt a start) :
    w.localRoot.get rel = start.localRoot.get rel ∧ w.saved.get rel = start.saved.get rel := by
  have hrel := mem_of_split hsplit
  have hkeys : ∀ q ∈ done, P.localKey q ≠ P.localKey rel := by
    intro q hq
    refine localKey_ne hrel hclear (by rw [hsplit]; exact List.mem_append_left _ hq) ?_
    rintro rfl
    have hnodup := changedAt_nodup a start
    rw [hsplit, List.nodup_append] at hnodup
    exact hnodup.2.2 q hq q List.mem_cons_self rfl
  exact ⟨h.localRest rel hkeys, h.savedRest rel hkeys⟩

/-- The outcomes of the round over a changed path, in the loop. -/
theorem triple_changedRound (h : env.Quiet)
    (hbytes : start.remoteRoot.file rel = some bytes)
    (hpost : (postOf P a start).get rel = some entry) (hentry : ManifestEntry P rel bytes entry)
    (acc : Progress) (hframe : Frame start done w) :
    Triple (fun s => s = w) (changedStep env a (postOf P a start) (collideAt a start) acc rel)
      (ChangedOk env a (collideAt a start) rel bytes entry acc w)
      (fun _ => ChangedFail env a (collideAt a start) rel bytes entry w) := by
  refine triple_changedStep h hframe.notBlocked ?_ hentry hpost acc
  rw [hframe.remoteRoot]
  exact (get_of_file hbytes).1

end Frames

/-! ## The whole call -/

/-- Saving the escaped outputs writes nothing but the saved area. -/
structure SavedOnly (w w' : World P) : Prop where
  localRoot : w'.localRoot = w.localRoot
  remoteRoot : w'.remoteRoot = w.remoteRoot
  made : Made (fun m => m.IsBackup ∨ ∃ rel, m = .save rel) w w'

theorem keeps_saveEscaped (h : env.Quiet) (w : World P) (postRemote : Manifest)
    (escaped : List String) : Keeps (SavedOnly w) (saveEscaped env postRemote escaped) := by
  refine keeps_foldlM fun _ rel _ => keeps_saveRemote rel ?_ fun w' area hw' => ?_
  · exact steady_of_quiet h fun _ _ hw' => ⟨hw'.localRoot, hw'.remoteRoot, hw'.made⟩
  · exact ⟨hw'.localRoot, hw'.remoteRoot, hw'.made.append rfl (Or.inr ⟨rel, rfl⟩)⟩

theorem SavedOnly.of_idle {w w' : World P} (h : Idle w w') : SavedOnly w w' :=
  ⟨h.localRoot, h.remoteRoot, h.made.mono fun _ => Or.inl⟩

/-- The rule of a call: `K` is what the loops establish. -/
theorem triple_postrun {a : PullbackArgs} {w : World P} {Q : PullbackResult → World P → Prop}
    (K : Progress → World P → Prop) (h : env.Quiet)
    (hidle : ((∃ n, env.failure n ≠ none) ∨ w.localRoot = .blocked) →
      ∀ fault w', Idle w w' → E fault w')
    (hescape : escapedAt a w ≠ [] → Triple (Idle w)
      (saveEscaped env (postOf P a w) (escapedAt a w))
      (fun _ => Q (escapeResult (escapedAt a w) (postOf P a w)
        (manifestOf P a.surface .controller w.localRoot))) E)
    (hloops : escapedAt a w = [] → w.localRoot ≠ .blocked → Triple (Idle w)
      (pullChanges env a (postOf P a w) (manifestOf P a.surface .controller w.localRoot)) K E)
    (hsteady : ∀ acc, Steady env (K acc)) (hfail : ∀ acc fault w', K acc w' → E fault w')
    (hresult : ∀ acc localAfter w', K acc w' → Q (acc.result (postOf P a w) localAfter) w') :
    Triple (fun s => s = w) (postrunPullback env a) Q E := by
  refine Triple.pre (P := Idle w) ?_ fun s hs => hs ▸ .refl w
  have hE : Excuses env (Idle w) E := fun fault w' hmishap => hidle (Or.inl hmishap) fault w'
  have hpost : Returns (Idle w) E (buildManifest env a.surface .target) (postOf P a w) := by
    refine returns_buildManifest (steady_idle h w) hE ?_ ?_ fun heq => nomatch heq
    · intro w' hw'
      change w'.remoteRoot.listing = _
      rw [hw'.remoteRoot]
    · intro w' rel hw'
      change w'.remoteRoot.get rel = _
      rw [hw'.remoteRoot]
  have hcur : Returns (Idle w) E (buildManifest env a.surface .controller)
      (manifestOf P a.surface .controller w.localRoot) := by
    refine returns_buildManifest (steady_idle h w) hE ?_ ?_ fun _ hblocked => hidle (Or.inr hblocked)
    · intro w' hw'
      change w'.localRoot.listing = _
      rw [hw'.localRoot]
    · intro w' rel hw'
      change w'.localRoot.get rel = _
      rw [hw'.localRoot]
  refine triple_bind hpost fun postRemote => triple_of_pure ?_
  rintro rfl
  refine triple_bind (R := fun cur w' => cur = manifestOf P a.surface .controller w.localRoot ∧
    w.localRoot ≠ .blocked ∧ Idle w w') ?_ fun curLocal => triple_of_pure ?_
  · by_cases hblocked : w.localRoot = .blocked
    · refine triple_bind (returns_inspect (steady_idle h w) hE (v := .blocked) ?_) fun listing =>
        triple_of_pure ?_
      · intro w' hw'
        change w'.localRoot.listing = _
        rw [hw'.localRoot, hblocked]
        rfl
      · rintro rfl
        exact triple_throw (hidle (Or.inr hblocked) _)
    · exact hcur.post fun cur w' hw' => ⟨hw'.1, hblocked, hw'.2⟩
  · rintro rfl
    refine triple_of_pure fun hroot => ?_
    split
    · rename_i hescaped
      exact triple_bind (hescape hescaped) fun _ => triple_pure fun _ => id
    · rename_i hescaped
      refine triple_bind (hloops (not_not.mp hescaped) hroot) fun acc => ?_
      refine triple_bind (R := fun _ => K acc) ?_ fun localAfter =>
        triple_pure fun w' => hresult acc localAfter w'
      exact (reading_buildManifest a.surface .controller (K acc) (hsteady acc)).conseq
        (fun _ => id) (fun _ _ => id) (hfail acc)

end Relations

end Remrun.Reconcile
