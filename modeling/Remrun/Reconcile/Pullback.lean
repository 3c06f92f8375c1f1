import Remrun.Reconcile.Preflight

/-!
# Pullback after a run

`postrun_pullback`: the changes a command made to the remote tree come back to the project,
unless a path left its declared scope or was edited locally in the meantime.
-/

namespace Remrun.Reconcile

open Keyed Effect
set_option autoImplicit false

/-- The only pair of baselines that may be persisted after a pullback. -/
structure NextBaseline where
  localManifest : Manifest
  remoteManifest : Manifest

structure PullbackResult where
  pulled : List String
  deletedLocal : List String
  conflicts : List String
  skippedIdentical : List String
  postRemoteManifest : Manifest
  localManifestAfter : Manifest
  nextBaseline : Option NextBaseline

structure PullbackArgs where
  surface : Surface
  preRemote : Manifest
  preLocal : Manifest
  backupBelowBytes : Nat
  /-- `write_scope_paths`, empty where none are declared -/
  writeScope : List String

/-- The variables of the two loops. -/
structure Progress where
  pulled : List String
  deletedLocal : List String
  conflicts : List String
  skippedIdentical : List String
  nextLocal : Manifest
  nextRemote : Manifest

namespace Progress

def start (a : PullbackArgs) : Progress := ⟨[], [], [], [], a.preLocal, a.preRemote⟩

def conflict (acc : Progress) (rel : String) : Progress :=
  { acc with conflicts := acc.conflicts ++ [rel] }

/-- `next_local[rel] = replace(local_entry, path=rel); next_remote[rel] = post_remote[rel]`. -/
def advance (acc : Progress) (rel : String) (localEntry remoteEntry : FileEntry) : Progress :=
  { acc with
    nextLocal := acc.nextLocal.set rel { localEntry with path := rel }
    nextRemote := acc.nextRemote.set rel remoteEntry }

def skip (acc : Progress) (rel : String) (localEntry remoteEntry : FileEntry) : Progress :=
  { acc.advance rel localEntry remoteEntry with
    skippedIdentical := acc.skippedIdentical ++ [rel] }

def pull (acc : Progress) (rel : String) (localEntry remoteEntry : FileEntry) : Progress :=
  { acc.advance rel localEntry remoteEntry with pulled := acc.pulled ++ [rel] }

/-- The path leaves both baselines. -/
def forget (acc : Progress) (rel : String) : Progress :=
  { acc with nextLocal := acc.nextLocal.pop rel, nextRemote := acc.nextRemote.pop rel }

def delete (acc : Progress) (rel : String) : Progress :=
  { acc.forget rel with deletedLocal := acc.deletedLocal ++ [rel] }

def result (acc : Progress) (postRemote localAfter : Manifest) : PullbackResult where
  pulled := acc.pulled
  deletedLocal := acc.deletedLocal
  conflicts := acc.conflicts
  skippedIdentical := acc.skippedIdentical
  postRemoteManifest := postRemote
  localManifestAfter := localAfter
  nextBaseline := if acc.conflicts = [] then some ⟨acc.nextLocal, acc.nextRemote⟩ else none

end Progress

namespace PullbackArgs
variable (a : PullbackArgs) (P : Platform) (postRemote curLocal : Manifest)

def changed : List String := (diffRemoteChanges a.preRemote postRemote).1

def deleted : List String := (diffRemoteChanges a.preRemote postRemote).2

/-- The paths that leave a declared write scope. -/
def escaped : List String :=
  if a.writeScope = [] then []
  else (a.changed postRemote ++ a.deleted postRemote).filter fun rel =>
    !matchesAnyScopePath P rel a.writeScope

/-- The outputs that would collapse into another local file. -/
def collide : List String :=
  if P.localInsensitive then
    (a.changed postRemote).filter fun rel =>
      (casefoldCollisions P (curLocal.keys ++ a.changed postRemote)).any fun group => rel ∈ group.2
  else []

end PullbackArgs

section Pullback
variable {P : Platform} (env : Env P) (a : PullbackArgs)

/-- The answer of `hash_file`, if it is a digest. -/
def checkedDigest (rel : String) : M P String := do
  let digest ← hashFile env rel
  if isDigest digest.toLower then return digest.toLower
  else throw (.transportError ("hash " ++ rel ++ " returned an invalid SHA-256"))

/-- The remote entry with a strong hash, or `none` where none can be obtained. -/
def strongEntry (rel : String) (entry : FileEntry) : M P (Option FileEntry) :=
  match entry.sha256 with
  | some _ => return some entry
  | none => expected ((fun digest => { entry with sha256 := some digest }) <$> checkedDigest env rel)

/-- The local entry, if it is the same as the remote one. -/
def sameEntry (localNow : Option FileEntry) (remoteEntry : FileEntry) : Option FileEntry :=
  localNow.filter fun entry => entriesSame (some entry) (some remoteEntry)

/-- The remote version is saved outside the project tree, and the path is a conflict. -/
def preserveRemote (acc : Progress) (rel : String) : M P Progress := do
  saveRemote env rel
  return acc.conflict rel

/-- The pull of a path that was not edited. `manifested` is its entry in the manifest. -/
def pullOutput (acc : Progress) (rel : String) (manifested remoteEntry : FileEntry) :
    M P Progress := do
  let _ ← backupLocal env rel a.backupBelowBytes
  pullFile env rel
  let verify ← freshLocalEntry env rel (some remoteEntry.size)
  match sameEntry verify remoteEntry with
  | some entry => return acc.pull rel entry manifested
  | none => throw (.transportError ("pull verification failed for " ++ rel))

/-- What becomes of an output whose remote entry has a strong hash. -/
def settleOutput (acc : Progress) (rel : String) (manifested remoteEntry : FileEntry) :
    M P Progress := do
  let localNow ← freshLocalEntry env rel (some remoteEntry.size)
  match sameEntry localNow remoteEntry with
  | some entry => return acc.skip rel entry manifested
  | none =>
    if changedSince (a.preLocal.get rel) localNow then preserveRemote env acc rel
    else pullOutput env a acc rel manifested remoteEntry

/-- The loop body over the changed paths. -/
def changedStep (postRemote : Manifest) (collide : List String) (acc : Progress) (rel : String) :
    M P Progress :=
  if rel ∈ collide then return acc.conflict rel
  else match postRemote.get rel with
    | none => return acc.conflict rel
    | some manifested => do
      match ← strongEntry env rel manifested with
      | none => preserveRemote env acc rel
      | some remoteEntry => settleOutput env a acc rel manifested remoteEntry

/-- The deletion of a path that was not edited. -/
def deleteOutput (acc : Progress) (rel : String) : M P Progress := do
  let _ ← backupLocal env rel a.backupBelowBytes
  deleteLocal env rel
  let verify ← freshLocalEntry env rel none
  if verify.isSome then throw (.transportError ("delete verification failed for " ++ rel))
  else return acc.delete rel

/-- The loop body over the deleted paths. -/
def deletedStep (acc : Progress) (rel : String) : M P Progress := do
  let localNow ← freshLocalEntry env rel ((a.preLocal.get rel).map FileEntry.size)
  match localNow with
  | none => return acc.forget rel
  | some _ =>
    if changedSince (a.preLocal.get rel) localNow then return acc.conflict rel
    else deleteOutput env a acc rel

/-- The result where a path left the write scope. -/
def escapeResult (escaped : List String) (postRemote curLocal : Manifest) : PullbackResult where
  pulled := []
  deletedLocal := []
  conflicts := escaped
  skippedIdentical := []
  postRemoteManifest := postRemote
  localManifestAfter := curLocal
  nextBaseline := none

/-- The outputs that left the scope are saved. -/
def saveEscaped (postRemote : Manifest) (escaped : List String) : M P Unit :=
  (escaped.filter fun rel => (postRemote.get rel).isSome).foldlM (fun _ rel => saveRemote env rel) ()

/-- The two loops. -/
def pullChanges (postRemote curLocal : Manifest) : M P Progress := do
  let acc ← (a.changed postRemote).foldlM
    (changedStep env a postRemote (a.collide P postRemote curLocal)) (Progress.start a)
  (a.deleted postRemote).foldlM (deletedStep env a) acc

/-- `postrun_pullback`. -/
def postrunPullback : M P PullbackResult := do
  let postRemote ← buildManifest env a.surface .target
  let curLocal ← buildManifest env a.surface .controller
  if a.escaped P postRemote ≠ [] then do
    saveEscaped env postRemote (a.escaped P postRemote)
    return escapeResult (a.escaped P postRemote) postRemote curLocal
  else do
    let acc ← pullChanges env a postRemote curLocal
    let localAfter ← buildManifest env a.surface .controller
    return acc.result postRemote localAfter

end Pullback

end Remrun.Reconcile
