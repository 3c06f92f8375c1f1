import Remrun.Reconcile.World

/-!
# Strong identities

The identity of one file as a JSON record, and the digest of a whole manifest over its
content identities. The digest leaves the modification times out.
-/

namespace Remrun.Snapshot

open Keyed Reconcile
set_option autoImplicit false

/-! ## JSON text -/

/-- A scalar of a JSON record. -/
inductive Value where
  | null
  | bool (b : Bool)
  | int (n : Int)
  | str (text : String)
  deriving DecidableEq, Repr

/-- `str(value)`. -/
def Value.text : Value → String
  | .null => "None"
  | .bool true => "True"
  | .bool false => "False"
  | .int n => toString n
  | .str text => text

def hexDigit (n : Nat) : Char := Char.ofNat (if n < 10 then 48 + n else 87 + n)

/-- The escape of one UTF-16 code unit. -/
def unitEscape (n : Nat) : List Char :=
  ['\\', 'u', hexDigit (n / 4096 % 16), hexDigit (n / 256 % 16), hexDigit (n / 16 % 16),
    hexDigit (n % 16)]

/-- One character of a string, with `ensure_ascii`. -/
def escapeChar (c : Char) : List Char :=
  if c = '"' then ['\\', '"']
  else if c = '\\' then ['\\', '\\']
  else if c = '\n' then ['\\', 'n']
  else if c = '\r' then ['\\', 'r']
  else if c = '\t' then ['\\', 't']
  else if c.toNat = 12 then ['\\', 'f']
  else if c.toNat = 8 then ['\\', 'b']
  else if c.toNat < 32 ∨ 126 < c.toNat then
    if c.toNat < 65536 then unitEscape c.toNat
    else unitEscape (55296 + (c.toNat - 65536) / 1024) ++
      unitEscape (56320 + (c.toNat - 65536) % 1024)
  else [c]

def jsonString (text : String) : List Char :=
  '"' :: (text.toList.flatMap escapeChar ++ ['"'])

def Value.json : Value → List Char
  | .null => "null".toList
  | .bool true => "true".toList
  | .bool false => "false".toList
  | .int n => (toString n).toList
  | .str text => jsonString text

/-- `json.dumps(record, sort_keys=True, separators=(",", ":"))` of a record whose fields are
given in the order of their keys. -/
def jsonRecord (fields : List (String × Value)) : List Char :=
  '\x7b' :: ([','].intercalate (fields.map fun field =>
    jsonString field.1 ++ ':' :: field.2.json) ++ ['\x7d'])

/-- `text.encode("utf-8")`. -/
def encodeUtf8 (text : List Char) : Bytes := text.flatMap String.utf8EncodeChar

/-! ## Identities -/

/-- `_content_identity`: content and mode, without the modification time. -/
structure ContentIdentity where
  kind : Value
  size : Value
  sha256 : Value
  mode : Value
  deriving DecidableEq, Repr

/-- The record of a path that enters the digest. -/
def ContentIdentity.record (path : String) (identity : ContentIdentity) : List Char :=
  jsonRecord [("kind", identity.kind), ("mode", identity.mode), ("path", .str path),
    ("sha256", identity.sha256), ("size", identity.size)]

/-- The bytes that are digested, for the paths in order. -/
def identityText (identityAt : String → Option ContentIdentity) (paths : List String) : Bytes :=
  paths.flatMap fun path =>
    match identityAt path with
    | some identity => encodeUtf8 (identity.record path ++ ['\n'])
    | none => []

def optionValue {α : Type} (value : α → Value) : Option α → Value
  | some a => value a
  | none => .null

def entryIdentity (entry : FileEntry) : ContentIdentity where
  kind := .str entry.kind
  size := .int entry.size
  sha256 := optionValue .str entry.sha256
  mode := optionValue (fun mode : Nat => .int mode) entry.mode

/-- `strong_manifest_digest`. -/
def strongManifestDigest (P : Platform) (manifest : Manifest) : String :=
  P.sha256 (identityText (fun path => (manifest.get path).map entryIdentity)
    (sortPaths manifest.keys))

/-! ## A platform for concrete snapshots -/

/-- A file with one byte of content. -/
def sampleEntry (path : String) (byte : UInt8) : FileEntry :=
  ⟨path, "file", 1, 1, some (sampleSha256 [byte]), some 0o644⟩

/-- The text that is digested for a manifest with that one file. -/
def sampleText (path : String) (byte : UInt8) : Bytes :=
  encodeUtf8 ((entryIdentity (sampleEntry path byte)).record path ++ ['\n'])

/-- SHA-256 on the texts that the concrete snapshots digest. -/
def snapshotSha256 (bytes : Bytes) : String :=
  if bytes = sampleText "p" 97 then
    "ff83ef3223f82cac2813cf3cfe8fe84877a88e0f5a7b3f3b6cf7296da38ab3bc"
  else if bytes = sampleText "p" 98 then
    "602d628b154c3d2cb75465ecc1d34accd39a579d4bddd92e49ec077465a5b07a"
  else if bytes = sampleText "a\\b" 97 then
    "8c6fb70fad05c60a2d9a22264417c8353da30840dbfffa8cf40488ad375cb985"
  else sampleSha256 bytes

def snapshotPlatform : Platform where
  normcase := id
  casefold := String.toLower
  localInsensitive := false
  remoteInsensitive := false
  sha256 := snapshotSha256
  sha256_digest := by
    intro bytes
    unfold snapshotSha256
    split
    · decide +kernel
    · split
      · decide +kernel
      · split
        · decide +kernel
        · exact (samplePlatform false).sha256_digest bytes

end Remrun.Snapshot
