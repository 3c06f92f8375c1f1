import Mathlib.Data.List.Sort
import Mathlib.Data.String.Basic
import Remrun.Lib.Dict

/-!
# Manifests and the surface they cover

A manifest is a dictionary from relative paths to file entries. Which paths of a tree it
covers is decided by the exclude patterns and the exact inclusions.
-/

namespace Remrun.Reconcile

open Keyed
set_option autoImplicit false

abbrev Bytes := List UInt8

structure FileEntry where
  path : String
  kind : String
  size : Nat
  mtimeNs : Int
  sha256 : Option String
  mode : Option Nat
  deriving DecidableEq, Repr

abbrev Manifest := Dict (id : String → String) FileEntry

/-- `sorted(set(paths))`. -/
def sortPaths (paths : List String) : List String := paths.dedup.insertionSort (· ≤ ·)

theorem mem_sortPaths {paths : List String} {path : String} :
    path ∈ sortPaths paths ↔ path ∈ paths := by
  rw [sortPaths, (List.perm_insertionSort _ _).mem_iff, List.mem_dedup]

theorem sortPaths_nodup (paths : List String) : (sortPaths paths).Nodup :=
  (List.perm_insertionSort _ _).nodup_iff.mpr (List.nodup_dedup paths)

/-- The sorted union of the paths of two manifests. -/
def unionPaths (left right : Manifest) : List String := sortPaths (left.keys ++ right.keys)

theorem mem_keys_iff {manifest : Manifest} {path : String} :
    path ∈ manifest.keys ↔ ∃ entry, manifest.get path = some entry := by
  constructor
  · exact Dict.get_of_mem_keys
  · rintro ⟨entry, h⟩
    obtain ⟨path', hmem, hkey⟩ := Dict.mem_keys_of_get h
    exact (show path' = path from hkey) ▸ hmem

theorem mem_unionPaths {left right : Manifest} {path : String} :
    path ∈ unionPaths left right ↔
      (∃ entry, left.get path = some entry) ∨ ∃ entry, right.get path = some entry := by
  rw [unionPaths, mem_sortPaths, List.mem_append, mem_keys_iff, mem_keys_iff]

/-! ## Digests -/

def isHexDigit (c : Char) : Bool := ('0' ≤ c && c ≤ '9') || ('a' ≤ c && c ≤ 'f')

/-- Sixty-four lowercase hexadecimal digits. -/
def isDigest (text : String) : Bool := text.length = 64 && text.toList.all isHexDigit

/-- What differs between hosts: the two operating systems, and library functions that are
tables. `casefold` is NFC normalization followed by `str.casefold`. -/
structure Platform where
  normcase : String → String
  casefold : String → String
  localInsensitive : Bool
  remoteInsensitive : Bool
  sha256 : Bytes → String
  sha256_digest : ∀ bytes, isDigest (sha256 bytes) = true

/-- Names with one key are one file of the controller. -/
def Platform.localKey (P : Platform) : String → String :=
  if P.localInsensitive then P.casefold else id

def Platform.remoteKey (P : Platform) : String → String :=
  if P.remoteInsensitive then P.casefold else id

/-- `casefold_collisions`: the groups of distinct paths with one folded form. -/
def casefoldCollisions (P : Platform) (paths : List String) : List (String × List String) :=
  (paths.map P.casefold).eraseDups.filterMap fun folded =>
    let group := sortPaths (paths.filter fun path => P.casefold path = folded)
    if 1 < group.length then some (folded, group) else none

/-! ## Patterns -/

/-- `str.isspace` of one character. -/
def isSpace (c : Char) : Bool :=
  c.val ∈ ([0x9, 0xa, 0xb, 0xc, 0xd, 0x1c, 0x1d, 0x1e, 0x1f, 0x20, 0x85, 0xa0, 0x1680, 0x2000,
    0x2001, 0x2002, 0x2003, 0x2004, 0x2005, 0x2006, 0x2007, 0x2008, 0x2009, 0x200a, 0x2028,
    0x2029, 0x202f, 0x205f, 0x3000] : List UInt32)

/-- `str.strip`, of the characters that satisfy `p`. -/
def strip (p : Char → Bool) (text : List Char) : List Char :=
  ((text.dropWhile p).reverse.dropWhile p).reverse

def stripSlashes (text : List Char) : List Char := strip (· = '/') text

inductive GlobToken where
  | star
  | one
  | char (c : Char)
  | set (negated : Bool) (items : List Char)
  deriving DecidableEq, Repr

/-- The inside of `[…]` and what follows it, if the bracket is closed. -/
def globSet (text : List Char) : Option (GlobToken × List Char) :=
  let negated := text.head? = some '!'
  let body := if negated then text.tail else text
  let head := if body.head? = some ']' then [']'] else []
  let rest := body.drop head.length
  match rest.dropWhile (· ≠ ']') with
  | [] => none
  | _ :: after => some (.set negated (head ++ rest.takeWhile (· ≠ ']')), after)

/-- `fnmatch.translate`; the fuel is the length of the pattern. -/
def globTokens : Nat → List Char → List GlobToken
  | 0, _ => []
  | _ + 1, [] => []
  | fuel + 1, '*' :: rest => .star :: globTokens fuel rest
  | fuel + 1, '?' :: rest => .one :: globTokens fuel rest
  | fuel + 1, '[' :: rest =>
    match globSet rest with
    | none => .char '[' :: globTokens fuel rest
    | some (token, after) => token :: globTokens fuel after
  | fuel + 1, c :: rest => .char c :: globTokens fuel rest

/-- The characters and ranges of a set; an empty range matches nothing. -/
def setContains (c : Char) : List Char → Bool
  | low :: '-' :: high :: rest => (low ≤ c && c ≤ high) || setContains c rest
  | d :: rest => c = d || setContains c rest
  | [] => false

def matchStar (rest : List Char → Bool) : List Char → Bool
  | [] => rest []
  | c :: text => rest (c :: text) || matchStar rest text

def globMatch : List GlobToken → List Char → Bool
  | [], text => text = []
  | .star :: tokens, text => matchStar (globMatch tokens) text
  | .one :: tokens, text => match text with
    | [] => false
    | _ :: text => globMatch tokens text
  | .char d :: tokens, text => match text with
    | [] => false
    | c :: text => c = d && globMatch tokens text
  | .set negated items :: tokens, text => match text with
    | [] => false
    | c :: text => (setContains c items != negated) && globMatch tokens text

/-- `fnmatch.fnmatch`. -/
def fnmatch (P : Platform) (name pattern : List Char) : Bool :=
  let pattern := (P.normcase (String.ofList pattern)).toList
  globMatch (globTokens pattern.length pattern) (P.normcase (String.ofList name)).toList

/-- The loop body of `should_exclude`. -/
def matchesPattern (P : Platform) (rel : List Char) (pattern : String) : Bool :=
  let pat := strip isSpace pattern.toList
  if pat = [] then false
  else if "/**".toList.isSuffixOf pat &&
      (let stem := stripSlashes (pat.take (pat.length - 3))
       rel = stem || (stem ++ ['/']).isPrefixOf rel) then true
  else fnmatch P rel pat || fnmatch P ('/' :: rel) pat

/-- `should_exclude`. -/
def shouldExclude (P : Platform) (rel : String) (patterns : List String) : Bool :=
  patterns.any (matchesPattern P (stripSlashes rel.toList))

/-- `_matches_any_scope_path`. -/
def matchesAnyScopePath (P : Platform) (rel : String) (patterns : List String) : Bool :=
  patterns.any fun pattern => shouldExclude P rel [pattern]

/-! ## The covered surface -/

/-- The arguments that select and hash the files of a manifest. -/
structure Surface where
  excludes : List String
  includePaths : List String
  hashBelowBytes : Nat

/-- The directories above a path. -/
def parentDirs (seen : List Char) : List Char → List String
  | [] => []
  | c :: rest =>
    if c = '/' then String.ofList seen :: parentDirs (seen ++ [c]) rest
    else parentDirs (seen ++ [c]) rest

/-- `forced_or_descendant`. -/
def Surface.forced (s : Surface) (rel : String) : Bool :=
  (s.includePaths.filter (· ≠ "")).any fun path =>
    let path := stripSlashes path.toList
    path = rel.toList || (rel.toList ++ ['/']).isPrefixOf path

def Surface.excluded (P : Platform) (s : Surface) (rel : String) : Bool :=
  shouldExclude P rel s.excludes && !s.forced rel

/-- The walk reaches the path: neither it nor a directory above it is excluded. -/
def Surface.covers (P : Platform) (s : Surface) (rel : String) : Bool :=
  !s.excluded P rel && (parentDirs [] rel.toList).all fun dir => !s.excluded P dir

/-- Whether a file of that size is hashed. -/
def Surface.hashes (s : Surface) (size : Nat) : Bool :=
  s.hashBelowBytes ≠ 0 && size ≤ s.hashBelowBytes

end Remrun.Reconcile
