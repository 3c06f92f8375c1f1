import Mathlib.Data.List.DropRight
import Remrun.Lib.Base64
import Remrun.Lib.JsonText

/-!
# RRFRAME2

A frame is a header line with two lengths, that many bytes of JSON and that many of base64. The
controller and the runner each have their writer and reader, and the runner also reads frames off
a stream.
-/

namespace Remrun.Frames
open JsonText

set_option autoImplicit false

universe u

abbrev Bytes := List UInt8

def newline : UInt8 := 10
def space : UInt8 := 32
def underscore : UInt8 := 95
def minus : UInt8 := 45
def plus : UInt8 := 43

/-! ## Numerals -/

/-- `b"%d" % n`. -/
def decimal (n : Nat) : Bytes := (Nat.toDigits 10 n).map fun c => UInt8.ofNat c.toNat

def isSpace (b : UInt8) : Bool := b = space || (9 ≤ b.toNat && b.toNat ≤ 13)

def isDigit (b : UInt8) : Bool := 48 ≤ b.toNat && b.toNat ≤ 57

/-- The digits of a numeral; a single underscore may stand between two of them. -/
def digitsOf : Bytes → Option Bytes
  | [] => none
  | [b] => if isDigit b then some [b] else none
  | b :: c :: rest =>
    if isDigit b then
      if c = underscore then (digitsOf rest).map (b :: ·) else (digitsOf (c :: rest)).map (b :: ·)
    else none

/-- `sys.int_info.default_max_str_digits`. -/
def maxStrDigits : Nat := 4300

def numeral (text : Bytes) : Option Nat :=
  match digitsOf text with
  | none => none
  | some digits =>
    if digits.length > maxStrDigits then none
    else some (Nat.ofDigitChars 10 (digits.map fun b => Char.ofNat b.toNat) 0)

/-- `int(text)`, with `none` for its `ValueError`. -/
def int (text : Bytes) : Option Int :=
  match (text.dropWhile isSpace).rdropWhile isSpace with
  | [] => none
  | c :: rest =>
    if c = minus then (numeral rest).map fun n => -(n : Int)
    else if c = plus then (numeral rest).map fun n => (n : Int)
    else (numeral (c :: rest)).map fun n => (n : Int)

/-! ## Texts -/

/-- `text.encode("utf-8")`. -/
def utf8 (text : List Char) : Bytes := text.flatMap String.utf8EncodeChar

/-- `data.decode("utf-8")`, with `none` for its `UnicodeDecodeError`. -/
def decodeUtf8 (data : Bytes) : Option (List Char) := data.toByteArray.utf8Decode?.map Array.toList

/-- What a frame rests on: how floats are written, read and compared, and the digest. -/
structure Wire (F : Type u) where
  floats : FloatText F
  /-- `n == x` -/
  floatIs : F → Nat → Bool
  /-- `hashlib.sha256(body).hexdigest()` -/
  sha256 : Bytes → String

/-- A header: a dictionary of JSON values. -/
structure Header (F : Type u) where
  members : Keyed.Dict (id : String → String) (Value F)
  proper : ∀ m ∈ members.rows, m.2.Proper

/-- `sys.maxsize`, the most bytes one object holds. -/
def maxsize : Nat := 9223372036854775807

/-- What is framed: a `bytes` object. -/
structure Body where
  bytes : Bytes
  fits : bytes.length ≤ maxsize

/-- The dictionary a header is read as. -/
abbrev Members (F : Type u) := List (String × Value F)

section Codec
variable {F : Type u} (W : Wire F)

/-- `n == value`. -/
def equalsNat (n : Nat) : Option (Value F) → Bool
  | some (.int m) => m = n
  | some (.float x) => W.floatIs x n
  | some (.bool b) => b.toNat = n
  | _ => false

/-- `text == value`. -/
def equalsText (text : String) : Option (Value F) → Bool
  | some (.str s) => s = text
  | _ => false

/-! ## The controller's codec -/

/-- `b"RRFRAME2"`. -/
def MAGIC : Bytes := [82, 82, 70, 82, 65, 77, 69, 50]

def maxHeaderBytes : Nat := 1048576

/-- Why a frame is refused. -/
inductive FrameError where
  | noHeaderLine
  | badMagic
  | badLengths
  | negativeLength
  | headerTooLarge
  | sizeMismatch (declared : Int) (got : Nat)
  | badHeaderJson
  | notAnObject
  | badBody
  | decodedLengthMismatch
  | digestMismatch
  deriving DecidableEq, Repr

/-- The header with `decoded_length` and `sha256` set from the body. -/
def packed (header : Header F) (body : Bytes) : Keyed.Dict (id : String → String) (Value F) :=
  (header.members.set "decoded_length" (.int body.length)).set "sha256" (.str (W.sha256 body))

def headerBytes (header : Header F) (body : Bytes) : Bytes :=
  utf8 (dumps W.floats (.obj (packed W header body).rows))

/-- `b"%s %d %d\n" % (MAGIC, len(header_bytes), len(b64))`. -/
def firstLine (headerLen bodyLen : Nat) : Bytes :=
  MAGIC ++ space :: (decimal headerLen ++ space :: (decimal bodyLen ++ [newline]))

def encodeFrame (header : Header F) (body : Bytes) : Bytes :=
  let b64 := Base64.encode body
  firstLine (headerBytes W header body).length b64.length ++ headerBytes W header body ++ b64

/-- What follows the header line, once the lengths add up. -/
def decodePayload (header b64 : Bytes) : Except FrameError (Members F × Bytes) :=
  match (decodeUtf8 header).bind (loads W.floats) with
  | none => .error .badHeaderJson
  | some (.obj members) =>
    match Base64.decode b64 with
    | none => .error .badBody
    | some body =>
      if !equalsNat W body.length (members.lookup "decoded_length") then
        .error .decodedLengthMismatch
      else if !equalsText (W.sha256 body) (members.lookup "sha256") then .error .digestMismatch
      else .ok (members, body)
  | some _ => .error .notAnObject

def decodeFrame (data : Bytes) : Except FrameError (Members F × Bytes) :=
  match data.idxOf? newline with
  | none => .error .noHeaderLine
  | some nl =>
    match (data.take nl).splitOn space with
    | [magic, first, second] =>
      if magic ≠ MAGIC then .error .badMagic
      else
        match int first, int second with
        | some headerLen, some bodyLen =>
          let rest := data.drop (nl + 1)
          if headerLen < 0 ∨ bodyLen < 0 then .error .negativeLength
          else if headerLen > maxHeaderBytes then .error .headerTooLarge
          else if (rest.length : Int) ≠ headerLen + bodyLen then
            .error (.sizeMismatch (headerLen + bodyLen) rest.length)
          else decodePayload W (rest.take headerLen.toNat) (rest.drop headerLen.toNat)
        | _, _ => .error .badLengths
    | _ => .error .badMagic

end Codec

/-! ## The runner's codec -/

namespace Runner

/-- `b"RRFRAME2"`. -/
def FRAME_MAGIC : Bytes := [82, 82, 70, 82, 65, 77, 69, 50]

def MAX_HEADER_BYTES : Nat := 1048576

/-- The text of a `RunnerError`. -/
abbrev RunnerError := String

section Codec
variable {F : Type u} (W : Wire F)

def canonicalJson (value : Value F) : Bytes := utf8 (dumps W.floats value)

def encodeFrame (header : Header F) (body : Bytes) : Bytes :=
  let packed := (header.members.set "decoded_length" (.int body.length)).set "sha256"
    (.str (W.sha256 body))
  let headerBytes := canonicalJson W (.obj packed.rows)
  let encoded := Base64.encode body
  FRAME_MAGIC ++ space :: (decimal headerBytes.length ++ space ::
    (decimal encoded.length ++ [newline])) ++ headerBytes ++ encoded

/-- The header and the body are both read before the header's kind is looked at. -/
def decodePayload (header b64 : Bytes) : Except RunnerError (Members F × Bytes) :=
  match (decodeUtf8 header).bind (loads W.floats), Base64.decode b64 with
  | some value, some body =>
    match value with
    | .obj members =>
      if !equalsNat W body.length (members.lookup "decoded_length") then
        .error "decoded length mismatch"
      else if !equalsText (W.sha256 body) (members.lookup "sha256") then
        .error "payload digest mismatch"
      else .ok (members, body)
    | _ => .error "frame header is not an object"
  | _, _ => .error "invalid framed payload"

def decodeFrame (data : Bytes) : Except RunnerError (Members F × Bytes) :=
  match data.idxOf? newline with
  | none => .error "no frame header line"
  | some nl =>
    match (data.take nl).splitOn space with
    | [magic, first, second] =>
      if magic ≠ FRAME_MAGIC then .error "bad frame magic or header line"
      else
        match int first, int second with
        | some headerLen, some bodyLen =>
          if headerLen < 0 ∨ bodyLen < 0 ∨ headerLen > MAX_HEADER_BYTES then
            .error "invalid frame lengths"
          else
            let rest := data.drop (nl + 1)
            if (rest.length : Int) ≠ headerLen + bodyLen then .error "frame size mismatch"
            else decodePayload W (rest.take headerLen.toNat) (rest.drop headerLen.toNat)
        | _, _ => .error "bad frame lengths"
    | _ => .error "bad frame magic or header line"

end Codec

/-! ## Streams -/

/-- A binary stream: the bytes still to come, and how many of them each `read` hands over when
it is asked for more. A read that is not at the end hands over at least one. -/
structure Stream where
  bytes : Bytes
  grants : Nat → Nat
  reads : Nat

/-- `stream.readline(limit)`. -/
def Stream.readline (s : Stream) (limit : Nat) : Bytes × Stream :=
  let n := match (s.bytes.take limit).idxOf? newline with
    | some nl => nl + 1
    | none => limit
  (s.bytes.take n, { s with bytes := s.bytes.drop n })

/-- `stream.read(n)`. -/
def Stream.read (s : Stream) (n : Nat) : Bytes × Stream :=
  let k := min n (max 1 (s.grants s.reads))
  (s.bytes.take k, { s with bytes := s.bytes.drop k, reads := s.reads + 1 })

def readFdStreamExact (stream : Stream) (remaining : Nat) : Except RunnerError (Bytes × Stream) :=
  if remaining = 0 then .ok ([], stream)
  else if (stream.read remaining).1 = [] then .error "runner stream frame is truncated"
  else
    match readFdStreamExact (stream.read remaining).2
        (remaining - (stream.read remaining).1.length) with
    | .ok (chunks, stream') => .ok ((stream.read remaining).1 ++ chunks, stream')
    | .error e => .error e
termination_by remaining
decreasing_by
  rename_i hne hchunk
  have hpos := List.length_pos_iff.mpr hchunk
  omega

section Streams
variable {F : Type u} (W : Wire F)

/-- The header, the body and the bytes of the next frame. -/
def readFrameFromStream (stream : Stream) :
    Except RunnerError ((Members F × Bytes × Bytes) × Stream) :=
  let (first, stream) := stream.readline 256
  if first = [] ∨ first.length ≥ 256 ∨ first.getLast? ≠ some newline then
    .error "runner stream frame header is missing or oversized"
  else
    match first.dropLast.splitOn space with
    | [magic, length, length'] =>
      if magic ≠ FRAME_MAGIC then .error "runner stream frame magic is invalid"
      else
        match int length, int length' with
        | some headerLen, some bodyLen =>
          if headerLen < 0 ∨ headerLen > 1048576 ∨ bodyLen < 0 ∨ bodyLen > 268435456 then
            .error "runner stream frame length exceeds bound"
          else
            match readFdStreamExact stream (headerLen + bodyLen).toNat with
            | .error e => .error e
            | .ok (remainder, stream') =>
              match decodeFrame W (first ++ remainder) with
              | .error e => .error e
              | .ok (header, body) => .ok ((header, body, first ++ remainder), stream')
        | _, _ => .error "runner stream frame lengths are invalid"
    | _ => .error "runner stream frame magic is invalid"

/-- The next `count` frames. -/
def readFrames : Nat → Stream → Except RunnerError (List (Members F × Bytes × Bytes) × Stream)
  | 0, stream => .ok ([], stream)
  | count + 1, stream =>
    match readFrameFromStream W stream with
    | .error e => .error e
    | .ok (frame, stream') =>
      match readFrames count stream' with
      | .error e => .error e
      | .ok (frames, stream'') => .ok (frame :: frames, stream'')

end Streams

end Runner

end Remrun.Frames
