import Mathlib.Tactic

/-!
# Bounded logs

The writer of `_durable_runner.py` that keeps the head and the tail of a stream once it is longer
than the configured number of bytes. What it leaves in the file is a function of the stream: the
chunks in which the stream arrives do not matter.
-/

namespace Remrun.Spool

set_option autoImplicit false

abbrev Bytes := List UInt8

/-- `TRUNCATION_MARKER`. -/
def truncationMarker : Bytes :=
  [10, 46, 46, 46, 91, 114, 101, 109, 114, 117, 110, 32, 100, 117, 114, 97, 98, 108, 101, 32, 108,
    111, 103, 32, 116, 114, 117, 110, 99, 97, 116, 101, 100, 93, 46, 46, 46, 10]

/-- How many bytes of the end are kept. -/
def tailLimit (maxBytes : Nat) : Nat := min (256 * 1024) (maxBytes / 2)

def marker (maxBytes : Nat) : Bytes := truncationMarker.take (maxBytes - tailLimit maxBytes)

def headLimit (maxBytes : Nat) : Nat :=
  maxBytes - tailLimit maxBytes - (marker maxBytes).length

/-- `_BoundedWriter`: the file's content is `handle`. -/
structure BoundedWriter where
  handle : Bytes
  written : Nat
  truncated : Bool
  tail : Bytes

def open_ : BoundedWriter := ⟨[], 0, false, []⟩

section Writer
variable (maxBytes : Nat)

def retainTail (w : BoundedWriter) (data : Bytes) : BoundedWriter :=
  if data = [] ∨ tailLimit maxBytes = 0 then w
  else
    let tail := w.tail ++ data
    { w with tail := tail.drop (tail.length - tailLimit maxBytes) }

def startTruncation (w : BoundedWriter) (overflow : Bytes) : BoundedWriter :=
  let tail :=
    if tailLimit maxBytes = 0 then w.tail
    else
      let tailStart := w.written - tailLimit maxBytes
      w.tail ++ (w.handle.drop tailStart).take (w.written - tailStart)
  retainTail maxBytes
    { handle := w.handle.take (headLimit maxBytes), written := headLimit maxBytes,
      truncated := true, tail } overflow

def write (w : BoundedWriter) (data : Bytes) : BoundedWriter :=
  if data = [] then w
  else if w.truncated then retainTail maxBytes w data
  else
    let remaining := maxBytes - w.written
    if data.length ≤ remaining then
      { w with handle := w.handle ++ data, written := w.written + data.length }
    else
      startTruncation maxBytes
        { w with handle := w.handle ++ data.take remaining, written := w.written + remaining }
        (data.drop remaining)

/-- The file after `close`. -/
def close (w : BoundedWriter) : Bytes :=
  if w.truncated then w.handle.take (headLimit maxBytes) ++ marker maxBytes ++ w.tail
  else w.handle

/-- `_pump`: every chunk the pipe gives is written. -/
def pump (chunks : List Bytes) : BoundedWriter := chunks.foldl (write maxBytes) open_

/-- The log of a stream that arrives in these chunks. -/
def spool (chunks : List Bytes) : Bytes := close maxBytes (pump maxBytes chunks)

/-- The head and the tail of a stream that is too long. -/
def capped (data : Bytes) : Bytes :=
  if data.length ≤ maxBytes then data
  else
    data.take (headLimit maxBytes) ++ marker maxBytes ++
      data.drop (data.length - tailLimit maxBytes)

end Writer

variable {maxBytes : Nat}

theorem tailLimit_le (maxBytes : Nat) : tailLimit maxBytes ≤ maxBytes := by
  unfold tailLimit
  omega

theorem headLimit_le (maxBytes : Nat) : headLimit maxBytes ≤ maxBytes := by
  unfold headLimit
  omega

/-- What the writer holds after it was given `data`. -/
structure Holds (maxBytes : Nat) (w : BoundedWriter) (data : Bytes) : Prop where
  written : w.written = w.handle.length
  whole : w.truncated = false → data.length ≤ maxBytes ∧ w.handle = data ∧ w.tail = []
  cut : w.truncated = true → maxBytes < data.length ∧
    w.handle = data.take (headLimit maxBytes) ∧
    w.tail = data.drop (data.length - tailLimit maxBytes)

theorem holds_open : Holds maxBytes open_ [] where
  written := rfl
  whole _ := ⟨Nat.zero_le _, rfl, rfl⟩
  cut h := absurd h Bool.false_ne_true

/-- The last `k` items after a list grew are found in its last `k` items and what it grew by. -/
theorem drop_tail_append {data more : Bytes} {k : Nat} (hk : k ≤ data.length) :
    let tail := data.drop (data.length - k) ++ more
    tail.drop (tail.length - k) = (data ++ more).drop ((data ++ more).length - k) := by
  simp only [List.length_append, List.length_drop, ← List.drop_append_of_le_length
    (show data.length - k ≤ data.length from Nat.sub_le _ _), List.drop_drop]
  congr 1
  omega

theorem retainTail_tail {w : BoundedWriter} {data more : Bytes}
    (hlimit : tailLimit maxBytes ≤ data.length)
    (hw : w.tail = data.drop (data.length - tailLimit maxBytes)) :
    (retainTail maxBytes w more).tail =
      (data ++ more).drop ((data ++ more).length - tailLimit maxBytes) := by
  unfold retainTail
  by_cases hmore : more = []
  · subst hmore
    rw [if_pos (Or.inl rfl), hw, List.append_nil]
  · by_cases hzero : tailLimit maxBytes = 0
    · rw [if_pos (Or.inr hzero), hw, hzero, Nat.sub_zero, Nat.sub_zero, List.drop_length,
        List.drop_length]
    · rw [if_neg (not_or.mpr ⟨hmore, hzero⟩)]
      simp only [hw]
      exact drop_tail_append hlimit

@[simp] theorem retainTail_handle (w : BoundedWriter) (data : Bytes) :
    (retainTail maxBytes w data).handle = w.handle := by
  unfold retainTail
  split <;> rfl

@[simp] theorem retainTail_written (w : BoundedWriter) (data : Bytes) :
    (retainTail maxBytes w data).written = w.written := by
  unfold retainTail
  split <;> rfl

@[simp] theorem retainTail_truncated (w : BoundedWriter) (data : Bytes) :
    (retainTail maxBytes w data).truncated = w.truncated := by
  unfold retainTail
  split <;> rfl

/-- The file is full and the stream goes on. -/
theorem startTruncation_holds {w : BoundedWriter} {data more : Bytes}
    (hwritten : w.written = w.handle.length) (hhandle : w.handle = data) (htail : w.tail = [])
    (hfull : data.length = maxBytes) (hmore : more ≠ []) :
    Holds maxBytes (startTruncation maxBytes w more) (data ++ more) := by
  have hlimit : tailLimit maxBytes ≤ data.length := hfull ▸ tailLimit_le maxBytes
  have hhead : headLimit maxBytes ≤ data.length := hfull ▸ headLimit_le maxBytes
  have hpos : 0 < more.length := List.length_pos_iff.mpr hmore
  constructor
  · simp only [startTruncation, retainTail_written, retainTail_handle, List.length_take, hhandle]
    omega
  · intro h
    simp [startTruncation] at h
  · intro _
    refine ⟨?_, ?_, ?_⟩
    · rw [List.length_append]
      omega
    · simp only [startTruncation, retainTail_handle, hhandle]
      rw [List.take_append_of_le_length hhead]
    · unfold startTruncation
      apply retainTail_tail hlimit
      simp only [htail, hwritten, hhandle, List.nil_append]
      split
      · rename_i hzero
        rw [hzero, Nat.sub_zero, List.drop_length]
      · rw [List.take_of_length_le]
        rw [List.length_drop]

/-- A chunk is added to what the writer holds. -/
theorem write_holds {w : BoundedWriter} {data : Bytes} (h : Holds maxBytes w data)
    (chunk : Bytes) : Holds maxBytes (write maxBytes w chunk) (data ++ chunk) := by
  unfold write
  by_cases hnil : chunk = []
  · rw [if_pos hnil, hnil, List.append_nil]
    exact h
  rw [if_neg hnil]
  cases htruncated : w.truncated with
  | true =>
    obtain ⟨hlong, hhandle, htail⟩ := h.cut htruncated
    have hhead : headLimit maxBytes ≤ data.length :=
      (headLimit_le maxBytes).trans (Nat.le_of_lt hlong)
    have hlimit : tailLimit maxBytes ≤ data.length :=
      (tailLimit_le maxBytes).trans (Nat.le_of_lt hlong)
    rw [if_pos rfl]
    constructor
    · rw [retainTail_written, retainTail_handle, h.written]
    · rw [retainTail_truncated, htruncated]
      exact fun habs => absurd habs.symm Bool.false_ne_true
    · intro _
      refine ⟨?_, ?_, retainTail_tail hlimit htail⟩
      · rw [List.length_append]
        omega
      · rw [retainTail_handle, hhandle, List.take_append_of_le_length hhead]
  | false =>
    obtain ⟨hfits, hhandle, htail⟩ := h.whole htruncated
    have hwritten : w.written = data.length := by rw [h.written, hhandle]
    rw [if_neg Bool.false_ne_true]
    by_cases hroom : chunk.length ≤ maxBytes - w.written
    · simp only [if_pos hroom]
      constructor
      · simp only [List.length_append, h.written]
      · intro _
        refine ⟨?_, ?_, htail⟩
        · rw [List.length_append]
          omega
        · simp only [hhandle]
      · intro habs
        exact absurd habs Bool.false_ne_true
    · simp only [if_neg hroom]
      have hsplit : data ++ chunk =
          data ++ chunk.take (maxBytes - w.written) ++ chunk.drop (maxBytes - w.written) := by
        rw [List.append_assoc, List.take_append_drop]
      rw [hsplit]
      apply startTruncation_holds
      · have hlength := h.written
        simp only [List.length_append, List.length_take]
        omega
      · simp only [hhandle]
      · exact htail
      · rw [List.length_append, List.length_take]
        omega
      · intro habs
        have hlen := congrArg List.length habs
        rw [List.length_drop, List.length_nil] at hlen
        omega

theorem foldl_write_holds (chunks : List Bytes) {w : BoundedWriter} {data : Bytes}
    (h : Holds maxBytes w data) :
    Holds maxBytes (chunks.foldl (write maxBytes) w) (data ++ chunks.flatten) := by
  induction chunks generalizing w data with
  | nil => simpa using h
  | cons chunk chunks ih =>
    rw [List.foldl_cons, List.flatten_cons, ← List.append_assoc]
    exact ih (write_holds h chunk)

/-- However a stream arrives, its log is the same. -/
theorem spool_eq (maxBytes : Nat) (chunks : List Bytes) :
    spool maxBytes chunks = capped maxBytes chunks.flatten := by
  have h : Holds maxBytes (pump maxBytes chunks) ([] ++ chunks.flatten) :=
    foldl_write_holds chunks holds_open
  rw [List.nil_append] at h
  unfold spool close capped
  cases htruncated : (pump maxBytes chunks).truncated with
  | true =>
    obtain ⟨hlong, hhandle, htail⟩ := h.cut htruncated
    rw [if_pos rfl, if_neg (Nat.not_le.mpr hlong), hhandle, htail, List.take_take, min_self]
  | false =>
    obtain ⟨hfits, hhandle, -⟩ := h.whole htruncated
    rw [if_neg Bool.false_ne_true, if_pos hfits, hhandle]

theorem capped_of_le {data : Bytes} (h : data.length ≤ maxBytes) : capped maxBytes data = data :=
  if_pos h

/-- The log of a stream that ends in a record short enough for the tail ends in that record. -/
theorem capped_append {data record : Bytes} (hlong : ¬ (data ++ record).length ≤ maxBytes)
    (h : record.length ≤ tailLimit maxBytes) :
    capped maxBytes (data ++ record) =
      (data ++ record).take (headLimit maxBytes) ++ marker maxBytes ++
        data.drop ((data ++ record).length - tailLimit maxBytes) ++ record := by
  have hle : (data ++ record).length - tailLimit maxBytes ≤ data.length := by
    rw [List.length_append]
    omega
  rw [capped, if_neg hlong, List.drop_append_of_le_length hle, List.append_assoc _ _ record]

theorem length_capped (maxBytes : Nat) (data : Bytes) :
    (capped maxBytes data).length = min data.length maxBytes := by
  have htail := tailLimit_le maxBytes
  have hmarker : (marker maxBytes).length ≤ maxBytes - tailLimit maxBytes := by
    rw [marker, List.length_take]
    omega
  unfold capped
  split
  · omega
  · simp only [List.length_append, List.length_take, List.length_drop, headLimit]
    omega

theorem length_capped_le (maxBytes : Nat) (data : Bytes) :
    (capped maxBytes data).length ≤ maxBytes :=
  (length_capped maxBytes data).trans_le (Nat.min_le_right _ _)

/-- What is left in the file depends on the stream alone, and uses up the cap once the stream is
longer than that. -/
theorem spool_of_stream (maxBytes : Nat) (chunks : List Bytes) :
    spool maxBytes chunks =
      (if chunks.flatten.length ≤ maxBytes then chunks.flatten
        else chunks.flatten.take (headLimit maxBytes) ++ marker maxBytes ++
          chunks.flatten.drop (chunks.flatten.length - tailLimit maxBytes)) ∧
    (spool maxBytes chunks).length = min chunks.flatten.length maxBytes := by
  rw [spool_eq]
  exact ⟨rfl, length_capped maxBytes chunks.flatten⟩

end Remrun.Spool
