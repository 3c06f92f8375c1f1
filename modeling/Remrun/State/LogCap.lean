import Remrun.Lib.JsonReader
import Remrun.Lib.Utf8Slices

/-!
# Capped logs

`cap_text` keeps the head and the tail of a log around a marker that says how many bytes are left
out. The marker's length depends on the number it prints and the number on the marker's length;
four rounds are always enough for the two to agree.
-/

namespace Remrun.LogCap

set_option autoImplicit false

open JsonReader (Text text)
open Utf8 (Scalar encode encodeReplace decodeIgnore repair)

/-- The decimal digits of a number. -/
def decimal (n : Nat) : Text := (Nat.toDigits 10 n).map Char.toNat

def fullMarker (omitted : Nat) : Text :=
  text "\n...[remrun truncated " ++ decimal omitted ++ text " bytes of log output]...\n"

def shortMarker : Text := text "...[remrun truncated]..."

/-- The bytes kept of the head and of the tail beside a marker. -/
def headBytes (maxBytes : Nat) (marker : Text) : Nat := (maxBytes - marker.length) / 2

def tailBytes (maxBytes : Nat) (marker : Text) : Nat :=
  maxBytes - marker.length - headBytes maxBytes marker

/-- The marker that says what is left out beside the marker given. -/
def updated (size maxBytes : Nat) (marker : Text) : Text :=
  fullMarker (size - headBytes maxBytes marker - tailBytes maxBytes marker)

/-- The loop, which ends early when the marker does not change. -/
def rounds (size maxBytes : Nat) : Nat → Text → Text
  | 0, marker => marker
  | n + 1, marker =>
    if updated size maxBytes marker = marker then marker
    else rounds size maxBytes n (updated size maxBytes marker)

/-- The marker after the loop. -/
def marker (size maxBytes : Nat) : Text := rounds size maxBytes 4 []

/-- `cap_text`, with no cap where `max_bytes` is 0. -/
def capText (log : Text) (maxBytes : Nat) : Text :=
  if maxBytes = 0 then log
  else
    let data := encodeReplace log
    if data.length ≤ maxBytes then log
    else
      let found := marker data.length maxBytes
      if maxBytes < found.length then shortMarker.take maxBytes
      else
        let head := decodeIgnore (data.take (headBytes maxBytes found))
        let tail := if tailBytes maxBytes found = 0 then []
          else decodeIgnore (data.drop (data.length - tailBytes maxBytes found))
        head ++ found ++ tail

/-! ## The loop -/

def width (n : Nat) : Nat := (Nat.toDigits 10 n).length

theorem width_le_iff {n k : Nat} (hk : 0 < k) : width n ≤ k ↔ n < 10 ^ k :=
  Nat.length_toDigits_le_iff (by decide) hk

theorem width_pos (n : Nat) : 0 < width n := Nat.length_toDigits_pos

theorem width_mono {m n : Nat} (h : m ≤ n) : width m ≤ width n :=
  (width_le_iff (width_pos n)).mpr (h.trans_lt ((width_le_iff (width_pos n)).mp le_rfl))

theorem length_fullMarker (n : Nat) : (fullMarker n).length = 47 + width n := by
  have hleft : (text "\n...[remrun truncated ").length = 22 := rfl
  have hright : (text " bytes of log output]...\n").length = 25 := rfl
  rw [fullMarker, List.length_append, List.length_append, hleft, hright, decimal, List.length_map,
    width]
  omega

/-- What is left out beside a marker of the length given. -/
def omitted (size maxBytes length : Nat) : Nat := size - (maxBytes - length)

theorem updated_eq (size maxBytes : Nat) (marker : Text) :
    updated size maxBytes marker = fullMarker (omitted size maxBytes marker.length) := by
  rw [updated, omitted, tailBytes, headBytes]
  congr 1
  omega

theorem omitted_mono {size maxBytes m n : Nat} (h : m ≤ n) :
    omitted size maxBytes m ≤ omitted size maxBytes n := by
  unfold omitted
  omega

/-- A wider number leaves room for all that can still be added to it. -/
theorem pow_succ_bound {w : Nat} (hw : 0 < w) : 10 ^ w + 48 + w ≤ 10 ^ (w + 1) := by
  have hpow : 10 * w ≤ 10 ^ w := by
    induction w, hw using Nat.le_induction with
    | base => decide
    | succ k hk ih =>
      rw [pow_succ]
      omega
  rw [pow_succ]
  omega

variable {size maxBytes : Nat}

/-- The numbers of the second and the third round are equally wide. -/
theorem width_settles (hsize : maxBytes < size) :
    let first := width (omitted size maxBytes 0)
    let second := width (omitted size maxBytes (47 + first))
    width (omitted size maxBytes (47 + second)) = second := by
  intro first second
  have hfirst : omitted size maxBytes 0 < 10 ^ first :=
    (width_le_iff (width_pos _)).mp le_rfl
  have hmono : first ≤ second := width_mono (omitted_mono (Nat.zero_le _))
  have hpow : 10 ^ first + 48 + first ≤ 10 ^ (first + 1) := pow_succ_bound (width_pos _)
  rcases hmono.eq_or_lt with heq | hlt
  · rw [← heq]
    exact heq.symm
  · have hsecond : second ≤ first + 1 := by
      apply (width_le_iff (Nat.succ_pos _)).mpr
      unfold omitted at hfirst ⊢
      omega
    have hthird : width (omitted size maxBytes (47 + second)) ≤ first + 1 := by
      apply (width_le_iff (Nat.succ_pos _)).mpr
      unfold omitted at hfirst ⊢
      omega
    have hback : second ≤ width (omitted size maxBytes (47 + second)) :=
      width_mono (omitted_mono (by omega))
    omega

/-- After the rounds the marker says what is left out beside it. -/
theorem marker_settles (hsize : maxBytes < size) :
    updated size maxBytes (marker size maxBytes) = marker size maxBytes := by
  have hone : updated size maxBytes [] = fullMarker (omitted size maxBytes 0) := updated_eq _ _ _
  have htwo : updated size maxBytes (updated size maxBytes []) =
      fullMarker (omitted size maxBytes (47 + width (omitted size maxBytes 0))) := by
    rw [updated_eq, hone, length_fullMarker]
  have hthree := width_settles hsize
  simp only at hthree
  have hfour : updated size maxBytes (updated size maxBytes (updated size maxBytes
      (updated size maxBytes []))) = updated size maxBytes (updated size maxBytes
        (updated size maxBytes [])) := by
    rw [updated_eq size maxBytes (updated size maxBytes (updated size maxBytes _)),
      updated_eq size maxBytes (updated size maxBytes _), length_fullMarker, htwo,
      length_fullMarker, hthree]
  rw [marker, rounds]
  split
  · assumption
  rw [rounds]
  split
  · assumption
  rw [rounds]
  split
  · assumption
  rw [rounds, if_pos hfour]
  exact hfour

theorem marker_eq (hsize : maxBytes < size) :
    marker size maxBytes = fullMarker (omitted size maxBytes (marker size maxBytes).length) := by
  rw [← updated_eq, marker_settles hsize]

/-! ## The capped text -/

theorem ascii_fullMarker (n : Nat) : ∀ c ∈ fullMarker n, c < 0x80 := by
  intro c hc
  simp only [fullMarker, List.mem_append, decimal, List.mem_map] at hc
  rcases hc with (hleft | ⟨d, hd, rfl⟩) | hright
  · revert hleft c
    decide
  · have hdigit := Nat.isDigit_of_mem_toDigits (by decide) (by decide) hd
    exact (Char.isDigit_iff_toNat.mp hdigit).2.trans_lt (by decide)
  · revert hright c
    decide

theorem ascii_shortMarker : ∀ c ∈ shortMarker, c < 0x80 := by decide

theorem encodeReplace_scalars {log : Text} (h : ∀ c ∈ log, Scalar c) :
    encodeReplace log = encode log := by rw [encodeReplace, Utf8.repair_eq h]

/-- The head in whole code points. -/
theorem head_spec (log : Text) (n : Nat) : ∃ k,
    decodeIgnore ((encodeReplace log).take n) = (repair log).take k ∧
      (encode ((repair log).take k)).length ≤ n :=
  Utf8.decodeIgnore_take Utf8.scalar_repair n

/-- The tail in whole code points. -/
theorem tail_spec (log : Text) (n : Nat) : ∃ k,
    (if n = 0 then []
      else decodeIgnore ((encodeReplace log).drop ((encodeReplace log).length - n))) =
      (repair log).drop k ∧ (encode ((repair log).drop k)).length ≤ n := by
  split
  · exact ⟨(repair log).length, by simp, by simp [encode]⟩
  · obtain ⟨k, hk, hlength⟩ := Utf8.decodeIgnore_drop (@Utf8.scalar_repair log)
      ((encodeReplace log).length - n)
    refine ⟨k, hk, hlength.trans ?_⟩
    rw [encodeReplace]
    omega

theorem headBytes_add_tailBytes (maxBytes : Nat) (marker : Text) :
    headBytes maxBytes marker + tailBytes maxBytes marker = maxBytes - marker.length := by
  unfold tailBytes headBytes
  omega

/-- A log that is too long, with a marker that fits. -/
theorem capText_of_fits {log : Text} (hmax : 0 < maxBytes)
    (hsize : maxBytes < (encodeReplace log).length)
    (hfits : (marker (encodeReplace log).length maxBytes).length ≤ maxBytes) :
    capText log maxBytes =
      decodeIgnore ((encodeReplace log).take
        (headBytes maxBytes (marker (encodeReplace log).length maxBytes))) ++
      marker (encodeReplace log).length maxBytes ++
      if tailBytes maxBytes (marker (encodeReplace log).length maxBytes) = 0 then []
      else decodeIgnore ((encodeReplace log).drop ((encodeReplace log).length -
        tailBytes maxBytes (marker (encodeReplace log).length maxBytes))) := by
  rw [capText, if_neg hmax.ne']
  simp only [if_neg (Nat.not_le.mpr hsize), if_neg (Nat.not_lt.mpr hfits)]

theorem capText_of_long {log : Text} (hmax : 0 < maxBytes)
    (hsize : maxBytes < (encodeReplace log).length)
    (hlong : maxBytes < (marker (encodeReplace log).length maxBytes).length) :
    capText log maxBytes = shortMarker.take maxBytes := by
  rw [capText, if_neg hmax.ne']
  simp only [if_neg (Nat.not_le.mpr hsize), if_pos hlong]

theorem capText_of_short {log : Text} (hsize : (encodeReplace log).length ≤ maxBytes) :
    capText log maxBytes = log := by
  rw [capText]
  split
  · rfl
  · simp only [if_pos hsize]

/-- What a capped log is made of: a prefix, a marker and a suffix of the repaired log. -/
structure Parts (log : Text) (maxBytes : Nat) (result : Text) : Prop where
  parts : ∃ before found after, result = before ++ found ++ after ∧ before <+: repair log ∧
    after <:+ repair log ∧ (found = marker (encodeReplace log).length maxBytes ∨
      before = [] ∧ after = [] ∧ found = shortMarker.take maxBytes)
  size : (encodeReplace result).length ≤ maxBytes

theorem capText_parts {log : Text} (hmax : 0 < maxBytes)
    (hsize : maxBytes < (encodeReplace log).length) :
    Parts log maxBytes (capText log maxBytes) := by
  by_cases hfits : (marker (encodeReplace log).length maxBytes).length ≤ maxBytes
  · obtain ⟨k, hhead, hk⟩ := head_spec log
      (headBytes maxBytes (marker (encodeReplace log).length maxBytes))
    obtain ⟨m, htail, hm⟩ := tail_spec log
      (tailBytes maxBytes (marker (encodeReplace log).length maxBytes))
    have hbytes := headBytes_add_tailBytes maxBytes (marker (encodeReplace log).length maxBytes)
    have hascii : ∀ c ∈ marker (encodeReplace log).length maxBytes, c < 0x80 := by
      rw [marker_eq hsize]
      exact ascii_fullMarker _
    rw [capText_of_fits hmax hsize hfits, hhead, htail]
    refine ⟨⟨_, _, _, rfl, List.take_prefix _ _, List.drop_suffix _ _, Or.inl rfl⟩, ?_⟩
    have hscalar : ∀ c ∈ (repair log).take k ++ marker (encodeReplace log).length maxBytes ++
        (repair log).drop m, Scalar c := by
      intro c hc
      rcases List.mem_append.mp hc with hc | hc
      · rcases List.mem_append.mp hc with hc | hc
        · exact Utf8.scalar_repair c (List.mem_of_mem_take hc)
        · exact Utf8.scalar_of_ascii (hascii c hc)
      · exact Utf8.scalar_repair c (List.mem_of_mem_drop hc)
    rw [encodeReplace_scalars hscalar, Utf8.encode_append, Utf8.encode_append,
      Utf8.encode_ascii hascii, List.length_append, List.length_append]
    omega
  · rw [capText_of_long hmax hsize (Nat.lt_of_not_le hfits)]
    have hascii : ∀ c ∈ shortMarker.take maxBytes, c < 0x80 := fun c hc =>
      ascii_shortMarker c (List.mem_of_mem_take hc)
    refine ⟨⟨[], _, [], (List.append_nil _).symm, List.nil_prefix, List.nil_suffix,
      Or.inr ⟨rfl, rfl, rfl⟩⟩, ?_⟩
    rw [encodeReplace_scalars fun c hc => Utf8.scalar_of_ascii (hascii c hc),
      Utf8.encode_ascii hascii, List.length_take]
    exact Nat.min_le_left _ _

/-- A capped ASCII log, where the full marker fits: the number says how many bytes are left out,
and the cap is used up. -/
theorem capText_ascii {log : Text} (hascii : ∀ c ∈ log, c < 0x80) (hmax : 0 < maxBytes)
    (hsize : maxBytes < log.length) (hfits : (marker log.length maxBytes).length ≤ maxBytes) :
    ∃ head omitted tail, capText log maxBytes =
      log.take head ++ fullMarker omitted ++ log.drop (log.length - tail) ∧
      head + omitted + tail = log.length ∧
      head + (fullMarker omitted).length + tail = maxBytes := by
  have hdata : encodeReplace log = log := by
    rw [encodeReplace_scalars fun c hc => Utf8.scalar_of_ascii (hascii c hc),
      Utf8.encode_ascii hascii]
  have hbytes := headBytes_add_tailBytes maxBytes (marker log.length maxBytes)
  have hmarker := marker_eq hsize
  refine ⟨headBytes maxBytes (marker log.length maxBytes),
    omitted log.length maxBytes (marker log.length maxBytes).length,
    tailBytes maxBytes (marker log.length maxBytes), ?_, ?_, ?_⟩
  · rw [capText_of_fits hmax (hdata.symm ▸ hsize) (by rwa [hdata]), hdata, ← hmarker,
      Utf8.decodeIgnore_ascii fun c hc => hascii c (List.mem_of_mem_take hc)]
    congr 1
    split
    · rename_i hzero
      rw [hzero, Nat.sub_zero, List.drop_length]
    · exact Utf8.decodeIgnore_ascii fun c hc => hascii c (List.mem_of_mem_drop hc)
  · unfold omitted
    omega
  · rw [← hmarker]
    omega

/-- The result is within the cap. A log that is too long keeps a prefix and a suffix in whole code
points, with surrogates replaced; the rounds always settle; and for ASCII the number that is
printed is the number of bytes left out. -/
structure Tight (log : Text) (maxBytes : Nat) : Prop where
  bounded : (encodeReplace (capText log maxBytes)).length ≤ maxBytes
  whole : (encodeReplace log).length ≤ maxBytes → capText log maxBytes = log
  parts : maxBytes < (encodeReplace log).length → ∃ before found after,
    capText log maxBytes = before ++ found ++ after ∧ before <+: repair log ∧
    after <:+ repair log ∧ ((∃ n, found = fullMarker n) ∨ found = shortMarker.take maxBytes)
  settled : maxBytes < (encodeReplace log).length →
    updated (encodeReplace log).length maxBytes (marker (encodeReplace log).length maxBytes) =
      marker (encodeReplace log).length maxBytes
  exact : (∀ c ∈ log, c < 0x80) → maxBytes < log.length →
    (marker log.length maxBytes).length ≤ maxBytes → ∃ head omitted tail,
      capText log maxBytes = log.take head ++ fullMarker omitted ++ log.drop (log.length - tail) ∧
      head + omitted + tail = log.length ∧ head + (fullMarker omitted).length + tail = maxBytes

theorem capText_tight (log : Text) (maxBytes : Nat) (hmax : 0 < maxBytes) : Tight log maxBytes where
  bounded := by
    by_cases hsize : (encodeReplace log).length ≤ maxBytes
    · rwa [capText_of_short hsize]
    · exact (capText_parts hmax (Nat.lt_of_not_le hsize)).size
  whole := capText_of_short
  parts hsize := by
    obtain ⟨before, found, after, heq, hbefore, hafter, hfound⟩ := (capText_parts hmax hsize).parts
    refine ⟨before, found, after, heq, hbefore, hafter, ?_⟩
    rcases hfound with hfull | ⟨-, -, hshort⟩
    · exact Or.inl ⟨_, hfull.trans (marker_eq hsize)⟩
    · exact Or.inr hshort
  settled := marker_settles
  exact hascii hsize hfits := capText_ascii hascii hmax hsize hfits

/-- A log of 100 letters under a cap of 60. -/
theorem capText_tight_letters : 0 < 60 ∧ Tight (List.replicate 100 97) 60 :=
  ⟨by decide, capText_tight (List.replicate 100 97) 60 (by decide)⟩

/-- Lone surrogates, as a decoder that escapes undecodable bytes leaves them. -/
def surrogates : Text := List.replicate 300 0xD800

/-- The head of a log of surrogates is no prefix of it: it has question marks in their place. -/
theorem surrogates_replaced : ¬ ∃ before found after,
    capText surrogates 200 = before ++ found ++ after ∧ before <+: surrogates ∧
    after <:+ surrogates ∧ ((∃ n, found = fullMarker n) ∨ found = shortMarker.take 200) := by
  rintro ⟨before, found, after, heq, hbefore, -, hfound⟩
  have hhead : (capText surrogates 200).head? = some 0x3F := by decide +kernel
  rw [heq] at hhead
  rcases before with _ | ⟨c, before⟩
  · rcases hfound with ⟨n, rfl⟩ | rfl
    · exact absurd (Option.some.inj hhead) (by decide)
    · exact absurd (Option.some.inj hhead) (by decide)
  · obtain rfl : c = 0x3F := Option.some.inj hhead
    have hmem : 0x3F ∈ surrogates := hbefore.subset List.mem_cons_self
    exact absurd (List.eq_of_mem_replicate hmem) (by decide)

end Remrun.LogCap
