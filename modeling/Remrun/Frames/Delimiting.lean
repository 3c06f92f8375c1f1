import Remrun.Frames.Wire

/-!
# Frames delimit themselves

What one reader accepts is a frame: a header line whose two lengths are those of the two parts
after it. So a frame is never the beginning of a longer one, both readers accept the same texts,
and a stream of frames is read frame by frame.
-/

namespace Remrun.Frames
open JsonText

set_option autoImplicit false

universe u

/-! ## Numerals -/

theorem byte_digit {c : Char} (h : c.isDigit = true) :
    (UInt8.ofNat c.toNat).toNat = c.toNat ∧ 48 ≤ c.toNat ∧ c.toNat ≤ 57 := by
  obtain ⟨hlow, hhigh⟩ := Char.isDigit_iff_toNat.mp h
  refine ⟨?_, hlow, hhigh⟩
  rw [UInt8.toNat_ofNat']
  exact Nat.mod_eq_of_lt (Nat.lt_of_le_of_lt hhigh (by decide))

theorem decimal_digit {n : Nat} {b : UInt8} (h : b ∈ decimal n) : isDigit b = true := by
  obtain ⟨c, hc, rfl⟩ := List.mem_map.mp h
  obtain ⟨heq, hlow, hhigh⟩ := byte_digit (Nat.isDigit_of_mem_toDigits (by decide) (by decide) hc)
  rw [isDigit, heq, Bool.and_eq_true, decide_eq_true_eq, decide_eq_true_eq]
  exact ⟨hlow, hhigh⟩

theorem decimal_ne {n : Nat} {b : UInt8} (hb : isDigit b = false) : b ∉ decimal n := by
  intro h
  rw [decimal_digit h] at hb
  cases hb

theorem decimal_ne_nil (n : Nat) : decimal n ≠ [] := by
  rw [decimal, ne_eq, List.map_eq_nil_iff]
  exact Nat.toDigits_ne_nil

theorem length_decimal {n k : Nat} (hk : 0 < k) (hn : n < 10 ^ k) : (decimal n).length ≤ k := by
  rw [decimal, List.length_map]
  exact (Nat.length_toDigits_le_iff (by decide) hk).mpr hn

theorem digitsOf_digits {text : Bytes} (hne : text ≠ []) (h : ∀ b ∈ text, isDigit b = true) :
    digitsOf text = some text := by
  induction text with
  | nil => exact absurd rfl hne
  | cons b rest ih =>
    have hb := h b List.mem_cons_self
    cases rest with
    | nil => rw [digitsOf, if_pos hb]
    | cons c rest =>
      have hc : c ≠ underscore := by
        rintro rfl
        exact absurd (h _ (List.mem_cons_of_mem _ List.mem_cons_self)) (by decide)
      rw [digitsOf, if_pos hb, if_neg hc, ih nofun fun d hd => h d (List.mem_cons_of_mem _ hd)]
      rfl

theorem ofDigitChars_decimal (n : Nat) :
    Nat.ofDigitChars 10 ((decimal n).map fun b => Char.ofNat b.toNat) 0 = n := by
  have hsame : (Nat.toDigits 10 n).map ((fun b => Char.ofNat b.toNat) ∘
      fun c => UInt8.ofNat c.toNat) = (Nat.toDigits 10 n).map id := by
    apply List.map_congr_left
    intro c hc
    have heq := (byte_digit (Nat.isDigit_of_mem_toDigits (by decide) (by decide) hc)).1
    rw [Function.comp_apply, heq, Char.ofNat_toNat, id]
  rw [decimal, List.map_map, hsame, List.map_id, Nat.ofDigitChars_ten_toDigits]

theorem numeral_decimal (n : Nat) : numeral (decimal n) =
    if (decimal n).length > maxStrDigits then none else some n := by
  rw [numeral, digitsOf_digits (decimal_ne_nil n) fun b => decimal_digit]
  simp only [ofDigitChars_decimal]

theorem isSpace_digit {b : UInt8} (h : isDigit b = true) : isSpace b = false := by
  rw [isDigit, Bool.and_eq_true, decide_eq_true_eq, decide_eq_true_eq] at h
  have hne : b ≠ space := by
    rintro rfl
    exact absurd h.1 (by decide)
  have hbeyond : ¬ b.toNat ≤ 13 := by omega
  simp [isSpace, hne, hbeyond]

theorem strip_decimal (n : Nat) : ((decimal n).dropWhile isSpace).rdropWhile isSpace = decimal n := by
  have hall (b : UInt8) (hb : b ∈ decimal n) : ¬ isSpace b = true := by
    rw [isSpace_digit (decimal_digit hb)]
    exact Bool.false_ne_true
  have hleft : (decimal n).dropWhile isSpace = decimal n :=
    List.dropWhile_eq_self_iff.mpr fun _ => hall _ (List.getElem_mem _)
  rw [hleft]
  exact (List.rdropWhile_eq_self_iff ..).mpr fun hl => hall _ (List.getLast_mem hl)

theorem int_decimal_eq (n : Nat) :
    int (decimal n) = (numeral (decimal n)).map fun m => (m : Int) := by
  rw [int, strip_decimal]
  cases heq : decimal n with
  | nil => exact absurd heq (decimal_ne_nil n)
  | cons c rest =>
    have hc : isDigit c = true := decimal_digit (heq ▸ List.mem_cons_self)
    have hminus : c ≠ minus := by
      rintro rfl
      exact absurd hc (by decide)
    have hplus : c ≠ plus := by
      rintro rfl
      exact absurd hc (by decide)
    simp only
    rw [if_neg hminus, if_neg hplus]

theorem int_decimal {n : Nat} (hn : n < 10 ^ maxStrDigits) : int (decimal n) = some (n : Int) := by
  rw [int_decimal_eq, numeral_decimal, if_neg (Nat.not_lt.mpr (length_decimal (by decide) hn))]
  rfl

/-- A numeral that is read is read as the number it was written for. -/
theorem eq_of_int_decimal {n m : Nat} (h : int (decimal n) = some (m : Int)) : n = m := by
  rw [int_decimal_eq, numeral_decimal] at h
  split at h
  · cases h
  · simpa using h

/-! ## Texts -/

theorem decodeUtf8_utf8 (text : List Char) : decodeUtf8 (utf8 text) = some text := by
  have hencode : (utf8 text).toByteArray = text.utf8Encode := rfl
  rw [decodeUtf8, hencode, List.utf8Decode?_utf8Encode]
  rfl

theorem lookup_eq_some_iff {α : Type u} {members : List (String × α)} {key : String} {v : α}
    (h : (members.map Prod.fst).Nodup) : members.lookup key = some v ↔ (key, v) ∈ members := by
  induction members with
  | nil => exact ⟨nofun, nofun⟩
  | cons m rest ih =>
    obtain ⟨k, w⟩ := m
    rw [List.map_cons, List.nodup_cons] at h
    rw [List.lookup_cons, List.mem_cons, Prod.mk.injEq]
    by_cases hkey : key = k
    · subst hkey
      have hnot : (key, v) ∉ rest := fun hmem => h.1 (List.mem_map.mpr ⟨_, hmem, rfl⟩)
      simp only [beq_self_eq_true, Option.some.injEq, true_and]
      constructor
      · rintro rfl
        exact Or.inl rfl
      · rintro (rfl | hmem)
        · rfl
        · exact absurd hmem hnot
    · simp only [beq_eq_false_iff_ne.mpr hkey, ih h.2]
      exact ⟨Or.inr, fun hor => hor.resolve_left fun hboth => hkey hboth.1⟩

/-- Putting an object in key order changes nothing that is found in it. -/
theorem lookup_sorted {F : Type u} {members : Members F} (h : (members.map Prod.fst).Nodup)
    (key : String) : (sortMembers (sortedMembers members)).lookup key =
      (members.lookup key).map Value.sorted := by
  have hnodup : ((sortMembers (sortedMembers members)).map Prod.fst).Nodup := by
    apply nodup_sortMembers
    rw [sortedMembers_eq, List.map_map]
    exact h
  apply Option.ext
  intro v
  rw [lookup_eq_some_iff hnodup, mem_sortMembers, sortedMembers_eq, List.mem_map,
    Option.map_eq_some_iff]
  constructor
  · rintro ⟨m, hm, heq⟩
    obtain ⟨rfl, rfl⟩ := Prod.mk.inj heq
    exact ⟨m.2, (lookup_eq_some_iff h).mpr hm, rfl⟩
  · rintro ⟨w, hw, rfl⟩
    exact ⟨(key, w), (lookup_eq_some_iff h).mp hw, rfl⟩

section Frames
variable {F : Type u} {W : Wire F} {data : Bytes} {members : Members F} {body : Bytes}

/-! ## Header lines -/

theorem idxOf_newline {line : Bytes} (h : newline ∉ line) (rest : Bytes) :
    (line ++ newline :: rest).idxOf? newline = some line.length := by
  rw [List.idxOf?_eq_some_iff]
  refine ⟨by simp, by simp, fun j hj heq => h ?_⟩
  rw [List.getElem_append_left hj] at heq
  exact heq ▸ List.getElem_mem hj

theorem line_of_idxOf {nl : Nat} (h : data.idxOf? newline = some nl) :
    newline ∉ data.take nl ∧ data = data.take nl ++ newline :: data.drop (nl + 1) := by
  obtain ⟨hlt, hat, hbefore⟩ := List.idxOf?_eq_some_iff.mp h
  constructor
  · intro hmem
    obtain ⟨j, hj, heq⟩ := List.mem_iff_getElem.mp hmem
    rw [List.length_take] at hj
    rw [List.getElem_take] at heq
    exact hbefore j (by omega) heq
  · rw [← hat, List.getElem_cons_drop, List.take_append_drop]

/-- The two lengths of a header line. -/
def Lengths (line : Bytes) (headerLen bodyLen : Nat) : Prop :=
  ∃ first second, line.splitOn space = [MAGIC, first, second] ∧
    int first = some (headerLen : Int) ∧ int second = some (bodyLen : Int)

theorem Lengths.unique {line : Bytes} {m n m' n' : Nat} (h : Lengths line m n)
    (h' : Lengths line m' n') : m = m' ∧ n = n' := by
  obtain ⟨first, second, hsplit, hfirst, hsecond⟩ := h
  obtain ⟨first', second', hsplit', hfirst', hsecond'⟩ := h'
  rw [hsplit] at hsplit'
  simp only [List.cons.injEq, and_true, true_and] at hsplit'
  obtain ⟨rfl, rfl⟩ := hsplit'
  rw [hfirst, Option.some.injEq] at hfirst'
  rw [hsecond, Option.some.injEq] at hsecond'
  exact ⟨by omega, by omega⟩

/-- The line of a frame without its end. -/
def lineOf (headerLen bodyLen : Nat) : Bytes :=
  MAGIC ++ space :: (decimal headerLen ++ space :: decimal bodyLen)

theorem firstLine_eq (m n : Nat) : firstLine m n = lineOf m n ++ [newline] := by
  simp [firstLine, lineOf]

theorem splitOn_lineOf (m n : Nat) :
    (lineOf m n).splitOn space = [MAGIC, decimal m, decimal n] := by
  rw [lineOf, List.splitOn_append_cons_self_of_not_mem (by decide),
    List.splitOn_append_cons_self_of_not_mem (decimal_ne (by decide)),
    List.splitOn_eq_singleton (decimal_ne (by decide))]

theorem lengths_lineOf {m n : Nat} (hm : m < 10 ^ maxStrDigits) (hn : n < 10 ^ maxStrDigits) :
    Lengths (lineOf m n) m n :=
  ⟨decimal m, decimal n, splitOn_lineOf m n, int_decimal hm, int_decimal hn⟩

theorem newline_notMem_lineOf (m n : Nat) : newline ∉ lineOf m n := by
  simp only [lineOf, List.mem_append, List.mem_cons, not_or]
  exact ⟨by decide, by decide, decimal_ne (by decide), by decide, decimal_ne (by decide)⟩

/-! ## What is accepted -/

/-- The two parts of a frame carry a header and a body. -/
structure Carries (W : Wire F) (header b64 : Bytes) (members : Members F) (body : Bytes) :
    Prop where
  json : (decodeUtf8 header).bind (loads W.floats) = some (.obj members)
  base64 : Base64.decode b64 = some body
  length : equalsNat W body.length (members.lookup "decoded_length") = true
  digest : equalsText (W.sha256 body) (members.lookup "sha256") = true

/-- A header line with the lengths of the two parts after it. -/
inductive Framed (W : Wire F) (members : Members F) (body : Bytes) : Bytes → Prop where
  | frame (line header b64 : Bytes) (hline : newline ∉ line)
      (lengths : Lengths line header.length b64.length) (cap : header.length ≤ maxHeaderBytes)
      (carries : Carries W header b64 members body) :
      Framed W members body (line ++ newline :: (header ++ b64))

theorem decodePayload_ok_iff {header b64 : Bytes} :
    decodePayload W header b64 = .ok (members, body) ↔ Carries W header b64 members body := by
  constructor
  · intro h
    unfold decodePayload at h
    split at h
    · cases h
    · rename_i found hjson
      split at h
      · cases h
      · rename_i decoded hbase64
        split at h
        · cases h
        · rename_i hlength
          split at h
          · cases h
          · rename_i hdigest
            cases h
            exact ⟨hjson, hbase64, by simpa using hlength, by simpa using hdigest⟩
    · cases h
  · rintro ⟨hjson, hbase64, hlength, hdigest⟩
    simp only [decodePayload, hjson, hbase64, hlength, hdigest, Bool.not_true,
      Bool.false_eq_true, if_false]

theorem decodeFrame_ok_iff : decodeFrame W data = .ok (members, body) ↔
    Framed W members body data := by
  constructor
  · intro h
    unfold decodeFrame at h
    split at h
    · cases h
    · rename_i nl hnl
      obtain ⟨hline, hdata⟩ := line_of_idxOf hnl
      split at h
      · rename_i magic first second hsplit
        split at h
        · cases h
        · rename_i hmagic
          split at h
          · rename_i headerLen bodyLen hfirst hsecond
            simp only at h
            split at h
            · cases h
            split at h
            · cases h
            split at h
            · cases h
            · rename_i hneg hcap hsize
              rw [not_or, not_lt, not_lt] at hneg
              obtain ⟨m, rfl⟩ := Int.eq_ofNat_of_zero_le hneg.1
              obtain ⟨n, rfl⟩ := Int.eq_ofNat_of_zero_le hneg.2
              rw [not_not] at hsize hmagic
              rw [Int.toNat_natCast] at h
              have hheader : ((data.drop (nl + 1)).take m).length = m := by
                rw [List.length_take]
                omega
              have hbody : ((data.drop (nl + 1)).drop m).length = n := by
                rw [List.length_drop]
                omega
              have hlengths : Lengths (data.take nl) ((data.drop (nl + 1)).take m).length
                  ((data.drop (nl + 1)).drop m).length := by
                rw [hheader, hbody]
                exact ⟨first, second, hmagic ▸ hsplit, hfirst, hsecond⟩
              have hframed := Framed.frame _ _ _ hline hlengths (by omega)
                (decodePayload_ok_iff.mp h)
              rwa [List.take_append_drop, ← hdata] at hframed
          · cases h
      · cases h
  · rintro ⟨line, header, b64, hline, ⟨first, second, hsplit, hfirst, hsecond⟩, hcap, hcarries⟩
    have hrest : (line ++ newline :: (header ++ b64)).drop (line.length + 1) = header ++ b64 := by
      rw [← List.drop_drop, List.drop_left, List.drop_one, List.tail_cons]
    simp only [decodeFrame, idxOf_newline hline, List.take_left, hsplit, hfirst, hsecond, hrest,
      Int.toNat_natCast, List.take_left, List.drop_left]
    rw [if_neg (by simp), if_neg (by omega), if_neg (by omega), if_neg (by simp)]
    exact decodePayload_ok_iff.mpr hcarries

/-- The beginning of a frame is no frame. -/
theorem Framed.extends {members' : Members F} {body' suffix : Bytes}
    (h : Framed W members body data) (h' : Framed W members' body' (data ++ suffix)) :
    suffix = [] := by
  obtain ⟨line, header, b64, hline, hlengths, -, -⟩ := h
  generalize hwhole : line ++ newline :: (header ++ b64) ++ suffix = whole at h'
  obtain ⟨line', header', b64', hline', hlengths', -, -⟩ := h'
  rw [List.append_assoc, List.cons_append] at hwhole
  have hat := congrArg (List.idxOf? newline) hwhole
  rw [idxOf_newline hline, idxOf_newline hline', Option.some.injEq] at hat
  obtain ⟨rfl, hrest⟩ := List.append_inj hwhole hat
  obtain ⟨hheader, hbody⟩ := hlengths.unique hlengths'
  have hlen := congrArg List.length (List.cons.inj hrest).2
  simp only [List.length_append] at hlen
  exact List.length_eq_zero_iff.mp (by omega)

/-! ## The two readers -/

theorem decodePayload_agree (header b64 : Bytes) :
    (Runner.decodePayload W header b64).toOption = (decodePayload W header b64).toOption := by
  unfold Runner.decodePayload decodePayload
  cases (decodeUtf8 header).bind (loads W.floats) with
  | none => rfl
  | some value =>
    cases hbody : Base64.decode b64 with
    | none => cases value <;> rfl
    | some body =>
      cases value with
      | obj members =>
        simp only
        split
        · rfl
        · split <;> rfl
      | _ => rfl

theorem magic_agree : Runner.FRAME_MAGIC = MAGIC := rfl

theorem cap_agree : Runner.MAX_HEADER_BYTES = maxHeaderBytes := rfl

/-- The runner reads the same frames as the controller. -/
theorem decodeFrame_agree (data : Bytes) :
    (Runner.decodeFrame W data).toOption = (decodeFrame W data).toOption := by
  unfold Runner.decodeFrame decodeFrame
  rw [magic_agree, cap_agree]
  cases data.idxOf? newline with
  | none => rfl
  | some nl =>
    simp only
    split
    · rename_i magic first second _
      by_cases hmagic : magic = MAGIC
      · rw [if_neg (not_not.mpr hmagic), if_neg (not_not.mpr hmagic)]
        cases int first with
        | none => rfl
        | some headerLen =>
          cases int second with
          | none => rfl
          | some bodyLen =>
            simp only
            by_cases hneg : headerLen < 0 ∨ bodyLen < 0
            · rw [if_pos hneg, if_pos (hneg.elim Or.inl fun h => Or.inr (Or.inl h))]
              rfl
            by_cases hcap : headerLen > maxHeaderBytes
            · rw [if_neg hneg, if_pos hcap, if_pos (Or.inr (Or.inr hcap))]
              rfl
            · rw [if_neg hneg, if_neg hcap, if_neg (by omega)]
              split
              · rfl
              · exact decodePayload_agree _ _
      · rw [if_pos hmagic, if_pos hmagic]
        rfl
    · rfl

theorem toOption_eq_some {ε : Type} {α : Type u} {x : Except ε α} {a : α} :
    x.toOption = some a ↔ x = .ok a := by
  cases x with
  | error e => exact ⟨nofun, nofun⟩
  | ok b =>
    rw [Except.toOption, Option.some.injEq, Except.ok.injEq]

theorem runner_ok_iff : Runner.decodeFrame W data = .ok (members, body) ↔
    decodeFrame W data = .ok (members, body) := by
  rw [← toOption_eq_some, decodeFrame_agree, toOption_eq_some]

theorem encodeFrame_agree (header : Header F) (body : Bytes) :
    Runner.encodeFrame W header body = encodeFrame W header body := rfl

/-! ## What is written is read back -/

/-- The header with its two own members, in key order: a dictionary compares equal to it
whatever the order of its keys. -/
def decoded (W : Wire F) (header : Header F) (body : Bytes) : Members F :=
  sortMembers (sortedMembers (packed W header body).rows)

theorem packed_get (header : Header F) (body : Bytes) (key : String) :
    (packed W header body).get key =
      if key = "sha256" then some (.str (W.sha256 body))
      else if key = "decoded_length" then some (.int body.length)
      else header.members.get key := by
  rw [packed, Keyed.Dict.get_set, Keyed.Dict.get_set]
  rfl

theorem packed_proper (header : Header F) (body : Bytes) :
    (Value.obj (packed W header body).rows).Proper := by
  refine .obj _ (packed W header body).nodup fun m hm => ?_
  have hget : (packed W header body).get m.1 = some m.2 := Keyed.Dict.get_eq_some.mpr ⟨m.1, hm, rfl⟩
  rw [packed_get] at hget
  split at hget
  · exact Option.some.inj hget ▸ .str _
  · split at hget
    · exact Option.some.inj hget ▸ .int _
    · obtain ⟨key, hmem, -⟩ := Keyed.Dict.get_eq_some.mp hget
      exact header.proper (key, m.2) hmem

/-- Under every key is what the writer put there. -/
theorem decoded_lookup (header : Header F) (body : Bytes) (key : String) :
    (decoded W header body).lookup key = ((packed W header body).get key).map Value.sorted := by
  have hnodup : ((packed W header body).rows.map Prod.fst).Nodup := (packed W header body).nodup
  have hget : (packed W header body).rows.lookup key = (packed W header body).get key := by
    apply Option.ext
    intro v
    rw [lookup_eq_some_iff hnodup, Keyed.Dict.get_eq_some]
    constructor
    · intro hmem
      exact ⟨key, hmem, rfl⟩
    · rintro ⟨_, hmem, rfl⟩
      exact hmem
  rw [decoded, lookup_sorted hnodup, hget]

theorem carries_encoded (hT : W.floats.Faithful) (header : Header F) (body : Bytes) :
    Carries W (headerBytes W header body) (Base64.encode body) (decoded W header body) body where
  json := by
    rw [headerBytes, decodeUtf8_utf8, Option.bind_some,
      loads_dumps hT (packed_proper header body)]
    rfl
  base64 := Base64.decode_encode body
  length := by
    rw [decoded_lookup, packed_get]
    simp [Value.sorted, equalsNat]
  digest := by
    rw [decoded_lookup, packed_get]
    simp [Value.sorted, equalsText]

theorem length_base64 (body : Body) : (Base64.encode body.bytes).length < 10 ^ maxStrDigits := by
  have hfits := body.fits
  have hlen := Base64.length_encode body.bytes
  have hbound : (Base64.encode body.bytes).length < 10 ^ 20 := by
    rw [maxsize] at hfits
    omega
  exact Nat.lt_of_lt_of_le hbound (Nat.pow_le_pow_right (by decide) (by decide))

theorem cap_digits {n : Nat} (h : n ≤ maxHeaderBytes) : n < 10 ^ maxStrDigits := by
  have hbound : n < 10 ^ 20 := Nat.lt_of_le_of_lt h (by decide)
  exact Nat.lt_of_lt_of_le hbound (Nat.pow_le_pow_right (by decide) (by decide))

theorem encodeFrame_eq (header : Header F) (body : Bytes) :
    encodeFrame W header body =
      lineOf (headerBytes W header body).length (Base64.encode body).length ++
        newline :: (headerBytes W header body ++ Base64.encode body) := by
  simp [encodeFrame, firstLine_eq]

/-- What is written is read at all only with a header within the bound. -/
theorem cap_of_framed {header : Header F} (h : Framed W members body data) {framed : Bytes}
    (hdata : data = encodeFrame W header framed) :
    (headerBytes W header framed).length ≤ maxHeaderBytes := by
  obtain ⟨line, header', b64, hline, ⟨first, second, hsplit, hfirst, hsecond⟩, hcap, -⟩ := h
  rw [encodeFrame_eq] at hdata
  have hat := congrArg (List.idxOf? newline) hdata
  rw [idxOf_newline hline, idxOf_newline (newline_notMem_lineOf _ _), Option.some.injEq] at hat
  obtain ⟨rfl, -⟩ := List.append_inj hdata hat
  rw [splitOn_lineOf] at hsplit
  simp only [List.cons.injEq, and_true, true_and] at hsplit
  obtain ⟨rfl, rfl⟩ := hsplit
  rw [eq_of_int_decimal hfirst]
  exact hcap

theorem framed_encoded (hT : W.floats.Faithful) (header : Header F) (body : Body)
    (hcap : (headerBytes W header body.bytes).length ≤ maxHeaderBytes) :
    Framed W (decoded W header body.bytes) body.bytes (encodeFrame W header body.bytes) := by
  rw [encodeFrame_eq]
  exact .frame _ _ _ (newline_notMem_lineOf _ _)
    (lengths_lineOf (cap_digits hcap) (length_base64 body)) hcap (carries_encoded hT header body.bytes)

end Frames

/-! ## Streams -/

namespace Runner

/-- However the reads are cut, the bytes asked for are the next ones. -/
theorem readFdStreamExact_ok (stream : Stream) (n : Nat) (h : n ≤ stream.bytes.length) :
    ∃ stream', readFdStreamExact stream n = .ok (stream.bytes.take n, stream') ∧
      stream'.bytes = stream.bytes.drop n := by
  induction n using Nat.strongRecOn generalizing stream with
  | ind n ih =>
    unfold readFdStreamExact
    rcases Nat.eq_zero_or_pos n with rfl | hpos
    · exact ⟨stream, rfl, rfl⟩
    · obtain ⟨k, hk, hkn, hread⟩ : ∃ k, 0 < k ∧ k ≤ n ∧ stream.read n =
          (stream.bytes.take k, { stream with
            bytes := stream.bytes.drop k, reads := stream.reads + 1 }) :=
        ⟨min n (max 1 (stream.grants stream.reads)), by omega, by omega, rfl⟩
      have hlen : (stream.bytes.take k).length = k := by
        rw [List.length_take]
        omega
      have hchunk : stream.bytes.take k ≠ [] := by
        rw [← List.length_pos_iff]
        omega
      obtain ⟨stream', hrest, hbytes⟩ := ih (n - k) (by omega)
        { stream with bytes := stream.bytes.drop k, reads := stream.reads + 1 }
        (by rw [List.length_drop]; omega)
      refine ⟨stream', ?_, ?_⟩
      · simp only [hread, hlen, if_neg (Nat.ne_of_gt hpos), if_neg hchunk, hrest]
        rw [← List.take_add, Nat.add_sub_cancel' hkn]
      · rw [hbytes, List.drop_drop, Nat.add_sub_cancel' hkn]

theorem readline_line {stream : Stream} {line rest : Bytes} {limit : Nat} (hline : newline ∉ line)
    (hlimit : line.length < limit) (h : stream.bytes = line ++ newline :: rest) :
    stream.readline limit = (line ++ [newline], { stream with bytes := rest }) := by
  have hcut : stream.bytes.take limit = line ++ newline :: rest.take (limit - line.length - 1) := by
    obtain ⟨k, rfl⟩ : ∃ k, limit = line.length + (k + 1) := ⟨limit - line.length - 1, by omega⟩
    rw [h, List.take_append, List.take_of_length_le (by omega), Nat.add_sub_cancel_left,
      List.take_succ_cons, Nat.add_sub_cancel]
  have hwhole : stream.bytes = (line ++ [newline]) ++ rest := by
    rw [h, List.append_assoc, List.singleton_append]
  have hlen : line.length + 1 = (line ++ [newline]).length := by
    rw [List.length_append, List.length_singleton]
  simp only [Stream.readline, hcut, idxOf_newline hline]
  rw [hlen, hwhole, List.take_left, List.drop_left]

section Reading
variable {F : Type u} {W : Wire F} {members : Members F} {body : Bytes}

theorem readFrameFromStream_frame {stream : Stream} {line header b64 rest : Bytes}
    (hline : newline ∉ line) (hshort : line.length < 255)
    (hlengths : Lengths line header.length b64.length) (hcap : header.length ≤ maxHeaderBytes)
    (hbound : b64.length ≤ 268435456) (hcarries : Carries W header b64 members body)
    (h : stream.bytes = line ++ newline :: (header ++ b64) ++ rest) :
    ∃ stream', readFrameFromStream W stream =
      .ok ((members, body, line ++ newline :: (header ++ b64)), stream') ∧
        stream'.bytes = rest := by
  have hline' : stream.readline 256 =
      (line ++ [newline], { stream with bytes := header ++ b64 ++ rest }) := by
    apply readline_line hline (by omega)
    rw [h, List.append_assoc, List.cons_append]
  obtain ⟨first, second, hsplit, hfirst, hsecond⟩ := hlengths
  obtain ⟨stream', hread, hrest⟩ := readFdStreamExact_ok
    { stream with bytes := header ++ b64 ++ rest } (header.length + b64.length)
    (by simp)
  rw [← List.length_append, List.take_left] at hread
  rw [← List.length_append, List.drop_left] at hrest
  have hdecode : decodeFrame W (line ++ [newline] ++ (header ++ b64)) = .ok (members, body) := by
    rw [runner_ok_iff, decodeFrame_ok_iff, List.append_assoc, List.singleton_append]
    exact .frame _ _ _ hline ⟨first, second, hsplit, hfirst, hsecond⟩ hcap hcarries
  refine ⟨stream', ?_, hrest⟩
  have hsum : ((header.length : Int) + b64.length).toNat = (header ++ b64).length := by
    rw [List.length_append]
    omega
  rw [maxHeaderBytes] at hcap
  simp only [readFrameFromStream, hline', List.dropLast_concat, hsplit, hfirst, hsecond, hsum, hread,
    hdecode, magic_agree]
  rw [if_neg (by simp; omega), if_neg (by simp), if_neg (by omega), List.append_assoc,
    List.singleton_append]

/-- What is put on a stream. -/
structure Parcel (F : Type u) where
  header : Header F
  body : Body

variable (W) in
def Parcel.frame (p : Parcel F) : Bytes := encodeFrame W p.header p.body.bytes

variable (W) in
/-- Both parts keep to the reader's bounds. -/
def Parcel.Bounded (p : Parcel F) : Prop :=
  (headerBytes W p.header p.body.bytes).length ≤ 1048576 ∧
    (Base64.encode p.body.bytes).length ≤ 268435456

theorem readFrameFromStream_parcel (hT : W.floats.Faithful) {p : Parcel F} (hp : p.Bounded W)
    {stream : Stream} {rest : Bytes} (h : stream.bytes = p.frame W ++ rest) :
    ∃ stream', readFrameFromStream W stream =
      .ok ((decoded W p.header p.body.bytes, p.body.bytes, p.frame W), stream') ∧
        stream'.bytes = rest := by
  obtain ⟨hheader, hbody⟩ := hp
  have hlong : ∀ n ≤ 268435456, (decimal n).length ≤ 10 := fun n hn =>
    length_decimal (by decide) (by omega)
  have hfirst := hlong _ (Nat.le_trans hheader (by decide))
  have hsecond := hlong _ hbody
  rw [Parcel.frame, encodeFrame_agree, encodeFrame_eq] at h ⊢
  refine readFrameFromStream_frame (newline_notMem_lineOf _ _) ?_
    (lengths_lineOf (cap_digits hheader) (length_base64 p.body)) hheader hbody
    (carries_encoded hT p.header p.body.bytes) h
  have hmagic : MAGIC.length = 8 := rfl
  simp only [lineOf, List.length_append, List.length_cons]
  omega

/-- A stream of frames is read frame by frame, and what follows them stays on the stream. -/
theorem readFrames_parcels (hT : W.floats.Faithful) (parcels : List (Parcel F))
    (hparcels : ∀ p ∈ parcels, p.Bounded W) (stream : Stream) (rest : Bytes)
    (h : stream.bytes = parcels.flatMap (Parcel.frame W) ++ rest) :
    ∃ stream', readFrames W parcels.length stream =
      .ok (parcels.map fun p => (decoded W p.header p.body.bytes, p.body.bytes, p.frame W),
        stream') ∧ stream'.bytes = rest := by
  induction parcels generalizing stream with
  | nil => exact ⟨stream, rfl, h⟩
  | cons p parcels ih =>
    rw [List.flatMap_cons, List.append_assoc] at h
    obtain ⟨stream', hfirst, hbytes⟩ :=
      readFrameFromStream_parcel hT (hparcels p List.mem_cons_self) h
    obtain ⟨stream'', hothers, hrest⟩ :=
      ih (fun q hq => hparcels q (List.mem_cons_of_mem _ hq)) stream' hbytes
    refine ⟨stream'', ?_, hrest⟩
    simp only [List.length_cons, readFrames, hfirst, hothers, List.map_cons]

end Reading

end Runner

section Code
variable {F : Type u}

/-- The frames are a code that says itself where it ends, the same for both readers. -/
structure SelfDelimiting (W : Wire F) : Prop where
  roundTrip (header : Header F) (body : Body) :
    (headerBytes W header body.bytes).length ≤ maxHeaderBytes →
      decodeFrame W (encodeFrame W header body.bytes) =
        .ok (decoded W header body.bytes, body.bytes)
  extended (header : Header F) (body : Body) (key : String) :
    (decoded W header body.bytes).lookup key =
      ((if key = "sha256" then some (.str (W.sha256 body.bytes))
        else if key = "decoded_length" then some (.int body.bytes.length)
        else header.members.get key).map Value.sorted)
  delimited (data suffix : Bytes) (frame frame' : Members F × Bytes) :
    decodeFrame W data = .ok frame → decodeFrame W (data ++ suffix) = .ok frame' → suffix = []
  sameWriter (header : Header F) (body : Bytes) :
    Runner.encodeFrame W header body = encodeFrame W header body
  sameReader (data : Bytes) (frame : Members F × Bytes) :
    Runner.decodeFrame W data = .ok frame ↔ decodeFrame W data = .ok frame
  streamed (parcels : List (Runner.Parcel F)) (stream : Runner.Stream) (rest : Bytes) :
    (∀ p ∈ parcels, p.Bounded W) → stream.bytes = parcels.flatMap (Runner.Parcel.frame W) ++ rest →
      ∃ stream', Runner.readFrames W parcels.length stream =
        .ok (parcels.map fun p => (decoded W p.header p.body.bytes, p.body.bytes, p.frame W),
          stream') ∧ stream'.bytes = rest

/-- The one float is NaN, and the one body is empty. -/
def nanWire : Wire Unit where
  floats := ⟨fun _ => nanName, fun _ => ()⟩
  floatIs _ _ := false
  sha256 _ := "e3b0c44298fc1c149afbf4c8996fb92427ae41e4649b934ca495991b7852b855"

/-- The header of a frame that says nothing else. -/
def noMembers : Header Unit := ⟨.empty, nofun⟩

end Code

end Remrun.Frames
