import SessionPool.Proofs.Text.Ascii
import SessionPool.Proofs.Text.Trim
import SessionPool.Proofs.Wire.Integer
import SessionPool.Wire.Reply

/-!
# Integers in payloads

A server may give an integer as data. Such a payload is valid UTF-8, a numeral of 64 bits with any
blanks around it, and nothing else counts as an integer. So an integer that a command sends reads
back from a payload, unless it takes more than 64 bits with their sign.
-/

namespace SessionPool

namespace Utf8

theorem strict?_eq_some {data : Bytes} {s : String} : strict? data = some s ↔ encode s = data := by
  constructor
  · intro h
    rw [strict?, String.fromUTF8?] at h
    split at h
    · next hvalid =>
      rw [← Option.some.inj h]
      rfl
    · cases h
  · rintro rfl
    have hbytes : (⟨(encode s).toArray⟩ : ByteArray) = s.toByteArray := by
      rw [encode, String.toUTF8, Array.toArray_toList]
    rw [strict?, hbytes, String.fromUTF8?, dif_pos s.isValidUTF8]
    rfl

end Utf8

namespace Numeral

variable {c : Char} {cs : List Char} {i : Int}

theorem sign_or_digit (h : integer? cs = some i) :
    ∀ c ∈ cs, c = '-' ∨ c = '+' ∨ c.isDigit = true := by
  have hdigits : ∀ {ds : List Char} {n : Nat}, digits? ds = some n → ∀ c ∈ ds, c.isDigit = true :=
    fun hn => (digits?_eq_some.1 hn).1.2
  by_cases hm : cs.head? = some '-'
  · obtain ⟨ds, rfl⟩ := List.head?_eq_some_iff.1 hm
    rw [Wire.integer?_minus] at h
    obtain ⟨n, hn, -⟩ := Option.map_eq_some_iff.1 h
    exact List.forall_mem_cons.2 ⟨.inl rfl, fun c hc => .inr (.inr (hdigits hn c hc))⟩
  by_cases hp : cs.head? = some '+'
  · obtain ⟨ds, rfl⟩ := List.head?_eq_some_iff.1 hp
    rw [Wire.integer?_plus] at h
    obtain ⟨n, hn, -⟩ := Option.map_eq_some_iff.1 h
    exact List.forall_mem_cons.2 ⟨.inr (.inl rfl), fun c hc => .inr (.inr (hdigits hn c hc))⟩
  · rw [Wire.integer?_unsigned hm hp] at h
    obtain ⟨n, hn, -⟩ := Option.map_eq_some_iff.1 h
    exact fun c hc => .inr (.inr (hdigits hn c hc))

theorem toNat_lt_of_integer? (h : integer? cs = some i) : ∀ c ∈ cs, c.toNat < 0x80 := by
  intro c hc
  obtain rfl | rfl | hd := sign_or_digit h c hc
  · decide
  · decide
  · exact (Char.isDigit_iff_toNat.1 hd).2.trans_lt (by decide)

theorem isBlank_of_integer? (h : integer? cs = some i) : ∀ c ∈ cs, Text.isBlank c = false := by
  intro c hc
  obtain rfl | rfl | hd := sign_or_digit h c hc
  · decide
  · decide
  · exact Text.isBlank_of_isDigit hd

theorem integer?_ofInt (i : Int) : integer? (ofInt i) = some i := by
  cases i with
  | ofNat n =>
    have hhead : ∀ {c : Char}, c.isDigit = false → (ofNat n).head? ≠ some c := by
      intro c hc h
      rw [isDigit_of_mem_ofNat (List.mem_of_head? h)] at hc
      cases hc
    rw [ofInt, Wire.integer?_unsigned (hhead rfl) (hhead rfl), digits?_ofNat]
    rfl
  | negSucc n =>
    rw [ofInt, Wire.integer?_minus, digits?_ofNat]
    rfl

theorem int64?_ofInt (i : Int) : int64? (ofInt i) = if fitsSigned 64 i then some i else none := by
  rw [int64?, integer?_ofInt, Option.filter_some]

end Numeral

def Argument.integer? : Argument → Option Int
  | int8 n => some n.toInt
  | int16 n => some n.toInt
  | int32 n => some n.toInt
  | int64 n => some n.toInt
  | uint8 n => some n.toNat
  | uint16 n => some n.toNat
  | uint32 n => some n.toNat
  | uint64 n => some n.toNat
  | _ => none

theorem Argument.payload_of_integer? {a : Argument} {i : Int} (h : a.integer? = some i) :
    a.payload = asciiBytes (Numeral.ofInt i) := by
  cases a <;> cases h <;> rfl

namespace Wire

variable {data : Bytes} {front back cs : List Char} {i : Int}

def padded (front : List Char) (data : Bytes) (back : List Char) : Bytes :=
  Utf8.encode (String.ofList front) ++ data ++ Utf8.encode (String.ofList back)

/-- The data spells an integer of 64 bits, apart from blanks around it. -/
def HoldsInt64 (data : Bytes) (i : Int) : Prop :=
  ∃ front numeral back, Text.Blank front ∧ Text.Blank back ∧ SpellsInt64 numeral i ∧
    data = padded front numeral back

theorem asciiBytes_chars (bs : Bytes) : asciiBytes (bs.map char) = bs := by
  rw [asciiBytes, List.map_map]
  refine List.map_id'' (fun b => ?_) bs
  rw [Function.comp_apply, char_toNat, UInt8.ofNat_toNat]

theorem chars_asciiBytes (h : ∀ c ∈ cs, c.toNat < 0x80) : (asciiBytes cs).map char = cs := by
  rw [asciiBytes, List.map_map]
  refine (List.map_congr_left fun c hc => ?_).trans (List.map_id cs)
  have hlt := h c hc
  rw [Function.comp_apply, char, UInt8.toNat_ofNat_of_lt' (by change c.toNat < 256; omega)]
  exact Char.ofNat_toNat c

theorem encode_padded (front back : List Char) (h : ∀ c ∈ cs, c.toNat < 0x80) :
    Utf8.encode (String.ofList (front ++ cs ++ back)) = padded front (asciiBytes cs) back := by
  rw [padded, ← encode_ofList_of_lt h]
  simp only [encode_ofList, List.flatMap_append]

theorem payloadInt?_padded (hfront : Text.Blank front) (hback : Text.Blank back)
    (h : Numeral.integer? cs = some i) :
    Reply.payloadInt? (padded front (asciiBytes cs) back) = Numeral.int64? cs := by
  have hread := Utf8.strict?_eq_some.2 (encode_padded front back (Numeral.toNat_lt_of_integer? h))
  simp only [Reply.payloadInt?, hread, String.toList_ofList]
  rw [Text.trim_pad hfront hback, Text.trim_of_not_blank (Numeral.isBlank_of_integer? h)]

theorem payloadInt?_eq_some : Reply.payloadInt? data = some i ↔ HoldsInt64 data i := by
  constructor
  · intro h
    rw [Reply.payloadInt?] at h
    split at h
    · next s hs =>
      obtain ⟨front, back, hfront, hback, hsplit⟩ := Text.exists_trim s.toList
      have hint := (Option.filter_eq_some_iff.1 h).1
      have hlt := Numeral.toNat_lt_of_integer? hint
      refine ⟨front, asciiBytes (Text.trim s.toList), back, hfront, hback, ?_, ?_⟩
      · rw [← int64?_chars, chars_asciiBytes hlt]
        exact h
      · rw [← encode_padded front back hlt, ← hsplit, String.ofList_toList]
        exact (Utf8.strict?_eq_some.1 hs).symm
    · cases h
  · rintro ⟨front, numeral, back, hfront, hback, hspells, rfl⟩
    have hpad := payloadInt?_padded hfront hback (integer?_chars.2 hspells.spells)
    rw [asciiBytes_chars] at hpad
    rw [hpad]
    exact int64?_chars.2 hspells

/-- A payload is read as an integer exactly if it spells one, and what an integer argument sends
reads back as its number, or not at all where the number is too great. -/
theorem integers_read_back :
    (∀ data i, (Reply.status data).int? = some i ↔ HoldsInt64 data i) ∧
    (∀ data i, (Reply.bulk (some data)).int? = some i ↔ HoldsInt64 data i) ∧
    ∀ (a : Argument) (i : Int), a.integer? = some i →
      ∀ front back, Text.Blank front → Text.Blank back →
        let data := padded front a.payload back
        (-2 ^ 63 ≤ i ∧ i < 2 ^ 63 →
          (Reply.status data).int? = some i ∧ (Reply.bulk (some data)).int? = some i) ∧
        (2 ^ 63 ≤ i → (Reply.status data).int? = none ∧ (Reply.bulk (some data)).int? = none) := by
  refine ⟨fun data i => payloadInt?_eq_some, fun data i => payloadInt?_eq_some, ?_⟩
  intro a i ha front back hfront hback data
  have hread : Reply.payloadInt? data = if Numeral.fitsSigned 64 i then some i else none := by
    rw [← Numeral.int64?_ofInt, ← payloadInt?_padded hfront hback (Numeral.integer?_ofInt i),
      ← Argument.payload_of_integer? ha]
  have hfits : Numeral.fitsSigned 64 i = true ↔ -2 ^ 63 ≤ i ∧ i < 2 ^ 63 := by
    rw [Numeral.fitsSigned, Bool.and_eq_true, decide_eq_true_eq, decide_eq_true_eq]
    rfl
  constructor
  · intro hi
    rw [if_pos (hfits.2 hi)] at hread
    exact ⟨hread, hread⟩
  · intro hover
    rw [if_neg fun h => absurd (hfits.1 h).2 (not_lt.2 hover)] at hread
    exact ⟨hread, hread⟩

theorem integers_read_back_extremes :
    let least := padded ['\u2003', '\n'] (Argument.int64 Int64.minValue).payload ['\u00a0']
    let beyond := padded [] (Argument.uint64 0x8000000000000000).payload ['\u3000']
    (Reply.bulk (some least)).int? = some (-2 ^ 63) ∧ (Reply.status beyond).int? = none := by
  have hmin : (Argument.int64 Int64.minValue).integer? = some (-2 ^ 63) :=
    congrArg some (by decide : Int64.minValue.toInt = -2 ^ 63)
  have hover : (Argument.uint64 0x8000000000000000).integer? = some (2 ^ 63) := rfl
  have hleast :=
    (integers_read_back.2.2 _ _ hmin ['\u2003', '\n'] ['\u00a0'] (by decide) (by decide)).1
  have hgreat := (integers_read_back.2.2 _ _ hover [] ['\u3000'] (by decide) (by decide)).2
  exact ⟨(hleast ⟨by decide, by decide⟩).2, (hgreat (by decide)).1⟩

end Wire

end SessionPool
