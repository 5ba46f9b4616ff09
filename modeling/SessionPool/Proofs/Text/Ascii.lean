import SessionPool.Wire.Argument

/-!
# Text of one byte for each character

Where all characters of a text are below U+0080 its encoding has one byte for each of them.
-/

namespace SessionPool

theorem utf8EncodeChar_of_lt {c : Char} (h : c.toNat < 0x80) :
    String.utf8EncodeChar c = [UInt8.ofNat c.toNat] := by
  rw [String.utf8EncodeChar]
  exact if_pos (Nat.le_of_lt_succ h)

theorem encode_ofList (cs : List Char) :
    Utf8.encode (String.ofList cs) = cs.flatMap String.utf8EncodeChar := by
  rw [Utf8.encode, String.toUTF8, String.toByteArray_ofList, List.utf8Encode,
    List.toList_data_toByteArray]

theorem encode_ofList_of_lt {cs : List Char} (h : ∀ c ∈ cs, c.toNat < 0x80) :
    Utf8.encode (String.ofList cs) = asciiBytes cs := by
  rw [encode_ofList]
  induction cs with
  | nil => rfl
  | cons c cs ih =>
    rw [List.forall_mem_cons] at h
    rw [List.flatMap_cons, utf8EncodeChar_of_lt h.1, ih h.2]
    rfl

end SessionPool
