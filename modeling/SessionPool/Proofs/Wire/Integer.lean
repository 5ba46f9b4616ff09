import Mathlib.Data.Nat.Digits.Defs
import SessionPool.Proofs.Text.Numeral
import SessionPool.Wire.Decode

/-!
# Integers on the wire

What an integer of 64 bits may look like in a line: an optional sign and one or more ASCII digits,
leading zeros allowed, whose value fits.
-/

namespace SessionPool.Wire

def IsDigit (b : UInt8) : Prop := 0x30 ≤ b ∧ b ≤ 0x39

def decimal (ds : Bytes) : Nat := Nat.ofDigits 10 (ds.reverse.map fun b => b.toNat - 0x30)

inductive Spells : Bytes → Int → Prop
  | unsigned {ds : Bytes} (hne : ds ≠ []) (hd : ∀ b ∈ ds, IsDigit b) : Spells ds (decimal ds)
  | plus {ds : Bytes} (hne : ds ≠ []) (hd : ∀ b ∈ ds, IsDigit b) : Spells (0x2B :: ds) (decimal ds)
  | minus {ds : Bytes} (hne : ds ≠ []) (hd : ∀ b ∈ ds, IsDigit b) :
    Spells (0x2D :: ds) (-(decimal ds : Int))

/-- The bytes spell an integer of 64 bits. -/
structure SpellsInt64 (bs : Bytes) (i : Int) : Prop where
  spells : Spells bs i
  lower : -2 ^ 63 ≤ i
  upper : i < 2 ^ 63

def char (b : UInt8) : Char := Char.ofNat b.toNat

theorem char_toNat (b : UInt8) : (char b).toNat = b.toNat := by
  have hb := b.toNat_lt
  have hvalid : b.toNat.isValidChar := .inl (by omega)
  rw [char, Char.ofNat, dif_pos hvalid]
  rfl

theorem char_injective : Function.Injective char := by
  intro b c h
  rw [← UInt8.toNat_inj, ← char_toNat, h, char_toNat]

theorem minus_char : char 0x2D = '-' := rfl

theorem plus_char : char 0x2B = '+' := rfl

theorem isDigit_char {b : UInt8} : (char b).isDigit = true ↔ IsDigit b := by
  rw [Char.isDigit_iff_toNat, char_toNat, IsDigit, UInt8.le_iff_toNat_le, UInt8.le_iff_toNat_le]
  rfl

theorem decimal_cons (b : UInt8) (ds : Bytes) :
    decimal (b :: ds) = (b.toNat - 0x30) * 10 ^ ds.length + decimal ds := by
  rw [decimal, decimal, List.reverse_cons, List.map_append, Nat.ofDigits_append, List.length_map,
    List.length_reverse, List.map_singleton, Nat.ofDigits_singleton]
  ring

theorem ofDigitChars_chars (ds : Bytes) (n : Nat) :
    Nat.ofDigitChars 10 (ds.map char) n = n * 10 ^ ds.length + decimal ds := by
  induction ds generalizing n with
  | nil => simp [decimal]
  | cons b ds ih =>
    have hzero : '0'.toNat = 0x30 := rfl
    rw [List.map_cons, Nat.ofDigitChars_cons, char_toNat, hzero, ih, decimal_cons, List.length_cons]
    ring

theorem digits?_chars {n : Nat} {ds : Bytes} :
    Numeral.digits? (ds.map char) = some n ↔
      (ds ≠ [] ∧ ∀ b ∈ ds, IsDigit b) ∧ n = decimal ds := by
  rw [Numeral.digits?_eq_some, List.forall_mem_map, ofDigitChars_chars, Nat.zero_mul, Nat.zero_add,
    Ne, List.map_eq_nil_iff]
  simp only [isDigit_char, ne_eq]

theorem head?_chars_ne {bs : Bytes} {b : UInt8} (h : bs.head? ≠ some b) :
    (bs.map char).head? ≠ some (char b) := by
  rw [List.head?_map]
  intro hb
  obtain ⟨c, hc, hcb⟩ := Option.map_eq_some_iff.1 hb
  rw [char_injective hcb] at hc
  exact h hc

theorem head?_digits_ne {ds : Bytes} (hd : ∀ b ∈ ds, IsDigit b) {b : UInt8} (hb : ¬IsDigit b) :
    ds.head? ≠ some b := fun h => hb (hd b (List.mem_of_head? h))

theorem integer?_minus (cs : List Char) :
    Numeral.integer? ('-' :: cs) = (Numeral.digits? cs).map fun n : Nat => -Int.ofNat n := by
  rw [Numeral.integer?]
  cases Numeral.digits? cs <;> rfl

theorem integer?_plus (cs : List Char) :
    Numeral.integer? ('+' :: cs) = (Numeral.digits? cs).map Int.ofNat := rfl

theorem integer?_unsigned {cs : List Char} (hm : cs.head? ≠ some '-') (hp : cs.head? ≠ some '+') :
    Numeral.integer? cs = (Numeral.digits? cs).map Int.ofNat := by
  have hnatural : Numeral.natural? cs = Numeral.digits? cs := by
    unfold Numeral.natural?
    split
    · exact absurd rfl hp
    · rfl
  unfold Numeral.integer?
  split
  · exact absurd rfl hm
  · rw [hnatural]

theorem integer?_chars {bs : Bytes} {i : Int} :
    Numeral.integer? (bs.map char) = some i ↔ Spells bs i := by
  constructor
  · intro h
    by_cases hm : bs.head? = some 0x2D
    · obtain ⟨ds, rfl⟩ := List.head?_eq_some_iff.1 hm
      rw [List.map_cons, minus_char, integer?_minus] at h
      obtain ⟨n, hn, rfl⟩ := Option.map_eq_some_iff.1 h
      obtain ⟨⟨hne, hd⟩, rfl⟩ := digits?_chars.1 hn
      exact .minus hne hd
    by_cases hp : bs.head? = some 0x2B
    · obtain ⟨ds, rfl⟩ := List.head?_eq_some_iff.1 hp
      rw [List.map_cons, plus_char, integer?_plus] at h
      obtain ⟨n, hn, rfl⟩ := Option.map_eq_some_iff.1 h
      obtain ⟨⟨hne, hd⟩, rfl⟩ := digits?_chars.1 hn
      exact .plus hne hd
    · rw [integer?_unsigned (head?_chars_ne hm) (head?_chars_ne hp)] at h
      obtain ⟨n, hn, rfl⟩ := Option.map_eq_some_iff.1 h
      obtain ⟨⟨hne, hd⟩, rfl⟩ := digits?_chars.1 hn
      exact .unsigned hne hd
  · intro h
    cases h with
    | unsigned hne hd =>
      have hm := head?_chars_ne (head?_digits_ne hd (b := 0x2D) (by unfold IsDigit; decide))
      have hp := head?_chars_ne (head?_digits_ne hd (b := 0x2B) (by unfold IsDigit; decide))
      rw [integer?_unsigned hm hp, digits?_chars.2 ⟨⟨hne, hd⟩, rfl⟩]
      rfl
    | plus hne hd =>
      rw [List.map_cons, plus_char, integer?_plus, digits?_chars.2 ⟨⟨hne, hd⟩, rfl⟩]
      rfl
    | minus hne hd =>
      rw [List.map_cons, minus_char, integer?_minus, digits?_chars.2 ⟨⟨hne, hd⟩, rfl⟩]
      rfl

theorem int64?_chars {bs : Bytes} {i : Int} :
    Numeral.int64? (bs.map char) = some i ↔ SpellsInt64 bs i := by
  rw [Numeral.int64?, Option.filter_eq_some_iff, integer?_chars, Numeral.fitsSigned,
    Bool.and_eq_true, decide_eq_true_eq, decide_eq_true_eq]
  exact ⟨fun h => ⟨h.1, h.2.1, h.2.2⟩, fun h => ⟨h.spells, h.lower, h.upper⟩⟩

theorem announcedInteger_eq_ok {bs : Bytes} {i : Int} :
    Reply.announcedInteger bs = .ok i ↔ SpellsInt64 bs i := by
  have hread : Reply.announcedInteger bs = .ok i ↔ Numeral.int64? (bs.map char) = some i := by
    unfold Reply.announcedInteger
    split
    · next n hn =>
      change Numeral.int64? (bs.map char) = some n at hn
      rw [hn, Except.ok.injEq, Option.some_inj]
    · next hn =>
      change Numeral.int64? (bs.map char) = none at hn
      rw [hn]
      exact ⟨nofun, nofun⟩
  exact hread.trans int64?_chars

theorem announcedLength_eq_ok {bs : Bytes} (n? : Option Nat) :
    Reply.announcedLength bs = .ok n? ↔ SpellsInt64 bs ((n?.map Int.ofNat).getD (-1)) := by
  rw [← announcedInteger_eq_ok, Reply.announcedLength]
  cases Reply.announcedInteger bs with
  | error v => exact ⟨nofun, nofun⟩
  | ok i =>
    rcases i with n | _ | n
    · cases n? <;> simp
    · cases n? with
      | none => exact ⟨fun _ => rfl, fun _ => rfl⟩
      | some m => exact ⟨nofun, nofun⟩
    · cases n? with
      | none => exact ⟨nofun, nofun⟩
      | some m => exact ⟨nofun, nofun⟩

end SessionPool.Wire
