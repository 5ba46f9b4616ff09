import SessionPool.Json.Reader
import SessionPool.Proofs.Text.Numeral

/-!
# The texts of a JSON value

A value has one sequence of tokens and many texts: gaps may stand between tokens, and each character
of a string may be written in several ways. Every text of a value is cut into the tokens of the
value.
-/

namespace SessionPool.Json

/-! ## The grammar -/

inductive Hex : Char → Nat → Prop
  | lower {d : Nat} (h : d < 16) : Hex (Nat.digitChar d) d
  | upper {d : Nat} (h : d < 16) : Hex (Nat.digitChar d).toUpper d

inductive Escape : List Char → Nat → Prop
  | digits {a b c d : Char} {i j k l : Nat} (ha : Hex a i) (hb : Hex b j) (hc : Hex c k)
      (hd : Hex d l) : Escape ['\\', 'u', a, b, c, d] (((i * 16 + j) * 16 + k) * 16 + l)

inductive Written : Char → List Char → Prop
  | plain {c : Char} (hquote : c ≠ '"') (hslash : c ≠ '\\') (hc : 0x20 ≤ c.toNat) : Written c [c]
  | short {letter c : Char} (h : (letter, c) ∈ ('/', '/') :: shortEscapes) :
    Written c ['\\', letter]
  | escape {c : Char} {cs : List Char} (h : Escape cs c.toNat) : Written c cs
  | halves {c : Char} {high low : List Char} (h : 0x10000 ≤ c.toNat)
      (hh : Escape high (0xD800 + (c.toNat - 0x10000) / 0x400))
      (hl : Escape low (0xDC00 + (c.toNat - 0x10000) % 0x400)) : Written c (high ++ low)

inductive WrittenText : List Char → List Char → Prop
  | nil : WrittenText [] []
  | cons {c : Char} {text cs ds : List Char} (hc : Written c cs) (ht : WrittenText text ds) :
      WrittenText (c :: text) (cs ++ ds)

namespace Token

inductive Mark : Token → Char → Prop
  | openArray : Mark openArray '['
  | closeArray : Mark closeArray ']'
  | openObject : Mark openObject '\x7b'
  | closeObject : Mark closeObject '\x7d'
  | comma : Mark comma ','
  | colon : Mark colon ':'

inductive Word : Json → List Char → Prop
  | null : Word .null ['n', 'u', 'l', 'l']
  | true : Word (.bool Bool.true) ['t', 'r', 'u', 'e']
  | false : Word (.bool Bool.false) ['f', 'a', 'l', 's', 'e']

inductive Spelled : Token → List Char → Prop
  | mark {t : Token} {c : Char} (h : Mark t c) : Spelled t [c]
  | word {v : Json} {cs : List Char} (h : Word v cs) : Spelled (scalar v) cs
  | string {s : String} {body : List Char} (h : WrittenText s.toList body) :
      Spelled (string (some s)) ('"' :: (body ++ ['"']))
  | integer (i : Int) : Spelled (scalar (.integer i)) (Numeral.ofInt i)
  | negativeZero : Spelled (scalar (.real ['-', '0'])) ['-', '0']

def isNumber : Token → Bool
  | scalar (.integer _) | scalar (.real _) => true
  | _ => false

/-- No number goes on with these characters. -/
def Ends (rest : List Char) : Prop :=
  ∀ c ∈ rest.head?, isDigit c = false ∧ c ≠ '.' ∧ c ≠ 'e' ∧ c ≠ 'E'

def Gap (cs : List Char) : Prop := ∀ c ∈ cs, isSpace c = true

/-- Tokens one after the other with gaps around them. -/
inductive Spaced : List Token → List Char → Prop
  | done {gap : List Char} (hg : Gap gap) : Spaced [] gap
  | next {t : Token} {ts : List Token} {gap cs rest : List Char} (hg : Gap gap) (ht : t.Spelled cs)
      (he : t.isNumber = true → Ends rest) (hr : Spaced ts rest) :
      Spaced (t :: ts) (gap ++ (cs ++ rest))

end Token

open Token

mutual
def tokens : Json → List Token
  | null => [.scalar null]
  | bool b => [.scalar (bool b)]
  | integer i => [.scalar (integer i)]
  | real written => [.scalar (real written)]
  | string text => [.string text]
  | array items => openArray :: (itemTokens items ++ [closeArray])
  | object members => openObject :: (memberTokens members ++ [closeObject])

def itemTokens : List Json → List Token
  | [] => []
  | [v] => tokens v
  | v :: vs => tokens v ++ comma :: itemTokens vs

def memberTokens : List (JsonText × Json) → List Token
  | [] => []
  | [(name, v)] => .string name :: colon :: tokens v
  | (name, v) :: ms => .string name :: colon :: (tokens v ++ comma :: memberTokens ms)
end

/-- The text is one of the texts of the value. -/
def Spells (v : Json) (s : String) : Prop := Spaced (tokens v) s.toList

/-! ## String literals -/

namespace Token

variable {c : Char} {n : Nat} {acc : List Nat} {cs rest : List Char}

theorem hexDigit?_digitChar : ∀ d < 16, hexDigit? (Nat.digitChar d) = some d ∧
    hexDigit? (Nat.digitChar d).toUpper = some d := by
  decide

theorem hexDigit?_of_hex (h : Hex c n) : hexDigit? c = some n := by
  cases h with
  | lower hd => exact (hexDigit?_digitChar n hd).1
  | upper hd => exact (hexDigit?_digitChar n hd).2

theorem literal?_escape (h : Escape cs n) (acc : List Nat) (rest : List Char) :
    literal? acc (cs ++ rest) = literal? (n :: acc) rest := by
  cases h with
  | digits ha hb hc hd =>
    rw [List.cons_append, literal?.eq_def]
    simp only [List.cons_append, List.nil_append, unit?, hexDigit?_of_hex ha, hexDigit?_of_hex hb,
      hexDigit?_of_hex hc, hexDigit?_of_hex hd, if_true]
    exact if_neg (by decide)

theorem literal?_plain (hquote : c ≠ '"') (hslash : c ≠ '\\') (hc : 0x20 ≤ c.toNat)
    (acc : List Nat) (rest : List Char) :
    literal? acc (c :: rest) = literal? (c.toNat :: acc) rest := by
  rw [literal?.eq_def]
  simp only [if_neg hquote, if_neg hslash, if_neg (Nat.not_lt.2 hc)]

theorem literal?_short {letter : Char} (h : (letter, c) ∈ ('/', '/') :: shortEscapes)
    (acc : List Nat) (rest : List Char) :
    literal? acc ('\\' :: letter :: rest) = literal? (c.toNat :: acc) rest := by
  simp only [shortEscapes, List.mem_cons, Prod.mk.injEq, List.not_mem_nil, or_false] at h
  rcases h with ⟨rfl, rfl⟩ | ⟨rfl, rfl⟩ | ⟨rfl, rfl⟩ | ⟨rfl, rfl⟩ | ⟨rfl, rfl⟩ | ⟨rfl, rfl⟩ |
    ⟨rfl, rfl⟩ | ⟨rfl, rfl⟩ <;> rfl

def Codes (c : Char) (ns : List Nat) : Prop :=
  ∀ acc rest, joinHalves acc (ns ++ rest) = joinHalves (c :: acc) rest

theorem codes_toNat (c : Char) : Codes c [c.toNat] := by
  intro acc rest
  -- No character has the number of a half.
  have hvalid : c.toNat < 0xD800 ∨ 0xDFFF < c.toNat ∧ c.toNat < 0x110000 := c.valid
  have hhigh : isHighHalf c.toNat = false := by
    rw [isHighHalf, Bool.and_eq_false_iff, decide_eq_false_iff_not, decide_eq_false_iff_not]
    omega
  have hlow : isLowHalf c.toNat = false := by
    rw [isLowHalf, Bool.and_eq_false_iff, decide_eq_false_iff_not, decide_eq_false_iff_not]
    omega
  rw [List.singleton_append, joinHalves.eq_def]
  simp only [hhigh, hlow, Char.ofNat_toNat, Bool.false_eq_true, if_false]

theorem codes_halves (h : 0x10000 ≤ c.toNat) :
    Codes c [0xD800 + (c.toNat - 0x10000) / 0x400, 0xDC00 + (c.toNat - 0x10000) % 0x400] := by
  intro acc rest
  have hvalid : c.toNat < 0xD800 ∨ 0xDFFF < c.toNat ∧ c.toNat < 0x110000 := c.valid
  have hhigh : isHighHalf (0xD800 + (c.toNat - 0x10000) / 0x400) = true := by
    rw [isHighHalf, Bool.and_eq_true, decide_eq_true_eq, decide_eq_true_eq]
    omega
  have hlow : isLowHalf (0xDC00 + (c.toNat - 0x10000) % 0x400) = true := by
    rw [isLowHalf, Bool.and_eq_true, decide_eq_true_eq, decide_eq_true_eq]
    omega
  have hjoin : 0x10000 + (0xD800 + (c.toNat - 0x10000) / 0x400 - 0xD800) * 0x400 +
      (0xDC00 + (c.toNat - 0x10000) % 0x400 - 0xDC00) = c.toNat := by
    omega
  simp only [List.cons_append, List.nil_append, joinHalves, hhigh, hlow, if_true, hjoin,
    Char.ofNat_toNat]

-- The reader first collects numbers and joins them at the end of the literal, so each spelling of a
-- character is followed to its numbers here and from them to the character in `Codes`.
theorem literal?_written (h : Written c cs) : ∃ ns, Codes c ns ∧
    ∀ acc rest, literal? acc (cs ++ rest) = literal? (ns.reverse ++ acc) rest := by
  cases h with
  | plain hquote hslash hc =>
    exact ⟨[c.toNat], codes_toNat c, literal?_plain hquote hslash hc⟩
  | short h => exact ⟨[c.toNat], codes_toNat c, literal?_short h⟩
  | escape h => exact ⟨[c.toNat], codes_toNat c, literal?_escape h⟩
  | halves hc hh hl =>
    refine ⟨_, codes_halves hc, fun acc rest => ?_⟩
    rw [List.append_assoc, literal?_escape hh, literal?_escape hl]
    rfl

theorem literal?_writtenText {text : List Char} (h : WrittenText text cs) :
    ∃ ns, (∀ acc rest, literal? acc (cs ++ '"' :: rest) = some (acc.reverse ++ ns, rest)) ∧
      ∀ before, joinHalves before ns = some (String.ofList (before.reverse ++ text)) := by
  induction h with
  | nil =>
    refine ⟨[], fun acc rest => ?_, fun before => ?_⟩
    · rw [List.append_nil, List.nil_append, literal?.eq_def]
      exact if_pos rfl
    · rw [List.append_nil]
      rfl
  | @cons c text cs ds hc ht ih =>
    obtain ⟨ms, hcodes, hchar⟩ := literal?_written hc
    obtain ⟨ns, hread, hjoin⟩ := ih
    refine ⟨ms ++ ns, fun acc rest => ?_, fun before => ?_⟩
    · rw [List.append_assoc, hchar, hread, List.reverse_append, List.reverse_reverse,
        List.append_assoc]
    · rw [hcodes, hjoin, List.reverse_cons, List.append_assoc, List.singleton_append]

/-! ## Numbers -/

theorem isDigit_eq (c : Char) : isDigit c = c.isDigit := by
  rw [isDigit, Bool.eq_iff_iff, Bool.and_eq_true, decide_eq_true_eq, decide_eq_true_eq,
    Char.isDigit_iff_toNat]
  rfl

theorem ofNat_eq_cons (n : Nat) : ∃ c ds, Numeral.ofNat n = c :: ds ∧ c.isDigit = true := by
  obtain ⟨c, ds, hds⟩ := List.exists_cons_of_ne_nil (Nat.toDigits_ne_nil (n := n) (b := 10))
  have hmem : c ∈ Numeral.ofNat n := by
    rw [Numeral.ofNat, hds]
    exact List.mem_cons_self
  exact ⟨c, ds, hds, Numeral.isDigit_of_mem_ofNat hmem⟩

theorem head?_ofNat {n : Nat} (h : 0 < n) : (Numeral.ofNat n).head? ≠ some '0' := by
  induction n using Nat.strongRecOn with
  | ind n ih =>
    by_cases hn : n < 10
    · have hdigit : ∀ d < 10, 0 < d → Nat.digitChar d ≠ '0' := by decide
      rw [Numeral.ofNat, Nat.toDigits_of_lt_base hn]
      exact fun hz => hdigit n hn h (Option.some.inj hz)
    · have hhead := ih (n / 10) (by omega) (by omega)
      obtain ⟨c, ds, hds, -⟩ := ofNat_eq_cons (n / 10)
      rw [hds] at hhead
      rw [Numeral.ofNat] at hds ⊢
      rw [Nat.toDigits_of_base_le (by decide) (by omega), hds]
      exact hhead

theorem wellFormedDigits_ofNat (n : Nat) : wellFormedDigits (Numeral.ofNat n) = true := by
  cases n with
  | zero => rfl
  | succ n =>
    have hhead := head?_ofNat (Nat.succ_pos n)
    cases hds : Numeral.ofNat (n + 1) with
    | nil => exact absurd hds Nat.toDigits_ne_nil
    | cons c ds =>
      rw [hds, List.head?_cons, Ne, Option.some_inj] at hhead
      rw [wellFormedDigits.eq_def]
      split
      · contradiction
      · rfl
      · next heq =>
        rw [← (List.cons.inj heq).1]
        exact bne_iff_ne.2 hhead

theorem takeWhile_ofNat (h : Ends rest) :
    (Numeral.ofNat n ++ rest).takeWhile isDigit = Numeral.ofNat n ∧
      (Numeral.ofNat n ++ rest).dropWhile isDigit = rest := by
  have hdigits : ∀ c ∈ Numeral.ofNat n, isDigit c = true := fun c hc => by
    rw [isDigit_eq]
    exact Numeral.isDigit_of_mem_ofNat hc
  have hrest : rest.takeWhile isDigit = [] ∧ rest.dropWhile isDigit = rest := by
    cases rest with
    | nil => exact ⟨rfl, rfl⟩
    | cons c rest =>
      have hc : ¬isDigit c = true := by
        rw [(h c rfl).1]
        decide
      exact ⟨List.takeWhile_cons_of_neg hc, List.dropWhile_cons_of_neg hc⟩
  rw [List.takeWhile_append_of_pos hdigits, List.dropWhile_append_of_pos hdigits, hrest.1, hrest.2,
    List.append_nil]
  exact ⟨rfl, rfl⟩

theorem afterNumber (h : Ends rest) : (afterFraction? rest).bind afterExponent? = some rest := by
  cases rest with
  | nil => rfl
  | cons c rest =>
    obtain ⟨-, hpoint, hlower, hupper⟩ := h c rfl
    have hfraction : afterFraction? (c :: rest) = some (c :: rest) := by
      rw [afterFraction?.eq_def]
      split
      · next heq => exact absurd (List.cons.inj heq).1 hpoint
      · rfl
    rw [hfraction, Option.bind_some, afterExponent?, if_neg (by rintro (h | h) <;> contradiction)]

theorem number?_ofNat (h : Ends rest) (n : Nat) :
    number? (Numeral.ofNat n ++ rest) = some (.integer n, rest) := by
  obtain ⟨htake, hdrop⟩ := takeWhile_ofNat (n := n) h
  obtain ⟨c, ds, hds, hc⟩ := ofNat_eq_cons n
  unfold number?
  split
  next negative body hsigned =>
  have hunsigned : (false, Numeral.ofNat n ++ rest) = (negative, body) := by
    split at hsigned
    · next heq =>
      rw [hds] at heq
      rw [(List.cons.inj heq).1] at hc
      cases hc
    · exact hsigned
  obtain ⟨rfl, rfl⟩ := Prod.mk.inj hunsigned
  simp only [htake, hdrop, wellFormedDigits_ofNat, afterNumber h, Numeral.digits?_ofNat,
    Option.getD_some, Bool.false_and, Bool.not_false, and_self, if_true, Bool.false_eq_true,
    if_false]

theorem number?_neg_ofNat (h : Ends rest) (n : Nat) :
    number? ('-' :: (Numeral.ofNat n ++ rest)) =
      some (if n = 0 then .real ['-', '0'] else .integer (-n), rest) := by
  obtain ⟨htake, hdrop⟩ := takeWhile_ofNat (n := n) h
  unfold number?
  simp only [htake, hdrop, wellFormedDigits_ofNat, afterNumber h, Numeral.digits?_ofNat,
    Option.getD_some, Bool.true_and, true_and, if_true]
  cases n with
  | zero =>
    have htext : '-' :: (Numeral.ofNat 0 ++ rest) = ['-', '0'] ++ rest := rfl
    rw [htext, List.length_append, Nat.add_sub_cancel, List.take_left]
    rfl
  | succ n => rfl

/-! ## Cutting a text -/

theorem next?_mark {t : Token} (h : Mark t c) : next? (c :: rest) = some (t, rest) := by
  cases h <;> rfl

theorem next?_word {v : Json} (h : Word v cs) :
    next? (cs ++ rest) = some (scalar v, rest) := by
  cases h <;> rfl

theorem next?_string {s : String} {body : List Char} (h : WrittenText s.toList body) :
    next? ('"' :: (body ++ '"' :: rest)) = some (string (some s), rest) := by
  obtain ⟨units, hread, hjoin⟩ := literal?_writtenText h
  have htext : joinHalves [] units = some s := by
    rw [hjoin, List.reverse_nil, List.nil_append, String.ofList_toList]
  have hnext : next? ('"' :: (body ++ '"' :: rest)) =
      (literal? [] (body ++ '"' :: rest)).map fun read =>
        (string (joinHalves [] read.1), read.2) := rfl
  rw [hnext, hread, Option.map_some]
  simp only [List.reverse_nil, List.nil_append, htext]

theorem next?_number (hc : c = '-' ∨ c.isDigit = true) :
    next? (c :: rest) = (number? (c :: rest)).map fun read => (scalar read.1, read.2) := by
  rw [next?.eq_def]
  split <;> first | rfl | next heq => exact absurd ((List.cons.inj heq).1 ▸ hc) (by decide)

theorem next?_spelled {t : Token} (h : t.Spelled cs) (he : t.isNumber = true → Ends rest) :
    next? (cs ++ rest) = some (t, rest) := by
  cases h with
  | mark h => exact next?_mark h
  | word h => exact next?_word h
  | string h =>
    rw [List.cons_append, List.append_assoc]
    exact next?_string h
  | integer i =>
    cases i with
    | ofNat n =>
      obtain ⟨c, ds, hds, hc⟩ := ofNat_eq_cons n
      have hnumber := number?_ofNat (he rfl) n
      rw [hds, List.cons_append] at hnumber
      rw [Numeral.ofInt, hds, List.cons_append, next?_number (.inr hc), hnumber]
      rfl
    | negSucc n =>
      rw [Numeral.ofInt, List.cons_append, next?_number (.inl rfl),
        number?_neg_ofNat (he rfl) (n + 1), if_neg (Nat.succ_ne_zero n)]
      rfl
  | negativeZero =>
    have hnumber := number?_neg_ofNat (he rfl) 0
    rw [List.cons_append, next?_number (.inl rfl)]
    exact congrArg (Option.map _) hnumber

theorem not_isSpace_of_next? {t : Token} (h : next? (c :: cs) = some (t, rest)) :
    ¬isSpace c = true := by
  intro hc
  have hspace : c = ' ' ∨ c = '\t' ∨ c = '\n' ∨ c = '\r' := by
    simpa [isSpace, or_assoc] using hc
  rcases hspace with rfl | rfl | rfl | rfl <;> cases h

theorem lexFrom?_gap {gap : List Char} (hg : Gap gap) (acc : List Token) (cs : List Char) :
    lexFrom? acc (gap ++ cs) = lexFrom? acc cs := by
  induction gap with
  | nil => rfl
  | cons c gap ih =>
    rw [List.cons_append, lexFrom?, if_pos (hg c List.mem_cons_self)]
    exact ih fun d hd => hg d (List.mem_cons_of_mem c hd)

theorem lexFrom?_token {t : Token} (h : next? cs = some (t, rest)) (acc : List Token) :
    lexFrom? acc cs = lexFrom? (t :: acc) rest := by
  cases cs with
  | nil => cases h
  | cons c cs =>
    rw [lexFrom?, if_neg (not_isSpace_of_next? h)]
    split
    · next heq =>
      rw [h] at heq
      cases heq
      rfl
    · next heq =>
      rw [h] at heq
      cases heq

theorem lexFrom?_of_spaced {ts : List Token} (h : Spaced ts cs) (acc : List Token) :
    lexFrom? acc cs = some (acc.reverse ++ ts) := by
  induction h generalizing acc with
  | @done gap hg =>
    have hblank := lexFrom?_gap hg acc []
    rw [List.append_nil] at hblank
    rw [hblank, lexFrom?, List.append_nil]
  | @next t ts gap cs rest hg ht he hr ih =>
    -- What follows a number ends it, whatever else it is.
    rw [lexFrom?_gap hg, lexFrom?_token (next?_spelled ht he), ih, List.reverse_cons,
      List.append_assoc, List.singleton_append]

theorem lex?_of_spaced {ts : List Token} (h : Spaced ts cs) : lex? cs = some ts :=
  lexFrom?_of_spaced h []

end Token

end SessionPool.Json
