import SessionPool.Json.Basic

/-!
# JSON tokens

The text of a JSON value is cut into punctuation marks, words, numbers and string literals; four
blank characters may stand between them. Every token is read from the front of the text, so the pass
ends because the rest is shorter each time.
-/

namespace SessionPool.Json

inductive Token where
  | openArray
  | closeArray
  | openObject
  | closeObject
  | comma
  | colon
  | string (text : JsonText)
  | scalar (value : Json)
  deriving Inhabited

namespace Token

def isSpace (c : Char) : Bool := c == ' ' || c == '\t' || c == '\n' || c == '\r'

def isDigit (c : Char) : Bool := '0' ≤ c && c ≤ '9'

def hexDigit? (c : Char) : Option Nat :=
  if '0' ≤ c ∧ c ≤ '9' then some (c.toNat - '0'.toNat)
  else if 'a' ≤ c ∧ c ≤ 'f' then some (c.toNat - 'a'.toNat + 10)
  else if 'A' ≤ c ∧ c ≤ 'F' then some (c.toNat - 'A'.toNat + 10)
  else none

def unit? (a b c d : Char) : Option Nat :=
  match hexDigit? a, hexDigit? b, hexDigit? c, hexDigit? d with
  | some a, some b, some c, some d => some (((a * 16 + b) * 16 + c) * 16 + d)
  | _, _, _, _ => none

def shortEscape? (letter : Char) : Option Char :=
  if letter = '/' then some '/' else (shortEscapes.find? fun e => e.1 = letter).map (·.2)

/-- A string literal after its opening quote: the numbers of its characters, escapes of surrogate
halves left as they are, and the text behind the closing quote. -/
def literal? (acc : List Nat) : List Char → Option (List Nat × List Char)
  | [] => none
  | c :: rest =>
    if c = '"' then some (acc.reverse, rest)
    else if c = '\\' then
      match rest with
      | 'u' :: a :: b :: c :: d :: rest =>
        match unit? a b c d with
        | some n => literal? (n :: acc) rest
        | none => none
      | letter :: rest =>
        match shortEscape? letter with
        | some c => literal? (c.toNat :: acc) rest
        | none => none
      | [] => none
    else if c.toNat < 0x20 then none
    else literal? (c.toNat :: acc) rest

def isHighHalf (n : Nat) : Bool := 0xD800 ≤ n && n < 0xDC00

def isLowHalf (n : Nat) : Bool := 0xDC00 ≤ n && n < 0xE000

def joinHalves (acc : List Char) : List Nat → JsonText
  | [] => some (String.ofList acc.reverse)
  | n :: rest =>
    if isHighHalf n then
      match rest with
      | m :: rest =>
        if isLowHalf m then
          joinHalves (Char.ofNat (0x10000 + (n - 0xD800) * 0x400 + (m - 0xDC00)) :: acc) rest
        else none
      | [] => none
    else if isLowHalf n then none
    else joinHalves (Char.ofNat n :: acc) rest

def afterSign : List Char → List Char
  | '+' :: rest => rest
  | '-' :: rest => rest
  | cs => cs

def afterFraction? : List Char → Option (List Char)
  | '.' :: rest =>
    if (rest.takeWhile isDigit).isEmpty then none else some (rest.dropWhile isDigit)
  | cs => some cs

def afterExponent? (cs : List Char) : Option (List Char) :=
  match cs with
  | c :: rest =>
    if c = 'e' ∨ c = 'E' then
      let rest := afterSign rest
      if (rest.takeWhile isDigit).isEmpty then none else some (rest.dropWhile isDigit)
    else some cs
  | [] => some cs

def wellFormedDigits : List Char → Bool
  | [] => false
  | ['0'] => true
  | c :: _ => c != '0'

/-- A number at the front of a text. Only digits, with `-` before a number other than zero, make a
whole number. -/
def number? (cs : List Char) : Option (Json × List Char) :=
  let (negative, body) := match cs with
    | '-' :: rest => (true, rest)
    | _ => (false, cs)
  let digits := body.takeWhile isDigit
  let rest := body.dropWhile isDigit
  if wellFormedDigits digits then
    match (afterFraction? rest).bind afterExponent? with
    | some tail =>
      let magnitude := (Numeral.digits? digits).getD 0
      if tail.length = rest.length ∧ !(negative && magnitude == 0) then
        some (.integer (if negative then -(magnitude : Int) else magnitude), tail)
      else some (.real (cs.take (cs.length - tail.length)), tail)
    | none => none
  else none

def next? (cs : List Char) : Option (Token × List Char) :=
  match cs with
  | '[' :: rest => some (openArray, rest)
  | ']' :: rest => some (closeArray, rest)
  | '\x7b' :: rest => some (openObject, rest)
  | '\x7d' :: rest => some (closeObject, rest)
  | ',' :: rest => some (comma, rest)
  | ':' :: rest => some (colon, rest)
  | '"' :: rest => (literal? [] rest).map fun (units, rest) => (string (joinHalves [] units), rest)
  | 'n' :: 'u' :: 'l' :: 'l' :: rest => some (scalar .null, rest)
  | 't' :: 'r' :: 'u' :: 'e' :: rest => some (scalar (.bool true), rest)
  | 'f' :: 'a' :: 'l' :: 's' :: 'e' :: rest => some (scalar (.bool false), rest)
  | _ => (number? cs).map fun (value, rest) => (scalar value, rest)

theorem literal?_length {acc units : List Nat} {cs rest : List Char}
    (h : literal? acc cs = some (units, rest)) : rest.length < cs.length := by
  fun_induction literal? acc cs <;> simp_all <;> omega

theorem afterSign_length (cs : List Char) : (afterSign cs).length ≤ cs.length := by
  unfold afterSign; split <;> simp

theorem dropDigits_length (cs : List Char) : (cs.dropWhile isDigit).length ≤ cs.length :=
  (List.dropWhile_sublist isDigit).length_le

theorem afterFraction?_length {cs rest : List Char} (h : afterFraction? cs = some rest) :
    rest.length ≤ cs.length := by
  unfold afterFraction? at h
  split at h
  · split at h
    · simp at h
    · rename_i tail _
      have := dropDigits_length tail
      simp only [Option.some.injEq] at h
      subst h
      simp only [List.length_cons]
      omega
  · simp_all

theorem afterExponent?_length {cs rest : List Char} (h : afterExponent? cs = some rest) :
    rest.length ≤ cs.length := by
  unfold afterExponent? at h
  split at h
  · rename_i c tail
    split at h
    · have h₁ := afterSign_length tail
      have h₂ := dropDigits_length (afterSign tail)
      simp only [] at h
      split at h
      · simp at h
      · simp only [Option.some.injEq] at h
        subst h
        simp only [List.length_cons]
        omega
    · simp_all
  · simp_all

theorem number?_length {cs rest : List Char} {value : Json}
    (h : number? cs = some (value, rest)) : rest.length < cs.length := by
  have body_le : (match cs with | '-' :: r => (true, r) | _ => (false, cs)).2.length ≤
      cs.length := by
    split <;> simp
  unfold number? at h
  simp only [] at h
  generalize (match cs with | '-' :: r => (true, r) | _ => (false, cs)) = signed at h body_le
  obtain ⟨negative, body⟩ := signed
  simp only [] at h body_le
  split at h
  · rename_i hd
    have split_len : (body.takeWhile isDigit).length + (body.dropWhile isDigit).length =
        body.length := by
      rw [← List.length_append, List.takeWhile_append_dropWhile]
    have pos : 0 < (body.takeWhile isDigit).length := by
      cases hb : body.takeWhile isDigit with
      | nil => simp [hb, wellFormedDigits] at hd
      | cons => simp
    split at h
    · rename_i tail ht
      obtain ⟨mid, hm, hx⟩ := Option.bind_eq_some_iff.1 ht
      have h₁ := afterFraction?_length hm
      have h₂ := afterExponent?_length hx
      have hr : tail = rest := by split at h <;> simp_all
      subst hr
      omega
    · simp at h
  · simp at h

theorem next?_length {cs rest : List Char} {t : Token} (h : next? cs = some (t, rest)) :
    rest.length < cs.length := by
  unfold next? at h
  split at h
  case h_7 =>
    obtain ⟨⟨units, tail⟩, hl, he⟩ := Option.map_eq_some_iff.1 h
    have := literal?_length hl
    simp_all
    omega
  case h_11 =>
    obtain ⟨⟨value, tail⟩, hn, he⟩ := Option.map_eq_some_iff.1 h
    have := number?_length hn
    simp_all
  all_goals
    simp only [Option.some.injEq, Prod.mk.injEq] at h
    obtain ⟨_, rfl⟩ := h
    simp only [List.length_cons]
    omega

def lexFrom? (acc : List Token) (cs : List Char) : Option (List Token) :=
  match cs with
  | [] => some acc.reverse
  | c :: rest =>
    if isSpace c then lexFrom? acc rest
    else match _h : next? (c :: rest) with
      | some (t, tail) => lexFrom? (t :: acc) tail
      | none => none
termination_by cs.length
decreasing_by
  · simp
  · exact next?_length ‹_›

def lex? (cs : List Char) : Option (List Token) := lexFrom? [] cs

end Token

end SessionPool.Json
