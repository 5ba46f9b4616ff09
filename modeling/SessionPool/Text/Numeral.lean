/-!
# Decimal numerals

Reading and writing of whole numbers. A reader takes ASCII digits with leading zeros allowed and one
optional sign, and refuses an empty digit string; a writer gives the one spelling without leading
zeros.
-/

namespace SessionPool.Numeral

def digit? (c : Char) : Option Nat :=
  if '0' ≤ c ∧ c ≤ '9' then some (c.toNat - '0'.toNat) else none

def extend? (n : Nat) : List Char → Option Nat
  | [] => some n
  | c :: cs =>
    match digit? c with
    | some d => extend? (10 * n + d) cs
    | none => none

def digits? : List Char → Option Nat
  | [] => none
  | cs => extend? 0 cs

/-- Digits with an optional `+`. A `-` is refused, also before zero. -/
def natural? : List Char → Option Nat
  | '+' :: cs => digits? cs
  | cs => digits? cs

def integer? : List Char → Option Int
  | '-' :: cs => (digits? cs).map fun n => -(n : Int)
  | cs => (natural? cs).map Int.ofNat

def fitsSigned (bits : Nat) (i : Int) : Bool :=
  -(Nat.pow 2 (bits - 1) : Int) ≤ i && i < (Nat.pow 2 (bits - 1) : Int)

def int64? (cs : List Char) : Option Int :=
  (integer? cs).filter (fitsSigned 64)

def ofNat (n : Nat) : List Char := Nat.toDigits 10 n

def ofInt : Int → List Char
  | .ofNat n => ofNat n
  | .negSucc n => '-' :: ofNat (n + 1)

end SessionPool.Numeral
