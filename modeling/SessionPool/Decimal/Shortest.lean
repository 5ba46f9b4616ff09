import SessionPool.Text.Numeral

/-!
# The fewest digits that read back

A finite binary number `m · 2 ^ q` is the nearest one of its format to every real in an interval
around it. Among the decimals in that interval the ones with the fewest digits are chosen, of those
the nearest, and of two equally near ones the greater. All arithmetic is exact: the number, the ends
of its interval and the decimal grids are scaled by one power of ten to whole numbers.
-/

namespace SessionPool.Decimal

/-- A number, and whether it is the least of its power of two, so that its lower neighbour is half
as far away. -/
structure Dyadic where
  mantissa : Nat
  exponent : Int
  least : Bool
  deriving DecidableEq

structure Scientific where
  digits : Nat
  exponent : Int
  deriving DecidableEq

/-- A dyadic number and its interval, as multiples of `10 ^ (-scale)`. The ends belong to the
interval if they read back as the number, whose mantissa is even then. -/
structure Scaled where
  value : Nat
  low : Nat
  high : Nat
  closed : Bool
  scale : Nat
  deriving DecidableEq

def Dyadic.scaled (x : Dyadic) : Scaled :=
  let scale := (2 - x.exponent).toNat
  let quarter := Nat.pow 2 (x.exponent + scale - 2).toNat * Nat.pow 5 scale
  let value := x.mantissa * (4 * quarter)
  { value, scale
    low := value - (if x.least then quarter else 2 * quarter)
    high := value + 2 * quarter
    closed := x.mantissa % 2 == 0 }

def Scaled.contains (s : Scaled) (n : Nat) : Bool :=
  (s.low < n && n < s.high) || (s.closed && (s.low == n || n == s.high))

def Scaled.onGrid? (s : Scaled) (unit : Nat) : Option Nat :=
  let below := s.value / unit * unit
  let above := below + unit
  if s.contains below && !(s.contains above && above - s.value ≤ s.value - below) then
    some below
  else if s.contains above then some above
  else none

/-- The coarsest of the grids `10 ^ k, …, 10, 1` with a multiple in the interval. The value itself
lies on the last one. -/
def Scaled.coarsest (s : Scaled) : Nat → Nat
  | 0 => s.value
  | k + 1 => (s.onGrid? (Nat.pow 10 (k + 1))).getD (s.coarsest k)

def strip : Nat → Scientific → Scientific
  | 0, d => d
  | places + 1, d =>
    if d.digits ≠ 0 ∧ d.digits % 10 = 0 then strip places ⟨d.digits / 10, d.exponent + 1⟩ else d

def Dyadic.shortest (x : Dyadic) : Scientific :=
  let s := x.scaled
  let places := (Numeral.ofNat s.value).length
  strip (places + 1) ⟨s.coarsest (places - 1), -s.scale⟩

def Scientific.positional (d : Scientific) : List Char :=
  let digits := Numeral.ofNat d.digits
  if 0 ≤ d.exponent then
    if d.digits = 0 then ['0'] else digits ++ List.replicate d.exponent.toNat '0'
  else
    let places := (-d.exponent).toNat
    if places < digits.length then
      digits.take (digits.length - places) ++ '.' :: digits.drop (digits.length - places)
    else
      '0' :: '.' :: List.replicate (places - digits.length) '0' ++ digits

end SessionPool.Decimal
