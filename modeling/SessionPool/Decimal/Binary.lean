import SessionPool.Decimal.Shortest

/-!
# Binary floating-point numbers as text

Numbers arrive as the bits of the two common interchange formats. Their text is the shortest decimal
in positional notation, with words for what is no number.
-/

namespace SessionPool.Decimal

structure Format where
  exponentBits : Nat
  fractionBits : Nat
  deriving DecidableEq

def binary32 : Format := ⟨8, 23⟩

def binary64 : Format := ⟨11, 52⟩

inductive Binary where
  | nan
  | infinite (negative : Bool)
  | finite (negative : Bool) (magnitude : Dyadic)
  deriving DecidableEq

def Binary.ofBits (f : Format) (bits : Nat) : Binary :=
  let fraction := bits % Nat.pow 2 f.fractionBits
  let biased := bits / Nat.pow 2 f.fractionBits % Nat.pow 2 f.exponentBits
  let negative := bits / Nat.pow 2 (f.fractionBits + f.exponentBits) % 2 == 1
  let offset : Int := (Nat.pow 2 (f.exponentBits - 1) : Int) - 1 + f.fractionBits
  if biased = Nat.pow 2 f.exponentBits - 1 then
    if fraction = 0 then .infinite negative else .nan
  else if biased = 0 then
    .finite negative ⟨fraction, 1 - offset, false⟩
  else
    .finite negative ⟨Nat.pow 2 f.fractionBits + fraction, biased - offset, fraction == 0⟩

def Binary.text : Binary → List Char
  | .nan => "NaN".toList
  | .infinite negative => if negative then "-inf".toList else "inf".toList
  | .finite negative x =>
    let digits := if x.mantissa = 0 then ['0'] else x.shortest.positional
    if negative then '-' :: digits else digits

end SessionPool.Decimal
