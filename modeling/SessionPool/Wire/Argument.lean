import SessionPool.Decimal.Binary
import SessionPool.Text.Utf8

/-!
# Command arguments

An argument is data of any content. Texts and bytes are sent as they are; numbers are sent in
decimal, so that they read back as the same number. Numbers as wide as an address are 64 bits wide,
and are the `int64` and the `uint64` of the same value; those of single and double precision are
given by their bits.
-/

namespace SessionPool

inductive Argument where
  | text (s : String)
  | bytes (data : Bytes)
  | int8 (n : Int8)
  | int16 (n : Int16)
  | int32 (n : Int32)
  | int64 (n : Int64)
  | uint8 (n : UInt8)
  | uint16 (n : UInt16)
  | uint32 (n : UInt32)
  | uint64 (n : UInt64)
  | float32 (bits : UInt32)
  | float64 (bits : UInt64)
  deriving DecidableEq, Inhabited

def asciiBytes (cs : List Char) : Bytes := cs.map fun c => UInt8.ofNat c.toNat

def Argument.payload : Argument → Bytes
  | text s => Utf8.encode s
  | bytes data => data
  | int8 n => asciiBytes (Numeral.ofInt n.toInt)
  | int16 n => asciiBytes (Numeral.ofInt n.toInt)
  | int32 n => asciiBytes (Numeral.ofInt n.toInt)
  | int64 n => asciiBytes (Numeral.ofInt n.toInt)
  | uint8 n => asciiBytes (Numeral.ofNat n.toNat)
  | uint16 n => asciiBytes (Numeral.ofNat n.toNat)
  | uint32 n => asciiBytes (Numeral.ofNat n.toNat)
  | uint64 n => asciiBytes (Numeral.ofNat n.toNat)
  | float32 bits => asciiBytes (Decimal.Binary.ofBits Decimal.binary32 bits.toNat).text
  | float64 bits => asciiBytes (Decimal.Binary.ofBits Decimal.binary64 bits.toNat).text

end SessionPool
