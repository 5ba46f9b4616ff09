import SessionPool.Fault
import SessionPool.Text.Utf8

/-!
# Sources of bytes

A reader of replies needs two things of the bytes it reads from: the next line, and the next so many
bytes. Here are the two for data that is there as a whole.
-/

namespace SessionPool

def lineFeed : UInt8 := 0x0A

/-- Something that bytes can be read from: those up to the next line feed and with it, but at most
`limit` and fewer where the data ends; or just so many, and all of them where the data ends before.
-/
class ByteSource (σ : Type) where
  readLine (limit : Nat) : σ → Except IoFault Bytes × σ
  readExactly (count : Nat) : σ → Except IoFault Bytes × σ

/-- The first line of some bytes, at most `limit` long, in front of it what `acc` holds in reverse;
and the bytes behind it. -/
def lineOnto (acc : Bytes) : Nat → Bytes → Bytes × Bytes
  | 0, bs => (acc.reverse, bs)
  | _, [] => (acc.reverse, [])
  | limit + 1, b :: bs =>
    if b = lineFeed then ((b :: acc).reverse, bs) else lineOnto (b :: acc) limit bs

def splitLine (limit : Nat) (bs : Bytes) : Bytes × Bytes := lineOnto [] limit bs

instance : ByteSource Bytes where
  readLine limit bs :=
    let (line, rest) := splitLine limit bs
    (.ok line, rest)
  readExactly count bs :=
    let data := bs.take count
    if data.length = count then (.ok data, bs.drop count) else (.error .truncated, [])

end SessionPool
