import SessionPool.Proofs.Wire.Integer
import SessionPool.Wire.Command

/-!
# The grammar of replies

What a frame is, and the reply it stands for, with no reader in sight. An array counts one level
deeper than what it stands in; its elements follow its line one after the other.
-/

namespace SessionPool.Wire

structure IsLine (line body : Bytes) : Prop where
  ended : line = body ++ crlf
  single : lineFeed ∉ body
  short : line.length ≤ maxLineLength

mutual

/-- The frames at some depth, and what they stand for. -/
inductive IsFrame : Nat → Bytes → Reply → Prop
  | status {d : Nat} {line data : Bytes} (hl : IsLine line (0x2B :: data)) :
    IsFrame d line (.status data)
  | error {d : Nat} {line data : Bytes} (hl : IsLine line (0x2D :: data)) :
    IsFrame d line (.error data)
  | integer {d : Nat} {line n : Bytes} {i : Int} (hl : IsLine line (0x3A :: n))
      (hn : SpellsInt64 n i) : IsFrame d line (.integer i)
  | bulk {d : Nat} {line n data : Bytes} (hl : IsLine line (0x24 :: n))
      (hn : SpellsInt64 n data.length) (hmax : data.length ≤ maxBulkLength) :
    IsFrame d (line ++ (data ++ crlf)) (.bulk (some data))
  | nilBulk {d : Nat} {line n : Bytes} (hl : IsLine line (0x24 :: n)) (hn : SpellsInt64 n (-1)) :
    IsFrame d line (.bulk none)
  | nilArray {d : Nat} {line n : Bytes} (hl : IsLine line (0x2A :: n)) (hn : SpellsInt64 n (-1)) :
    IsFrame d line (.bulk none)
  | array {d : Nat} {line n ws : Bytes} {items : List Reply} (hl : IsLine line (0x2A :: n))
      (hn : SpellsInt64 n items.length) (hd : d + 1 ≤ maxDepth) (hi : AreFrames (d + 1) ws items) :
    IsFrame d (line ++ ws) (.array items)

inductive AreFrames : Nat → Bytes → List Reply → Prop
  | nil {d : Nat} : AreFrames d [] []
  | cons {d : Nat} {w ws : Bytes} {r : Reply} {rs : List Reply} (hw : IsFrame d w r)
      (hws : AreFrames d ws rs) : AreFrames d (w ++ ws) (r :: rs)

end

end SessionPool.Wire
