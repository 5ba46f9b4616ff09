import SessionPool.Wire.Source

/-!
# Bytes that arrive in deliveries

A connection delivers bytes piece by piece, and a read from it may fail in between. A reader holds a
buffer of bounded capacity and asks for more only when the buffer does not hold what it needs. An
interrupted read is tried again; a delivery of nothing is none.
-/

namespace SessionPool

inductive Delivery where
  | bytes (data : Bytes)
  | failure (fault : IoFault)
  deriving DecidableEq, Inhabited

/-- Cuts data into pieces of at most `capacity` bytes; `room` is what is left of the piece `piece`,
and `done` holds the pieces before it, both in reverse. -/
def piecesOnto (capacity : Nat) (done : List Bytes) :
    (room : Nat) → (piece data : Bytes) → List Bytes
  | _, piece, [] => (piece.reverse :: done).reverse
  | 0, piece, b :: bs => piecesOnto capacity (piece.reverse :: done) (capacity - 1) [b] bs
  | room + 1, piece, b :: bs => piecesOnto capacity done room (b :: piece) bs

def pieces (capacity : Nat) (data : Bytes) : List Bytes := piecesOnto capacity [] capacity [] data

/-- What was received and not read, what the following reads bring, and what a read meets behind all
deliveries, a failure or the end of the data. -/
structure Feed where
  buffer : Bytes := []
  upcoming : List Delivery := []
  behind : Option IoFault := none
  deriving DecidableEq, Inhabited

namespace Feed

def ofDeliveries (capacity : Nat) (ds : List Delivery) : Feed :=
  { upcoming := ds.flatMap fun
      | .bytes data => (pieces capacity data).map .bytes
      | .failure fault => [.failure fault] }

/-- Reads a line from the buffer and then from the deliveries; `acc` is read already and in reverse.
What a failed read had taken is lost. -/
def lineFrom (behind : Option IoFault) (limit : Nat) (acc buffer : Bytes) :
    List Delivery → Except IoFault Bytes × Feed
  | [] =>
    let (line, rest) := splitLine limit buffer
    if line.length = limit ∨ line.getLast? = some lineFeed then
      (.ok (line.reverse ++ acc).reverse, ⟨rest, [], behind⟩)
    else match behind with
      | none => (.ok (line.reverse ++ acc).reverse, ⟨rest, [], behind⟩)
      | some fault => (.error fault, ⟨rest, [], behind⟩)
  | next :: upcoming =>
    let (line, rest) := splitLine limit buffer
    if line.length = limit ∨ line.getLast? = some lineFeed then
      (.ok (line.reverse ++ acc).reverse, ⟨rest, next :: upcoming, behind⟩)
    else match next with
      | .bytes data => lineFrom behind (limit - line.length) (line.reverse ++ acc) data upcoming
      | .failure fault =>
        if fault.kind = .interrupted then
          lineFrom behind (limit - line.length) (line.reverse ++ acc) [] upcoming
        else (.error fault, ⟨rest, upcoming, behind⟩)

def exactlyFrom (behind : Option IoFault) (count : Nat) (acc buffer : Bytes) :
    List Delivery → Except IoFault Bytes × Feed
  | [] =>
    let data := buffer.take count
    if data.length = count then (.ok (data.reverse ++ acc).reverse, ⟨buffer.drop count, [], behind⟩)
    else (.error (behind.getD .truncated), ⟨[], [], behind⟩)
  | next :: upcoming =>
    let data := buffer.take count
    if data.length = count then
      (.ok (data.reverse ++ acc).reverse, ⟨buffer.drop count, next :: upcoming, behind⟩)
    else match next with
      | .bytes more => exactlyFrom behind (count - data.length) (data.reverse ++ acc) more upcoming
      | .failure fault =>
        if fault.kind = .interrupted then
          exactlyFrom behind (count - data.length) (data.reverse ++ acc) [] upcoming
        else (.error fault, ⟨[], upcoming, behind⟩)

instance : ByteSource Feed where
  readLine limit f := lineFrom f.behind limit [] f.buffer f.upcoming
  readExactly count f := exactlyFrom f.behind count [] f.buffer f.upcoming

end Feed

end SessionPool
