import SessionPool.Wire.Reply
import SessionPool.Wire.Source

/-!
# Reading replies

A reply is a line whose first byte tells its kind, followed for data by the announced number of
bytes and for an array by the announced number of replies. Every announced length is checked before
anything is read for it, lines and nesting are limited, and whatever else is met is a violation of
the protocol.
-/

namespace SessionPool

def maxLineLength : Nat := 65536

def maxBulkLength : Nat := 536870912

def maxDepth : Nat := 32

abbrev Reading (σ α : Type) := Except Fault α × σ

namespace Reading

def andThen {σ α β : Type} (r : Reading σ α) (next : α → σ → Reading σ β) : Reading σ β :=
  match r with
  | (.ok a, s) => next a s
  | (.error f, s) => (.error f, s)

def violation {σ α : Type} (v : Violation) (s : σ) : Reading σ α := (.error (.protocol v), s)

def check {σ α : Type} (r : Except Violation α) (s : σ) : Reading σ α :=
  match r with
  | .ok a => (.ok a, s)
  | .error v => violation v s

end Reading

namespace Reply

open Reading

def lineBody (line : Bytes) : Except Violation Bytes :=
  match line.reverse with
  | [] => .error .closedByPeer
  | 0x0A :: 0x0D :: body => .ok body.reverse
  | last :: _ =>
    if line.length = maxLineLength ∧ last ≠ lineFeed then .error .lineTooLong
    else .error .unterminatedLine

def announcedInteger (body : Bytes) : Except Violation Int :=
  match Numeral.int64? (body.map fun b => Char.ofNat b.toNat) with
  | some n => .ok n
  | none => .error .invalidInteger

def announcedLength (body : Bytes) : Except Violation (Option Nat) :=
  match announcedInteger body with
  | .ok (.ofNat n) => .ok (some n)
  | .ok (.negSucc 0) => .ok none
  | .ok _ => .error .negativeLength
  | .error v => .error v

def payloadBody (count : Nat) (data : Bytes) : Except Violation Bytes :=
  if data.drop count = [0x0D, 0x0A] then .ok (data.take count) else .error .unterminatedBulk

section

variable {σ : Type} [ByteSource σ]

def readLine (s : σ) : Reading σ Bytes :=
  match ByteSource.readLine maxLineLength s with
  | (.ok line, s) => check (lineBody line) s
  | (.error fault, s) => (.error (.io fault), s)

def readPayload (count : Nat) (s : σ) : Reading σ Bytes :=
  if maxBulkLength < count then violation .bulkTooLong s
  else match ByteSource.readExactly (count + 2) s with
    | (.ok data, s) => check (payloadBody count data) s
    | (.error fault, s) => (.error (.io fault), s)

def readItems (read : σ → Reading σ Reply) (acc : List Reply) : Nat → σ → Reading σ (List Reply)
  | 0, s => (.ok acc.reverse, s)
  | count + 1, s =>
    match read s with
    | (.ok item, s) => readItems read (item :: acc) count s
    | (.error f, s) => (.error f, s)

/-- Reads one reply, its elements by `item?`; without `item?` an array is nested too deeply. -/
def readWith (item? : Option (σ → Reading σ Reply)) (s : σ) : Reading σ Reply :=
  (readLine s).andThen fun line s =>
    match line with
    | [] => violation .emptyLine s
    | marker :: body =>
      match Char.ofNat marker.toNat with
      | '+' => (.ok (.status body), s)
      | '-' => (.ok (.error body), s)
      | ':' => (check (announcedInteger body) s).andThen fun n s => (.ok (.integer n), s)
      | '$' =>
        (check (announcedLength body) s).andThen fun
          | none, s => (.ok (.bulk none), s)
          | some count, s => (readPayload count s).andThen fun data s => (.ok (.bulk data), s)
      | '*' =>
        (check (announcedLength body) s).andThen fun
          | none, s => (.ok (.bulk none), s)
          | some count, s =>
            match item? with
            | none => violation .nestedTooDeeply s
            | some item =>
              (readItems item [] count s).andThen fun items s => (.ok (.array items), s)
      | _ => violation .unknownType s

def readNested : (levels : Nat) → σ → Reading σ Reply
  | 0 => readWith none
  | levels + 1 => readWith (some (readNested levels))

def read (s : σ) : Reading σ Reply := readNested maxDepth s

/-- A reader may go on behind this fault: it was the reply that was wrong, not the source, and the
data has not ended. -/
def isRecoverable : Fault → Bool
  | .protocol .closedByPeer => false
  | .protocol _ => true
  | _ => false

def readMany (resume : Bool) (acc : List (Except Fault Reply)) :
    (count : Nat) → σ → List (Except Fault Reply) × σ
  | 0, s => (acc.reverse, s)
  | count + 1, s =>
    match read s with
    | (.ok r, s) => readMany resume (.ok r :: acc) count s
    | (.error f, s) =>
      if resume && isRecoverable f then readMany resume (.error f :: acc) count s
      else ((.error f :: acc).reverse, s)

end

end Reply

end SessionPool
