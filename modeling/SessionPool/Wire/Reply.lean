import SessionPool.Fault
import SessionPool.Text.Blank
import SessionPool.Text.Numeral
import SessionPool.Text.Utf8

/-!
# Replies

What a server answers: a short status, an error, an integer of 64 bits, data or its absence, or an
array of replies.
-/

namespace SessionPool

inductive Reply where
  | status (data : Bytes)
  | error (data : Bytes)
  | integer (value : Int)
  | bulk (data : Option Bytes)
  | array (items : List Reply)
  deriving Inhabited

namespace Reply

def isError : Reply → Bool
  | error _ => true
  | _ => false

def isOk (r : Reply) : Bool := !r.isError

def isNil : Reply → Bool
  | bulk none => true
  | _ => false

def isInteger : Reply → Bool
  | integer _ => true
  | _ => false

def isArray : Reply → Bool
  | array _ => true
  | _ => false

def bytes? : Reply → Option Bytes
  | status data => some data
  | bulk data => data
  | _ => none

def text? (r : Reply) : Option String := r.bytes?.map Utf8.lenient

/-- A payload that is a decimal number of 64 bits, blanks around it ignored. -/
def payloadInt? (data : Bytes) : Option Int :=
  match Utf8.strict? data with
  | some s => Numeral.int64? (Text.trim s.toList)
  | none => none

def int? : Reply → Option Int
  | integer value => some value
  | r => r.bytes?.bind payloadInt?

def errorMessage? : Reply → Option String
  | error data => some (Utf8.lenient data)
  | _ => none

def items : Reply → List Reply
  | array items => items
  | _ => []

def size (r : Reply) : Nat := r.items.length

def isEmpty (r : Reply) : Bool := r.items.isEmpty

def get? (r : Reply) (index : Nat) : Option Reply := r.items[index]?

def follow? (r : Reply) (path : List Nat) : Option Reply :=
  path.foldlM (fun r index => r.get? index) r

def toExcept : Reply → Except Fault Reply
  | error data => .error (.command (Utf8.lenient data))
  | r => .ok r

end Reply

end SessionPool
