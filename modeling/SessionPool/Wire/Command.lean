import SessionPool.Text.Quoted
import SessionPool.Wire.Argument

/-!
# Commands and their frames

A command is a name and arguments. Its frame announces how many words follow and before each word
how long it is, so no content of a word can change the shape of the request.
-/

namespace SessionPool

structure Command where
  name : Bytes
  args : List Bytes
  deriving DecidableEq, Inhabited

def crlf : Bytes := [0x0D, 0x0A]

namespace Frame

/-- The decimal digits of `n` in front of `acc`, written from the right. -/
def digitsOnto (n : Nat) (acc : Bytes) : Bytes :=
  let acc := UInt8.ofNat ('0'.toNat + n % 10) :: acc
  if n / 10 = 0 then acc else digitsOnto (n / 10) acc
termination_by n
decreasing_by omega

def decimalWidth (n : Nat) : Nat :=
  if n < 10 then 1 else decimalWidth (n / 10) + 1

def header (marker : Char) (n : Nat) : Bytes :=
  UInt8.ofNat marker.toNat :: digitsOnto n crlf

def bulk (data : Bytes) : Bytes := header '$' data.length ++ (data ++ crlf)

def ofWords (words : List Bytes) : Bytes := header '*' words.length ++ words.flatMap bulk

def headerLength (n : Nat) : Nat := 1 + decimalWidth n + crlf.length

def length (words : List Bytes) : Nat :=
  words.foldr (fun w n => headerLength w.length + w.length + crlf.length + n)
    (headerLength words.length)

end Frame

namespace Command

def ofName (name : String) : Command := ⟨Utf8.encode name, []⟩

def arg (c : Command) (a : Argument) : Command := { c with args := c.args ++ [a.payload] }

def withArgs (c : Command) (as : List Argument) : Command :=
  { c with args := c.args ++ as.map Argument.payload }

def words (c : Command) : List Bytes := c.name :: c.args

def size (c : Command) : Nat := c.words.length

def isEmpty (c : Command) : Bool := c.words.isEmpty

def frame (c : Command) : Bytes := Frame.ofWords c.words

def appendTo (c : Command) (buffer : Bytes) : Bytes := buffer ++ c.frame

def describe (c : Command) : String :=
  "Command \x7b name: " ++ Text.quoted (Utf8.lenient c.name) ++ ", args: " ++ c.args.length.repr ++
    " \x7d"

end Command

end SessionPool
