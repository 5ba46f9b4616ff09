import SessionPool.Text.Blank
import SessionPool.Text.Numeral

/-!
# Addresses

An address is a host and a port, written `host:port`. Operators give lists of them separated by
commas; blanks around entries and parts are ignored, and an entry that is no address is dropped so
that one typing error does not lose the rest of the list.
-/

namespace SessionPool

structure Address where
  host : String
  port : UInt16
  deriving DecidableEq, Inhabited

namespace Address

def port? (cs : List Char) : Option UInt16 :=
  match Numeral.natural? cs with
  | some n => if 0 < n ∧ n < UInt16.size then some (UInt16.ofNat n) else none
  | none => none

/-- One entry: exactly one colon, a host that is not blank before it and a port after it. -/
def ofChars? (entry : List Char) : Option Address :=
  let entry := Text.trim entry
  match entry.dropWhile (· != ':') with
  | [] => none
  | _ :: rest =>
    let host := Text.trim (entry.takeWhile (· != ':'))
    if rest.contains ':' || host.isEmpty then none
    else (port? (Text.trim rest)).map fun port => ⟨String.ofList host, port⟩

def parse? (entry : String) : Option Address := ofChars? entry.toList

def render (a : Address) : String := a.host ++ ":" ++ a.port.toNat.repr

def entries (text : List Char) : List (List Char) :=
  text.foldr split [[]]
where
  split (c : Char) (words : List (List Char)) : List (List Char) :=
    if c = ',' then [] :: words
    else match words with
      | [] => [[c]]
      | word :: rest => (c :: word) :: rest

/-- The addresses of a comma-separated list, in order, entries that are none left out. -/
def parseList (text : String) : List Address :=
  (((entries text.toList).map Text.trim).filter fun entry => !entry.isEmpty).filterMap ofChars?

end Address

end SessionPool
