import SessionPool.Json.Reader

/-!
# Reading the fields of a record

A record is written as an object of named fields in any order, or as an array of its fields in their
own order with the last ones left out at will. A field may be given only once; a name that is no
field is ignored with its value.
-/

namespace SessionPool.Json

/-- The named values of a record: the members of an object, or the items of an array under the names
of the fields they stand for. -/
def record? (fields : List String) : Json → Option (List (String × Json))
  | object members => members.mapM fun (name, value) => name.map (·, value)
  | array items => if items.length ≤ fields.length then some (fields.zip items) else none
  | _ => none

def field? {α : Type} (members : List (String × Json)) (name : String) (read : Json → Option α)
    (absent : Option α) : Option α :=
  match members.filter fun m => m.1 == name with
  | [] => absent
  | [(_, value)] => read value
  | _ => none

def toBool? : Json → Option Bool
  | bool b => some b
  | _ => none

def toText? : Json → Option String
  | string text => text
  | _ => none

def toNat? (bound : Nat) : Json → Option Nat
  | integer (.ofNat n) => if n < bound then some n else none
  | _ => none

def toUInt64? (v : Json) : Option UInt64 := (v.toNat? UInt64.size).map UInt64.ofNat

def toUInt16? (v : Json) : Option UInt16 := (v.toNat? UInt16.size).map UInt16.ofNat

def orNull? {α : Type} (read : Json → Option α) : Json → Option (Option α)
  | null => some none
  | v => (read v).map some

def ofUInt64 (n : UInt64) : Json := .integer n.toNat

def ofOption {α : Type} (write : α → Json) : Option α → Json
  | none => null
  | some a => write a

def ofFields (fields : List (String × Json)) : Json :=
  object (fields.map fun (name, value) => (some name, value))

end SessionPool.Json
