import SessionPool.Text.Numeral

/-!
# JSON values and their compact text

Settings travel as JSON. A value keeps the order of its members and repeated names; whole numbers
are exact, and other numbers keep their spelling. A string literal denotes a text unless an escape
in it names half of a surrogate pair; such a literal is kept as `none`.
-/

namespace SessionPool

abbrev JsonText := Option String

/-- An `integer` is written with digits alone, or with `-` before a number other than zero; any
other number is `real` and kept as written. -/
inductive Json where
  | null
  | bool (b : Bool)
  | integer (i : Int)
  | real (written : List Char)
  | string (text : JsonText)
  | array (items : List Json)
  | object (members : List (JsonText × Json))
  deriving Inhabited

namespace Json

def ofString (s : String) : Json := .string (some s)

def shortEscapes : List (Char × Char) :=
  [('"', '"'), ('\\', '\\'), ('b', '\x08'), ('f', '\x0c'), ('n', '\n'), ('r', '\r'), ('t', '\t')]

def escapeChar (c : Char) : List Char :=
  match shortEscapes.find? fun e => e.2 = c with
  | some (letter, _) => ['\\', letter]
  | none =>
    if c.toNat < 0x20 then
      ['\\', 'u', '0', '0', Nat.digitChar (c.toNat / 16), Nat.digitChar (c.toNat % 16)]
    else [c]

def renderText : JsonText → List Char
  | some s => '"' :: s.toList.flatMap escapeChar ++ ['"']
  | none => "\"\\ud800\"".toList

mutual
def render : Json → List Char
  | null => "null".toList
  | bool true => "true".toList
  | bool false => "false".toList
  | integer i => Numeral.ofInt i
  | real written => written
  | string text => renderText text
  | array items => '[' :: renderItems items ++ [']']
  | object members => '\x7b' :: renderMembers members ++ ['\x7d']

def renderItems : List Json → List Char
  | [] => []
  | [v] => render v
  | v :: vs => render v ++ ',' :: renderItems vs

def renderMembers : List (JsonText × Json) → List Char
  | [] => []
  | [(name, v)] => renderText name ++ ':' :: render v
  | (name, v) :: ms => renderText name ++ ':' :: render v ++ ',' :: renderMembers ms
end

end Json

end SessionPool
