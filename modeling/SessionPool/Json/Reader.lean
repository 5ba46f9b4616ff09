import SessionPool.Json.Token

/-!
# Reading JSON

The tokens of a value are read by a machine that holds the containers it stands in. A text is a
value when the machine ends with nothing open. Nesting has no limit.
-/

namespace SessionPool.Json

/-- A container that is not closed yet; what it holds so far is in reverse. -/
inductive Frame where
  | items (before : List Json)
  | members (before : List (JsonText × Json)) (name : JsonText)

/-- What has to come next. Instead of an `item` or a `member` its container may end, which is still
empty then. -/
inductive Expecting where
  | value (outer : List Frame)
  | item (outer : List Frame)
  | member (outer : List Frame)
  | name (before : List (JsonText × Json)) (outer : List Frame)
  | colon (before : List (JsonText × Json)) (name : JsonText) (outer : List Frame)
  | more (value : Json) (outer : List Frame)

namespace Expecting

def beginValue (outer : List Frame) : Token → Option Expecting
  | .scalar v => some (more v outer)
  | .string s => some (more (Json.string s) outer)
  | .openArray => some (item outer)
  | .openObject => some (member outer)
  | _ => none

def step : Expecting → Token → Option Expecting
  | value outer, t => beginValue outer t
  | item outer, .closeArray => some (more (.array []) outer)
  | item outer, t => beginValue (.items [] :: outer) t
  | member outer, .closeObject => some (more (.object []) outer)
  | member outer, .string s => some (colon [] s outer)
  | member _, _ => none
  | name before outer, .string s => some (colon before s outer)
  | name _ _, _ => none
  | colon before s outer, .colon => some (value (.members before s :: outer))
  | colon _ _ _, _ => none
  | more v (.items before :: outer), .comma => some (value (.items (v :: before) :: outer))
  | more v (.items before :: outer), .closeArray =>
    some (more (.array (v :: before).reverse) outer)
  | more v (.members before s :: outer), .comma => some (name ((s, v) :: before) outer)
  | more v (.members before s :: outer), .closeObject =>
    some (more (.object ((s, v) :: before).reverse) outer)
  | more _ _, _ => none

def run : Expecting → List Token → Option Expecting
  | e, [] => some e
  | e, t :: ts =>
    match e.step t with
    | some e => e.run ts
    | none => none

end Expecting

def parse? (s : String) : Option Json :=
  match (Token.lex? s.toList).bind (Expecting.value []).run with
  | some (.more v []) => some v
  | _ => none

end SessionPool.Json
