import TopicLinks.Binary64.Shortest
import TopicLinks.Text.Quoted

/-!
# JSON values

Problems, links and locations have a form in JSON. A number is an integer of 64 bits, with
or without a sign, or a number in double precision; only integers are read.
-/

namespace TopicLinks

/-- A JSON value. -/
inductive JsonValue where
  /-- No value. -/
  | null
  /-- A boolean. -/
  | boolean (value : Bool)
  /-- An integer. -/
  | integer (value : Int)
  /-- A number in double precision. -/
  | floating (negative : Bool) (size : Binary64)
  /-- A string. -/
  | text (text : String)
  /-- An array. -/
  | array (items : List JsonValue)
  /-- An object; the order of its fields carries no meaning. -/
  | object (fields : List (String × JsonValue))

namespace JsonValue

/-- The form of an optional value: nothing becomes null. -/
def optional {α : Type} (form : α → JsonValue) (value : Option α) : JsonValue :=
  value.elim .null form

/-- The form of an optional text. -/
def text? (text : Option String) : JsonValue := optional .text text

/-- The value of a field of an object. -/
def field? (fields : List (String × JsonValue)) (name : String) : Option JsonValue :=
  (fields.find? (·.1 == name)).map (·.2)

/-- What a value is called when it is not what was expected. -/
def described : JsonValue → String
  | .null => "null"
  | .boolean value => "boolean `" ++ toString value ++ "`"
  | .integer value => "integer `" ++ toString value ++ "`"
  | .floating negative size =>
    "floating point `" ++ (if negative then "-" else "") ++ size.text ++ "`"
  | .text content => "string " ++ Text.quoted content
  | .array _ => "sequence"
  | .object _ => "map"

end JsonValue

end TopicLinks
