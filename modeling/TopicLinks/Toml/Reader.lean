import TopicLinks.Toml.Moment
import TopicLinks.Toml.Quoted
import TopicLinks.Toml.Tables

/-!
# Reading TOML values

Keys are bare or quoted and may be dotted. Values are read by their first character.
Arrays and tables between braces may stand in each other to a fixed depth.
-/

namespace TopicLinks.Toml

/-- Nesting must stay below this depth, and so must the parts of a dotted key. -/
def depthLimit : Nat := 80

/-- The characters of a bare key. -/
def isBareChar (c : Char) : Bool := c.isAlphanum || c == '_' || c == '-'

/-- One part of a key. -/
def simpleKey? : List Char → Option (String × List Char)
  | '\"' :: rest => (basic? rest).map fun (key, rest) => (.ofList key, rest)
  | '\'' :: rest => (literal? rest).map fun (key, rest) => (.ofList key, rest)
  | text =>
    if (text.takeWhile isBareChar).isEmpty then none
    else some (.ofList (text.takeWhile isBareChar), text.dropWhile isBareChar)

/-- The parts of a dotted key, at most as many as the fuel allows. Blanks around the parts
are skipped. -/
def keyParts? : Nat → List Char → Option (List String × List Char)
  | 0, _ => none
  | fuel + 1, text => do
    let (part, rest) ← simpleKey? (skipBlanks text)
    match skipBlanks rest with
    | '.' :: rest => do
      let (parts, rest) ← keyParts? fuel rest
      some (part :: parts, rest)
    | rest => some ([part], rest)

/-- A dotted key: the path and the last part. -/
def key? (text : List Char) : Option ((List String × String) × List Char) := do
  let (parts, rest) ← keyParts? (depthLimit - 1) text
  some ((parts.dropLast, parts.getLastD ""), rest)

/-- A value that holds no other values. -/
def scalar? (text : List Char) : Option (Value × List Char) :=
  match text with
  | '\"' :: _ => (string? text).map fun (text, rest) => (.text (.ofList text), rest)
  | '\'' :: _ => (string? text).map fun (text, rest) => (.text (.ofList text), rest)
  | 't' :: 'r' :: 'u' :: 'e' :: rest => some (.boolean true, rest)
  | 'f' :: 'a' :: 'l' :: 's' :: 'e' :: rest => some (.boolean false, rest)
  | _ =>
    if startsDate text then (dateTime? text).map (.moment, ·)
    else if startsTime text then (time? text).map (.moment, ·)
    else (number? text).map (.number, ·)

mutual

/-- A value. Reading it takes less fuel than twice the length of the text. -/
def value? : Nat → Nat → List Char → Option (Value × List Char)
  | 0, _, _ => none
  | fuel + 1, depth, text =>
    match text with
    | '[' :: rest =>
      if depth + 1 < depthLimit then
        (items? fuel (depth + 1) rest).map fun (items, rest) => (.array items, rest)
      else none
    | '{' :: rest =>
      if depth + 1 < depthLimit then
        match skipBlanks rest with
        | '}' :: rest => some (.table .braces [], rest)
        | rest =>
          (fields? fuel (depth + 1) [] rest).map fun (entries, rest) =>
            (.table .braces entries, rest)
      else none
    | text => scalar? text

/-- The items of an array up to its closing bracket. A comma may follow the last one. -/
def items? : Nat → Nat → List Char → Option (List Value × List Char)
  | 0, _, _ => none
  | fuel + 1, depth, text => do
    match ← skipFiller false text with
    | ']' :: rest => some ([], rest)
    | text => do
      let (item, rest) ← value? fuel depth text
      match ← skipFiller false rest with
      | ']' :: rest => some ([item], rest)
      | ',' :: rest => do
        let (items, rest) ← items? fuel depth rest
        some (item :: items, rest)
      | _ => none

/-- The entries of a table up to its closing brace, all on one line. -/
def fields? : Nat → Nat → Entries → List Char → Option (Entries × List Char)
  | 0, _, _, _ => none
  | fuel + 1, depth, entries, text => do
    let ((path, key), rest) ← key? text
    let rest ← skip? '=' rest
    let (value, rest) ← value? fuel depth (skipBlanks rest)
    let entries ← addDotted path key value entries
    match skipBlanks rest with
    | '}' :: rest => some (entries, rest)
    | ',' :: rest => fields? fuel depth entries rest
    | _ => none

end

/-- An entry: a key, an equals sign, and a value. -/
def entry? (text : List Char) : Option (((List String × String) × Value) × List Char) := do
  let (key, rest) ← key? text
  let rest ← skip? '=' rest
  let (value, rest) ← value? (2 * rest.length + 2) 0 (skipBlanks rest)
  some ((key, value), rest)

end TopicLinks.Toml
