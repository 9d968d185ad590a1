import TopicLinks.JsonValue
import TopicLinks.Problem
import TopicLinks.Resource
import TopicLinks.Topic

/-!
# Forms in JSON

How links, topics, resources and problems are written in JSON, and how source locations
are read from it.
-/

namespace TopicLinks

open JsonValue

/-- A 32-bit number as an integer. -/
def JsonValue.word (n : UInt32) : JsonValue := .integer n.toNat

/-- The form of a position. -/
def Position.form (p : Position) : JsonValue :=
  .object [("line", .word p.line), ("column", .word p.column)]

/-- The form of a range. -/
def SourceRange.form (range : SourceRange) : JsonValue :=
  .object [("start", range.start.form), ("end", range.stop.form)]

/-- The form of a link: its parts, and the text as written. -/
def AuthoredLink.form (link : AuthoredLink) : JsonValue :=
  .object [("fragment", text? link.fragment), ("host", text? link.host),
    ("path", .text link.path), ("raw", .text link.raw), ("scheme", text? link.scheme)]

/-- The form of an identity: its absolute string. -/
def Identity.form (identity : Identity) : JsonValue := .text identity.absolute

/-- The form of a topic reference tells whether it is resolved. -/
def Topic.form : Topic → JsonValue
  | .resolved identity => .object [("Resolved", identity.form)]
  | .unresolved link => .object [("Unresolved", link.form)]

/-- The form of a resource. -/
def Resource.form (resource : Resource) : JsonValue :=
  .object [("bundle_id", .text resource.bundle), ("path", .text resource.path)]

/-- The form of a note. -/
def Note.form (note : Note) : JsonValue :=
  .object [("message", .text note.message), ("range", optional SourceRange.form note.range),
    ("source", text? note.source)]

/-- The form of a diagnostic. -/
def Diagnostic.form (d : Diagnostic) : JsonValue :=
  .object [("explanation", text? d.explanation), ("identifier", .text d.identifier),
    ("notes", .array (d.notes.map Note.form)), ("range", optional SourceRange.form d.range),
    ("severity", .text d.severity.name), ("source", text? d.source), ("summary", .text d.summary)]

/-- The form of an edit. -/
def Replacement.form (r : Replacement) : JsonValue :=
  .object [("range", r.range.form), ("replacement", .text r.text)]

/-- The form of a solution. -/
def Solution.form (s : Solution) : JsonValue :=
  .object [("replacements", .array (s.replacements.map Replacement.form)),
    ("summary", .text s.summary)]

/-- The form of a problem. -/
def Problem.form (p : Problem) : JsonValue :=
  .object [("diagnostic", p.diagnostic.form),
    ("possible_solutions", .array (p.solutions.map Solution.form))]

/-- The severity of a name, or what is said about a name that no severity has. -/
def Severity.named (name : String) : Except String Severity :=
  match Severity.ofName? name with
  | some severity => .ok severity
  | none => .error (Severity.unknownName name)

/-- Read a severity, or say why the value is none. It is a name, or an object whose only
field has that name and no value. -/
def Severity.ofForm : JsonValue → Except String Severity
  | .text name => Severity.named name
  | .object [(name, content)] =>
    match Severity.named name, content with
    | .error e, _ => .error e
    | .ok severity, .null => .ok severity
    | .ok _, content => .error ("invalid type: " ++ content.described ++ ", expected unit")
  | .object _ => .error "invalid value: map, expected map with a single key"
  | value => .error ("invalid type: " ++ value.described ++ ", expected string or map")

/-- Read a 32-bit number. -/
def JsonValue.word? : JsonValue → Option UInt32
  | .integer n => if 0 ≤ n ∧ n < UInt32.size then some (.ofNat n.toNat) else none
  | _ => none

/-- The two fields of an object, or the two items of an array in the same order. -/
def JsonValue.both? (first second : String) : JsonValue → Option (JsonValue × JsonValue)
  | .object fields => do
    let a ← field? fields first
    let b ← field? fields second
    some (a, b)
  | .array [a, b] => some (a, b)
  | _ => none

/-- Read a position. -/
def Position.ofForm? (value : JsonValue) : Option Position := do
  let (column, line) ← value.both? "column" "line"
  some ⟨← line.word?, ← column.word?⟩

/-- Read a range. -/
def SourceRange.ofForm? (value : JsonValue) : Option SourceRange := do
  let (stop, start) ← value.both? "end" "start"
  some ⟨← Position.ofForm? start, ← Position.ofForm? stop⟩

/-- Read a range that may be null. -/
def SourceRange.ofFormIfAny? : JsonValue → Option (Option SourceRange)
  | .null => some none
  | value => (SourceRange.ofForm? value).map some

/-- Read a location: an object with a file and perhaps a range, or an array of both. -/
def SourceLocation.ofForm? : JsonValue → Option SourceLocation
  | .object fields =>
    match field? fields "file" with
    | some (.text file) => do
      some ⟨file, ← SourceRange.ofFormIfAny? ((field? fields "range").getD .null)⟩
    | _ => none
  | .array [.text file, range] => do some ⟨file, ← SourceRange.ofFormIfAny? range⟩
  | _ => none

end TopicLinks
