import TopicLinks.Source

/-!
# Problems

A problem is a diagnostic together with the ways to solve it. The values here say what
is wrong and where; nothing in them prints or stops anything.
-/

namespace TopicLinks

/-- How serious a diagnostic is. -/
inductive Severity where
  /-- The build fails. -/
  | error
  /-- A suggestion without an effect on the output. -/
  | hint
  /-- Something worth knowing. -/
  | information
  /-- Reported, but not fatal. -/
  | warning
  deriving DecidableEq

namespace Severity

/-- The names of the severities, in alphabetical order. -/
def names : List (String × Severity) :=
  [("error", .error), ("hint", .hint), ("information", .information), ("warning", .warning)]

/-- The name of a severity. -/
def name : Severity → String
  | .error => "error"
  | .hint => "hint"
  | .information => "information"
  | .warning => "warning"

/-- The severity with a name. Names are lower-case and have no blanks around them. -/
def ofName? (name : String) : Option Severity :=
  (names.find? (·.1 == name)).map (·.2)

/-- The position on the scale of seriousness, from 0 for a hint to 3 for an error. -/
def rank : Severity → Nat
  | .error => 3
  | .hint => 0
  | .information => 1
  | .warning => 2

/-- One severity is at most as serious as another. -/
def le (a b : Severity) : Bool := a.rank ≤ b.rank

/-- Severities in ascending order of seriousness. Equal ones keep their order. -/
def sort (severities : List Severity) : List Severity := severities.mergeSort le

/-- What is said about a name that no severity has. -/
def unknownName (name : String) : String :=
  "unknown variant `" ++ name ++ "`, expected one of " ++
    ", ".intercalate (names.map (fun entry => "`" ++ entry.1 ++ "`"))

end Severity

/-- Something to know beside a diagnostic, possibly about another place. -/
structure Note where
  /-- What the note says. -/
  message : String
  /-- The range it points at. -/
  range : Option SourceRange
  /-- The file it points at. -/
  source : Option String
  deriving DecidableEq

/-- What is wrong, and where. -/
structure Diagnostic where
  /-- How serious it is. -/
  severity : Severity
  /-- The dotted name of the kind of problem. -/
  identifier : String
  /-- One line that says what is wrong. -/
  summary : String
  /-- A longer explanation. -/
  explanation : Option String := none
  /-- Things to know beside it, in order. -/
  notes : List Note := []
  /-- The range in the file. -/
  range : Option SourceRange := none
  /-- The file. -/
  source : Option String := none
  deriving DecidableEq

namespace Diagnostic

/-- Set the explanation; the last one set stays. -/
def withExplanation (d : Diagnostic) (explanation : String) : Diagnostic :=
  { d with explanation := some explanation }

/-- Add a note after the others. -/
def withNote (d : Diagnostic) (note : Note) : Diagnostic := { d with notes := d.notes ++ [note] }

end Diagnostic

/-- One edit: a range and the text to put there. -/
structure Replacement where
  /-- The range to replace. -/
  range : SourceRange
  /-- The new text. -/
  text : String
  deriving DecidableEq

/-- A way to solve a problem. -/
structure Solution where
  /-- One line that says what is done. -/
  summary : String
  /-- The edits, in order. -/
  replacements : List Replacement
  deriving DecidableEq

/-- A diagnostic and the ways to solve it. -/
structure Problem where
  /-- What is wrong. -/
  diagnostic : Diagnostic
  /-- The solutions, the preferred one first. -/
  solutions : List Solution := []
  deriving DecidableEq

/-- Offer one more solution. -/
def Problem.withSolution (p : Problem) (solution : Solution) : Problem :=
  { p with solutions := p.solutions ++ [solution] }

end TopicLinks
