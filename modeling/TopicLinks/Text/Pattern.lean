/-!
# Patterns

A pattern is matched against a text by backtracking. Where it can match in several ways, the ways
are in order of preference: a repetition prefers to take more characters, and an optional part
prefers to be there. The first way at the first place where there is one is the match. Groups are
counted from one, in the order of their opening parentheses.
-/

namespace TopicLinks.Text

/-- The characters that can stand at one place. -/
inductive CharClass where
  /-- One character and no other. -/
  | only (c : Char)
  /-- All characters in some ranges. -/
  | within (ranges : List (Char × Char))
  /-- All characters that are in none of some ranges. -/
  | outside (ranges : List (Char × Char))
  /-- All characters but a line feed. -/
  | any
  deriving DecidableEq

namespace CharClass

/-- A character lies in one of some ranges. -/
def inRanges (ranges : List (Char × Char)) (c : Char) : Bool :=
  ranges.any fun range => decide (range.1 ≤ c) && decide (c ≤ range.2)

/-- All characters but some. -/
def noneOf (marks : List Char) : CharClass := .outside (marks.map fun mark => (mark, mark))

/-- A character belongs to a class. -/
def contains : CharClass → Char → Bool
  | .only d, c => c == d
  | .within ranges, c => inRanges ranges c
  | .outside ranges, c => !inRanges ranges c
  | .any, c => c != '\n'

end CharClass

/-- The syntax of patterns. -/
inductive Pattern where
  /-- The start of the text. -/
  | start
  /-- The end of the text. -/
  | finish
  /-- One character of a class. -/
  | one (chars : CharClass)
  /-- Any number of characters of a class, as many as possible. -/
  | many (chars : CharClass)
  /-- A part that is captured. -/
  | group (p : Pattern)
  /-- A part that may be missing. -/
  | optional (p : Pattern)
  /-- One part behind another. -/
  | seq (p q : Pattern)
  deriving DecidableEq

namespace Pattern

instance : Append Pattern := ⟨seq⟩

/-- How many groups a pattern has. -/
def groupCount : Pattern → Nat
  | .group p => p.groupCount + 1
  | .optional p => p.groupCount
  | .seq p q => p.groupCount + q.groupCount
  | _ => 0

/-- A way in which a pattern matches at the beginning of a text. -/
structure Outcome where
  /-- What it matches. -/
  taken : List Char
  /-- What each of its groups captured. A group in a missing part captured nothing. -/
  groups : List (Option (List Char))
  /-- What is left of the text. -/
  rest : List Char
  deriving DecidableEq

namespace Outcome

/-- Nothing is matched, and all of a text is left. -/
def empty (text : List Char) : Outcome := ⟨[], [], text⟩

/-- One more character is matched in front. -/
def cons (c : Char) (o : Outcome) : Outcome := { o with taken := c :: o.taken }

/-- What is matched is captured by a group around it. -/
def capture (o : Outcome) : Outcome := { o with groups := some o.taken :: o.groups }

/-- One outcome, and another one on what it left. -/
def andThen (o next : Outcome) : Outcome where
  taken := o.taken ++ next.taken
  groups := o.groups ++ next.groups
  rest := next.rest

end Outcome

/-- The ways to match characters of a class, the longest first. -/
def runs (chars : CharClass) : List Char → List Outcome
  | [] => [.empty []]
  | c :: rest =>
    if chars.contains c then (runs chars rest).map (.cons c) ++ [.empty (c :: rest)]
    else [.empty (c :: rest)]

/-- The ways in which a pattern matches the beginning of what is left of a text, in order of
preference. At the start nothing stands before it. -/
def outcomes : Pattern → (atStart : Bool) → List Char → List Outcome
  | .start, atStart, text => if atStart then [.empty text] else []
  | .finish, _, text => if text.isEmpty then [.empty text] else []
  | .one _, _, [] => []
  | .one chars, _, c :: rest => if chars.contains c then [⟨[c], [], rest⟩] else []
  | .many chars, _, text => runs chars text
  | .group p, atStart, text => (p.outcomes atStart text).map .capture
  | .optional p, atStart, text =>
    p.outcomes atStart text ++ [⟨[], List.replicate p.groupCount none, text⟩]
  | .seq p q, atStart, text =>
    (p.outcomes atStart text).flatMap fun o =>
      (q.outcomes (atStart && o.taken.isEmpty) o.rest).map o.andThen

/-- The preferred way at the first place that has one. -/
def search (p : Pattern) (atStart : Bool) : List Char → Option Outcome
  | [] => (p.outcomes atStart []).head?
  | c :: rest => (p.outcomes atStart (c :: rest)).head?.or (p.search false rest)

/-- What the groups capture where a pattern matches in a text. -/
def captures? (p : Pattern) (text : List Char) : Option (List (Option (List Char))) :=
  (p.search true text).map (·.groups)

end Pattern

/-- What the group of a number captured, if it did. -/
def capture? (groups : List (Option (List Char))) (number : Nat) : Option (List Char) :=
  (groups[number - 1]?).join

/-! ### How patterns are written -/

/-- A character, with a backslash before it if it is one of some special characters. -/
def escaped (special : List Char) (c : Char) : List Char :=
  if special.contains c then ['\\', c] else [c]

namespace CharClass

/-- The characters that have a meaning of their own outside brackets. -/
def special : List Char := "\\.+*?()|[]^$\x7b\x7d".toList

/-- The characters that have a meaning of their own between brackets. -/
def specialInBrackets : List Char := "\\[]^-".toList

/-- Ranges between brackets. A range of one character is written as this character. -/
def writtenRanges (ranges : List (Char × Char)) : List Char :=
  ranges.flatMap fun range =>
    escaped specialInBrackets range.1 ++
      if range.1 = range.2 then [] else '-' :: escaped specialInBrackets range.2

/-- A class as it is written. -/
def written : CharClass → List Char
  | .only c => escaped special c
  | .within ranges => '[' :: writtenRanges ranges ++ [']']
  | .outside ranges => '[' :: '^' :: writtenRanges ranges ++ [']']
  | .any => ['.']

end CharClass

/-- A pattern as it is written. -/
def Pattern.written : Pattern → List Char
  | .start => ['^']
  | .finish => ['$']
  | .one chars => chars.written
  | .many chars => chars.written ++ ['*']
  | .group p => '(' :: p.written ++ [')']
  | .optional p => "(?:".toList ++ p.written ++ ")?".toList
  | .seq p q => p.written ++ q.written

end TopicLinks.Text
