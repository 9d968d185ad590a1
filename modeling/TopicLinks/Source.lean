/-!
# Places in source files

Positions, ranges and locations point into the files that pages were read from. Lines
and columns are 32-bit numbers, and moving a range never wraps around.
-/

namespace TopicLinks

/-- Add two 32-bit numbers; a sum that does not fit becomes the greatest one. -/
def saturatingAdd (a b : UInt32) : UInt32 :=
  .ofNat (min (a.toNat + b.toNat) (UInt32.size - 1))

/-- A line and a column in a file, both counted from one. -/
structure Position where
  /-- The line. -/
  line : UInt32
  /-- The column. -/
  column : UInt32
  deriving DecidableEq

/-- Positions are ordered by column first, and by line in one column. -/
def Position.le (p q : Position) : Bool :=
  p.column < q.column || (p.column == q.column && p.line ≤ q.line)

/-- The start of a doc comment in its file, counted from zero. -/
structure Origin where
  /-- The line on which the comment starts. -/
  line : UInt32
  /-- The character at which the comment starts. -/
  character : UInt32
  deriving DecidableEq

/-- A position that was relative to a doc comment, in the file of that comment. -/
def Position.offsetBy (p : Position) (origin : Origin) : Position where
  line := saturatingAdd p.line origin.line
  column := saturatingAdd p.column origin.character

/-- The text between two positions of one file. -/
structure SourceRange where
  /-- The first position inside the range. -/
  start : Position
  /-- The first position past the range. -/
  stop : Position
  deriving DecidableEq

/-- A range that was relative to a doc comment, in the file of that comment. -/
def SourceRange.offsetBy (range : SourceRange) (origin : Origin) : SourceRange where
  start := range.start.offsetBy origin
  stop := range.stop.offsetBy origin

/-- A file, and a range in it if one is known. -/
structure SourceLocation where
  /-- The path of the file. -/
  file : String
  /-- The range in the file. -/
  range : Option SourceRange
  deriving DecidableEq

end TopicLinks
