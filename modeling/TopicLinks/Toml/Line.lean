/-!
# Blanks, comments and lines of TOML

Inside a line only spaces and tabs separate. A comment runs to the end of its line and
holds no control characters other than tabs. A line ends with a line feed, with or
without a carriage return before it, or with the text.
-/

namespace TopicLinks.Toml

/-- Spaces and tabs. -/
def isBlank (c : Char) : Bool := c == ' ' || c == '\t'

/-- The characters of comments: tabs, printable ASCII, and everything past ASCII. -/
def isCommentChar (c : Char) : Bool :=
  c == '\t' || (0x20 ≤ c.toNat && c.toNat ≤ 0x7E) || 0x80 ≤ c.toNat

/-- Skip spaces and tabs. -/
def skipBlanks (text : List Char) : List Char := text.dropWhile isBlank

/-- Skip a comment up to the end of its line. -/
def skipComment : List Char → List Char
  | '#' :: rest => rest.dropWhile isCommentChar
  | text => text

/-- Skip one line end. -/
def lineFeed? : List Char → Option (List Char)
  | '\n' :: rest => some rest
  | '\r' :: '\n' :: rest => some rest
  | _ => none

/-- Skip one line end if there is one. -/
def dropLineFeed (text : List Char) : List Char := (lineFeed? text).getD text

/-- Skip what may follow on a line: blanks, a comment, and the end of the line. -/
def endOfLine? (text : List Char) : Option (List Char) :=
  match skipComment (skipBlanks text) with
  | [] => some []
  | rest => lineFeed? rest

/-- Skip blanks, line ends and whole comments, as between the items of an array. -/
def skipFiller (inComment : Bool) : List Char → Option (List Char)
  | [] => if inComment then none else some []
  | '\r' :: '\n' :: rest => skipFiller false rest
  | c :: rest =>
    if c == '\n' then skipFiller false rest
    else if inComment then
      if isCommentChar c then skipFiller true rest else none
    else if isBlank c then skipFiller false rest
    else if c == '#' then skipFiller true rest
    else some (c :: rest)

end TopicLinks.Toml
