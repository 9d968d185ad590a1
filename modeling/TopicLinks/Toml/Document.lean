import TopicLinks.Toml.Reader

/-!
# TOML documents

A document is read line by line into its top-level entries. The lines before the first
header belong to the root; the lines after a header belong to its table until the next
header. A table that was named in longer headers before its own moves to the end.
-/

namespace TopicLinks.Toml

/-- The header whose lines are being read. -/
inductive Header where
  /-- No header: the root itself. -/
  | root
  /-- The header of a table. -/
  | table (path : List String) (key : String)
  /-- The header of an element of an array of tables. -/
  | element (path : List String) (key : String)

/-- A document that was read in part. -/
structure Draft where
  /-- The entries of the root, without those of the open table. -/
  root : Entries
  /-- The header of the open table. -/
  header : Header
  /-- The entries of the open table. -/
  current : Entries

namespace Draft

/-- A document before its first line. -/
def empty : Draft := ⟨[], .root, []⟩

/-- The root after the open table is closed. -/
def close (draft : Draft) : Option Entries :=
  match draft.header with
  | .root => some draft.current
  | .table path key => closeTable path key draft.current draft.root
  | .element path key => closeElement path key draft.current draft.root

/-- Close the open table and open the table of a header. -/
def openHeader (draft : Draft) (path : List String) (key : String) : Option Draft := do
  let root ← draft.close
  let (root, current) ← openTable path key root
  some ⟨root, .table path key, current⟩

/-- Close the open table and open an element of an array of tables. -/
def openArray (draft : Draft) (path : List String) (key : String) : Option Draft := do
  let root ← draft.close
  let root ← openElement path key root
  some ⟨root, .element path key, []⟩

/-- Add an entry to the open table. -/
def add (draft : Draft) (path : List String) (key : String) (value : Value) : Option Draft := do
  let current ← addDotted path key value draft.current
  some { draft with current }

end Draft

/-- Read the header of an array of tables, after its opening brackets. -/
def arrayHeader? (draft : Draft) (text : List Char) : Option (Draft × List Char) := do
  let ((path, key), rest) ← key? text
  let rest ← skip? ']' rest
  let rest ← skip? ']' rest
  let rest ← endOfLine? rest
  let draft ← draft.openArray path key
  some (draft, rest)

/-- Read the header of a table, after its opening bracket. -/
def tableHeader? (draft : Draft) (text : List Char) : Option (Draft × List Char) := do
  let ((path, key), rest) ← key? text
  let rest ← skip? ']' rest
  let rest ← endOfLine? rest
  let draft ← draft.openHeader path key
  some (draft, rest)

/-- Read the line of an entry. -/
def entryLine? (draft : Draft) (text : List Char) : Option (Draft × List Char) := do
  let (((path, key), value), rest) ← entry? text
  let rest ← endOfLine? rest
  let draft ← draft.add path key value
  some (draft, rest)

/-- Read one line that is not at the end of the text. -/
def line? (draft : Draft) (text : List Char) : Option (Draft × List Char) :=
  match text with
  | '[' :: '[' :: rest => arrayHeader? draft rest
  | '[' :: rest => tableHeader? draft rest
  | '#' :: _ => (endOfLine? text).map (draft, ·)
  | '\n' :: rest => some (draft, rest)
  | '\r' :: rest => (lineFeed? ('\r' :: rest)).map (draft, ·)
  | text => entryLine? draft text

/-- Read lines until the text ends. Each line takes one unit of fuel. -/
def lines? : Nat → Draft → List Char → Option Draft
  | 0, _, _ => none
  | fuel + 1, draft, text =>
    match skipBlanks text with
    | [] => some draft
    | text => do
      let (draft, rest) ← line? draft text
      lines? fuel draft rest

/-- Skip a byte order mark at the start of a text. -/
def dropMark : List Char → List Char
  | c :: rest => if c.toNat = 0xFEFF then rest else c :: rest
  | [] => []

/-- The top-level entries of a document, in document order. -/
def parse? (text : String) : Option Entries := do
  let text := dropMark text.toList
  let draft ← lines? (text.length + 1) .empty text
  draft.close

end TopicLinks.Toml
