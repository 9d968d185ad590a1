import TopicLinks.Toml.Value

/-!
# Building TOML tables

A table is defined once. A dotted key may add to tables that dotted keys made, and a
header may fill in a table that was only named on the way in longer headers; everything
else that names a key again is refused.
-/

namespace TopicLinks.Toml

/-- The value of a key. -/
def lookup? (entries : Entries) (key : String) : Option Value :=
  (entries.find? (·.1 == key)).map (·.2)

/-- Replace the value of a key in its place. -/
def replace (entries : Entries) (key : String) (value : Value) : Entries :=
  entries.map fun entry => if entry.1 == key then (key, value) else entry

variable {β : Type}

/-- Change the table at the end of a path. Tables that do not exist are made on the way.
A dotted path does not lead through tables with a header of their own; no path leads
through values or tables between braces; and an array of tables stands for its last
element. -/
def descend (isDotted : Bool) (change : TableOrigin → Entries → Option (Entries × β)) :
    List String → TableOrigin → Entries → Option (Entries × β)
  | [], origin, entries => change origin entries
  | key :: path, _, entries =>
    match lookup? entries key with
    | none => do
      let origin := if isDotted then TableOrigin.dotted else .path
      let (below, result) ← descend isDotted change path origin []
      some (entries ++ [(key, .table origin below)], result)
    | some (.table origin below) =>
      if origin = .braces ∨ (isDotted ∧ origin = .header) then none
      else do
        let (below, result) ← descend isDotted change path origin below
        some (replace entries key (.table origin below), result)
    | some (.tables elements) =>
      match elements.getLast? with
      | none => none
      | some last => do
        let (last, result) ← descend isDotted change path .header last
        some (replace entries key (.tables (elements.dropLast ++ [last])), result)
    | some _ => none

/-- Add an entry at the end of a table, unless its key is taken. -/
def addEntry (key : String) (value : Value) (entries : Entries) : Option Entries :=
  if (lookup? entries key).isSome then none else some (entries ++ [(key, value)])

/-- Add an entry under a dotted key. The table that a dotted key adds to must be one that
dotted keys made. -/
def addDotted (path : List String) (key : String) (value : Value) (entries : Entries) :
    Option Entries :=
  (descend true (fun origin entries =>
    if !path.isEmpty && decide (origin ≠ .dotted) then none
    else (addEntry key value entries).map (·, ())) path .header entries).map (·.1)

/-- Open the table of a header. A table that was only named on the way in headers is
taken out of its place, with its entries; it comes back when it is closed. -/
def openTable (path : List String) (key : String) (entries : Entries) :
    Option (Entries × Entries) :=
  descend false (fun _ entries =>
    match lookup? entries key with
    | none => some (entries, [])
    | some (.table .path below) => some (entries.filter (·.1 != key), below)
    | some _ => none) path .header entries

/-- Close the table of a header: it comes after the other entries. -/
def closeTable (path : List String) (key : String) (table entries : Entries) : Option Entries :=
  (descend false (fun _ entries =>
    (addEntry key (.table .header table) entries).map (·, ())) path .header entries).map (·.1)

/-- Open a new element of an array of tables. The array is made if there is none. -/
def openElement (path : List String) (key : String) (entries : Entries) : Option Entries :=
  (descend false (fun _ entries =>
    match lookup? entries key with
    | none => some (entries ++ [(key, .tables [])], ())
    | some (.tables _) => some (entries, ())
    | some _ => none) path .header entries).map (·.1)

/-- Close an element of an array of tables: it comes after the other elements. -/
def closeElement (path : List String) (key : String) (table entries : Entries) :
    Option Entries :=
  (descend false (fun _ entries =>
    match lookup? entries key with
    | some (.tables elements) => some (replace entries key (.tables (elements ++ [table])), ())
    | _ => none) path .header entries).map (·.1)

end TopicLinks.Toml
