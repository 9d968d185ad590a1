import TopicLinks.Assoc
import TopicLinks.Identity

/-!
# Interning tables

A table maps addresses to cells, bundle by bundle. The places of one bundle stand on
one shelf, and a shelf goes when its last entry goes. A table never keeps a cell in
use by itself: its entries are removed when the last handle of their cell is dropped.
-/

namespace TopicLinks

/-- The number of the storage that all handles of one address in one table share. -/
abbrev CellId := Nat

/-- A table of interned addresses. -/
structure Table where
  /-- The shelves: for each bundle, its places and their cells. -/
  shelves : List (String × List (Place × CellId))
  deriving DecidableEq

namespace Table

/-- The table without entries. -/
def empty : Table := ⟨[]⟩

/-- The entries on the shelf of a bundle. -/
def shelf (table : Table) (bundle : String) : List (Place × CellId) :=
  (Assoc.get? table.shelves bundle).getD []

/-- The cell of an address. -/
def find? (table : Table) (address : Address) : Option CellId :=
  Assoc.get? (table.shelf address.bundle) address.place

/-- Enter a cell for an address. -/
def insert (table : Table) (address : Address) (cell : CellId) : Table :=
  ⟨Assoc.set table.shelves address.bundle
    (Assoc.set (table.shelf address.bundle) address.place cell)⟩

/-- Remove the entry of an address if it still holds the given cell, and then the
shelf if nothing is left on it. -/
def evict (table : Table) (address : Address) (cell : CellId) : Table :=
  match Assoc.get? table.shelves address.bundle with
  | none => table
  | some entries =>
    let kept :=
      if Assoc.get? entries address.place = some cell then Assoc.erase entries address.place
      else entries
    if kept.isEmpty then ⟨Assoc.erase table.shelves address.bundle⟩
    else ⟨Assoc.set table.shelves address.bundle kept⟩

/-- All cells entered in a table. -/
def cells (table : Table) : List CellId :=
  table.shelves.flatMap (fun shelf => shelf.2.map (·.2))

end Table

end TopicLinks
