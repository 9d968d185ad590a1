import TopicLinks.Pool.Table

/-!
# Pools and handles in use

A session holds named pools and named handles. Several names may refer to one pool, so
a name stands for a table. A handle refers to a cell; handles for one address made
through one table share their cell as long as any of them is held. Dropping the last
handle of a cell removes exactly its entry, and a table goes with its last name.
-/

namespace TopicLinks

/-- The number of a table. -/
abbrev TableId := Nat

/-- An identity in use. -/
structure Handle where
  /-- What the handle names, and in which languages. -/
  identity : Identity
  /-- The storage it shares with the other handles of its address. -/
  cell : CellId
  /-- The table that made the storage. -/
  table : TableId
  deriving DecidableEq

/-- Two handles share storage when they refer to the same cell. -/
def Handle.SharesStorage (a b : Handle) : Prop := a.cell = b.cell

instance (a b : Handle) : Decidable (a.SharesStorage b) :=
  inferInstanceAs (Decidable (a.cell = b.cell))

/-- Two handles are equal when they share storage, and otherwise when they name the same
topic: storages of different tables are compared by what they hold. -/
def Handle.Equals (a b : Handle) : Prop := a.SharesStorage b ∨ a.identity.SameTopic b.identity

instance (a b : Handle) : Decidable (a.Equals b) :=
  inferInstanceAs (Decidable (a.SharesStorage b ∨ a.identity.SameTopic b.identity))

/-- All pools and handles in use. -/
structure Session where
  /-- The names of the pools and the tables they stand for. -/
  pools : List (String × TableId)
  /-- The tables that some pool name stands for. -/
  tables : List (TableId × Table)
  /-- The handles in use, by name. -/
  handles : List (String × Handle)
  /-- The number of the next table. -/
  nextTable : TableId
  /-- The number of the next cell. -/
  nextCell : CellId
  deriving DecidableEq

/-- Why a command changed nothing. -/
inductive CommandError where
  /-- No pool has the name. -/
  | unknownPool
  /-- No handle has the name. -/
  | unknownHandle
  /-- An identity was asked for in no language at all. -/
  | noLanguage
  deriving DecidableEq

/-- The text of an error. -/
def CommandError.message : CommandError → String
  | .unknownPool => "unknown pool"
  | .unknownHandle => "unknown handle"
  | .noLanguage => "reference identity needs at least one source language"

/-- How a new handle is made from what is there. -/
inductive Recipe where
  /-- Intern a bundle, a path and a fragment as given, in some languages. -/
  | intern (pool bundle path : String) (fragment : Option String) (languages : List Language)
  /-- Replace or clear the fragment of a handle. -/
  | withFragment (pool source : String) (fragment : Option String)
  /-- Add languages to a handle. -/
  | addLanguages (pool source : String) (languages : List Language)
  /-- Append a path as given to a handle. -/
  | append (pool source path : String)
  /-- Append the path and the fragment of a link to a handle. -/
  | appendLink (pool source : String) (link : AuthoredLink)
  /-- Use the same handle again. -/
  | copy (source : String)

/-- What can be done in a session. -/
inductive Command where
  /-- Make a handle and store it under a name, in the place of the handle that had it. -/
  | make (name : String) (recipe : Recipe)
  /-- Drop the handle of a name, if there is one. -/
  | drop (name : String)
  /-- Let a name stand for a new and empty pool. -/
  | newPool (name : String)
  /-- Let a name stand for the pool of another name. -/
  | sharePool (name source : String)
  /-- Drop a pool name, if there is one. -/
  | dropPool (name : String)

namespace Session

/-- The session with one empty pool and no handles. -/
def initial (pool : String) : Session where
  pools := [(pool, 0)]
  tables := [(0, .empty)]
  handles := []
  nextTable := 1
  nextCell := 0

/-- The handle of a name. -/
def handle? (s : Session) (name : String) : Option Handle := Assoc.get? s.handles name

/-- The number of the table that a pool name stands for. -/
def pool? (s : Session) (name : String) : Option TableId := Assoc.get? s.pools name

/-- The contents of a table that some pool name stands for. -/
def table? (s : Session) (table : TableId) : Option Table := Assoc.get? s.tables table

/-- Some handle refers to the cell. -/
def holds (s : Session) (cell : CellId) : Bool := s.handles.any (fun entry => entry.2.cell == cell)

/-- The cell in use for an address in a table. An entry whose cell nobody holds does
not count. -/
def liveCell? (s : Session) (table : TableId) (address : Address) : Option CellId :=
  ((s.table? table).bind (·.find? address)).filter s.holds

/-- A handle for an identity through a table: the cell in use, or a new one. -/
def obtain (s : Session) (table : TableId) (identity : Identity) : Handle × Session :=
  match s.liveCell? table identity.address with
  | some cell => (⟨identity, cell, table⟩, s)
  | none =>
    let entered := ((s.table? table).getD .empty).insert identity.address s.nextCell
    (⟨identity, s.nextCell, table⟩,
      { s with tables := Assoc.set s.tables table entered, nextCell := s.nextCell + 1 })

/-- Remove the entry of a dropped handle, unless another handle refers to its cell. -/
def release (s : Session) (dropped : Handle) : Session :=
  if s.holds dropped.cell then s
  else
    match s.table? dropped.table with
    | none => s
    | some table =>
      { s with
        tables :=
          Assoc.set s.tables dropped.table (table.evict dropped.identity.address dropped.cell) }

/-- Drop the handle of a name. -/
def drop (s : Session) (name : String) : Session :=
  match s.handle? name with
  | none => s
  | some old => release { s with handles := Assoc.erase s.handles name } old

/-- Store a handle under a name; the handle that had the name is dropped afterwards. -/
def store (s : Session) (name : String) (handle : Handle) : Session :=
  let stored := { s with handles := Assoc.set s.handles name handle }
  match s.handle? name with
  | none => stored
  | some old => stored.release old

/-- Remove the tables that no pool name stands for. -/
def forgetTables (s : Session) : Session :=
  { s with tables := s.tables.filter (fun entry => s.pools.any (fun pool => pool.2 == entry.1)) }

/-- The table of a pool name, or the error. -/
def requirePool (s : Session) (name : String) : Except CommandError TableId :=
  match s.pool? name with
  | some table => .ok table
  | none => .error .unknownPool

/-- The handle of a name, or the error. -/
def requireHandle (s : Session) (name : String) : Except CommandError Handle :=
  match s.handle? name with
  | some handle => .ok handle
  | none => .error .unknownHandle

/-- A handle derived from another one: for a new identity through a table, or for no
change at all the same handle. -/
def derive (s : Session) (table : TableId) (source : Handle) (identity : Option Identity) :
    Handle × Session :=
  match identity with
  | some identity => s.obtain table identity
  | none => (source, s)

/-- Make a handle by a recipe. -/
def prepare (s : Session) : Recipe → Except CommandError (Handle × Session)
  | .intern pool bundle path fragment languages => do
    let table ← s.requirePool pool
    match Identity.intern? bundle path fragment languages with
    | none => .error .noLanguage
    | some identity => .ok (s.obtain table identity)
  | .withFragment pool source fragment => do
    let table ← s.requirePool pool
    let handle ← s.requireHandle source
    .ok (s.obtain table (handle.identity.withFragment fragment))
  | .addLanguages pool source languages => do
    let table ← s.requirePool pool
    let handle ← s.requireHandle source
    .ok (s.obtain table (handle.identity.addingLanguages languages))
  | .append pool source path => do
    let table ← s.requirePool pool
    let handle ← s.requireHandle source
    .ok (s.derive table handle (handle.identity.appending? path))
  | .appendLink pool source link => do
    let table ← s.requirePool pool
    let handle ← s.requireHandle source
    .ok (s.derive table handle (handle.identity.appendingLink? link))
  | .copy source => do
    let handle ← s.requireHandle source
    .ok (handle, s)

/-- Carry out a command. After an error the session is as it was. -/
def run (s : Session) : Command → Except CommandError Session
  | .make name recipe => do
    let (handle, s) ← s.prepare recipe
    .ok (s.store name handle)
  | .drop name => .ok (s.drop name)
  | .newPool name =>
    .ok (forgetTables { s with
      pools := Assoc.set s.pools name s.nextTable
      tables := Assoc.set s.tables s.nextTable .empty
      nextTable := s.nextTable + 1 })
  | .sharePool name source => do
    let table ← s.requirePool source
    .ok (forgetTables { s with pools := Assoc.set s.pools name table })
  | .dropPool name => .ok (forgetTables { s with pools := Assoc.erase s.pools name })

/-- The session after a command. A command that fails leaves it as it was. -/
def after (s : Session) (command : Command) : Session :=
  match s.run command with
  | .ok next => next
  | .error _ => s

/-- The session after commands in order. -/
def afterAll (s : Session) (commands : List Command) : Session := commands.foldl after s

/-- The number of addresses in use in the pool of a name. -/
def liveCount (s : Session) (table : TableId) : Nat :=
  (((s.table? table).map Table.cells).getD []).countP s.holds

/-- Whether an address, given as text, is in use in a table. -/
def contains (s : Session) (table : TableId) (bundle path : String) (fragment : Option String) :
    Bool :=
  (s.liveCell? table (.ofText bundle path fragment)).isSome

/-- The names of the other handles that share the storage of a handle, in order. -/
def sharing (s : Session) (name : String) (handle : Handle) : List String :=
  ((s.handles.filter (fun entry => entry.1 != name && decide (entry.2.SharesStorage handle))).map
    (·.1)).mergeSort (fun a b => decide (a ≤ b))

/-- The number of different topics among all handles. -/
def distinctTopics (s : Session) : Nat :=
  (s.handles.map (·.2.identity.address)).eraseDups.length

end Session

end TopicLinks
