import TopicLinks.Assoc
import TopicLinks.Text.Utf8

/-!
# File systems

A file system is a tree of directories and files. A path is followed name by name, and
each name has to be looked up in a directory that exists. So a path that goes up again
has to go down to a directory first, and a slash after a file leads nowhere.
-/

namespace TopicLinks

/-- What a file system has at a location. -/
inductive FileEntry where
  /-- A file with some bytes. -/
  | file (bytes : List UInt8)
  /-- A directory. -/
  | directory
  deriving DecidableEq

/-- Why a path cannot be read as text. -/
inductive FileError where
  /-- There is nothing at the path, or something on the way does not exist. -/
  | missing
  /-- The path goes on after a file. -/
  | notDirectory
  /-- There is a directory at the path. -/
  | isDirectory
  /-- The path, or a name in it, has too many bytes. -/
  | tooLong
  /-- The path has a NUL, which no name has. -/
  | malformed
  /-- The bytes of the file are no UTF-8. -/
  | notText
  deriving DecidableEq

/-- The names that lead from the root to a directory or file. -/
abbrev Location := List String

namespace Location

/-- The names in a path, in order. Slashes side by side, and those at the ends, have empty
names beside them. -/
def namesOf (path : String) : List String := (path.toList.splitOn '/').map String.ofList

/-- Where a name leads from a directory. An empty name and a dot stay there, and two dots
go up, except from the root. -/
def next (here : Location) (name : String) : Location :=
  if name = "" ∨ name = "." then here
  else if name = ".." then here.dropLast
  else here ++ [name]

/-- A path starts at the root if it starts with a slash. -/
def isAbsolute (path : String) : Bool := path.toList.head? == some '/'

/-- Where a path starts. -/
def start (workingDirectory : Location) (path : String) : Location :=
  if isAbsolute path then [] else workingDirectory

/-- A path as seen from another one. An absolute path stands for itself. -/
def join (base path : String) : String :=
  if isAbsolute path ∨ base = "" then path
  else if base.toList.getLast? = some '/' then base ++ path
  else base ++ "/" ++ path

end Location

/-- A file system, and the directory from which relative paths start. -/
structure FileSystem where
  /-- What was put where. -/
  entries : List (Location × FileEntry) := []
  /-- The directory from which relative paths start. -/
  workingDirectory : Location := []

namespace FileSystem

/-- The greatest number of bytes in a name. -/
def maxNameBytes : Nat := 255

/-- The greatest number of bytes in a path. -/
def maxPathBytes : Nat := 4095

/-- A location that leads on to an entry or to the working directory, as the root always
does. -/
def leadsOn (fs : FileSystem) (location : Location) : Bool :=
  location.isPrefixOf fs.workingDirectory ||
    fs.entries.any (fun entry => location.isPrefixOf entry.1)

/-- What is at a location. What leads on to something is a directory. -/
def entry? (fs : FileSystem) (location : Location) : Option FileEntry :=
  (Assoc.get? fs.entries location).or (if fs.leadsOn location then some .directory else none)

/-- Put something at a path, in the place of what was there. -/
def put (fs : FileSystem) (path : String) (entry : FileEntry) : FileSystem :=
  let location :=
    (Location.namesOf path).foldl Location.next (Location.start fs.workingDirectory path)
  { fs with entries := Assoc.set fs.entries location entry }

/-- Follow one name from a location, which has to be a directory. -/
def step (fs : FileSystem) (here : Location) (name : String) : Except FileError Location :=
  match fs.entry? here with
  | none => .error .missing
  | some (.file _) => .error .notDirectory
  | some .directory =>
    if maxNameBytes < name.utf8ByteSize then .error .tooLong else .ok (here.next name)

/-- The location that a path leads to. Only the last name may lead to nothing, and the
empty path leads nowhere. -/
def locate (fs : FileSystem) (path : String) : Except FileError Location :=
  if path.toList.contains (Char.ofNat 0) then .error .malformed
  else if maxPathBytes < path.utf8ByteSize then .error .tooLong
  else if path = "" then .error .missing
  else (Location.namesOf path).foldlM fs.step (Location.start fs.workingDirectory path)

/-- The text of the file at a location. -/
def textAt (fs : FileSystem) (location : Location) : Except FileError String :=
  match fs.entry? location with
  | none => .error .missing
  | some .directory => .error .isDirectory
  | some (.file bytes) =>
    match Text.Utf8.decode? bytes with
    | none => .error .notText
    | some text => .ok (.ofList text)

/-- Read the file at a path as text. -/
def readText (fs : FileSystem) (path : String) : Except FileError String :=
  match fs.locate path with
  | .error e => .error e
  | .ok location => fs.textAt location

end FileSystem

end TopicLinks
