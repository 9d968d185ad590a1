import TopicLinks.FileSystem
import TopicLinks.Settings.Reading

/-!
# Settings files

Settings are loaded from a file of a fixed name in a directory, or from any file that is
named. Only a missing file means the defaults, and only when a directory was named; a
file that is there is read, or reported.
-/

namespace TopicLinks

/-- Why no settings were loaded. -/
inductive LoadError where
  /-- There is no such file. -/
  | notFound (path : String)
  /-- There is something at the path that cannot be read as text, or the path is none. -/
  | unreadable (cause : FileError)
  /-- The text holds no settings. -/
  | settings (error : SettingsError)
  deriving DecidableEq

namespace Settings

/-- The name of the settings file of a directory. -/
def fileName : String := ".doclink.toml"

/-- The settings of a file that must exist. -/
def fromFile (fs : FileSystem) (path : String) : Except LoadError Settings :=
  match fs.readText path with
  | .error .missing => .error (.notFound path)
  | .error cause => .error (.unreadable cause)
  | .ok text =>
    match parse text with
    | .error e => .error (.settings e)
    | .ok settings => .ok settings

/-- The settings of a directory: those of its settings file, or the defaults if it has
none. -/
def load (fs : FileSystem) (directory : String) : Except LoadError Settings :=
  match fromFile fs (Location.join directory fileName) with
  | .error (.notFound _) => .ok {}
  | result => result

end Settings

/-- The text of an error. Only missing files and unknown names are said. -/
def LoadError.message? : LoadError → Option String
  | .notFound path => some ("config not found: " ++ path)
  | .unreadable _ => none
  | .settings e => e.message?

end TopicLinks
