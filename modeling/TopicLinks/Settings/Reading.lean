import TopicLinks.Settings
import TopicLinks.Toml.Document

/-!
# Reading settings

Settings are the top-level entries of a TOML document. Every key must be one of five, and
every value must be of the type of its key. The first entry in document order that is
not so is the one that is reported; a key that is missing keeps its default.
-/

namespace TopicLinks

/-- Why a text holds no settings. -/
inductive SettingsError where
  /-- The text is no TOML document. -/
  | malformed
  /-- A key is not known. -/
  | unknownKey (key : String)
  /-- A severity has a name that is not known. -/
  | unknownSeverity (name : String)
  /-- A value is not of the type of its key. -/
  | wrongType (key : String)
  deriving DecidableEq

namespace Settings

/-- The keys of settings, in alphabetical order. -/
inductive Key where
  /-- The severity of tutorials that a chapter curates twice. -/
  | duplicateReference
  /-- Whether links of inherited documentation are tried again. -/
  | inheritedLinkFallback
  /-- The severity of links that only resolve from the inherited declaration. -/
  | inheritedRelativeLink
  /-- The severity of resources that do not exist. -/
  | missingResource
  /-- The severity of topic links that do not resolve. -/
  | unresolvedTopic
  deriving DecidableEq

/-- The keys as they are written. -/
def keys : List (String × Key) :=
  [("duplicate-reference", .duplicateReference),
    ("inherited-link-fallback", .inheritedLinkFallback),
    ("inherited-relative-link", .inheritedRelativeLink),
    ("missing-resource", .missingResource),
    ("unresolved-topic", .unresolvedTopic)]

/-- The key that is written as a text. -/
def Key.ofName? (name : String) : Option Key := (keys.find? (·.1 == name)).map (·.2)

/-- What is said about a key that is not known. -/
def unknownKeyMessage (key : String) : String :=
  "unknown field `" ++ key ++ "`, expected one of " ++
    ", ".intercalate (keys.map (fun entry => "`" ++ entry.1 ++ "`"))

end Settings

/-- The text of an error. Only unknown names are said. -/
def SettingsError.message? : SettingsError → Option String
  | .malformed => none
  | .unknownKey key => some (Settings.unknownKeyMessage key)
  | .unknownSeverity name => some (Severity.unknownName name)
  | .wrongType _ => none

namespace Settings

open Toml

/-- The severity with a name, or the error. -/
def severityNamed (name : String) : Except SettingsError Severity :=
  match Severity.ofName? name with
  | some severity => .ok severity
  | none => .error (.unknownSeverity name)

/-- A value that holds nothing, as it may stand beside the name of a severity. -/
def holdsNothing : Value → Bool
  | .array items => items.isEmpty
  | .table _ entries => entries.isEmpty
  | .tables elements => elements.isEmpty
  | _ => false

/-- A severity is a string with its name, or a table whose only key is its name and
whose only value holds nothing. -/
def severityOf (key : String) : Value → Except SettingsError Severity
  | .text name => severityNamed name
  | .table _ [(name, value)] => do
    let severity ← severityNamed name
    if holdsNothing value then .ok severity else .error (.wrongType key)
  | _ => .error (.wrongType key)

/-- A boolean is only spelled as itself. -/
def booleanOf (key : String) : Value → Except SettingsError Bool
  | .boolean value => .ok value
  | _ => .error (.wrongType key)

/-- Set the value of one entry. -/
def setEntry (settings : Settings) (entry : String × Value) : Except SettingsError Settings :=
  match Key.ofName? entry.1 with
  | none => .error (.unknownKey entry.1)
  | some .duplicateReference => do
    let severity ← severityOf entry.1 entry.2
    .ok { settings with duplicateReference := severity }
  | some .inheritedLinkFallback => do
    let value ← booleanOf entry.1 entry.2
    .ok { settings with inheritedLinkFallback := value }
  | some .inheritedRelativeLink => do
    let severity ← severityOf entry.1 entry.2
    .ok { settings with inheritedRelativeLink := severity }
  | some .missingResource => do
    let severity ← severityOf entry.1 entry.2
    .ok { settings with missingResource := severity }
  | some .unresolvedTopic => do
    let severity ← severityOf entry.1 entry.2
    .ok { settings with unresolvedTopic := severity }

/-- Set the values of entries in order, up to the first one that cannot be set. -/
def setEntries (settings : Settings) : Entries → Except SettingsError Settings
  | [] => .ok settings
  | entry :: rest => do
    let settings ← settings.setEntry entry
    settings.setEntries rest

/-- The settings of a document's top-level entries. -/
def ofEntries (entries : Entries) : Except SettingsError Settings := setEntries {} entries

/-- The settings that a text holds. -/
def parse (text : String) : Except SettingsError Settings :=
  match Toml.parse? text with
  | none => .error .malformed
  | some entries => ofEntries entries

end Settings

end TopicLinks
