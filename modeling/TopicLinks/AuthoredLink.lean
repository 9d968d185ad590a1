import TopicLinks.Text.Blank

/-!
# Authored links

A link is kept as the author wrote it, cut into the parts of a URL. It carries no
knowledge of what exists: two links may name one topic, and a link may name none.
-/

namespace TopicLinks

open Text

/-- A link as written, cut into its parts. -/
structure AuthoredLink where
  /-- The text as written, without the blanks around it. -/
  raw : String
  /-- The scheme before `:`, if there is one. -/
  scheme : Option String
  /-- The authority after `//`, usually a bundle. An empty authority is none. -/
  host : Option String
  /-- The path, which may be relative. -/
  path : String
  /-- The fragment after `#`, if there is one. -/
  fragment : Option String
  deriving DecidableEq

namespace AuthoredLink

/-- The scheme of links that name topics, and of every written identity. -/
def topicScheme : String := "doc"

/-- The characters a scheme may have after its first letter. -/
def isSchemeChar (c : Char) : Bool :=
  c.isAlphanum || c == '+' || c == '.' || c == '-'

/-- Split off a scheme: a letter, more scheme characters, and a colon. -/
def takeScheme (text : List Char) : Option (List Char) × List Char :=
  match text with
  | [] => (none, [])
  | c :: rest =>
    if c.isAlpha then
      match rest.dropWhile isSchemeChar with
      | ':' :: tail => (some (c :: rest.takeWhile isSchemeChar), tail)
      | _ => (none, text)
    else (none, text)

/-- The characters that end an authority. -/
def endsAuthority (c : Char) : Bool := c == '/' || c == '?' || c == '#'

/-- Split off an authority: two slashes and everything up to `/`, `?` or `#`. -/
def takeAuthority : List Char → Option (List Char) × List Char
  | '/' :: '/' :: rest =>
    (some (rest.takeWhile (!endsAuthority ·)), rest.dropWhile (!endsAuthority ·))
  | text => (none, text)

/-- The characters that end a path. -/
def endsPath (c : Char) : Bool := c == '?' || c == '#'

/-- Remove a query: a question mark and everything up to `#`. -/
def dropQuery : List Char → List Char
  | '?' :: rest => rest.dropWhile (· != '#')
  | text => text

/-- The fragment that a text starting with `#` holds. -/
def fragmentOf : List Char → Option (List Char)
  | '#' :: fragment => some fragment
  | _ => none

/-- The parts of a text before they are given names. -/
structure Parts where
  /-- The scheme without its colon. -/
  scheme : Option (List Char)
  /-- The authority without its slashes; it may be empty. -/
  authority : Option (List Char)
  /-- The path. -/
  path : List Char
  /-- The fragment without its hash sign. -/
  fragment : Option (List Char)
  deriving DecidableEq

/-- Cut a text at the first `#` only; everything before it is the path. -/
def pathParts (text : List Char) : Parts where
  scheme := none
  authority := none
  path := text.takeWhile (· != '#')
  fragment := fragmentOf (text.dropWhile (· != '#'))

/-- Cut a text into scheme, authority, path, query and fragment. A fragment stays on
one line: with a line feed in it the text is no URL, and is cut at its first `#` only. -/
def parts (text : List Char) : Parts :=
  let (scheme, afterScheme) := takeScheme text
  let (authority, afterAuthority) := takeAuthority afterScheme
  let fragment := fragmentOf (dropQuery (afterAuthority.dropWhile (!endsPath ·)))
  if (fragment.getD []).contains '\n' then pathParts text
  else { scheme, authority, path := afterAuthority.takeWhile (!endsPath ·), fragment }

/-- The link with the given raw text and parts. An empty authority is no host. -/
def ofParts (raw : List Char) (p : Parts) : AuthoredLink where
  raw := .ofList raw
  scheme := p.scheme.map .ofList
  host := (p.authority.filter (!·.isEmpty)).map .ofList
  path := .ofList p.path
  fragment := p.fragment.map .ofList

/-- Read a link destination as a URL. -/
def parse (text : String) : AuthoredLink :=
  ofParts (trim text.toList) (parts (trim text.toList))

/-- Read a symbol path. It is no URL: a colon in it never ends a scheme. -/
def ofSymbolPath (text : String) : AuthoredLink :=
  ofParts (trim text.toList) (pathParts (trim text.toList))

/-- The target as written, without a query and without an empty authority. -/
def effectiveTarget (link : AuthoredLink) : String :=
  (link.scheme.elim "" (· ++ ":")) ++ (link.host.elim "" ("//" ++ ·)) ++ link.path ++
    (link.fragment.elim "" ("#" ++ ·))

/-- The lower-case form of an ASCII text; other characters stay. -/
def lowercase (text : String) : List Char := text.toList.map Char.toLower

/-- A link names a topic when its scheme is `doc`, in any case of letters. -/
def isTopicLink (link : AuthoredLink) : Bool :=
  link.scheme.any (fun scheme => lowercase scheme == topicScheme.toList)

/-- A link is relative when it has no host and its path does not start with a slash. -/
def isRelative (link : AuthoredLink) : Bool :=
  link.host.isNone && link.path.toList.head? != some '/'

/-- A link points to the web when its scheme starts with `http`, in any case of letters. -/
def isWebLink (link : AuthoredLink) : Bool :=
  link.scheme.any (fun scheme => "http".toList.isPrefixOf (lowercase scheme))

end AuthoredLink

end TopicLinks
