import TopicLinks.AuthoredLink
import TopicLinks.Identity.Readable
import TopicLinks.Identity.Languages

/-!
# Identities of topics

An identity names one place of one bundle, in canonical form. Which languages a topic
is written in travels with the identity but never decides which topic is meant.
-/

namespace TopicLinks

/-- Where in a bundle a topic lives. -/
structure Place where
  /-- The readable segments of the path, from the root of the bundle. -/
  segments : List String
  /-- The readable fragment, if the place is inside a page. -/
  fragment : Option String
  deriving DecidableEq

namespace Place

/-- The place with a path and a fragment as given, in readable form. -/
def ofText (path : String) (fragment : Option String) : Place :=
  ⟨Readable.segments path, fragment.map Readable.fragment⟩

/-- The path as text: a slash, then the segments with slashes between them. -/
def path (place : Place) : String :=
  .ofList ('/' :: ['/'].intercalate (place.segments.map String.toList))

end Place

/-- A place together with the bundle it belongs to. -/
structure Address where
  /-- The identifier of the bundle. -/
  bundle : String
  /-- The place in that bundle. -/
  place : Place
  deriving DecidableEq

namespace Address

/-- The address with a bundle, a path and a fragment as given. -/
def ofText (bundle path : String) (fragment : Option String) : Address :=
  ⟨bundle, Place.ofText path fragment⟩

/-- The address written as a link: `doc://`, the bundle, the path, and the fragment. -/
def absolute (address : Address) : String :=
  AuthoredLink.topicScheme ++ "://" ++ address.bundle ++ address.place.path ++
    (address.place.fragment.elim "" ("#" ++ ·))

end Address

/-- A topic's address and the languages in which the topic is looked at. -/
structure Identity where
  /-- Where the topic lives. -/
  address : Address
  /-- The languages that travel with the identity. -/
  languages : LanguageSet
  deriving DecidableEq

namespace Identity

/-- The identifier of the bundle. -/
def bundle (identity : Identity) : String := identity.address.bundle

/-- The path as text. -/
def path (identity : Identity) : String := identity.address.place.path

/-- The fragment, if there is one. -/
def fragment (identity : Identity) : Option String := identity.address.place.fragment

/-- The identity written as a link. -/
def absolute (identity : Identity) : String := identity.address.absolute

/-- The components of the path; the first one is the root. -/
def components (identity : Identity) : List String := "/" :: identity.address.place.segments

/-- The last component, which is the root itself for the root of a bundle. -/
def lastComponent (identity : Identity) : String :=
  identity.address.place.segments.getLastD "/"

/-- The identity with a bundle, a path and a fragment as given. -/
def ofText (bundle path : String) (fragment : Option String) (languages : LanguageSet) :
    Identity :=
  ⟨Address.ofText bundle path fragment, languages⟩

/-- The identity with a bundle, a path, a fragment and a list of languages as given. No
identity is in no language at all. -/
def intern? (bundle path : String) (fragment : Option String) (languages : List Language) :
    Option Identity :=
  if languages.isEmpty then none
  else some (ofText bundle path fragment (.ofList languages))

/-- The same bundle and path with another fragment, or with none. -/
def withFragment (identity : Identity) (fragment : Option String) : Identity :=
  { identity with
    address.place.fragment := fragment.map Readable.fragment }

/-- The same address, with more languages. -/
def addingLanguages (identity : Identity) (languages : List Language) : Identity :=
  { identity with languages := identity.languages.addAll languages }

/-- The same address, looked at in one language. -/
def inLanguage (identity : Identity) (language : Language) : Identity :=
  { identity with languages := .single language }

/-- The identity below this one at the segments of a path as given, with a fragment.
A path without segments leads nowhere. -/
def below? (identity : Identity) (path : String) (fragment : Option String) :
    Option Identity :=
  match Readable.segments path with
  | [] => none
  | segments =>
    some { identity with
      address.place := ⟨identity.address.place.segments ++ segments, fragment⟩ }

/-- The identity at a path below this one, without a fragment. -/
def appending? (identity : Identity) (path : String) : Option Identity :=
  identity.below? path none

/-- The identity at a link's path below this one, with the link's fragment. -/
def appendingLink? (identity : Identity) (link : AuthoredLink) : Option Identity :=
  identity.below? link.path (link.fragment.map Readable.fragment)

/-- Two identities name the same topic when their addresses agree, whatever their
languages. -/
def SameTopic (i j : Identity) : Prop := i.address = j.address

instance (i j : Identity) : Decidable (i.SameTopic j) :=
  inferInstanceAs (Decidable (i.address = j.address))

end Identity

end TopicLinks
