import TopicLinks.Identity
import TopicLinks.Text.Quoted

/-!
# Describing an identity

A description shows the absolute string and the languages of an identity, with every
text quoted.
-/

namespace TopicLinks.Identity

/-- The description of a language. -/
def describeLanguage (language : Language) : String :=
  "SourceLanguage \x7b id: " ++ Text.quoted language ++ " \x7d"

/-- The description of an identity. -/
def describe (identity : Identity) : String :=
  "ReferenceIdentity \x7b url: " ++ Text.quoted identity.absolute ++ ", source_languages: \x7b" ++
    ", ".intercalate (identity.languages.ids.map describeLanguage) ++ "\x7d \x7d"

end TopicLinks.Identity
