import TopicLinks.Topic
import TopicLinks.Resource

/-!
# Markup

Markup is a tree of blocks, and blocks hold inline content. References stand at the
leaves: links, symbol links, entries of link lists, and media.
-/

namespace TopicLinks

/-- Content inside a paragraph or a heading. -/
inductive Inline where
  /-- Plain text. -/
  | text (text : String)
  /-- A code span, which never holds a reference. -/
  | code (code : String)
  /-- Emphasized content. -/
  | emphasis (children : List Inline)
  /-- Strong content. -/
  | strong (children : List Inline)
  /-- An image with its alternate text. -/
  | image (alt : String) (media : Media)
  /-- A link around some content. Only some destinations are topics. -/
  | link (destination : Topic) (range : Option SourceRange) (children : List Inline)
  /-- A link written as the path of a symbol. -/
  | symbolLink (destination : Topic) (range : Option SourceRange)

/-- The kinds of layout that hold further blocks. -/
inductive Layout where
  /-- A column with a relative width. -/
  | column (size : Option Nat)
  /-- A row of columns. -/
  | row
  /-- Small print. -/
  | small
  /-- One tab of a group. -/
  | tab (title : String)
  /-- A group of tabs. -/
  | tabs
  deriving DecidableEq

/-- Images and videos. -/
inductive MediaKind where
  /-- An image. -/
  | image
  /-- A video. -/
  | video
  deriving DecidableEq

/-- An entry of a list of links. -/
structure LinkedTopic where
  /-- The linked topic. -/
  topic : Topic
  /-- The range of the entry. -/
  range : Option SourceRange
  deriving DecidableEq

/-- A block of markup. -/
inductive Block where
  /-- A paragraph. -/
  | paragraph (content : List Inline)
  /-- A heading of a level. -/
  | heading (level : Nat) (content : List Inline)
  /-- A quotation or an aside. -/
  | quote (children : List Block)
  /-- A layout around further blocks. -/
  | container (layout : Layout) (children : List Block)
  /-- A listing, which never holds a reference. -/
  | code (code : String) (language : Option String)
  /-- A list; each item is a sequence of blocks. -/
  | list (items : List (List Block))
  /-- A list of links in a visual style. -/
  | links (style : String) (topics : List LinkedTopic)
  /-- An image or a video, with a poster. -/
  | media (kind : MediaKind) (source : Media) (poster : Option Media)

/-- A sequence of blocks, such as a section of a page. -/
abbrev Markup := List Block

end TopicLinks
