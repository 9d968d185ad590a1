import TopicLinks.Markup
import TopicLinks.Resolution.References

/-!
# Resolving markup

Markup is walked depth first and in order. Every topic reference in it is resolved from
one parent and replaced in its place; everything else stays as it is.
-/

namespace TopicLinks

/-- The destination of an ordinary link is a topic reference when it is resolved
already, or when its scheme says so. -/
def Topic.isDestination : Topic → Bool
  | .resolved _ => true
  | .unresolved link => link.isTopicLink

namespace Viewpoint

/-- Resolve the destination of an ordinary link. -/
def resolveDestination (v : Viewpoint) (parent : Identity) (range : Option SourceRange)
    (destination : Topic) : Dialogue Topic :=
  if destination.isDestination then v.resolveTopic parent range false destination
  else pure destination

mutual

/-- Resolve one piece of inline content. The destination of a link comes before what the
link is around. -/
def resolveInline (v : Viewpoint) (parent : Identity) : Inline → Dialogue Inline
  | .text text => pure (.text text)
  | .code code => pure (.code code)
  | .emphasis children => do
    let children ← v.resolveInlines parent children
    pure (.emphasis children)
  | .strong children => do
    let children ← v.resolveInlines parent children
    pure (.strong children)
  | .image alt media => do
    v.checkMedia media
    pure (.image alt media)
  | .link destination range children => do
    let destination ← v.resolveDestination parent range destination
    let children ← v.resolveInlines parent children
    pure (.link destination range children)
  | .symbolLink destination range => do
    let destination ← v.resolveTopic parent range true destination
    pure (.symbolLink destination range)

/-- Resolve inline content in order. -/
def resolveInlines (v : Viewpoint) (parent : Identity) : List Inline → Dialogue (List Inline)
  | [] => pure []
  | inline :: rest => do
    let inline ← v.resolveInline parent inline
    let rest ← v.resolveInlines parent rest
    pure (inline :: rest)

end

/-- Resolve one entry of a list of links. -/
def resolveLinkedTopic (v : Viewpoint) (parent : Identity) (entry : LinkedTopic) :
    Dialogue LinkedTopic := do
  let topic ← v.resolveTopic parent entry.range false entry.topic
  pure { entry with topic }

mutual

/-- Resolve one block and everything inside it. -/
def resolveBlock (v : Viewpoint) (parent : Identity) : Block → Dialogue Block
  | .paragraph content => do
    let content ← v.resolveInlines parent content
    pure (.paragraph content)
  | .heading level content => do
    let content ← v.resolveInlines parent content
    pure (.heading level content)
  | .quote children => do
    let children ← v.resolveBlocks parent children
    pure (.quote children)
  | .container layout children => do
    let children ← v.resolveBlocks parent children
    pure (.container layout children)
  | .code code language => pure (.code code language)
  | .list items => do
    let items ← v.resolveItems parent items
    pure (.list items)
  | .links style topics => do
    let topics ← Dialogue.each (v.resolveLinkedTopic parent) topics
    pure (.links style topics)
  | .media kind source poster => do
    v.checkMedia source
    v.checkMedia? poster
    pure (.media kind source poster)

/-- Resolve blocks in order. -/
def resolveBlocks (v : Viewpoint) (parent : Identity) : List Block → Dialogue (List Block)
  | [] => pure []
  | block :: rest => do
    let block ← v.resolveBlock parent block
    let rest ← v.resolveBlocks parent rest
    pure (block :: rest)

/-- Resolve the items of a list in order. -/
def resolveItems (v : Viewpoint) (parent : Identity) :
    List (List Block) → Dialogue (List (List Block))
  | [] => pure []
  | item :: rest => do
    let item ← v.resolveBlocks parent item
    let rest ← v.resolveItems parent rest
    pure (item :: rest)

end

/-- Resolve markup from a parent. -/
def resolveMarkup (v : Viewpoint) (parent : Identity) (markup : Markup) : Dialogue Markup :=
  v.resolveBlocks parent markup

end Viewpoint

end TopicLinks
