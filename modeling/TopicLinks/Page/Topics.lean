import TopicLinks.Page

/-!
# The topics of a page

All topic references of a page in the order of its parts, and the identities that a
page holds: its own, those of its resolved references, and the declaration that its
documentation was inherited from.
-/

namespace TopicLinks

mutual

/-- The topic references in one piece of inline content. -/
def Inline.topics : Inline → List Topic
  | .text _ => []
  | .code _ => []
  | .emphasis children => Inline.topicsOf children
  | .strong children => Inline.topicsOf children
  | .image _ _ => []
  | .link destination _ children => destination :: Inline.topicsOf children
  | .symbolLink destination _ => [destination]

/-- The topic references in inline content. -/
def Inline.topicsOf : List Inline → List Topic
  | [] => []
  | inline :: rest => inline.topics ++ Inline.topicsOf rest

end

mutual

/-- The topic references in one block. -/
def Block.topics : Block → List Topic
  | .paragraph content => Inline.topicsOf content
  | .heading _ content => Inline.topicsOf content
  | .quote children => Block.topicsOf children
  | .container _ children => Block.topicsOf children
  | .code _ _ => []
  | .list items => Block.topicsOfItems items
  | .links _ topics => topics.map (·.topic)
  | .media _ _ _ => []

/-- The topic references in a sequence of blocks. -/
def Block.topicsOf : List Block → List Topic
  | [] => []
  | block :: rest => block.topics ++ Block.topicsOf rest

/-- The topic references in the items of a list. -/
def Block.topicsOfItems : List (List Block) → List Topic
  | [] => []
  | item :: rest => Block.topicsOf item ++ Block.topicsOfItems rest

end

/-- The topic references in markup. -/
def Markup.topics (markup : Markup) : List Topic := Block.topicsOf markup

/-- The topic references in markup that may be missing. -/
def Markup.topics? (markup : Option Markup) : List Topic := markup.elim [] Markup.topics

/-- The topic references in groups of links. -/
def TaskGroup.topicsOf (groups : List TaskGroup) : List Topic :=
  groups.flatMap (Markup.topics ·.content)

/-- The topic references in all variants of a section. -/
def Variants.topics {α : Type} (topicsOf : α → List Topic) (variants : Variants α) : List Topic :=
  variants.entries.flatMap (fun entry => topicsOf entry.2)

/-- The topic references in the questions of a page. -/
def Question.topicsOf (questions : List Question) : List Topic :=
  questions.flatMap fun question =>
    question.question.topics ++ question.content.topics ++
      question.choices.flatMap fun choice => choice.content.topics ++ choice.justification.topics

/-- The topic references in a step. -/
def Step.topics (step : Step) : List Topic := step.content.topics ++ step.caption.topics

/-- The topic references in a chapter, those of its curated tutorials at the end. -/
def Chapter.topics (chapter : Chapter) : List Topic :=
  chapter.content.topics ++ chapter.references.map (·.topic)

/-- The topic references in the content of a page. -/
def PageContent.topics : PageContent → List Topic
  | .article a =>
    Markup.topics? a.summary ++ Markup.topics? a.discussion ++ TaskGroup.topicsOf a.topics ++
      TaskGroup.topicsOf a.seeAlso
  | .symbol p =>
    p.summary.topics Markup.topics? ++ p.discussion.topics Markup.topics? ++
      p.parameters.topics (fun parameters => parameters.flatMap (Markup.topics ·.content)) ++
      p.returns.topics Markup.topics? ++ p.seeAlso.topics TaskGroup.topicsOf ++
      p.topics.topics TaskGroup.topicsOf
  | .contents c =>
    c.intro.content.topics ++ c.volumes.flatMap fun volume =>
      volume.content.topics ++ volume.chapters.flatMap Chapter.topics
  | .tutorial t =>
    t.intro.content.topics ++
      (t.sections.flatMap fun part =>
        part.introduction.flatMap (Markup.topics ·.content) ++ part.steps.flatMap Step.topics) ++
      t.assessments.elim [] Question.topicsOf
  | .tutorialArticle a =>
    a.intro.elim [] (Markup.topics ·.content) ++ a.content.flatMap (Markup.topics ·.content) ++
      a.assessments.elim [] Question.topicsOf

/-- The declarations that the documentation of a page was inherited from. -/
def PageContent.inheritedFrom : PageContent → Option Identity
  | .symbol p => p.docComment.bind (·.inheritedFrom)
  | _ => none

/-- All identities that a page holds. -/
def Page.identities (page : Page) : List Identity :=
  page.reference :: page.content.inheritedFrom.toList ++
    page.content.topics.filterMap Topic.identity?

/-- The number of different topics that some pages name. -/
def Page.distinctTopics (pages : List Page) : Nat :=
  ((pages.flatMap Page.identities).map (·.address)).eraseDups.length

end TopicLinks
