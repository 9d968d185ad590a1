import TopicLinks.Page

/-!
# Agreement of pages

Two pages agree when they are built alike and hold the same texts, while their topic
references are only compared by effective target and identities only by address. A
resolution pass has changed a page when the page no longer agrees with what it was.
-/

namespace TopicLinks

/-- Two lists agree when they have one length and their elements agree in order. -/
def agreeInOrder {α : Type} (agree : α → α → Bool) : List α → List α → Bool
  | [], [] => true
  | a :: as, b :: bs => agree a b && agreeInOrder agree as bs
  | _, _ => false

/-- Two optional values agree when both are missing or their values agree. -/
def agreeIfAny {α : Type} (agree : α → α → Bool) : Option α → Option α → Bool
  | none, none => true
  | some a, some b => agree a b
  | _, _ => false

/-- Topic references agree by effective target. -/
def Topic.agrees (t u : Topic) : Bool := decide (t.Agrees u)

mutual

/-- Agreement of inline content. -/
def Inline.agrees : Inline → Inline → Bool
  | .text a, .text b => a == b
  | .code a, .code b => a == b
  | .emphasis a, .emphasis b => Inline.agreeAll a b
  | .strong a, .strong b => Inline.agreeAll a b
  | .image alt m, .image alt' m' => alt == alt' && decide (m = m')
  | .link d r c, .link d' r' c' => d.agrees d' && decide (r = r') && Inline.agreeAll c c'
  | .symbolLink d r, .symbolLink d' r' => d.agrees d' && decide (r = r')
  | _, _ => false

/-- Agreement of sequences of inline content. -/
def Inline.agreeAll : List Inline → List Inline → Bool
  | [], [] => true
  | a :: as, b :: bs => a.agrees b && Inline.agreeAll as bs
  | _, _ => false

end

/-- Agreement of entries in a list of links. -/
def LinkedTopic.agrees (a b : LinkedTopic) : Bool :=
  a.topic.agrees b.topic && decide (a.range = b.range)

mutual

/-- Agreement of blocks. -/
def Block.agrees : Block → Block → Bool
  | .paragraph a, .paragraph b => Inline.agreeAll a b
  | .heading l a, .heading l' b => l == l' && Inline.agreeAll a b
  | .quote a, .quote b => Block.agreeAll a b
  | .container l a, .container l' b => decide (l = l') && Block.agreeAll a b
  | .code c l, .code c' l' => c == c' && l == l'
  | .list a, .list b => Block.agreeItems a b
  | .links s a, .links s' b => s == s' && agreeInOrder LinkedTopic.agrees a b
  | .media k s p, .media k' s' p' => decide (k = k') && decide (s = s') && decide (p = p')
  | _, _ => false

/-- Agreement of sequences of blocks. -/
def Block.agreeAll : List Block → List Block → Bool
  | [], [] => true
  | a :: as, b :: bs => a.agrees b && Block.agreeAll as bs
  | _, _ => false

/-- Agreement of the items of lists. -/
def Block.agreeItems : List (List Block) → List (List Block) → Bool
  | [], [] => true
  | a :: as, b :: bs => Block.agreeAll a b && Block.agreeItems as bs
  | _, _ => false

end

/-- Agreement of groups of links. -/
def TaskGroup.agrees (a b : TaskGroup) : Bool :=
  a.heading == b.heading && Block.agreeAll a.content b.content

/-- Agreement of articles. -/
def Article.agrees (a b : Article) : Bool :=
  a.title == b.title && agreeIfAny Block.agreeAll a.summary b.summary &&
    agreeIfAny Block.agreeAll a.discussion b.discussion &&
    agreeInOrder TaskGroup.agrees a.topics b.topics &&
    agreeInOrder TaskGroup.agrees a.seeAlso b.seeAlso

/-- Agreement of parameters. -/
def Parameter.agrees (a b : Parameter) : Bool :=
  a.name == b.name && Block.agreeAll a.content b.content

/-- Agreement of doc comments. -/
def DocComment.agrees (a b : DocComment) : Bool :=
  agreeIfAny (fun i j => decide (i.SameTopic j)) a.inheritedFrom b.inheritedFrom &&
    decide (a.origin = b.origin) && a.source == b.source

/-- Agreement of variants: the same languages in the same order, with values that agree. -/
def Variants.agrees {α : Type} (agree : α → α → Bool) (a b : Variants α) : Bool :=
  agreeInOrder (fun x y => x.1 == y.1 && agree x.2 y.2) a.entries b.entries

/-- Agreement of symbol pages. -/
def SymbolPage.agrees (a b : SymbolPage) : Bool :=
  decide (a.languages = b.languages) && agreeIfAny DocComment.agrees a.docComment b.docComment &&
    a.summary.agrees (agreeIfAny Block.agreeAll) b.summary &&
    a.discussion.agrees (agreeIfAny Block.agreeAll) b.discussion &&
    a.parameters.agrees (agreeInOrder Parameter.agrees) b.parameters &&
    a.returns.agrees (agreeIfAny Block.agreeAll) b.returns &&
    a.seeAlso.agrees (agreeInOrder TaskGroup.agrees) b.seeAlso &&
    a.topics.agrees (agreeInOrder TaskGroup.agrees) b.topics

/-- Agreement of introductions. -/
def Intro.agrees (a b : Intro) : Bool :=
  a.title == b.title && Block.agreeAll a.content b.content && decide (a.image = b.image) &&
    decide (a.video = b.video)

/-- Agreement of text with media beside it. -/
def ContentAndMedia.agrees (a b : ContentAndMedia) : Bool :=
  Block.agreeAll a.content b.content && decide (a.media = b.media)

/-- Agreement of code listings. -/
def CodeListing.agrees (a b : CodeListing) : Bool :=
  decide (a.file = b.file) && decide (a.preview = b.preview)

/-- Agreement of steps. -/
def Step.agrees (a b : Step) : Bool :=
  Block.agreeAll a.content b.content && Block.agreeAll a.caption b.caption &&
    decide (a.media = b.media) && agreeIfAny CodeListing.agrees a.code b.code

/-- Agreement of sections of tutorials. -/
def TutorialSection.agrees (a b : TutorialSection) : Bool :=
  a.title == b.title && agreeInOrder ContentAndMedia.agrees a.introduction b.introduction &&
    agreeInOrder Step.agrees a.steps b.steps

/-- Agreement of answers to questions. -/
def Choice.agrees (a b : Choice) : Bool :=
  Block.agreeAll a.content b.content && decide (a.image = b.image) && a.correct == b.correct &&
    Block.agreeAll a.justification b.justification

/-- Agreement of questions. -/
def Question.agrees (a b : Question) : Bool :=
  Block.agreeAll a.question b.question && Block.agreeAll a.content b.content &&
    decide (a.image = b.image) && agreeInOrder Choice.agrees a.choices b.choices

/-- Agreement of tutorials. -/
def Tutorial.agrees (a b : Tutorial) : Bool :=
  a.intro.agrees b.intro && agreeInOrder TutorialSection.agrees a.sections b.sections &&
    agreeIfAny (agreeInOrder Question.agrees) a.assessments b.assessments &&
    decide (a.projectFiles = b.projectFiles)

/-- Agreement of tutorial articles. -/
def TutorialArticle.agrees (a b : TutorialArticle) : Bool :=
  agreeIfAny Intro.agrees a.intro b.intro &&
    agreeInOrder ContentAndMedia.agrees a.content b.content &&
    agreeIfAny (agreeInOrder Question.agrees) a.assessments b.assessments

/-- Agreement of curated tutorials. -/
def TutorialReference.agrees (a b : TutorialReference) : Bool :=
  a.topic.agrees b.topic && decide (a.range = b.range)

/-- Agreement of chapters. -/
def Chapter.agrees (a b : Chapter) : Bool :=
  a.name == b.name && Block.agreeAll a.content b.content && decide (a.image = b.image) &&
    agreeInOrder TutorialReference.agrees a.references b.references

/-- Agreement of volumes. -/
def Volume.agrees (a b : Volume) : Bool :=
  a.name == b.name && Block.agreeAll a.content b.content && decide (a.image = b.image) &&
    agreeInOrder Chapter.agrees a.chapters b.chapters

/-- Agreement of tables of contents. -/
def TableOfContents.agrees (a b : TableOfContents) : Bool :=
  a.intro.agrees b.intro && agreeInOrder Volume.agrees a.volumes b.volumes

/-- Agreement of the content of pages. -/
def PageContent.agrees : PageContent → PageContent → Bool
  | .article a, .article b => a.agrees b
  | .symbol a, .symbol b => a.agrees b
  | .contents a, .contents b => a.agrees b
  | .tutorial a, .tutorial b => a.agrees b
  | .tutorialArticle a, .tutorialArticle b => a.agrees b
  | _, _ => false

/-- Agreement of pages. -/
def Page.agrees (a b : Page) : Bool :=
  decide (a.reference.SameTopic b.reference) && a.source == b.source &&
    a.content.agrees b.content

end TopicLinks
