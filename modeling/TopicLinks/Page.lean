import TopicLinks.Markup
import TopicLinks.Page.Variants

/-!
# Documentation pages

A page has an identity, perhaps a file it was read from, and content of one of five kinds:
articles, symbols, and three kinds of tutorial pages.
-/

namespace TopicLinks

/-- A group of links under a heading. -/
structure TaskGroup where
  /-- The heading. -/
  heading : Option String
  /-- The content, usually a list of links. -/
  content : Markup

/-- A free-form article. -/
structure Article where
  /-- The title. -/
  title : String
  /-- The summary. -/
  summary : Option Markup
  /-- The body. -/
  discussion : Option Markup
  /-- The groups of curated topics. -/
  topics : List TaskGroup
  /-- The groups of related topics. -/
  seeAlso : List TaskGroup

/-- A documented parameter of a symbol. -/
structure Parameter where
  /-- The name. -/
  name : String
  /-- The description. -/
  content : Markup

/-- Where the doc comment of a symbol was written. -/
structure DocComment where
  /-- The symbol the comment was inherited from, if it was written elsewhere. -/
  inheritedFrom : Option Identity
  /-- The start of the comment in its file. -/
  origin : Option Origin
  /-- The file that declares the comment. -/
  source : Option String

/-- The documentation of a symbol in all its languages. -/
structure SymbolPage where
  /-- The languages in which the symbol is available. -/
  languages : LanguageSet
  /-- Where the doc comment was written. -/
  docComment : Option DocComment
  /-- The summaries. -/
  summary : Variants (Option Markup)
  /-- The discussions. -/
  discussion : Variants (Option Markup)
  /-- The parameters. -/
  parameters : Variants (List Parameter)
  /-- The descriptions of the result. -/
  returns : Variants (Option Markup)
  /-- The groups of related topics. -/
  seeAlso : Variants (List TaskGroup)
  /-- The groups of curated topics. -/
  topics : Variants (List TaskGroup)

/-- The introduction of a tutorial page. -/
structure Intro where
  /-- The title. -/
  title : String
  /-- The text. -/
  content : Markup
  /-- The background image. -/
  image : Option Media
  /-- The introductory video. -/
  video : Option Media

/-- Text with media beside it. -/
structure ContentAndMedia where
  /-- The text. -/
  content : Markup
  /-- The image or video. -/
  media : Option Media

/-- The code listing of a step. -/
structure CodeListing where
  /-- The code file. -/
  file : Media
  /-- A picture of the result. -/
  preview : Option Media

/-- One instruction of a tutorial. -/
structure Step where
  /-- The instruction. -/
  content : Markup
  /-- The text under the media. -/
  caption : Markup
  /-- The image or video. -/
  media : Option Media
  /-- The code listing. -/
  code : Option CodeListing

/-- A titled group of steps. -/
structure TutorialSection where
  /-- The title. -/
  title : String
  /-- What is shown before the steps. -/
  introduction : List ContentAndMedia
  /-- The steps, in order. -/
  steps : List Step

/-- One answer to a question. -/
structure Choice where
  /-- The text of the answer. -/
  content : Markup
  /-- The image of the answer. -/
  image : Option Media
  /-- Whether the answer is right. -/
  correct : Bool
  /-- Why the answer is right or wrong. -/
  justification : Markup

/-- A question with several answers. -/
structure Question where
  /-- The question. -/
  question : Markup
  /-- What is shown under the question. -/
  content : Markup
  /-- The image of the question. -/
  image : Option Media
  /-- The answers, in order. -/
  choices : List Choice

/-- A step-by-step tutorial. -/
structure Tutorial where
  /-- The introduction. -/
  intro : Intro
  /-- The sections, in order. -/
  sections : List TutorialSection
  /-- The questions at the end. -/
  assessments : Option (List Question)
  /-- The archive of the project, offered as a download. -/
  projectFiles : Option Media

/-- A tutorial page without steps. -/
structure TutorialArticle where
  /-- The introduction. -/
  intro : Option Intro
  /-- The body, in order. -/
  content : List ContentAndMedia
  /-- The questions at the end. -/
  assessments : Option (List Question)

/-- A tutorial curated by a chapter. -/
structure TutorialReference where
  /-- The curated tutorial. -/
  topic : Topic
  /-- The range of the reference. -/
  range : Option SourceRange
  deriving DecidableEq

/-- A chapter, which curates tutorials. -/
structure Chapter where
  /-- The name. -/
  name : String
  /-- The description. -/
  content : Markup
  /-- The image. -/
  image : Option Media
  /-- The curated tutorials, in order. -/
  references : List TutorialReference

/-- A group of chapters. -/
structure Volume where
  /-- The name. -/
  name : String
  /-- The description. -/
  content : Markup
  /-- The image. -/
  image : Option Media
  /-- The chapters, in order. -/
  chapters : List Chapter

/-- The table of contents of a technology's tutorials. -/
structure TableOfContents where
  /-- The introduction. -/
  intro : Intro
  /-- The volumes, in order. -/
  volumes : List Volume

/-- The content of a page. -/
inductive PageContent where
  /-- An article. -/
  | article (article : Article)
  /-- A symbol. -/
  | symbol (page : SymbolPage)
  /-- A table of contents. -/
  | contents (contents : TableOfContents)
  /-- A tutorial. -/
  | tutorial (tutorial : Tutorial)
  /-- A tutorial article. -/
  | tutorialArticle (article : TutorialArticle)

/-- A page and where it lives. -/
structure Page where
  /-- The identity of the page; relative links start here. -/
  reference : Identity
  /-- The file the page was read from. -/
  source : Option String
  /-- The content. -/
  content : PageContent

end TopicLinks
