import TopicLinks.Page.Topics

/-!
# The references of a page

The occurrences of a page are its references as one flat list: the topic references with
what they are resolved from, the media, and for each chapter the list of the tutorials it
curates. The order is the order of the page, depth first; a link comes before what the link
is around.
-/

namespace TopicLinks

/-- A reference at its place in a page. -/
inductive Occurrence where
  /-- A topic reference, and what is known about its place. -/
  | topic (parent : Identity) (range : Option SourceRange) (fromSymbolLink : Bool) (topic : Topic)
  /-- A media reference. -/
  | media (media : Media)
  /-- All tutorials that a chapter curates. They depend on each other. -/
  | chapter (name : String) (references : List TutorialReference)

/-- An ordinary link is an occurrence if its destination is resolved or a topic by its
scheme. -/
def Occurrence.ofLink (parent : Identity) (range : Option SourceRange) (destination : Topic) :
    List Occurrence :=
  if destination.link?.all AuthoredLink.isTopicLink then [.topic parent range false destination]
  else []

/-- The occurrence of a media reference that may be missing. -/
def Occurrence.ofMedia? : Option Media → List Occurrence
  | none => []
  | some file => [.media file]

mutual

/-- The occurrences in one piece of inline content. -/
def Inline.occurrences (parent : Identity) : Inline → List Occurrence
  | .text _ => []
  | .code _ => []
  | .emphasis children => Inline.occurrencesOf parent children
  | .strong children => Inline.occurrencesOf parent children
  | .image _ media => [.media media]
  | .link destination range children =>
    Occurrence.ofLink parent range destination ++ Inline.occurrencesOf parent children
  | .symbolLink destination range => [.topic parent range true destination]

/-- The occurrences in inline content. -/
def Inline.occurrencesOf (parent : Identity) : List Inline → List Occurrence
  | [] => []
  | inline :: rest => inline.occurrences parent ++ Inline.occurrencesOf parent rest

end

/-- The occurrence of an entry of a list of links. -/
def LinkedTopic.occurrence (parent : Identity) (entry : LinkedTopic) : Occurrence :=
  .topic parent entry.range false entry.topic

mutual

/-- The occurrences in one block. -/
def Block.occurrences (parent : Identity) : Block → List Occurrence
  | .paragraph content => Inline.occurrencesOf parent content
  | .heading _ content => Inline.occurrencesOf parent content
  | .quote children => Block.occurrencesOf parent children
  | .container _ children => Block.occurrencesOf parent children
  | .code _ _ => []
  | .list items => Block.occurrencesOfItems parent items
  | .links _ topics => topics.map (LinkedTopic.occurrence parent)
  | .media _ source poster => .media source :: Occurrence.ofMedia? poster

/-- The occurrences in a sequence of blocks. -/
def Block.occurrencesOf (parent : Identity) : List Block → List Occurrence
  | [] => []
  | block :: rest => block.occurrences parent ++ Block.occurrencesOf parent rest

/-- The occurrences in the items of a list. -/
def Block.occurrencesOfItems (parent : Identity) : List (List Block) → List Occurrence
  | [] => []
  | item :: rest => Block.occurrencesOf parent item ++ Block.occurrencesOfItems parent rest

end

/-- The occurrences in markup. -/
def Markup.occurrences (parent : Identity) (markup : Markup) : List Occurrence :=
  Block.occurrencesOf parent markup

/-- The occurrences in markup that may be missing. -/
def Markup.occurrences? (parent : Identity) (markup : Option Markup) : List Occurrence :=
  markup.elim [] (Markup.occurrences parent)

/-- The occurrences in groups of links. -/
def TaskGroup.occurrencesOf (parent : Identity) (groups : List TaskGroup) : List Occurrence :=
  groups.flatMap (Markup.occurrences parent ·.content)

/-- The occurrences in the descriptions of parameters. -/
def Parameter.occurrencesOf (parent : Identity) (parameters : List Parameter) : List Occurrence :=
  parameters.flatMap (Markup.occurrences parent ·.content)

/-- The occurrences in an article: summary, discussion, curated topics, related topics. -/
def Article.occurrences (parent : Identity) (article : Article) : List Occurrence :=
  Markup.occurrences? parent article.summary ++ Markup.occurrences? parent article.discussion ++
    TaskGroup.occurrencesOf parent article.topics ++
    TaskGroup.occurrencesOf parent article.seeAlso

/-- The occurrences in all variants of a section, each with the page in the language of the
variant as its parent. -/
def Variants.occurrences {α : Type} (page : Identity)
    (occurrencesOf : Identity → α → List Occurrence) (variants : Variants α) : List Occurrence :=
  variants.entries.flatMap fun entry => occurrencesOf (page.inLanguage entry.1) entry.2

/-- The occurrences in a symbol page: summary, discussion, parameters, result, related
topics, curated topics. -/
def SymbolPage.occurrences (page : Identity) (content : SymbolPage) : List Occurrence :=
  content.summary.occurrences page Markup.occurrences? ++
    content.discussion.occurrences page Markup.occurrences? ++
    content.parameters.occurrences page Parameter.occurrencesOf ++
    content.returns.occurrences page Markup.occurrences? ++
    content.seeAlso.occurrences page TaskGroup.occurrencesOf ++
    content.topics.occurrences page TaskGroup.occurrencesOf

/-- The occurrences in an introduction: text, image, video. -/
def Intro.occurrences (parent : Identity) (intro : Intro) : List Occurrence :=
  intro.content.occurrences parent ++ Occurrence.ofMedia? intro.image ++
    Occurrence.ofMedia? intro.video

/-- The occurrences in text and the media beside it. -/
def ContentAndMedia.occurrences (parent : Identity) (item : ContentAndMedia) : List Occurrence :=
  item.content.occurrences parent ++ Occurrence.ofMedia? item.media

/-- The occurrences in the code listing of a step: the file, then the picture of its result. -/
def CodeListing.occurrences? : Option CodeListing → List Occurrence
  | none => []
  | some listing => .media listing.file :: Occurrence.ofMedia? listing.preview

/-- The occurrences in a step: instruction, caption, media, code. -/
def Step.occurrences (parent : Identity) (step : Step) : List Occurrence :=
  step.content.occurrences parent ++ step.caption.occurrences parent ++
    Occurrence.ofMedia? step.media ++ CodeListing.occurrences? step.code

/-- The occurrences in a section of a tutorial: what comes before the steps, then the steps. -/
def TutorialSection.occurrences (parent : Identity) (part : TutorialSection) : List Occurrence :=
  part.introduction.flatMap (ContentAndMedia.occurrences parent) ++
    part.steps.flatMap (Step.occurrences parent)

/-- The occurrences in an answer: text, image, justification. -/
def Choice.occurrences (parent : Identity) (choice : Choice) : List Occurrence :=
  choice.content.occurrences parent ++ Occurrence.ofMedia? choice.image ++
    choice.justification.occurrences parent

/-- The occurrences in a question: the question, what is under it, its image, its answers. -/
def Question.occurrences (parent : Identity) (question : Question) : List Occurrence :=
  question.question.occurrences parent ++ question.content.occurrences parent ++
    Occurrence.ofMedia? question.image ++ question.choices.flatMap (Choice.occurrences parent)

/-- The occurrences in the questions at the end of a page. -/
def Question.occurrences? (parent : Identity) (questions : Option (List Question)) :
    List Occurrence :=
  questions.elim [] (List.flatMap (Question.occurrences parent))

/-- The occurrences in a tutorial: introduction, sections, questions, project archive. -/
def Tutorial.occurrences (parent : Identity) (tutorial : Tutorial) : List Occurrence :=
  tutorial.intro.occurrences parent ++
    tutorial.sections.flatMap (TutorialSection.occurrences parent) ++
    Question.occurrences? parent tutorial.assessments ++
    Occurrence.ofMedia? tutorial.projectFiles

/-- The occurrences in a tutorial article: introduction, body, questions. -/
def TutorialArticle.occurrences (parent : Identity) (article : TutorialArticle) :
    List Occurrence :=
  article.intro.elim [] (Intro.occurrences parent) ++
    article.content.flatMap (ContentAndMedia.occurrences parent) ++
    Question.occurrences? parent article.assessments

/-- The occurrences in a chapter: text, image, curated tutorials. -/
def Chapter.occurrences (parent : Identity) (chapter : Chapter) : List Occurrence :=
  chapter.content.occurrences parent ++ Occurrence.ofMedia? chapter.image ++
    [.chapter chapter.name chapter.references]

/-- The occurrences in a volume: text, image, chapters. -/
def Volume.occurrences (parent : Identity) (volume : Volume) : List Occurrence :=
  volume.content.occurrences parent ++ Occurrence.ofMedia? volume.image ++
    volume.chapters.flatMap (Chapter.occurrences parent)

/-- The occurrences in a table of contents: introduction, volumes. -/
def TableOfContents.occurrences (parent : Identity) (contents : TableOfContents) :
    List Occurrence :=
  contents.intro.occurrences parent ++ contents.volumes.flatMap (Volume.occurrences parent)

/-- The occurrences in the content of a page. -/
def PageContent.occurrences (parent : Identity) : PageContent → List Occurrence
  | .article a => a.occurrences parent
  | .symbol p => p.occurrences parent
  | .contents c => c.occurrences parent
  | .tutorial t => t.occurrences parent
  | .tutorialArticle a => a.occurrences parent

/-- The occurrences in a page. -/
def Page.occurrences (page : Page) : List Occurrence := page.content.occurrences page.reference

/-- An occurrence is plain unless it stands for the tutorials of a chapter. -/
def Occurrence.isPlain : Occurrence → Bool
  | .chapter _ _ => false
  | _ => true

/-- All media and all topic references that are seen from a parent pass a test. -/
structure Occurrence.AllPass (parent : Identity) (p : Occurrence → Bool) : Prop where
  /-- Topic references pass, whatever they are. -/
  topic : ∀ range fromSymbolLink topic, p (.topic parent range fromSymbolLink topic) = true
  /-- Media pass. -/
  media : ∀ file, p (.media file) = true

section

variable {parent : Identity} {p : Occurrence → Bool}

theorem Occurrence.AllPass.ofLink (h : AllPass parent p) (range : Option SourceRange)
    (destination : Topic) : (ofLink parent range destination).all p = true := by
  unfold Occurrence.ofLink
  split
  · rw [List.all_cons, h.topic, List.all_nil, Bool.and_true]
  · rfl

theorem Occurrence.AllPass.ofMedia? (h : AllPass parent p) (file : Option Media) :
    (ofMedia? file).all p = true := by
  cases file with
  | none => rfl
  | some file => rw [Occurrence.ofMedia?, List.all_cons, h.media, List.all_nil, Bool.and_true]

mutual

/-- Inline content holds media and topic references that are seen from its parent. -/
theorem Inline.all_occurrences (h : Occurrence.AllPass parent p) :
    (inline : Inline) → (inline.occurrences parent).all p = true
  | .text _ => rfl
  | .code _ => rfl
  | .emphasis children => Inline.all_occurrencesOf h children
  | .strong children => Inline.all_occurrencesOf h children
  | .image _ file => by rw [Inline.occurrences, List.all_cons, h.media, List.all_nil, Bool.and_true]
  | .link destination range children => by
    rw [Inline.occurrences, List.all_append, h.ofLink, Inline.all_occurrencesOf h children,
      Bool.true_and]
  | .symbolLink _ _ => by
    rw [Inline.occurrences, List.all_cons, h.topic, List.all_nil, Bool.and_true]

theorem Inline.all_occurrencesOf (h : Occurrence.AllPass parent p) :
    (content : List Inline) → (Inline.occurrencesOf parent content).all p = true
  | [] => rfl
  | inline :: rest => by
    rw [Inline.occurrencesOf, List.all_append, Inline.all_occurrences h inline,
      Inline.all_occurrencesOf h rest, Bool.true_and]

end

mutual

/-- Blocks hold media and topic references that are seen from their parent. -/
theorem Block.all_occurrences (h : Occurrence.AllPass parent p) :
    (block : Block) → (block.occurrences parent).all p = true
  | .paragraph content => Inline.all_occurrencesOf h content
  | .heading _ content => Inline.all_occurrencesOf h content
  | .quote children => Block.all_occurrencesOf h children
  | .container _ children => Block.all_occurrencesOf h children
  | .code _ _ => rfl
  | .list items => Block.all_occurrencesOfItems h items
  | .links _ topics => by
    rw [Block.occurrences, List.all_map]
    exact List.all_eq_true.mpr fun entry _ => h.topic entry.range false entry.topic
  | .media _ source poster => by
    rw [Block.occurrences, List.all_cons, h.media, h.ofMedia?, Bool.true_and]

theorem Block.all_occurrencesOf (h : Occurrence.AllPass parent p) :
    (blocks : List Block) → (Block.occurrencesOf parent blocks).all p = true
  | [] => rfl
  | block :: rest => by
    rw [Block.occurrencesOf, List.all_append, Block.all_occurrences h block,
      Block.all_occurrencesOf h rest, Bool.true_and]

theorem Block.all_occurrencesOfItems (h : Occurrence.AllPass parent p) :
    (items : List (List Block)) → (Block.occurrencesOfItems parent items).all p = true
  | [] => rfl
  | item :: rest => by
    rw [Block.occurrencesOfItems, List.all_append, Block.all_occurrencesOf h item,
      Block.all_occurrencesOfItems h rest, Bool.true_and]

end

end

theorem Occurrence.allPass_isPlain (parent : Identity) : AllPass parent isPlain :=
  ⟨fun _ _ _ => rfl, fun _ => rfl⟩

theorem Occurrence.all_isPlain_ofMedia? (file : Option Media) :
    (ofMedia? file).all isPlain = true := by
  cases file with
  | none => rfl
  | some file => rfl

/-- Markup holds no chapters. -/
theorem Block.all_isPlain_of (parent : Identity) (blocks : List Block) :
    (Block.occurrencesOf parent blocks).all Occurrence.isPlain = true :=
  Block.all_occurrencesOf (Occurrence.allPass_isPlain parent) blocks

theorem Markup.all_isPlain? (parent : Identity) (markup : Option Markup) :
    (Markup.occurrences? parent markup).all Occurrence.isPlain = true := by
  cases markup with
  | none => rfl
  | some markup => exact Block.all_isPlain_of parent markup

theorem Variants.all_isPlain {α : Type} (page : Identity)
    {occurrencesOf : Identity → α → List Occurrence}
    (h : ∀ parent value, (occurrencesOf parent value).all Occurrence.isPlain = true)
    (variants : Variants α) :
    (variants.occurrences page occurrencesOf).all Occurrence.isPlain = true := by
  rw [Variants.occurrences, List.all_flatMap]
  exact List.all_eq_true.mpr fun entry _ => h _ entry.2

theorem TaskGroup.all_isPlain (parent : Identity) (groups : List TaskGroup) :
    (TaskGroup.occurrencesOf parent groups).all Occurrence.isPlain = true := by
  rw [TaskGroup.occurrencesOf, List.all_flatMap]
  exact List.all_eq_true.mpr fun group _ => Block.all_isPlain_of parent group.content

theorem Parameter.all_isPlain (parent : Identity) (parameters : List Parameter) :
    (Parameter.occurrencesOf parent parameters).all Occurrence.isPlain = true := by
  rw [Parameter.occurrencesOf, List.all_flatMap]
  exact List.all_eq_true.mpr fun parameter _ => Block.all_isPlain_of parent parameter.content

theorem Article.all_isPlain (parent : Identity) (article : Article) :
    (article.occurrences parent).all Occurrence.isPlain = true := by
  simp only [Article.occurrences, List.all_append, Markup.all_isPlain?, TaskGroup.all_isPlain,
    Bool.and_self]

/-- Symbol pages hold no chapters. -/
theorem SymbolPage.all_isPlain (page : Identity) (content : SymbolPage) :
    (content.occurrences page).all Occurrence.isPlain = true := by
  simp only [SymbolPage.occurrences, List.all_append, Bool.and_self,
    Variants.all_isPlain page Markup.all_isPlain?, Variants.all_isPlain page Parameter.all_isPlain,
    Variants.all_isPlain page TaskGroup.all_isPlain]

theorem Intro.all_isPlain (parent : Identity) (intro : Intro) :
    (intro.occurrences parent).all Occurrence.isPlain = true := by
  simp only [Intro.occurrences, Markup.occurrences, List.all_append, Block.all_isPlain_of,
    Occurrence.all_isPlain_ofMedia?, Bool.and_self]

theorem ContentAndMedia.all_isPlain (parent : Identity) (items : List ContentAndMedia) :
    (items.flatMap (ContentAndMedia.occurrences parent)).all Occurrence.isPlain = true := by
  rw [List.all_flatMap]
  refine List.all_eq_true.mpr fun item _ => ?_
  simp only [ContentAndMedia.occurrences, Markup.occurrences, List.all_append,
    Block.all_isPlain_of, Occurrence.all_isPlain_ofMedia?, Bool.and_self]

theorem Step.all_isPlain (parent : Identity) (steps : List Step) :
    (steps.flatMap (Step.occurrences parent)).all Occurrence.isPlain = true := by
  have hlisting : ∀ listing, (CodeListing.occurrences? listing).all Occurrence.isPlain = true := by
    intro listing
    cases listing with
    | none => rfl
    | some listing => exact Occurrence.all_isPlain_ofMedia? listing.preview
  rw [List.all_flatMap]
  refine List.all_eq_true.mpr fun step _ => ?_
  simp only [Step.occurrences, Markup.occurrences, List.all_append, Block.all_isPlain_of,
    Occurrence.all_isPlain_ofMedia?, hlisting, Bool.and_self]

theorem Choice.all_isPlain (parent : Identity) (choices : List Choice) :
    (choices.flatMap (Choice.occurrences parent)).all Occurrence.isPlain = true := by
  rw [List.all_flatMap]
  refine List.all_eq_true.mpr fun choice _ => ?_
  simp only [Choice.occurrences, Markup.occurrences, List.all_append, Block.all_isPlain_of,
    Occurrence.all_isPlain_ofMedia?, Bool.and_self]

theorem Question.all_isPlain? (parent : Identity) (questions : Option (List Question)) :
    (Question.occurrences? parent questions).all Occurrence.isPlain = true := by
  cases questions with
  | none => rfl
  | some questions =>
    change (questions.flatMap (Question.occurrences parent)).all Occurrence.isPlain = true
    rw [List.all_flatMap]
    refine List.all_eq_true.mpr fun question _ => ?_
    simp only [Question.occurrences, Markup.occurrences, List.all_append, Block.all_isPlain_of,
      Occurrence.all_isPlain_ofMedia?, Choice.all_isPlain, Bool.and_self]

theorem Tutorial.all_isPlain (parent : Identity) (tutorial : Tutorial) :
    (tutorial.occurrences parent).all Occurrence.isPlain = true := by
  have hsections : (tutorial.sections.flatMap (TutorialSection.occurrences parent)).all
      Occurrence.isPlain = true := by
    rw [List.all_flatMap]
    refine List.all_eq_true.mpr fun part _ => ?_
    rw [TutorialSection.occurrences, List.all_append, ContentAndMedia.all_isPlain,
      Step.all_isPlain, Bool.and_self]
  simp only [Tutorial.occurrences, List.all_append, Intro.all_isPlain, hsections,
    Question.all_isPlain?, Occurrence.all_isPlain_ofMedia?, Bool.and_self]

theorem TutorialArticle.all_isPlain (parent : Identity) (article : TutorialArticle) :
    (article.occurrences parent).all Occurrence.isPlain = true := by
  have hintro : (article.intro.elim [] (Intro.occurrences parent)).all Occurrence.isPlain =
      true := by
    cases article.intro with
    | none => rfl
    | some intro => exact intro.all_isPlain parent
  simp only [TutorialArticle.occurrences, List.all_append, hintro, ContentAndMedia.all_isPlain,
    Question.all_isPlain?, Bool.and_self]

/-- Only a table of contents holds chapters. -/
theorem PageContent.all_isPlain (parent : Identity) {content : PageContent}
    (h : ∀ contents, content ≠ .contents contents) :
    (content.occurrences parent).all Occurrence.isPlain = true := by
  cases content with
  | article a => exact a.all_isPlain parent
  | symbol p => exact p.all_isPlain parent
  | contents c => exact absurd rfl (h c)
  | tutorial t => exact t.all_isPlain parent
  | tutorialArticle a => exact a.all_isPlain parent

end TopicLinks
