import TopicLinks.Resolution.Chapter

/-!
# Resolving pages

Each kind of page has its own order of sections. The walk of a symbol page stops at the
first variant in a language that the page does not declare; what was resolved before
stays resolved, and the rest of the page is untouched.
-/

namespace TopicLinks

/-- A value as far as it was resolved, and why it was not resolved further. -/
structure Progress (α : Type) where
  /-- The value. -/
  value : α
  /-- The undeclared language at which the walk stopped. -/
  stopped : Option UndeclaredLanguage := none

/-- Change the value and keep the reason. -/
def Progress.map {α β : Type} (f : α → β) (p : Progress α) : Progress β := ⟨f p.value, p.stopped⟩

namespace Dialogue

variable {α : Type}

/-- Carry out steps on a value one after the other, until one of them stops. -/
def inTurn : List (α → Dialogue (Progress α)) → α → Dialogue (Progress α)
  | [], value => pure ⟨value, none⟩
  | step :: rest, value => do
    let progress ← step value
    match progress.stopped with
    | some _ => pure progress
    | none => inTurn rest progress.value

end Dialogue

namespace Viewpoint

variable {α : Type}

/-- Resolve markup that may be missing. -/
def resolveSection (v : Viewpoint) (parent : Identity) : Option Markup → Dialogue (Option Markup) :=
  Dialogue.maybe (v.resolveMarkup parent)

/-- Resolve the content of a group of links. -/
def resolveGroup (v : Viewpoint) (parent : Identity) (group : TaskGroup) : Dialogue TaskGroup := do
  let content ← v.resolveMarkup parent group.content
  pure { group with content }

/-- Resolve the description of a parameter. -/
def resolveParameter (v : Viewpoint) (parent : Identity) (parameter : Parameter) :
    Dialogue Parameter := do
  let content ← v.resolveMarkup parent parameter.content
  pure { parameter with content }

/-- Resolve an article: summary, discussion, curated topics, related topics. -/
def resolveArticle (v : Viewpoint) (parent : Identity) (article : Article) : Dialogue Article := do
  let summary ← v.resolveSection parent article.summary
  let discussion ← v.resolveSection parent article.discussion
  let topics ← Dialogue.each (v.resolveGroup parent) article.topics
  let seeAlso ← Dialogue.each (v.resolveGroup parent) article.seeAlso
  pure { article with summary, discussion, topics, seeAlso }

/-- Resolve the variants of a section in stored order, each from the page as seen in the
language of the variant. -/
def resolveEntries (declared : LanguageSet) (parent : Identity)
    (resolve : Identity → α → Dialogue α) :
    List (Language × α) → Dialogue (Progress (List (Language × α)))
  | [] => pure ⟨[], none⟩
  | (language, value) :: rest =>
    match declared.forVariant language with
    | .error e => pure ⟨(language, value) :: rest, some e⟩
    | .ok declaredLanguage => do
      let value ← resolve (parent.inLanguage declaredLanguage) value
      let progress ← resolveEntries declared parent resolve rest
      pure (progress.map ((language, value) :: ·))

/-- Resolve all variants of a section. -/
def resolveVariants (declared : LanguageSet) (parent : Identity)
    (resolve : Identity → α → Dialogue α) (variants : Variants α) :
    Dialogue (Progress (Variants α)) := do
  let progress ← resolveEntries declared parent resolve variants.entries
  pure (progress.map (⟨·⟩))

/-- The sections of a symbol page in the order in which they are resolved. -/
def symbolSections (v : Viewpoint) (declared : LanguageSet) (parent : Identity) :
    List (SymbolPage → Dialogue (Progress SymbolPage)) :=
  [fun page => do
    let progress ← resolveVariants declared parent v.resolveSection page.summary
    pure (progress.map fun summary => { page with summary }),
  fun page => do
    let progress ← resolveVariants declared parent v.resolveSection page.discussion
    pure (progress.map fun discussion => { page with discussion }),
  fun page => do
    let progress ← resolveVariants declared parent
      (fun parent => Dialogue.each (v.resolveParameter parent)) page.parameters
    pure (progress.map fun parameters => { page with parameters }),
  fun page => do
    let progress ← resolveVariants declared parent v.resolveSection page.returns
    pure (progress.map fun returns => { page with returns }),
  fun page => do
    let progress ← resolveVariants declared parent
      (fun parent => Dialogue.each (v.resolveGroup parent)) page.seeAlso
    pure (progress.map fun seeAlso => { page with seeAlso }),
  fun page => do
    let progress ← resolveVariants declared parent
      (fun parent => Dialogue.each (v.resolveGroup parent)) page.topics
    pure (progress.map fun topics => { page with topics })]

/-- The declaration that a doc comment was inherited from. -/
def inheritanceOf (comment : DocComment) : Option Inheritance :=
  comment.inheritedFrom.map fun parent => ⟨parent, comment.origin, comment.source⟩

/-- Resolve a symbol page. Inherited documentation has the declaration it came from
as a second place to resolve from. -/
def resolveSymbol (v : Viewpoint) (parent : Identity) (page : SymbolPage) :
    Dialogue (Progress SymbolPage) :=
  let v := { v with inheritance := page.docComment.bind inheritanceOf }
  Dialogue.inTurn (v.symbolSections page.languages parent) page

/-- Resolve an introduction: text, image, video. -/
def resolveIntro (v : Viewpoint) (parent : Identity) (intro : Intro) : Dialogue Intro := do
  let content ← v.resolveMarkup parent intro.content
  v.checkMedia? intro.image
  v.checkMedia? intro.video
  pure { intro with content }

/-- Resolve text with media beside it. -/
def resolveContentAndMedia (v : Viewpoint) (parent : Identity) (item : ContentAndMedia) :
    Dialogue ContentAndMedia := do
  let content ← v.resolveMarkup parent item.content
  v.checkMedia? item.media
  pure { item with content }

/-- Check the code listing of a step: the file, then the picture of its result. -/
def checkListing (v : Viewpoint) : Option CodeListing → Dialogue Unit
  | none => pure ()
  | some listing => do
    v.checkMedia listing.file
    v.checkMedia? listing.preview

/-- Resolve a step: instruction, caption, media, code. -/
def resolveStep (v : Viewpoint) (parent : Identity) (step : Step) : Dialogue Step := do
  let content ← v.resolveMarkup parent step.content
  let caption ← v.resolveMarkup parent step.caption
  v.checkMedia? step.media
  v.checkListing step.code
  pure { step with content, caption }

/-- Resolve a section of a tutorial: what comes before the steps, then the steps. -/
def resolveTutorialSection (v : Viewpoint) (parent : Identity) (part : TutorialSection) :
    Dialogue TutorialSection := do
  let introduction ← Dialogue.each (v.resolveContentAndMedia parent) part.introduction
  let steps ← Dialogue.each (v.resolveStep parent) part.steps
  pure { part with introduction, steps }

/-- Resolve one answer to a question: text, image, justification. -/
def resolveChoice (v : Viewpoint) (parent : Identity) (choice : Choice) : Dialogue Choice := do
  let content ← v.resolveMarkup parent choice.content
  v.checkMedia? choice.image
  let justification ← v.resolveMarkup parent choice.justification
  pure { choice with content, justification }

/-- Resolve a question: the question, what is under it, its image, its answers. -/
def resolveQuestion (v : Viewpoint) (parent : Identity) (question : Question) :
    Dialogue Question := do
  let text ← v.resolveMarkup parent question.question
  let content ← v.resolveMarkup parent question.content
  v.checkMedia? question.image
  let choices ← Dialogue.each (v.resolveChoice parent) question.choices
  pure { question with question := text, content, choices }

/-- Resolve the questions at the end of a page, if there are any. -/
def resolveAssessments (v : Viewpoint) (parent : Identity) :
    Option (List Question) → Dialogue (Option (List Question)) :=
  Dialogue.maybe (Dialogue.each (v.resolveQuestion parent))

/-- Mark the asset of a name as a download, if there is such an asset. -/
def offerDownload (name : String) : Dialogue Unit := do
  let root ← Dialogue.query (.root .bundle)
  match ← Dialogue.query (.findAsset name root) with
  | none => pure ()
  | some asset => Dialogue.query (.updateAsset name { asset with use := .download } root)

/-- Check the archive of a project and offer it as a download. An archive that is missing
or on the web is offered all the same, if an asset has its name. -/
def offerProject (v : Viewpoint) : Option Media → Dialogue Unit
  | none => pure ()
  | some archive => do
    v.checkMedia archive
    offerDownload archive.resource.path

/-- Resolve a tutorial: introduction, sections, questions, project archive. -/
def resolveTutorial (v : Viewpoint) (parent : Identity) (tutorial : Tutorial) :
    Dialogue Tutorial := do
  let intro ← v.resolveIntro parent tutorial.intro
  let sections ← Dialogue.each (v.resolveTutorialSection parent) tutorial.sections
  let assessments ← v.resolveAssessments parent tutorial.assessments
  v.offerProject tutorial.projectFiles
  pure { tutorial with intro, sections, assessments }

/-- Resolve a tutorial article: introduction, body, questions. -/
def resolveTutorialArticle (v : Viewpoint) (parent : Identity) (article : TutorialArticle) :
    Dialogue TutorialArticle := do
  let intro ← Dialogue.maybe (v.resolveIntro parent) article.intro
  let content ← Dialogue.each (v.resolveContentAndMedia parent) article.content
  let assessments ← v.resolveAssessments parent article.assessments
  pure { intro, content, assessments }

/-- Resolve a volume: text, image, chapters. -/
def resolveVolume (v : Viewpoint) (parent : Identity) (volume : Volume) : Dialogue Volume := do
  let content ← v.resolveMarkup parent volume.content
  v.checkMedia? volume.image
  let chapters ← Dialogue.each (v.resolveChapter parent) volume.chapters
  pure { volume with content, chapters }

/-- Resolve a table of contents: introduction, volumes. -/
def resolveContents (v : Viewpoint) (parent : Identity) (contents : TableOfContents) :
    Dialogue TableOfContents := do
  let intro ← v.resolveIntro parent contents.intro
  let volumes ← Dialogue.each (v.resolveVolume parent) contents.volumes
  pure { intro, volumes }

/-- Resolve the content of a page. Only symbol pages can stop before the end. -/
def resolveContent (v : Viewpoint) (parent : Identity) :
    PageContent → Dialogue (Progress PageContent)
  | .article article => do
    let article ← v.resolveArticle parent article
    pure ⟨.article article, none⟩
  | .symbol page => do
    let progress ← v.resolveSymbol parent page
    pure (progress.map .symbol)
  | .contents contents => do
    let contents ← v.resolveContents parent contents
    pure ⟨.contents contents, none⟩
  | .tutorial tutorial => do
    let tutorial ← v.resolveTutorial parent tutorial
    pure ⟨.tutorial tutorial, none⟩
  | .tutorialArticle article => do
    let article ← v.resolveTutorialArticle parent article
    pure ⟨.tutorialArticle article, none⟩

end Viewpoint

/-- Resolve every reference of a page, starting from the page's own identity. -/
def Page.resolve (settings : Settings) (page : Page) : Dialogue (Progress Page) := do
  let v : Viewpoint := { settings, source := page.source }
  let progress ← v.resolveContent page.reference page.content
  pure (progress.map fun content => { page with content })

end TopicLinks
