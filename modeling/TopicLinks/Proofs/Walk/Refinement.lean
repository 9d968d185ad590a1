import Mathlib.Data.List.Forall2
import TopicLinks.Walker
import TopicLinks.Proofs.Walk.Outcomes

/-!
# What a walk leaves alone

A walk may resolve links of a page, and it may drop tutorials from chapters. Everything else is
left as it is: texts, media, ranges, the languages of variants, and the order of all parts. The
relations here say so part by part. Most parts are the old ones with new markup, so a part that
is not named stays the same. A walk that stops part way keeps to the same relations.
-/

namespace TopicLinks

/-- Inline content after a walk. Only topic references differ, and of the destinations of links
only those that name topics. -/
inductive Inline.Refines : Inline → Inline → Prop where
  /-- Text is as it was. -/
  | text (text : String) : Inline.Refines (.text text) (.text text)
  /-- Code is as it was. -/
  | code (code : String) : Inline.Refines (.code code) (.code code)
  /-- Emphasized content is still emphasized. -/
  | emphasis {children children' : List Inline}
    (hchildren : List.Forall₂ Inline.Refines children children') :
    Inline.Refines (.emphasis children) (.emphasis children')
  /-- Strong content is still strong. -/
  | strong {children children' : List Inline}
    (hchildren : List.Forall₂ Inline.Refines children children') :
    Inline.Refines (.strong children) (.strong children')
  /-- An image is as it was. -/
  | image (alt : String) (file : Media) : Inline.Refines (.image alt file) (.image alt file)
  /-- A link has its range, and its destination unless that could be resolved as a topic. -/
  | link {destination destination' : Topic} {range : Option SourceRange}
    {children children' : List Inline} (htopic : destination.Refines destination')
    (hother : destination.isDestination = false → destination' = destination)
    (hchildren : List.Forall₂ Inline.Refines children children') :
    Inline.Refines (.link destination range children) (.link destination' range children')
  /-- A symbol link has its range. -/
  | symbolLink {destination destination' : Topic} {range : Option SourceRange}
    (htopic : destination.Refines destination') :
    Inline.Refines (.symbolLink destination range) (.symbolLink destination' range)

/-- An entry of a list of links after a walk: only its topic may be resolved. -/
def LinkedTopic.Refines (before after : LinkedTopic) : Prop :=
  ∃ topic, before.topic.Refines topic ∧ after = { before with topic }

/-- A block after a walk. Only topic references inside it differ. -/
inductive Block.Refines : Block → Block → Prop where
  /-- A paragraph holds refined content. -/
  | paragraph {content content' : List Inline}
    (hcontent : List.Forall₂ Inline.Refines content content') :
    Block.Refines (.paragraph content) (.paragraph content')
  /-- A heading has its level. -/
  | heading {level : Nat} {content content' : List Inline}
    (hcontent : List.Forall₂ Inline.Refines content content') :
    Block.Refines (.heading level content) (.heading level content')
  /-- A quotation holds refined blocks. -/
  | quote {children children' : List Block}
    (hchildren : List.Forall₂ Block.Refines children children') :
    Block.Refines (.quote children) (.quote children')
  /-- A container has its layout. -/
  | container {layout : Layout} {children children' : List Block}
    (hchildren : List.Forall₂ Block.Refines children children') :
    Block.Refines (.container layout children) (.container layout children')
  /-- A listing is as it was. -/
  | code (code : String) (language : Option String) :
    Block.Refines (.code code language) (.code code language)
  /-- A list has as many items, and each item holds refined blocks. -/
  | list {items items' : List (List Block)}
    (hitems : List.Forall₂ (List.Forall₂ Block.Refines) items items') :
    Block.Refines (.list items) (.list items')
  /-- A list of links has its style and its entries in order. -/
  | links {style : String} {topics topics' : List LinkedTopic}
    (htopics : List.Forall₂ LinkedTopic.Refines topics topics') :
    Block.Refines (.links style topics) (.links style topics')
  /-- An image or a video is as it was. -/
  | media (kind : MediaKind) (source : Media) (poster : Option Media) :
    Block.Refines (.media kind source poster) (.media kind source poster)

/-- Markup after a walk: as many blocks in the same order. -/
def Markup.Refines (before after : Markup) : Prop := List.Forall₂ Block.Refines before after

/-- A group of links after a walk: only its content differs. -/
def TaskGroup.Refines (before after : TaskGroup) : Prop :=
  ∃ content, before.content.Refines content ∧ after = { before with content }

/-- A parameter after a walk: only its description differs. -/
def Parameter.Refines (before after : Parameter) : Prop :=
  ∃ content, before.content.Refines content ∧ after = { before with content }

/-- An article after a walk. -/
inductive Article.Refines (before : Article) : Article → Prop where
  /-- Only the four sections with markup differ. -/
  | of {summary discussion : Option Markup} {topics seeAlso : List TaskGroup}
    (hsummary : Option.Rel Markup.Refines before.summary summary)
    (hdiscussion : Option.Rel Markup.Refines before.discussion discussion)
    (htopics : List.Forall₂ TaskGroup.Refines before.topics topics)
    (hseeAlso : List.Forall₂ TaskGroup.Refines before.seeAlso seeAlso) :
    Article.Refines before { before with summary, discussion, topics, seeAlso }

/-- An entry of a section after a walk: its language is the same, and its value may differ as
`R` allows. -/
def Variants.EntryRefines {α : Type} (R : α → α → Prop) (before after : Language × α) : Prop :=
  ∃ value, R before.2 value ∧ after = (before.1, value)

/-- The variants of a section after a walk: the same languages in the same order. -/
def Variants.Refines {α : Type} (R : α → α → Prop) (before after : Variants α) : Prop :=
  List.Forall₂ (EntryRefines R) before.entries after.entries

/-- A symbol page after a walk. -/
inductive SymbolPage.Refines (before : SymbolPage) : SymbolPage → Prop where
  /-- Only the six sections differ: the declared languages and the doc comment are the same. -/
  | of {summary discussion returns : Variants (Option Markup)}
    {parameters : Variants (List Parameter)} {seeAlso topics : Variants (List TaskGroup)}
    (hsummary : before.summary.Refines (Option.Rel Markup.Refines) summary)
    (hdiscussion : before.discussion.Refines (Option.Rel Markup.Refines) discussion)
    (hparameters : before.parameters.Refines (List.Forall₂ Parameter.Refines) parameters)
    (hreturns : before.returns.Refines (Option.Rel Markup.Refines) returns)
    (hseeAlso : before.seeAlso.Refines (List.Forall₂ TaskGroup.Refines) seeAlso)
    (htopics : before.topics.Refines (List.Forall₂ TaskGroup.Refines) topics) :
    SymbolPage.Refines before
      { before with summary, discussion, parameters, returns, seeAlso, topics }

/-- An introduction after a walk: only its text differs. -/
def Intro.Refines (before after : Intro) : Prop :=
  ∃ content, before.content.Refines content ∧ after = { before with content }

/-- Text with media beside it after a walk: only the text differs. -/
def ContentAndMedia.Refines (before after : ContentAndMedia) : Prop :=
  ∃ content, before.content.Refines content ∧ after = { before with content }

/-- A step after a walk: only its instruction and its caption differ. -/
def Step.Refines (before after : Step) : Prop :=
  ∃ content caption, before.content.Refines content ∧ before.caption.Refines caption ∧
    after = { before with content, caption }

/-- A section of a tutorial after a walk: only the parts of its body differ. -/
def TutorialSection.Refines (before after : TutorialSection) : Prop :=
  ∃ introduction steps, List.Forall₂ ContentAndMedia.Refines before.introduction introduction ∧
    List.Forall₂ Step.Refines before.steps steps ∧ after = { before with introduction, steps }

/-- An answer after a walk: only its text and its justification differ. -/
def Choice.Refines (before after : Choice) : Prop :=
  ∃ content justification, before.content.Refines content ∧
    before.justification.Refines justification ∧ after = { before with content, justification }

/-- A question after a walk. -/
inductive Question.Refines (before : Question) : Question → Prop where
  /-- Only the question itself, what is under it, and the answers differ. -/
  | of {question content : Markup} {choices : List Choice}
    (hquestion : before.question.Refines question) (hcontent : before.content.Refines content)
    (hchoices : List.Forall₂ Choice.Refines before.choices choices) :
    Question.Refines before { before with question, content, choices }

/-- A tutorial after a walk. -/
inductive Tutorial.Refines (before : Tutorial) : Tutorial → Prop where
  /-- Only introduction, sections and questions differ: the project archive is the same. -/
  | of {intro : Intro} {sections : List TutorialSection} {assessments : Option (List Question)}
    (hintro : before.intro.Refines intro)
    (hsections : List.Forall₂ TutorialSection.Refines before.sections sections)
    (hassessments : Option.Rel (List.Forall₂ Question.Refines) before.assessments assessments) :
    Tutorial.Refines before { before with intro, sections, assessments }

/-- A tutorial article after a walk. -/
inductive TutorialArticle.Refines (before : TutorialArticle) : TutorialArticle → Prop where
  /-- Introduction, body and questions differ in topic references only. -/
  | of {intro : Option Intro} {content : List ContentAndMedia}
    {assessments : Option (List Question)} (hintro : Option.Rel Intro.Refines before.intro intro)
    (hcontent : List.Forall₂ ContentAndMedia.Refines before.content content)
    (hassessments : Option.Rel (List.Forall₂ Question.Refines) before.assessments assessments) :
    TutorialArticle.Refines before { intro, content, assessments }

/-- A chapter after a walk: its description differs, and some of its tutorials may be missing. The
others are in their order, each with its range and as it was or resolved. -/
def Chapter.Refines (before after : Chapter) : Prop :=
  ∃ content references missing, before.content.Refines content ∧
    TutorialReference.Pruned before.references references missing ∧
    after = { before with content, references }

/-- A volume after a walk: only its description and its chapters differ. -/
def Volume.Refines (before after : Volume) : Prop :=
  ∃ content chapters, before.content.Refines content ∧
    List.Forall₂ Chapter.Refines before.chapters chapters ∧
    after = { before with content, chapters }

/-- A table of contents after a walk. -/
inductive TableOfContents.Refines (before : TableOfContents) : TableOfContents → Prop where
  /-- It has as many volumes in the same order. -/
  | of {intro : Intro} {volumes : List Volume} (hintro : before.intro.Refines intro)
    (hvolumes : List.Forall₂ Volume.Refines before.volumes volumes) :
    TableOfContents.Refines before { intro, volumes }

/-- The content of a page after a walk is of the same kind. -/
inductive PageContent.Refines : PageContent → PageContent → Prop where
  /-- An article is an article. -/
  | article {before after : Article} (h : before.Refines after) :
    PageContent.Refines (.article before) (.article after)
  /-- A symbol page is a symbol page. -/
  | symbol {before after : SymbolPage} (h : before.Refines after) :
    PageContent.Refines (.symbol before) (.symbol after)
  /-- A table of contents is a table of contents. -/
  | contents {before after : TableOfContents} (h : before.Refines after) :
    PageContent.Refines (.contents before) (.contents after)
  /-- A tutorial is a tutorial. -/
  | tutorial {before after : Tutorial} (h : before.Refines after) :
    PageContent.Refines (.tutorial before) (.tutorial after)
  /-- A tutorial article is a tutorial article. -/
  | tutorialArticle {before after : TutorialArticle} (h : before.Refines after) :
    PageContent.Refines (.tutorialArticle before) (.tutorialArticle after)

/-- A page after a walk: only its content differs. -/
def Page.Refines (before after : Page) : Prop :=
  ∃ content, before.content.Refines content ∧ after = { before with content }

mutual

theorem Inline.refines_self : (inline : Inline) → inline.Refines inline
  | .text _ => Inline.Refines.text _
  | .code _ => Inline.Refines.code _
  | .emphasis children => Inline.Refines.emphasis (Inline.refines_all children)
  | .strong children => Inline.Refines.strong (Inline.refines_all children)
  | .image _ _ => Inline.Refines.image _ _
  | .link _ _ children =>
    Inline.Refines.link (Or.inl rfl) (fun _ => rfl) (Inline.refines_all children)
  | .symbolLink _ _ => Inline.Refines.symbolLink (Or.inl rfl)

theorem Inline.refines_all :
    (content : List Inline) → List.Forall₂ Inline.Refines content content
  | [] => .nil
  | inline :: rest => .cons (Inline.refines_self inline) (Inline.refines_all rest)

end

theorem LinkedTopic.refines_all (topics : List LinkedTopic) :
    List.Forall₂ LinkedTopic.Refines topics topics :=
  List.forall₂_same.mpr fun entry _ => ⟨entry.topic, Or.inl rfl, rfl⟩

mutual

theorem Block.refines_self : (block : Block) → block.Refines block
  | .paragraph content => Block.Refines.paragraph (Inline.refines_all content)
  | .heading _ content => Block.Refines.heading (Inline.refines_all content)
  | .quote children => Block.Refines.quote (Block.refines_all children)
  | .container _ children => Block.Refines.container (Block.refines_all children)
  | .code _ _ => Block.Refines.code _ _
  | .list items => Block.Refines.list (Block.refines_items items)
  | .links _ topics => Block.Refines.links (LinkedTopic.refines_all topics)
  | .media _ _ _ => Block.Refines.media _ _ _

theorem Block.refines_all :
    (blocks : List Block) → List.Forall₂ Block.Refines blocks blocks
  | [] => .nil
  | block :: rest => .cons (Block.refines_self block) (Block.refines_all rest)

theorem Block.refines_items :
    (items : List (List Block)) → List.Forall₂ (List.Forall₂ Block.Refines) items items
  | [] => .nil
  | item :: rest => .cons (Block.refines_all item) (Block.refines_items rest)

end

theorem Markup.refines_self? (markup : Option Markup) :
    Option.Rel Markup.Refines markup markup := by
  cases markup with
  | none => exact .none
  | some markup => exact .some (Block.refines_all markup)

theorem TaskGroup.refines_all (groups : List TaskGroup) :
    List.Forall₂ TaskGroup.Refines groups groups :=
  List.forall₂_same.mpr fun group _ => ⟨group.content, Block.refines_all group.content, rfl⟩

theorem Parameter.refines_all (parameters : List Parameter) :
    List.Forall₂ Parameter.Refines parameters parameters :=
  List.forall₂_same.mpr fun parameter _ =>
    ⟨parameter.content, Block.refines_all parameter.content, rfl⟩

/-- Entries that the walk has not come to are as they were. -/
theorem Variants.refines_entries {α : Type} {R : α → α → Prop} (hR : ∀ value, R value value)
    (entries : List (Language × α)) : List.Forall₂ (EntryRefines R) entries entries :=
  List.forall₂_same.mpr fun entry _ => ⟨entry.2, hR entry.2, rfl⟩

theorem Article.refines_self (article : Article) : article.Refines article :=
  .of (Markup.refines_self? _) (Markup.refines_self? _) (TaskGroup.refines_all _)
    (TaskGroup.refines_all _)

theorem SymbolPage.refines_self (page : SymbolPage) : page.Refines page :=
  .of (Variants.refines_entries Markup.refines_self? _)
    (Variants.refines_entries Markup.refines_self? _)
    (Variants.refines_entries Parameter.refines_all _)
    (Variants.refines_entries Markup.refines_self? _)
    (Variants.refines_entries TaskGroup.refines_all _)
    (Variants.refines_entries TaskGroup.refines_all _)

theorem Intro.refines_self (intro : Intro) : intro.Refines intro :=
  ⟨intro.content, Block.refines_all _, rfl⟩

theorem ContentAndMedia.refines_all (items : List ContentAndMedia) :
    List.Forall₂ ContentAndMedia.Refines items items :=
  List.forall₂_same.mpr fun item _ => ⟨item.content, Block.refines_all _, rfl⟩

theorem Step.refines_all (steps : List Step) : List.Forall₂ Step.Refines steps steps :=
  List.forall₂_same.mpr fun step _ =>
    ⟨step.content, step.caption, Block.refines_all _, Block.refines_all _, rfl⟩

theorem TutorialSection.refines_all (sections : List TutorialSection) :
    List.Forall₂ TutorialSection.Refines sections sections :=
  List.forall₂_same.mpr fun part _ =>
    ⟨part.introduction, part.steps, ContentAndMedia.refines_all _, Step.refines_all _, rfl⟩

theorem Choice.refines_all (choices : List Choice) : List.Forall₂ Choice.Refines choices choices :=
  List.forall₂_same.mpr fun choice _ =>
    ⟨choice.content, choice.justification, Block.refines_all _, Block.refines_all _, rfl⟩

theorem Question.refines_self? (questions : Option (List Question)) :
    Option.Rel (List.Forall₂ Question.Refines) questions questions := by
  cases questions with
  | none => exact .none
  | some questions =>
    exact .some (List.forall₂_same.mpr fun _ _ =>
      .of (Block.refines_all _) (Block.refines_all _) (Choice.refines_all _))

theorem Tutorial.refines_self (tutorial : Tutorial) : tutorial.Refines tutorial :=
  .of (Intro.refines_self _) (TutorialSection.refines_all _) (Question.refines_self? _)

theorem TutorialArticle.refines_self (article : TutorialArticle) : article.Refines article := by
  refine .of ?_ (ContentAndMedia.refines_all _) (Question.refines_self? _)
  cases article.intro with
  | none => exact .none
  | some intro => exact .some intro.refines_self

/-- References that nothing is done to are all kept. -/
theorem TutorialReference.pruned_self (references : List TutorialReference) :
    Pruned references references [] := by
  induction references with
  | nil => exact .nil
  | cons reference rest ih => exact .kept (Or.inl rfl) ih

theorem Chapter.refines_all (chapters : List Chapter) :
    List.Forall₂ Chapter.Refines chapters chapters :=
  List.forall₂_same.mpr fun chapter _ => ⟨chapter.content, chapter.references, [],
    Block.refines_all _, TutorialReference.pruned_self _, rfl⟩

theorem Volume.refines_all (volumes : List Volume) : List.Forall₂ Volume.Refines volumes volumes :=
  List.forall₂_same.mpr fun volume _ =>
    ⟨volume.content, volume.chapters, Block.refines_all _, Chapter.refines_all _, rfl⟩

theorem PageContent.refines_self (content : PageContent) : content.Refines content := by
  cases content with
  | article a => exact .article a.refines_self
  | symbol p => exact .symbol p.refines_self
  | contents c => exact .contents (.of c.intro.refines_self (Volume.refines_all _))
  | tutorial t => exact .tutorial t.refines_self
  | tutorialArticle a => exact .tutorialArticle a.refines_self

/-- A page that nothing is done to is refined by itself. -/
theorem Page.refines_self (page : Page) : page.Refines page :=
  ⟨page.content, page.content.refines_self, rfl⟩

namespace Viewpoint

open Dialogue

variable {α : Type} (v : Viewpoint) (parent : Identity)

/-- The destination of a link that is no topic stays as it is. -/
theorem refines_destination (range : Option SourceRange) (destination : Topic) :
    (v.resolveDestination parent range destination).Returns fun after =>
      destination.Refines after ∧ (destination.isDestination = false → after = destination) := by
  unfold resolveDestination
  split
  · rename_i hdestination
    refine (v.returns_resolveTopic parent range false destination).mono fun after h => ⟨h, ?_⟩
    exact fun hother => absurd (hdestination.symm.trans hother) Bool.noConfusion
  · exact ⟨Or.inl rfl, fun _ => rfl⟩

mutual

/-- The walk of inline content refines it. -/
theorem refines_inline : (inline : Inline) → (v.resolveInline parent inline).Returns inline.Refines
  | .text text => Inline.Refines.text text
  | .code code => Inline.Refines.code code
  | .emphasis children => (refines_inlines children).bind fun _ h => Inline.Refines.emphasis h
  | .strong children => (refines_inlines children).bind fun _ h => Inline.Refines.strong h
  | .image alt file => returns_bind_of_forall fun _ => Inline.Refines.image alt file
  | .link destination range children =>
    (v.refines_destination parent range destination).bind fun _ htopic =>
      (refines_inlines children).bind fun _ h => Inline.Refines.link htopic.1 htopic.2 h
  | .symbolLink destination range =>
    (v.returns_resolveTopic parent range true destination).bind fun _ htopic =>
      Inline.Refines.symbolLink htopic

theorem refines_inlines : (content : List Inline) →
    (v.resolveInlines parent content).Returns (List.Forall₂ Inline.Refines content)
  | [] => List.Forall₂.nil
  | inline :: rest => (refines_inline inline).bind fun _ hfirst =>
      (refines_inlines rest).bind fun _ hrest => List.Forall₂.cons hfirst hrest

end

theorem refines_linkedTopic (entry : LinkedTopic) :
    (v.resolveLinkedTopic parent entry).Returns entry.Refines :=
  (v.returns_resolveTopic parent entry.range false entry.topic).bind fun topic h => ⟨topic, h, rfl⟩

mutual

/-- The walk of a block refines it. -/
theorem refines_block : (block : Block) → (v.resolveBlock parent block).Returns block.Refines
  | .paragraph content =>
    (v.refines_inlines parent content).bind fun _ h => Block.Refines.paragraph h
  | .heading _ content =>
    (v.refines_inlines parent content).bind fun _ h => Block.Refines.heading h
  | .quote children => (refines_blocks children).bind fun _ h => Block.Refines.quote h
  | .container _ children => (refines_blocks children).bind fun _ h => Block.Refines.container h
  | .code code language => Block.Refines.code code language
  | .list items => (refines_items items).bind fun _ h => Block.Refines.list h
  | .links _ topics => (returns_each (v.refines_linkedTopic parent) topics).bind fun _ h =>
      Block.Refines.links h
  | .media kind source poster => returns_bind_of_forall fun _ => returns_bind_of_forall fun _ =>
      Block.Refines.media kind source poster

theorem refines_blocks : (blocks : List Block) →
    (v.resolveBlocks parent blocks).Returns (List.Forall₂ Block.Refines blocks)
  | [] => List.Forall₂.nil
  | block :: rest => (refines_block block).bind fun _ hfirst =>
      (refines_blocks rest).bind fun _ hrest => List.Forall₂.cons hfirst hrest

theorem refines_items : (items : List (List Block)) →
    (v.resolveItems parent items).Returns (List.Forall₂ (List.Forall₂ Block.Refines) items)
  | [] => List.Forall₂.nil
  | item :: rest => (refines_blocks item).bind fun _ hfirst =>
      (refines_items rest).bind fun _ hrest => List.Forall₂.cons hfirst hrest

end

theorem refines_markup (markup : Markup) :
    (v.resolveMarkup parent markup).Returns markup.Refines :=
  v.refines_blocks parent markup

theorem refines_section (markup : Option Markup) :
    (v.resolveSection parent markup).Returns (Option.Rel Markup.Refines markup) :=
  returns_maybe (v.refines_markup parent) markup

theorem refines_group (group : TaskGroup) : (v.resolveGroup parent group).Returns group.Refines :=
  (v.refines_markup parent group.content).bind fun content h => ⟨content, h, rfl⟩

theorem refines_groups (groups : List TaskGroup) :
    (each (v.resolveGroup parent) groups).Returns (List.Forall₂ TaskGroup.Refines groups) :=
  returns_each (v.refines_group parent) groups

theorem refines_parameter (parameter : Parameter) :
    (v.resolveParameter parent parameter).Returns parameter.Refines :=
  (v.refines_markup parent parameter.content).bind fun content h => ⟨content, h, rfl⟩

theorem refines_parameters (parameters : List Parameter) :
    (each (v.resolveParameter parent) parameters).Returns
      (List.Forall₂ Parameter.Refines parameters) :=
  returns_each (v.refines_parameter parent) parameters

/-- The walk of an article refines it. -/
theorem refines_article (article : Article) :
    (v.resolveArticle parent article).Returns article.Refines := by
  refine (v.refines_section parent article.summary).bind fun summary hsummary => ?_
  refine (v.refines_section parent article.discussion).bind fun discussion hdiscussion => ?_
  refine (v.refines_groups parent article.topics).bind fun topics htopics => ?_
  refine (v.refines_groups parent article.seeAlso).bind fun seeAlso hseeAlso => ?_
  exact Article.Refines.of hsummary hdiscussion htopics hseeAlso

/-- The walk of variants refines them. Where it stops, the variants from there on are as they
were. -/
theorem refines_entries (declared : LanguageSet) {resolve : Identity → α → Dialogue α}
    {R : α → α → Prop} (hrefl : ∀ value, R value value)
    (hresolve : ∀ parent value, (resolve parent value).Returns (R value))
    (entries : List (Language × α)) :
    (resolveEntries declared parent resolve entries).Returns fun progress =>
      List.Forall₂ (Variants.EntryRefines R) entries progress.value := by
  induction entries with
  | nil => exact List.Forall₂.nil
  | cons entry rest ih =>
    obtain ⟨language, value⟩ := entry
    simp only [resolveEntries]
    cases declared.forVariant language with
    | error cause => exact Variants.refines_entries hrefl _
    | ok declaredLanguage =>
      refine (hresolve (parent.inLanguage declaredLanguage) value).bind fun value' hvalue => ?_
      refine ih.bind fun progress hprogress => ?_
      exact List.Forall₂.cons ⟨value', hvalue, rfl⟩ hprogress

theorem refines_variants (declared : LanguageSet) {resolve : Identity → α → Dialogue α}
    {R : α → α → Prop} (hrefl : ∀ value, R value value)
    (hresolve : ∀ parent value, (resolve parent value).Returns (R value)) (variants : Variants α) :
    (resolveVariants declared parent resolve variants).Returns fun progress =>
      variants.Refines R progress.value :=
  (refines_entries parent declared hrefl hresolve variants.entries).bind fun _ h => h

/-- A section is walked before the sections after it. Either the walk stops in it, or it goes on
with a refined section. -/
theorem refines_inTurn_cons {declared : LanguageSet} {resolve : Identity → α → Dialogue α}
    {R : α → α → Prop} {variants : Variants α} {set : Variants α → SymbolPage}
    {step : SymbolPage → Dialogue (Progress SymbolPage)}
    {steps : List (SymbolPage → Dialogue (Progress SymbolPage))} {page : SymbolPage}
    {Q : SymbolPage → Prop} (hrefl : ∀ value, R value value)
    (hresolve : ∀ parent value, (resolve parent value).Returns (R value))
    (hstep : step page = (resolveVariants declared parent resolve variants).map (·.map set))
    (hstop : ∀ variants', variants.Refines R variants' → Q (set variants'))
    (hrest : ∀ variants', variants.Refines R variants' →
      (inTurn steps (set variants')).Returns fun progress => Q progress.value) :
    (inTurn (step :: steps) page).Returns fun progress => Q progress.value := by
  rw [inTurn, hstep, bind_eq, bind_map]
  refine (refines_variants parent declared hrefl hresolve variants).bind fun progress h => ?_
  cases hstopped : progress.stopped with
  | none =>
    simp only [Progress.map, hstopped]
    exact hrest progress.value h
  | some cause =>
    simp only [Progress.map, hstopped]
    exact hstop progress.value h

/-- The walk of a symbol page refines it, wherever it stops: the sections after that are as they
were. -/
theorem refines_symbol (page : SymbolPage) :
    (v.resolveSymbol parent page).Returns fun progress => page.Refines progress.value := by
  rw [resolveSymbol]
  -- The sections that the walk has not come to.
  have hmarkups : ∀ variants : Variants (Option Markup),
      variants.Refines (Option.Rel Markup.Refines) variants := fun variants =>
    Variants.refines_entries Markup.refines_self? variants.entries
  have hdescriptions : ∀ variants : Variants (List Parameter),
      variants.Refines (List.Forall₂ Parameter.Refines) variants := fun variants =>
    Variants.refines_entries Parameter.refines_all variants.entries
  have hgroups : ∀ variants : Variants (List TaskGroup),
      variants.Refines (List.Forall₂ TaskGroup.Refines) variants := fun variants =>
    Variants.refines_entries TaskGroup.refines_all variants.entries
  refine refines_inTurn_cons parent Markup.refines_self? (refines_section _) rfl
    (fun summary hsummary => SymbolPage.Refines.of hsummary (hmarkups _) (hdescriptions _)
      (hmarkups _) (hgroups _) (hgroups _)) fun summary hsummary => ?_
  refine refines_inTurn_cons parent Markup.refines_self? (refines_section _) rfl
    (fun discussion hdiscussion => SymbolPage.Refines.of hsummary hdiscussion (hdescriptions _)
      (hmarkups _) (hgroups _) (hgroups _)) fun discussion hdiscussion => ?_
  refine refines_inTurn_cons parent Parameter.refines_all (refines_parameters _) rfl
    (fun parameters hparameters => SymbolPage.Refines.of hsummary hdiscussion hparameters
      (hmarkups _) (hgroups _) (hgroups _)) fun parameters hparameters => ?_
  refine refines_inTurn_cons parent Markup.refines_self? (refines_section _) rfl
    (fun returns hreturns => SymbolPage.Refines.of hsummary hdiscussion hparameters hreturns
      (hgroups _) (hgroups _)) fun returns hreturns => ?_
  refine refines_inTurn_cons parent TaskGroup.refines_all (refines_groups _) rfl
    (fun seeAlso hseeAlso => SymbolPage.Refines.of hsummary hdiscussion hparameters hreturns
      hseeAlso (hgroups _)) fun seeAlso hseeAlso => ?_
  refine refines_inTurn_cons parent TaskGroup.refines_all (refines_groups _) rfl
    (fun topics htopics => SymbolPage.Refines.of hsummary hdiscussion hparameters hreturns
      hseeAlso htopics) fun topics htopics => ?_
  exact SymbolPage.Refines.of hsummary hdiscussion hparameters hreturns hseeAlso htopics

theorem refines_intro (intro : Intro) : (v.resolveIntro parent intro).Returns intro.Refines := by
  refine (v.refines_markup parent intro.content).bind fun content hcontent => ?_
  refine returns_bind_of_forall fun _ => returns_bind_of_forall fun _ => ?_
  exact ⟨content, hcontent, rfl⟩

theorem refines_contentAndMedia (item : ContentAndMedia) :
    (v.resolveContentAndMedia parent item).Returns item.Refines := by
  refine (v.refines_markup parent item.content).bind fun content hcontent => ?_
  exact returns_bind_of_forall fun _ => ⟨content, hcontent, rfl⟩

theorem refines_step (step : Step) : (v.resolveStep parent step).Returns step.Refines := by
  refine (v.refines_markup parent step.content).bind fun content hcontent => ?_
  refine (v.refines_markup parent step.caption).bind fun caption hcaption => ?_
  refine returns_bind_of_forall fun _ => returns_bind_of_forall fun _ => ?_
  exact ⟨content, caption, hcontent, hcaption, rfl⟩

theorem refines_tutorialSection (part : TutorialSection) :
    (v.resolveTutorialSection parent part).Returns part.Refines := by
  refine (returns_each (v.refines_contentAndMedia parent) part.introduction).bind
    fun introduction hintroduction => ?_
  refine (returns_each (v.refines_step parent) part.steps).bind fun steps hsteps => ?_
  exact ⟨introduction, steps, hintroduction, hsteps, rfl⟩

theorem refines_choice (choice : Choice) :
    (v.resolveChoice parent choice).Returns choice.Refines := by
  refine (v.refines_markup parent choice.content).bind fun content hcontent => ?_
  refine returns_bind_of_forall fun _ => ?_
  refine (v.refines_markup parent choice.justification).bind fun justification h => ?_
  exact ⟨content, justification, hcontent, h, rfl⟩

theorem refines_question (question : Question) :
    (v.resolveQuestion parent question).Returns question.Refines := by
  refine (v.refines_markup parent question.question).bind fun text htext => ?_
  refine (v.refines_markup parent question.content).bind fun content hcontent => ?_
  refine returns_bind_of_forall fun _ => ?_
  refine (returns_each (v.refines_choice parent) question.choices).bind fun choices hchoices => ?_
  exact Question.Refines.of htext hcontent hchoices

theorem refines_assessments (questions : Option (List Question)) :
    (v.resolveAssessments parent questions).Returns
      (Option.Rel (List.Forall₂ Question.Refines) questions) :=
  returns_maybe (returns_each (v.refines_question parent)) questions

/-- The walk of a tutorial refines it. Its archive is offered and stays the same. -/
theorem refines_tutorial (tutorial : Tutorial) :
    (v.resolveTutorial parent tutorial).Returns tutorial.Refines := by
  refine (v.refines_intro parent tutorial.intro).bind fun intro hintro => ?_
  refine (returns_each (v.refines_tutorialSection parent) tutorial.sections).bind
    fun sections hsections => ?_
  refine (v.refines_assessments parent tutorial.assessments).bind fun assessments h => ?_
  exact returns_bind_of_forall fun _ => Tutorial.Refines.of hintro hsections h

theorem refines_tutorialArticle (article : TutorialArticle) :
    (v.resolveTutorialArticle parent article).Returns article.Refines := by
  refine (returns_maybe (v.refines_intro parent) article.intro).bind fun intro hintro => ?_
  refine (returns_each (v.refines_contentAndMedia parent) article.content).bind
    fun content hcontent => ?_
  refine (v.refines_assessments parent article.assessments).bind fun assessments h => ?_
  exact TutorialArticle.Refines.of hintro hcontent h

/-- Curating keeps references in their order, as they were or resolved, and drops the others. The
induction is on the references, after any curation so far. -/
theorem refines_curate (chapter : String) (root : Identity) (seen : Curation)
    (references : List TutorialReference) :
    (v.curate chapter root seen references).Returns fun kept =>
      ∃ missing, TutorialReference.Pruned references kept missing := by
  induction references generalizing seen with
  | nil => exact ⟨[], .nil⟩
  | cons reference rest ih =>
    have hdropped : ∀ kept, (∃ missing, TutorialReference.Pruned rest kept missing) →
        ∃ missing, TutorialReference.Pruned (reference :: rest) kept missing :=
      fun _ ⟨missing, h⟩ => ⟨reference :: missing, .missing h⟩
    cases htext : Assoc.get? seen.byText reference.topic.effectiveTarget with
    | some target =>
      rw [curate_of_seen htext]
      exact (ih seen).mono hdropped
    | none =>
      rw [curate_of_new htext]
      refine (v.returns_resolveTopic root reference.range false reference.topic).bind
        fun topic htopic => ?_
      have hkept : ∀ kept, (∃ missing, TutorialReference.Pruned rest kept missing) →
          ∃ missing, TutorialReference.Pruned (reference :: rest)
            ({ reference with topic } :: kept) missing :=
        fun _ ⟨missing, h⟩ => ⟨missing, .kept htopic h⟩
      cases topic with
      | unresolved link => exact (ih seen).bind hkept
      | resolved target =>
        have hrest := ih (seen.add reference.topic.effectiveTarget target)
        by_cases hcurated : target.address ∈ seen.curated
        · simp only [if_pos hcurated]
          exact hrest.mono hdropped
        · simp only [if_neg hcurated]
          exact hrest.bind hkept

/-- The walk of a chapter refines its description and prunes its references. -/
theorem refines_chapter (chapter : Chapter) :
    (v.resolveChapter parent chapter).Returns chapter.Refines := by
  refine (v.refines_markup parent chapter.content).bind fun content hcontent => ?_
  refine returns_bind_of_forall fun _ => returns_bind_of_forall fun root => ?_
  refine (v.refines_curate chapter.name root {} chapter.references).bind fun references h => ?_
  obtain ⟨missing, hpruned⟩ := h
  exact ⟨content, references, missing, hcontent, hpruned, rfl⟩

theorem refines_volume (volume : Volume) :
    (v.resolveVolume parent volume).Returns volume.Refines := by
  refine (v.refines_markup parent volume.content).bind fun content hcontent => ?_
  refine returns_bind_of_forall fun _ => ?_
  refine (returns_each (v.refines_chapter parent) volume.chapters).bind fun chapters h => ?_
  exact ⟨content, chapters, hcontent, h, rfl⟩

theorem refines_contents (contents : TableOfContents) :
    (v.resolveContents parent contents).Returns contents.Refines := by
  refine (v.refines_intro parent contents.intro).bind fun intro hintro => ?_
  refine (returns_each (v.refines_volume parent) contents.volumes).bind fun volumes hvolumes => ?_
  exact TableOfContents.Refines.of hintro hvolumes

/-- The walk of the content of a page refines it, wherever it stops. -/
theorem refines_content (content : PageContent) :
    (v.resolveContent parent content).Returns fun progress =>
      content.Refines progress.value := by
  cases content with
  | article a => exact (v.refines_article parent a).bind fun _ h => PageContent.Refines.article h
  | symbol p => exact (v.refines_symbol parent p).bind fun _ h => PageContent.Refines.symbol h
  | contents c => exact (v.refines_contents parent c).bind fun _ h => PageContent.Refines.contents h
  | tutorial t => exact (v.refines_tutorial parent t).bind fun _ h => PageContent.Refines.tutorial h
  | tutorialArticle a =>
    exact (v.refines_tutorialArticle parent a).bind fun _ h => PageContent.Refines.tutorialArticle h

end Viewpoint

/-- The walk of a page refines it, wherever it stops. -/
theorem Page.refines_resolve (settings : Settings) (page : Page) :
    (page.resolve settings).Returns fun progress => page.Refines progress.value :=
  (Viewpoint.refines_content _ page.reference page.content).bind fun progress h =>
    ⟨progress.value, h, rfl⟩

/-- A visit of a page changes nothing but topic references, even if it breaks down: it may
resolve links and drop references of chapters, and whatever is not resolved stays as written.
The identity of the page and its file, all texts, ranges and media, the languages and variants
of symbols and the order of all parts stay the same. -/
theorem Walker.visitPage_refines {σ : Type} (kb : KnowledgeBase σ) (w : Walker) (page : Page)
    (state : σ) : page.Refines (w.visitPage kb page state).transcript.result.value :=
  (page.refines_resolve w.settings).run kb state

end TopicLinks
