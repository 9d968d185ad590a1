import Mathlib.Data.Set.Function
import TopicLinks.Proofs.Walk.Pages
import TopicLinks.Proofs.Walk.Refinement

/-!
# Pages from their settled references

A walk changes nothing but references, so what it makes of a part is known from the part before
and from the settled occurrences. The occurrences are read from the left: two results with one
list of occurrences, whatever follows, are equal and leave the same rest. The walk of a page in
declared languages is therefore its settlements and nothing else.
-/

namespace TopicLinks

/-- Among the values of a kind, the occurrences at the beginning of a list tell which value they
came from and where they end. -/
def DeterminedBy {α : Type} (occurrences : α → List Occurrence) (P : α → Prop) : Prop :=
  ∀ ⦃a b⦄, P a → P b → ∀ ⦃rest rest'⦄, occurrences a ++ rest = occurrences b ++ rest' →
    a = b ∧ rest = rest'

section

variable {α : Type} {occurrences : α → List Occurrence}

/-- Lists are told apart element by element. -/
theorem determinedBy_each {R : α → α → Prop} (h : ∀ a, DeterminedBy occurrences (R a))
    (as : List α) : DeterminedBy (List.flatMap occurrences) (List.Forall₂ R as) := by
  induction as with
  | nil =>
    rintro _ _ (_ | _) (_ | _) rest rest' heq
    exact ⟨rfl, heq⟩
  | cons a as ih =>
    rintro _ _ (_ | ⟨hfirst, hbs⟩) (_ | ⟨hfirst', hcs⟩) rest rest' heq
    simp only [List.flatMap_cons, List.append_assoc] at heq
    obtain ⟨hsame, heq⟩ := h a hfirst hfirst' heq
    obtain ⟨hrest, heq⟩ := ih hbs hcs heq
    exact ⟨by rw [hsame, hrest], heq⟩

/-- Values that may be missing are told apart. -/
theorem determinedBy_maybe {R : α → α → Prop} (h : ∀ a, DeterminedBy occurrences (R a))
    (a? : Option α) : DeterminedBy (Option.elim · [] occurrences) (Option.Rel R a?) := by
  intro b? c? hb hc rest rest' heq
  cases hb with
  | none =>
    cases hc
    exact ⟨rfl, heq⟩
  | some hb =>
    cases hc with
    | some hc =>
      exact (h _ hb hc heq).imp_left (congrArg some)

end

/-- The topic of a reference is what its occurrence holds. -/
theorem Topic.determined (parent : Identity) (range : Option SourceRange) (fromSymbolLink : Bool)
    (topic : Topic) :
    DeterminedBy (fun after => [.topic parent range fromSymbolLink after]) topic.Refines := by
  intro a b _ _ rest rest' heq
  simpa using heq

/-- A destination that is no topic has no occurrence, and stays the same. -/
theorem Topic.determined_destination (parent : Identity) (range : Option SourceRange)
    (destination : Topic) :
    DeterminedBy (Occurrence.ofLink parent range) fun after =>
      destination.Refines after ∧ (destination.isDestination = false → after = destination) := by
  rintro a b ⟨ha, hother⟩ ⟨hb, hother'⟩ rest rest' heq
  cases hdestination : destination.isDestination with
  | true =>
    simpa only [Occurrence.ofLink, ← isDestination_eq, ha.isDestination hdestination,
      hb.isDestination hdestination, if_true, List.singleton_append, List.cons.injEq,
      Occurrence.topic.injEq, true_and] using heq
  | false =>
    obtain rfl := hother hdestination
    obtain rfl := hother' hdestination
    exact ⟨rfl, List.append_cancel_left heq⟩

section

variable (parent : Identity)

mutual

/-- Inline content after a walk is known from its occurrences. -/
theorem Inline.determined : (inline : Inline) →
    DeterminedBy (Inline.occurrences parent) inline.Refines
  | .text _, _, _, .text _, .text _, _, _, heq => ⟨rfl, heq⟩
  | .code _, _, _, .code _, .code _, _, _, heq => ⟨rfl, heq⟩
  | .emphasis children, _, _, .emphasis h, .emphasis h', _, _, heq =>
    (Inline.determined_all children h h' heq).imp_left (congrArg Inline.emphasis)
  | .strong children, _, _, .strong h, .strong h', _, _, heq =>
    (Inline.determined_all children h h' heq).imp_left (congrArg Inline.strong)
  | .image _ _, _, _, .image _ _, .image _ _, _, _, heq => ⟨rfl, List.append_cancel_left heq⟩
  | .link destination range children, _, _, .link htopic hother h, .link htopic' hother' h', _, _,
      heq => by
    simp only [Inline.occurrences, List.append_assoc] at heq
    obtain ⟨hdestination, heq⟩ := Topic.determined_destination parent range destination
      ⟨htopic, hother⟩ ⟨htopic', hother'⟩ heq
    obtain ⟨hchildren, heq⟩ := Inline.determined_all children h h' heq
    exact ⟨by rw [hdestination, hchildren], heq⟩
  | .symbolLink destination range, _, _, .symbolLink htopic, .symbolLink htopic', _, _, heq =>
    (Topic.determined parent range true destination htopic htopic' heq).imp_left
      (congrArg (Inline.symbolLink · range))

theorem Inline.determined_all : (content : List Inline) →
    DeterminedBy (Inline.occurrencesOf parent) (List.Forall₂ Inline.Refines content)
  | [], _, _, .nil, .nil, _, _, heq => ⟨rfl, heq⟩
  | inline :: content, _, _, .cons hfirst h, .cons hfirst' h', _, _, heq => by
    simp only [Inline.occurrencesOf, List.append_assoc] at heq
    obtain ⟨hsame, heq⟩ := Inline.determined inline hfirst hfirst' heq
    obtain ⟨hrest, heq⟩ := Inline.determined_all content h h' heq
    exact ⟨by rw [hsame, hrest], heq⟩

end

theorem LinkedTopic.determined (entry : LinkedTopic) :
    DeterminedBy (fun entry => [LinkedTopic.occurrence parent entry]) entry.Refines := by
  rintro a b ⟨topic, htopic, rfl⟩ ⟨topic', htopic', rfl⟩ rest rest' heq
  obtain ⟨hsame, heq⟩ := Topic.determined parent entry.range false entry.topic htopic htopic' heq
  exact ⟨by rw [hsame], heq⟩

/-- The entries of a list of links are told apart by their topics. -/
theorem LinkedTopic.determined_all (topics : List LinkedTopic) :
    DeterminedBy (List.map (LinkedTopic.occurrence parent))
      (List.Forall₂ LinkedTopic.Refines topics) := by
  have hmap : List.map (LinkedTopic.occurrence parent) =
      List.flatMap fun entry => [LinkedTopic.occurrence parent entry] :=
    funext fun _ => List.map_eq_flatMap
  rw [hmap]
  exact determinedBy_each (LinkedTopic.determined parent) topics

mutual

/-- A block after a walk is known from its occurrences. -/
theorem Block.determined : (block : Block) →
    DeterminedBy (Block.occurrences parent) block.Refines
  | .paragraph content, _, _, .paragraph h, .paragraph h', _, _, heq =>
    (Inline.determined_all parent content h h' heq).imp_left (congrArg Block.paragraph)
  | .heading level content, _, _, .heading h, .heading h', _, _, heq =>
    (Inline.determined_all parent content h h' heq).imp_left (congrArg (Block.heading level))
  | .quote children, _, _, .quote h, .quote h', _, _, heq =>
    (Block.determined_all children h h' heq).imp_left (congrArg Block.quote)
  | .container layout children, _, _, .container h, .container h', _, _, heq =>
    (Block.determined_all children h h' heq).imp_left (congrArg (Block.container layout))
  | .code _ _, _, _, .code _ _, .code _ _, _, _, heq => ⟨rfl, heq⟩
  | .list items, _, _, .list h, .list h', _, _, heq =>
    (Block.determined_items items h h' heq).imp_left (congrArg Block.list)
  | .links style topics, _, _, .links h, .links h', _, _, heq =>
    (LinkedTopic.determined_all parent topics h h' heq).imp_left (congrArg (Block.links style))
  | .media _ _ _, _, _, .media _ _ _, .media _ _ _, _, _, heq =>
    ⟨rfl, List.append_cancel_left heq⟩

theorem Block.determined_all : (blocks : List Block) →
    DeterminedBy (Block.occurrencesOf parent) (List.Forall₂ Block.Refines blocks)
  | [], _, _, .nil, .nil, _, _, heq => ⟨rfl, heq⟩
  | block :: blocks, _, _, .cons hfirst h, .cons hfirst' h', _, _, heq => by
    simp only [Block.occurrencesOf, List.append_assoc] at heq
    obtain ⟨hsame, heq⟩ := Block.determined block hfirst hfirst' heq
    obtain ⟨hrest, heq⟩ := Block.determined_all blocks h h' heq
    exact ⟨by rw [hsame, hrest], heq⟩

theorem Block.determined_items : (items : List (List Block)) →
    DeterminedBy (Block.occurrencesOfItems parent)
      (List.Forall₂ (List.Forall₂ Block.Refines) items)
  | [], _, _, .nil, .nil, _, _, heq => ⟨rfl, heq⟩
  | item :: items, _, _, .cons hfirst h, .cons hfirst' h', _, _, heq => by
    simp only [Block.occurrencesOfItems, List.append_assoc] at heq
    obtain ⟨hsame, heq⟩ := Block.determined_all item hfirst hfirst' heq
    obtain ⟨hrest, heq⟩ := Block.determined_items items h h' heq
    exact ⟨by rw [hsame, hrest], heq⟩

end

theorem Markup.determined (markup : Markup) :
    DeterminedBy (Markup.occurrences parent) markup.Refines :=
  Block.determined_all parent markup

theorem Markup.determined? (markup : Option Markup) :
    DeterminedBy (Markup.occurrences? parent) (Option.Rel Markup.Refines markup) :=
  determinedBy_maybe (Markup.determined parent) markup

theorem TaskGroup.determined (group : TaskGroup) :
    DeterminedBy (fun group => Markup.occurrences parent group.content) group.Refines := by
  rintro a b ⟨content, h, rfl⟩ ⟨content', h', rfl⟩ rest rest' heq
  obtain ⟨hcontent, heq⟩ := Markup.determined parent group.content h h' heq
  exact ⟨by rw [hcontent], heq⟩

theorem TaskGroup.determined_all (groups : List TaskGroup) :
    DeterminedBy (TaskGroup.occurrencesOf parent) (List.Forall₂ TaskGroup.Refines groups) :=
  determinedBy_each (TaskGroup.determined parent) groups

theorem Parameter.determined (parameter : Parameter) :
    DeterminedBy (fun parameter => Markup.occurrences parent parameter.content)
      parameter.Refines := by
  rintro a b ⟨content, h, rfl⟩ ⟨content', h', rfl⟩ rest rest' heq
  obtain ⟨hcontent, heq⟩ := Markup.determined parent parameter.content h h' heq
  exact ⟨by rw [hcontent], heq⟩

theorem Parameter.determined_all (parameters : List Parameter) :
    DeterminedBy (Parameter.occurrencesOf parent) (List.Forall₂ Parameter.Refines parameters) :=
  determinedBy_each (Parameter.determined parent) parameters

/-- An article after a walk is known from its occurrences. -/
theorem Article.determined (article : Article) :
    DeterminedBy (Article.occurrences parent) article.Refines := by
  rintro _ _ ⟨hsummary, hdiscussion, htopics, hseeAlso⟩
    ⟨hsummary', hdiscussion', htopics', hseeAlso'⟩ rest rest' heq
  simp only [Article.occurrences, List.append_assoc] at heq
  obtain ⟨esummary, heq⟩ := Markup.determined? parent article.summary hsummary hsummary' heq
  obtain ⟨ediscussion, heq⟩ :=
    Markup.determined? parent article.discussion hdiscussion hdiscussion' heq
  obtain ⟨etopics, heq⟩ := TaskGroup.determined_all parent article.topics htopics htopics' heq
  obtain ⟨eseeAlso, heq⟩ := TaskGroup.determined_all parent article.seeAlso hseeAlso hseeAlso' heq
  exact ⟨by rw [esummary, ediscussion, etopics, eseeAlso], heq⟩

/-- The variants of a section are told apart by the occurrences of their values: the languages
are the same. -/
theorem Variants.determined {α : Type} {occurrences : Identity → α → List Occurrence}
    {R : α → α → Prop} (h : ∀ parent value, DeterminedBy (occurrences parent) (R value))
    (variants : Variants α) :
    DeterminedBy (Variants.occurrences parent occurrences) (variants.Refines R) := by
  have hentry : ∀ entry : Language × α, DeterminedBy
      (fun entry => occurrences (parent.inLanguage entry.1) entry.2) (EntryRefines R entry) := by
    rintro ⟨language, value⟩ _ _ ⟨after, hafter, rfl⟩ ⟨after', hafter', rfl⟩ rest rest' heq
    obtain ⟨hvalue, heq⟩ := h (parent.inLanguage language) value hafter hafter' heq
    exact ⟨by rw [hvalue], heq⟩
  rintro ⟨entries⟩ ⟨entries'⟩ hafter hafter' rest rest' heq
  obtain ⟨hentries, heq⟩ := determinedBy_each hentry variants.entries hafter hafter' heq
  exact ⟨congrArg mk hentries, heq⟩

/-- A symbol page after a walk is known from its occurrences, also if the walk stopped. -/
theorem SymbolPage.determined (page : SymbolPage) :
    DeterminedBy (SymbolPage.occurrences parent) page.Refines := by
  have hmarkup := Variants.determined parent Markup.determined?
  have hparameter := Variants.determined parent Parameter.determined_all
  have hgroup := Variants.determined parent TaskGroup.determined_all
  rintro _ _ ⟨hsummary, hdiscussion, hparameters, hreturns, hseeAlso, htopics⟩
    ⟨hsummary', hdiscussion', hparameters', hreturns', hseeAlso', htopics'⟩ rest rest' heq
  simp only [SymbolPage.occurrences, List.append_assoc] at heq
  obtain ⟨esummary, heq⟩ := hmarkup page.summary hsummary hsummary' heq
  obtain ⟨ediscussion, heq⟩ := hmarkup page.discussion hdiscussion hdiscussion' heq
  obtain ⟨eparameters, heq⟩ := hparameter page.parameters hparameters hparameters' heq
  obtain ⟨ereturns, heq⟩ := hmarkup page.returns hreturns hreturns' heq
  obtain ⟨eseeAlso, heq⟩ := hgroup page.seeAlso hseeAlso hseeAlso' heq
  obtain ⟨etopics, heq⟩ := hgroup page.topics htopics htopics' heq
  exact ⟨by rw [esummary, ediscussion, eparameters, ereturns, eseeAlso, etopics], heq⟩

theorem Intro.determined (intro : Intro) :
    DeterminedBy (Intro.occurrences parent) intro.Refines := by
  rintro a b ⟨content, h, rfl⟩ ⟨content', h', rfl⟩ rest rest' heq
  simp only [Intro.occurrences, List.append_assoc] at heq
  obtain ⟨hcontent, heq⟩ := Markup.determined parent intro.content h h' heq
  exact ⟨by rw [hcontent], List.append_cancel_left (List.append_cancel_left heq)⟩

theorem ContentAndMedia.determined (item : ContentAndMedia) :
    DeterminedBy (ContentAndMedia.occurrences parent) item.Refines := by
  rintro a b ⟨content, h, rfl⟩ ⟨content', h', rfl⟩ rest rest' heq
  simp only [ContentAndMedia.occurrences, List.append_assoc] at heq
  obtain ⟨hcontent, heq⟩ := Markup.determined parent item.content h h' heq
  exact ⟨by rw [hcontent], List.append_cancel_left heq⟩

theorem Step.determined (step : Step) : DeterminedBy (Step.occurrences parent) step.Refines := by
  rintro a b ⟨content, caption, h, hcaption, rfl⟩ ⟨content', caption', h', hcaption', rfl⟩
    rest rest' heq
  simp only [Step.occurrences, List.append_assoc] at heq
  obtain ⟨econtent, heq⟩ := Markup.determined parent step.content h h' heq
  obtain ⟨ecaption, heq⟩ := Markup.determined parent step.caption hcaption hcaption' heq
  exact ⟨by rw [econtent, ecaption], List.append_cancel_left (List.append_cancel_left heq)⟩

theorem TutorialSection.determined (part : TutorialSection) :
    DeterminedBy (TutorialSection.occurrences parent) part.Refines := by
  rintro a b ⟨introduction, steps, h, hsteps, rfl⟩ ⟨introduction', steps', h', hsteps', rfl⟩
    rest rest' heq
  simp only [TutorialSection.occurrences, List.append_assoc] at heq
  obtain ⟨eintroduction, heq⟩ :=
    determinedBy_each (ContentAndMedia.determined parent) part.introduction h h' heq
  obtain ⟨esteps, heq⟩ := determinedBy_each (Step.determined parent) part.steps hsteps hsteps' heq
  exact ⟨by rw [eintroduction, esteps], heq⟩

theorem Choice.determined (choice : Choice) :
    DeterminedBy (Choice.occurrences parent) choice.Refines := by
  rintro a b ⟨content, justification, h, hwhy, rfl⟩ ⟨content', justification', h', hwhy', rfl⟩
    rest rest' heq
  simp only [Choice.occurrences, List.append_assoc] at heq
  obtain ⟨econtent, heq⟩ := Markup.determined parent choice.content h h' heq
  obtain ⟨ejustification, heq⟩ := Markup.determined parent choice.justification hwhy hwhy'
    (List.append_cancel_left heq)
  exact ⟨by rw [econtent, ejustification], heq⟩

theorem Question.determined (question : Question) :
    DeterminedBy (Question.occurrences parent) question.Refines := by
  rintro _ _ ⟨htext, hcontent, hchoices⟩ ⟨htext', hcontent', hchoices'⟩ rest rest' heq
  simp only [Question.occurrences, List.append_assoc] at heq
  obtain ⟨etext, heq⟩ := Markup.determined parent question.question htext htext' heq
  obtain ⟨econtent, heq⟩ := Markup.determined parent question.content hcontent hcontent' heq
  obtain ⟨echoices, heq⟩ := determinedBy_each (Choice.determined parent) question.choices
    hchoices hchoices' (List.append_cancel_left heq)
  exact ⟨by rw [etext, econtent, echoices], heq⟩

theorem Question.determined? (questions : Option (List Question)) :
    DeterminedBy (Question.occurrences? parent)
      (Option.Rel (List.Forall₂ Question.Refines) questions) :=
  determinedBy_maybe (determinedBy_each (Question.determined parent)) questions

/-- A tutorial after a walk is known from its occurrences. -/
theorem Tutorial.determined (tutorial : Tutorial) :
    DeterminedBy (Tutorial.occurrences parent) tutorial.Refines := by
  rintro _ _ ⟨hintro, hsections, hquestions⟩ ⟨hintro', hsections', hquestions'⟩ rest rest' heq
  simp only [Tutorial.occurrences, List.append_assoc] at heq
  obtain ⟨eintro, heq⟩ := Intro.determined parent tutorial.intro hintro hintro' heq
  obtain ⟨esections, heq⟩ := determinedBy_each (TutorialSection.determined parent)
    tutorial.sections hsections hsections' heq
  obtain ⟨equestions, heq⟩ :=
    Question.determined? parent tutorial.assessments hquestions hquestions' heq
  exact ⟨by rw [eintro, esections, equestions], List.append_cancel_left heq⟩

/-- A tutorial article after a walk is known from its occurrences. -/
theorem TutorialArticle.determined (article : TutorialArticle) :
    DeterminedBy (TutorialArticle.occurrences parent) article.Refines := by
  rintro _ _ ⟨hintro, hcontent, hquestions⟩ ⟨hintro', hcontent', hquestions'⟩ rest rest' heq
  simp only [TutorialArticle.occurrences, List.append_assoc] at heq
  obtain ⟨eintro, heq⟩ :=
    determinedBy_maybe (Intro.determined parent) article.intro hintro hintro' heq
  obtain ⟨econtent, heq⟩ := determinedBy_each (ContentAndMedia.determined parent)
    article.content hcontent hcontent' heq
  obtain ⟨equestions, heq⟩ :=
    Question.determined? parent article.assessments hquestions hquestions' heq
  exact ⟨by rw [eintro, econtent, equestions], heq⟩

/-- A chapter after a walk is known from its occurrences: the last one holds the references that
are left. -/
theorem Chapter.determined (chapter : Chapter) :
    DeterminedBy (Chapter.occurrences parent) chapter.Refines := by
  rintro a b ⟨content, references, _, h, _, rfl⟩ ⟨content', references', _, h', _, rfl⟩
    rest rest' heq
  simp only [Chapter.occurrences, List.append_assoc] at heq
  obtain ⟨econtent, heq⟩ := Markup.determined parent chapter.content h h' heq
  obtain ⟨hchapter, heq⟩ := List.cons.inj (List.append_cancel_left heq)
  exact ⟨by rw [econtent, (Occurrence.chapter.inj hchapter).2], heq⟩

theorem Volume.determined (volume : Volume) :
    DeterminedBy (Volume.occurrences parent) volume.Refines := by
  rintro a b ⟨content, chapters, h, hchapters, rfl⟩ ⟨content', chapters', h', hchapters', rfl⟩
    rest rest' heq
  simp only [Volume.occurrences, List.append_assoc] at heq
  obtain ⟨econtent, heq⟩ := Markup.determined parent volume.content h h' heq
  obtain ⟨echapters, heq⟩ := determinedBy_each (Chapter.determined parent) volume.chapters
    hchapters hchapters' (List.append_cancel_left heq)
  exact ⟨by rw [econtent, echapters], heq⟩

/-- A table of contents after a walk is known from its occurrences. -/
theorem TableOfContents.determined (contents : TableOfContents) :
    DeterminedBy (TableOfContents.occurrences parent) contents.Refines := by
  rintro _ _ ⟨hintro, hvolumes⟩ ⟨hintro', hvolumes'⟩ rest rest' heq
  simp only [TableOfContents.occurrences, List.append_assoc] at heq
  obtain ⟨eintro, heq⟩ := Intro.determined parent contents.intro hintro hintro' heq
  obtain ⟨evolumes, heq⟩ := determinedBy_each (Volume.determined parent) contents.volumes
    hvolumes hvolumes' heq
  exact ⟨by rw [eintro, evolumes], heq⟩

/-- The content of a page after a walk is known from its occurrences. -/
theorem PageContent.determined : (content : PageContent) →
    DeterminedBy (PageContent.occurrences parent) content.Refines
  | .article before, _, _, .article h, .article h', _, _, heq =>
    (Article.determined parent before h h' heq).imp_left (congrArg PageContent.article)
  | .symbol before, _, _, .symbol h, .symbol h', _, _, heq =>
    (SymbolPage.determined parent before h h' heq).imp_left (congrArg PageContent.symbol)
  | .contents before, _, _, .contents h, .contents h', _, _, heq =>
    (TableOfContents.determined parent before h h' heq).imp_left (congrArg PageContent.contents)
  | .tutorial before, _, _, .tutorial h, .tutorial h', _, _, heq =>
    (Tutorial.determined parent before h h' heq).imp_left (congrArg PageContent.tutorial)
  | .tutorialArticle before, _, _, .tutorialArticle h, .tutorialArticle h', _, _, heq =>
    (TutorialArticle.determined parent before h h' heq).imp_left
      (congrArg PageContent.tutorialArticle)

end

/-- Two results of walks over one page are equal when their occurrences are. -/
theorem Page.Refines.eq_of_occurrences {page a b : Page} (ha : page.Refines a)
    (hb : page.Refines b) (h : a.occurrences = b.occurrences) : a = b := by
  obtain ⟨content, ha, rfl⟩ := ha
  obtain ⟨content', hb, rfl⟩ := hb
  have happend : content.occurrences page.reference ++ [] =
      content'.occurrences page.reference ++ [] := congrArg (· ++ []) h
  obtain ⟨hcontent, -⟩ := PageContent.determined page.reference page.content ha hb happend
  rw [hcontent]

namespace Viewpoint

open Dialogue

variable {α : Type} (v : Viewpoint) (parent : Identity)

/-- The walk does not stop in a section in declared languages. -/
theorem returns_unstopped_inTurn_cons {declared : LanguageSet}
    {resolve : Identity → α → Dialogue α} {variants : Variants α}
    {set : Variants α → SymbolPage} {step : SymbolPage → Dialogue (Progress SymbolPage)}
    {steps : List (SymbolPage → Dialogue (Progress SymbolPage))} {page : SymbolPage}
    (hdeclared : variants.DeclaredIn declared)
    (hstep : step page = (resolveVariants declared parent resolve variants).map (·.map set))
    (hrest : ∀ variants : Variants α, (inTurn steps (set variants)).Returns (·.stopped = none)) :
    (inTurn (step :: steps) page).Returns (·.stopped = none) := by
  rw [resolveVariants_eq parent hdeclared, map_map] at hstep
  rw [inTurn_cons hstep]
  exact returns_bind_of_forall fun entries => hrest ⟨entries⟩

/-- The walk of a symbol page in declared languages does not stop. -/
theorem returns_unstopped_symbol {page : SymbolPage} (h : page.IsDeclared) :
    (v.resolveSymbol parent page).Returns (·.stopped = none) := by
  rw [resolveSymbol]
  refine returns_unstopped_inTurn_cons parent h.summary rfl fun summary => ?_
  refine returns_unstopped_inTurn_cons parent h.discussion rfl fun discussion => ?_
  refine returns_unstopped_inTurn_cons parent h.parameters rfl fun parameters => ?_
  refine returns_unstopped_inTurn_cons parent h.returns rfl fun returns => ?_
  refine returns_unstopped_inTurn_cons parent h.seeAlso rfl fun seeAlso => ?_
  refine returns_unstopped_inTurn_cons parent h.topics rfl fun topics => ?_
  exact rfl

theorem returns_unstopped_content {content : PageContent} (h : content.IsDeclared) :
    (v.resolveContent parent content).Returns (·.stopped = none) := by
  cases content with
  | symbol p => exact (v.returns_unstopped_symbol parent h).bind fun progress hprogress => hprogress
  | article a => exact returns_bind_of_forall fun _ => rfl
  | contents c => exact returns_bind_of_forall fun _ => rfl
  | tutorial t => exact returns_bind_of_forall fun _ => rfl
  | tutorialArticle a => exact returns_bind_of_forall fun _ => rfl

end Viewpoint

namespace Page

open Dialogue

variable (settings : Settings) {page : Page}

/-- The walk of a page in declared languages does not stop. -/
theorem returns_unstopped (h : page.content.IsDeclared) :
    (page.resolve settings).Returns (·.stopped = none) :=
  (Viewpoint.returns_unstopped_content _ page.reference h).bind fun _ h => h

/-- The walk of a page in an undeclared language stops, whatever the answers are. -/
theorem returns_stopped (h : ¬page.content.IsDeclared) :
    (page.resolve settings).Returns (·.stopped ≠ none) :=
  (page.returns_resolve settings).mono fun _ hdeclared hstopped => h (hdeclared hstopped)

/-- The page with other references: one way of putting settled occurrences into a page, which is
right for all walks of the page. -/
theorem exists_rebuild (h : page.content.IsDeclared) :
    ∃ rebuild : List Occurrence → Page, ∀ settings,
      page.resolve settings =
        (each (page.viewpoint settings).settle page.occurrences).bind fun settled =>
          page.content.offer.map fun _ => ⟨rebuild settled, none⟩ := by
  have : Nonempty Page := ⟨page⟩
  let rebuild := Function.invFunOn Page.occurrences {after | page.Refines after}
  have hrebuild : ∀ after, page.Refines after → rebuild after.occurrences = after :=
    Set.InjOn.leftInvOn_invFunOn fun _ ha _ hb => Refines.eq_of_occurrences ha hb
  refine ⟨rebuild, fun settings => ?_⟩
  have hresult : (page.resolve settings).Returns fun progress =>
      page.Refines progress.value ∧ progress.stopped = none :=
    (page.refines_resolve settings).and (returns_unstopped settings h)
  have hsettled := congrArg (Dialogue.map fun settled => (⟨rebuild settled, none⟩ : Progress Page))
    (page.map_resolve settings h)
  simp only [Dialogue.map_map, Dialogue.map_bind] at hsettled
  rw [← hsettled]
  refine ((page.resolve settings).bind_done.symm).trans (hresult.bind_congr ?_)
  rintro ⟨after, stopped⟩ ⟨hrefines, rfl⟩
  simp only [hrebuild after hrefines]

end Page

end TopicLinks
