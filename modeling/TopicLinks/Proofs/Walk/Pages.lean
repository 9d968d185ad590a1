import TopicLinks.Resolution.Page
import TopicLinks.Proofs.Walk.Settling

/-!
# The walk of a page

Every kind of page is settled by its walk, section by section. The walk of a symbol page goes
on only while the variants are in declared languages, so a walk that does not stop has settled
all sections. A tutorial is settled before its archive is offered as a download.
-/

namespace TopicLinks

/-- All variants are in languages that a page declares. -/
def Variants.DeclaredIn {α : Type} (variants : Variants α) (declared : LanguageSet) : Prop :=
  ∀ entry ∈ variants.entries, entry.1 ∈ declared

/-- All variants of all sections of a symbol page are in languages that the page declares. -/
structure SymbolPage.IsDeclared (page : SymbolPage) : Prop where
  /-- The summaries. -/
  summary : page.summary.DeclaredIn page.languages
  /-- The discussions. -/
  discussion : page.discussion.DeclaredIn page.languages
  /-- The parameters. -/
  parameters : page.parameters.DeclaredIn page.languages
  /-- The descriptions of the result. -/
  returns : page.returns.DeclaredIn page.languages
  /-- The groups of related topics. -/
  seeAlso : page.seeAlso.DeclaredIn page.languages
  /-- The groups of curated topics. -/
  topics : page.topics.DeclaredIn page.languages

namespace Dialogue

variable {α β : Type}

/-- A step that never stops is followed by the other steps. -/
theorem inTurn_cons {step : α → Dialogue (Progress α)} {rest : List (α → Dialogue (Progress α))}
    {value : α} {d : Dialogue β} {next : β → α}
    (hstep : step value = d.map fun b => ⟨next b, none⟩) :
    inTurn (step :: rest) value = d.bind fun b => inTurn rest (next b) := by
  rw [inTurn, bind_eq, hstep, bind_map]

end Dialogue

namespace Viewpoint

open Dialogue

variable {α : Type} (v : Viewpoint) (parent : Identity)

theorem settles_section (markup : Option Markup) :
    v.Settles [] (Markup.occurrences? parent markup) (v.resolveSection parent markup)
      (Markup.occurrences? parent) :=
  settles_maybe (v.settles_markup parent) markup

theorem settles_group (group : TaskGroup) :
    v.Settles [] (group.content.occurrences parent) (v.resolveGroup parent group)
      fun group => group.content.occurrences parent :=
  (v.settles_markup parent group.content).bind_done fun _ => rfl

theorem settles_groups (groups : List TaskGroup) :
    v.Settles [] (TaskGroup.occurrencesOf parent groups) (each (v.resolveGroup parent) groups)
      (TaskGroup.occurrencesOf parent) :=
  settles_each (v.settles_group parent) groups

theorem settles_parameter (parameter : Parameter) :
    v.Settles [] (parameter.content.occurrences parent) (v.resolveParameter parent parameter)
      fun parameter => parameter.content.occurrences parent :=
  (v.settles_markup parent parameter.content).bind_done fun _ => rfl

theorem settles_parameters (parameters : List Parameter) :
    v.Settles [] (Parameter.occurrencesOf parent parameters)
      (each (v.resolveParameter parent) parameters) (Parameter.occurrencesOf parent) :=
  settles_each (v.settles_parameter parent) parameters

/-- An article is settled by its walk. -/
theorem settles_article (article : Article) :
    v.Settles [] (article.occurrences parent) (v.resolveArticle parent article)
      (Article.occurrences parent) := by
  simp only [Article.occurrences, List.append_assoc]
  refine (v.settles_section parent article.summary).bind fun summary => ?_
  refine (v.settles_section parent article.discussion).bind fun discussion => ?_
  refine (v.settles_groups parent article.topics).bind fun topics => ?_
  exact (v.settles_groups parent article.seeAlso).bind_done fun _ => rfl

/-- In declared languages all variants are resolved, each from its own parent. -/
theorem resolveVariants_eq {declared : LanguageSet} {resolve : Identity → α → Dialogue α}
    {variants : Variants α} (h : variants.DeclaredIn declared) :
    resolveVariants declared parent resolve variants =
      (each (fun entry => (resolve (parent.inLanguage entry.1) entry.2).map (entry.1, ·))
        variants.entries).map fun entries => ⟨⟨entries⟩, none⟩ := by
  have hentries : resolveEntries declared parent resolve variants.entries =
      (each (fun entry => (resolve (parent.inLanguage entry.1) entry.2).map (entry.1, ·))
        variants.entries).map fun entries => ⟨entries, none⟩ := by
    obtain ⟨entries⟩ := variants
    induction entries with
    | nil => rfl
    | cons entry rest ih =>
      obtain ⟨language, value⟩ := entry
      have hlanguage : language ∈ declared := h _ List.mem_cons_self
      have hrest := ih fun entry hentry => h entry (List.mem_cons_of_mem _ hentry)
      simp only [resolveEntries, LanguageSet.forVariant, if_pos hlanguage, bind_eq, pure_eq]
      simp only at hrest
      rw [hrest, each_cons, bind_map, map_bind]
      simp only [bind_map, map_map]
      rfl
  rw [resolveVariants, hentries, bind_eq, bind_map]
  rfl

/-- The variants of a section are settled in stored order. -/
theorem settles_variants {occurrences : Identity → α → List Occurrence}
    {resolve : Identity → α → Dialogue α}
    (h : ∀ parent value, v.Settles [] (occurrences parent value) (resolve parent value)
      (occurrences parent)) (variants : Variants α) :
    v.Settles [] (variants.occurrences parent occurrences)
      (each (fun entry => (resolve (parent.inLanguage entry.1) entry.2).map (entry.1, ·))
        variants.entries) fun entries => Variants.occurrences parent occurrences ⟨entries⟩ := by
  have hentry : ∀ entry : Language × α,
      v.Settles [] (occurrences (parent.inLanguage entry.1) entry.2)
      ((resolve (parent.inLanguage entry.1) entry.2).map (entry.1, ·))
      fun entry => occurrences (parent.inLanguage entry.1) entry.2 :=
    fun entry => (h (parent.inLanguage entry.1) entry.2).bind_done fun _ => rfl
  exact settles_each hentry variants.entries

/-- Variants that were resolved to their end are in declared languages. -/
theorem returns_resolveEntries (declared : LanguageSet) (resolve : Identity → α → Dialogue α)
    (entries : List (Language × α)) :
    (resolveEntries declared parent resolve entries).Returns fun progress =>
      progress.stopped = none → ∀ entry ∈ entries, entry.1 ∈ declared := by
  induction entries with
  | nil => exact fun _ entry hentry => absurd hentry List.not_mem_nil
  | cons entry rest ih =>
    obtain ⟨language, value⟩ := entry
    simp only [resolveEntries, LanguageSet.forVariant]
    by_cases hlanguage : language ∈ declared
    · rw [if_pos hlanguage]
      refine (returns_of_forall (P := fun _ => True) (fun _ => trivial) _).bind fun value _ => ?_
      refine ih.bind fun progress hprogress hstopped entry hentry => ?_
      rcases List.mem_cons.mp hentry with rfl | hentry
      · exact hlanguage
      · exact hprogress hstopped entry hentry
    · rw [if_neg hlanguage]
      exact fun hstopped => absurd hstopped (Option.some_ne_none _)

/-- A section that was resolved to its end is in declared languages. -/
theorem returns_resolveVariants (declared : LanguageSet) (resolve : Identity → α → Dialogue α)
    (variants : Variants α) :
    (resolveVariants declared parent resolve variants).Returns fun progress =>
      progress.stopped = none → variants.DeclaredIn declared :=
  (returns_resolveEntries parent declared resolve variants.entries).bind fun _ h => h

/-- A section in declared languages is settled before the sections after it. -/
theorem settles_inTurn_cons {declared : LanguageSet} {resolve : Identity → α → Dialogue α}
    {occurrences : Identity → α → List Occurrence} {variants : Variants α}
    {set : Variants α → SymbolPage} {step : SymbolPage → Dialogue (Progress SymbolPage)}
    {steps : List (SymbolPage → Dialogue (Progress SymbolPage))} {page : SymbolPage}
    {made rest : List Occurrence} {after : Progress SymbolPage → List Occurrence}
    (h : ∀ parent value, v.Settles [] (occurrences parent value) (resolve parent value)
      (occurrences parent))
    (hdeclared : variants.DeclaredIn declared)
    (hstep : step page = (resolveVariants declared parent resolve variants).map (·.map set))
    (hrest : ∀ variants : Variants α, v.Settles (made ++ variants.occurrences parent occurrences)
      rest (inTurn steps (set variants)) after) :
    v.Settles made (variants.occurrences parent occurrences ++ rest) (inTurn (step :: steps) page)
      after := by
  rw [resolveVariants_eq parent hdeclared, map_map] at hstep
  rw [inTurn_cons hstep]
  exact (v.settles_variants parent h variants).bind fun entries => hrest ⟨entries⟩

/-- A symbol page in declared languages is settled by its walk. -/
theorem settles_symbol {page : SymbolPage} (h : page.IsDeclared) :
    v.Settles [] (page.occurrences parent) (inTurn (v.symbolSections page.languages parent) page)
      fun progress => progress.value.occurrences parent := by
  simp only [SymbolPage.occurrences, List.append_assoc]
  rw [← List.append_nil (page.topics.occurrences parent TaskGroup.occurrencesOf)]
  refine v.settles_inTurn_cons parent v.settles_section h.summary rfl fun summary => ?_
  refine v.settles_inTurn_cons parent v.settles_section h.discussion rfl fun discussion => ?_
  refine v.settles_inTurn_cons parent v.settles_parameters h.parameters rfl fun parameters => ?_
  refine v.settles_inTurn_cons parent v.settles_section h.returns rfl fun returns => ?_
  refine v.settles_inTurn_cons parent v.settles_groups h.seeAlso rfl fun seeAlso => ?_
  refine v.settles_inTurn_cons parent v.settles_groups h.topics rfl fun topics => ?_
  exact .done (by simp only [List.nil_append, List.append_assoc])

/-- If the sections end without stopping, then the first of them is in declared languages. -/
theorem returns_inTurn_cons {declared : LanguageSet} {resolve : Identity → α → Dialogue α}
    {variants : Variants α} {set : Variants α → SymbolPage}
    {step : SymbolPage → Dialogue (Progress SymbolPage)}
    {steps : List (SymbolPage → Dialogue (Progress SymbolPage))} {page : SymbolPage} {Q : Prop}
    (hstep : step page = (resolveVariants declared parent resolve variants).map (·.map set))
    (hrest : variants.DeclaredIn declared → ∀ variants : Variants α,
      (inTurn steps (set variants)).Returns fun progress => progress.stopped = none → Q) :
    (inTurn (step :: steps) page).Returns fun progress => progress.stopped = none → Q := by
  rw [inTurn, hstep, bind_eq, bind_map]
  refine (returns_resolveVariants parent declared resolve variants).bind fun progress h => ?_
  cases hstopped : progress.stopped with
  | none =>
    simp only [Progress.map, hstopped]
    exact hrest (h hstopped) progress.value
  | some cause =>
    simp only [Progress.map, hstopped]
    exact fun hnone => absurd hnone (Option.some_ne_none cause)

/-- The walk of a symbol page stops unless all variants are in declared languages. -/
theorem returns_symbol (page : SymbolPage) :
    (inTurn (v.symbolSections page.languages parent) page).Returns fun progress =>
      progress.stopped = none → page.IsDeclared := by
  refine returns_inTurn_cons parent rfl fun hsummary summary => ?_
  refine returns_inTurn_cons parent rfl fun hdiscussion discussion => ?_
  refine returns_inTurn_cons parent rfl fun hparameters parameters => ?_
  refine returns_inTurn_cons parent rfl fun hreturns returns => ?_
  refine returns_inTurn_cons parent rfl fun hseeAlso seeAlso => ?_
  refine returns_inTurn_cons parent rfl fun htopics topics => ?_
  exact fun _ => ⟨hsummary, hdiscussion, hparameters, hreturns, hseeAlso, htopics⟩

theorem settles_intro (intro : Intro) :
    v.Settles [] (intro.occurrences parent) (v.resolveIntro parent intro)
      (Intro.occurrences parent) := by
  simp only [Intro.occurrences, List.append_assoc]
  refine (v.settles_markup parent intro.content).bind fun content => ?_
  refine (v.settles_media? intro.image).bind fun _ => ?_
  exact (v.settles_media? intro.video).bind_done fun _ => rfl

theorem settles_contentAndMedia (item : ContentAndMedia) :
    v.Settles [] (item.occurrences parent) (v.resolveContentAndMedia parent item)
      (ContentAndMedia.occurrences parent) := by
  refine (v.settles_markup parent item.content).bind fun content => ?_
  exact (v.settles_media? item.media).bind_done fun _ => rfl

theorem settles_listing (listing : Option CodeListing) :
    v.Settles [] (CodeListing.occurrences? listing) (v.checkListing listing)
      fun _ => CodeListing.occurrences? listing := by
  cases listing with
  | none => exact .done rfl
  | some listing =>
    refine (v.settles_media listing.file).bind fun _ => ?_
    exact (v.settles_media? listing.preview).last fun _ => rfl

theorem settles_step (step : Step) :
    v.Settles [] (step.occurrences parent) (v.resolveStep parent step)
      (Step.occurrences parent) := by
  simp only [Step.occurrences, List.append_assoc]
  refine (v.settles_markup parent step.content).bind fun content => ?_
  refine (v.settles_markup parent step.caption).bind fun caption => ?_
  refine (v.settles_media? step.media).bind fun _ => ?_
  exact (v.settles_listing step.code).bind_done fun _ => rfl

theorem settles_tutorialSection (part : TutorialSection) :
    v.Settles [] (part.occurrences parent) (v.resolveTutorialSection parent part)
      (TutorialSection.occurrences parent) := by
  refine (settles_each (v.settles_contentAndMedia parent) part.introduction).bind fun _ => ?_
  exact (settles_each (v.settles_step parent) part.steps).bind_done fun _ => rfl

theorem settles_choice (choice : Choice) :
    v.Settles [] (choice.occurrences parent) (v.resolveChoice parent choice)
      (Choice.occurrences parent) := by
  simp only [Choice.occurrences, List.append_assoc]
  refine (v.settles_markup parent choice.content).bind fun content => ?_
  refine (v.settles_media? choice.image).bind fun _ => ?_
  exact (v.settles_markup parent choice.justification).bind_done fun _ => rfl

theorem settles_question (question : Question) :
    v.Settles [] (question.occurrences parent) (v.resolveQuestion parent question)
      (Question.occurrences parent) := by
  simp only [Question.occurrences, List.append_assoc]
  refine (v.settles_markup parent question.question).bind fun text => ?_
  refine (v.settles_markup parent question.content).bind fun content => ?_
  refine (v.settles_media? question.image).bind fun _ => ?_
  exact (settles_each (v.settles_choice parent) question.choices).bind_done fun _ => rfl

/-- The questions at the end of a page are settled by their walk. -/
theorem settles_assessments (questions : Option (List Question)) :
    v.Settles [] (Question.occurrences? parent questions) (v.resolveAssessments parent questions)
      (Question.occurrences? parent) :=
  settles_maybe (settles_each (v.settles_question parent)) questions

/-- A tutorial article is settled by its walk. -/
theorem settles_tutorialArticle (article : TutorialArticle) :
    v.Settles [] (article.occurrences parent) (v.resolveTutorialArticle parent article)
      (TutorialArticle.occurrences parent) := by
  simp only [TutorialArticle.occurrences, List.append_assoc]
  refine (settles_maybe (v.settles_intro parent) article.intro).bind fun intro => ?_
  refine (settles_each (v.settles_contentAndMedia parent) article.content).bind fun content => ?_
  exact (v.settles_assessments parent article.assessments).bind_done fun _ => rfl

/-- A chapter is settled by its walk, its tutorials last. -/
theorem settles_chapter (chapter : Chapter) :
    v.Settles [] (chapter.occurrences parent) (v.resolveChapter parent chapter)
      (Chapter.occurrences parent) := by
  simp only [Chapter.occurrences, List.append_assoc]
  refine (v.settles_markup parent chapter.content).bind fun content => ?_
  refine (v.settles_media? chapter.image).bind fun _ => ?_
  exact (v.settles_curated chapter.name chapter.references).bind_done fun _ => rfl

theorem settles_volume (volume : Volume) :
    v.Settles [] (volume.occurrences parent) (v.resolveVolume parent volume)
      (Volume.occurrences parent) := by
  simp only [Volume.occurrences, List.append_assoc]
  refine (v.settles_markup parent volume.content).bind fun content => ?_
  refine (v.settles_media? volume.image).bind fun _ => ?_
  exact (settles_each (v.settles_chapter parent) volume.chapters).bind_done fun _ => rfl

/-- A table of contents is settled by its walk. -/
theorem settles_contents (contents : TableOfContents) :
    v.Settles [] (contents.occurrences parent) (v.resolveContents parent contents)
      (TableOfContents.occurrences parent) := by
  refine (v.settles_intro parent contents.intro).bind fun intro => ?_
  exact (settles_each (v.settles_volume parent) contents.volumes).bind_done fun _ => rfl

/-- The offer of a project archive, which follows the check that it exists. -/
def offerArchive : Option Media → Dialogue Unit
  | none => .done ()
  | some archive => offerDownload archive.resource.path

theorem offerProject_eq (archive : Option Media) :
    v.offerProject archive = (v.checkMedia? archive).bind fun _ => offerArchive archive := by
  cases archive with
  | none => rfl
  | some archive => rfl

/-- A tutorial is settled by its walk, and then its archive is offered. -/
theorem map_resolveTutorial (tutorial : Tutorial) :
    (v.resolveTutorial parent tutorial).map (Tutorial.occurrences parent) =
      (each v.settle (tutorial.occurrences parent)).bind fun settled =>
        (offerArchive tutorial.projectFiles).map fun _ => settled := by
  let walk : Dialogue Tutorial := do
    let intro ← v.resolveIntro parent tutorial.intro
    let sections ← each (v.resolveTutorialSection parent) tutorial.sections
    let assessments ← v.resolveAssessments parent tutorial.assessments
    v.checkMedia? tutorial.projectFiles
    pure { tutorial with intro, sections, assessments }
  have hwalk : v.Settles [] (tutorial.occurrences parent) walk (Tutorial.occurrences parent) := by
    simp only [Tutorial.occurrences, List.append_assoc]
    refine (v.settles_intro parent tutorial.intro).bind fun intro => ?_
    refine (settles_each (v.settles_tutorialSection parent) tutorial.sections).bind fun _ => ?_
    refine (v.settles_assessments parent tutorial.assessments).bind fun assessments => ?_
    exact (v.settles_media? tutorial.projectFiles).bind_done fun _ => rfl
  have hoffer : v.resolveTutorial parent tutorial =
      walk.bind fun tutorial' => (offerArchive tutorial.projectFiles).map fun _ => tutorial' := by
    simp only [resolveTutorial, walk, offerProject_eq, bind_eq, pure_eq, bind_assoc, done_bind]
    rfl
  rw [hoffer, map_bind, ← hwalk.map_eq, bind_map]
  simp only [map_map]

end Viewpoint

/-- The declaration that the documentation of a page was inherited from. Only symbols inherit
documentation. -/
def PageContent.inheritance : PageContent → Option Inheritance
  | .symbol p => p.docComment.bind Viewpoint.inheritanceOf
  | _ => none

/-- The viewpoint from which the references of a page are settled. -/
def Page.viewpoint (settings : Settings) (page : Page) : Viewpoint where
  settings
  source := page.source
  inheritance := page.content.inheritance

/-- What follows when a page is settled: only a tutorial has something to offer. -/
def PageContent.offer : PageContent → Dialogue Unit
  | .tutorial t => Viewpoint.offerArchive t.projectFiles
  | _ => .done ()

/-- All variants of a page are in languages that the page declares. Only symbol pages have
variants. -/
def PageContent.IsDeclared : PageContent → Prop
  | .symbol p => p.IsDeclared
  | _ => True

namespace Viewpoint

open Dialogue

variable {v : Viewpoint} (parent : Identity)

/-- A page without an offer is done when it is settled. -/
theorem Settles.before_nothing {α : Type} {d : Dialogue α} {before : List Occurrence}
    {after : α → List Occurrence} (hd : v.Settles [] before d after) :
    d.map after = (each v.settle before).bind fun settled =>
      (Dialogue.done ()).map fun _ => settled := by
  rw [hd.map_eq]
  exact (Dialogue.bind_done _).symm

/-- The content of a page in declared languages is settled by its walk, and then offered. -/
theorem map_resolveContent (hv : v.inheritance = none) {content : PageContent}
    (h : content.IsDeclared) :
    (v.resolveContent parent content).map (·.value.occurrences parent) =
      (each ({ v with inheritance := content.inheritance } : Viewpoint).settle
        (content.occurrences parent)).bind fun settled =>
          content.offer.map fun _ => settled := by
  obtain ⟨settings, source, inheritance⟩ := v
  cases hv
  cases content with
  | article a => exact (map_map _ _ _).trans (settles_article _ parent a).before_nothing
  | symbol p => exact (map_map _ _ _).trans (settles_symbol _ parent h).before_nothing
  | contents c => exact (map_map _ _ _).trans (settles_contents _ parent c).before_nothing
  | tutorial t => exact (map_map _ _ _).trans (map_resolveTutorial _ parent t)
  | tutorialArticle a =>
    exact (map_map _ _ _).trans (settles_tutorialArticle _ parent a).before_nothing

/-- A walk that does not stop has met declared languages only. -/
theorem returns_resolveContent (v : Viewpoint) (content : PageContent) :
    (v.resolveContent parent content).Returns fun progress =>
      progress.stopped = none → content.IsDeclared := by
  cases content with
  | symbol p => exact (returns_symbol _ parent p).bind fun progress h => h
  | article a => exact returns_of_forall (fun _ _ => trivial) _
  | contents c => exact returns_of_forall (fun _ _ => trivial) _
  | tutorial t => exact returns_of_forall (fun _ _ => trivial) _
  | tutorialArticle a => exact returns_of_forall (fun _ _ => trivial) _

end Viewpoint

namespace Page

open Dialogue

variable (settings : Settings) (page : Page)

/-- A page in declared languages is settled by its walk, and then offered. -/
theorem map_resolve (h : page.content.IsDeclared) :
    (page.resolve settings).map (·.value.occurrences) =
      (each (page.viewpoint settings).settle page.occurrences).bind fun settled =>
        page.content.offer.map fun _ => settled :=
  (map_map _ _ _).trans (Viewpoint.map_resolveContent page.reference rfl h)

/-- A walk of a page that does not stop has met declared languages only. -/
theorem returns_resolve :
    (page.resolve settings).Returns fun progress =>
      progress.stopped = none → page.content.IsDeclared :=
  (Viewpoint.returns_resolveContent page.reference _ page.content).bind fun _ h => h

end Page

end TopicLinks
