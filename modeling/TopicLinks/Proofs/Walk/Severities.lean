import TopicLinks.Proofs.Walk.Settlements
import TopicLinks.Proofs.Walk.Stopping

/-!
# Walks under two severity policies

The settings give a severity to each kind of problem, and no walk depends on a severity. Two walks
whose settings agree on the second chance go side by side: they ask the same queries, go on with
the same answers, and at the same places they report problems that differ in their severities only.
-/

namespace TopicLinks

open Problem

variable {σ : Type}

/-- A problem without its severity: all problems are hints. -/
def Problem.unrated (p : Problem) : Problem :=
  { p with diagnostic := { p.diagnostic with severity := .hint } }

namespace Settings

/-- The severity of each kind of problem. -/
def severities (settings : Settings) : List (String × Severity) :=
  [(unresolvedTopicId, settings.unresolvedTopic),
    (unresolvedResourceId, settings.missingResource),
    (duplicateReferenceId, settings.duplicateReference),
    (inheritedLinkId, settings.inheritedRelativeLink)]

/-- The severity that the settings give to problems with an identifier. -/
def severityOf? (settings : Settings) (identifier : String) : Option Severity :=
  Assoc.get? settings.severities identifier

/-- A problem has the severity that the settings give to its kind. -/
def Rates (settings : Settings) (p : Problem) : Prop :=
  settings.severityOf? p.diagnostic.identifier = some p.diagnostic.severity

/-- One problem under two policies: the severities are those of the policies, and nothing else is
different. -/
structure RateAlike (settings settings' : Settings) (p p' : Problem) : Prop where
  /-- Without their severities the problems are equal. -/
  unrated : p.unrated = p'.unrated
  /-- The first one has the severity of the first policy, -/
  rates : settings.Rates p
  /-- and the second one has that of the second policy. -/
  rates' : settings'.Rates p'

end Settings

namespace Dialogue

variable {α β : Type} {R : Problem → Problem → Prop}

/-- Two dialogues go side by side: they ask the same queries, whatever the answers are, come to
the same result, and report related problems at the same places. -/
inductive Parallel (R : Problem → Problem → Prop) : Dialogue α → Dialogue α → Prop where
  /-- Both end with one result. -/
  | done (a : α) : Parallel R (.done a) (.done a)
  /-- Both ask one query, and go on side by side after every answer. -/
  | ask (q : Query) {next next' : q.Answer → Dialogue α}
    (h : ∀ answer, Parallel R (next answer) (next' answer)) :
    Parallel R (.ask q next) (.ask q next')
  /-- Both report a problem. -/
  | report {p p' : Problem} {next next' : Dialogue α} (hp : R p p') (h : Parallel R next next') :
    Parallel R (.report p next) (.report p' next')

theorem Parallel.bind {d d' : Dialogue α} {f f' : α → Dialogue β} (hd : Parallel R d d')
    (hf : ∀ a, Parallel R (f a) (f' a)) : Parallel R (d.bind f) (d'.bind f') := by
  induction hd with
  | done a => exact hf a
  | ask q _ ih => exact .ask q ih
  | report hp _ ih => exact .report hp ih

theorem Parallel.map {d d' : Dialogue α} (hd : Parallel R d d') (f : α → β) :
    Parallel R (d.map f) (d'.map f) :=
  hd.bind fun a => .done (f a)

/-- Dialogues that go side by side for each element do so for a list. -/
theorem parallel_each {f f' : α → Dialogue β} {as : List α}
    (h : ∀ a ∈ as, Parallel R (f a) (f' a)) : Parallel R (each f as) (each f' as) := by
  induction as with
  | nil => exact .done []
  | cons a as ih =>
    obtain ⟨hfirst, hrest⟩ := List.forall_mem_cons.mp h
    exact hfirst.bind fun b => (ih hrest).map (b :: ·)

end Dialogue

/-- Two transcripts are side by side when they differ in their problems only, which are related
one by one. -/
structure Transcript.Parallel {α : Type} (R : Problem → Problem → Prop) (t t' : Transcript σ α) :
    Prop where
  /-- The results are equal. -/
  result : t.result = t'.result
  /-- The same queries were asked. -/
  calls : t.calls = t'.calls
  /-- The problems are related one by one. -/
  problems : List.Forall₂ R t.problems t'.problems
  /-- The knowledge base is in one state afterwards. -/
  state : t.state = t'.state

/-- Dialogues that go side by side are so in every run. -/
theorem Dialogue.Parallel.run {α : Type} {R : Problem → Problem → Prop} {d d' : Dialogue α}
    (hd : Parallel R d d') (kb : KnowledgeBase σ) (state : σ) :
    (d.run kb state).Parallel R (d'.run kb state) := by
  induction hd generalizing state with
  | done a => exact ⟨rfl, rfl, .nil, rfl⟩
  | ask q _ ih =>
    have hrest := ih (kb.answer q state).1 (kb.answer q state).2
    exact ⟨hrest.result, congrArg (q :: ·) hrest.calls, hrest.problems, hrest.state⟩
  | report hp _ ih =>
    have hrest := ih state
    exact ⟨hrest.result, hrest.calls, .cons hp hrest.problems, hrest.state⟩

namespace Viewpoint

open Dialogue

variable (v : Viewpoint) (settings : Settings)

/-- The same viewpoint under other settings. -/
def underSettings (v : Viewpoint) (settings : Settings) : Viewpoint := { v with settings }

/-- Each of the four problems that a walk can report takes its severity from the settings, and
nothing else. -/
theorem rateAlike_unresolvedTopic (failure : ResolutionFailure) (range : Option SourceRange)
    (uncurated : Option SourceLocation) :
    v.settings.RateAlike settings (v.unresolvedTopic failure range uncurated)
      ((v.underSettings settings).unresolvedTopic failure range uncurated) :=
  ⟨rfl, rfl, rfl⟩

theorem rateAlike_unresolvedResource (file : Media) :
    v.settings.RateAlike settings (v.unresolvedResource file)
      ((v.underSettings settings).unresolvedResource file) :=
  ⟨rfl, rfl, rfl⟩

theorem rateAlike_duplicateReference (chapter : String) (target : Identity)
    (range : Option SourceRange) :
    v.settings.RateAlike settings (v.duplicateReference chapter target range)
      ((v.underSettings settings).duplicateReference chapter target range) :=
  ⟨rfl, rfl, rfl⟩

theorem rateAlike_inheritedLink (inherited : Inheritance) (link : AuthoredLink)
    (target : Identity) (range : Option SourceRange) :
    v.settings.RateAlike settings (v.inheritedLink inherited link target range)
      ((v.underSettings settings).inheritedLink inherited link target range) :=
  ⟨rfl, rfl, rfl⟩

variable {v settings} (h : v.settings.inheritedLinkFallback = settings.inheritedLinkFallback)

include h in
theorem secondChance?_underSettings (link : AuthoredLink) :
    (v.underSettings settings).secondChance? link = v.secondChance? link := by
  unfold secondChance? underSettings
  rw [h]

include h in
/-- A failed link is tried again under both settings, or under none. -/
theorem parallel_retry (link : AuthoredLink) (range : Option SourceRange)
    (fromSymbolLink : Bool) :
    Parallel (v.settings.RateAlike settings) (v.retry link range fromSymbolLink)
      ((v.underSettings settings).retry link range fromSymbolLink) := by
  simp only [retry, secondChance?_underSettings h]
  cases v.secondChance? link with
  | none => exact .done none
  | some inherited =>
    refine .ask _ fun answer => ?_
    cases answer with
    | error failure => exact .done none
    | ok target =>
      exact .report (v.rateAlike_inheritedLink settings inherited link target range)
        (.done (some target))

include h in
/-- A topic reference is resolved in the same way under both settings. -/
theorem parallel_resolveTopic (parent : Identity) (range : Option SourceRange)
    (fromSymbolLink : Bool) (topic : Topic) :
    Parallel (v.settings.RateAlike settings) (v.resolveTopic parent range fromSymbolLink topic)
      ((v.underSettings settings).resolveTopic parent range fromSymbolLink topic) := by
  cases topic with
  | resolved identity => exact .done (Topic.resolved identity)
  | unresolved link =>
    refine .ask _ fun answer => ?_
    cases answer with
    | ok identity => exact .done (Topic.resolved identity)
    | error failure =>
      refine (parallel_retry h link range fromSymbolLink).bind fun target => ?_
      cases target with
      | some identity => exact .done (Topic.resolved identity)
      | none =>
        refine .ask _ fun uncurated => ?_
        exact .report (v.rateAlike_unresolvedTopic settings failure range uncurated)
          (.done (Topic.unresolved link))

/-- A medium is checked in the same way under all settings. -/
theorem parallel_checkMedia (v : Viewpoint) (settings : Settings) (file : Media) :
    Parallel (v.settings.RateAlike settings) (v.checkMedia file)
      ((v.underSettings settings).checkMedia file) := by
  unfold checkMedia
  split
  · exact .done ()
  · refine .ask _ fun answer => ?_
    cases answer with
    | true => exact .done ()
    | false => exact .report (v.rateAlike_unresolvedResource settings file) (.done ())

include h in
/-- A chapter keeps and drops the same tutorials under both settings. The induction is on the
references, after any curation so far. -/
theorem parallel_curate (chapter : String) (root : Identity) (references : List TutorialReference)
    (seen : Curation) :
    Parallel (v.settings.RateAlike settings) (v.curate chapter root seen references)
      ((v.underSettings settings).curate chapter root seen references) := by
  induction references generalizing seen with
  | nil => exact .done []
  | cons reference rest ih =>
    cases htext : Assoc.get? seen.byText reference.topic.effectiveTarget with
    | some target =>
      rw [curate_of_seen htext, curate_of_seen htext]
      exact .report (v.rateAlike_duplicateReference settings chapter target reference.range)
        (ih seen)
    | none =>
      rw [curate_of_new htext, curate_of_new htext]
      refine (parallel_resolveTopic h root reference.range false reference.topic).bind
        fun topic => ?_
      cases topic with
      | unresolved link => exact (ih seen).map _
      | resolved target =>
        by_cases hcurated : target.address ∈ seen.curated
        · simp only [if_pos hcurated]
          exact .report (v.rateAlike_duplicateReference settings chapter target reference.range)
            (ih _)
        · simp only [if_neg hcurated]
          exact (ih _).map _

include h in
/-- Every occurrence is settled in the same way under both settings. -/
theorem parallel_settle (occurrence : Occurrence) :
    Parallel (v.settings.RateAlike settings) (v.settle occurrence)
      ((v.underSettings settings).settle occurrence) := by
  cases occurrence with
  | topic parent range fromSymbolLink topic =>
    exact (parallel_resolveTopic h parent range fromSymbolLink topic).map _
  | media file => exact (v.parallel_checkMedia settings file).map _
  | chapter name references =>
    refine .ask _ fun root => ?_
    exact (parallel_curate h name root references {}).map _

end Viewpoint

/-- An offer reports nothing. -/
theorem PageContent.parallel_offer {R : Problem → Problem → Prop} (content : PageContent) :
    content.offer.Parallel R content.offer := by
  cases content with
  | tutorial t =>
    rw [offer]
    cases t.projectFiles with
    | none => exact .done ()
    | some archive =>
      refine .ask _ fun root => .ask _ fun asset => ?_
      cases asset with
      | none => exact .done ()
      | some asset => exact .ask _ fun _ => .done ()
  | _ => exact .done ()

/-- The first entry in an undeclared language of a symbol page, if there is one. -/
theorem SymbolPage.exists_first_undeclared {p : SymbolPage}
    (h : ∃ entry ∈ p.entries, entry.1 ∉ p.languages) :
    ∃ before entry after, p.entries = before ++ entry :: after ∧
      (∀ earlier ∈ before, earlier.1 ∈ p.languages) ∧ entry.1 ∉ p.languages := by
  have hfirst : (p.entries.find? fun entry => entry.1 ∉ p.languages).isSome := by simpa using h
  obtain ⟨entry, hfind⟩ := Option.isSome_iff_exists.mp hfirst
  obtain ⟨hentry, before, after, hentries, hbefore⟩ := List.find?_eq_some_iff_append.mp hfind
  refine ⟨before, entry, after, hentries, fun earlier hearlier => ?_, by simpa using hentry⟩
  simpa using hbefore earlier hearlier

/-- A symbol page is known from its languages, its doc comment and its entries. -/
theorem SymbolPage.eq_of_entries {p q : SymbolPage} (hlanguages : p.languages = q.languages)
    (hcomment : p.docComment = q.docComment) (hentries : p.entries = q.entries) : p = q := by
  calc
    p = p.withEntries p.entries := (p.withEntries_entries p).symm
    _ = p.withEntries q.entries := by rw [hentries]
    _ = { q with languages := p.languages, docComment := p.docComment } := p.withEntries_entries q
    _ = q := by rw [hlanguages, hcomment]

namespace Page

variable {settings settings' : Settings}
  (h : settings.inheritedLinkFallback = settings'.inheritedLinkFallback) (page : Page)

include h in
/-- A page in declared languages is walked in the same way under both settings. -/
theorem parallel_resolve_of_declared {page : Page} (hdeclared : page.content.IsDeclared) :
    Dialogue.Parallel (settings.RateAlike settings') (page.resolve settings)
      (page.resolve settings') := by
  obtain ⟨rebuild, hrebuild⟩ := page.exists_rebuild hdeclared
  rw [hrebuild settings, hrebuild settings']
  have hsettle : ∀ occurrence, Dialogue.Parallel (settings.RateAlike settings')
      ((page.viewpoint settings).settle occurrence)
      ((page.viewpoint settings').settle occurrence) :=
    Viewpoint.parallel_settle (v := page.viewpoint settings) h
  refine (Dialogue.parallel_each fun occurrence _ => hsettle occurrence).bind fun settled => ?_
  exact page.content.parallel_offer.map _

include h in
/-- Every page is walked in the same way under both settings, also one at which the walk stops:
up to the first undeclared language it is a page in declared languages. -/
theorem parallel_run_resolve (kb : KnowledgeBase σ) (state : σ) :
    ((page.resolve settings).run kb state).Parallel (settings.RateAlike settings')
      ((page.resolve settings').run kb state) := by
  by_cases hdeclared : page.content.IsDeclared
  · exact (parallel_resolve_of_declared h hdeclared).run kb state
  obtain ⟨p, hpage, hundeclared⟩ := not_not.mp (mt page.content.isDeclared_iff.mpr hdeclared)
  obtain ⟨before, entry, after, hentries, hbefore, hentry⟩ :=
    SymbolPage.exists_first_undeclared hundeclared
  have hstops := page.stoppedAt_resolve settings kb state hpage hentries hbefore hentry
  have hstops' := page.stoppedAt_resolve settings' kb state hpage hentries hbefore hentry
  let shorter : Page := { page with content := .symbol (p.withEntries before) }
  have hshorter : shorter.content.IsDeclared := by
    refine (p.withEntries before).isDeclared_iff.mpr ?_
    rw [hstops.shorter]
    exact hbefore
  have hparallel := (parallel_resolve_of_declared h hshorter).run kb state
  obtain ⟨walked, stoppedPage, hwalk, hvalue, hlanguages, hcomment, hleft, -⟩ := hstops.left
  obtain ⟨walked', stoppedPage', hwalk', hvalue', hlanguages', hcomment', hleft', -⟩ :=
    hstops'.left
  rw [hwalk, hwalk'] at hparallel
  obtain rfl : walked = walked' := by simpa using hparallel.result
  obtain rfl : stoppedPage = stoppedPage' :=
    SymbolPage.eq_of_entries (hlanguages.trans hlanguages'.symm) (hcomment.trans hcomment'.symm)
      (hleft.trans hleft'.symm)
  refine ⟨?_, hparallel.calls, hparallel.problems, hparallel.state⟩
  have hresult : ∀ progress progress' : Progress Page, progress.value = progress'.value →
      progress.stopped = progress'.stopped → progress = progress' := by
    rintro ⟨value, stopped⟩ ⟨value', stopped'⟩ rfl rfl
    rfl
  exact hresult _ _ (hvalue.trans hvalue'.symm) (hstops.stopped.trans hstops'.stopped.symm)

end Page

namespace Walker

/-- Severities are for the reader only. Two walks of a page whose settings agree on the second
chance ask the same queries, leave the same page and the same state behind, and stop at the same
language or not at all. Their problems are equal one by one but for the severities, and in each
walk every problem has the severity that the settings of this walk give to its identifier. -/
theorem resolvePage_rates {settings settings' : Settings}
    (h : settings.inheritedLinkFallback = settings'.inheritedLinkFallback)
    (kb : KnowledgeBase σ) (page : Page) (state : σ) :
    let t := (resolvePage settings page).run kb state
    let t' := (resolvePage settings' page).run kb state
    t.calls = t'.calls ∧ t.result.value = t'.result.value ∧
      t.result.stopped = t'.result.stopped ∧ t.state = t'.state ∧
      t.problems.map unrated = t'.problems.map unrated ∧
      (∀ p ∈ t.problems,
        settings.severityOf? p.diagnostic.identifier = some p.diagnostic.severity) ∧
      ∀ p ∈ t'.problems,
        settings'.severityOf? p.diagnostic.identifier = some p.diagnostic.severity := by
  intro t t'
  have hparallel := page.parallel_run_resolve h kb (kb.answer (.root .documentation) state).2
  have hproblems : List.Forall₂ (settings.RateAlike settings') t.problems t'.problems :=
    hparallel.problems
  refine ⟨congrArg (Query.root .documentation :: ·) hparallel.calls,
    congrArg Progress.value hparallel.result, congrArg Progress.stopped hparallel.result,
    hparallel.state, ?_, ?_, ?_⟩
  · refine List.forall₂_eq_eq_eq ▸ List.forall₂_map_left_iff.mpr
      (List.forall₂_map_right_iff.mpr (hproblems.imp fun _ _ hp => hp.unrated))
  · have hrates := hproblems.imp fun _ _ hp => And.intro hp.rates hp
    exact ((List.forall₂_and_left _ _).mp hrates).1
  · have hrates := hproblems.flip.imp fun _ _ hp => And.intro hp.rates' hp
    exact ((List.forall₂_and_left _ _).mp hrates).1

/-- The page that inherits its documentation is walked under two policies: the severities are those
of each policy, and everything else is the same. -/
theorem resolvePage_rates_inheriting :
    let catalog : Catalog := { pages := ["/documentation/Kit", "/documentation/Base/Sibling"] }
    let strict : Settings := {
      duplicateReference := .error
      inheritedRelativeLink := .information
      missingResource := .hint
      unresolvedTopic := .error }
    let t := (resolvePage {} inheritingPage).run Catalog.knowledge catalog
    let t' := (resolvePage strict inheritingPage).run Catalog.knowledge catalog
    t.result.stopped = t'.result.stopped ∧ t.problems.map unrated = t'.problems.map unrated ∧
      t.problems.map (·.diagnostic.severity) = [.warning, .warning, .warning] ∧
      t'.problems.map (·.diagnostic.severity) = [.information, .hint, .error] := by
  intro catalog strict t t'
  have hfallback : ({} : Settings).inheritedLinkFallback = strict.inheritedLinkFallback := rfl
  obtain ⟨-, -, hstopped, -, hproblems, -, -⟩ :=
    resolvePage_rates hfallback Catalog.knowledge inheritingPage catalog
  refine ⟨hstopped, hproblems, ?_, ?_⟩
  · decide +kernel
  · decide +kernel

end Walker

end TopicLinks
