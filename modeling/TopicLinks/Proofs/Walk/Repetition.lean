import TopicLinks.Proofs.Walk.Certainty
import TopicLinks.Proofs.Walk.Settlements

/-!
# Walks that are repeated

A walk leaves its own result as it is when it is repeated on it: what was resolved is left alone,
and what failed fails again, if look-ups do not depend on the state. The problems of the second
walk are those of the first one that are still open. On pages without chapters nothing more is
needed for that.
-/

namespace TopicLinks

variable {σ α : Type}

namespace Problem

/-- The problems of some kinds, in order. -/
def ofKinds (keep : String → Bool) (problems : List Problem) : List Problem :=
  problems.filter fun p => keep p.diagnostic.identifier

/-- Some kinds of problems are those that a walk leaves open: what does not resolve and what does
not exist are among them, and links that only resolved where they were inherited are not. -/
structure AreOpen (keep : String → Bool) : Prop where
  /-- A topic that was not found is not found again. -/
  unresolvedTopic : keep unresolvedTopicId = true
  /-- A resource that did not exist does not exist later. -/
  unresolvedResource : keep unresolvedResourceId = true
  /-- An inherited link is resolved by now. -/
  inheritedLink : keep inheritedLinkId = false

@[simp] theorem ofKinds_nil (keep : String → Bool) : ofKinds keep [] = [] := rfl

@[simp] theorem ofKinds_append (keep : String → Bool) (before after : List Problem) :
    ofKinds keep (before ++ after) = ofKinds keep before ++ ofKinds keep after :=
  List.filter_append before after

theorem ofKinds_cons_of_pos {keep : String → Bool} {p : Problem}
    (h : keep p.diagnostic.identifier = true) (rest : List Problem) :
    ofKinds keep (p :: rest) = p :: ofKinds keep rest :=
  List.filter_cons_of_pos h

theorem ofKinds_cons_of_neg {keep : String → Bool} {p : Problem}
    (h : keep p.diagnostic.identifier = false) (rest : List Problem) :
    ofKinds keep (p :: rest) = ofKinds keep rest :=
  List.filter_cons_of_neg (by simp [h])

end Problem

open Problem

namespace Dialogue

variable {kb : KnowledgeBase σ} {keep : String → Bool} {P : α → Prop}

/-- What `f` makes of a value, `f` leaves as it is if it has the property `P`, and reports the
problems of some kinds again. -/
def Repeats (kb : KnowledgeBase σ) (keep : String → Bool) (P : α → Prop) (f : α → Dialogue α)
    (a : α) : Prop :=
  ∃ b problems, (f a).ComesTo kb b problems ∧ (P b → (f b).ComesTo kb b (ofKinds keep problems))

/-- What repeats on all elements repeats on a list. -/
theorem repeats_each {f : α → Dialogue α} {as : List α} (h : ∀ a ∈ as, Repeats kb keep P f a) :
    Repeats kb keep (fun bs => ∀ b ∈ bs, P b) (each f) as := by
  induction as with
  | nil => exact ⟨[], [], .done [], fun _ => .done []⟩
  | cons a as ih =>
    obtain ⟨b, problems, hfirst, hagain⟩ := h a List.mem_cons_self
    obtain ⟨bs, more, hrest, hrests⟩ :=
      ih fun other hother => h other (List.mem_cons_of_mem a hother)
    refine ⟨b :: bs, problems ++ more, hfirst.bind (hrest.map _), fun hall => ?_⟩
    obtain ⟨hb, hbs⟩ := List.forall_mem_cons.mp hall
    rw [ofKinds_append]
    exact (hagain hb).bind ((hrests hbs).map _)

end Dialogue

namespace Viewpoint

open Dialogue

variable {kb : KnowledgeBase σ} {keep : String → Bool}

/-- What a topic reference comes to is left alone when it is resolved again. Only what did not
resolve is reported again. -/
theorem comesTo_resolveTopic_again {v : Viewpoint} (hkeep : AreOpen keep) (state : σ)
    {parent : Identity} {range : Option SourceRange} {fromSymbolLink : Bool}
    {before after : Topic} {problems : List Problem}
    (h : (v.resolveTopic parent range fromSymbolLink before).ComesTo kb after problems) :
    (v.resolveTopic parent range fromSymbolLink after).ComesTo kb after
      (ofKinds keep problems) := by
  obtain ⟨hresult, hproblems⟩ := h.run state
  have hresolves := v.run_resolveTopic kb parent range fromSymbolLink state before
  simp only [hresult, hproblems] at hresolves
  cases hresolves with
  | kept identity => exact .done _
  | found hfound => exact .done _
  | rescued hfailed hinherited =>
    rw [ofKinds_cons_of_neg hkeep.inheritedLink, ofKinds_nil]
    exact .done _
  | failed hfailed uncurated =>
    rw [ofKinds_cons_of_pos hkeep.unresolvedTopic, ofKinds_nil]
    exact h

/-- Whatever a medium is reported for, it is reported for again. -/
theorem ofKinds_checkMedia {v : Viewpoint} (hkeep : AreOpen keep) (state : σ) {file : Media}
    {problems : List Problem} (h : (v.checkMedia file).ComesTo kb () problems) :
    ofKinds keep problems = problems := by
  have hproblems := (v.run_checkMedia kb state file).symm.trans (h.run state).2
  split at hproblems
  · rw [← hproblems, ofKinds_nil]
  · rw [← hproblems, ofKinds_cons_of_pos hkeep.unresolvedResource, ofKinds_nil]

/-- A topic reference or a medium is settled once and for all. -/
theorem repeats_settle_plain (v : Viewpoint) (hkb : kb.HasSteadyLookups) (hkeep : AreOpen keep)
    (state : σ) (P : Occurrence → Prop) {occurrence : Occurrence}
    (hplain : occurrence.isPlain = true) : Repeats kb keep P v.settle occurrence := by
  cases occurrence with
  | topic parent range fromSymbolLink topic =>
    obtain ⟨after, problems, h⟩ :=
      v.isCertain_resolveTopic hkb state parent range fromSymbolLink topic
    have hagain := comesTo_resolveTopic_again hkeep state h
    exact ⟨_, problems, h.map _, fun _ => hagain.map _⟩
  | media file =>
    obtain ⟨result, problems, h⟩ := v.isCertain_checkMedia hkb state file
    refine ⟨.media file, problems, h.map _, fun _ => ?_⟩
    rw [ofKinds_checkMedia hkeep state h]
    exact h.map _
  | chapter name references => cases hplain

end Viewpoint

namespace Page

open Dialogue

variable {kb : KnowledgeBase σ} {keep : String → Bool} {P : Occurrence → Prop} {page : Page}

/-- A walk keeps the languages of variants, so a page in declared languages stays one. -/
theorem Refines.isDeclared {after : Page} (h : page.Refines after)
    (hdeclared : page.content.IsDeclared) : after.content.IsDeclared := by
  have hvariants : ∀ {β : Type} {R : β → β → Prop} {before after : Variants β}
      {declared : LanguageSet}, before.Refines R after → before.DeclaredIn declared →
        after.DeclaredIn declared := by
    rintro β R ⟨before⟩ ⟨after⟩ declared hafter hbefore
    replace hafter : List.Forall₂ (Variants.EntryRefines R) before after := hafter
    replace hbefore : ∀ entry ∈ before, entry.1 ∈ declared := hbefore
    induction hafter with
    | nil => exact fun entry hentry => absurd hentry List.not_mem_nil
    | cons hentry hrest ih =>
      obtain ⟨value, -, rfl⟩ := hentry
      obtain ⟨hfirst, hothers⟩ := List.forall_mem_cons.mp hbefore
      exact List.forall_mem_cons.mpr ⟨hfirst, ih hothers⟩
  obtain ⟨reference, source, before⟩ := page
  obtain ⟨content, hcontent, rfl⟩ := h
  cases hcontent with
  | symbol h =>
    have hpage : SymbolPage.IsDeclared _ := hdeclared
    cases h with
    | of hsummary hdiscussion hparameters hreturns hseeAlso htopics =>
      exact ⟨hvariants hsummary hpage.summary, hvariants hdiscussion hpage.discussion,
        hvariants hparameters hpage.parameters, hvariants hreturns hpage.returns,
        hvariants hseeAlso hpage.seeAlso, hvariants htopics hpage.topics⟩
  | article | contents | tutorial | tutorialArticle => trivial

/-- A walk keeps the file and the doc comment of a page, so references are settled from the same
viewpoint after it. -/
theorem Refines.viewpoint_eq {after : Page} (h : page.Refines after) (settings : Settings) :
    after.viewpoint settings = page.viewpoint settings := by
  obtain ⟨reference, source, before⟩ := page
  obtain ⟨content, hcontent, rfl⟩ := h
  cases hcontent with
  | symbol h =>
    cases h
    rfl
  | article | contents | tutorial | tutorialArticle => rfl

/-- The walk of a page comes to the page with the occurrences to which its own ones come. -/
theorem exists_comesTo_of_settled (settings : Settings) (state : σ) (h : page.content.IsDeclared)
    {settled : List Occurrence} {problems : List Problem}
    (hsettled : (each (page.viewpoint settings).settle page.occurrences).ComesTo kb settled
      problems) :
    ∃ after, (page.resolve settings).ComesTo kb ⟨after, none⟩ problems ∧ page.Refines after ∧
      after.occurrences = settled := by
  obtain ⟨rebuild, hrebuild⟩ := exists_rebuild h
  have hoffer := page.content.comesTo_offer kb
  have hwalk : (page.resolve settings).ComesTo kb ⟨rebuild settled, none⟩ problems := by
    rw [hrebuild settings, ← List.append_nil problems]
    exact hsettled.bind (hoffer.map _)
  have hresult := (hwalk.run state).1
  have hrefines := (page.refines_resolve settings).run kb state
  rw [hresult] at hrefines
  refine ⟨rebuild settled, hwalk, hrefines, ?_⟩
  -- The occurrences of the result are the settled ones, in any run.
  have hoccurrences := (hwalk.map (·.value.occurrences)).run state
  rw [page.map_resolve settings h] at hoccurrences
  exact hoccurrences.1.symm.trans ((hsettled.bind (hoffer.map _)).run state).1

/-- If all occurrences of a page repeat, then the walk of the page leaves its own result as it
is. -/
theorem exists_comesTo_again (settings : Settings) (state : σ) (h : page.content.IsDeclared)
    (hrepeats : ∀ occurrence ∈ page.occurrences,
      Repeats kb keep P (page.viewpoint settings).settle occurrence) :
    ∃ after problems, (page.resolve settings).ComesTo kb ⟨after, none⟩ problems ∧
      page.Refines after ∧
      ((∀ occurrence ∈ after.occurrences, P occurrence) →
        (after.resolve settings).ComesTo kb ⟨after, none⟩ (ofKinds keep problems)) := by
  obtain ⟨settled, problems, hsettled, hagain⟩ := repeats_each hrepeats
  obtain ⟨after, hwalk, hrefines, hafter⟩ := exists_comesTo_of_settled settings state h hsettled
  refine ⟨after, problems, hwalk, hrefines, fun hall => ?_⟩
  rw [hafter] at hall
  have hsecond := hagain hall
  rw [← hafter, ← hrefines.viewpoint_eq settings] at hsecond
  obtain ⟨again, hwalks, hagains, hsame⟩ :=
    exists_comesTo_of_settled settings state (hrefines.isDeclared h) hsecond
  rwa [Refines.eq_of_occurrences hagains after.refines_self hsame] at hwalks

/-- A walk makes no table of contents of another page. -/
theorem Refines.ne_contents {after : Page} (h : page.Refines after)
    (hpage : ∀ contents, page.content ≠ .contents contents) (contents : TableOfContents) :
    after.content ≠ .contents contents := by
  obtain ⟨reference, source, before⟩ := page
  obtain ⟨content, hcontent, rfl⟩ := h
  rintro rfl
  cases hcontent
  exact hpage _ rfl

end Page

/-- A query that asks which topic a link means. -/
def Query.isResolve : Query → Bool
  | .resolve _ _ _ => true
  | _ => false

theorem Query.filter_isResolve (calls : List Query) :
    (calls.filter isLookup).filter isResolve = calls.filter isResolve := by
  rw [List.filter_filter]
  refine List.filter_congr fun q _ => ?_
  cases q with
  | _ => rfl

namespace Viewpoint

open Dialogue

variable (v : Viewpoint) (kb : KnowledgeBase σ)

/-- All that is asked about a link that does not resolve: what it means from its own parent, and
then from the declaration that its documentation was inherited from, if it has a second chance
there. Nothing is asked about a reference that is resolved. -/
def attempts : Occurrence → List Query
  | .topic parent _ fromSymbolLink (.unresolved link) =>
    .resolve link parent fromSymbolLink :: ((v.secondChance? link).map fun inherited =>
      .resolve link inherited.parent fromSymbolLink).toList
  | _ => []

theorem run_retry_calls (link : AuthoredLink) (range : Option SourceRange) (fromSymbolLink : Bool)
    (state : σ) :
    ((v.retry link range fromSymbolLink).run kb state).calls =
      ((v.secondChance? link).map fun inherited =>
        Query.resolve link inherited.parent fromSymbolLink).toList := by
  unfold retry
  cases v.secondChance? link with
  | none => rfl
  | some inherited =>
    simp only [bind_eq, run_bind, Dialogue.query, run]
    cases (kb.answer (.resolve link inherited.parent fromSymbolLink) state).1 with
    | error failure => rfl
    | ok target => rfl

/-- About a reference that is left as it is, all attempts are made and no other link is asked
about. -/
theorem run_resolveTopic_calls (parent : Identity) (range : Option SourceRange)
    (fromSymbolLink : Bool) (topic : Topic) (state : σ)
    (h : ((v.resolveTopic parent range fromSymbolLink topic).run kb state).result = topic) :
    ((v.resolveTopic parent range fromSymbolLink topic).run kb state).calls.filter
      Query.isResolve = v.attempts (.topic parent range fromSymbolLink topic) := by
  cases topic with
  | resolved identity => rfl
  | unresolved link =>
    simp only [resolveTopic, bind_eq, run_bind, Dialogue.query, run] at h ⊢
    cases hanswer : (kb.answer (.resolve link parent fromSymbolLink) state).1 with
    | ok identity =>
      rw [hanswer] at h
      cases h
    | error failure =>
      rw [hanswer] at h
      simp only [run_bind] at h ⊢
      have hcalls := v.run_retry_calls kb link range fromSymbolLink
        (kb.answer (.resolve link parent fromSymbolLink) state).2
      cases hretry : ((v.retry link range fromSymbolLink).run kb
          (kb.answer (.resolve link parent fromSymbolLink) state).2).result with
      | some identity =>
        rw [hretry] at h
        cases h
      | none =>
        have hattempts : ∀ q ∈ ((v.secondChance? link).map fun inherited =>
            Query.resolve link inherited.parent fromSymbolLink).toList, q.isResolve = true := by
          simp [Query.isResolve]
        rw [hcalls, List.cons_append, List.nil_append, List.filter_cons_of_pos rfl,
          List.filter_append, List.filter_eq_self.mpr hattempts, attempts]
        simp [reportUnresolved, Dialogue.query, Dialogue.tell, run, Query.isResolve]

theorem run_checkMedia_calls (file : Media) (state : σ) :
    ((v.checkMedia file).run kb state).calls.filter Query.isResolve = [] := by
  unfold checkMedia
  cases file.resource.isWeb with
  | true => rfl
  | false =>
    change (run kb (if (kb.answer (.resourceExists file.resource) state).1 = true then .done ()
        else Dialogue.tell (v.unresolvedResource file)) _).calls.filter Query.isResolve = []
    by_cases hexists : (kb.answer (.resourceExists file.resource) state).1 = true
    · rw [if_pos hexists]
      rfl
    · rw [if_neg hexists]
      rfl

theorem run_settle_calls {occurrence : Occurrence} (hplain : occurrence.isPlain = true)
    (state : σ) (h : ((v.settle occurrence).run kb state).result = occurrence) :
    ((v.settle occurrence).run kb state).calls.filter Query.isResolve =
      v.attempts occurrence := by
  cases occurrence with
  | topic parent range fromSymbolLink topic =>
    simp only [settle, run_map] at h ⊢
    exact v.run_resolveTopic_calls kb parent range fromSymbolLink topic state
      (Occurrence.topic.inj h).2.2.2
  | media file =>
    simp only [settle, run_map]
    exact v.run_checkMedia_calls kb file state
  | chapter name references => cases hplain

theorem transcript_of_mem_settlements {occurrences : List Occurrence} {state : σ}
    {part : Settlement σ} (h : part ∈ v.settlements kb occurrences state) :
    part.transcript = (v.settle part.occurrence).run kb part.state := by
  induction occurrences generalizing state with
  | nil => cases h
  | cons occurrence rest ih =>
    rcases List.mem_cons.mp h with rfl | h
    · rfl
    · exact ih h

end Viewpoint

namespace Page

variable {settings : Settings} {kb : KnowledgeBase σ} {page : Page} {state : σ}

/-- If a walk leaves a page as it is, then every occurrence is settled as itself. -/
theorem result_of_mem_settlements
    (h : ((page.resolve settings).run kb state).result = ⟨page, none⟩) {part : Settlement σ}
    (hpart : part ∈ (page.viewpoint settings).settlements kb page.occurrences state) :
    part.transcript.result = part.occurrence := by
  have hparts := (page.viewpoint settings).map_occurrence_settlements kb page.occurrences state
  have hvalue : page = ((page.resolve settings).run kb state).result.value :=
    (congrArg Progress.value h).symm
  have hsettled := (page.run_resolve settings kb state (congrArg Progress.stopped h)).2.2
  have hsame := hparts.trans ((congrArg Page.occurrences hvalue).trans hsettled)
  exact (List.map_inj_left.mp hsame part hpart).symm

/-- A walk that leaves a page without chapters as it is asks about the links that do not resolve,
and about no others. -/
theorem run_resolve_calls (hplain : page.occurrences.all Occurrence.isPlain = true)
    (h : ((page.resolve settings).run kb state).result = ⟨page, none⟩) :
    ((page.resolve settings).run kb state).calls.filter Query.isResolve =
      page.occurrences.flatMap (page.viewpoint settings).attempts := by
  have hparts := (page.viewpoint settings).map_occurrence_settlements kb page.occurrences state
  have hlookups := (page.run_resolve settings kb state (congrArg Progress.stopped h)).1
  have hcalls : ∀ part ∈ (page.viewpoint settings).settlements kb page.occurrences state,
      part.transcript.calls.filter Query.isResolve =
        (page.viewpoint settings).attempts part.occurrence := by
    intro part hpart
    have hmem : part.occurrence ∈ page.occurrences :=
      hparts ▸ List.mem_map_of_mem (f := (·.occurrence)) hpart
    have hsame := result_of_mem_settlements h hpart
    have htranscript := (page.viewpoint settings).transcript_of_mem_settlements kb hpart
    rw [htranscript] at hsame ⊢
    exact Viewpoint.run_settle_calls _ kb (List.all_eq_true.mp hplain _ hmem) _ hsame
  rw [← Query.filter_isResolve, hlookups, List.filter_flatMap]
  simp only [Query.filter_isResolve]
  rw [List.flatMap_congr hcalls, ← List.flatMap_map, hparts]

end Page

namespace Walker

open Dialogue

/-- A walk that is repeated on its own result leaves it as it is, if the page has no chapters:
whatever happened in the meantime, it reports the problems of the first walk again, in order, but
for links that resolved only where they were inherited; and it asks which topics links mean only
for those that are still not resolved. -/
theorem resolvePage_repeated (settings : Settings) {kb : KnowledgeBase σ}
    (hkb : kb.HasSteadyLookups) {page : Page}
    (hpage : ∀ contents, page.content ≠ .contents contents) (state later : σ)
    (h : ((resolvePage settings page).run kb state).result.stopped = none) :
    let first := (resolvePage settings page).run kb state
    let after := first.result.value
    let second := (resolvePage settings after).run kb later
    second.result = ⟨after, none⟩ ∧
      second.problems =
        first.problems.filter (·.diagnostic.identifier ≠ inheritedLinkId) ∧
      second.calls.filter Query.isResolve =
        after.occurrences.flatMap (after.viewpoint settings).attempts := by
  intro first after second
  have hkeep : AreOpen (· ≠ inheritedLinkId) := ⟨by decide, by decide, by decide⟩
  have hdeclared : page.content.IsDeclared :=
    (page.returns_resolve settings).run kb (kb.answer (.root .documentation) state).2 h
  have hplain := PageContent.all_isPlain page.reference hpage
  obtain ⟨result, problems, hfirst, hrefines, hagain⟩ :=
    Page.exists_comesTo_again (P := fun _ => True) settings state hdeclared
      fun occurrence hoccurrence => (page.viewpoint settings).repeats_settle_plain hkb hkeep state _
        (List.all_eq_true.mp hplain occurrence hoccurrence)
  obtain ⟨hresult, hproblems⟩ := hfirst.run (kb.answer (.root .documentation) state).2
  obtain rfl : result = after := (congrArg Progress.value hresult).symm
  obtain ⟨hsecond, hopen⟩ :=
    (hagain fun _ _ => trivial).run (kb.answer (.root .documentation) later).2
  have hafter := PageContent.all_isPlain after.reference (hrefines.ne_contents hpage)
  refine ⟨hsecond, ?_, ?_⟩
  · rw [← hproblems] at hopen
    exact hopen
  · exact Page.run_resolve_calls hafter hsecond

/-- On a page that inherits its documentation a link that resolved only where it was inherited is
not reported again. An image and a symbol link are, and the symbol link is asked about from both
of its places. -/
theorem resolvePage_repeated_of_inheriting :
    let catalog : Catalog := { pages := ["/documentation/Kit", "/documentation/Base/Sibling"] }
    let first := (resolvePage {} inheritingPage).run catalog.fixed []
    let second := (resolvePage {} first.result.value).run catalog.fixed first.state
    catalog.fixed.HasSteadyLookups ∧
      (∀ contents, inheritingPage.content ≠ .contents contents) ∧
      first.result.stopped = none ∧ first.problems.length = 3 ∧
      second.result = ⟨first.result.value, none⟩ ∧
      second.problems.map (·.diagnostic.identifier) =
        [unresolvedResourceId, unresolvedTopicId] ∧
      (second.calls.filter Query.isResolve).length = 2 := by
  intro catalog first second
  have hkb : catalog.fixed.HasSteadyLookups := catalog.isSteady_fixed.toHasSteadyLookups
  have hpage : ∀ contents, inheritingPage.content ≠ .contents contents := fun _ => nofun
  have hstopped : first.result.stopped = none := by decide +kernel
  obtain ⟨hresult, hproblems, hcalls⟩ :=
    resolvePage_repeated {} hkb hpage [] first.state hstopped
  refine ⟨hkb, hpage, hstopped, by decide +kernel, hresult, ?_, ?_⟩
  · rw [show second.problems = _ from hproblems]
    decide +kernel
  · rw [show second.calls.filter Query.isResolve = _ from hcalls]
    decide +kernel

end Walker

end TopicLinks
