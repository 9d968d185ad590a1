import TopicLinks.Proofs.Walk.Repetition

/-!
# With and without a second chance

The settings can give relative links a second chance where documentation was inherited. Two walks
that differ in this settle the same occurrences side by side. They differ only at links that fail
on the page: such a link may be asked about once more, and if it resolves then, the problem that
it does not resolve gives way to the problem that it was inherited.
-/

namespace TopicLinks

open Problem

variable {σ : Type}

/-- The same settings, with a second chance for inherited links or without. -/
def Settings.withFallback (settings : Settings) (fallback : Bool) : Settings :=
  { settings with inheritedLinkFallback := fallback }

/-- The same viewpoint, with a second chance for inherited links or without. -/
def Viewpoint.withFallback (v : Viewpoint) (fallback : Bool) : Viewpoint :=
  { v with settings := v.settings.withFallback fallback }

/-- What a walk made of one occurrence. -/
structure Account where
  /-- The occurrence after the walk. -/
  after : Occurrence
  /-- The problems that were reported of it. -/
  problems : List Problem
  /-- The queries that asked which topic a link means. -/
  calls : List Query

/-- The account of a settlement. -/
def Settlement.account (part : Settlement σ) : Account :=
  ⟨part.transcript.result, part.transcript.problems,
    part.transcript.calls.filter Query.isResolve⟩

/-- One occurrence in two walks. -/
structure Contrast where
  /-- The occurrence before the walks. -/
  before : Occurrence
  /-- What the walk without a second chance made of it. -/
  off : Account
  /-- What the walk with a second chance made of it. -/
  on : Account

/-- How a second chance changes what becomes of an occurrence. -/
inductive Contrast.IsFallback (kb : KnowledgeBase σ) (v : Viewpoint) : Contrast → Prop where
  /-- Nothing changes. -/
  | same (before : Occurrence) (account : Account) : IsFallback kb v ⟨before, account, account⟩
  /-- A link fails again: it is asked about once more, and reported as before. -/
  | failed {parent : Identity} {range : Option SourceRange} {fromSymbolLink : Bool}
    {link : AuthoredLink} {inherited : Inheritance} (problem : Problem)
    (hinherited : v.inheritance = some inherited)
    (hagain : ∀ s, ∃ failure,
      (kb.answer (.resolve link inherited.parent fromSymbolLink) s).1 = .error failure) :
    IsFallback kb v ⟨.topic parent range fromSymbolLink (.unresolved link),
      ⟨.topic parent range fromSymbolLink (.unresolved link), [problem],
        [.resolve link parent fromSymbolLink]⟩,
      ⟨.topic parent range fromSymbolLink (.unresolved link), [problem],
        [.resolve link parent fromSymbolLink, .resolve link inherited.parent fromSymbolLink]⟩⟩
  /-- A link that fails on the page resolves from the declaration that the documentation was
  inherited from. -/
  | rescued {parent : Identity} {range : Option SourceRange} {fromSymbolLink : Bool}
    {link : AuthoredLink} {inherited : Inheritance} {failure : ResolutionFailure}
    {target : Identity} (uncurated : Option SourceLocation)
    (hinherited : v.inheritance = some inherited)
    (hfailed : ∀ s, (kb.answer (.resolve link parent fromSymbolLink) s).1 = .error failure)
    (hfound : ∀ s,
      (kb.answer (.resolve link inherited.parent fromSymbolLink) s).1 = .ok target) :
    IsFallback kb v ⟨.topic parent range fromSymbolLink (.unresolved link),
      ⟨.topic parent range fromSymbolLink (.unresolved link),
        [v.unresolvedTopic failure range uncurated], [.resolve link parent fromSymbolLink]⟩,
      ⟨.topic parent range fromSymbolLink (.resolved target),
        [v.inheritedLink inherited link target range],
        [.resolve link parent fromSymbolLink, .resolve link inherited.parent fromSymbolLink]⟩⟩

namespace Viewpoint

open Dialogue

variable (v : Viewpoint) (kb : KnowledgeBase σ)

/-- A link that has no second chance is settled without one. -/
theorem resolveTopic_withFallback (hv : v.inheritance = none) (a b : Bool) (parent : Identity)
    (range : Option SourceRange) (fromSymbolLink : Bool) (topic : Topic) :
    (v.withFallback a).resolveTopic parent range fromSymbolLink topic =
      (v.withFallback b).resolveTopic parent range fromSymbolLink topic := by
  have hretry : ∀ fallback link,
      (v.withFallback fallback).retry link range fromSymbolLink = .done none :=
    fun fallback link => (v.withFallback fallback).retry_of_inheritance_eq_none hv link range _
  cases topic with
  | resolved identity => rfl
  | unresolved link =>
    simp only [resolveTopic, hretry]
    rfl

theorem curate_withFallback (hv : v.inheritance = none) (a b : Bool) (chapter : String)
    (root : Identity) (seen : Curation) (references : List TutorialReference) :
    (v.withFallback a).curate chapter root seen references =
      (v.withFallback b).curate chapter root seen references := by
  induction references generalizing seen with
  | nil => rfl
  | cons reference rest ih =>
    simp only [curate, v.resolveTopic_withFallback hv a b, ih]
    rfl

/-- Where nothing is inherited, occurrences are settled without a second chance. -/
theorem settle_withFallback (hv : v.inheritance = none) (a b : Bool) :
    (v.withFallback a).settle = (v.withFallback b).settle := by
  funext occurrence
  cases occurrence with
  | topic parent range fromSymbolLink topic =>
    rw [settle, settle, v.resolveTopic_withFallback hv a b]
  | media file => rfl
  | chapter name references =>
    simp only [settle, v.curate_withFallback hv a b]

/-- What a link comes to if look-ups are steady, in whichever states they happen. -/
theorem account_settle_link (hkb : kb.HasSteadyLookups) (parent : Identity)
    (range : Option SourceRange) (fromSymbolLink : Bool) (link : AuthoredLink) (s later : σ) :
    Settlement.account ⟨.topic parent range fromSymbolLink (.unresolved link), s,
        (v.settle (.topic parent range fromSymbolLink (.unresolved link))).run kb s⟩ =
      match (kb.answer (.resolve link parent fromSymbolLink) later).1, v.secondChance? link with
      | .ok target, _ =>
        ⟨.topic parent range fromSymbolLink (.resolved target), [],
          [.resolve link parent fromSymbolLink]⟩
      | .error failure, none =>
        ⟨.topic parent range fromSymbolLink (.unresolved link),
          [v.unresolvedTopic failure range
            (kb.answer (.uncuratedMatch failure.link.path) later).1],
          [.resolve link parent fromSymbolLink]⟩
      | .error failure, some inherited =>
        match (kb.answer (.resolve link inherited.parent fromSymbolLink) later).1 with
        | .ok target =>
          ⟨.topic parent range fromSymbolLink (.resolved target),
            [v.inheritedLink inherited link target range],
            [.resolve link parent fromSymbolLink, .resolve link inherited.parent fromSymbolLink]⟩
        | .error _ =>
          ⟨.topic parent range fromSymbolLink (.unresolved link),
            [v.unresolvedTopic failure range
              (kb.answer (.uncuratedMatch failure.link.path) later).1],
            [.resolve link parent fromSymbolLink,
              .resolve link inherited.parent fromSymbolLink]⟩ := by
  simp only [Settlement.account, settle, run_map, resolveTopic, bind_eq, run_bind, Dialogue.query,
    run, hkb.resolve link parent fromSymbolLink s later]
  cases (kb.answer (.resolve link parent fromSymbolLink) later).1 with
  | ok target => rfl
  | error failure =>
    have hreport : ∀ t, (((v.reportUnresolved failure range).bind fun _ =>
        .done (Topic.unresolved link)).run kb t) =
        ⟨.unresolved link, [.uncuratedMatch failure.link.path], [v.unresolvedTopic failure range
          (kb.answer (.uncuratedMatch failure.link.path) later).1],
          (kb.answer (.uncuratedMatch failure.link.path) t).2⟩ := by
      intro t
      rw [← hkb.uncuratedMatch failure.link.path t later]
      rfl
    cases hchance : v.secondChance? link with
    | none =>
      simp only [retry, hchance, pure_eq, done_bind, hreport]
      rfl
    | some inherited =>
      simp only [retry, hchance, pure_eq, bind_eq, run_bind, Dialogue.query, run,
        hkb.resolve link inherited.parent fromSymbolLink _ later]
      cases (kb.answer (.resolve link inherited.parent fromSymbolLink) later).1 with
      | ok target => rfl
      | error again =>
        simp only [run, hreport]
        rfl

/-- A link or a medium is settled alike with a second chance and without, or as the second chance
says. -/
theorem isFallback_settle (hkb : kb.HasSteadyLookups) {occurrence : Occurrence}
    (hplain : occurrence.isPlain = true) (s t : σ) :
    Contrast.IsFallback kb v ⟨occurrence,
      Settlement.account ⟨occurrence, s, ((v.withFallback false).settle occurrence).run kb s⟩,
      Settlement.account ⟨occurrence, t, ((v.withFallback true).settle occurrence).run kb t⟩⟩ := by
  cases occurrence with
  | chapter name references => cases hplain
  | media file =>
    have haccount : ∀ fallback u, Settlement.account ⟨.media file, u,
        ((v.withFallback fallback).settle (.media file)).run kb u⟩ =
        ⟨.media file, if file.resource.isWeb || (kb.answer (.resourceExists file.resource) s).1
          then [] else [v.unresolvedResource file], []⟩ := by
      intro fallback u
      simp only [Settlement.account, settle, run_map, run_checkMedia, run_checkMedia_calls,
        hkb.resourceExists file.resource u s]
      rfl
    rw [haccount, haccount]
    exact .same _ _
  | topic parent range fromSymbolLink topic =>
    cases topic with
    | resolved identity => exact .same _ _
    | unresolved link =>
      have hoff : (v.withFallback false).secondChance? link = none := rfl
      rw [account_settle_link _ kb hkb _ _ _ _ s s, account_settle_link _ kb hkb _ _ _ _ t s, hoff]
      cases hanswer : (kb.answer (.resolve link parent fromSymbolLink) s).1 with
      | ok target => exact .same _ _
      | error failure =>
        cases hon : (v.withFallback true).secondChance? link with
        | none => exact .same _ _
        | some inherited =>
          have hinherited : v.inheritance = some inherited :=
            (v.withFallback true).inheritance_of_secondChance? hon
          cases hagain : (kb.answer (.resolve link inherited.parent fromSymbolLink) s).1 with
          | ok target =>
            simp only [hagain]
            exact .rescued _ hinherited (fun u => (hkb.resolve _ _ _ u s).trans hanswer)
              fun u => (hkb.resolve _ _ _ u s).trans hagain
          | error again =>
            simp only [hagain]
            exact .failed _ hinherited fun u => ⟨again, (hkb.resolve _ _ _ u s).trans hagain⟩

/-- Two walks over links and media go side by side, from whichever states. The induction is on the
occurrences; the states differ after a link was asked about once more. -/
theorem exists_contrasts_of_plain (hkb : kb.HasSteadyLookups) {occurrences : List Occurrence}
    (hplain : occurrences.all Occurrence.isPlain = true) (s t : σ) :
    ∃ rows : List Contrast, rows.map (·.before) = occurrences ∧
      rows.map (·.off) =
        ((v.withFallback false).settlements kb occurrences s).map (·.account) ∧
      rows.map (·.on) =
        ((v.withFallback true).settlements kb occurrences t).map (·.account) ∧
      ∀ row ∈ rows, row.IsFallback kb v := by
  induction occurrences generalizing s t with
  | nil => exact ⟨[], rfl, rfl, rfl, fun row hrow => absurd hrow List.not_mem_nil⟩
  | cons occurrence rest ih =>
    rw [List.all_cons, Bool.and_eq_true] at hplain
    obtain ⟨rows, hbefore, hoff, hon, hrows⟩ := ih hplain.2
      (((v.withFallback false).settle occurrence).run kb s).state
      (((v.withFallback true).settle occurrence).run kb t).state
    have hfirst := v.isFallback_settle kb hkb hplain.1 s t
    refine ⟨⟨occurrence, _, _⟩ :: rows, ?_, ?_, ?_, List.forall_mem_cons.mpr ⟨hfirst, hrows⟩⟩
    · rw [List.map_cons, hbefore]
    · rw [List.map_cons, hoff]
      rfl
    · rw [List.map_cons, hon]
      rfl

/-- Where nothing is inherited, two walks from one state are the same. -/
theorem settlements_withFallback (hv : v.inheritance = none) (a b : Bool)
    (occurrences : List Occurrence) (s : σ) :
    (v.withFallback a).settlements kb occurrences s =
      (v.withFallback b).settlements kb occurrences s := by
  induction occurrences generalizing s with
  | nil => rfl
  | cons occurrence rest ih =>
    simp only [settlements, v.settle_withFallback hv a b, ih]

end Viewpoint

/-- Queries about links, with more of them in between. What is asked in between is seen from the
declaration that the documentation was inherited from. -/
inductive Query.Interposed (inheritance : Option Inheritance) : List Query → List Query → Prop where
  /-- There are no queries. -/
  | nil : Interposed inheritance [] []
  /-- A query is asked on both sides. -/
  | both (q : Query) {calls more : List Query} (h : Interposed inheritance calls more) :
    Interposed inheritance (q :: calls) (q :: more)
  /-- A link is asked about on one side. -/
  | extra (link : AuthoredLink) (fromSymbolLink : Bool) {inherited : Inheritance}
    {calls more : List Query} (hinherited : inheritance = some inherited)
    (h : Interposed inheritance calls more) :
    Interposed inheritance calls (.resolve link inherited.parent fromSymbolLink :: more)

/-- The problem of an occurrence with a second chance is that without it, or it says that a link was
inherited and not that it does not resolve. -/
def Problem.Contrasts (off on : Problem) : Prop :=
  off = on ∨
    off.diagnostic.identifier = unresolvedTopicId ∧ on.diagnostic.identifier = inheritedLinkId

namespace Query.Interposed

variable {inheritance : Option Inheritance}

theorem refl (calls : List Query) : Interposed inheritance calls calls := by
  induction calls with
  | nil => exact .nil
  | cons q rest ih => exact .both q ih

theorem append {calls more calls' more' : List Query} (h : Interposed inheritance calls more)
    (h' : Interposed inheritance calls' more') :
    Interposed inheritance (calls ++ calls') (more ++ more') := by
  induction h with
  | nil => exact h'
  | both q _ ih => exact .both q ih
  | extra link fromSymbolLink hinherited _ ih => exact .extra link fromSymbolLink hinherited ih

end Query.Interposed

namespace Contrast

variable {kb : KnowledgeBase σ} {v : Viewpoint} {row : Contrast}

theorem IsFallback.problems (h : row.IsFallback kb v) :
    List.Forall₂ Problem.Contrasts row.off.problems row.on.problems := by
  cases h with
  | same before account => exact List.forall₂_same.mpr fun p _ => Or.inl rfl
  | failed problem hinherited hagain => exact .cons (Or.inl rfl) .nil
  | rescued uncurated hinherited hfailed hfound => exact .cons (Or.inr ⟨rfl, rfl⟩) .nil

theorem IsFallback.calls (h : row.IsFallback kb v) :
    Query.Interposed v.inheritance row.off.calls row.on.calls := by
  cases h with
  | same before account => exact .refl _
  | failed problem hinherited hagain => exact .both _ (.extra _ _ hinherited .nil)
  | rescued uncurated hinherited hfailed hfound => exact .both _ (.extra _ _ hinherited .nil)

/-- What holds of the parts of all rows holds of the lists of them, if it is kept by appending. -/
theorem flatMap_of_append {α : Type} {R : List α → List α → Prop} (hnil : R [] [])
    (happend : ∀ {a b c d}, R a b → R c d → R (a ++ c) (b ++ d)) {off on : Contrast → List α}
    {rows : List Contrast} (h : ∀ row ∈ rows, R (off row) (on row)) :
    R (rows.flatMap off) (rows.flatMap on) := by
  induction rows with
  | nil => exact hnil
  | cons row rest ih =>
    obtain ⟨hrow, hrest⟩ := List.forall_mem_cons.mp h
    exact happend hrow (ih hrest)

end Contrast

namespace Page

variable (settings : Settings) (kb : KnowledgeBase σ) (page : Page) (state : σ)

/-- A walk that does not stop is known from the accounts of its settlements, wherever they are
kept. -/
theorem run_resolve_of_accounts
    (h : ((page.resolve settings).run kb state).result.stopped = none) {rows : List Contrast}
    {side : Contrast → Account} (hside : rows.map side =
      ((page.viewpoint settings).settlements kb page.occurrences state).map (·.account)) :
    let t := (page.resolve settings).run kb state
    t.result.value.occurrences = rows.map (fun row => (side row).after) ∧
      t.problems = rows.flatMap (fun row => (side row).problems) ∧
      t.calls.filter Query.isResolve = rows.flatMap (fun row => (side row).calls) := by
  intro t
  obtain ⟨hcalls, hproblems, hvalue⟩ := page.run_resolve settings kb state h
  refine ⟨?_, ?_, ?_⟩
  · have hafter := congrArg (List.map Account.after) hside
    rw [List.map_map, List.map_map] at hafter
    exact hvalue.trans hafter.symm
  · have htold := congrArg (List.flatMap Account.problems) hside
    rw [List.flatMap_map, List.flatMap_map] at htold
    exact hproblems.trans htold.symm
  · have hasked := congrArg (List.flatMap Account.calls) hside
    rw [List.flatMap_map, List.flatMap_map] at hasked
    rw [← Query.filter_isResolve, hcalls, List.filter_flatMap, hasked]
    simp only [Query.filter_isResolve]
    rfl

/-- The occurrences of a page are settled side by side with a second chance and without. Chapters
are never inherited, so there both walks are in the same states. -/
theorem exists_contrasts {kb : KnowledgeBase σ} (hkb : kb.HasSteadyLookups) :
    let v := page.viewpoint settings
    ∃ rows : List Contrast, rows.map (·.before) = page.occurrences ∧
      rows.map (·.off) =
        ((v.withFallback false).settlements kb page.occurrences state).map (·.account) ∧
      rows.map (·.on) =
        ((v.withFallback true).settlements kb page.occurrences state).map (·.account) ∧
      ∀ row ∈ rows, row.IsFallback kb v := by
  intro v
  by_cases hcontents : ∃ contents, page.content = .contents contents
  · obtain ⟨contents, hcontents⟩ := hcontents
    have hv : v.inheritance = none := by
      simp only [v, viewpoint, hcontents, PageContent.inheritance]
    let parts := (v.withFallback false).settlements kb page.occurrences state
    have hon : (v.withFallback true).settlements kb page.occurrences state = parts :=
      v.settlements_withFallback kb hv true false page.occurrences state
    refine ⟨parts.map fun part => ⟨part.occurrence, part.account, part.account⟩, ?_, ?_, ?_, ?_⟩
    · rw [List.map_map]
      exact (v.withFallback false).map_occurrence_settlements kb page.occurrences state
    · rw [List.map_map]
      rfl
    · rw [List.map_map, hon]
      rfl
    · intro row hrow
      obtain ⟨part, -, rfl⟩ := List.mem_map.mp hrow
      exact .same _ _
  · have hplain := PageContent.all_isPlain page.reference (not_exists.mp hcontents)
    exact v.exists_contrasts_of_plain kb hkb hplain state state

end Page

namespace Walker

/-- The second chance of inherited links changes a walk only where a link fails on the page. The
occurrences are settled side by side: each of them comes to the same, or a link is asked about once
more, from the declaration that the documentation was inherited from, and stays as it was or is
resolved. So there are as many problems with a second chance as without, problem by problem the
same or of a link that was rescued; all queries about links without it are asked with it, in order;
and the pages differ at the links that were rescued and nowhere else. -/
theorem resolvePage_fallback (settings : Settings) {kb : KnowledgeBase σ}
    (hkb : kb.HasSteadyLookups) (page : Page) (state : σ)
    (h : ((resolvePage (settings.withFallback false) page).run kb state).result.stopped = none) :
    let off := (resolvePage (settings.withFallback false) page).run kb state
    let on := (resolvePage (settings.withFallback true) page).run kb state
    on.result.stopped = none ∧
      off.problems.length = on.problems.length ∧
      List.Forall₂ Problem.Contrasts off.problems on.problems ∧
      Query.Interposed page.content.inheritance (off.calls.filter Query.isResolve)
        (on.calls.filter Query.isResolve) ∧
      page.Refines off.result.value ∧ page.Refines on.result.value ∧
      ∃ rows : List Contrast, rows.map (·.before) = page.occurrences ∧
        (∀ row ∈ rows, row.IsFallback kb (page.viewpoint settings)) ∧
        off.result.value.occurrences = rows.map (·.off.after) ∧
        on.result.value.occurrences = rows.map (·.on.after) ∧
        (off.result.value = on.result.value ↔ ∀ row ∈ rows, row.off.after = row.on.after) ∧
        off.problems = rows.flatMap (·.off.problems) ∧
        on.problems = rows.flatMap (·.on.problems) ∧
        off.calls.filter Query.isResolve = rows.flatMap (·.off.calls) ∧
        on.calls.filter Query.isResolve = rows.flatMap (·.on.calls) := by
  intro off on
  let entered := (kb.answer (.root .documentation) state).2
  have hdeclared : page.content.IsDeclared :=
    (page.returns_resolve (settings.withFallback false)).run kb entered h
  have hunstopped : on.result.stopped = none :=
    (page.returns_unstopped (settings.withFallback true) hdeclared).run kb entered
  obtain ⟨rows, hbefore, hoff, hon, hrows⟩ := page.exists_contrasts settings entered hkb
  obtain ⟨hoffs, hoffproblems, hoffcalls⟩ :=
    page.run_resolve_of_accounts (settings.withFallback false) kb entered h hoff
  obtain ⟨hons, honproblems, honcalls⟩ :=
    page.run_resolve_of_accounts (settings.withFallback true) kb entered hunstopped hon
  have hproblems : List.Forall₂ Problem.Contrasts off.problems on.problems := by
    rw [show off.problems = _ from hoffproblems, show on.problems = _ from honproblems]
    exact Contrast.flatMap_of_append (R := List.Forall₂ Problem.Contrasts) .nil
      (fun hfirst hrest => List.rel_append hfirst hrest) fun row hrow => (hrows row hrow).problems
  have hcalls : Query.Interposed page.content.inheritance (off.calls.filter Query.isResolve)
      (on.calls.filter Query.isResolve) := by
    rw [show off.calls.filter Query.isResolve = _ from hoffcalls,
      show on.calls.filter Query.isResolve = _ from honcalls]
    exact Contrast.flatMap_of_append (R := Query.Interposed page.content.inheritance) .nil
      .append fun row hrow => (hrows row hrow).calls
  have hrefines : page.Refines off.result.value :=
    (page.refines_resolve (settings.withFallback false)).run kb entered
  have hrefines' : page.Refines on.result.value :=
    (page.refines_resolve (settings.withFallback true)).run kb entered
  have hsame : off.result.value = on.result.value ↔
      ∀ row ∈ rows, row.off.after = row.on.after := by
    refine Iff.trans ⟨congrArg Page.occurrences, hrefines.eq_of_occurrences hrefines'⟩ ?_
    rw [show off.result.value.occurrences = _ from hoffs,
      show on.result.value.occurrences = _ from hons]
    exact List.map_inj_left
  exact ⟨hunstopped, hproblems.length_eq, hproblems, hcalls, hrefines, hrefines', rows, hbefore,
    hrows, hoffs, hons, hsame, hoffproblems, honproblems, hoffcalls, honcalls⟩

/-- On a page that inherits its documentation the second chance rescues one link, and asks about
another one in vain. -/
theorem resolvePage_fallback_of_inheriting :
    let catalog : Catalog := { pages := ["/documentation/Kit", "/documentation/Base/Sibling"] }
    let off := (resolvePage (Settings.withFallback {} false) inheritingPage).run catalog.fixed []
    let on := (resolvePage (Settings.withFallback {} true) inheritingPage).run catalog.fixed []
    catalog.fixed.HasSteadyLookups ∧ off.result.stopped = none ∧ on.result.stopped = none ∧
      off.problems.map (·.diagnostic.identifier) =
        [unresolvedTopicId, unresolvedResourceId, unresolvedTopicId] ∧
      on.problems.length = 3 ∧ (off.calls.filter Query.isResolve).length = 3 ∧
      (on.calls.filter Query.isResolve).length = 5 := by
  intro catalog off on
  have hkb : catalog.fixed.HasSteadyLookups := catalog.isSteady_fixed.toHasSteadyLookups
  have hoff : off.result.stopped = none := by decide +kernel
  have hidentifiers : off.problems.map (·.diagnostic.identifier) =
      [unresolvedTopicId, unresolvedResourceId, unresolvedTopicId] := by decide +kernel
  obtain ⟨hon, hlength, -⟩ := resolvePage_fallback {} hkb inheritingPage [] hoff
  refine ⟨hkb, hoff, hon, hidentifiers, ?_, by decide +kernel, by decide +kernel⟩
  have hcount := congrArg List.length hidentifiers
  rw [List.length_map] at hcount
  exact hlength.symm.trans hcount

end Walker

end TopicLinks
