import TopicLinks.Proofs.Walk.Lookups
import TopicLinks.Proofs.Walk.Settlements

/-!
# Walks one after the other

A walker takes nothing from one step to the next but its root, its file and its problems. The
scope that a symbol page sets is gone when the page is done, so the next step is in no scope: it
does what it would do on its own, from the root and in the file that were set last.
-/

namespace TopicLinks

variable {σ α : Type}

/-- Every query is always answered in one way, whatever happened before. -/
def KnowledgeBase.IsConstant (kb : KnowledgeBase σ) : Prop :=
  ∀ (q : Query) (s t : σ), (kb.answer q s).1 = (kb.answer q t).1

/-- Two transcripts agree when they differ at most in the state that is left behind. -/
structure Transcript.Agrees (t u : Transcript σ α) : Prop where
  /-- They come to one result, -/
  result : t.result = u.result
  /-- by the same queries, -/
  calls : t.calls = u.calls
  /-- with the same problems. -/
  problems : t.problems = u.problems

/-- Against a constant knowledge base all runs of a dialogue agree. -/
theorem Dialogue.agrees_run {kb : KnowledgeBase σ} (hkb : kb.IsConstant) (d : Dialogue α)
    (s t : σ) : (d.run kb s).Agrees (d.run kb t) := by
  induction d generalizing s t with
  | done a => exact ⟨rfl, rfl, rfl⟩
  | ask q next ih =>
    simp only [run]
    rw [hkb q s t]
    have hrest := ih (kb.answer q t).1 (kb.answer q s).2 (kb.answer q t).2
    exact ⟨hrest.result, congrArg (q :: ·) hrest.calls, hrest.problems⟩
  | report p next ih =>
    have hrest := ih s t
    exact ⟨hrest.result, hrest.calls, congrArg (p :: ·) hrest.problems⟩

/-- A query that asks about a link, if it does so at all, sees it from a parent. -/
def Query.IsFrom (parent : Identity) : Query → Prop
  | .resolve _ seen _ => seen = parent
  | _ => True

/-- A reference of markup that is seen from a parent. Media are seen from everywhere. -/
def Occurrence.isSeenFrom (parent : Identity) : Occurrence → Bool
  | .topic seen _ _ _ => decide (seen = parent)
  | .media _ => true
  | .chapter _ _ => false

theorem Occurrence.allPass_isSeenFrom (parent : Identity) :
    AllPass parent (isSeenFrom parent) :=
  ⟨fun _ _ _ => decide_eq_true rfl, fun _ => rfl⟩

namespace Viewpoint

open Dialogue

variable {v : Viewpoint} {parent : Identity}

/-- In no scope a reference is settled by look-ups from its own parent only. -/
theorem asks_settle_isFrom (hv : v.inheritance = none) {occurrence : Occurrence}
    (h : occurrence.isSeenFrom parent = true) :
    (v.settle occurrence).Asks (Query.IsFrom parent) := by
  have hfrom : ∀ q : Query, q.IsLookup (v.SeesFrom parent) → q.IsFrom parent := by
    intro q hq
    cases q with
    | resolve link seen fromSymbolLink =>
      rcases hq with hseen | ⟨inherited, hinherited, -⟩
      · exact hseen
      · exact absurd (hinherited.symm.trans hv) (Option.some_ne_none inherited)
    | _ => trivial
  cases occurrence with
  | topic seen range fromSymbolLink topic =>
    obtain rfl : seen = parent := of_decide_eq_true h
    exact ((v.asks_resolveTopic seen range fromSymbolLink topic).mono hfrom).map _
  | media file => exact ((v.asks_checkMedia _ file).mono hfrom).map _
  | chapter name references => cases h

/-- In no scope all links of markup are asked about from the parent of the markup, and never
again from another place. -/
theorem asks_resolveMarkup (hv : v.inheritance = none) (markup : Markup) :
    (v.resolveMarkup parent markup).Asks (Query.IsFrom parent) := by
  have hseen := List.all_eq_true.mp
    (Block.all_occurrencesOf (Occurrence.allPass_isSeenFrom parent) markup)
  have hsettled : (each v.settle (markup.occurrences parent)).Asks (Query.IsFrom parent) :=
    asks_each fun occurrence hoccurrence => asks_settle_isFrom hv (hseen occurrence hoccurrence)
  rw [← (v.settles_markup parent markup).map_eq] at hsettled
  exact asks_of_map hsettled

end Viewpoint

namespace Walker

/-- Why a step could not be finished. -/
def StepResult.stopped : StepResult → Option UndeclaredLanguage
  | .page progress => progress.stopped
  | _ => none

/-- The root of a walker after a step. -/
def Step.rootAfter (before : Identity) : Step → Identity
  | .withRoot set => set
  | .page entered => entered.reference
  | _ => before

/-- The file of a walker after a step. -/
def Step.sourceAfter (before : Option String) : Step → Option String
  | .withSource set => set
  | .page entered => entered.source
  | _ => before

/-- What a step does on its own, from a root and in a file. No step is in the scope of an
inherited declaration when it begins, and a page has a root and a file of its own. -/
def Step.alone (settings : Settings) (root : Identity) (source : Option String) :
    Step → Dialogue StepResult
  | .withRoot _ => .done .nothing
  | .withSource _ => .done .nothing
  | .markup content =>
    (Viewpoint.resolveMarkup { settings, source, inheritance := none } root content).map .markup
  | .page entered => (entered.resolve settings).map .page

/-- A step in no scope does what it does on its own, and sets the root and the file. If it is
finished, then the walker is in no scope again. -/
theorem step_eq (kb : KnowledgeBase σ) (w : Walker) (state : σ) (s : Step) :
    let visit := w.step kb none state s
    visit.transcript = (s.alone w.settings w.root w.source).run kb state ∧
      visit.walker = {
        settings := w.settings
        root := s.rootAfter w.root
        source := s.sourceAfter w.source
        problems := w.problems ++ visit.transcript.problems } ∧
      (visit.transcript.result.stopped = none → visit.scope = none) := by
  cases s with
  | withRoot set =>
    refine ⟨rfl, ?_, fun _ => rfl⟩
    simp only [step, withRoot, List.append_nil]
    rfl
  | withSource set =>
    refine ⟨rfl, ?_, fun _ => rfl⟩
    simp only [step, withSource, List.append_nil]
    rfl
  | markup content => exact ⟨(Dialogue.run_map kb _ _ state).symm, rfl, fun _ => rfl⟩
  | page entered =>
    refine ⟨(Dialogue.run_map kb _ _ state).symm, rfl, fun hstopped => ?_⟩
    change scopeAfter none entered.content _ = none
    unfold scopeAfter
    split
    · rename_i hsome
      exact absurd (hsome.symm.trans hstopped) (Option.some_ne_none _)
    · rfl

/-- The root of a walker after some steps: the one that was set last, or the one before. -/
def rootAfter (root : Identity) (steps : List Step) : Identity := steps.foldl Step.rootAfter root

/-- The file of a walker after some steps: the one that was set last, or the one before. -/
def sourceAfter (source : Option String) (steps : List Step) : Option String :=
  steps.foldl Step.sourceAfter source

/-- The problems that a walker has after some visits, beginning with those that it had. -/
def problemsAfter (w : Walker) (visits : List (Visit σ StepResult)) : List Problem :=
  (visits.getLast?.elim w (·.walker)).problems

/-- Every step from no scope does what it does on its own, from the root and in the file that were
set last, if the steps before it were finished. The induction is on the steps; that the walker is
in no scope is kept from step to step. -/
theorem stepsIn_eq (kb : KnowledgeBase σ) (w : Walker) (state : σ) {script : List Step}
    (h : ∀ visit ∈ w.stepsIn kb none state script, visit.transcript.result.stopped = none)
    {before after : List Step} {s : Step} (hscript : script = before ++ s :: after) :
    ∃ visit entered, (w.stepsIn kb none state script)[before.length]? = some visit ∧
      visit.transcript = (s.alone w.settings (rootAfter w.root before)
        (sourceAfter w.source before)).run kb entered ∧
      visit.walker.problems = w.problems ++ ((w.stepsIn kb none state script).take
        (before.length + 1)).flatMap (·.transcript.problems) := by
  subst hscript
  induction before generalizing w state with
  | nil =>
    obtain ⟨htranscript, hwalker, -⟩ := step_eq kb w state s
    refine ⟨w.step kb none state s, state, rfl, htranscript, ?_⟩
    rw [hwalker]
    simp [stepsIn]
  | cons first rest ih =>
    rw [List.cons_append, stepsIn] at h ⊢
    obtain ⟨hfirst, hrest⟩ := List.forall_mem_cons.mp h
    obtain ⟨-, hwalker, hscope⟩ := step_eq kb w state first
    rw [hscope hfirst] at hrest ⊢
    obtain ⟨visit, entered, hvisit, htranscript, hproblems⟩ := ih _ _ hrest
    refine ⟨visit, entered, hvisit, ?_, ?_⟩
    · rw [htranscript, hwalker]
      rfl
    · rw [hproblems, hwalker, List.length_cons, List.take_succ_cons, List.flatMap_cons,
        List.append_assoc]

theorem length_stepsIn (kb : KnowledgeBase σ) (w : Walker) (scope : Option Inheritance) (state : σ)
    (script : List Step) : (w.stepsIn kb scope state script).length = script.length := by
  induction script generalizing w scope state with
  | nil => rfl
  | cons s rest ih => rw [stepsIn, List.length_cons, List.length_cons, ih]

/-- The problems of a walker are added up visit by visit, in whatever scope it is. -/
theorem problemsAfter_stepsIn (kb : KnowledgeBase σ) (w : Walker) (scope : Option Inheritance)
    (state : σ) (script : List Step) :
    w.problemsAfter (w.stepsIn kb scope state script) =
      w.problems ++ (w.stepsIn kb scope state script).flatMap (·.transcript.problems) := by
  induction script generalizing w scope state with
  | nil => exact (List.append_nil _).symm
  | cons s rest ih =>
    have hfirst : (w.step kb scope state s).walker.problems =
        w.problems ++ (w.step kb scope state s).transcript.problems := by
      cases s with
      | withRoot set => exact (List.append_nil _).symm
      | withSource set => exact (List.append_nil _).symm
      | markup content => rfl
      | page entered => rfl
    have hlast : w.problemsAfter (w.stepsIn kb scope state (s :: rest)) =
        (w.step kb scope state s).walker.problemsAfter ((w.step kb scope state s).walker.stepsIn kb
          (w.step kb scope state s).scope (w.step kb scope state s).transcript.state rest) := by
      rw [stepsIn, problemsAfter, problemsAfter, List.getLast?_cons]
      cases (stepsIn kb _ _ _ rest).getLast? with
      | none => rfl
      | some visit => rfl
    rw [hlast, ih, hfirst, stepsIn, List.flatMap_cons, List.append_assoc]

/-- A step did what it does on its own, in whatever state the knowledge base is. A page is
resolved as by a walker of its own, which asks for the root of the documentation before. Markup is
resolved from the root and in the file that were set, in no scope, and no link of it is asked about
from another place than the root. -/
def Step.DidAlone (kb : KnowledgeBase σ) (settings : Settings) (root : Identity)
    (source : Option String) (t : Transcript σ StepResult) : Step → Prop
  | .withRoot _ | .withSource _ => t.result = .nothing ∧ t.calls = [] ∧ t.problems = []
  | .markup content =>
    (∀ fresh,
      let v : Viewpoint := { settings, source, inheritance := none }
      let alone := (v.resolveMarkup root content).run kb fresh
      t.result = .markup alone.result ∧ t.calls = alone.calls ∧ t.problems = alone.problems) ∧
    ∀ q ∈ t.calls, q.IsFrom root
  | .page entered =>
    ∀ fresh,
      let alone := (resolvePage settings entered).run kb fresh
      t.result = .page alone.result ∧ .root .documentation :: t.calls = alone.calls ∧
        t.problems = alone.problems

theorem Step.didAlone {kb : KnowledgeBase σ} (hkb : kb.IsConstant) (settings : Settings)
    (root : Identity) (source : Option String) (s : Step) (state : σ) :
    s.DidAlone kb settings root source ((s.alone settings root source).run kb state) := by
  cases s with
  | withRoot set => exact ⟨rfl, rfl, rfl⟩
  | withSource set => exact ⟨rfl, rfl, rfl⟩
  | markup content =>
    rw [Step.alone, Dialogue.run_map]
    constructor
    · intro fresh v alone
      have hagrees := Dialogue.agrees_run hkb (v.resolveMarkup root content) state fresh
      exact ⟨congrArg StepResult.markup hagrees.result, hagrees.calls, hagrees.problems⟩
    · exact (Viewpoint.asks_resolveMarkup rfl content).run kb state
  | page entered =>
    intro fresh alone
    have hagrees := Dialogue.agrees_run hkb (entered.resolve settings) state
      (kb.answer (.root .documentation) fresh).2
    rw [Step.alone, Dialogue.run_map]
    exact ⟨congrArg StepResult.page hagrees.result,
      congrArg (Query.root .documentation :: ·) hagrees.calls, hagrees.problems⟩

/-- A new walker carries nothing from one step to the next but its root, its file and its problems:
against a constant knowledge base, every step of a walk in which all steps are finished does what
it does on its own. Markup is resolved from the root and in the file that were set last, at first
from the root of the documentation and in no file. The problems are those of the steps, one after
the other, and are never changed later. -/
theorem steps_independent {kb : KnowledgeBase σ} (hkb : kb.IsConstant) (settings : Settings)
    (state : σ) (script : List Step)
    (h : let begun := (start settings).run kb state
      ∀ visit ∈ begun.result.steps kb begun.state script,
        visit.transcript.result.stopped = none) :
    let begun := (start settings).run kb state
    let visits := begun.result.steps kb begun.state script
    let documentation := (kb.answer (.root .documentation) state).1
    visits.length = script.length ∧
      begun.result.problemsAfter visits = visits.flatMap (·.transcript.problems) ∧
      ∀ before s after, script = before ++ s :: after →
        ∃ visit, visits[before.length]? = some visit ∧
          s.DidAlone kb settings (rootAfter documentation before) (sourceAfter none before)
            visit.transcript ∧
          visit.walker.problems =
            (visits.take (before.length + 1)).flatMap (·.transcript.problems) := by
  intro begun visits documentation
  refine ⟨length_stepsIn kb _ _ _ script, problemsAfter_stepsIn kb _ _ _ script, ?_⟩
  intro before s after hscript
  obtain ⟨visit, entered, hvisit, htranscript, hproblems⟩ :=
    stepsIn_eq kb begun.result begun.state h hscript
  refine ⟨visit, hvisit, ?_, hproblems⟩
  rw [htranscript]
  exact Step.didAlone hkb settings _ _ s entered

/-- A catalog that stays as it is, and counts the queries. -/
def counted (catalog : Catalog) : KnowledgeBase Nat where
  answer q count := ((catalog.answer q).1, count + 1)

/-- A paragraph with a link to a sibling. -/
def siblingLink : Markup := [.paragraph [.link (.parse "doc:Sibling") none []]]

/-- A page that inherits its documentation, with markup before it and after it. -/
def aroundInheriting : List Step :=
  [.withRoot (.ofText "org.example.Kit" "/documentation/Base/View" none (.single "swift")),
    .markup siblingLink, .page inheritingPage, .markup siblingLink]

/-- A link resolves before a page that inherits its documentation from where it would resolve,
because the root was set to it, but not after the page. -/
theorem steps_independent_of_inheriting :
    let kb := counted { pages := ["/documentation/Kit", "/documentation/Base/Sibling"] }
    let begun := (start {}).run kb 0
    let visits := begun.result.steps kb begun.state aroundInheriting
    (∀ visit ∈ visits, visit.transcript.result.stopped = none) ∧
      (begun.result.problemsAfter visits).map (·.diagnostic.identifier) =
        [Problem.inheritedLinkId, Problem.unresolvedResourceId, Problem.unresolvedTopicId,
          Problem.unresolvedTopicId] ∧
      ∃ visit, visits[3]? = some visit ∧
        ∀ q ∈ visit.transcript.calls, q.IsFrom inheritingPage.reference := by
  intro kb begun visits
  have hkb : kb.IsConstant := fun _ _ _ => rfl
  have hstopped : ∀ visit ∈ visits, visit.transcript.result.stopped = none := by decide +kernel
  obtain ⟨-, hproblems, hsteps⟩ := steps_independent hkb {} 0 aroundInheriting hstopped
  refine ⟨hstopped, ?_, ?_⟩
  · rw [hproblems]
    decide +kernel
  · obtain ⟨visit, hvisit, hdid, -⟩ := hsteps (aroundInheriting.take 3) (.markup siblingLink) [] rfl
    exact ⟨visit, hvisit, hdid.2⟩

end Walker

end TopicLinks
