import TopicLinks.Catalog
import TopicLinks.Walker
import TopicLinks.Proofs.Walk.Pages

/-!
# A walk as a list of settlements

Run against a knowledge base, the walk of a page is the list of its settlements: every
occurrence settled on its own, in the order of the page, each in the state that the one before
left behind. Queries, problems and rewritten references are those of the settlements.
-/

namespace TopicLinks

/-- A query by which a reference is looked up: which topic a link means, or whether a resource
exists. -/
def Query.isLookup : Query → Bool
  | .resolve _ _ _ => true
  | .resourceExists _ => true
  | _ => false

/-- The settling of one occurrence in the course of a walk. -/
structure Settlement (σ : Type) where
  /-- The occurrence as it was before the walk. -/
  occurrence : Occurrence
  /-- The state of the knowledge base when the walk comes to the occurrence. -/
  state : σ
  /-- What settling the occurrence came to. -/
  transcript : Transcript σ Occurrence

variable {σ : Type}

/-- Settle occurrences one after the other, and hand on the state of the knowledge base. -/
def Viewpoint.settlements (v : Viewpoint) (kb : KnowledgeBase σ) :
    List Occurrence → σ → List (Settlement σ)
  | [], _ => []
  | occurrence :: rest, state =>
    let transcript := (v.settle occurrence).run kb state
    ⟨occurrence, state, transcript⟩ :: v.settlements kb rest transcript.state

namespace Viewpoint

open Dialogue

variable (v : Viewpoint) (kb : KnowledgeBase σ)

theorem map_occurrence_settlements (occurrences : List Occurrence) (state : σ) :
    (v.settlements kb occurrences state).map (·.occurrence) = occurrences := by
  induction occurrences generalizing state with
  | nil => rfl
  | cons occurrence rest ih => rw [settlements, List.map_cons, ih]

/-- A walk over occurrences asks, reports and makes what its settlements do. -/
theorem run_each_settle (occurrences : List Occurrence) (state : σ) :
    let t := (each v.settle occurrences).run kb state
    let parts := v.settlements kb occurrences state
    t.calls = parts.flatMap (·.transcript.calls) ∧
      t.problems = parts.flatMap (·.transcript.problems) ∧
      t.result = parts.map (·.transcript.result) := by
  induction occurrences generalizing state with
  | nil => exact ⟨rfl, rfl, rfl⟩
  | cons occurrence rest ih =>
    obtain ⟨hcalls, hproblems, hresult⟩ := ih ((v.settle occurrence).run kb state).state
    simp only [each_cons, run_bind, run_map, settlements, List.flatMap_cons, List.map_cons]
    rw [hcalls, hproblems, hresult]
    exact ⟨rfl, rfl, rfl⟩

/-- An offer reports no problem and looks no reference up. -/
theorem run_offerArchive (archive : Option Media) (state : σ) :
    ((offerArchive archive).run kb state).problems = [] ∧
      ((offerArchive archive).run kb state).calls.filter Query.isLookup = [] := by
  cases archive with
  | none => exact ⟨rfl, rfl⟩
  | some archive =>
    simp only [offerArchive, offerDownload, bind_eq, run_bind, Dialogue.query, run]
    split
    · exact ⟨rfl, rfl⟩
    · exact ⟨rfl, rfl⟩

end Viewpoint

theorem PageContent.run_offer (kb : KnowledgeBase σ) (content : PageContent) (state : σ) :
    (content.offer.run kb state).problems = [] ∧
      (content.offer.run kb state).calls.filter Query.isLookup = [] := by
  cases content with
  | tutorial t => exact Viewpoint.run_offerArchive kb t.projectFiles state
  | _ => exact ⟨rfl, rfl⟩

/-- The walk of a page that does not stop asks, reports and makes what its settlements do. What
it asks besides looks no reference up. -/
theorem Page.run_resolve (settings : Settings) (kb : KnowledgeBase σ) (page : Page) (state : σ)
    (h : ((page.resolve settings).run kb state).result.stopped = none) :
    let t := (page.resolve settings).run kb state
    let parts := (page.viewpoint settings).settlements kb page.occurrences state
    t.calls.filter Query.isLookup = parts.flatMap (·.transcript.calls.filter Query.isLookup) ∧
      t.problems = parts.flatMap (·.transcript.problems) ∧
      t.result.value.occurrences = parts.map (·.transcript.result) := by
  intro t parts
  have hdeclared : page.content.IsDeclared := (page.returns_resolve settings).run kb state h
  obtain ⟨hcalls, hproblems, hresult⟩ :=
    (page.viewpoint settings).run_each_settle kb page.occurrences state
  have hrun := congrArg (Dialogue.run kb · state) (page.map_resolve settings hdeclared)
  simp only [Dialogue.run_map, Dialogue.run_bind, hcalls, hproblems, hresult] at hrun
  obtain ⟨hnothing, hnone⟩ := page.content.run_offer kb
    ((Dialogue.each (page.viewpoint settings).settle page.occurrences).run kb state).state
  obtain ⟨hvalue, hasked, htold, -⟩ := Transcript.mk.inj hrun
  refine ⟨?_, ?_, hvalue⟩
  · rw [show t.calls = _ from hasked, List.filter_append, hnone, List.append_nil,
      List.filter_flatMap]
  · rw [show t.problems = _ from htold, hnothing, List.append_nil]

namespace Walker

/-- A visit of a page that does not break down is a flat walk over the page's occurrences:
lookups, problems and references after the visit are, in the order of the page, those of
resolving each topic, checking each medium and curating each chapter on its own. -/
theorem visitPage_settles_occurrences (kb : KnowledgeBase σ) (w : Walker) (page : Page) (state : σ)
    (h : (w.visitPage kb page state).transcript.result.stopped = none) :
    let visit := w.visitPage kb page state
    let parts := (page.viewpoint w.settings).settlements kb page.occurrences state
    parts.map (·.occurrence) = page.occurrences ∧
      visit.transcript.calls.filter Query.isLookup =
        parts.flatMap (·.transcript.calls.filter Query.isLookup) ∧
      visit.walker.problems = w.problems ++ parts.flatMap (·.transcript.problems) ∧
      visit.transcript.result.value.occurrences = parts.map (·.transcript.result) := by
  intro visit parts
  have hparts : parts.map (·.occurrence) = page.occurrences :=
    (page.viewpoint w.settings).map_occurrence_settlements kb page.occurrences state
  obtain ⟨hcalls, hproblems, hvalue⟩ := page.run_resolve w.settings kb state h
  exact ⟨hparts, hcalls, congrArg (w.problems ++ ·) hproblems, hvalue⟩

/-- A symbol page in two languages that inherits its documentation. -/
def inheritingPage : Page where
  reference := .ofText "org.example.Kit" "/documentation/Kit/View" none (.ofList ["occ", "swift"])
  source := some "View.swift"
  content := .symbol {
    languages := .ofList ["occ", "swift"]
    docComment := some {
      inheritedFrom :=
        some (.ofText "org.example.Kit" "/documentation/Base/View" none (.single "swift"))
      origin := some ⟨10, 4⟩
      source := some "Base.swift" }
    summary := ⟨[
      ("swift", some [.paragraph [
        .link (.parse "doc:Sibling") (some ⟨⟨1, 1⟩, ⟨1, 9⟩⟩)
          [.image "" ⟨⟨"org.example.Kit", "sibling.png"⟩, none⟩],
        .symbolLink (.parse "draw") (some ⟨⟨2, 1⟩, ⟨2, 5⟩⟩)]]),
      ("occ", some [.paragraph [.link (.parse "https://example.org") none []]])]⟩
    discussion := ⟨[]⟩
    parameters := ⟨[]⟩
    returns := ⟨[]⟩
    seeAlso := ⟨[("occ", [⟨none, [.links "list" [⟨.parse "doc:/documentation/Kit", none⟩]]⟩])]⟩
    topics := ⟨[]⟩ }

/-- On a page that inherits its documentation four references are settled, and three of them
are reported: one resolves only where it was inherited, and two are not found. -/
theorem visitPage_settles_occurrences_of_inheriting :
    let catalog : Catalog := { pages := ["/documentation/Kit", "/documentation/Base/Sibling"] }
    let w : Walker := ⟨{}, inheritingPage.reference, none, []⟩
    (w.visitPage Catalog.knowledge inheritingPage catalog).transcript.result.stopped = none ∧
      (w.visitPage Catalog.knowledge inheritingPage
        catalog).transcript.result.value.occurrences.length = 4 ∧
      (w.visitPage Catalog.knowledge inheritingPage catalog).walker.problems.map
          (·.diagnostic.identifier) =
        [Problem.inheritedLinkId, Problem.unresolvedResourceId, Problem.unresolvedTopicId] := by
  intro catalog w
  have hstopped : (w.visitPage Catalog.knowledge inheritingPage catalog).transcript.result.stopped =
    none := by decide +kernel
  obtain ⟨_, _, hproblems, hvalue⟩ :=
    visitPage_settles_occurrences Catalog.knowledge w inheritingPage catalog hstopped
  refine ⟨hstopped, ?_, ?_⟩
  · rw [hvalue, List.length_map]
    decide +kernel
  · rw [hproblems]
    decide +kernel

end Walker

end TopicLinks
