import TopicLinks.Catalog
import TopicLinks.Proofs.Walk.Pools

/-!
# Where a walk stops

The walk of a symbol page stops at the first entry in a language that the page does not declare:
the entries before are resolved as if they were the whole page, and the others are left as they
are.
-/

namespace TopicLinks

/-- A way of walking pages stopped at an entry of the page of a symbol. The same page without this
entry and all later ones is walked to its end. -/
structure Page.StoppedAt {σ : Type} (walk : Page → Transcript σ (Progress Page)) (page : Page)
    (p : SymbolPage) (before : List (Language × SymbolPage.Part))
    (entry : Language × SymbolPage.Part) (after : List (Language × SymbolPage.Part)) : Prop where
  /-- The page is that of the symbol. -/
  content : page.content = .symbol p
  /-- The entry stands between the others. -/
  entries : p.entries = before ++ entry :: after
  /-- All entries before are in declared languages, -/
  declared : ∀ earlier ∈ before, earlier.1 ∈ p.languages
  /-- and this one is not. -/
  undeclared : entry.1 ∉ p.languages
  /-- The walk names the language of the entry. -/
  stopped : (walk page).result.stopped = some ⟨entry.1⟩
  /-- The shorter page has the entries before and no others. -/
  shorter : (p.withEntries before).entries = before
  /-- Both walks ask and report the same, and they resolve the entries before to the same entries.
  The stopped walk leaves the entry and all later ones as they were. -/
  left : ∃ walked stoppedPage : SymbolPage,
    walk { page with content := .symbol (p.withEntries before) } =
        { walk page with result := ⟨{ page with content := .symbol walked }, none⟩ } ∧
      (walk page).result.value = { page with content := .symbol stoppedPage } ∧
      stoppedPage.languages = p.languages ∧ stoppedPage.docComment = p.docComment ∧
      stoppedPage.entries = walked.entries ++ entry :: after ∧
      List.Forall₂ (fun a b => a.1 = b.1 ∧ a.2.rank = b.2.rank) before walked.entries

/-- A walk of the page of a symbol stops at the first entry in an undeclared language. -/
theorem Page.stoppedAt_resolve {σ : Type} (settings : Settings) (kb : KnowledgeBase σ)
    (state : σ) {page : Page} {p : SymbolPage} (hpage : page.content = .symbol p)
    {before after : List (Language × SymbolPage.Part)} {entry : Language × SymbolPage.Part}
    (hentries : p.entries = before ++ entry :: after)
    (hbefore : ∀ earlier ∈ before, earlier.1 ∈ p.languages) (hentry : entry.1 ∉ p.languages) :
    StoppedAt (fun page => (page.resolve settings).run kb state) page p before entry after := by
  obtain ⟨language, part⟩ := entry
  obtain ⟨reference, source, content⟩ := page
  subst hpage
  have horder : SymbolPage.AreInOrder (before ++ (language, part) :: after) :=
    hentries ▸ p.areInOrder_entries
  have hshorter : (p.withEntries before).entries = before :=
    p.entries_withEntries (List.pairwise_append.mp horder).1
  let v := Page.viewpoint settings ⟨reference, source, .symbol p⟩
  let first := (Viewpoint.resolveEntries p.languages reference v.resolvePart before).run kb state
  obtain ⟨hunstopped, hplaces⟩ : first.result.stopped = none ∧
      List.Forall₂ (fun a b => a.1 = b.1 ∧ a.2.rank = b.2.rank) before first.result.value :=
    (v.returns_resolveEntries_of_declared p.languages reference hbefore).run kb state
  have hleft : SymbolPage.AreInOrder (first.result.value ++ (language, part) :: after) :=
    horder.of_places (List.rel_append hplaces (List.forall₂_same.mpr fun _ _ => ⟨rfl, rfl⟩))
  have hwalked : (p.withEntries first.result.value).entries = first.result.value :=
    p.entries_withEntries (List.pairwise_append.mp hleft).1
  have hpage : (Page.resolve settings ⟨reference, source, .symbol p⟩).run kb state =
      ⟨⟨⟨reference, source, .symbol (p.withEntries
        (first.result.value ++ (language, part) :: after))⟩, some ⟨language⟩⟩,
        first.calls, first.problems, first.state⟩ := by
    rw [resolve_eq_entries settings rfl, hentries,
      Viewpoint.resolveEntries_stops p.languages reference hbefore hentry, Dialogue.run_map,
      Dialogue.run_map]
    rfl
  have hshort : (Page.resolve settings
      ⟨reference, source, .symbol (p.withEntries before)⟩).run kb state =
      ⟨⟨⟨reference, source, .symbol (p.withEntries first.result.value)⟩, none⟩,
        first.calls, first.problems, first.state⟩ := by
    rw [resolve_eq_entries settings rfl, hshorter, Dialogue.run_map, ← hunstopped]
    rfl
  refine ⟨rfl, hentries, hbefore, hentry, ?_, hshorter, p.withEntries first.result.value,
    p.withEntries (first.result.value ++ (language, part) :: after), ?_, ?_, rfl, rfl, ?_, ?_⟩
  · rw [hpage]
  · rw [hshort, hpage]
  · rw [hpage]
  · rw [hwalked, p.entries_withEntries hleft]
  · rwa [hwalked]

namespace Walker

/-- A visit of a page breaks down if and only if the page is that of a symbol, with an entry in a
language that the page does not declare. It stops at the first such entry, in the order of the
sections: the entries before are resolved as on the page that ends before this entry, and the
others are left as they were. The pool of the walk does not break it down: through every pool the
walk is the same. -/
theorem visitPage_stops {σ : Type} (kb : KnowledgeBase σ) (w : Walker) (page : Page) (state : σ) :
    let walk := fun page => (w.visitPage kb page state).transcript
    ((walk page).result.stopped ≠ none ↔
      ∃ p, page.content = .symbol p ∧ ∃ entry ∈ p.entries, entry.1 ∉ p.languages) ∧
    ((walk page).result.stopped ≠ none →
      ∃ p before entry after, page.StoppedAt walk p before entry after) ∧
    (page.reference.IsReadable → ∀ (pool : String) (sessions : Stream' Session),
      (∀ n, ((sessions.get n).pool? pool).isSome) →
      (page.resolveThrough pool sessions w.settings).run kb state =
        { walk page with result := .ok (walk page).result }) := by
  intro walk
  have hiff : (walk page).result.stopped ≠ none ↔
      ∃ p, page.content = .symbol p ∧ ∃ entry ∈ p.entries, entry.1 ∉ p.languages := by
    rw [← not_iff_not, ← page.content.isDeclared_iff, not_not]
    constructor
    · exact (page.returns_resolve w.settings).run kb state
    · exact fun h => (page.returns_unstopped w.settings h).run kb state
  refine ⟨hiff, fun hstopped => ?_, fun hreadable pool sessions hpool => ?_⟩
  · obtain ⟨p, hpage, hundeclared⟩ := hiff.mp hstopped
    have hfirst : (p.entries.find? fun entry => entry.1 ∉ p.languages).isSome := by
      simpa using hundeclared
    obtain ⟨entry, hfind⟩ := Option.isSome_iff_exists.mp hfirst
    obtain ⟨hentry, before, after, hentries, hbefore⟩ := List.find?_eq_some_iff_append.mp hfind
    refine ⟨p, before, entry, after, Page.stoppedAt_resolve w.settings kb state hpage hentries
      (fun earlier hearlier => ?_) (by simpa using hentry)⟩
    simpa using hbefore earlier hearlier
  · rw [Page.resolveThrough_eq hreadable hpool, Dialogue.run_map]
    rfl

/-- A page in one language, with an empty summary in another one. -/
def partlyDeclaredPage : Page where
  reference := .ofText "org.example.Kit" "/documentation/Kit/View" none (.single "swift")
  source := none
  content := .symbol {
    languages := .single "swift"
    docComment := none
    summary := ⟨[("swift", some [.paragraph [.link (.parse "doc:Sibling") none []]]),
      ("occ", none)]⟩
    discussion := ⟨[("swift", some [.paragraph [.link (.parse "doc:Other") none []]])]⟩
    parameters := ⟨[]⟩
    returns := ⟨[]⟩
    seeAlso := ⟨[]⟩
    topics := ⟨[]⟩ }

/-- An empty summary in an undeclared language is where the walk stops: the summary before it is
resolved, and the discussion after it is not asked about. A walk through a pool stops there too. -/
theorem visitPage_stops_of_empty_summary :
    let catalog : Catalog := { pages := ["/documentation/Kit/Sibling"] }
    let w : Walker := ⟨{}, partlyDeclaredPage.reference, none, []⟩
    let walk := fun page => (w.visitPage Catalog.knowledge page catalog).transcript
    let through := partlyDeclaredPage.resolveThrough "main" (.const (.initial "main")) w.settings
    (walk partlyDeclaredPage).calls.length = 1 ∧
      (∃ p before entry after, partlyDeclaredPage.StoppedAt walk p before entry after ∧
        entry.1 = "occ") ∧
      (through.run Catalog.knowledge catalog).result = .ok (walk partlyDeclaredPage).result := by
  intro catalog w walk through
  have hstopped : (walk partlyDeclaredPage).result.stopped = some ⟨"occ"⟩ := by decide +kernel
  obtain ⟨-, hstops, hthrough⟩ := visitPage_stops Catalog.knowledge w partlyDeclaredPage catalog
  obtain ⟨p, before, entry, after, h⟩ := hstops (by rw [hstopped]; exact Option.some_ne_none _)
  have hcause := h.stopped.symm.trans hstopped
  have hpool := hthrough (Place.readable_ofText _ _) "main" (.const (.initial "main")) fun _ => rfl
  exact ⟨by decide +kernel,
    ⟨p, before, entry, after, h, congrArg UndeclaredLanguage.language (Option.some.inj hcause)⟩,
    congrArg Transcript.result hpool⟩

end Walker

end TopicLinks
