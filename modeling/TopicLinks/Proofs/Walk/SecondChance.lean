import Mathlib.Algebra.Group.Nat.Defs
import TopicLinks.Proofs.Identity.BundleLinks
import TopicLinks.Proofs.Pool.Invariant
import TopicLinks.Proofs.Walk.Outcomes
import TopicLinks.Proofs.Walk.Repetition
import TopicLinks.Proofs.Walk.Entries

/-!
# Second chances

On a symbol page whose documentation was inherited, a link that fails may be tried once more from
the declaration. The walk of the page settles the occurrences in its entries up to where it stops,
so what is said of settling one failed link holds of all of them: when it is tried again, and what
is reported then. The link that is suggested is read back as the topic that was found.
-/

namespace TopicLinks

open Problem

variable {σ : Type}

/-! ### The occurrences that a walk comes to -/

namespace SymbolPage

/-- The occurrences in the value of an entry. -/
def Part.occurrences (parent : Identity) : Part → List Occurrence
  | .summary markup => Markup.occurrences? parent markup
  | .discussion markup => Markup.occurrences? parent markup
  | .parameters described => Parameter.occurrencesOf parent described
  | .returns markup => Markup.occurrences? parent markup
  | .seeAlso groups => TaskGroup.occurrencesOf parent groups
  | .topics groups => TaskGroup.occurrencesOf parent groups

/-- The occurrences in some entries of a page, each with the page in the language of the entry as
its parent. -/
def occurrencesOf (page : Identity) (entries : List (Language × Part)) : List Occurrence :=
  entries.flatMap fun entry => entry.2.occurrences (page.inLanguage entry.1)

theorem occurrencesOf_cons (page : Identity) (language : Language) (part : Part)
    (rest : List (Language × Part)) :
    occurrencesOf page ((language, part) :: rest) =
      part.occurrences (page.inLanguage language) ++ occurrencesOf page rest :=
  List.flatMap_cons

/-- The entries that a walk resolves: all before the first one in an undeclared language. -/
def reached (p : SymbolPage) : List (Language × Part) := p.entries.takeWhile (·.1 ∈ p.languages)

/-- The entries that a walk leaves as they are. -/
def unreached (p : SymbolPage) : List (Language × Part) := p.entries.dropWhile (·.1 ∈ p.languages)

theorem occurrences_eq (p : SymbolPage) (page : Identity) :
    p.occurrences page = occurrencesOf page p.entries := by
  simp only [occurrences, Variants.occurrences, occurrencesOf, entries, sectionEntries,
    List.flatMap_append, List.flatMap_map, List.append_assoc]
  rfl

end SymbolPage

namespace Viewpoint

open Dialogue SymbolPage

variable (v : Viewpoint) (declared : LanguageSet) (parent : Identity)

/-- The value of an entry is settled in the way of its section. -/
theorem settles_part (part : Part) :
    v.Settles [] (part.occurrences parent) (v.resolvePart parent part)
      (Part.occurrences parent) := by
  cases part with
  | summary markup => exact (v.settles_section parent markup).bind_done fun _ => rfl
  | discussion markup => exact (v.settles_section parent markup).bind_done fun _ => rfl
  | parameters parameters => exact (v.settles_parameters parent parameters).bind_done fun _ => rfl
  | returns markup => exact (v.settles_section parent markup).bind_done fun _ => rfl
  | seeAlso groups => exact (v.settles_groups parent groups).bind_done fun _ => rfl
  | topics groups => exact (v.settles_groups parent groups).bind_done fun _ => rfl

/-- Entries are settled in their order up to the first one in an undeclared language. -/
theorem map_resolveEntries (entries : List (Language × Part)) :
    (resolveEntries declared parent v.resolvePart entries).map
        (fun progress => occurrencesOf parent progress.value) =
      (each v.settle (occurrencesOf parent (entries.takeWhile (·.1 ∈ declared)))).map
        (· ++ occurrencesOf parent (entries.dropWhile (·.1 ∈ declared))) := by
  induction entries with
  | nil => rfl
  | cons entry rest ih =>
    obtain ⟨language, part⟩ := entry
    simp only [resolveEntries, LanguageSet.forVariant]
    by_cases hlanguage : language ∈ declared
    · have hpart := (v.settles_part (parent.inLanguage language) part).map_eq
      rw [if_pos hlanguage, List.takeWhile_cons_of_pos (by simpa using hlanguage),
        List.dropWhile_cons_of_pos (by simpa using hlanguage), occurrencesOf_cons, each_append,
        map_bind, ← hpart, bind_map]
      change ((v.resolvePart (parent.inLanguage language) part).bind _).map _ = _
      rw [map_bind]
      congr 1
      funext part'
      calc
        _ = ((resolveEntries declared parent v.resolvePart rest).map
            (fun progress => occurrencesOf parent progress.value)).map
              (part'.occurrences (parent.inLanguage language) ++ ·) := by
          rw [bind_eq, map_bind, map_map]
          rfl
        _ = _ := by
          rw [ih, map_map, map_map]
          simp only [List.append_assoc]
    · rw [if_neg hlanguage, List.takeWhile_cons_of_neg (by simpa using hlanguage),
        List.dropWhile_cons_of_neg (by simpa using hlanguage)]
      rfl

/-- Entries stay where they are, whether they are resolved or not. -/
theorem returns_places_resolveEntries (entries : List (Language × Part)) :
    (resolveEntries declared parent v.resolvePart entries).Returns fun progress =>
      List.Forall₂ (fun before after => before.1 = after.1 ∧ before.2.rank = after.2.rank)
        entries progress.value := by
  induction entries with
  | nil => exact .nil
  | cons entry rest ih =>
    obtain ⟨language, part⟩ := entry
    simp only [resolveEntries, LanguageSet.forVariant]
    by_cases hlanguage : language ∈ declared
    · rw [if_pos hlanguage]
      refine (v.returns_rank_resolvePart _ part).bind fun part' hpart => ?_
      exact ih.bind fun progress hprogress => .cons ⟨rfl, hpart⟩ hprogress
    · rw [if_neg hlanguage]
      exact List.forall₂_same.mpr fun _ _ => ⟨rfl, rfl⟩

end Viewpoint

namespace Page

open Dialogue SymbolPage

variable {page : Page} {p : SymbolPage}

/-- The walk of the page of a symbol settles the occurrences that it comes to, and leaves the others
behind them. -/
theorem map_resolve_symbol (settings : Settings) (hpage : page.content = .symbol p) :
    (page.resolve settings).map (·.value.occurrences) =
      (each (page.viewpoint settings).settle (occurrencesOf page.reference p.reached)).map
        (· ++ occurrencesOf page.reference p.unreached) := by
  have hplaces := (page.viewpoint settings).returns_places_resolveEntries p.languages page.reference
    p.entries
  rw [resolve_eq_entries settings hpage, map_map]
  refine (hplaces.bind_congr fun progress hprogress => ?_).trans
    ((page.viewpoint settings).map_resolveEntries p.languages page.reference p.entries)
  have hentries : (p.withEntries progress.value).entries = progress.value :=
    p.entries_withEntries (p.areInOrder_entries.of_places hprogress)
  congr 1
  exact ((p.withEntries progress.value).occurrences_eq page.reference).trans
    (congrArg (occurrencesOf page.reference) hentries)

/-- The walk of the page of a symbol asks, reports and makes what its settlements do. -/
theorem run_resolve_symbol (settings : Settings) (kb : KnowledgeBase σ) (state : σ)
    (hpage : page.content = .symbol p) :
    let t := (page.resolve settings).run kb state
    let parts := (page.viewpoint settings).settlements kb (occurrencesOf page.reference p.reached)
      state
    t.calls = parts.flatMap (·.transcript.calls) ∧
      t.problems = parts.flatMap (·.transcript.problems) ∧
      t.result.value.occurrences =
        parts.map (·.transcript.result) ++ occurrencesOf page.reference p.unreached := by
  intro t parts
  obtain ⟨hcalls, hproblems, hresult⟩ := (page.viewpoint settings).run_each_settle kb
    (occurrencesOf page.reference p.reached) state
  have hrun := congrArg (Dialogue.run kb · state) (map_resolve_symbol settings hpage)
  simp only [run_map, hcalls, hproblems, hresult] at hrun
  obtain ⟨hvalue, hasked, htold, -⟩ := Transcript.mk.inj hrun
  exact ⟨hasked, htold, hvalue⟩

end Page

/-! ### What becomes of a failed link -/

namespace Viewpoint

open Dialogue

/-- All that is asked and reported about a link that fails. -/
theorem run_settle_failed (v : Viewpoint) (kb : KnowledgeBase σ) {parent : Identity}
    {range : Option SourceRange} {fromSymbolLink : Bool} {link : AuthoredLink} {state : σ}
    {failure : ResolutionFailure}
    (hfailed : (kb.answer (.resolve link parent fromSymbolLink) state).1 = .error failure) :
    let reported : List Query → σ → Transcript σ Occurrence := fun calls later =>
      ⟨.topic parent range fromSymbolLink (.unresolved link),
        calls ++ [.uncuratedMatch failure.link.path],
        [v.unresolvedTopic failure range (kb.answer (.uncuratedMatch failure.link.path) later).1],
        (kb.answer (.uncuratedMatch failure.link.path) later).2⟩
    let first := Query.resolve link parent fromSymbolLink
    (v.settle (.topic parent range fromSymbolLink (.unresolved link))).run kb state =
      match v.secondChance? link with
      | none => reported [first] (kb.answer first state).2
      | some inherited =>
        let again := Query.resolve link inherited.parent fromSymbolLink
        let later := (kb.answer again (kb.answer first state).2).2
        match (kb.answer again (kb.answer first state).2).1 with
        | .error _ => reported [first, again] later
        | .ok target =>
          ⟨.topic parent range fromSymbolLink (.resolved target), [first, again],
            [v.inheritedLink inherited link target range], later⟩ := by
  simp only [settle, run_map, resolveTopic, bind_eq, run_bind, Dialogue.query, run, hfailed, retry]
  cases v.secondChance? link with
  | none => rfl
  | some inherited =>
    simp only [run_bind, run]
    cases (kb.answer (.resolve link inherited.parent fromSymbolLink)
      (kb.answer (.resolve link parent fromSymbolLink) state).2).1 with
    | error _ => rfl
    | ok target => rfl

end Viewpoint

/-- A position as far on as an origin, where 32 bits allow it. Without an origin it stays. -/
structure Position.IsMovedBy (origin : Option Origin) (p q : Position) : Prop where
  /-- The line, -/
  line : q.line.toNat = min (p.line.toNat + origin.elim 0 (·.line.toNat)) (2 ^ 32 - 1)
  /-- and the column. -/
  column : q.column.toNat = min (p.column.toNat + origin.elim 0 (·.character.toNat)) (2 ^ 32 - 1)

/-- A range moved by an origin. -/
structure SourceRange.IsMovedBy (origin : Option Origin) (before after : SourceRange) : Prop where
  /-- Its first position is moved, -/
  start : before.start.IsMovedBy origin after.start
  /-- and so is its end. -/
  stop : before.stop.IsMovedBy origin after.stop

theorem toNat_saturatingAdd (a b : UInt32) :
    (saturatingAdd a b).toNat = min (a.toNat + b.toNat) (2 ^ 32 - 1) := by
  have hsize : min (a.toNat + b.toNat) (2 ^ 32 - 1) < 2 ^ 32 := by omega
  rw [saturatingAdd, UInt32.toNat_ofNat']
  exact Nat.mod_eq_of_lt hsize

theorem Position.isMovedBy_self (p : Position) : p.IsMovedBy none p := by
  have hfits : ∀ n : UInt32, n.toNat = min (n.toNat + 0) (2 ^ 32 - 1) := by
    intro n
    have hsize : n.toNat < 2 ^ 32 := n.toNat_lt
    omega
  exact ⟨hfits p.line, hfits p.column⟩

theorem Position.isMovedBy_offsetBy (p : Position) (origin : Origin) :
    p.IsMovedBy (some origin) (p.offsetBy origin) :=
  ⟨toNat_saturatingAdd p.line origin.line, toNat_saturatingAdd p.column origin.character⟩

/-- A range is moved by the origin of the inherited comment. -/
theorem Viewpoint.isMovedBy_rangeInComment (inherited : Inheritance) (range : SourceRange) :
    range.IsMovedBy inherited.origin (Inheritance.rangeInComment inherited range) := by
  unfold Inheritance.rangeInComment
  cases inherited.origin with
  | none => exact ⟨range.start.isMovedBy_self, range.stop.isMovedBy_self⟩
  | some origin =>
    exact ⟨range.start.isMovedBy_offsetBy origin, range.stop.isMovedBy_offsetBy origin⟩

/-- The problem of a link that resolves only from the declaration that its documentation was
inherited from. -/
structure Problem.SuggestsLink (comment : DocComment) (source : Option String)
    (range : Option SourceRange) (target : Identity) (problem : Problem) : Prop where
  /-- It is a problem of its own kind. -/
  identifier : problem.diagnostic.identifier = inheritedLinkId
  /-- It is located in the file of the comment, or else in that of the page, -/
  source : problem.diagnostic.source = comment.source.or source
  /-- at the range of the link, moved by the origin of the comment. -/
  range : Option.Rel (SourceRange.IsMovedBy comment.origin) range problem.diagnostic.range
  /-- There is one note, at the same place. -/
  note : ∃ note, problem.diagnostic.notes = [note] ∧ note.range = problem.diagnostic.range ∧
    note.source = problem.diagnostic.source
  /-- If the link has a range, there is one solution: to write the link that means the topic within
  its bundle. Otherwise there is none. -/
  solutions : problem.solutions.map (·.replacements) = (problem.diagnostic.range.map fun moved =>
    [⟨moved, "<" ++ target.bundleLink ++ ">"⟩]).toList

theorem Viewpoint.suggestsLink_inheritedLink (v : Viewpoint) (comment : DocComment)
    (declaration : Identity) (link : AuthoredLink) (target : Identity)
    (range : Option SourceRange) :
    (v.inheritedLink ⟨declaration, comment.origin, comment.source⟩ link target range).SuggestsLink
      comment v.source range target where
  identifier := rfl
  source := rfl
  range := by
    cases range with
    | none => exact .none
    | some range =>
      exact .some (isMovedBy_rangeInComment ⟨declaration, comment.origin, comment.source⟩ range)
  note := ⟨_, rfl, rfl, rfl⟩
  solutions := by
    cases range with
    | none => rfl
    | some range =>
      rw [← absoluteLink_eq]
      rfl

/-- What becomes of a link that fails where a doc comment was inherited from a declaration. -/
structure Settlement.TakesSecondChance (kb : KnowledgeBase σ) (v : Viewpoint)
    (comment : DocComment) (declaration parent : Identity) (range : Option SourceRange)
    (fromSymbolLink : Bool) (link : AuthoredLink) (failure : ResolutionFailure)
    (part : Settlement σ) : Prop where
  /-- The link is asked about once, and once more from the declaration if and only if the settings
  allow it and the link is relative. -/
  calls : part.transcript.calls.filter Query.isResolve =
    .resolve link parent fromSymbolLink ::
      if v.settings.inheritedLinkFallback ∧ link.isRelative then
        [.resolve link declaration fromSymbolLink]
      else []
  /-- If it resolves then, it is replaced by the answer, and the one problem suggests another
  link. -/
  rescued : v.settings.inheritedLinkFallback → link.isRelative → ∀ target,
    (kb.answer (.resolve link declaration fromSymbolLink)
      (kb.answer (.resolve link parent fromSymbolLink) part.state).2).1 = .ok target →
    part.transcript.result = .topic parent range fromSymbolLink (.resolved target) ∧
      ∃ problem, part.transcript.problems = [problem] ∧
        problem.SuggestsLink comment v.source range target
  /-- If it is not asked about again or fails again, it stays as it is, and the one problem is that
  of the first failure. -/
  failed : (v.settings.inheritedLinkFallback → link.isRelative → ∃ again,
      (kb.answer (.resolve link declaration fromSymbolLink)
        (kb.answer (.resolve link parent fromSymbolLink) part.state).2).1 = .error again) →
    part.transcript.result = part.occurrence ∧ ∃ later,
      part.transcript.problems = [v.unresolvedTopic failure range
        (kb.answer (.uncuratedMatch failure.link.path) later).1] ∧
      part.transcript.state = (kb.answer (.uncuratedMatch failure.link.path) later).2

/-- Every link that fails where a doc comment was inherited takes its second chance. -/
theorem Viewpoint.takesSecondChance (v : Viewpoint) (kb : KnowledgeBase σ) {comment : DocComment}
    {declaration parent : Identity} {range : Option SourceRange} {fromSymbolLink : Bool}
    {link : AuthoredLink} {failure : ResolutionFailure} {part : Settlement σ}
    (hv : v.inheritance = some ⟨declaration, comment.origin, comment.source⟩)
    (hpart : part.transcript = (v.settle part.occurrence).run kb part.state)
    (hlink : part.occurrence = .topic parent range fromSymbolLink (.unresolved link))
    (hfailed : (kb.answer (.resolve link parent fromSymbolLink) part.state).1 = .error failure) :
    part.TakesSecondChance kb v comment declaration parent range fromSymbolLink link failure := by
  rw [hlink, v.run_settle_failed kb hfailed] at hpart
  by_cases hagain : v.settings.inheritedLinkFallback ∧ link.isRelative
  · have hchance : v.secondChance? link = some ⟨declaration, comment.origin, comment.source⟩ := by
      rw [secondChance?, hagain.1, hagain.2, hv]
      rfl
    simp only [hchance] at hpart
    cases hanswer : (kb.answer (.resolve link declaration fromSymbolLink)
        (kb.answer (.resolve link parent fromSymbolLink) part.state).2).1 with
    | ok target =>
      simp only [hanswer] at hpart
      refine ⟨by rw [hpart, if_pos hagain]; rfl, fun _ _ found hfound => ?_, fun hnone => ?_⟩
      · obtain rfl : target = found := by simpa [hanswer] using hfound
        exact ⟨by rw [hpart], _, by rw [hpart],
          v.suggestsLink_inheritedLink comment declaration link target range⟩
      · obtain ⟨again, herror⟩ := hnone hagain.1 hagain.2
        exact absurd (hanswer.symm.trans herror) (by simp)
    | error again =>
      simp only [hanswer] at hpart
      refine ⟨by rw [hpart, if_pos hagain]; rfl, fun _ _ found hfound => ?_, fun _ => ?_⟩
      · exact absurd (hanswer.symm.trans hfound) (by simp)
      · exact ⟨by rw [hpart, hlink], _, by rw [hpart], by rw [hpart]⟩
  · have hchance : v.secondChance? link = none := by
      rw [secondChance?, if_neg (by simpa using hagain)]
    simp only [hchance] at hpart
    refine ⟨by rw [hpart, if_neg hagain]; rfl, fun hsettings hrelative => ?_, fun _ => ?_⟩
    · exact absurd ⟨hsettings, hrelative⟩ hagain
    · exact ⟨by rw [hpart, hlink], _, by rw [hpart], by rw [hpart]⟩

namespace Walker

open SymbolPage

/-- A visit of a symbol page whose doc comment was inherited settles the occurrences up to where it
stops, one after the other. Each link among them that fails from its own parent is asked about again
from the declaration if and only if the settings allow it and the link is relative. If it resolves
then, it is replaced, and the one problem suggests another link; otherwise the one problem is that
of the first failure. The suggested link of every identity that a pool gives is a topic link without
a host that is read back in the path and the fragment of the identity; it is not relative, and so it
never has a second chance. -/
theorem visitPage_second_chances (kb : KnowledgeBase σ) (w : Walker) (page : Page) (state : σ)
    {p : SymbolPage} {comment : DocComment} {declaration : Identity}
    (hpage : page.content = .symbol p) (hcomment : p.docComment = some comment)
    (hinherited : comment.inheritedFrom = some declaration) :
    let visit := w.visitPage kb page state
    let v := page.viewpoint w.settings
    let reached := occurrencesOf page.reference p.reached
    let unreached := occurrencesOf page.reference p.unreached
    let parts := v.settlements kb reached state
    page.occurrences = reached ++ unreached ∧ parts.map (·.occurrence) = reached ∧
    visit.transcript.calls = parts.flatMap (·.transcript.calls) ∧
    visit.walker.problems = w.problems ++ parts.flatMap (·.transcript.problems) ∧
    visit.transcript.result.value.occurrences = parts.map (·.transcript.result) ++ unreached ∧
    (∀ part ∈ parts, ∀ parent range fromSymbolLink link failure,
      part.occurrence = .topic parent range fromSymbolLink (.unresolved link) →
      (kb.answer (.resolve link parent fromSymbolLink) part.state).1 = .error failure →
      part.TakesSecondChance kb v comment declaration parent range fromSymbolLink link failure) ∧
    ∀ pool commands name handle,
      ((Session.initial pool).afterAll commands).handle? name = some handle →
      let link := AuthoredLink.parse handle.identity.bundleLink
      link.scheme = some "doc" ∧ link.host = none ∧ link.path = handle.identity.path ∧
        link.fragment = handle.identity.fragment ∧ link.isRelative = false ∧
        ∀ v : Viewpoint, v.secondChance? link = none := by
  intro visit v reached unreached parts
  have hv : v.inheritance = some ⟨declaration, comment.origin, comment.source⟩ := by
    simp only [v, Page.viewpoint, hpage, PageContent.inheritance, hcomment, Option.bind_some,
      Viewpoint.inheritanceOf, hinherited, Option.map_some]
  have hoccurrences : page.occurrences = reached ++ unreached := by
    rw [Page.occurrences, hpage]
    refine (p.occurrences_eq page.reference).trans ?_
    rw [← List.takeWhile_append_dropWhile (p := (·.1 ∈ p.languages)) (l := p.entries)]
    exact List.flatMap_append
  obtain ⟨hcalls, hproblems, hresult⟩ := Page.run_resolve_symbol w.settings kb state hpage
  refine ⟨hoccurrences, v.map_occurrence_settlements kb reached state, hcalls,
    congrArg (w.problems ++ ·) hproblems, hresult, ?_, ?_⟩
  · intro part hpart parent range fromSymbolLink link failure hlink hfailed
    exact v.takesSecondChance kb hv (v.transcript_of_mem_settlements kb hpart) hlink hfailed
  · intro pool commands name handle hname link
    have hreadable : handle.identity.IsReadable :=
      (Session.invariant_afterAll pool commands).isReadable (Session.live_of_handle? hname)
    have hlink : link = ⟨handle.identity.bundleLink, some "doc", none, handle.identity.path,
        handle.identity.fragment⟩ := hreadable.parse_bundleLink
    exact ⟨by rw [hlink], by rw [hlink], by rw [hlink], by rw [hlink],
      hreadable.isRelative_bundleLink, hreadable.secondChance?_bundleLink⟩

/-- The first link of a page fails and is asked about again. It resolves from the declaration, so
another link is suggested, at the range of the first one in the file of the inherited comment. -/
theorem visitPage_second_chances_of_sibling :
    let catalog : Catalog := { pages := ["/documentation/Kit", "/documentation/Base/Sibling"] }
    let w : Walker := ⟨{}, inheritingPage.reference, none, []⟩
    let visit := w.visitPage Catalog.knowledge inheritingPage catalog
    ∃ p comment declaration, inheritingPage.content = .symbol p ∧ p.docComment = some comment ∧
      comment.inheritedFrom = some declaration ∧
      ∃ problem ∈ visit.walker.problems, problem.diagnostic.range = some ⟨⟨11, 5⟩, ⟨11, 13⟩⟩ ∧
        problem.SuggestsLink comment (some "View.swift") (some ⟨⟨1, 1⟩, ⟨1, 9⟩⟩)
          (.ofText "org.example.Kit" "/documentation/Base/Sibling" none (.single "swift")) := by
  intro catalog w visit
  obtain ⟨-, -, -, hproblems, -, hchances, -⟩ :=
    visitPage_second_chances Catalog.knowledge w inheritingPage catalog rfl rfl rfl
  obtain ⟨-, problem, hproblem, hsuggests⟩ :=
    (hchances _ List.mem_cons_self _ _ _ _ _ rfl rfl).rescued rfl rfl _ rfl
  have hrange : [problem].map (·.diagnostic.range) = [some ⟨⟨11, 5⟩, ⟨11, 13⟩⟩] := by
    rw [← hproblem]
    decide +kernel
  have hreported : problem ∈ visit.walker.problems := by
    rw [show visit.walker.problems = _ from hproblems]
    refine List.mem_append_right _ (List.mem_flatMap.mpr ⟨_, List.mem_cons_self, ?_⟩)
    rw [hproblem]
    exact List.mem_singleton_self problem
  exact ⟨_, _, _, rfl, rfl, rfl, problem, hreported, List.singleton_inj.mp hrange, hsuggests⟩

end Walker

end TopicLinks
