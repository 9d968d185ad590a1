import Mathlib.Data.List.Forall2
import TopicLinks.Proofs.Walk.Outcomes
import TopicLinks.Proofs.Walk.Settlements

/-!
# The problems of a page

The problems that a walk reports are exactly what is wrong with the page it leaves behind:
topic references that are still not resolved, media that do not exist, links that resolved only
where their documentation was inherited, and tutorials that chapters have lost as duplicates.
Each settlement accounts for its own problems, and the walk is the list of its settlements.
-/

namespace TopicLinks

open Problem

variable {σ : Type}

/-- No query changes which resources exist. This is so in particular when the answer depends on
the resource only. -/
def KnowledgeBase.KeepsResources (kb : KnowledgeBase σ) : Prop :=
  ∀ (q : Query) (state : σ) (resource : Resource),
    (kb.answer (.resourceExists resource) (kb.answer q state).2).1 =
      (kb.answer (.resourceExists resource) state).1

/-- A dialogue leaves the resources of such a knowledge base as they are. -/
theorem KnowledgeBase.KeepsResources.run {α : Type} {kb : KnowledgeBase σ} (h : kb.KeepsResources)
    (d : Dialogue α) (state : σ) (resource : Resource) :
    (kb.answer (.resourceExists resource) (d.run kb state).state).1 =
      (kb.answer (.resourceExists resource) state).1 := by
  induction d generalizing state with
  | done a => rfl
  | ask q next ih =>
    have hrest := ih (kb.answer q state).1 (kb.answer q state).2
    exact hrest.trans (h q state resource)
  | report p next ih => exact ih state

theorem Catalog.keepsResources : knowledge.KeepsResources := by
  intro q catalog resource
  cases q with
  | _ => rfl

namespace Occurrence

/-- The ranges of the topic references that are not resolved. -/
def unresolvedRanges : Occurrence → List (Option SourceRange)
  | .topic _ range _ (.unresolved _) => [range]
  | .topic _ _ _ (.resolved _) => []
  | .media _ => []
  | .chapter _ references => TutorialReference.unresolvedRanges references

/-- The medium of a media reference. -/
def media? : Occurrence → Option Media
  | .media file => some file
  | _ => none

/-- What became of some occurrences, and which tutorials their chapters have lost: everything is
in its place, topic references as they were or resolved. -/
inductive Pruned : List Occurrence → List Occurrence → List TutorialReference → Prop where
  /-- Nothing is lost from nothing. -/
  | nil : Pruned [] [] []
  /-- A topic reference is as it was or resolved. -/
  | topic {parent : Identity} {range : Option SourceRange} {fromSymbolLink : Bool}
    {topic topic' : Topic} {before after : List Occurrence} {missing : List TutorialReference}
    (htopic : topic.Refines topic') (rest : Pruned before after missing) :
    Pruned (.topic parent range fromSymbolLink topic :: before)
      (.topic parent range fromSymbolLink topic' :: after) missing
  /-- A medium is as it was. -/
  | media {file : Media} {before after : List Occurrence} {missing : List TutorialReference}
    (rest : Pruned before after missing) :
    Pruned (.media file :: before) (.media file :: after) missing
  /-- A chapter has lost some tutorials. -/
  | chapter {name : String} {references kept lost : List TutorialReference}
    {before after : List Occurrence} {missing : List TutorialReference}
    (hreferences : TutorialReference.Pruned references kept lost)
    (rest : Pruned before after missing) :
    Pruned (.chapter name references :: before) (.chapter name kept :: after) (lost ++ missing)

theorem Pruned.append {before after before' after' : List Occurrence}
    {missing missing' : List TutorialReference} (h : Pruned before after missing)
    (h' : Pruned before' after' missing') :
    Pruned (before ++ before') (after ++ after') (missing ++ missing') := by
  induction h with
  | nil => exact h'
  | topic htopic rest ih => exact .topic htopic ih
  | media rest ih => exact .media ih
  | chapter hreferences rest ih =>
    rw [List.append_assoc]
    exact .chapter hreferences ih

end Occurrence

/-- A link that resolved, but not from its own parent. -/
structure Rescue where
  /-- The link as it was. -/
  link : AuthoredLink
  /-- Its range. -/
  range : Option SourceRange
  /-- The topic to which it resolved. -/
  target : Identity

/-- The rescue of a settlement: the link of a topic reference is resolved afterwards, although
the knowledge base did not resolve it from its own parent when the walk came to it. -/
def Settlement.rescue? (kb : KnowledgeBase σ) (part : Settlement σ) : Option Rescue :=
  match part.occurrence, part.transcript.result with
  | .topic parent range fromSymbolLink (.unresolved link), .topic _ _ _ (.resolved target) =>
    match (kb.answer (.resolve link parent fromSymbolLink) part.state).1 with
    | .ok _ => none
    | .error _ => some ⟨link, range, target⟩
  | _, _ => none

namespace Viewpoint

open Dialogue

/-- The problems of a walk account for its occurrences before and after: there is exactly one
problem for everything that is wrong, and every problem is of one of four kinds. -/
structure Diagnoses (v : Viewpoint) (kb : KnowledgeBase σ) (isKnown : Resource → Bool)
    (before after : List Occurrence) (parts : List (Settlement σ)) (problems : List Problem) :
    Prop where
  /-- The settlements are those of the occurrences before the walk. -/
  entered : before = parts.map (·.occurrence)
  /-- The occurrences after the walk are those that its settlements left behind. -/
  settled : after = parts.map (·.transcript.result)
  /-- The topic references that are still not resolved are reported in order, each at its range
  in the file of the page. -/
  unresolvedTopics : (ofKind unresolvedTopicId problems).map place =
    (after.flatMap Occurrence.unresolvedRanges).map (·, v.source)
  /-- The media that are not on the web and do not exist are reported in order. -/
  unresolvedResources : ofKind unresolvedResourceId problems =
    ((after.filterMap Occurrence.media?).filter fun file =>
      !(file.resource.isWeb || isKnown file.resource)).map v.unresolvedResource
  /-- The links that did not resolve from their own parent, but are resolved, are reported in
  order. -/
  inheritedLinks : List.Forall₂ (fun p rescue => ∃ inherited, v.inheritance = some inherited ∧
      p = v.inheritedLink inherited rescue.link rescue.target rescue.range)
    (ofKind inheritedLinkId problems) (parts.filterMap (·.rescue? kb))
  /-- The tutorials that chapters have lost are reported in order, each at its range in the file
  of the page. -/
  duplicates : ∃ missing, Occurrence.Pruned before after missing ∧
    (ofKind duplicateReferenceId problems).map place =
      missing.map fun reference => (reference.range, v.source)
  /-- The tutorials of a chapter have no second place to resolve from. -/
  chapters : ∀ name references, .chapter name references ∈ before → v.inheritance = none
  /-- There is no other problem. -/
  nothingElse : ∀ p ∈ problems, p.diagnostic.identifier ∈
    [unresolvedTopicId, unresolvedResourceId, inheritedLinkId, duplicateReferenceId]

section

variable {v : Viewpoint} {kb : KnowledgeBase σ} {isKnown : Resource → Bool}

theorem Diagnoses.nil : v.Diagnoses kb isKnown [] [] [] [] where
  entered := rfl
  settled := rfl
  unresolvedTopics := rfl
  unresolvedResources := rfl
  inheritedLinks := .nil
  duplicates := ⟨[], .nil, rfl⟩
  chapters := fun _ _ h => absurd h List.not_mem_nil
  nothingElse := fun _ h => absurd h List.not_mem_nil

/-- Two walks one after the other account for all of their occurrences. -/
theorem Diagnoses.append {before after before' after' : List Occurrence}
    {parts parts' : List (Settlement σ)} {problems problems' : List Problem}
    (h : v.Diagnoses kb isKnown before after parts problems)
    (h' : v.Diagnoses kb isKnown before' after' parts' problems') :
    v.Diagnoses kb isKnown (before ++ before') (after ++ after') (parts ++ parts')
      (problems ++ problems') where
  entered := by rw [h.entered, h'.entered, List.map_append]
  settled := by rw [h.settled, h'.settled, List.map_append]
  unresolvedTopics := by
    rw [ofKind_append, List.map_append, h.unresolvedTopics, h'.unresolvedTopics,
      List.flatMap_append, List.map_append]
  unresolvedResources := by
    rw [ofKind_append, h.unresolvedResources, h'.unresolvedResources, List.filterMap_append,
      List.filter_append, List.map_append]
  inheritedLinks := by
    rw [ofKind_append, List.filterMap_append]
    exact List.rel_append h.inheritedLinks h'.inheritedLinks
  duplicates := by
    obtain ⟨missing, hpruned, hplaces⟩ := h.duplicates
    obtain ⟨missing', hpruned', hplaces'⟩ := h'.duplicates
    refine ⟨missing ++ missing', hpruned.append hpruned', ?_⟩
    rw [ofKind_append, List.map_append, hplaces, hplaces', List.map_append]
  chapters := fun name references hmem =>
    (List.mem_append.mp hmem).elim (h.chapters name references) (h'.chapters name references)
  nothingElse := fun p hmem =>
    (List.mem_append.mp hmem).elim (h.nothingElse p) (h'.nothingElse p)

/-- Settling a topic reference accounts for it, whichever outcome it has. -/
theorem diagnoses_topic (v : Viewpoint) (kb : KnowledgeBase σ) (isKnown : Resource → Bool)
    (parent : Identity) (range : Option SourceRange) (fromSymbolLink : Bool) (topic : Topic)
    (state : σ) :
    let occurrence := .topic parent range fromSymbolLink topic
    let t := (v.settle occurrence).run kb state
    v.Diagnoses kb isKnown [occurrence] [t.result] [⟨occurrence, state, t⟩] t.problems := by
  simp only [settle, run_map]
  have hresolves := v.run_resolveTopic kb parent range fromSymbolLink state topic
  generalize (v.resolveTopic parent range fromSymbolLink topic).run kb state = t at hresolves ⊢
  obtain ⟨topic', calls, problems, next⟩ := t
  have hpruned : Occurrence.Pruned [.topic parent range fromSymbolLink topic]
    [.topic parent range fromSymbolLink topic'] [] := .topic hresolves.refines .nil
  have hchapters : ∀ name references, Occurrence.chapter name references ∈
      [Occurrence.topic parent range fromSymbolLink topic] → v.inheritance = none :=
    fun name references hmem => by simp at hmem
  cases hresolves with
  | kept identity =>
    exact {
      entered := rfl
      settled := rfl
      unresolvedTopics := rfl
      unresolvedResources := rfl
      inheritedLinks := .nil
      duplicates := ⟨[], hpruned, rfl⟩
      chapters := hchapters
      nothingElse := fun p hp => absurd hp List.not_mem_nil }
  | found hfound =>
    exact {
      entered := rfl
      settled := rfl
      unresolvedTopics := rfl
      unresolvedResources := rfl
      inheritedLinks := by simp [Settlement.rescue?, hfound]
      duplicates := ⟨[], hpruned, rfl⟩
      chapters := hchapters
      nothingElse := fun p hp => absurd hp List.not_mem_nil }
  | rescued hfailed hinherited =>
    exact {
      entered := rfl
      settled := rfl
      unresolvedTopics := by
        simp [ofKind_cons, inheritedLinkId, unresolvedTopicId, Occurrence.unresolvedRanges]
      unresolvedResources := by
        simp [ofKind_cons, inheritedLinkId, unresolvedResourceId, Occurrence.media?]
      inheritedLinks := by simp [ofKind_cons, Settlement.rescue?, hfailed, hinherited]
      duplicates := ⟨[], hpruned, by simp [ofKind_cons, inheritedLinkId, duplicateReferenceId]⟩
      chapters := hchapters
      nothingElse := by simp }
  | failed hfailed uncurated =>
    exact {
      entered := rfl
      settled := rfl
      unresolvedTopics := by simp [ofKind_cons, Occurrence.unresolvedRanges]
      unresolvedResources := by
        simp [ofKind_cons, unresolvedTopicId, unresolvedResourceId, Occurrence.media?]
      inheritedLinks := by
        simp [ofKind_cons, unresolvedTopicId, inheritedLinkId, Settlement.rescue?]
      duplicates := ⟨[], hpruned, by simp [ofKind_cons, unresolvedTopicId, duplicateReferenceId]⟩
      chapters := hchapters
      nothingElse := by simp }

/-- Checking a medium accounts for it. -/
theorem diagnoses_media (v : Viewpoint) (kb : KnowledgeBase σ) {isKnown : Resource → Bool}
    {state : σ} (hknown : ∀ resource, (kb.answer (.resourceExists resource) state).1 =
      isKnown resource) (file : Media) :
    let t := (v.settle (.media file)).run kb state
    v.Diagnoses kb isKnown [.media file] [t.result] [⟨.media file, state, t⟩] t.problems := by
  have hproblems := v.run_checkMedia kb state file
  rw [hknown] at hproblems
  simp only [settle, run_map]
  have hpruned : Occurrence.Pruned [.media file] [.media file] [] := .media .nil
  have hchapters : ∀ name references, Occurrence.chapter name references ∈
      [Occurrence.media file] → v.inheritance = none :=
    fun name references hmem => by simp at hmem
  by_cases hgood : (file.resource.isWeb || isKnown file.resource) = true
  · rw [hproblems, if_pos hgood]
    exact {
      entered := rfl
      settled := rfl
      unresolvedTopics := rfl
      unresolvedResources := by simp [Occurrence.media?, hgood, -Bool.not_or]
      inheritedLinks := .nil
      duplicates := ⟨[], hpruned, rfl⟩
      chapters := hchapters
      nothingElse := fun p hp => absurd hp List.not_mem_nil }
  · rw [hproblems, if_neg hgood]
    exact {
      entered := rfl
      settled := rfl
      unresolvedTopics := by
        simp [ofKind_cons, unresolvedResourceId, unresolvedTopicId, Occurrence.unresolvedRanges]
      unresolvedResources := by simp [ofKind_cons, Occurrence.media?, hgood, -Bool.not_or]
      inheritedLinks := by
        simp [ofKind_cons, unresolvedResourceId, inheritedLinkId, Settlement.rescue?]
      duplicates :=
        ⟨[], hpruned, by simp [ofKind_cons, unresolvedResourceId, duplicateReferenceId]⟩
      chapters := hchapters
      nothingElse := by simp }

/-- Without a second chance, curating a chapter accounts for its tutorials. -/
theorem diagnoses_chapter {v : Viewpoint} (hv : v.inheritance = none) (kb : KnowledgeBase σ)
    (isKnown : Resource → Bool) (name : String) (references : List TutorialReference) (state : σ) :
    let occurrence := .chapter name references
    let t := (v.settle occurrence).run kb state
    v.Diagnoses kb isKnown [occurrence] [t.result] [⟨occurrence, state, t⟩] t.problems := by
  have hcurates := curates_run_curate kb hv name (kb.answer (.root .tutorials) state).1 references
    {} (kb.answer (.root .tutorials) state).2
  simp only [settle, run_bind, Dialogue.query, run, run_map, List.nil_append]
  generalize (v.curate name (kb.answer (.root .tutorials) state).1 {} references).run kb
    (kb.answer (.root .tutorials) state).2 = t at hcurates ⊢
  obtain ⟨kept, calls, problems, next⟩ := t
  have hresource : ofKind unresolvedResourceId problems = [] :=
    hcurates.ofKind_eq_nil (by decide) (by decide)
  have hinherited : ofKind inheritedLinkId problems = [] :=
    hcurates.ofKind_eq_nil (by decide) (by decide)
  obtain ⟨⟨missing, hpruned, hplaces⟩, hunresolved, hkinds⟩ := hcurates
  have hlost : Occurrence.Pruned [.chapter name references] [.chapter name kept]
      (missing ++ []) := .chapter hpruned .nil
  rw [List.append_nil] at hlost
  exact {
    entered := rfl
    settled := rfl
    unresolvedTopics := by rw [hunresolved, List.flatMap_singleton, Occurrence.unresolvedRanges]
    unresolvedResources := by
      rw [hresource]
      rfl
    inheritedLinks := by
      rw [hinherited]
      exact .nil
    duplicates := ⟨missing, hlost, hplaces⟩
    chapters := fun _ _ _ => hv
    nothingElse := fun p hp => by
      rcases hkinds p hp with hkind | hkind
      · simp [hkind]
      · simp [hkind] }

end

variable {v : Viewpoint} {kb : KnowledgeBase σ} {isKnown : Resource → Bool}

/-- Settling an occurrence accounts for it. -/
theorem diagnoses_settle {state : σ} (hknown : ∀ resource,
      (kb.answer (.resourceExists resource) state).1 = isKnown resource)
    {occurrence : Occurrence} (hchapter : occurrence.isPlain = false → v.inheritance = none) :
    let t := (v.settle occurrence).run kb state
    v.Diagnoses kb isKnown [occurrence] [t.result] [⟨occurrence, state, t⟩] t.problems := by
  cases occurrence with
  | topic parent range fromSymbolLink topic =>
    exact v.diagnoses_topic kb isKnown parent range fromSymbolLink topic state
  | media file => exact v.diagnoses_media kb hknown file
  | chapter name references =>
    exact diagnoses_chapter (hchapter rfl) kb isKnown name references state

/-- Settlements account for their occurrences. The induction is on the occurrences; the resources
that exist stay the same on the way. -/
theorem diagnoses_settlements (hkb : kb.KeepsResources) {occurrences : List Occurrence} {state : σ}
    (hknown : ∀ resource, (kb.answer (.resourceExists resource) state).1 = isKnown resource)
    (hchapters : ∀ occurrence ∈ occurrences,
      occurrence.isPlain = false → v.inheritance = none) :
    let parts := v.settlements kb occurrences state
    v.Diagnoses kb isKnown occurrences (parts.map (·.transcript.result)) parts
      (parts.flatMap (·.transcript.problems)) := by
  induction occurrences generalizing state with
  | nil => exact .nil
  | cons occurrence rest ih =>
    have hfirst := diagnoses_settle hknown (hchapters occurrence List.mem_cons_self)
    have hrest := ih (fun resource => (hkb.run (v.settle occurrence) state resource).trans
      (hknown resource)) fun other hother => hchapters other (List.mem_cons_of_mem _ hother)
    exact hfirst.append hrest

end Viewpoint

namespace Page

/-- Only pages without inherited documentation hold chapters. -/
theorem inheritance_eq_none (page : Page) {occurrence : Occurrence}
    (hmem : occurrence ∈ page.occurrences) (hchapter : occurrence.isPlain = false) :
    page.content.inheritance = none := by
  obtain ⟨reference, source, content⟩ := page
  cases content with
  | symbol p =>
    have hplain := List.all_eq_true.mp (p.all_isPlain reference) occurrence hmem
    exact absurd (hplain.symm.trans hchapter) Bool.noConfusion
  | article a => rfl
  | contents c => rfl
  | tutorial t => rfl
  | tutorialArticle a => rfl

/-- A walk that does not stop accounts for the page. -/
theorem diagnoses_resolve (settings : Settings) {kb : KnowledgeBase σ} (hkb : kb.KeepsResources)
    (page : Page) {state : σ} {isKnown : Resource → Bool}
    (hknown : ∀ resource, (kb.answer (.resourceExists resource) state).1 = isKnown resource)
    (h : ((page.resolve settings).run kb state).result.stopped = none) :
    let t := (page.resolve settings).run kb state
    let v := page.viewpoint settings
    v.Diagnoses kb isKnown page.occurrences t.result.value.occurrences
      (v.settlements kb page.occurrences state) t.problems := by
  intro t v
  obtain ⟨-, hproblems, hvalue⟩ := page.run_resolve settings kb state h
  rw [show t.problems = _ from hproblems, show t.result.value.occurrences = _ from hvalue]
  exact Viewpoint.diagnoses_settlements hkb hknown fun _ hmem => page.inheritance_eq_none hmem

end Page

namespace Walker

/-- The problems of a page that is resolved without breaking down are exactly what is wrong with
the page that is left behind, if no query changes which resources exist. -/
theorem resolvePage_diagnoses (settings : Settings) {kb : KnowledgeBase σ}
    (hkb : kb.KeepsResources) (page : Page) (state : σ)
    (h : ((resolvePage settings page).run kb state).result.stopped = none) :
    let t := (resolvePage settings page).run kb state
    let v := page.viewpoint settings
    let entered := (kb.answer (.root .documentation) state).2
    v.Diagnoses kb (fun resource => (kb.answer (.resourceExists resource) state).1)
      page.occurrences t.result.value.occurrences
      (v.settlements kb page.occurrences entered) t.problems :=
  page.diagnoses_resolve settings hkb (hkb (.root .documentation) state) h

/-- A table of contents with one chapter, which curates a tutorial three times and one that does
not exist. -/
def curatingPage : Page where
  reference := .ofText "org.example.Kit" "/tutorials/Kit" none (.single "swift")
  source := some "Kit.tutorial"
  content := .contents {
    intro := { title := "Kit", content := [], image := none, video := none }
    volumes := [{
      name := "Basics"
      content := []
      image := some ⟨⟨"org.example.Kit", "basics.png"⟩, none⟩
      chapters := [{
        name := "Start"
        content := []
        image := none
        references := [
          ⟨.parse "doc:First", some ⟨⟨1, 1⟩, ⟨1, 9⟩⟩⟩,
          ⟨.parse "doc:First", some ⟨⟨2, 1⟩, ⟨2, 9⟩⟩⟩,
          ⟨.parse "doc:Second", some ⟨⟨3, 1⟩, ⟨3, 9⟩⟩⟩,
          ⟨.parse "doc:/tutorials/Kit/First", none⟩] }] }] }

/-- Two tutorials are missing from the table of contents afterwards, and one is still not
resolved; the problems say which. -/
theorem resolvePage_diagnoses_of_curating :
    let catalog : Catalog := { pages := ["/tutorials/Kit/First"] }
    let t := (resolvePage {} curatingPage).run Catalog.knowledge catalog
    t.result.stopped = none ∧
      (∃ missing, Occurrence.Pruned curatingPage.occurrences t.result.value.occurrences missing ∧
        missing.map (·.range) = [some ⟨⟨2, 1⟩, ⟨2, 9⟩⟩, none]) ∧
      t.result.value.occurrences.flatMap Occurrence.unresolvedRanges =
        [some ⟨⟨3, 1⟩, ⟨3, 9⟩⟩] := by
  intro catalog t
  have hstopped : t.result.stopped = none := by decide +kernel
  have h := resolvePage_diagnoses {} Catalog.keepsResources curatingPage catalog hstopped
  refine ⟨hstopped, ?_, ?_⟩
  · obtain ⟨missing, hpruned, hplaces⟩ := h.duplicates
    have hranges := congrArg (List.map Prod.fst) hplaces
    rw [List.map_map, List.map_map] at hranges
    exact ⟨missing, hpruned, hranges.symm.trans (by decide +kernel)⟩
  · have hranges := congrArg (List.map Prod.fst) h.unresolvedTopics
    rw [List.map_map, List.map_map] at hranges
    have hid : t.result.value.occurrences.flatMap Occurrence.unresolvedRanges = _ :=
      (List.map_id _).symm
    exact hid.trans (hranges.symm.trans (by decide +kernel))

end Walker

end TopicLinks
