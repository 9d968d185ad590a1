import TopicLinks.Catalog
import TopicLinks.Walker
import TopicLinks.Proofs.Walk.Lookups
import TopicLinks.Proofs.Walk.Rebuilding

/-!
# Walks with one outcome

A knowledge base is steady when its look-ups do not depend on its state. Against such a knowledge
base a walk comes to one result and one list of problems, however its state changes between two
queries. That makes walks safe to interleave: other walks may change assets in the meantime, and
offering an archive for download is the only place where that can be seen.
-/

namespace TopicLinks

variable {σ α β : Type}

/-- The look-ups by which references are settled are functions of their arguments, whatever the
roots are. Nothing is asked of assets. -/
structure KnowledgeBase.HasSteadyLookups (kb : KnowledgeBase σ) : Prop where
  /-- A link that is seen from one parent always means the same. -/
  resolve : ∀ link parent fromSymbolLink s t,
    (kb.answer (.resolve link parent fromSymbolLink) s).1 =
      (kb.answer (.resolve link parent fromSymbolLink) t).1
  /-- A resource always exists, or never. -/
  resourceExists : ∀ resource s t,
    (kb.answer (.resourceExists resource) s).1 = (kb.answer (.resourceExists resource) t).1
  /-- A path always matches the same article. -/
  uncuratedMatch : ∀ path s t,
    (kb.answer (.uncuratedMatch path) s).1 = (kb.answer (.uncuratedMatch path) t).1

/-- The look-ups are functions of their arguments, and the root of tutorials never changes. -/
structure KnowledgeBase.IsSteady (kb : KnowledgeBase σ) : Prop extends kb.HasSteadyLookups where
  /-- Tutorials are always looked up from the same root. -/
  tutorialsRoot : ∀ s t, (kb.answer (.root .tutorials) s).1 = (kb.answer (.root .tutorials) t).1

namespace Dialogue

/-- A dialogue comes to a result and to problems, in whichever states its queries are answered. -/
inductive ComesTo (kb : KnowledgeBase σ) : Dialogue α → α → List Problem → Prop where
  /-- The end comes to its result. -/
  | done (result : α) : ComesTo kb (.done result) result []
  /-- A query may be answered in any state. -/
  | ask {q : Query} {next : q.Answer → Dialogue α} {result : α} {problems : List Problem}
    (h : ∀ state, ComesTo kb (next (kb.answer q state).1) result problems) :
    ComesTo kb (.ask q next) result problems
  /-- A report comes before the problems that follow. -/
  | report (p : Problem) {next : Dialogue α} {result : α} {problems : List Problem}
    (h : ComesTo kb next result problems) : ComesTo kb (.report p next) result (p :: problems)

/-- The outcome of a dialogue does not depend on the states in which its queries are answered. -/
def IsCertain (kb : KnowledgeBase σ) (d : Dialogue α) : Prop :=
  ∃ result problems, d.ComesTo kb result problems

/-- What is left of a dialogue, and the problems so far, after some of its queries were answered,
each in a state of its own. -/
inductive Reaches (kb : KnowledgeBase σ) (d : Dialogue α) : Dialogue α → List Problem → Prop where
  /-- At the start all is left. -/
  | start : Reaches kb d d []
  /-- A query is answered in some state. -/
  | answer {q : Query} {next : q.Answer → Dialogue α} {problems : List Problem}
    (h : Reaches kb d (.ask q next) problems) (state : σ) :
    Reaches kb d (next (kb.answer q state).1) problems
  /-- A problem is reported. -/
  | report {p : Problem} {next : Dialogue α} {problems : List Problem}
    (h : Reaches kb d (.report p next) problems) : Reaches kb d next (problems ++ [p])

section

variable {kb : KnowledgeBase σ} {d rest : Dialogue α} {a : α} {problems : List Problem}

theorem ComesTo.bind {f : α → Dialogue β} {b : β} {more : List Problem}
    (hd : d.ComesTo kb a problems) (hf : (f a).ComesTo kb b more) :
    (d.bind f).ComesTo kb b (problems ++ more) := by
  induction hd with
  | done a => exact hf
  | ask h ih => exact .ask fun state => ih state hf
  | report p h ih => exact .report p (ih hf)

theorem ComesTo.map (f : α → β) (hd : d.ComesTo kb a problems) :
    (d.map f).ComesTo kb (f a) problems := by
  have hmap : (d.map f).ComesTo kb (f a) (problems ++ []) := hd.bind (.done (f a))
  rwa [List.append_nil] at hmap

/-- A run comes to the same as any other run. -/
theorem ComesTo.run (hd : d.ComesTo kb a problems) (state : σ) :
    (d.run kb state).result = a ∧ (d.run kb state).problems = problems := by
  induction hd generalizing state with
  | done a => exact ⟨rfl, rfl⟩
  | @ask q next a problems h ih => exact ih state (kb.answer q state).2
  | report p h ih =>
    obtain ⟨hresult, hproblems⟩ := ih state
    exact ⟨hresult, congrArg (p :: ·) hproblems⟩

/-- Whatever is left of a dialogue still comes to the same. -/
theorem ComesTo.of_reaches {reported : List Problem} (hd : d.ComesTo kb a problems)
    (h : d.Reaches kb rest reported) :
    ∃ more, problems = reported ++ more ∧ rest.ComesTo kb a more := by
  induction h with
  | start => exact ⟨problems, rfl, hd⟩
  | answer h state ih =>
    obtain ⟨more, hproblems, hrest⟩ := ih
    cases hrest with
    | ask hnext => exact ⟨more, hproblems, hnext state⟩
  | @report p next reported h ih =>
    obtain ⟨_, hproblems, hrest⟩ := ih
    cases hrest with
    | report _ hnext => exact ⟨_, hproblems.trans (List.append_cons reported p _), hnext⟩

/-- The end that is reached is the one that a dialogue comes to. -/
theorem ComesTo.eq_of_reaches_done {b : α} {reported : List Problem}
    (hd : d.ComesTo kb a problems) (h : d.Reaches kb (.done b) reported) :
    b = a ∧ reported = problems := by
  obtain ⟨more, rfl, hdone⟩ := hd.of_reaches h
  cases hdone
  exact ⟨rfl, (List.append_nil reported).symm⟩

/-- A property of all ends is one of the ends that are left. -/
theorem Returns.of_reaches {P : α → Prop} (hd : Returns P d) (h : d.Reaches kb rest problems) :
    Returns P rest := by
  induction h with
  | start => exact hd
  | answer h state ih => exact ih _
  | report h ih => exact ih

theorem isCertain_done (a : α) : (done a).IsCertain kb := ⟨a, [], .done a⟩

theorem isCertain_report (p : Problem) (hd : d.IsCertain kb) : (report p d).IsCertain kb := by
  obtain ⟨a, problems, h⟩ := hd
  exact ⟨a, p :: problems, .report p h⟩

theorem IsCertain.bind {f : α → Dialogue β} (hd : d.IsCertain kb)
    (hf : ∀ a, (f a).IsCertain kb) : (d.bind f).IsCertain kb := by
  obtain ⟨a, problems, ha⟩ := hd
  obtain ⟨b, more, hb⟩ := hf a
  exact ⟨b, problems ++ more, ha.bind hb⟩

theorem IsCertain.map (f : α → β) (hd : d.IsCertain kb) : (d.map f).IsCertain kb :=
  hd.bind fun a => isCertain_done (f a)

theorem isCertain_each {f : α → Dialogue β} {as : List α} (hf : ∀ a ∈ as, (f a).IsCertain kb) :
    (each f as).IsCertain kb := by
  induction as with
  | nil => exact isCertain_done []
  | cons a as ih =>
    obtain ⟨hfirst, hrest⟩ := List.forall_mem_cons.mp hf
    exact hfirst.bind fun b => (ih hrest).map (b :: ·)

/-- Look-ups have one answer each, so a dialogue of look-ups has one outcome. -/
theorem isCertain_of_asks (hkb : kb.HasSteadyLookups) (state : σ)
    (h : d.Asks (Query.IsLookup fun _ => True)) : d.IsCertain kb := by
  induction d with
  | done a => exact isCertain_done a
  | report p next ih => exact isCertain_report p (ih h)
  | ask q next ih =>
    obtain ⟨hq, hnext⟩ := h
    have hsame : ∀ other, (kb.answer q other).1 = (kb.answer q state).1 := by
      intro other
      cases q with
      | resolve link parent fromSymbolLink =>
        exact hkb.resolve link parent fromSymbolLink other state
      | resourceExists resource => exact hkb.resourceExists resource other state
      | uncuratedMatch path => exact hkb.uncuratedMatch path other state
      | _ => exact absurd hq id
    obtain ⟨a, problems, ha⟩ := ih (kb.answer q state).1 (hnext _)
    refine ⟨a, problems, .ask fun other => ?_⟩
    rw [hsame other]
    exact ha

end

end Dialogue

namespace Viewpoint

open Dialogue

variable {kb : KnowledgeBase σ} (v : Viewpoint)

/-- Resolving a topic reference has one outcome. -/
theorem isCertain_resolveTopic (hkb : kb.HasSteadyLookups) (state : σ) (parent : Identity)
    (range : Option SourceRange) (fromSymbolLink : Bool) (topic : Topic) :
    (v.resolveTopic parent range fromSymbolLink topic).IsCertain kb :=
  isCertain_of_asks hkb state ((v.asks_resolveTopic parent range fromSymbolLink topic).mono
    fun _ hq => hq.mono fun _ _ => trivial)

/-- Checking a medium has one outcome. -/
theorem isCertain_checkMedia (hkb : kb.HasSteadyLookups) (state : σ) (file : Media) :
    (v.checkMedia file).IsCertain kb :=
  isCertain_of_asks hkb state (v.asks_checkMedia _ file)

/-- Curating the references of a chapter from one root has one outcome. -/
theorem isCertain_curate (hkb : kb.HasSteadyLookups) (state : σ) (chapter : String)
    (root : Identity) (seen : Curation) (references : List TutorialReference) :
    (v.curate chapter root seen references).IsCertain kb :=
  isCertain_of_asks hkb state ((v.asks_curate chapter root seen references).mono
    fun _ hq => hq.mono fun _ _ => trivial)

/-- Settling a plain occurrence has one outcome. -/
theorem isCertain_settle_of_isPlain (hkb : kb.HasSteadyLookups) (state : σ)
    {occurrence : Occurrence} (h : occurrence.isPlain = true) :
    (v.settle occurrence).IsCertain kb :=
  isCertain_of_asks hkb state (v.asks_settle_of_isPlain h)

/-- Settling an occurrence has one outcome if there is one root of tutorials. -/
theorem isCertain_settle (hkb : kb.IsSteady) (state : σ) (occurrence : Occurrence) :
    (v.settle occurrence).IsCertain kb := by
  cases occurrence with
  | topic | media => exact v.isCertain_settle_of_isPlain hkb.toHasSteadyLookups state rfl
  | chapter name references =>
    let root := (kb.answer (.root .tutorials) state).1
    obtain ⟨kept, problems, hkept⟩ :=
      v.isCertain_curate hkb.toHasSteadyLookups state name root {} references
    refine ⟨.chapter name kept, problems, .ask fun other => ?_⟩
    rw [hkb.tutorialsRoot other state]
    exact hkept.map _

end Viewpoint

/-- An offer ends in one way, whatever asset it finds. -/
theorem PageContent.comesTo_offer (kb : KnowledgeBase σ) (content : PageContent) :
    content.offer.ComesTo kb () [] := by
  cases content with
  | tutorial t =>
    change (Viewpoint.offerArchive t.projectFiles).ComesTo kb () []
    cases t.projectFiles with
    | none => exact .done ()
    | some archive =>
      simp only [Viewpoint.offerArchive, Viewpoint.offerDownload, Dialogue.query,
        Dialogue.bind_eq, Dialogue.ask_bind, Dialogue.done_bind]
      refine .ask fun s => .ask fun s' => ?_
      split
      · exact .done ()
      · exact .ask fun _ => .done ()
  | _ => exact .done ()

/-- The walk of a page in declared languages comes to one page and one list of problems, if
look-ups are steady and the page has no chapter or there is one root of tutorials. -/
theorem Page.exists_comesTo {kb : KnowledgeBase σ} (hkb : kb.HasSteadyLookups) (state : σ)
    (settings : Settings) {page : Page} (h : page.content.IsDeclared)
    (hroot : kb.IsSteady ∨ ∀ occurrence ∈ page.occurrences, occurrence.isPlain = true) :
    ∃ after problems, (page.resolve settings).ComesTo kb ⟨after, none⟩ problems := by
  obtain ⟨rebuild, hrebuild⟩ := Page.exists_rebuild h
  have hcertain : ∀ occurrence ∈ page.occurrences,
      ((page.viewpoint settings).settle occurrence).IsCertain kb := by
    intro occurrence hoccurrence
    rcases hroot with hsteady | hplain
    · exact (page.viewpoint settings).isCertain_settle hsteady state occurrence
    · exact (page.viewpoint settings).isCertain_settle_of_isPlain hkb state
        (hplain occurrence hoccurrence)
  obtain ⟨settled, problems, hsettled⟩ := Dialogue.isCertain_each hcertain
  refine ⟨rebuild settled, problems ++ ([] ++ []), ?_⟩
  rw [hrebuild settings]
  exact hsettled.bind ((page.content.comesTo_offer kb).bind (.done _))

/-- A catalog in which only the assets can change. -/
def Catalog.fixed (catalog : Catalog) : KnowledgeBase (List (String × Asset)) where
  answer q assets :=
    let (answer, next) := Catalog.answer q { catalog with assets }
    (answer, next.assets)

/-- A catalog looks up pages, resources and uncurated articles whatever its assets are. -/
theorem Catalog.isSteady_fixed (catalog : Catalog) : catalog.fixed.IsSteady where
  resolve _ _ _ _ _ := rfl
  resourceExists _ _ _ := rfl
  uncuratedMatch _ _ _ := rfl
  tutorialsRoot _ _ := rfl

end TopicLinks
