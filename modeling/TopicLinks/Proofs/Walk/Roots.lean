import Mathlib.Data.Stream.Init
import TopicLinks.Proofs.Walk.Certainty

/-!
# Walks that are told roots

A chapter asks for the root of tutorials. If the answer may change from one time to the next, then
what a walk comes to depends on the roots that its chapters are told, one after the other, and on
nothing else. So the roots are taken out of the knowledge base: a walk that is told its roots has
one outcome, and every end that a walk can reach is the one it comes to with some roots that the
knowledge base gives.
-/

namespace TopicLinks

variable {σ α β : Type}

namespace KnowledgeBase

/-- The same knowledge base, but for the root of tutorials: each time it is asked for, it is the
next one of a stream. -/
def telling (kb : KnowledgeBase σ) : KnowledgeBase (Stream' Identity × σ) where
  answer q state :=
    let next := (kb.answer q state.2).2
    match q with
    | .root .tutorials => (state.1.head, (state.1.tail, next))
    | q => ((kb.answer q state.2).1, (state.1, next))

/-- Each root of a stream is one that a knowledge base gives for tutorials, in some state. -/
def Gives (kb : KnowledgeBase σ) (roots : Stream' Identity) : Prop :=
  ∀ n, ∃ state, roots.get n = (kb.answer (.root .tutorials) state).1

theorem Gives.append {kb : KnowledgeBase σ} {before : List Identity} {more : Stream' Identity}
    (hbefore : ∀ root ∈ before, ∃ state, root = (kb.answer (.root .tutorials) state).1)
    (hmore : kb.Gives more) : kb.Gives (before ++ₛ more) := by
  induction before with
  | nil => exact hmore
  | cons root rest ih =>
    obtain ⟨hroot, hrest⟩ := List.forall_mem_cons.mp hbefore
    intro n
    cases n with
    | zero => exact hroot
    | succ n => exact ih hrest n

theorem telling_answer_of_ne (kb : KnowledgeBase σ) {q : Query} (h : q ≠ .root .tutorials)
    (roots : Stream' Identity) (state : σ) :
    kb.telling.answer q (roots, state) =
      ((kb.answer q state).1, (roots, (kb.answer q state).2)) := by
  cases q with
  | root root => cases root <;> first | rfl | exact absurd rfl h
  | _ => rfl

end KnowledgeBase

namespace Dialogue

/-- The dialogue with the roots of tutorials taken from a stream. What is left of the stream comes
with the result. -/
def told (roots : Stream' Identity) : Dialogue α → Dialogue (α × Stream' Identity)
  | .done a => .done (a, roots)
  | .ask (.root .tutorials) next => (next roots.head).told roots.tail
  | .ask q next => .ask q fun answer => (next answer).told roots
  | .report p next => .report p (next.told roots)

section

variable {d : Dialogue α} {roots : Stream' Identity} {q : Query}

theorem told_ask_of_ne (h : q ≠ .root .tutorials) (next : q.Answer → Dialogue α) :
    (ask q next).told roots = .ask q fun answer => (next answer).told roots := by
  cases q with
  | root root => cases root <;> first | rfl | exact absurd rfl h
  | _ => rfl

/-- The second dialogue is told the roots that the first one left. -/
theorem told_bind (f : α → Dialogue β) :
    (d.bind f).told roots = (d.told roots).bind fun ended => (f ended.1).told ended.2 := by
  induction d generalizing roots with
  | done a => rfl
  | report p next ih => exact congrArg (report p) ih
  | ask q next ih =>
    by_cases hq : q = .root .tutorials
    · subst hq
      exact ih roots.head
    · rw [ask_bind, told_ask_of_ne hq, told_ask_of_ne hq, ask_bind]
      exact congrArg (ask q) (funext fun answer => ih answer)

/-- A dialogue that never asks for the root of tutorials leaves all roots. -/
theorem told_of_asks (h : d.Asks (· ≠ .root .tutorials)) :
    d.told roots = d.map fun a => (a, roots) := by
  induction d with
  | done a => rfl
  | report p next ih => exact congrArg (report p) (ih h)
  | ask q next ih =>
    rw [told_ask_of_ne h.1]
    exact congrArg (ask q) (funext fun answer => ih answer (h.2 answer))

end

section

variable {kb : KnowledgeBase σ} {d rest : Dialogue α} {a : α} {problems : List Problem}

/-- A run against the knowledge base that tells the roots comes to what the dialogue comes to that
is told them. -/
theorem ComesTo.run_telling {roots left : Stream' Identity}
    (h : (d.told roots).ComesTo kb (a, left) problems) (state : σ) :
    (d.run kb.telling (roots, state)).result = a ∧
      (d.run kb.telling (roots, state)).problems = problems := by
  induction d generalizing roots problems state with
  | done b =>
    cases h
    exact ⟨rfl, rfl⟩
  | report p next ih =>
    cases h with
    | report _ h =>
      obtain ⟨hresult, hproblems⟩ := ih h state
      exact ⟨hresult, congrArg (p :: ·) hproblems⟩
  | ask q next ih =>
    by_cases hq : q = .root .tutorials
    · subst hq
      exact ih roots.head h (kb.answer (.root .tutorials) state).2
    · rw [told_ask_of_ne hq] at h
      cases h with
      | ask h =>
        simp only [Dialogue.run, kb.telling_answer_of_ne hq]
        exact ih (kb.answer q state).1 (h state) (kb.answer q state).2

/-- The roots that were told on the way to what is left of a dialogue, with any other roots
behind them. -/
theorem Reaches.exists_told (h : d.Reaches kb rest problems) :
    ∃ before : List Identity,
      (∀ root ∈ before, ∃ state, root = (kb.answer (.root .tutorials) state).1) ∧
      ∀ more, (d.told (before ++ₛ more)).Reaches kb (rest.told more) problems := by
  induction h with
  | start => exact ⟨[], fun root hroot => absurd hroot List.not_mem_nil, fun _ => .start⟩
  | @report p next problems h ih =>
    obtain ⟨before, hgiven, hreaches⟩ := ih
    exact ⟨before, hgiven, fun more => (hreaches more).report⟩
  | @answer q next problems h state ih =>
    obtain ⟨before, hgiven, hreaches⟩ := ih
    by_cases hq : q = .root .tutorials
    · subst hq
      let root := (kb.answer (.root .tutorials) state).1
      refine ⟨before ++ [root], fun other hother => ?_, fun more => ?_⟩
      · rcases List.mem_append.mp hother with hother | hother
        · exact hgiven other hother
        · exact ⟨state, List.mem_singleton.mp hother⟩
      · have hnext := hreaches (Stream'.cons root more)
        rw [Stream'.append_append_stream]
        exact hnext
    · refine ⟨before, hgiven, fun more => ?_⟩
      have hasked := hreaches more
      rw [told_ask_of_ne hq] at hasked
      exact hasked.answer state

/-- Every end is one that the dialogue reaches when it is told roots which the knowledge base
gives. -/
theorem Reaches.exists_gives (h : d.Reaches kb (.done a) problems) (state : σ) :
    ∃ roots left, kb.Gives roots ∧ (d.told roots).Reaches kb (.done (a, left)) problems := by
  obtain ⟨before, hgiven, hreaches⟩ := h.exists_told
  let more := Stream'.const (kb.answer (.root .tutorials) state).1
  exact ⟨before ++ₛ more, more, .append hgiven fun _ => ⟨state, rfl⟩, hreaches more⟩

end

theorem isCertain_told_each {kb : KnowledgeBase σ} {f : α → Dialogue β}
    (hf : ∀ a roots, ((f a).told roots).IsCertain kb) (as : List α) (roots : Stream' Identity) :
    ((each f as).told roots).IsCertain kb := by
  induction as generalizing roots with
  | nil => exact isCertain_done ([], roots)
  | cons a as ih =>
    rw [each_cons, told_bind]
    refine (hf a roots).bind fun ended => ?_
    rw [map, told_bind]
    exact (ih ended.2).bind fun _ => isCertain_done _

end Dialogue

open Dialogue

variable {kb : KnowledgeBase σ}

/-- An offer asks for the root of the bundle, and for no other one. -/
theorem PageContent.asks_offer (content : PageContent) :
    content.offer.Asks (· ≠ .root .tutorials) := by
  cases content with
  | tutorial t =>
    change (Viewpoint.offerArchive t.projectFiles).Asks (· ≠ .root .tutorials)
    cases t.projectFiles with
    | none => trivial
    | some archive =>
      refine ⟨nofun, fun root => ⟨nofun, fun asset => ?_⟩⟩
      cases asset with
      | none => trivial
      | some asset => exact ⟨nofun, fun _ => trivial⟩
  | _ => trivial

/-- Settling an occurrence has one outcome once it is told the root. -/
theorem Viewpoint.isCertain_told_settle (v : Viewpoint) (hkb : kb.HasSteadyLookups) (state : σ)
    (occurrence : Occurrence) (roots : Stream' Identity) :
    ((v.settle occurrence).told roots).IsCertain kb := by
  have hlookups : ∀ {α : Type} {d : Dialogue α} {P : Identity → Prop} (roots : Stream' Identity),
      d.Asks (Query.IsLookup P) → (d.told roots).IsCertain kb := by
    intro α d P roots h
    rw [told_of_asks (h.mono fun q hq heq => by rw [heq] at hq; exact hq)]
    exact (isCertain_of_asks hkb state (h.mono fun _ hq => hq.mono fun _ _ => trivial)).map _
  cases occurrence with
  | topic | media => exact hlookups roots (v.asks_settle_of_isPlain rfl)
  | chapter name references =>
    exact hlookups roots.tail ((v.asks_curate name roots.head {} references).map _)

/-- The walk of a page in declared languages has one outcome once it is told its roots. -/
theorem Walker.isCertain_told_resolvePage (hkb : kb.HasSteadyLookups) (state : σ)
    (settings : Settings) {page : Page} (h : page.content.IsDeclared)
    (roots : Stream' Identity) : ((resolvePage settings page).told roots).IsCertain kb := by
  obtain ⟨rebuild, hrebuild⟩ := Page.exists_rebuild h
  have hpage : ((page.resolve settings).told roots).IsCertain kb := by
    rw [hrebuild settings, told_bind]
    refine (isCertain_told_each (fun occurrence roots =>
      (page.viewpoint settings).isCertain_told_settle hkb state occurrence roots) _ _).bind ?_
    intro ended
    rw [told_of_asks (page.content.asks_offer.map _)]
    exact (IsCertain.map _ ⟨_, _, page.content.comesTo_offer kb⟩).map _
  obtain ⟨after, problems, hafter⟩ := hpage
  exact ⟨after, problems, .ask fun _ => hafter⟩

/-- Every end that the walk of a page in declared languages reaches is the one that it comes to
against the knowledge base that tells some of its roots. -/
theorem Walker.exists_run_telling (hkb : kb.HasSteadyLookups) (settings : Settings)
    {page after : Page} {problems : List Problem} (h : page.content.IsDeclared)
    (hreaches : (resolvePage settings page).Reaches kb (.done ⟨after, none⟩) problems)
    (state : σ) :
    ∃ roots, kb.Gives roots ∧ ∀ state,
      let transcript := (resolvePage settings page).run kb.telling (roots, state)
      transcript.result = ⟨after, none⟩ ∧ transcript.problems = problems := by
  obtain ⟨roots, left, hgives, htold⟩ := hreaches.exists_gives state
  obtain ⟨ended, reported, hcomes⟩ := isCertain_told_resolvePage hkb state settings h roots
  obtain ⟨rfl, rfl⟩ := hcomes.eq_of_reaches_done htold
  exact ⟨roots, hgives, fun state => hcomes.run_telling state⟩

end TopicLinks
