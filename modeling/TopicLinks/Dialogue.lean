import TopicLinks.Problem
import TopicLinks.Resource
import TopicLinks.Topic

/-!
# Dialogues with a knowledge base

What exists is decided by a knowledge base. Resolving is a dialogue with it: the
resolver asks queries, goes on with the answers, and reports problems on the way. A
dialogue is data, so it can be run against any knowledge base, and several dialogues
can be interleaved query by query.
-/

namespace TopicLinks

/-- Why a topic link did not resolve. -/
structure ResolutionFailure where
  /-- An explanation, which may be empty. -/
  message : String
  /-- The link as the knowledge base understood it. -/
  link : AuthoredLink
  deriving DecidableEq

/-- The places from which links may be resolved when no page is given. -/
inductive Root where
  /-- The root of the bundle. -/
  | bundle
  /-- The root of articles and symbols. -/
  | documentation
  /-- The root of tutorials. -/
  | tutorials
  deriving DecidableEq

/-- What can be asked. -/
inductive Query where
  /-- Which topic does a link mean, seen from a parent? -/
  | resolve (link : AuthoredLink) (parent : Identity) (fromSymbolLink : Bool)
  /-- Does a resource exist? -/
  | resourceExists (resource : Resource)
  /-- Where is an article that matches a path but is not curated? -/
  | uncuratedMatch (path : String)
  /-- Which identity is a root? -/
  | root (root : Root)
  /-- Which asset has a name? -/
  | findAsset (name : String) (root : Identity)
  /-- Replace the asset stored under a name. -/
  | updateAsset (name : String) (asset : Asset) (root : Identity)
  deriving DecidableEq

/-- The type of the answer to a query. -/
abbrev Query.Answer : Query → Type
  | .resolve _ _ _ => Except ResolutionFailure Identity
  | .resourceExists _ => Bool
  | .uncuratedMatch _ => Option SourceLocation
  | .root _ => Identity
  | .findAsset _ _ => Option Asset
  | .updateAsset _ _ _ => Unit

/-- A knowledge base answers each query and may change its state with it. One that breaks down over
a query instead of answering it is left out. -/
structure KnowledgeBase (σ : Type) where
  /-- The answer to a query, and the state after it. -/
  answer : (q : Query) → σ → q.Answer × σ

/-- A computation that asks queries and reports problems. -/
inductive Dialogue (α : Type) where
  /-- The end, with a result. -/
  | done (result : α)
  /-- Ask a query and go on with its answer. -/
  | ask (q : Query) (next : q.Answer → Dialogue α)
  /-- Report a problem and go on. -/
  | report (problem : Problem) (next : Dialogue α)

/-- What a dialogue came to. -/
structure Transcript (σ α : Type) where
  /-- The result. -/
  result : α
  /-- The queries, in the order in which they were asked. -/
  calls : List Query
  /-- The problems, in the order in which they were reported. -/
  problems : List Problem
  /-- The state of the knowledge base afterwards. -/
  state : σ

namespace Dialogue

variable {α β γ σ : Type}

/-- Go on with another dialogue after the end of the first one. -/
def bind : Dialogue α → (α → Dialogue β) → Dialogue β
  | .done a, f => f a
  | .ask q next, f => .ask q (fun answer => (next answer).bind f)
  | .report p next, f => .report p (next.bind f)

instance : Monad Dialogue where
  pure := .done
  bind := bind

/-- Ask one query. -/
def query (q : Query) : Dialogue q.Answer := .ask q .done

/-- Report one problem. -/
def tell (p : Problem) : Dialogue Unit := .report p (.done ())

/-- Carry out a dialogue for each element of a list, in order. -/
def each (f : α → Dialogue β) : List α → Dialogue (List β)
  | [] => pure []
  | a :: rest => do
    let b ← f a
    let bs ← each f rest
    pure (b :: bs)

/-- Carry out a dialogue for a value that may be missing. -/
def maybe (f : α → Dialogue β) : Option α → Dialogue (Option β)
  | none => pure none
  | some a => do
    let b ← f a
    pure (some b)

/-- Run a dialogue against a knowledge base. -/
def run (kb : KnowledgeBase σ) : Dialogue α → σ → Transcript σ α
  | .done a, state => ⟨a, [], [], state⟩
  | .ask q next, state =>
    let (answer, state) := kb.answer q state
    let after := (next answer).run kb state
    { after with calls := q :: after.calls }
  | .report p next, state =>
    let after := next.run kb state
    { after with problems := p :: after.problems }

@[simp] theorem pure_eq (a : α) : (pure a : Dialogue α) = .done a := rfl

@[simp] theorem bind_eq (d : Dialogue α) (f : α → Dialogue β) : (d >>= f) = d.bind f := rfl

@[simp] theorem done_bind (a : α) (f : α → Dialogue β) : (done a).bind f = f a := rfl

@[simp] theorem ask_bind (q : Query) (next : q.Answer → Dialogue α) (f : α → Dialogue β) :
    (ask q next).bind f = .ask q (fun answer => (next answer).bind f) := rfl

@[simp] theorem report_bind (p : Problem) (next : Dialogue α) (f : α → Dialogue β) :
    (report p next).bind f = .report p (next.bind f) := rfl

@[simp] theorem bind_done (d : Dialogue α) : d.bind .done = d := by
  induction d with
  | done a => rfl
  | ask q next ih => simp [ih]
  | report p next ih => simp [ih]

theorem bind_assoc (d : Dialogue α) (f : α → Dialogue β) (g : β → Dialogue γ) :
    (d.bind f).bind g = d.bind (fun a => (f a).bind g) := by
  induction d with
  | done a => rfl
  | ask q next ih => simp [ih]
  | report p next ih => simp [ih]

/-- Running two dialogues one after the other joins their transcripts. -/
theorem run_bind (kb : KnowledgeBase σ) (d : Dialogue α) (f : α → Dialogue β) (state : σ) :
    (d.bind f).run kb state =
      let first := d.run kb state
      let second := (f first.result).run kb first.state
      ⟨second.result, first.calls ++ second.calls, first.problems ++ second.problems,
        second.state⟩ := by
  induction d generalizing state with
  | done a => rfl
  | ask q next ih => simp [run, ih]
  | report p next ih => simp [run, ih]

end Dialogue

end TopicLinks
