import TopicLinks.Resolution.Page

/-!
# Walkers

A walker resolves several things one after the other. It remembers from where links are
resolved, which file they stand in, and the problems that were reported so far. Between two
steps it is also in the scope of an inherited declaration, or in none: symbol pages set a scope
and restore the one before when they are done.
-/

namespace TopicLinks

/-- The state of a walker. -/
structure Walker where
  /-- The policy of the pass. -/
  settings : Settings
  /-- The identity from which links are resolved. -/
  root : Identity
  /-- The file in which links stand. -/
  source : Option String
  /-- The problems so far, in order. -/
  problems : List Problem

namespace Walker

/-- A walker that starts at the root of the documentation and in no file. -/
def start (settings : Settings) : Dialogue Walker := do
  let root ← Dialogue.query (.root .documentation)
  pure { settings, root, source := none, problems := [] }

/-- Resolve links from another identity. -/
def withRoot (w : Walker) (root : Identity) : Walker := { w with root }

/-- Let links stand in another file, or in none. -/
def withSource (w : Walker) (source : Option String) : Walker := { w with source }

/-- Add the problems of a visit after the others. -/
def record (w : Walker) (problems : List Problem) : Walker :=
  { w with problems := w.problems ++ problems }

/-- From where a walker looks at links in the scope of an inherited declaration, or in none. -/
def viewpoint (w : Walker) (scope : Option Inheritance) : Viewpoint where
  settings := w.settings
  source := w.source
  inheritance := scope

/-- How markup on its own is resolved: from the root of the walker, in the scope it is in. -/
def markupVisit (w : Walker) (scope : Option Inheritance) (markup : Markup) : Dialogue Markup :=
  (w.viewpoint scope).resolveMarkup w.root markup

/-- The walker for a page: it resolves from the page's identity, in the page's file. -/
def entering (w : Walker) (page : Page) : Walker :=
  { w with root := page.reference, source := page.source }

/-- How the content of a page is resolved: from the root of the walker, in the scope it is in. -/
def pageVisit (w : Walker) (scope : Option Inheritance) (page : Page) :
    Dialogue (Progress Page) := do
  let progress ← (w.viewpoint scope).resolveContent w.root page.content
  pure (progress.map fun content => { page with content })

/-- The scope after the content of a page. A symbol page sets its own and restores the one before
at its end, which a walk that stops does not reach. -/
def scopeAfter (before : Option Inheritance) (content : PageContent)
    (stopped : Option UndeclaredLanguage) : Option Inheritance :=
  match content, stopped with
  | .symbol page, some _ => page.docComment.bind Viewpoint.inheritanceOf
  | _, _ => before

/-- What a visit came to: its transcript, and the walker and its scope after it. -/
structure Visit (σ α : Type) where
  /-- The walker after the visit. -/
  walker : Walker
  /-- The scope in which the walker is left. -/
  scope : Option Inheritance
  /-- The result, the queries and the problems of the visit. -/
  transcript : Transcript σ α

/-- Resolve markup on its own. -/
def visitMarkup {σ : Type} (kb : KnowledgeBase σ) (w : Walker) (scope : Option Inheritance)
    (markup : Markup) (state : σ) : Visit σ Markup :=
  let transcript := (w.markupVisit scope markup).run kb state
  ⟨w.record transcript.problems, scope, transcript⟩

/-- Resolve a page. It is entered in no scope, whatever the scope was before. -/
def visitPage {σ : Type} (kb : KnowledgeBase σ) (w : Walker) (page : Page) (state : σ) :
    Visit σ (Progress Page) :=
  let entered := w.entering page
  let transcript := (entered.pageVisit none page).run kb state
  ⟨entered.record transcript.problems,
    scopeAfter none page.content transcript.result.stopped, transcript⟩

/-- Resolve a page with a walker of its own, which asks for the root of the documentation before
it enters the page. -/
def resolvePage (settings : Settings) (page : Page) : Dialogue (Progress Page) := do
  let w ← start settings
  page.resolve w.settings

/-- A step of a walk. -/
inductive Step where
  /-- Resolve from another identity. -/
  | withRoot (root : Identity)
  /-- Stand in another file, or in none. -/
  | withSource (source : Option String)
  /-- Resolve markup on its own. -/
  | markup (markup : Markup)
  /-- Resolve a page. -/
  | page (page : Page)

/-- What a step came to. -/
inductive StepResult where
  /-- Nothing. -/
  | nothing
  /-- Markup on its own. -/
  | markup (markup : Markup)
  /-- A page, as far as it could be resolved. -/
  | page (progress : Progress Page)

/-- Carry out one step of a walker in a scope. -/
def step {σ : Type} (kb : KnowledgeBase σ) (w : Walker) (scope : Option Inheritance) (state : σ) :
    Step → Visit σ StepResult
  | .withRoot root => ⟨w.withRoot root, scope, ⟨.nothing, [], [], state⟩⟩
  | .withSource source => ⟨w.withSource source, scope, ⟨.nothing, [], [], state⟩⟩
  | .markup markup =>
    let visit := w.visitMarkup kb scope markup state
    ⟨visit.walker, visit.scope,
      { visit.transcript with result := .markup visit.transcript.result }⟩
  | .page page =>
    let visit := w.visitPage kb page state
    ⟨visit.walker, visit.scope,
      { visit.transcript with result := .page visit.transcript.result }⟩

/-- Carry out steps in order, from a walker in a scope. -/
def stepsIn {σ : Type} (kb : KnowledgeBase σ) (w : Walker) (scope : Option Inheritance)
    (state : σ) : List Step → List (Visit σ StepResult)
  | [] => []
  | s :: rest =>
    let visit := w.step kb scope state s
    visit :: stepsIn kb visit.walker visit.scope visit.transcript.state rest

/-- Carry out steps in order. A new walker is in no scope. -/
def steps {σ : Type} (kb : KnowledgeBase σ) (w : Walker) (state : σ) (script : List Step) :
    List (Visit σ StepResult) :=
  w.stepsIn kb none state script

end Walker

end TopicLinks
