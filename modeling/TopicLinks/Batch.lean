import TopicLinks.Walker

/-!
# Batches

Several workers resolve the pages of a batch. They take pages from one queue, talk to one
knowledge base query by query, and send their results back. A schedule tells which worker
acts next; whatever it leaves undone, the workers finish one after the other. A worker
that meets a variant in an undeclared language breaks down and takes no more pages.
-/

namespace TopicLinks

/-- A page after its resolution, with the problems found in it. -/
structure ResolvedPage where
  /-- The page. -/
  page : Page
  /-- Its problems, in order. -/
  problems : List Problem

namespace Batch

/-- A page and its index in the batch. -/
abbrev Job := Nat × Page

/-- What a worker is doing. -/
inductive Worker where
  /-- It is about to take a page. -/
  | idle
  /-- It is resolving a page and has reported some problems. -/
  | busy (index : Nat) (rest : Dialogue (Progress Page)) (problems : List Problem)
  /-- It found the queue empty. -/
  | finished
  /-- It broke down. -/
  | broken (cause : UndeclaredLanguage)

/-- The state of a batch. -/
structure State (σ : Type) where
  /-- The pages that no worker has taken. -/
  queue : List Job
  /-- The workers. -/
  workers : List Worker
  /-- The results, in the order in which they were sent. -/
  results : List (Nat × ResolvedPage)
  /-- The state of the knowledge base. -/
  knowledge : σ

variable {σ : Type}

/-- The state of one worker together with what all workers share. -/
structure Desk (σ : Type) where
  /-- The worker. -/
  worker : Worker
  /-- The pages that no worker has taken. -/
  queue : List Job
  /-- The results so far. -/
  results : List (Nat × ResolvedPage)
  /-- The state of the knowledge base. -/
  knowledge : σ

/-- The end of a page: a result is sent, unless the page made the worker break down. -/
def Desk.close (desk : Desk σ) (index : Nat) (progress : Progress Page)
    (problems : List Problem) : Desk σ :=
  match progress.stopped with
  | some cause => { desk with worker := .broken cause }
  | none =>
    { desk with
      worker := .idle
      results := desk.results ++ [(index, ⟨progress.value, problems⟩)] }

/-- One action of a worker: take a page, ask a query, report a problem, or send a result. -/
def Desk.act (settings : Settings) (kb : KnowledgeBase σ) (desk : Desk σ) : Desk σ :=
  match desk.worker with
  | .idle =>
    match desk.queue with
    | [] => { desk with worker := .finished }
    | (index, page) :: queue =>
      { desk with worker := .busy index (Walker.resolvePage settings page) [], queue }
  | .busy index (.done progress) problems => desk.close index progress problems
  | .busy index (.ask q next) problems =>
    let (answer, knowledge) := kb.answer q desk.knowledge
    { desk with worker := .busy index (next answer) problems, knowledge }
  | .busy index (.report p next) problems =>
    { desk with worker := .busy index next (problems ++ [p]) }
  | .finished => desk
  | .broken _ => desk

/-- Finish the page at hand. -/
def Desk.finishPage (kb : KnowledgeBase σ) (desk : Desk σ) : Desk σ :=
  match desk.worker with
  | .busy index rest problems =>
    let transcript := rest.run kb desk.knowledge
    { desk with knowledge := transcript.state }.close index transcript.result
      (problems ++ transcript.problems)
  | _ => desk

/-- Work through the queue until it is empty or the worker breaks down. -/
def workThrough (settings : Settings) (kb : KnowledgeBase σ)
    (results : List (Nat × ResolvedPage)) (knowledge : σ) : List Job → Desk σ
  | [] => ⟨.finished, [], results, knowledge⟩
  | (index, page) :: queue =>
    let desk := (Desk.mk (.busy index (Walker.resolvePage settings page) []) queue results
      knowledge).finishPage kb
    match desk.worker with
    | .idle => workThrough settings kb desk.results desk.knowledge queue
    | _ => desk

/-- All that is left to one worker: the page at hand, then the queue. -/
def Desk.finish (settings : Settings) (kb : KnowledgeBase σ) (desk : Desk σ) : Desk σ :=
  let desk := desk.finishPage kb
  match desk.worker with
  | .idle => workThrough settings kb desk.results desk.knowledge desk.queue
  | _ => desk

/-- Let one worker act on the shared state. A worker that does not exist does nothing. -/
def State.at (state : State σ) (index : Nat) (act : Desk σ → Desk σ) : State σ :=
  match state.workers[index]? with
  | none => state
  | some worker =>
    let desk := act ⟨worker, state.queue, state.results, state.knowledge⟩
    { queue := desk.queue
      workers := state.workers.set index desk.worker
      results := desk.results
      knowledge := desk.knowledge }

/-- How many workers a batch gets: at most one for each page, and at least one. -/
def workerCount (workers pages : Nat) : Nat := min workers (max pages 1)

/-- The state at the start of a batch. -/
def State.start (pages : List Page) (workers : Nat) (knowledge : σ) : State σ where
  queue := pages.zipIdx.map (fun entry => (entry.2, entry.1))
  workers := List.replicate (workerCount workers pages.length) .idle
  results := []
  knowledge

/-- Follow a schedule, then let the workers finish in order. -/
def State.complete (settings : Settings) (kb : KnowledgeBase σ) (state : State σ)
    (schedule : List Nat) : State σ :=
  let acted := schedule.foldl (fun state index => state.at index (·.act settings kb)) state
  (List.range acted.workers.length).foldl
    (fun state index => state.at index (·.finish settings kb)) acted

/-- How a batch ends. -/
inductive Outcome where
  /-- Every page was resolved; the results are in the order of the pages. -/
  | resolved (pages : List ResolvedPage)
  /-- The worker of an index broke down. -/
  | workerBroke (worker : Nat)
  /-- A worker broke down after the first one that did, and nobody asked it how it ended:
  the batch breaks down with it. -/
  | unattended

/-- A worker that broke down. -/
def Worker.isBroken : Worker → Bool
  | .broken _ => true
  | _ => false

/-- The results in the order of the pages. -/
def inPageOrder (results : List (Nat × ResolvedPage)) : List ResolvedPage :=
  (results.mergeSort (fun a b => a.1 ≤ b.1)).map (·.2)

/-- The end of a batch. The workers are asked in order how they ended, and the first one
that broke down ends the questions. -/
def State.outcome (state : State σ) : Outcome :=
  match state.workers.findIdx? Worker.isBroken with
  | none => .resolved (inPageOrder state.results)
  | some first =>
    if (state.workers.drop (first + 1)).any Worker.isBroken then .unattended
    else .workerBroke first

/-- The text of an outcome that is no result. -/
def Outcome.message : Outcome → String
  | .resolved _ => ""
  | .workerBroke worker => "resolution worker " ++ toString worker ++ " panicked"
  | .unattended => "a scoped thread panicked"

/-- Resolve the pages of a batch. -/
def resolve (settings : Settings) (kb : KnowledgeBase σ) (pages : List Page) (workers : Nat)
    (schedule : List Nat) (knowledge : σ) : State σ :=
  (State.start pages workers knowledge).complete settings kb schedule

end Batch

end TopicLinks
