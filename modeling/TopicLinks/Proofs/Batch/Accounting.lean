import Mathlib.Data.List.Perm.Basic
import TopicLinks.Proofs.Batch.Schedules
import TopicLinks.Proofs.Walk.Certainty

/-!
# Every page is somewhere

At any time each page of a batch is in exactly one place: in the queue, in the hands of a worker,
among the results, or lost with a worker that broke down over it. A single action moves at most
one page, so the account is kept along every schedule. It says nothing of the order of the
actions, and nothing of the answers of the knowledge base.
-/

namespace TopicLinks.Batch

variable {σ : Type} {settings : Settings} {kb : KnowledgeBase σ} {pages : List Page}

/-- The index of the page that a worker has in hand. -/
def Worker.index? : Worker → Option Nat
  | .busy index _ _ => some index
  | _ => none

/-- The walk of a page of the batch leads to what is left of it, after some problems. -/
def Reached (settings : Settings) (kb : KnowledgeBase σ) (pages : List Page) (index : Nat)
    (rest : Dialogue (Progress Page)) (problems : List Problem) : Prop :=
  ∃ page, pages[index]? = some page ∧
    (Walker.resolvePage settings page).Reaches kb rest problems

/-- A worker has come as far with its page as some answers lead, and it has finished only if the
queue is empty. -/
def Worker.Fits (settings : Settings) (kb : KnowledgeBase σ) (pages : List Page)
    (queue : List Job) : Worker → Prop
  | .busy index rest problems => Reached settings kb pages index rest problems
  | .finished => queue = []
  | _ => True

/-- The account of a batch: which pages are lost, and that every page is in its place. -/
structure State.Accounts (settings : Settings) (kb : KnowledgeBase σ) (pages : List Page)
    (state : State σ) (lost : List Nat) : Prop where
  /-- The queue holds pages of the batch under their indices. -/
  queue : ∀ job ∈ state.queue, pages[job.1]? = some job.2
  /-- Every worker works on its page. -/
  workers : ∀ worker ∈ state.workers, worker.Fits settings kb pages state.queue
  /-- Every result is an end of the walk of its page. -/
  results : ∀ result ∈ state.results,
    Reached settings kb pages result.1 (.done ⟨result.2.page, none⟩) result.2.problems
  /-- The walk of a page that is lost stopped part way. -/
  stopped : ∀ index ∈ lost, ∃ value cause problems,
    Reached settings kb pages index (.done ⟨value, some cause⟩) problems
  /-- As many pages are lost as workers broke down. -/
  broken : lost.length = state.workers.countP Worker.isBroken
  /-- Every page is in one place. -/
  everywhere : (state.queue.map (·.1) ++ state.workers.filterMap Worker.index? ++
    state.results.map (·.1) ++ lost).Perm (List.range pages.length)

/-- The places are a list of numbers each; what one worker moves is moved among them all. -/
private theorem perm_of_desk {queue queue' before hand hand' after results results' lost lost'
    all : List Nat}
    (h : (queue ++ (before ++ (hand ++ after)) ++ results ++ lost).Perm all)
    (hmoved : (queue ++ hand ++ results ++ lost).Perm (queue' ++ hand' ++ results' ++ lost')) :
    (queue' ++ (before ++ (hand' ++ after)) ++ results' ++ lost').Perm all := by
  rw [List.perm_iff_count] at h hmoved ⊢
  intro index
  have hall := h index
  have hsome := hmoved index
  simp only [List.count_append] at hall hsome ⊢
  omega

namespace State.Accounts

variable {before after : List Worker} {queue : List Job} {results : List (Nat × ResolvedPage)}
  {knowledge : σ} {lost : List Nat}

/-- A desk and a list of lost pages, seen by themselves: what an action has to keep. -/
theorem of_desk {worker worker' : Worker} {queue' : List Job}
    {results' : List (Nat × ResolvedPage)} {knowledge' : σ} {lost' : List Nat}
    (h : (Desk.among before after ⟨worker, queue, results, knowledge⟩).Accounts settings kb pages
      lost)
    (hqueue : ∀ job ∈ queue', job ∈ queue)
    (hworker : worker'.Fits settings kb pages queue')
    (hresults : ∀ result ∈ results', result ∈ results ∨
      Reached settings kb pages result.1 (.done ⟨result.2.page, none⟩) result.2.problems)
    (hlost : ∀ index ∈ lost', index ∈ lost ∨ ∃ value cause problems,
      Reached settings kb pages index (.done ⟨value, some cause⟩) problems)
    (hbroken : lost'.length + [worker].countP Worker.isBroken =
      lost.length + [worker'].countP Worker.isBroken)
    (hmoved : (queue.map (·.1) ++ worker.index?.toList ++ results.map (·.1) ++ lost).Perm
      (queue'.map (·.1) ++ worker'.index?.toList ++ results'.map (·.1) ++ lost')) :
    (Desk.among before after ⟨worker', queue', results', knowledge'⟩).Accounts settings kb pages
      lost' := by
  have hothers : ∀ other ∈ before ++ after, other.Fits settings kb pages queue' := by
    intro other hother
    have hfits := h.workers other (by
      rcases List.mem_append.mp hother with hother | hother
      · exact List.mem_append_left _ hother
      · exact List.mem_append_right _ (List.mem_cons_of_mem _ hother))
    cases other with
    | idle => trivial
    | busy index rest problems => exact hfits
    | finished =>
      have hnil : queue = [] := hfits
      exact List.eq_nil_iff_forall_not_mem.mpr fun job hjob =>
        absurd (hnil ▸ hqueue job hjob) List.not_mem_nil
    | broken cause => trivial
  constructor
  · exact fun job hjob => h.queue job (hqueue job hjob)
  · intro other hother
    rcases List.mem_append.mp hother with hother | hother
    · exact hothers other (List.mem_append_left _ hother)
    · rcases List.mem_cons.mp hother with rfl | hother
      · exact hworker
      · exact hothers other (List.mem_append_right _ hother)
  · intro result hresult
    rcases hresults result hresult with hold | hnew
    · exact h.results result hold
    · exact hnew
  · intro index hindex
    rcases hlost index hindex with hold | hnew
    · exact h.stopped index hold
    · exact hnew
  · have hcount := h.broken
    simp only [Desk.among, List.countP_append, List.countP_cons, List.countP_nil]
      at hcount hbroken ⊢
    omega
  · have hsplit : ∀ w : Worker, (before ++ w :: after).filterMap Worker.index? =
        before.filterMap Worker.index? ++ (w.index?.toList ++ after.filterMap Worker.index?) := by
      intro w
      rw [List.filterMap_append, List.filterMap_cons]
      cases w.index? with
      | none => rfl
      | some index => rfl
    have hall := h.everywhere
    simp only [Desk.among, hsplit] at hall ⊢
    exact perm_of_desk hall hmoved

/-- One action keeps the account. The cases are those of the action. -/
theorem act {desk : Desk σ} (h : (desk.among before after).Accounts settings kb pages lost) :
    ∃ lost', ((desk.act settings kb).among before after).Accounts settings kb pages lost' := by
  obtain ⟨worker, queue, results, knowledge⟩ := desk
  have hfits : worker.Fits settings kb pages queue :=
    h.workers worker (List.mem_append_right _ List.mem_cons_self)
  cases worker with
  | idle =>
    cases queue with
    | nil =>
      exact ⟨lost, h.of_desk (fun _ hjob => hjob) rfl (fun _ => Or.inl) (fun _ => Or.inl) rfl
        (.refl _)⟩
    | cons job queue =>
      obtain ⟨index, page⟩ := job
      have hpage : pages[index]? = some page := h.queue (index, page) List.mem_cons_self
      refine ⟨lost, h.of_desk (fun _ => List.mem_cons_of_mem _) ⟨page, hpage, .start⟩
        (fun _ => Or.inl) (fun _ => Or.inl) rfl ?_⟩
      simp only [List.map_cons, Worker.index?, Option.toList_none, Option.toList_some,
        List.append_nil]
      exact ((List.perm_append_singleton index _).symm.append_right _).append_right _
  | busy index rest problems =>
    obtain ⟨page, hpage, hreaches⟩ := hfits
    cases rest with
    | ask q next =>
      exact ⟨lost, h.of_desk (fun _ hjob => hjob) ⟨page, hpage, hreaches.answer knowledge⟩
        (fun _ => Or.inl) (fun _ => Or.inl) rfl (.refl _)⟩
    | report p next =>
      exact ⟨lost, h.of_desk (fun _ hjob => hjob) ⟨page, hpage, hreaches.report⟩
        (fun _ => Or.inl) (fun _ => Or.inl) rfl (.refl _)⟩
    | done progress =>
      obtain ⟨value, stopped⟩ := progress
      cases stopped with
      | none =>
        refine ⟨lost, h.of_desk (fun _ hjob => hjob) trivial (fun result hresult => ?_)
          (fun _ => Or.inl) rfl ?_⟩
        · rcases List.mem_append.mp hresult with hold | hnew
          · exact Or.inl hold
          · rw [List.mem_singleton.mp hnew]
            exact Or.inr ⟨page, hpage, hreaches⟩
        · simp only [Worker.index?, Option.toList_some, Option.toList_none, List.map_append,
            List.map_cons, List.map_nil, List.append_nil, List.append_assoc]
          refine List.Perm.append_left _ ?_
          rw [← List.append_assoc, ← List.append_assoc]
          exact List.perm_append_comm.append_right _
      | some cause =>
        refine ⟨index :: lost, h.of_desk (fun _ hjob => hjob) trivial (fun _ => Or.inl)
          (fun other hother => ?_) rfl ?_⟩
        · rcases List.mem_cons.mp hother with rfl | hold
          · exact Or.inr ⟨value, cause, problems, page, hpage, hreaches⟩
          · exact Or.inl hold
        · simp only [Worker.index?, Option.toList_some, Option.toList_none, List.append_nil,
            List.append_assoc, List.singleton_append]
          exact List.Perm.append_left _ List.perm_middle.symm
  | finished =>
    exact ⟨lost, h.of_desk (fun _ hjob => hjob) hfits (fun _ => Or.inl) (fun _ => Or.inl) rfl
      (.refl _)⟩
  | broken cause =>
    exact ⟨lost, h.of_desk (fun _ hjob => hjob) trivial (fun _ => Or.inl) (fun _ => Or.inl) rfl
      (.refl _)⟩

/-- Every schedule keeps the account. -/
theorem follow {state : State σ} (h : state.Accounts settings kb pages lost)
    (schedule : List Nat) :
    ∃ lost', (state.follow settings kb schedule).Accounts settings kb pages lost' := by
  induction schedule generalizing state lost with
  | nil => exact ⟨lost, h⟩
  | cons index schedule ih =>
    change ∃ lost', ((state.at index (·.act settings kb)).follow settings kb schedule).Accounts
      settings kb pages lost'
    rcases state.at_cases index with
      ⟨before, desk, after, -, rfl, hact⟩ | ⟨-, hact⟩
    · rw [hact]
      obtain ⟨lost', hnext⟩ := h.act
      exact ih hnext
    · rw [hact]
      exact ih h

/-- At the start every page is in the queue. -/
theorem start (workers : Nat) (knowledge : σ) :
    (State.start pages workers knowledge).Accounts settings kb pages [] := by
  constructor
  · intro job hjob
    obtain ⟨⟨page, index⟩, hentry, rfl⟩ := List.mem_map.mp hjob
    exact List.mem_zipIdx_iff_getElem?.mp hentry
  · intro worker hworker
    rw [List.eq_of_mem_replicate hworker]
    trivial
  · exact fun result hresult => absurd hresult List.not_mem_nil
  · exact fun index hindex => absurd hindex List.not_mem_nil
  · simp [State.start, List.countP_replicate, Worker.isBroken]
  · have hindices : (State.start pages workers knowledge).queue.map (·.1) =
        List.range pages.length := by
      rw [State.start, List.map_map, List.range_eq_range']
      exact List.zipIdx_map_snd 0 pages
    rw [hindices]
    simp [State.start, List.filterMap_replicate, Worker.index?]

end State.Accounts

end TopicLinks.Batch
