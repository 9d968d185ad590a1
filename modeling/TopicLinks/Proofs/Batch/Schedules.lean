import Mathlib.Logic.Function.Iterate
import TopicLinks.Batch

/-!
# Schedules to the end

What a schedule leaves undone is finished by the workers one after the other. That is nothing but
a longer schedule: finishing is acting again and again, and in the end every worker has found the
queue empty or broken down. So what holds after every schedule of single actions holds at the end
of a batch.
-/

namespace TopicLinks.Batch

variable {σ : Type} (settings : Settings) (kb : KnowledgeBase σ)

/-- A worker that will not act any more. -/
def Worker.HasEnded : Worker → Prop
  | .finished => True
  | .broken _ => True
  | _ => False

/-- The state in which one worker is at its desk, and others stand before it and after it. -/
def Desk.among (before after : List Worker) (desk : Desk σ) : State σ where
  queue := desk.queue
  workers := before ++ desk.worker :: after
  results := desk.results
  knowledge := desk.knowledge

/-- Let workers act in the order of a schedule. -/
def State.follow (state : State σ) (schedule : List Nat) : State σ :=
  schedule.foldl (fun state index => state.at index (·.act settings kb)) state

namespace Desk

/-- Any number of further actions leads from one desk to another. -/
def Leads (desk next : Desk σ) : Prop := ∃ count, (act settings kb)^[count] desk = next

variable {settings kb} {desk next last : Desk σ}

theorem Leads.refl (desk : Desk σ) : desk.Leads settings kb desk := ⟨0, rfl⟩

/-- One action and any number of others. -/
theorem Leads.act (h : (desk.act settings kb).Leads settings kb next) :
    desk.Leads settings kb next := by
  obtain ⟨count, rfl⟩ := h
  exact ⟨count + 1, rfl⟩

theorem Leads.trans (h : desk.Leads settings kb next) (h' : next.Leads settings kb last) :
    desk.Leads settings kb last := by
  obtain ⟨count, rfl⟩ := h
  obtain ⟨more, rfl⟩ := h'
  exact ⟨more + count, Function.iterate_add_apply _ more count desk⟩

variable (settings kb)

/-- A page is finished action by action. The induction is on what is left of its walk. -/
theorem leads_finishPage (desk : Desk σ) : desk.Leads settings kb (desk.finishPage kb) := by
  obtain ⟨worker, queue, results, knowledge⟩ := desk
  cases worker with
  | busy index rest problems =>
    induction rest generalizing problems knowledge with
    | done progress =>
      refine .act ?_
      have hclose : Desk.act settings kb
          ⟨.busy index (.done progress) problems, queue, results, knowledge⟩ =
          Desk.finishPage kb
            ⟨.busy index (.done progress) problems, queue, results, knowledge⟩ := by
        simp only [Desk.act, finishPage, Dialogue.run, List.append_nil]
      rw [hclose]
      exact .refl _
    | ask q next ih =>
      exact .act (ih (kb.answer q knowledge).1 (kb.answer q knowledge).2 problems)
    | report p next ih =>
      have hreported : Desk.finishPage kb
          ⟨.busy index (.report p next) problems, queue, results, knowledge⟩ =
          Desk.finishPage kb ⟨.busy index next (problems ++ [p]), queue, results, knowledge⟩ := by
        simp only [finishPage, Dialogue.run, List.append_assoc, List.singleton_append, close]
      rw [hreported]
      exact .act (ih knowledge (problems ++ [p]))
  | idle => exact .refl _
  | finished => exact .refl _
  | broken cause => exact .refl _

/-- Finishing a page takes nothing from the queue. -/
theorem queue_finishPage (desk : Desk σ) : (desk.finishPage kb).queue = desk.queue := by
  unfold finishPage close
  split
  · dsimp only
    split
    · rfl
    · rfl
  · rfl

/-- After a page a worker is idle, unless it has ended. -/
theorem finishPage_idle_or_hasEnded (desk : Desk σ) :
    (desk.finishPage kb).worker = .idle ∨ (desk.finishPage kb).worker.HasEnded := by
  unfold finishPage close
  split
  · dsimp only
    split
    · exact Or.inr trivial
    · exact Or.inl rfl
  · rename_i hbusy
    cases hworker : desk.worker with
    | idle => exact Or.inl rfl
    | busy index rest problems => exact absurd hworker (hbusy index rest problems)
    | finished => exact Or.inr trivial
    | broken cause => exact Or.inr trivial

/-- Working through the queue is acting until the worker has ended. The induction is on the
queue. -/
theorem leads_workThrough (queue : List Job) (results : List (Nat × ResolvedPage))
    (knowledge : σ) :
    Leads settings kb ⟨.idle, queue, results, knowledge⟩
        (workThrough settings kb results knowledge queue) ∧
      (workThrough settings kb results knowledge queue).worker.HasEnded := by
  induction queue generalizing results knowledge with
  | nil => exact ⟨.act (.refl _), trivial⟩
  | cons job queue ih =>
    obtain ⟨index, page⟩ := job
    rw [workThrough]
    generalize hpage : (Desk.mk (.busy index (Walker.resolvePage settings page) []) queue results
      knowledge).finishPage kb = done
    have hdone : Leads settings kb ⟨.idle, (index, page) :: queue, results, knowledge⟩ done :=
      .act (hpage ▸ leads_finishPage settings kb _)
    have hqueue : done.queue = queue := hpage ▸ queue_finishPage kb _
    have hended := finishPage_idle_or_hasEnded kb (Desk.mk
      (.busy index (Walker.resolvePage settings page) []) queue results knowledge)
    rw [hpage] at hended
    obtain ⟨worker, queue', results', knowledge'⟩ := done
    obtain rfl : queue' = queue := hqueue
    rcases hended with hidle | hended
    · obtain rfl : worker = .idle := hidle
      exact ⟨hdone.trans (ih results' knowledge').1, (ih results' knowledge').2⟩
    · cases worker with
      | idle => exact absurd hended id
      | busy index rest problems => exact absurd hended id
      | finished => exact ⟨hdone, trivial⟩
      | broken cause => exact ⟨hdone, trivial⟩

/-- All that is left to a worker is done action by action, and then the worker has ended. -/
theorem leads_finish (desk : Desk σ) :
    desk.Leads settings kb (desk.finish settings kb) ∧
      (desk.finish settings kb).worker.HasEnded := by
  have hpage := leads_finishPage settings kb desk
  have hended := finishPage_idle_or_hasEnded kb desk
  unfold finish
  generalize desk.finishPage kb = done at hpage hended
  obtain ⟨worker, queue, results, knowledge⟩ := done
  rcases hended with hidle | hended
  · obtain rfl : worker = .idle := hidle
    exact (leads_workThrough settings kb queue results knowledge).imp_left hpage.trans
  · cases worker with
    | idle => exact absurd hended id
    | busy index rest problems => exact absurd hended id
    | finished => exact ⟨hpage, trivial⟩
    | broken cause => exact ⟨hpage, trivial⟩

end Desk

namespace State

variable {settings kb}

/-- A worker that exists stands at its desk between the others, and only the desk changes. -/
theorem at_cases (state : State σ) (index : Nat) :
    (∃ before desk after, before.length = index ∧ state = Desk.among before after desk ∧
        ∀ act, state.at index act = (act desk).among before after) ∨
      (state.workers.length ≤ index ∧ ∀ act, state.at index act = state) := by
  by_cases hindex : index < state.workers.length
  · refine Or.inl ⟨state.workers.take index,
      ⟨state.workers[index], state.queue, state.results, state.knowledge⟩,
      state.workers.drop (index + 1), ?_, ?_, fun act => ?_⟩
    · exact List.length_take_of_le (Nat.le_of_lt hindex)
    · have hworkers : state.workers.take index ++ state.workers[index] ::
          state.workers.drop (index + 1) = state.workers := by
        rw [List.getElem_cons_drop, List.take_append_drop]
      simp only [Desk.among, hworkers]
    · simp only [State.at, List.getElem?_eq_getElem hindex, Desk.among,
        List.set_eq_take_append_cons_drop, if_pos hindex]
  · have hlength := Nat.le_of_not_lt hindex
    refine Or.inr ⟨hlength, fun act => ?_⟩
    simp only [State.at, List.getElem?_eq_none hlength]

theorem follow_append (state : State σ) (schedule more : List Nat) :
    state.follow settings kb (schedule ++ more) =
      (state.follow settings kb schedule).follow settings kb more :=
  List.foldl_append ..

/-- A worker acts in its place, whatever it did before. -/
theorem at_among (before after : List Worker) (desk : Desk σ) (act : Desk σ → Desk σ) :
    (desk.among before after).at before.length act = (act desk).among before after := by
  simp [State.at, Desk.among]

/-- Where a desk leads, a schedule of that worker alone leads. -/
theorem exists_follow_among (before after : List Worker) {desk next : Desk σ}
    (h : desk.Leads settings kb next) :
    ∃ schedule, (desk.among before after).follow settings kb schedule =
      next.among before after := by
  obtain ⟨count, rfl⟩ := h
  induction count generalizing desk with
  | zero => exact ⟨[], rfl⟩
  | succ count ih =>
    obtain ⟨schedule, hschedule⟩ := @ih (desk.act settings kb)
    refine ⟨before.length :: schedule, ?_⟩
    rw [Function.iterate_succ_apply, ← hschedule, ← at_among before after desk]
    rfl

variable (settings kb)

/-- Finishing the first workers in order is following a schedule, and they have ended then. The
induction is on their number. -/
theorem exists_follow_finish (state : State σ) (count : Nat) (h : count ≤ state.workers.length) :
    let next := (List.range count).foldl
      (fun state index => state.at index (·.finish settings kb)) state
    (∃ schedule, state.follow settings kb schedule = next) ∧
      next.workers.length = state.workers.length ∧
      ∀ worker ∈ next.workers.take count, worker.HasEnded := by
  induction count with
  | zero => exact ⟨⟨[], rfl⟩, rfl, fun worker hworker => absurd hworker List.not_mem_nil⟩
  | succ count ih =>
    intro next
    obtain ⟨⟨schedule, hschedule⟩, hlength, hended⟩ := ih (Nat.le_of_succ_le h)
    have hnext : next = State.at ((List.range count).foldl
        (fun state index => state.at index (·.finish settings kb)) state) count
        (·.finish settings kb) := by
      simp only [next, List.range_succ, List.foldl_append, List.foldl_cons, List.foldl_nil]
    generalize (List.range count).foldl
      (fun state index => state.at index (·.finish settings kb)) state = current
      at hschedule hlength hended hnext
    rcases current.at_cases count with
      ⟨before, desk, after, hbefore, rfl, hact⟩ | ⟨hoverrun, -⟩
    · rw [hact] at hnext
      obtain ⟨hleads, hlast⟩ := desk.leads_finish settings kb
      obtain ⟨more, hmore⟩ := exists_follow_among before after hleads
      have htake : ∀ worker : Worker,
          (before ++ worker :: after).take (count + 1) = before ++ [worker] := by
        intro worker
        rw [← hbefore, List.take_length_add_append]
        rfl
      refine ⟨⟨schedule ++ more, ?_⟩, ?_, ?_⟩
      · rw [follow_append, hschedule, hmore, hnext]
      · rw [hnext, ← hlength]
        simp only [Desk.among, List.length_append, List.length_cons]
      · intro worker hworker
        rw [hnext, Desk.among, htake, List.mem_append, List.mem_singleton] at hworker
        rcases hworker with hworker | rfl
        · refine hended worker ?_
          rw [Desk.among, List.take_append_of_le_length (Nat.le_of_eq hbefore.symm), ← hbefore,
            List.take_length]
          exact hworker
        · exact hlast
    · omega

/-- The end of a batch is where some schedule leads, and no worker acts there any more. -/
theorem exists_follow_complete (state : State σ) (schedule : List Nat) :
    (∃ schedule', state.complete settings kb schedule = state.follow settings kb schedule') ∧
      ∀ worker ∈ (state.complete settings kb schedule).workers, worker.HasEnded := by
  obtain ⟨⟨more, hmore⟩, hlength, hended⟩ :=
    exists_follow_finish settings kb (state.follow settings kb schedule) _ (Nat.le_refl _)
  have hcomplete : state.complete settings kb schedule =
      (List.range (state.follow settings kb schedule).workers.length).foldl
        (fun state index => state.at index (·.finish settings kb))
        (state.follow settings kb schedule) := rfl
  rw [hcomplete]
  refine ⟨⟨schedule ++ more, ?_⟩, fun worker hworker => hended worker ?_⟩
  · rw [follow_append, hmore]
  · rwa [List.take_of_length_le (Nat.le_of_eq hlength)]

end State

end TopicLinks.Batch
