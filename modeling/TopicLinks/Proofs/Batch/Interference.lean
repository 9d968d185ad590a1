import TopicLinks.Proofs.Batch.Outcome

/-!
# Walks among other walks

Between two queries of a walk other walks may change the state of the knowledge base. If all of
them keep within what each relies on, each one guarantees what it would guarantee alone. The rule
is proved for one dialogue, then for a desk, and along a schedule for a batch: at the end the
guarantees of all pages hold together.
-/

namespace TopicLinks

variable {σ α β : Type}

/-- The changes of a state that others may make, any number of times. -/
structure Rely (σ : Type) where
  /-- One state may become another one. -/
  Allows : σ → σ → Prop
  /-- A state may stay as it is, -/
  refl : ∀ s, Allows s s
  /-- and two changes may follow each other. -/
  trans : ∀ {s t u}, Allows s t → Allows t u → Allows s u

namespace Dialogue

/-- Whatever others do before each query, a dialogue makes allowed changes only, and from its end
on a property holds of all states that others may lead to. -/
def Guarantees (kb : KnowledgeBase σ) (rely : Rely σ) (post : σ → Prop) : Dialogue α → σ → Prop
  | .done _, s => ∀ t, rely.Allows s t → post t
  | .ask q next, s => ∀ t, rely.Allows s t →
      rely.Allows t (kb.answer q t).2 ∧
        Guarantees kb rely post (next (kb.answer q t).1) (kb.answer q t).2
  | .report _ next, s => Guarantees kb rely post next s

variable {kb : KnowledgeBase σ} {rely : Rely σ} {post : σ → Prop} {s t : σ}

/-- A guarantee is kept by what others do. -/
theorem Guarantees.later {d : Dialogue α} (h : d.Guarantees kb rely post s)
    (hallows : rely.Allows s t) : d.Guarantees kb rely post t := by
  induction d with
  | done a => exact fun u hu => h u (rely.trans hallows hu)
  | ask q next ih => exact fun u hu => h u (rely.trans hallows hu)
  | report p next ih => exact ih h

theorem Guarantees.mono {post' : σ → Prop} {d : Dialogue α} (h : d.Guarantees kb rely post s)
    (hpost : ∀ t, post t → post' t) : d.Guarantees kb rely post' s := by
  induction d generalizing s with
  | done a => exact fun t ht => hpost t (h t ht)
  | ask q next ih => exact fun t ht => ⟨(h t ht).1, ih _ (h t ht).2⟩
  | report p next ih => exact ih h

theorem Guarantees.map {d : Dialogue α} (h : d.Guarantees kb rely post s) (f : α → β) :
    (d.map f).Guarantees kb rely post s := by
  induction d generalizing s with
  | done a => exact h
  | ask q next ih => exact fun t ht => ⟨(h t ht).1, ih _ (h t ht).2⟩
  | report p next ih => exact ih h

/-- Queries that change nothing but what is allowed may come before a guarantee. -/
theorem guarantees_bind {P : Query → Prop} {d : Dialogue α} {f : α → Dialogue β} (hd : d.Asks P)
    (hP : ∀ q, P q → ∀ t, rely.Allows t (kb.answer q t).2)
    (hf : ∀ a t, rely.Allows s t → (f a).Guarantees kb rely post t) :
    (d.bind f).Guarantees kb rely post s := by
  induction d generalizing s with
  | done a => exact hf a s (rely.refl s)
  | ask q next ih =>
    intro t ht
    have hanswer := hP q hd.1 t
    exact ⟨hanswer, ih _ (hd.2 _) fun a u hu => hf a u (rely.trans ht (rely.trans hanswer hu))⟩
  | report p next ih => exact ih hd hf

/-- A run is a walk among no others: it makes allowed changes only and ends with the guarantee. -/
theorem Guarantees.run {d : Dialogue α} (h : d.Guarantees kb rely post s) :
    rely.Allows s (d.run kb s).state ∧ post (d.run kb s).state := by
  induction d generalizing s with
  | done a => exact ⟨rely.refl s, h s (rely.refl s)⟩
  | ask q next ih =>
    obtain ⟨hanswer, hnext⟩ := h s (rely.refl s)
    obtain ⟨hrest, hpost⟩ := ih _ hnext
    exact ⟨rely.trans hanswer hrest, hpost⟩
  | report p next ih => exact ih h

end Dialogue

namespace Batch

variable {settings : Settings} {kb : KnowledgeBase σ} {rely : Rely σ} {post : Page → σ → Prop}
  {pages : List Page} {begun : σ}

/-- What is left to a worker guarantees what its page has to. -/
def Worker.Guarantees (kb : KnowledgeBase σ) (rely : Rely σ) (post : Page → σ → Prop)
    (pages : List Page) (knowledge : σ) : Worker → Prop
  | .busy index rest _ =>
    ∃ page, pages[index]? = some page ∧ rest.Guarantees kb rely (post page) knowledge
  | _ => True

/-- In a batch every page guarantees a property: the workers are on their way to it, and for the
results it holds in all states that may follow. -/
structure State.Guarantees (kb : KnowledgeBase σ) (rely : Rely σ) (post : Page → σ → Prop)
    (pages : List Page) (begun : σ) (state : State σ) : Prop where
  /-- The queue holds pages of the batch under their indices. -/
  queue : ∀ job ∈ state.queue, pages[job.1]? = some job.2
  /-- The changes so far are allowed. -/
  allowed : rely.Allows begun state.knowledge
  /-- The workers are on their way. -/
  workers : ∀ worker ∈ state.workers, worker.Guarantees kb rely post pages state.knowledge
  /-- The results have what was guaranteed, for good. -/
  results : ∀ result ∈ state.results, ∃ page, pages[result.1]? = some page ∧
    ∀ t, rely.Allows state.knowledge t → post page t

theorem Worker.Guarantees.later {worker : Worker} {knowledge knowledge' : σ}
    (h : worker.Guarantees kb rely post pages knowledge)
    (hallows : rely.Allows knowledge knowledge') :
    worker.Guarantees kb rely post pages knowledge' := by
  cases worker with
  | busy index rest problems =>
    obtain ⟨page, hpage, hrest⟩ := h
    exact ⟨page, hpage, hrest.later hallows⟩
  | _ => trivial

namespace State.Guarantees

variable {before after : List Worker} {queue : List Job} {results : List (Nat × ResolvedPage)}
  {knowledge : σ}

/-- A desk seen by itself: what an action has to keep, for the others rely on it. -/
theorem of_desk {worker worker' : Worker} {queue' : List Job}
    {results' : List (Nat × ResolvedPage)} {knowledge' : σ}
    (h : (Desk.among before after ⟨worker, queue, results, knowledge⟩).Guarantees kb rely post
      pages begun)
    (hqueue : ∀ job ∈ queue', job ∈ queue)
    (hallows : rely.Allows knowledge knowledge')
    (hworker : worker'.Guarantees kb rely post pages knowledge')
    (hresults : ∀ result ∈ results', result ∈ results ∨ ∃ page, pages[result.1]? = some page ∧
      ∀ t, rely.Allows knowledge' t → post page t) :
    (Desk.among before after ⟨worker', queue', results', knowledge'⟩).Guarantees kb rely post
      pages begun := by
  refine ⟨fun job hjob => h.queue job (hqueue job hjob), rely.trans h.allowed hallows, ?_, ?_⟩
  · intro other hother
    rcases List.mem_append.mp hother with hbefore | hother
    · exact (h.workers other (List.mem_append_left _ hbefore)).later hallows
    rcases List.mem_cons.mp hother with rfl | hafter
    · exact hworker
    · exact (h.workers other (List.mem_append_right _ (List.mem_cons_of_mem _ hafter))).later
        hallows
  · intro result hresult
    rcases hresults result hresult with hold | hnew
    · obtain ⟨page, hpage, hpost⟩ := h.results result hold
      exact ⟨page, hpage, fun t ht => hpost t (rely.trans hallows ht)⟩
    · exact hnew

/-- One action keeps the guarantees. The cases are those of the action. -/
theorem act {desk : Desk σ}
    (hpages : ∀ page ∈ pages, ∀ t, rely.Allows begun t →
      (Walker.resolvePage settings page).Guarantees kb rely (post page) t)
    (h : (desk.among before after).Guarantees kb rely post pages begun) :
    ((desk.act settings kb).among before after).Guarantees kb rely post pages begun := by
  obtain ⟨worker, queue, results, knowledge⟩ := desk
  have hworker : worker.Guarantees kb rely post pages knowledge :=
    h.workers worker (List.mem_append_right _ List.mem_cons_self)
  have hsame := rely.refl knowledge
  cases worker with
  | idle =>
    cases queue with
    | nil => exact h.of_desk (fun _ hjob => hjob) hsame trivial fun _ => Or.inl
    | cons job queue =>
      obtain ⟨index, page⟩ := job
      have hpage : pages[index]? = some page := h.queue (index, page) List.mem_cons_self
      have hwalk := hpages page (List.mem_of_getElem? hpage) knowledge h.allowed
      exact h.of_desk (fun _ => List.mem_cons_of_mem _) hsame ⟨page, hpage, hwalk⟩ fun _ => Or.inl
  | busy index rest problems =>
    obtain ⟨page, hpage, hrest⟩ := hworker
    cases rest with
    | ask q next =>
      obtain ⟨hanswer, hnext⟩ := hrest knowledge hsame
      exact h.of_desk (fun _ hjob => hjob) hanswer ⟨page, hpage, hnext⟩ fun _ => Or.inl
    | report p next =>
      exact h.of_desk (fun _ hjob => hjob) hsame ⟨page, hpage, hrest⟩ fun _ => Or.inl
    | done progress =>
      obtain ⟨value, stopped⟩ := progress
      cases stopped with
      | none =>
        refine h.of_desk (fun _ hjob => hjob) hsame trivial fun result hresult => ?_
        rcases List.mem_append.mp hresult with hold | hnew
        · exact Or.inl hold
        · rw [List.mem_singleton.mp hnew]
          exact Or.inr ⟨page, hpage, hrest⟩
      | some cause => exact h.of_desk (fun _ hjob => hjob) hsame trivial fun _ => Or.inl
  | finished => exact h
  | broken cause => exact h

/-- Every schedule keeps the guarantees. -/
theorem follow {state : State σ}
    (hpages : ∀ page ∈ pages, ∀ t, rely.Allows begun t →
      (Walker.resolvePage settings page).Guarantees kb rely (post page) t)
    (h : state.Guarantees kb rely post pages begun) (schedule : List Nat) :
    (state.follow settings kb schedule).Guarantees kb rely post pages begun := by
  induction schedule generalizing state with
  | nil => exact h
  | cons index schedule ih =>
    change ((state.at index (·.act settings kb)).follow settings kb schedule).Guarantees kb rely
      post pages begun
    rcases state.at_cases index with ⟨before, desk, after, -, rfl, hact⟩ | ⟨-, hact⟩
    · rw [hact]
      exact ih (h.act hpages)
    · rw [hact]
      exact ih h

/-- At the start nothing has happened yet. -/
theorem start (workers : Nat) (knowledge : σ) :
    (State.start pages workers knowledge).Guarantees kb rely post pages knowledge where
  queue job hjob := by
    obtain ⟨⟨page, index⟩, hentry, rfl⟩ := List.mem_map.mp hjob
    exact List.mem_zipIdx_iff_getElem?.mp hentry
  allowed := rely.refl knowledge
  workers worker hworker := by
    rw [List.eq_of_mem_replicate hworker]
    trivial
  results result hresult := absurd hresult List.not_mem_nil

end State.Guarantees

/-- A batch comes to results if and only if no page breaks a worker. -/
theorem exists_resolved_iff {workers : Nat} (hworkers : 0 < workers) (schedule : List Nat)
    (knowledge : σ) :
    (∃ results, (resolve settings kb pages workers schedule knowledge).outcome =
      .resolved results) ↔ pages.countP (breaks settings kb knowledge) = 0 := by
  have hcount := countP_isBroken_resolve settings kb pages workers schedule knowledge knowledge
  rcases (resolve settings kb pages workers schedule knowledge).outcome_cases with
    ⟨hnone, houtcome⟩ | ⟨hone, worker, -, houtcome⟩ | ⟨hmany, houtcome⟩
  · exact iff_of_true ⟨_, houtcome⟩ (by omega)
  · refine iff_of_false ?_ (by omega)
    rintro ⟨results, hresults⟩
    exact Outcome.noConfusion (hresults.symm.trans houtcome)
  · refine iff_of_false ?_ (by omega)
    rintro ⟨results, hresults⟩
    exact Outcome.noConfusion (hresults.symm.trans houtcome)

/-- At the end of a batch that comes to results, the guarantees of all pages hold, with any number
of workers and under every schedule. -/
theorem guarantees_resolve {workers : Nat} (hworkers : 0 < workers) {knowledge : σ}
    (hpages : ∀ page ∈ pages, ∀ t, rely.Allows knowledge t →
      (Walker.resolvePage settings page).Guarantees kb rely (post page) t)
    {schedule : List Nat}
    (h : ∃ results, (resolve settings kb pages workers schedule knowledge).outcome =
      .resolved results) :
    let final := resolve settings kb pages workers schedule knowledge
    rely.Allows knowledge final.knowledge ∧ ∀ page ∈ pages, post page final.knowledge := by
  intro final
  have hindices : (final.results.map (·.1)).Perm (List.range pages.length) :=
    perm_results_resolve hworkers schedule knowledge
      ((exists_resolved_iff hworkers schedule knowledge).mp h)
  obtain ⟨⟨schedule', hfollow⟩, -⟩ :=
    (State.start pages workers knowledge).exists_follow_complete settings kb schedule
  have hfinal : final.Guarantees kb rely post pages knowledge := by
    rw [show final = _ from hfollow]
    exact (State.Guarantees.start workers knowledge).follow hpages schedule'
  refine ⟨hfinal.allowed, fun page hpage => ?_⟩
  obtain ⟨index, hindex⟩ := List.mem_iff_getElem?.mp hpage
  have hmem : index ∈ final.results.map (·.1) := by
    rw [hindices.mem_iff, List.mem_range]
    exact (List.getElem?_eq_some_iff.mp hindex).1
  obtain ⟨result, hresult, rfl⟩ := List.mem_map.mp hmem
  obtain ⟨page', hpage', hpost⟩ := hfinal.results result hresult
  obtain rfl : page' = page := Option.some.inj (hpage'.symm.trans hindex)
  exact hpost final.knowledge (rely.refl _)

end Batch

end TopicLinks
