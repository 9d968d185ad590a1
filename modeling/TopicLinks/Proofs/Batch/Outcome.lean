import Mathlib.Data.List.Forall2
import TopicLinks.Proofs.Batch.Accounting
import TopicLinks.Proofs.Walk.Pools
import TopicLinks.Proofs.Walk.Roots

/-!
# How batches end

From the account of a batch at its end follows how it ends. If no page makes a worker break down,
the results are those of the pages resolved one by one, in the order of the pages. A chapter asks
for the root of tutorials, so this takes a root that never changes, or some roots of the knowledge
base that the chapters are told. Otherwise as many workers break down as there are such pages, until
no worker is left. Only the first of them is asked how it ended, so the batch survives one of them
and no more.
-/

namespace TopicLinks

/-- A page resolved by itself, in some state of the knowledge base. -/
def ResolvedPage.alone {σ : Type} (settings : Settings) (kb : KnowledgeBase σ) (state : σ)
    (page : Page) : ResolvedPage :=
  let transcript := (Walker.resolvePage settings page).run kb state
  ⟨transcript.result.value, transcript.problems⟩

/-- A page makes a worker break down exactly if one of its variants is in a language that it does
not declare: the answers of the knowledge base play no part. -/
theorem Walker.returns_resolvePage (settings : Settings) (page : Page) :
    (resolvePage settings page).Returns fun progress =>
      progress.stopped = none ↔ page.content.IsDeclared := by
  refine Dialogue.returns_bind_of_forall fun w => ?_
  by_cases hdeclared : page.content.IsDeclared
  · have hunstopped := page.returns_unstopped w.settings hdeclared
    exact hunstopped.mono fun progress hnone => iff_of_true hnone hdeclared
  · have hstopped := page.returns_stopped w.settings hdeclared
    exact hstopped.mono fun progress hsome => iff_of_false hsome hdeclared

namespace Batch

variable {σ : Type} {settings : Settings} {kb : KnowledgeBase σ} {pages : List Page}

section

variable {results : List (Nat × ResolvedPage)}

/-- Results that hold each page once are sorted by the indices of the pages. -/
theorem map_fst_mergeSort (h : (results.map (·.1)).Perm (List.range pages.length)) :
    (results.mergeSort fun a b => a.1 ≤ b.1).map (·.1) = List.range pages.length := by
  have hsame : ((results.mergeSort fun a b => a.1 ≤ b.1).map (·.1)).Perm
      (List.range pages.length) :=
    ((List.mergeSort_perm results fun a b => a.1 ≤ b.1).map _).trans h
  have hsorted : (results.mergeSort fun a b => a.1 ≤ b.1).Pairwise fun a b => a.1 ≤ b.1 := by
    have hpairwise := @List.pairwise_mergeSort _ (fun a b : Nat × ResolvedPage => a.1 ≤ b.1)
      (fun a b c hab hbc => by simp at hab hbc ⊢; omega) (fun a b => by simp; omega) results
    simpa using hpairwise
  exact hsame.eq_of_pairwise (fun _ _ _ _ => Nat.le_antisymm) (List.pairwise_map.mpr hsorted)
    List.pairwise_le_range

/-- Results that hold each page once, each in a relation to its page, are in this relation to the
pages in order once they are sorted. -/
theorem forall₂_inPageOrder {R : Page → ResolvedPage → Prop}
    (hindices : (results.map (·.1)).Perm (List.range pages.length))
    (hresults : ∀ result ∈ results, ∃ page, pages[result.1]? = some page ∧ R page result.2) :
    List.Forall₂ R pages (inPageOrder results) := by
  have hsorted := map_fst_mergeSort hindices
  have hlength := congrArg List.length hsorted
  rw [List.length_map, List.length_range] at hlength
  refine List.forall₂_iff_get.mpr ⟨by rw [inPageOrder, List.length_map, hlength], ?_⟩
  intro index hpage hresult
  have hindex : index < (results.mergeSort fun a b => a.1 ≤ b.1).length := hlength.symm ▸ hpage
  obtain ⟨page, hget, hrelated⟩ :=
    hresults _ ((List.mergeSort_perm results fun a b => a.1 ≤ b.1).mem_iff.mp
      (List.getElem_mem hindex))
  have hfst : (results.mergeSort fun a b => a.1 ≤ b.1)[index].1 = index := by
    have hat := List.getElem_of_eq hsorted (i := index) (by simpa using hindex)
    simpa using hat
  rw [hfst, List.getElem?_eq_getElem hpage] at hget
  cases hget
  simpa [inPageOrder] using hrelated

end

/-- The account of a batch at its end. No worker acts any more. -/
theorem exists_accounts_resolve (settings : Settings) (kb : KnowledgeBase σ) (pages : List Page)
    (workers : Nat) (schedule : List Nat) (knowledge : σ) :
    let final := resolve settings kb pages workers schedule knowledge
    (∃ lost, final.Accounts settings kb pages lost) ∧
      ∀ worker ∈ final.workers, worker.HasEnded := by
  obtain ⟨⟨schedule', hfollow⟩, hended⟩ :=
    (State.start pages workers knowledge).exists_follow_complete settings kb schedule
  refine ⟨?_, hended⟩
  rw [resolve, hfollow]
  exact (State.Accounts.start workers knowledge).follow schedule'

theorem State.length_workers_follow (state : State σ) (schedule : List Nat) :
    (state.follow settings kb schedule).workers.length = state.workers.length := by
  induction schedule generalizing state with
  | nil => rfl
  | cons index schedule ih =>
    have hat : (state.at index (·.act settings kb)).workers.length = state.workers.length := by
      unfold State.at
      split
      · rfl
      · exact List.length_set
    exact (ih _).trans hat

theorem length_workers_resolve (workers : Nat) (schedule : List Nat) (knowledge : σ) :
    (resolve settings kb pages workers schedule knowledge).workers.length =
      workerCount workers pages.length := by
  obtain ⟨⟨schedule', hfollow⟩, -⟩ :=
    (State.start pages workers knowledge).exists_follow_complete settings kb schedule
  rw [resolve, hfollow, State.length_workers_follow]
  exact List.length_replicate

/-- Resolving a page breaks the worker that does it. -/
def breaks (settings : Settings) (kb : KnowledgeBase σ) (state : σ) (page : Page) : Bool :=
  ((Walker.resolvePage settings page).run kb state).result.stopped.isSome

/-- The walk of a page ends in the same way in all states of the knowledge base, as far as
breaking down is concerned. -/
theorem isSome_stopped_of_reached {index : Nat} {progress : Progress Page}
    {problems : List Problem} (h : Reached settings kb pages index (.done progress) problems)
    (state : σ) :
    (pages[index]?).any (breaks settings kb state) = progress.stopped.isSome := by
  obtain ⟨page, hpage, hreaches⟩ := h
  have hend : progress.stopped = none ↔ page.content.IsDeclared :=
    (Walker.returns_resolvePage settings page).of_reaches hreaches
  have hrun := (Walker.returns_resolvePage settings page).run kb state
  rw [hpage, Option.any_some, breaks, Bool.eq_iff_iff, ← Option.ne_none_iff_isSome,
    ← Option.ne_none_iff_isSome, Ne, Ne, hend, hrun]

/-- Pages can be counted by their indices. -/
theorem countP_range (p : Page → Bool) :
    (List.range pages.length).countP (fun index => (pages[index]?).any p) = pages.countP p := by
  have hpages : (List.range pages.length).map (fun index => pages[index]?) = pages.map some := by
    refine List.ext_getElem (by simp) fun index hindex hindex' => ?_
    simp at hindex hindex' ⊢
  have hcount : ((List.range pages.length).map fun index => pages[index]?).countP (Option.any p) =
      (pages.map some).countP (Option.any p) := by rw [hpages]
  rwa [List.countP_map, List.countP_map] at hcount

section

variable {final : State σ} {lost : List Nat}

/-- Workers that have ended have no page in hand. -/
theorem filterMap_index?_of_hasEnded {workers : List Worker}
    (h : ∀ worker ∈ workers, worker.HasEnded) : workers.filterMap Worker.index? = [] := by
  refine List.filterMap_eq_nil_iff.mpr fun worker hworker => ?_
  have hend := h worker hworker
  cases worker with
  | busy index rest problems => exact absurd hend id
  | _ => rfl

/-- At the end each page that breaks a worker is lost, or no worker has taken it. -/
theorem State.Accounts.countP_breaks (h : final.Accounts settings kb pages lost)
    (hended : ∀ worker ∈ final.workers, worker.HasEnded) (state : σ) :
    (final.queue.map (·.1)).countP (fun index => (pages[index]?).any (breaks settings kb state)) +
      lost.length = pages.countP (breaks settings kb state) := by
  let stops := fun index : Nat => (pages[index]?).any (breaks settings kb state)
  have hlost : lost.countP stops = lost.length := by
    refine List.countP_eq_length.mpr fun index hindex => ?_
    obtain ⟨value, cause, problems, hreached⟩ := h.stopped index hindex
    exact isSome_stopped_of_reached hreached state
  have hresults : (final.results.map (·.1)).countP stops = 0 := by
    rw [List.countP_map]
    refine List.countP_eq_zero.mpr fun result hresult => ?_
    have hgoes := isSome_stopped_of_reached (h.results result hresult) state
    simp only [Function.comp_apply, stops, hgoes, Option.isSome_none, Bool.false_eq_true,
      not_false_eq_true]
  have hall := h.everywhere.countP_eq stops
  rw [filterMap_index?_of_hasEnded hended, List.append_nil, List.countP_append,
    List.countP_append, hresults, hlost, countP_range] at hall
  exact hall

/-- With pages left in the queue at the end, every worker has broken down. -/
theorem State.Accounts.countP_isBroken_of_queue (h : final.Accounts settings kb pages lost)
    (hended : ∀ worker ∈ final.workers, worker.HasEnded) (hqueue : final.queue ≠ []) :
    final.workers.countP Worker.isBroken = final.workers.length := by
  refine List.countP_eq_length.mpr fun worker hworker => ?_
  have hend := hended worker hworker
  cases worker with
  | idle => exact absurd hend id
  | busy index rest problems => exact absurd hend id
  | finished => exact absurd (h.workers _ hworker) hqueue
  | broken cause => rfl

end

/-- As many workers break down as there are pages that break a worker, until no worker is left. -/
theorem countP_isBroken_resolve (settings : Settings) (kb : KnowledgeBase σ) (pages : List Page)
    (workers : Nat) (schedule : List Nat) (knowledge state : σ) :
    (resolve settings kb pages workers schedule knowledge).workers.countP Worker.isBroken =
      min workers (pages.countP (breaks settings kb state)) := by
  obtain ⟨⟨lost, haccount⟩, hended⟩ :=
    exists_accounts_resolve settings kb pages workers schedule knowledge
  have hlength : (resolve settings kb pages workers schedule knowledge).workers.length =
      workerCount workers pages.length := length_workers_resolve workers schedule knowledge
  generalize resolve settings kb pages workers schedule knowledge = final at haccount hended hlength
  have hpages := haccount.countP_breaks hended state
  have hbroken := haccount.broken
  have hatMost : final.workers.countP Worker.isBroken ≤ final.workers.length :=
    List.countP_le_length
  have hsome : pages.countP (breaks settings kb state) ≤ pages.length := List.countP_le_length
  rw [workerCount] at hlength
  by_cases hqueue : final.queue = []
  · rw [hqueue, List.map_nil, List.countP_nil] at hpages
    omega
  · have hevery := haccount.countP_isBroken_of_queue hended hqueue
    omega

/-- How a batch ends depends on the number of workers that broke down. -/
theorem State.outcome_cases (state : State σ) :
    (state.workers.countP Worker.isBroken = 0 ∧
        state.outcome = .resolved (inPageOrder state.results)) ∨
      (state.workers.countP Worker.isBroken = 1 ∧
        ∃ worker < state.workers.length, state.outcome = .workerBroke worker) ∨
      (1 < state.workers.countP Worker.isBroken ∧ state.outcome = .unattended) := by
  unfold outcome
  cases hfirst : state.workers.findIdx? Worker.isBroken with
  | none =>
    refine Or.inl ⟨List.countP_eq_zero.mpr fun worker hworker => ?_, rfl⟩
    simp [List.findIdx?_eq_none_iff.mp hfirst worker hworker]
  | some first =>
    obtain ⟨hindex, hbroken, hbefore⟩ := List.findIdx?_eq_some_iff_getElem.mp hfirst
    have hearlier : (state.workers.take first).countP Worker.isBroken = 0 := by
      refine List.countP_eq_zero.mpr fun worker hworker => ?_
      obtain ⟨index, hlt, rfl⟩ := List.mem_take_iff_getElem.mp hworker
      exact hbefore index (by omega)
    have hcount : state.workers.countP Worker.isBroken =
        1 + (state.workers.drop (first + 1)).countP Worker.isBroken := by
      have hsplit : state.workers.take first ++ state.workers[first] ::
          state.workers.drop (first + 1) = state.workers := by
        rw [List.getElem_cons_drop, List.take_append_drop]
      rw [← congrArg (List.countP Worker.isBroken) hsplit, List.countP_append, hearlier,
        List.countP_cons, if_pos hbroken]
      omega
    dsimp only
    by_cases hlater : (state.workers.drop (first + 1)).any Worker.isBroken = true
    · have hpos : 0 < (state.workers.drop (first + 1)).countP Worker.isBroken :=
        List.countP_pos_iff.mpr (List.any_eq_true.mp hlater)
      exact Or.inr (Or.inr ⟨by omega, if_pos hlater⟩)
    · have hzero : (state.workers.drop (first + 1)).countP Worker.isBroken = 0 := by
        refine List.countP_eq_zero.mpr fun worker hworker hbreak => hlater ?_
        exact List.any_eq_true.mpr ⟨worker, hworker, hbreak⟩
      exact Or.inr (Or.inl ⟨by omega, first, hindex, if_neg hlater⟩)

/-- If no page breaks a worker, each page is among the results, and nowhere else. -/
theorem perm_results_resolve {workers : Nat} (hworkers : 0 < workers) (schedule : List Nat)
    (knowledge : σ) (h : pages.countP (breaks settings kb knowledge) = 0) :
    ((resolve settings kb pages workers schedule knowledge).results.map (·.1)).Perm
      (List.range pages.length) := by
  have hcount := countP_isBroken_resolve settings kb pages workers schedule knowledge knowledge
  obtain ⟨⟨lost, haccount⟩, hended⟩ :=
    exists_accounts_resolve settings kb pages workers schedule knowledge
  have hlength : (resolve settings kb pages workers schedule knowledge).workers.length =
      workerCount workers pages.length := length_workers_resolve workers schedule knowledge
  generalize resolve settings kb pages workers schedule knowledge = final
    at hcount haccount hended hlength ⊢
  rw [h, Nat.min_zero] at hcount
  have hlost : lost = [] := by
    rw [← List.length_eq_zero_iff, haccount.broken, hcount]
  have hqueue : final.queue = [] := by
    by_contra hqueue
    have hevery := haccount.countP_isBroken_of_queue hended hqueue
    rw [workerCount] at hlength
    omega
  have hall := haccount.everywhere
  rwa [hlost, hqueue, filterMap_index?_of_hasEnded hended, List.map_nil, List.nil_append,
    List.nil_append, List.append_nil] at hall

/-- If no page breaks a worker, a batch comes to one result for each page, in the order of the
pages. The walk of the page reaches it with some answers of the knowledge base. -/
theorem exists_results_of_unbroken {workers : Nat} (hworkers : 0 < workers) {knowledge : σ}
    (h : ∀ page ∈ pages,
      ((Walker.resolvePage settings page).run kb knowledge).result.stopped = none)
    (schedule : List Nat) :
    ∃ results, (resolve settings kb pages workers schedule knowledge).outcome = .resolved results ∧
      List.Forall₂ (fun page result => (Walker.resolvePage settings page).Reaches kb
        (.done ⟨result.page, none⟩) result.problems) pages results := by
  have hnone : pages.countP (breaks settings kb knowledge) = 0 := by
    refine List.countP_eq_zero.mpr fun page hpage => ?_
    rw [breaks, h page hpage]
    exact Bool.false_ne_true
  have hcount := countP_isBroken_resolve settings kb pages workers schedule knowledge knowledge
  have hperm := perm_results_resolve hworkers schedule knowledge hnone
  obtain ⟨⟨lost, haccount⟩, -⟩ :=
    exists_accounts_resolve settings kb pages workers schedule knowledge
  generalize resolve settings kb pages workers schedule knowledge = final
    at hcount hperm haccount ⊢
  rw [hnone, Nat.min_zero] at hcount
  rcases final.outcome_cases with ⟨-, houtcome⟩ | ⟨hone, -⟩ | ⟨hmany, -⟩
  · exact ⟨_, houtcome, forall₂_inPageOrder hperm haccount.results⟩
  · omega
  · omega

/-- A result of a batch is what its page comes to by itself. -/
structure IsAlone (settings : Settings) (kb : KnowledgeBase σ) (page : Page)
    (result : ResolvedPage) : Prop where
  /-- The page comes to it in every state, when its chapters are told some roots that the knowledge
  base gives. -/
  told : ∃ roots, kb.Gives roots ∧
    ∀ state, result = ResolvedPage.alone settings kb.telling (roots, state) page
  /-- If the root never changes or the page has no chapter, the page comes to it in every state of
  the knowledge base itself. -/
  steady : (kb.IsSteady ∨ ∀ occurrence ∈ page.occurrences, occurrence.isPlain = true) →
    ∀ state, result = ResolvedPage.alone settings kb state page

/-- What the walk of a page reaches in a batch is what the page comes to by itself. -/
theorem isAlone_of_reaches (hkb : kb.HasSteadyLookups) (state : σ) {page : Page}
    {result : ResolvedPage}
    (h : (Walker.resolvePage settings page).Reaches kb (.done ⟨result.page, none⟩)
      result.problems) : IsAlone settings kb page result := by
  have hdeclared : page.content.IsDeclared :=
    ((Walker.returns_resolvePage settings page).of_reaches h).mp rfl
  constructor
  · obtain ⟨roots, hgives, htold⟩ := Walker.exists_run_telling hkb settings hdeclared h state
    refine ⟨roots, hgives, fun state => ?_⟩
    obtain ⟨hresult, hproblems⟩ := htold state
    rw [ResolvedPage.alone, hresult, hproblems]
  · intro hroot state
    obtain ⟨alone, reported, hpage⟩ := page.exists_comesTo hkb state settings hdeclared hroot
    have hcomes : (Walker.resolvePage settings page).ComesTo kb ⟨alone, none⟩ reported :=
      .ask fun root => hpage
    obtain ⟨hprogress, hreported⟩ := hcomes.eq_of_reaches_done h
    obtain ⟨hresult, hproblems⟩ := hcomes.run state
    rw [ResolvedPage.alone, hresult, hproblems, ← hprogress, ← hreported]

/-- Against a knowledge base whose look-ups are steady a batch comes to the pages resolved one by
one: if no page breaks a worker, then with any number of workers and under every schedule there is
one result for each page, in the order of the pages, and it is what the page alone comes to in any
state of the knowledge base, when its chapters are told some roots that the knowledge base gives.
The pool plays no part: the walk of a page through any pool, whatever is in use there, is its walk
through none. -/
theorem resolve_eq_one_by_one (hkb : kb.HasSteadyLookups) {workers : Nat} (hworkers : 0 < workers)
    {knowledge : σ}
    (h : ∀ page ∈ pages,
      ((Walker.resolvePage settings page).run kb knowledge).result.stopped = none)
    (schedule : List Nat) :
    (∃ results,
      (resolve settings kb pages workers schedule knowledge).outcome = .resolved results ∧
        List.Forall₂ (IsAlone settings kb) pages results) ∧
      ∀ page ∈ pages, page.reference.IsMade → ∀ (pool : String) (sessions : Stream' Session),
        (∀ n, ((sessions.get n).pool? pool).isSome) →
        Walker.resolvePageThrough pool sessions settings page =
          (Walker.resolvePage settings page).map .ok := by
  refine ⟨?_, fun page _ hmade pool sessions hpool =>
    Walker.resolvePageThrough_eq hmade.isReadable hpool settings⟩
  obtain ⟨results, houtcome, hreaches⟩ := exists_results_of_unbroken hworkers h schedule
  exact ⟨results, houtcome, hreaches.imp fun _ _ => isAlone_of_reaches hkb knowledge⟩

/-- A tutorial that offers its project as a download, and links to a page that does not exist. -/
def offeringPage : Page where
  reference := .ofText "org.example.Kit" "/tutorials/Kit/First" none (.single "swift")
  source := some "First.tutorial"
  content := .tutorial {
    intro := {
      title := "First"
      content := [.paragraph [
        .link (.parse "doc:/documentation/Kit/View") none [],
        .link (.parse "doc:/documentation/Kit/Missing") (some ⟨⟨3, 1⟩, ⟨3, 9⟩⟩) []]]
      image := none
      video := none }
    sections := []
    assessments := none
    projectFiles := some ⟨⟨"org.example.Kit", "Kit.zip"⟩, none⟩ }

/-- Two workers resolve two tutorials that offer one archive, one query after the other in turn:
each tutorial has the problem that it has alone, also through a pool. -/
theorem resolve_eq_one_by_one_of_interleaved :
    let archive : Asset := ⟨"Kit.zip", .display, ["Kit.zip"]⟩
    let catalog : Catalog := {
      pages := ["/documentation/Kit/View"]
      resources := ["Kit.zip"]
      assets := [("Kit.zip", archive)] }
    let pages := [offeringPage, offeringPage]
    let final := resolve {} catalog.fixed pages 2 [0, 1, 0, 1, 0, 1, 1, 1, 0, 0, 1] catalog.assets
    (∀ page ∈ pages,
      ((Walker.resolvePage {} page).run catalog.fixed catalog.assets).result.stopped = none) ∧
    (∃ results, final.outcome = .resolved results ∧
      results.map (fun result => result.problems.map (·.diagnostic.identifier)) =
        [[Problem.unresolvedTopicId], [Problem.unresolvedTopicId]]) ∧
    Walker.resolvePageThrough "main" (.const (.initial "main")) {} offeringPage =
      (Walker.resolvePage {} offeringPage).map .ok := by
  intro archive catalog pages final
  have hunbroken : ∀ page ∈ pages,
      ((Walker.resolvePage {} page).run catalog.fixed catalog.assets).result.stopped = none := by
    decide +kernel
  have hkb := catalog.isSteady_fixed
  obtain ⟨⟨results, houtcome, halone⟩, hthrough⟩ := resolve_eq_one_by_one hkb.toHasSteadyLookups
    (show 0 < 2 by decide) hunbroken [0, 1, 0, 1, 0, 1, 1, 1, 0, 0, 1]
  have hresults : pages.map (ResolvedPage.alone {} catalog.fixed []) = results := by
    rw [← List.forall₂_eq_eq_eq, List.forall₂_map_left_iff]
    exact halone.imp fun _ _ h => (h.steady (Or.inl hkb) []).symm
  refine ⟨hunbroken, ⟨results, houtcome, ?_⟩, ?_⟩
  · rw [← hresults]
    decide +kernel
  · exact hthrough offeringPage List.mem_cons_self
      (Identity.isMade_ofText _ _ _ (List.cons_ne_nil "swift" [])) "main"
      (.const (.initial "main")) fun _ => rfl

/-- A knowledge base that knows every link as a child of the place from which it is seen. The root
of tutorials moves each time it is asked for. -/
def movingRoot : KnowledgeBase Bool where
  answer
    | .resolve link parent _, moved => (.ok ((parent.appendingLink? link).getD parent), moved)
    | .resourceExists _, moved => (true, moved)
    | .uncuratedMatch _, moved => (none, moved)
    | .root .tutorials, moved =>
      let path := if moved then "/tutorials/B" else "/tutorials/A"
      (.ofText "org.example.Kit" path none (.single "swift"), !moved)
    | .root _, moved => (.ofText "org.example.Kit" "/" none (.single "swift"), moved)
    | .findAsset _ _, moved => (none, moved)
    | .updateAsset _ _ _, moved => ((), moved)

/-- A table of contents with one chapter, which curates one tutorial. -/
def contentsPage : Page where
  reference := .ofText "org.example.Kit" "/tutorials/Kit" none (.single "swift")
  source := none
  content := .contents {
    intro := { title := "", content := [], image := none, video := none }
    volumes := [{
      name := "Guides"
      content := []
      image := none
      chapters := [{
        name := "Basics"
        content := []
        image := none
        references := [⟨.unresolved (.parse "doc:First"), none⟩] }] }] }

/-- The look-ups of a moving root are steady, and yet a batch of two tables of contents does not
come to what they come to alone, in any state: the first chapter is told one root, and the second
one the other root. -/
theorem resolve_ne_one_by_one_of_moving_root :
    let pages := [contentsPage, contentsPage]
    movingRoot.HasSteadyLookups ∧
    (∀ page ∈ pages, ((Walker.resolvePage {} page).run movingRoot false).result.stopped = none) ∧
    ∀ state, (resolve {} movingRoot pages 1 [] false).outcome ≠
      .resolved (pages.map (ResolvedPage.alone {} movingRoot state)) := by
  intro pages
  refine ⟨⟨fun _ _ _ _ _ => rfl, fun _ _ _ => rfl, fun _ _ _ => rfl⟩, by decide +kernel, ?_⟩
  intro state heq
  let first := ResolvedPage.alone {} movingRoot false contentsPage
  let second := ResolvedPage.alone {} movingRoot true contentsPage
  have hsorted : inPageOrder [(0, first), (1, second)] = [first, second] := by
    simp [inPageOrder, List.mergeSort]
  have houtcome : (resolve {} movingRoot pages 1 [] false).outcome =
      .resolved (inPageOrder [(0, first), (1, second)]) := by rfl
  rw [houtcome, hsorted] at heq
  obtain ⟨hfirst, hsecond⟩ := List.cons_eq_cons.mp (Outcome.resolved.inj heq)
  have hsame : first = second := hfirst.trans (List.head_eq_of_cons_eq hsecond).symm
  have htopics : first.page.content.topics ≠ second.page.content.topics := by decide +kernel
  exact htopics (congrArg (fun result => result.page.content.topics) hsame)

/-- If some page breaks a worker, a batch never comes to results. It is told which worker broke
down exactly if there is only one that can: with one worker, or with one such page. With more
of both a worker breaks down unattended, and the batch breaks down itself. -/
theorem outcome_of_breaking {workers : Nat} (hworkers : 0 < workers) {knowledge : σ}
    (h : ∃ page ∈ pages,
      ((Walker.resolvePage settings page).run kb knowledge).result.stopped ≠ none)
    (schedule : List Nat) :
    let outcome := (resolve settings kb pages workers schedule knowledge).outcome
    let breaking := pages.countP (breaks settings kb knowledge)
    (∀ results, outcome ≠ .resolved results) ∧
      ((∃ worker < min workers pages.length, outcome = .workerBroke worker) ↔
        workers = 1 ∨ breaking = 1) ∧
      (outcome = .unattended ↔ 1 < workers ∧ 1 < breaking) := by
  intro outcome breaking
  have hcount := countP_isBroken_resolve settings kb pages workers schedule knowledge knowledge
  have hlength : (resolve settings kb pages workers schedule knowledge).workers.length =
      workerCount workers pages.length := length_workers_resolve workers schedule knowledge
  obtain ⟨page, hpage, hstopped⟩ := h
  have hbreaking : 0 < breaking :=
    List.countP_pos_iff.mpr ⟨page, hpage, Option.ne_none_iff_isSome.mp hstopped⟩
  have hsome : breaking ≤ pages.length := List.countP_le_length
  change _ = min workers breaking at hcount
  rw [workerCount] at hlength
  rcases (resolve settings kb pages workers schedule knowledge).outcome_cases with
    ⟨hnone, -⟩ | ⟨hone, worker, hworker, houtcome⟩ | ⟨hmany, houtcome⟩
  · omega
  · have hindex : worker < min workers pages.length := by omega
    change outcome = _ at houtcome
    rw [houtcome]
    refine ⟨fun _ => Outcome.noConfusion, ⟨fun _ => by omega, fun _ => ⟨worker, hindex, rfl⟩⟩, ?_⟩
    exact ⟨fun hother => Outcome.noConfusion hother, fun _ => by omega⟩
  · change outcome = _ at houtcome
    rw [houtcome]
    refine ⟨fun _ => Outcome.noConfusion, ⟨?_, fun _ => by omega⟩,
      ⟨fun _ => by omega, fun _ => rfl⟩⟩
    rintro ⟨worker, -, hother⟩
    cases hother

/-- A symbol page with a variant in a language that it does not declare. -/
def undeclaredPage : Page where
  reference := .ofText "org.example.Kit" "/documentation/Kit/View" none (.single "swift")
  source := none
  content := .symbol {
    languages := .single "swift"
    docComment := none
    summary := ⟨[("occ", none)]⟩
    discussion := ⟨[]⟩
    parameters := ⟨[]⟩
    returns := ⟨[]⟩
    seeAlso := ⟨[]⟩
    topics := ⟨[]⟩ }

/-- Of two workers one meets the only page that breaks a worker, and the batch tells which. -/
theorem outcome_of_breaking_of_single :
    let pages := [undeclaredPage, offeringPage]
    let final := resolve {} Catalog.knowledge pages 2 [1] {}
    (∃ page ∈ pages,
      ((Walker.resolvePage {} page).run Catalog.knowledge {}).result.stopped ≠ none) ∧
    ∃ worker < 2, final.outcome = .workerBroke worker := by
  intro pages final
  have hbreaks : ∃ page ∈ pages,
      ((Walker.resolvePage {} page).run Catalog.knowledge {}).result.stopped ≠ none := by
    decide +kernel
  have hfinal := outcome_of_breaking (show 0 < 2 by decide) hbreaks [1]
  have hsingle : pages.countP (breaks {} Catalog.knowledge {}) = 1 := by decide +kernel
  exact ⟨hbreaks, hfinal.2.1.mpr (Or.inr hsingle)⟩

/-- Two workers that meet two such pages both break down, and nobody asks the second one, so the
batch breaks down itself. -/
theorem unattended_of_two_breaking :
    let pages := [undeclaredPage, undeclaredPage]
    let final := resolve {} Catalog.knowledge pages 2 [] {}
    (∃ page ∈ pages,
      ((Walker.resolvePage {} page).run Catalog.knowledge {}).result.stopped ≠ none) ∧
    final.outcome = .unattended ∧
    ¬∃ worker < min 2 pages.length, final.outcome = .workerBroke worker := by
  intro pages final
  have houtcome : final.outcome = .unattended := by rfl
  refine ⟨by decide +kernel, houtcome, ?_⟩
  rintro ⟨worker, -, hworker⟩
  rw [houtcome] at hworker
  cases hworker

end Batch

end TopicLinks
