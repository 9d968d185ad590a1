import Mathlib.Data.List.Forall2
import TopicLinks.Dialogue

/-!
# Laws of dialogues

Dialogues are compared before they are run: two equal dialogues ask the same queries and
report the same problems against every knowledge base. A property of all ends of a dialogue
holds whatever the answers are.
-/

namespace TopicLinks.Dialogue

variable {α β γ σ : Type}

/-- Change the result of a dialogue. -/
def map (f : α → β) (d : Dialogue α) : Dialogue β := d.bind fun a => .done (f a)

@[simp] theorem map_done (f : α → β) (a : α) : (done a).map f = done (f a) := rfl

theorem map_bind (d : Dialogue α) (f : α → Dialogue β) (g : β → γ) :
    (d.bind f).map g = d.bind fun a => (f a).map g :=
  bind_assoc d f _

theorem bind_map (d : Dialogue α) (f : α → β) (g : β → Dialogue γ) :
    (d.map f).bind g = d.bind fun a => g (f a) := by
  rw [map, bind_assoc]
  simp only [done_bind]

theorem map_map (d : Dialogue α) (f : α → β) (g : β → γ) :
    (d.map f).map g = d.map fun a => g (f a) :=
  bind_map d f _

@[simp] theorem map_id (d : Dialogue α) : d.map (fun a => a) = d := bind_done d

/-- A change of the result leaves queries, problems and state alone. -/
theorem run_map (kb : KnowledgeBase σ) (d : Dialogue α) (f : α → β) (state : σ) :
    (d.map f).run kb state =
      let t := d.run kb state
      ⟨f t.result, t.calls, t.problems, t.state⟩ := by
  rw [map, run_bind]
  simp [run]

@[simp] theorem each_nil (f : α → Dialogue β) : each f [] = .done [] := rfl

theorem each_cons (f : α → Dialogue β) (a : α) (rest : List α) :
    each f (a :: rest) = (f a).bind fun b => (each f rest).map (b :: ·) := rfl

theorem each_singleton (f : α → Dialogue β) (a : α) : each f [a] = (f a).map ([·]) := rfl

/-- A list is gone through by going through its parts. -/
theorem each_append (f : α → Dialogue β) (before after : List α) :
    each f (before ++ after) =
      (each f before).bind fun first => (each f after).map (first ++ ·) := by
  induction before with
  | nil => simp
  | cons a rest ih =>
    rw [List.cons_append, each_cons, ih, each_cons, bind_assoc]
    congr 1
    funext b
    rw [bind_map, map_bind]
    simp only [map_map, List.cons_append]

/-- Every end of a dialogue has a property, whatever the answers are. -/
def Returns (P : α → Prop) : Dialogue α → Prop
  | .done a => P a
  | .ask _ next => ∀ answer, Returns P (next answer)
  | .report _ next => Returns P next

theorem returns_of_forall {P : α → Prop} (h : ∀ a, P a) (d : Dialogue α) : Returns P d := by
  induction d with
  | done a => exact h a
  | ask q next ih => exact ih
  | report p next ih => exact ih

theorem Returns.bind {P : α → Prop} {Q : β → Prop} {d : Dialogue α} {f : α → Dialogue β}
    (hd : Returns P d) (hf : ∀ a, P a → Returns Q (f a)) : Returns Q (d.bind f) := by
  induction d with
  | done a => exact hf a hd
  | ask q next ih => exact fun answer => ih answer (hd answer)
  | report p next ih => exact ih hd

theorem Returns.mono {P Q : α → Prop} {d : Dialogue α} (hd : Returns P d) (h : ∀ a, P a → Q a) :
    Returns Q d := by
  induction d with
  | done a => exact h a hd
  | ask q next ih => exact fun answer => ih answer (hd answer)
  | report p next ih => exact ih hd

theorem Returns.and {P Q : α → Prop} {d : Dialogue α} (hP : Returns P d) (hQ : Returns Q d) :
    Returns (fun a => P a ∧ Q a) d := by
  induction d with
  | done a => exact ⟨hP, hQ⟩
  | ask q next ih => exact fun answer => ih answer (hP answer) (hQ answer)
  | report p next ih => exact ih hP hQ

/-- A property of all continuations holds whatever a dialogue begins with. -/
theorem returns_bind_of_forall {Q : β → Prop} {d : Dialogue α} {f : α → Dialogue β}
    (hf : ∀ a, Returns Q (f a)) : Returns Q (d.bind f) :=
  (returns_of_forall (P := fun _ => True) (fun _ => trivial) d).bind fun a _ => hf a

/-- Elements that are changed one by one make a list of changed elements. -/
theorem returns_each {R : α → β → Prop} {f : α → Dialogue β} (h : ∀ a, Returns (R a) (f a))
    (as : List α) : Returns (List.Forall₂ R as) (each f as) := by
  induction as with
  | nil => exact List.Forall₂.nil
  | cons a as ih => exact (h a).bind fun b hb => ih.bind fun bs hbs => List.Forall₂.cons hb hbs

/-- A value that may be missing is changed, or is still missing. -/
theorem returns_maybe {R : α → β → Prop} {f : α → Dialogue β} (h : ∀ a, Returns (R a) (f a))
    (a? : Option α) : Returns (Option.Rel R a?) (maybe f a?) := by
  cases a? with
  | none => exact Option.Rel.none
  | some a => exact (h a).bind fun b hb => Option.Rel.some hb

/-- Two ways to go on that agree on all ends of a dialogue make one dialogue. -/
theorem Returns.bind_congr {P : α → Prop} {d : Dialogue α} {f g : α → Dialogue β}
    (hd : Returns P d) (hfg : ∀ a, P a → f a = g a) : d.bind f = d.bind g := by
  induction d with
  | done a => exact hfg a hd
  | ask q next ih =>
    rw [ask_bind, ask_bind]
    congr 1
    exact funext fun answer => ih answer (hd answer)
  | report p next ih => rw [report_bind, report_bind, ih hd]

/-- Every query of a dialogue has a property, whatever the answers are. -/
def Asks (P : Query → Prop) : Dialogue α → Prop
  | .done _ => True
  | .ask q next => P q ∧ ∀ answer, Asks P (next answer)
  | .report _ next => Asks P next

theorem Asks.bind {P : Query → Prop} {d : Dialogue α} {f : α → Dialogue β} (hd : Asks P d)
    (hf : ∀ a, Asks P (f a)) : Asks P (d.bind f) := by
  induction d with
  | done a => exact hf a
  | ask q next ih => exact ⟨hd.1, fun answer => ih answer (hd.2 answer)⟩
  | report p next ih => exact ih hd

theorem Asks.mono {P Q : Query → Prop} {d : Dialogue α} (hd : Asks P d) (h : ∀ q, P q → Q q) :
    Asks Q d := by
  induction d with
  | done a => trivial
  | ask q next ih => exact ⟨h q hd.1, fun answer => ih answer (hd.2 answer)⟩
  | report p next ih => exact ih hd

theorem Asks.map {P : Query → Prop} {d : Dialogue α} (hd : Asks P d) (f : α → β) :
    Asks P (d.map f) :=
  hd.bind fun _ => trivial

theorem asks_of_map {P : Query → Prop} {d : Dialogue α} {f : α → β} (h : Asks P (d.map f)) :
    Asks P d := by
  induction d with
  | done a => trivial
  | ask q next ih => exact ⟨h.1, fun answer => ih answer (h.2 answer)⟩
  | report p next ih => exact ih h

theorem asks_each {P : Query → Prop} {f : α → Dialogue β} {as : List α}
    (h : ∀ a ∈ as, Asks P (f a)) : Asks P (each f as) := by
  induction as with
  | nil => trivial
  | cons a as ih =>
    obtain ⟨hfirst, hrest⟩ := List.forall_mem_cons.mp h
    exact hfirst.bind fun b => (ih hrest).bind fun bs => trivial

/-- The queries of a run are among those of the dialogue. -/
theorem Asks.run {P : Query → Prop} {d : Dialogue α} (hd : Asks P d) (kb : KnowledgeBase σ)
    (state : σ) : ∀ q ∈ (d.run kb state).calls, P q := by
  induction d generalizing state with
  | done a => exact fun q hq => absurd hq List.not_mem_nil
  | ask q next ih =>
    exact List.forall_mem_cons.mpr ⟨hd.1, ih (kb.answer q state).1 (hd.2 _) (kb.answer q state).2⟩
  | report p next ih => exact ih hd state

/-- Every problem that a dialogue reports has a property, whatever the answers are. -/
def Reports (P : Problem → Prop) : Dialogue α → Prop
  | .done _ => True
  | .ask _ next => ∀ answer, Reports P (next answer)
  | .report p next => P p ∧ Reports P next

theorem Reports.bind {P : Problem → Prop} {d : Dialogue α} {f : α → Dialogue β} (hd : Reports P d)
    (hf : ∀ a, Reports P (f a)) : Reports P (d.bind f) := by
  induction d with
  | done a => exact hf a
  | ask q next ih => exact fun answer => ih answer (hd answer)
  | report p next ih => exact ⟨hd.1, ih hd.2⟩

theorem reports_of_map {P : Problem → Prop} {d : Dialogue α} {f : α → β}
    (h : Reports P (d.map f)) : Reports P d := by
  induction d with
  | done a => trivial
  | ask q next ih => exact fun answer => ih answer (h answer)
  | report p next ih => exact ⟨h.1, ih h.2⟩

theorem reports_each {P : Problem → Prop} {f : α → Dialogue β} {as : List α}
    (h : ∀ a ∈ as, Reports P (f a)) : Reports P (each f as) := by
  induction as with
  | nil => trivial
  | cons a as ih =>
    obtain ⟨hfirst, hrest⟩ := List.forall_mem_cons.mp h
    exact hfirst.bind fun b => (ih hrest).bind fun bs => trivial

/-- The problems of a run are among those of the dialogue. -/
theorem Reports.run {P : Problem → Prop} {d : Dialogue α} (hd : Reports P d)
    (kb : KnowledgeBase σ) (state : σ) : ∀ p ∈ (d.run kb state).problems, P p := by
  induction d generalizing state with
  | done a => exact fun p hp => absurd hp List.not_mem_nil
  | ask q next ih => exact ih (kb.answer q state).1 (hd _) (kb.answer q state).2
  | report p next ih => exact List.forall_mem_cons.mpr ⟨hd.1, ih hd.2 state⟩

/-- What holds of all ends holds of the end of a run. -/
theorem Returns.run {P : α → Prop} {d : Dialogue α} (hd : Returns P d) (kb : KnowledgeBase σ)
    (state : σ) : P (d.run kb state).result := by
  induction d generalizing state with
  | done a => exact hd
  | ask q next ih => exact ih (kb.answer q state).1 (hd _) (kb.answer q state).2
  | report p next ih => exact ih hd state

end TopicLinks.Dialogue
