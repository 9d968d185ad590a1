import TopicLinks.Proofs.Walk.Rebuilding

/-!
# The entries of a symbol page

The sections of a symbol page are one list of entries, and the walk of the page goes through
this list. Entries in declared languages are resolved one after the other; at the first entry in
another language the walk stops.
-/

namespace TopicLinks

namespace SymbolPage

/-- The value of an entry of a symbol page, with the section that it stands in. -/
inductive Part where
  /-- A summary. -/
  | summary (markup : Option Markup)
  /-- A discussion. -/
  | discussion (markup : Option Markup)
  /-- Parameters. -/
  | parameters (parameters : List Parameter)
  /-- A description of the result. -/
  | returns (markup : Option Markup)
  /-- Groups of related topics. -/
  | seeAlso (groups : List TaskGroup)
  /-- Groups of curated topics. -/
  | topics (groups : List TaskGroup)

namespace Part

/-- The place of a section in the walk of a page. -/
def rank : Part → Nat
  | .summary _ => 0
  | .discussion _ => 1
  | .parameters _ => 2
  | .returns _ => 3
  | .seeAlso _ => 4
  | .topics _ => 5

/-- The value of a summary. -/
def summary? : Part → Option (Option Markup)
  | .summary value => some value
  | _ => none

/-- The value of a discussion. -/
def discussion? : Part → Option (Option Markup)
  | .discussion value => some value
  | _ => none

/-- The value of parameters. -/
def parameters? : Part → Option (List Parameter)
  | .parameters value => some value
  | _ => none

/-- The value of a description of the result. -/
def returns? : Part → Option (Option Markup)
  | .returns value => some value
  | _ => none

/-- The value of groups of related topics. -/
def seeAlso? : Part → Option (List TaskGroup)
  | .seeAlso value => some value
  | _ => none

/-- The value of groups of curated topics. -/
def topics? : Part → Option (List TaskGroup)
  | .topics value => some value
  | _ => none

end Part

variable {α : Type}

/-- The entries of one section, as entries of the page. -/
def sectionEntries (part : α → Part) (variants : Variants α) : List (Language × Part) :=
  variants.entries.map fun entry => (entry.1, part entry.2)

/-- All entries of a page, in the order of the walk. -/
def entries (p : SymbolPage) : List (Language × Part) :=
  sectionEntries .summary p.summary ++ (sectionEntries .discussion p.discussion ++
    (sectionEntries .parameters p.parameters ++ (sectionEntries .returns p.returns ++
      (sectionEntries .seeAlso p.seeAlso ++ sectionEntries .topics p.topics))))

/-- The variants of a section that are among some entries. -/
def sectionOf (value? : Part → Option α) (entries : List (Language × Part)) : Variants α :=
  ⟨entries.filterMap fun entry => (value? entry.2).map (entry.1, ·)⟩

/-- The same page with other entries. -/
def withEntries (p : SymbolPage) (entries : List (Language × Part)) : SymbolPage where
  languages := p.languages
  docComment := p.docComment
  summary := sectionOf Part.summary? entries
  discussion := sectionOf Part.discussion? entries
  parameters := sectionOf Part.parameters? entries
  returns := sectionOf Part.returns? entries
  seeAlso := sectionOf Part.seeAlso? entries
  topics := sectionOf Part.topics? entries

/-- A page is made of its sections. -/
theorem withEntries_entries (p q : SymbolPage) :
    p.withEntries q.entries = { q with languages := p.languages, docComment := p.docComment } := by
  simp [withEntries, sectionOf, entries, sectionEntries, List.filterMap_append,
    List.filterMap_map, Part.summary?, Part.discussion?, Part.parameters?,
    Part.returns?, Part.seeAlso?, Part.topics?]

/-- The entries of one section are those at its place. -/
theorem sectionEntries_sectionOf {part : α → Part} {value? : Part → Option α} (place : Nat)
    (h : ∀ p : Part, (value? p).map part = if p.rank = place then some p else none)
    (entries : List (Language × Part)) :
    sectionEntries part (sectionOf value? entries) =
      entries.filter fun entry => entry.2.rank = place := by
  rw [sectionEntries, sectionOf, List.map_filterMap, ← List.filterMap_eq_filter]
  congr 1
  funext entry
  have hpart := h entry.2
  by_cases hplace : entry.2.rank = place
  · rw [if_pos hplace] at hpart
    simp only [Option.guard, hplace, decide_true, if_true, Option.map_map]
    obtain ⟨value, hvalue, heq⟩ := Option.map_eq_some_iff.mp hpart
    rw [hvalue, Option.map_some, Function.comp_apply, heq]
  · rw [if_neg hplace, Option.map_eq_none_iff] at hpart
    simp [Option.guard, hplace, hpart]

/-- Entries in the order of the sections. -/
def AreInOrder (entries : List (Language × Part)) : Prop :=
  entries.Pairwise fun a b => a.2.rank ≤ b.2.rank

/-- In the order of the sections, the entries from one place on are those at this place and then
those at later places. -/
theorem filter_rank_eq_append {entries : List (Language × Part)} (h : AreInOrder entries)
    (place : Nat) :
    (entries.filter fun entry => place ≤ entry.2.rank) =
      (entries.filter fun entry => entry.2.rank = place) ++
        entries.filter fun entry => place + 1 ≤ entry.2.rank := by
  induction entries with
  | nil => rfl
  | cons entry rest ih =>
    obtain ⟨hfirst, hrest⟩ := List.pairwise_cons.mp h
    have hrest := ih hrest
    simp only [List.filter_cons]
    rcases Nat.lt_trichotomy entry.2.rank place with hlt | heq | hgt
    · rw [decide_eq_false (by omega), decide_eq_false (by omega), decide_eq_false (by omega)]
      exact hrest
    · rw [decide_eq_true (by omega), decide_eq_true heq, decide_eq_false (by omega)]
      exact congrArg (entry :: ·) hrest
    · have hnone : (rest.filter fun entry => entry.2.rank = place) = [] := by
        refine List.filter_eq_nil_iff.mpr fun other hother hplace => ?_
        have hfollows := hfirst other hother
        have hother := of_decide_eq_true hplace
        omega
      rw [hnone, List.nil_append] at hrest
      rw [decide_eq_true (by omega), decide_eq_false (by omega), decide_eq_true (by omega), hnone]
      exact congrArg (entry :: ·) hrest

/-- Entries that are in the order of the sections are the entries of a page. -/
theorem entries_withEntries (p : SymbolPage) {entries : List (Language × Part)}
    (h : AreInOrder entries) :
    (p.withEntries entries).entries = entries := by
  have hlast : (entries.filter fun entry => entry.2.rank = 5) =
      entries.filter fun entry => 5 ≤ entry.2.rank := by
    refine List.filter_congr fun entry _ => ?_
    cases entry.2 <;> rfl
  have hall : (entries.filter fun entry => 0 ≤ entry.2.rank) = entries := by simp
  simp only [SymbolPage.entries, withEntries]
  rw [sectionEntries_sectionOf 0 (fun part => by cases part <;> rfl),
    sectionEntries_sectionOf 1 (fun part => by cases part <;> rfl),
    sectionEntries_sectionOf 2 (fun part => by cases part <;> rfl),
    sectionEntries_sectionOf 3 (fun part => by cases part <;> rfl),
    sectionEntries_sectionOf 4 (fun part => by cases part <;> rfl),
    sectionEntries_sectionOf 5 (fun part => by cases part <;> rfl), hlast,
    ← filter_rank_eq_append h, ← filter_rank_eq_append h, ← filter_rank_eq_append h,
    ← filter_rank_eq_append h, ← filter_rank_eq_append h, hall]

/-- A section is in order before sections at later places. -/
theorem AreInOrder.cons_section (part : α → Part) {place : Nat}
    (hpart : ∀ a, (part a).rank = place) (variants : Variants α) {later : List (Language × Part)}
    (h : AreInOrder later ∧ ∀ entry ∈ later, place + 1 ≤ entry.2.rank) :
    AreInOrder (sectionEntries part variants ++ later) ∧
      ∀ entry ∈ sectionEntries part variants ++ later, place ≤ entry.2.rank := by
  have hsection : ∀ entry ∈ sectionEntries part variants, entry.2.rank = place := by
    intro entry hentry
    obtain ⟨value, -, rfl⟩ := List.mem_map.mp hentry
    exact hpart value.2
  constructor
  · refine List.pairwise_append.mpr ⟨?_, h.1, fun a ha b hb => ?_⟩
    · refine List.Pairwise.imp_of_mem (R := fun _ _ => True) (fun ha hb _ => ?_)
        (List.pairwise_of_forall fun _ _ => trivial)
      rw [hsection _ ha, hsection _ hb]
    · rw [hsection a ha]
      exact Nat.le_of_succ_le (h.2 b hb)
  · refine List.forall_mem_append.mpr ⟨fun a ha => (hsection a ha).ge, fun b hb => ?_⟩
    exact Nat.le_of_succ_le (h.2 b hb)

/-- The entries of a page are in the order of the sections. -/
theorem areInOrder_entries (p : SymbolPage) : AreInOrder p.entries := by
  have hnothing : AreInOrder [] ∧ ∀ entry ∈ ([] : List (Language × Part)), 6 ≤ entry.2.rank :=
    ⟨List.Pairwise.nil, fun _ h => absurd h List.not_mem_nil⟩
  rw [entries, ← List.append_nil (sectionEntries .topics p.topics)]
  refine (AreInOrder.cons_section .summary (fun _ => rfl) p.summary ?_).1
  refine AreInOrder.cons_section .discussion (fun _ => rfl) p.discussion ?_
  refine AreInOrder.cons_section .parameters (fun _ => rfl) p.parameters ?_
  refine AreInOrder.cons_section .returns (fun _ => rfl) p.returns ?_
  refine AreInOrder.cons_section .seeAlso (fun _ => rfl) p.seeAlso ?_
  exact AreInOrder.cons_section .topics (fun _ => rfl) p.topics hnothing

/-- Entries at the same places are in the same order. -/
theorem AreInOrder.of_places {before after : List (Language × Part)}
    (h : List.Forall₂ (fun a b => a.1 = b.1 ∧ a.2.rank = b.2.rank) before after)
    (hbefore : AreInOrder before) : AreInOrder after := by
  have hranks : before.map (·.2.rank) = after.map (·.2.rank) :=
    List.forall₂_eq_eq_eq ▸ List.forall₂_map_left_iff.mpr
      (List.forall₂_map_right_iff.mpr (h.imp fun _ _ h => h.2))
  refine List.pairwise_map.mp (?_ : (after.map (·.2.rank)).Pairwise (· ≤ ·))
  rw [← hranks]
  exact List.pairwise_map.mpr hbefore

/-- All variants of a page are in declared languages if and only if all entries are. -/
theorem isDeclared_iff (p : SymbolPage) :
    p.IsDeclared ↔ ∀ entry ∈ p.entries, entry.1 ∈ p.languages := by
  have hsection : ∀ {α : Type} (part : α → Part) (variants : Variants α),
      (∀ entry ∈ sectionEntries part variants, entry.1 ∈ p.languages) ↔
        variants.DeclaredIn p.languages := fun _ _ => List.forall_mem_map
  simp only [entries, List.forall_mem_append, hsection]
  exact ⟨fun ⟨h₁, h₂, h₃, h₄, h₅, h₆⟩ => ⟨h₁, h₂, h₃, h₄, h₅, h₆⟩,
    fun ⟨h₁, h₂, h₃, h₄, h₅, h₆⟩ => ⟨h₁, h₂, h₃, h₄, h₅, h₆⟩⟩

end SymbolPage

namespace Viewpoint

open Dialogue SymbolPage

variable {α : Type} (v : Viewpoint) (declared : LanguageSet) (parent : Identity)

/-- Resolve the value of an entry, in the way of its section. -/
def resolvePart : Part → Dialogue Part
  | .summary markup => (v.resolveSection parent markup).map .summary
  | .discussion markup => (v.resolveSection parent markup).map .discussion
  | .parameters parameters => (each (v.resolveParameter parent) parameters).map .parameters
  | .returns markup => (v.resolveSection parent markup).map .returns
  | .seeAlso groups => (each (v.resolveGroup parent) groups).map .seeAlso
  | .topics groups => (each (v.resolveGroup parent) groups).map .topics

/-- A value stays in its section. -/
theorem returns_rank_resolvePart (part : Part) :
    (v.resolvePart parent part).Returns fun part' => part.rank = part'.rank := by
  cases part <;> exact returns_bind_of_forall fun _ => rfl

/-- After the entries of a section come those of the next sections, if the walk does not stop. -/
theorem resolveEntries_append (resolve : Identity → α → Dialogue α)
    (before after : List (Language × α)) :
    resolveEntries declared parent resolve (before ++ after) =
      (resolveEntries declared parent resolve before).bind fun progress =>
        match progress.stopped with
        | some cause => .done ⟨progress.value ++ after, some cause⟩
        | none => (resolveEntries declared parent resolve after).map
            (·.map (progress.value ++ ·)) := by
  induction before with
  | nil => exact (map_id _).symm
  | cons entry rest ih =>
    obtain ⟨language, value⟩ := entry
    simp only [List.cons_append, resolveEntries]
    cases declared.forVariant language with
    | error cause => rfl
    | ok declaredLanguage =>
      simp only [bind_eq, pure_eq, bind_assoc, ih, done_bind, Progress.map]
      congr 1
      funext value'
      congr 1
      funext progress
      cases progress.stopped with
      | none => exact map_map _ _ _
      | some cause => rfl

/-- The entries of a section are resolved as its variants. -/
theorem resolveEntries_section {part : α → Part} {resolve : Identity → α → Dialogue α}
    (h : ∀ parent value, v.resolvePart parent (part value) = (resolve parent value).map part)
    (variants : Variants α) :
    resolveEntries declared parent v.resolvePart (sectionEntries part variants) =
      (resolveVariants declared parent resolve variants).map (·.map (sectionEntries part)) := by
  obtain ⟨entries⟩ := variants
  have hentries : resolveEntries declared parent v.resolvePart (sectionEntries part ⟨entries⟩) =
      (resolveEntries declared parent resolve entries).map
        (·.map fun entries => sectionEntries part ⟨entries⟩) := by
    induction entries with
    | nil => rfl
    | cons entry rest ih =>
      obtain ⟨language, value⟩ := entry
      simp only [sectionEntries] at ih
      simp only [sectionEntries, List.map_cons, resolveEntries]
      cases declared.forVariant language with
      | error cause => rfl
      | ok declaredLanguage =>
        simp only [bind_eq, pure_eq, h, bind_map, ih, map_bind]
        rfl
  rw [hentries, resolveVariants, bind_eq, map_bind]
  rfl

/-- A section is resolved before the sections after it, as the first of all entries. -/
theorem inTurn_cons_eq_entries {resolve : Identity → α → Dialogue α} {part : α → Part}
    {variants : Variants α} {set : Variants α → SymbolPage}
    {step : SymbolPage → Dialogue (Progress SymbolPage)}
    {steps : List (SymbolPage → Dialogue (Progress SymbolPage))} {page : SymbolPage}
    {rest : List (Language × Part)} {rebuild : List (Language × Part) → SymbolPage}
    (h : ∀ parent value, v.resolvePart parent (part value) = (resolve parent value).map part)
    (hstep : step page = (resolveVariants declared parent resolve variants).map (·.map set))
    (hset : ∀ variants, rebuild (sectionEntries part variants ++ rest) = set variants)
    (hrest : ∀ variants, inTurn steps (set variants) =
      (resolveEntries declared parent v.resolvePart rest).map
        (·.map fun entries => rebuild (sectionEntries part variants ++ entries))) :
    inTurn (step :: steps) page =
      (resolveEntries declared parent v.resolvePart (sectionEntries part variants ++ rest)).map
        (·.map rebuild) := by
  rw [inTurn, hstep, bind_eq, bind_map, resolveEntries_append, v.resolveEntries_section _ _ h,
    bind_map, map_bind]
  congr 1
  funext progress
  obtain ⟨variants', stopped⟩ := progress
  cases stopped with
  | some cause => simp only [Progress.map, pure_eq, map_done, hset]
  | none =>
    simp only [Progress.map, map_map]
    exact hrest variants'

/-- The walk of a symbol page goes through the list of its entries. -/
theorem resolveSymbol_eq_entries (p : SymbolPage) :
    v.resolveSymbol parent p =
      (resolveEntries p.languages parent
        ({ v with inheritance := p.docComment.bind inheritanceOf } : Viewpoint).resolvePart
          p.entries).map (·.map p.withEntries) := by
  rw [resolveSymbol, entries, ← List.append_nil (sectionEntries .topics _)]
  -- For each section: it may be put back before the others, which are as they were, and the walk
  -- goes on with the others.
  refine inTurn_cons_eq_entries _ _ _ (fun _ _ => rfl) rfl (fun summary => ?_) fun summary => ?_
  · rw [List.append_nil]
    exact p.withEntries_entries { p with summary }
  refine inTurn_cons_eq_entries _ _ _ (fun _ _ => rfl) rfl (fun discussion => ?_)
    fun discussion => ?_
  · rw [List.append_nil]
    exact p.withEntries_entries { p with summary, discussion }
  refine inTurn_cons_eq_entries _ _ _ (fun _ _ => rfl) rfl (fun parameters => ?_)
    fun parameters => ?_
  · rw [List.append_nil]
    exact p.withEntries_entries { p with summary, discussion, parameters }
  refine inTurn_cons_eq_entries _ _ _ (fun _ _ => rfl) rfl (fun returns => ?_) fun returns => ?_
  · rw [List.append_nil]
    exact p.withEntries_entries { p with summary, discussion, parameters, returns }
  refine inTurn_cons_eq_entries _ _ _ (fun _ _ => rfl) rfl (fun seeAlso => ?_) fun seeAlso => ?_
  · rw [List.append_nil]
    exact p.withEntries_entries { p with summary, discussion, parameters, returns, seeAlso }
  have hwhole : ∀ topics, p.withEntries (sectionEntries .summary summary ++
      (sectionEntries .discussion discussion ++ (sectionEntries .parameters parameters ++
        (sectionEntries .returns returns ++ (sectionEntries .seeAlso seeAlso ++
          (sectionEntries .topics topics ++ [])))))) =
      { p with summary, discussion, parameters, returns, seeAlso, topics } := by
    intro topics
    rw [List.append_nil]
    exact p.withEntries_entries
      { p with summary, discussion, parameters, returns, seeAlso, topics }
  refine inTurn_cons_eq_entries _ _ _ (fun _ _ => rfl) rfl hwhole fun topics => ?_
  exact congrArg (fun page => Dialogue.done (⟨page, none⟩ : Progress SymbolPage))
    (hwhole topics).symm

/-- Entries in declared languages are resolved without stopping, and stay where they are. -/
theorem returns_resolveEntries_of_declared {entries : List (Language × Part)}
    (h : ∀ entry ∈ entries, entry.1 ∈ declared) :
    (resolveEntries declared parent v.resolvePart entries).Returns fun progress =>
      progress.stopped = none ∧
        List.Forall₂ (fun before after => before.1 = after.1 ∧ before.2.rank = after.2.rank)
          entries progress.value := by
  induction entries with
  | nil => exact ⟨rfl, .nil⟩
  | cons entry rest ih =>
    obtain ⟨language, part⟩ := entry
    obtain ⟨hlanguage, hrest⟩ := List.forall_mem_cons.mp h
    simp only [resolveEntries, LanguageSet.forVariant, if_pos hlanguage]
    refine (v.returns_rank_resolvePart _ part).bind fun part' hpart => ?_
    exact (ih hrest).bind fun progress hprogress => ⟨hprogress.1, .cons ⟨rfl, hpart⟩ hprogress.2⟩

/-- The walk stops at the first entry in an undeclared language. The entries before are resolved
as if there were no others, and the others are left as they are. -/
theorem resolveEntries_stops {resolve : Identity → α → Dialogue α} {before : List (Language × α)}
    (h : ∀ entry ∈ before, entry.1 ∈ declared) {language : Language}
    (hlanguage : language ∉ declared) (value : α) (after : List (Language × α)) :
    resolveEntries declared parent resolve (before ++ (language, value) :: after) =
      (resolveEntries declared parent resolve before).map fun progress =>
        ⟨progress.value ++ (language, value) :: after, some ⟨language⟩⟩ := by
  induction before with
  | nil => simp only [List.nil_append, resolveEntries, LanguageSet.forVariant, if_neg hlanguage,
      pure_eq, map_done]
  | cons entry rest ih =>
    obtain ⟨declaredLanguage, first⟩ := entry
    obtain ⟨hfirst, hrest⟩ := List.forall_mem_cons.mp h
    simp only [List.cons_append, resolveEntries, LanguageSet.forVariant, if_pos hfirst, bind_eq,
      pure_eq, ih hrest, bind_map, map_bind]
    rfl

end Viewpoint

/-- The walk of the page of a symbol goes through the list of its entries. -/
theorem Page.resolve_eq_entries (settings : Settings) {page : Page} {p : SymbolPage}
    (h : page.content = .symbol p) :
    page.resolve settings =
      (Viewpoint.resolveEntries p.languages page.reference
        (page.viewpoint settings).resolvePart p.entries).map
          (·.map fun entries => { page with content := .symbol (p.withEntries entries) }) := by
  obtain ⟨reference, source, content⟩ := page
  subst h
  simp only [resolve, Viewpoint.resolveContent, Viewpoint.resolveSymbol_eq_entries]
  simp only [Dialogue.bind_eq, Dialogue.pure_eq, Dialogue.bind_map, Dialogue.bind_assoc]
  rfl

/-- A page is declared unless it is the page of a symbol with an entry in a language that the page
does not declare. -/
theorem PageContent.isDeclared_iff (content : PageContent) :
    content.IsDeclared ↔
      ¬∃ p, content = .symbol p ∧ ∃ entry ∈ p.entries, entry.1 ∉ p.languages := by
  cases content with
  | symbol p =>
    have hdeclared := p.isDeclared_iff
    constructor
    · rintro h ⟨q, hq, entry, hentry, hlanguage⟩
      cases hq
      exact hlanguage (hdeclared.mp h entry hentry)
    · intro h
      refine hdeclared.mpr fun entry hentry => ?_
      by_contra hlanguage
      exact h ⟨p, rfl, entry, hentry, hlanguage⟩
  | article a => exact iff_of_true trivial fun ⟨_, h, _⟩ => nomatch h
  | contents c => exact iff_of_true trivial fun ⟨_, h, _⟩ => nomatch h
  | tutorial t => exact iff_of_true trivial fun ⟨_, h, _⟩ => nomatch h
  | tutorialArticle a => exact iff_of_true trivial fun ⟨_, h, _⟩ => nomatch h

end TopicLinks
