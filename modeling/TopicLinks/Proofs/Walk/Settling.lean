import TopicLinks.Resolution.Chapter
import TopicLinks.Proofs.Walk.Dialogue
import TopicLinks.Proofs.Walk.Occurrences

/-!
# Settling references one by one

A reference is settled on its own, without the page around it. The walk of a part of a page
settles the part when it does the same as settling the part's occurrences in their order.
Markup is settled by its walk; the proof follows the recursion of blocks and inline content.
-/

namespace TopicLinks

/-- What a walk can make of a topic reference: nothing, or it resolves a link. -/
def Topic.Refines (before after : Topic) : Prop :=
  after = before ∨ ∃ link identity, before = .unresolved link ∧ after = .resolved identity

theorem Topic.isDestination_eq (topic : Topic) :
    topic.isDestination = topic.link?.all AuthoredLink.isTopicLink := by
  cases topic with
  | resolved identity => rfl
  | unresolved link => rfl

/-- What names a topic before a walk names one after it. -/
theorem Topic.Refines.isDestination {before after : Topic} (h : before.Refines after)
    (hbefore : before.isDestination = true) : after.isDestination = true := by
  rcases h with rfl | ⟨link, identity, -, rfl⟩
  · exact hbefore
  · rfl

namespace Viewpoint

open Dialogue

variable {α β : Type} (v : Viewpoint) (parent : Identity)

/-- Settle one occurrence: resolve a topic, check a medium, or curate the tutorials of a
chapter from the root of the tutorials. -/
def settle : Occurrence → Dialogue Occurrence
  | .topic parent range fromSymbolLink topic =>
    (v.resolveTopic parent range fromSymbolLink topic).map (.topic parent range fromSymbolLink)
  | .media media => (v.checkMedia media).map fun _ => .media media
  | .chapter name references =>
    (Dialogue.query (.root .tutorials)).bind fun root =>
      (v.curate name root {} references).map (.chapter name)

/-- A walk settles some occurrences. What it leads to has the occurrences that were made
before the walk, and after them the settled ones; `after` tells the occurrences of a result. -/
def Settles (made before : List Occurrence) (d : Dialogue α) (after : α → List Occurrence) : Prop :=
  d.map after = (each v.settle before).map (made ++ ·)

variable {v} {made before rest : List Occurrence} {after : α → List Occurrence}
  {after' : β → List Occurrence}

theorem Settles.map_eq {d : Dialogue α} (hd : v.Settles [] before d after) :
    d.map after = each v.settle before :=
  hd.trans (map_id _)

theorem Settles.done {a : α} (h : after a = made) : v.Settles made [] (.done a) after := by
  simp [Settles, h]

theorem settles_singleton {o : Occurrence} {d : Dialogue α} :
    v.Settles [] [o] d after ↔ d.map after = (v.settle o).map ([·]) := by
  rw [Settles, each_singleton]
  simp

/-- Settling some occurrences and then others settles them all. -/
theorem Settles.bind {d : Dialogue α} {f : α → Dialogue β} (hd : v.Settles [] before d after)
    (hf : ∀ a, v.Settles (made ++ after a) rest (f a) after') :
    v.Settles made (before ++ rest) (d.bind f) after' := by
  have hnext : (fun a => (f a).map after') =
      fun a => (each v.settle rest).map (made ++ after a ++ ·) := funext hf
  rw [Settles, map_bind, hnext, each_append, map_bind, ← hd.map_eq, bind_map]
  simp only [map_map, List.append_assoc]

/-- The last occurrences of a walk stand after those that were made before. -/
theorem Settles.last {d : Dialogue α} (hd : v.Settles [] before d after)
    {after' : α → List Occurrence} (h : ∀ a, after' a = made ++ after a) :
    v.Settles made before d after' := by
  rw [Settles, funext h, ← hd.map_eq, map_map]

theorem Settles.bind_done {d : Dialogue α} {f : α → β} (hd : v.Settles [] before d after)
    (hf : ∀ a, after' (f a) = made ++ after a) :
    v.Settles made before (d.bind fun a => .done (f a)) after' :=
  (map_map d f after').trans (hd.last hf)

/-- What settles one element at a time settles a list. -/
theorem settles_each {occurrences : α → List Occurrence} {f : α → Dialogue α}
    (h : ∀ a, v.Settles [] (occurrences a) (f a) occurrences) (as : List α) :
    v.Settles [] (as.flatMap occurrences) (each f as) (·.flatMap occurrences) := by
  induction as with
  | nil => exact .done rfl
  | cons a as ih => exact (h a).bind fun b => ih.bind_done fun bs => rfl

/-- What settles a value settles one that may be missing. -/
theorem settles_maybe {occurrences : α → List Occurrence} {f : α → Dialogue α}
    (h : ∀ a, v.Settles [] (occurrences a) (f a) occurrences) (a? : Option α) :
    v.Settles [] (a?.elim [] occurrences) (maybe f a?) (Option.elim · [] occurrences) := by
  cases a? with
  | none => exact .done rfl
  | some a => exact (h a).bind_done fun b => rfl

variable (v)

/-- A topic reference is settled by resolving it. -/
theorem settles_topic (range : Option SourceRange) (fromSymbolLink : Bool) (topic : Topic) :
    v.Settles [] [.topic parent range fromSymbolLink topic]
      (v.resolveTopic parent range fromSymbolLink topic)
      fun topic => [.topic parent range fromSymbolLink topic] := by
  rw [settles_singleton, settle, map_map]

/-- A medium is settled by checking it. -/
theorem settles_media (file : Media) :
    v.Settles [] [.media file] (v.checkMedia file) fun _ => [.media file] := by
  rw [settles_singleton, settle, map_map]

theorem settles_media? (file : Option Media) :
    v.Settles [] (Occurrence.ofMedia? file) (v.checkMedia? file)
      fun _ => Occurrence.ofMedia? file := by
  cases file with
  | none => exact .done rfl
  | some file => exact v.settles_media file

/-- The tutorials of a chapter are settled together. -/
theorem settles_curated (name : String) (references : List TutorialReference) :
    v.Settles [] [.chapter name references]
      ((Dialogue.query (.root .tutorials)).bind fun root => v.curate name root {} references)
      fun references => [.chapter name references] := by
  rw [settles_singleton, settle, map_bind, map_bind]
  simp only [map_map]

/-- A second chance is one from the declaration that the documentation was inherited from. -/
theorem inheritance_of_secondChance? {link : AuthoredLink} {inherited : Inheritance}
    (h : v.secondChance? link = some inherited) : v.inheritance = some inherited := by
  unfold secondChance? at h
  split at h
  · exact h
  · cases h

/-- Where nothing is inherited, a failed link is not tried again. -/
theorem retry_of_inheritance_eq_none (hv : v.inheritance = none) (link : AuthoredLink)
    (range : Option SourceRange) (fromSymbolLink : Bool) :
    v.retry link range fromSymbolLink = .done none := by
  cases hchance : v.secondChance? link with
  | none =>
    rw [retry, hchance]
    rfl
  | some inherited =>
    exact absurd ((v.inheritance_of_secondChance? hchance).symm.trans hv) (Option.some_ne_none _)

/-- A topic reference is left as it is, or its link is resolved. -/
theorem returns_resolveTopic (range : Option SourceRange) (fromSymbolLink : Bool) (topic : Topic) :
    (v.resolveTopic parent range fromSymbolLink topic).Returns topic.Refines := by
  cases topic with
  | resolved identity => exact Or.inl rfl
  | unresolved link =>
    intro answer
    cases answer with
    | ok identity => exact Or.inr ⟨link, identity, rfl, rfl⟩
    | error failure =>
      change Returns _ ((v.retry link range fromSymbolLink).bind _)
      refine (returns_of_forall (P := fun _ => True) (fun _ => trivial) _).bind fun target _ => ?_
      cases target with
      | none => exact fun _ => Or.inl rfl
      | some identity => exact Or.inr ⟨link, identity, rfl, rfl⟩

/-- The destination of a link is settled if it is an occurrence, and left alone otherwise. -/
theorem settles_destination (range : Option SourceRange) (destination : Topic) :
    v.Settles [] (Occurrence.ofLink parent range destination)
      (v.resolveDestination parent range destination) (Occurrence.ofLink parent range) := by
  unfold Occurrence.ofLink resolveDestination
  rw [← Topic.isDestination_eq]
  split
  · rename_i hdestination
    -- The result names a topic too, so it is counted again.
    have hcounted : (v.resolveTopic parent range false destination).map
        (Occurrence.ofLink parent range) = (v.resolveTopic parent range false destination).map
        fun topic => [.topic parent range false topic] := by
      refine (v.returns_resolveTopic parent range false destination).bind_congr fun topic h => ?_
      rw [Occurrence.ofLink, ← Topic.isDestination_eq, if_pos (h.isDestination hdestination)]
    exact hcounted.trans (v.settles_topic parent range false destination)
  · rename_i hother
    refine .done ?_
    rw [← Topic.isDestination_eq, if_neg hother]

mutual

/-- One piece of inline content is settled by its walk. -/
theorem settles_inline : (inline : Inline) →
    v.Settles [] (inline.occurrences parent) (v.resolveInline parent inline)
      (Inline.occurrences parent)
  | .text _ => .done rfl
  | .code _ => .done rfl
  | .emphasis children => (settles_inlines children).bind_done fun _ => rfl
  | .strong children => (settles_inlines children).bind_done fun _ => rfl
  | .image _ file => (v.settles_media file).bind_done fun _ => rfl
  | .link destination range children =>
    (v.settles_destination parent range destination).bind fun _ =>
      (settles_inlines children).bind_done fun _ => rfl
  | .symbolLink destination range =>
    (v.settles_topic parent range true destination).bind_done fun _ => rfl

/-- Inline content is settled by its walk. -/
theorem settles_inlines : (content : List Inline) →
    v.Settles [] (Inline.occurrencesOf parent content) (v.resolveInlines parent content)
      (Inline.occurrencesOf parent)
  | [] => .done rfl
  | inline :: rest => (settles_inline inline).bind fun _ =>
      (settles_inlines rest).bind_done fun _ => rfl

end

theorem settles_linkedTopic (entry : LinkedTopic) :
    v.Settles [] [entry.occurrence parent] (v.resolveLinkedTopic parent entry)
      fun entry => [entry.occurrence parent] :=
  (v.settles_topic parent entry.range false entry.topic).bind_done fun _ => rfl

/-- The entries of a list of links are settled in order. -/
theorem settles_linkedTopics (topics : List LinkedTopic) :
    v.Settles [] (topics.map (LinkedTopic.occurrence parent))
      (each (v.resolveLinkedTopic parent) topics) (List.map (LinkedTopic.occurrence parent)) := by
  have h := settles_each (v.settles_linkedTopic parent) topics
  simpa only [← List.map_eq_flatMap] using h

mutual

/-- A block is settled by its walk. -/
theorem settles_block : (block : Block) →
    v.Settles [] (block.occurrences parent) (v.resolveBlock parent block)
      (Block.occurrences parent)
  | .paragraph content => (v.settles_inlines parent content).bind_done fun _ => rfl
  | .heading _ content => (v.settles_inlines parent content).bind_done fun _ => rfl
  | .quote children => (settles_blocks children).bind_done fun _ => rfl
  | .container _ children => (settles_blocks children).bind_done fun _ => rfl
  | .code _ _ => .done rfl
  | .list items => (settles_items items).bind_done fun _ => rfl
  | .links _ topics => (v.settles_linkedTopics parent topics).bind_done fun _ => rfl
  | .media _ source poster =>
    (v.settles_media source).bind fun _ => (v.settles_media? poster).bind_done fun _ => rfl

/-- A sequence of blocks is settled by its walk. -/
theorem settles_blocks : (blocks : List Block) →
    v.Settles [] (Block.occurrencesOf parent blocks) (v.resolveBlocks parent blocks)
      (Block.occurrencesOf parent)
  | [] => .done rfl
  | block :: rest => (settles_block block).bind fun _ =>
      (settles_blocks rest).bind_done fun _ => rfl

/-- The items of a list are settled by their walk. -/
theorem settles_items : (items : List (List Block)) →
    v.Settles [] (Block.occurrencesOfItems parent items) (v.resolveItems parent items)
      (Block.occurrencesOfItems parent)
  | [] => .done rfl
  | item :: rest => (settles_blocks item).bind fun _ =>
      (settles_items rest).bind_done fun _ => rfl

end

theorem settles_markup (markup : Markup) :
    v.Settles [] (markup.occurrences parent) (v.resolveMarkup parent markup)
      (Markup.occurrences parent) :=
  v.settles_blocks parent markup

end Viewpoint

end TopicLinks
