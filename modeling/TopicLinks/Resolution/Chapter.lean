import TopicLinks.Assoc
import TopicLinks.Page
import TopicLinks.Resolution.Markup

/-!
# Resolving chapters

A chapter curates each tutorial once. A reference whose text has resolved before is
dropped without another query; any other one is resolved, and dropped when its topic
was curated before. A reference that does not resolve is never a duplicate.
-/

namespace TopicLinks

/-- What a chapter has curated so far. -/
structure Curation where
  /-- The effective targets that have resolved, and to what. -/
  byText : List (String × Identity) := []
  /-- The addresses of the curated tutorials. -/
  curated : List Address := []

/-- Remember that a text resolved to a tutorial. -/
def Curation.add (seen : Curation) (text : String) (target : Identity) : Curation where
  byText := Assoc.set seen.byText text target
  curated := target.address :: seen.curated

namespace Viewpoint

/-- Resolve the references of a chapter in order, and drop the duplicates. -/
def curate (v : Viewpoint) (chapter : String) (root : Identity) (seen : Curation) :
    List TutorialReference → Dialogue (List TutorialReference)
  | [] => pure []
  | reference :: rest =>
    let text := reference.topic.effectiveTarget
    match Assoc.get? seen.byText text with
    | some target => do
      Dialogue.tell (v.duplicateReference chapter target reference.range)
      v.curate chapter root seen rest
    | none => do
      let topic ← v.resolveTopic root reference.range false reference.topic
      match topic with
      | .unresolved _ => do
        let kept ← v.curate chapter root seen rest
        pure ({ reference with topic } :: kept)
      | .resolved target =>
        if target.address ∈ seen.curated then do
          Dialogue.tell (v.duplicateReference chapter target reference.range)
          v.curate chapter root (seen.add text target) rest
        else do
          let kept ← v.curate chapter root (seen.add text target) rest
          pure ({ reference with topic } :: kept)

/-- Resolve a chapter: its content from the page, its references from the root of the
tutorials. -/
def resolveChapter (v : Viewpoint) (parent : Identity) (chapter : Chapter) :
    Dialogue Chapter := do
  let content ← v.resolveMarkup parent chapter.content
  v.checkMedia? chapter.image
  let root ← Dialogue.query (.root .tutorials)
  let references ← v.curate chapter.name root {} chapter.references
  pure { chapter with content, references }

end Viewpoint

end TopicLinks
