import Mathlib.Data.Stream.Init
import TopicLinks.Walker
import TopicLinks.Proofs.Identity.Canonical
import TopicLinks.Proofs.Pool.Invariant
import TopicLinks.Proofs.Walk.Entries

/-!
# Walks through pools

Each variant of a symbol page is resolved from the identity of the page in the language of the
variant, and this identity comes from a pool. The pool may change from one variant to the next:
others intern through it and drop what they hold. The walk through the pool is the walk that needs
none, for identities that were made by pools themselves.
-/

namespace TopicLinks

/-- After some commands the identity is that of a handle in use. There are no others. -/
def Identity.IsMade (identity : Identity) : Prop :=
  ∃ pool commands name handle,
    ((Session.initial pool).afterAll commands).handle? name = some handle ∧
      handle.identity = identity

/-- Pools make readable identities only. -/
theorem Identity.IsMade.isReadable {identity : Identity} (h : identity.IsMade) :
    identity.IsReadable := by
  obtain ⟨pool, commands, name, handle, hname, rfl⟩ := h
  exact (Session.invariant_afterAll pool commands).isReadable (Session.live_of_handle? hname)

/-- Every bundle, path and fragment is made in every list of languages, except for the empty one. -/
theorem Identity.isMade_ofText (bundle path : String) (fragment : Option String)
    {languages : List Language} (h : languages ≠ []) :
    (ofText bundle path fragment (.ofList languages)).IsMade := by
  obtain ⟨language, others, rfl⟩ := List.exists_cons_of_ne_nil h
  exact ⟨"pool", [.make "made" (.intern "pool" bundle path fragment (language :: others))], "made",
    _, rfl, rfl⟩

/-- The identity that a pool makes of another one for a variant in some language, or its error. -/
def Session.variantParent (s : Session) (pool : String) (parent : Identity) (language : Language) :
    Except CommandError Identity := do
  let (handle, _) ← s.prepare (.intern pool parent.bundle parent.path parent.fragment [language])
  .ok handle.identity

/-- Whatever is in use in a pool, it makes the identity in the language, and no error. -/
theorem Session.variantParent_eq {s : Session} {pool : String} (hpool : (s.pool? pool).isSome)
    {parent : Identity} (h : parent.IsReadable) (language : Language) :
    s.variantParent pool parent language = .ok (parent.inLanguage language) := by
  obtain ⟨table, htable⟩ := Option.isSome_iff_exists.mp hpool
  obtain ⟨handle, next, hprepare, hidentity⟩ := prepare_intern_parts htable h language
  rw [variantParent, hprepare, ← hidentity]
  rfl

namespace Viewpoint

open Dialogue

variable {α : Type} (pool : String) (declared : LanguageSet) (parent : Identity)

/-- Resolve entries as `resolveEntries` does, with the parent of each variant from a pool. The pool
is asked in one session after the other. -/
def resolveEntriesThrough (resolve : Identity → α → Dialogue α) (sessions : Stream' Session) :
    List (Language × α) → Dialogue (Except CommandError (Progress (List (Language × α))))
  | [] => pure (.ok ⟨[], none⟩)
  | (language, value) :: rest =>
    match declared.forVariant language with
    | .error cause => pure (.ok ⟨(language, value) :: rest, some cause⟩)
    | .ok declaredLanguage =>
      match sessions.head.variantParent pool parent declaredLanguage with
      | .error error => pure (.error error)
      | .ok identity => do
        let value ← resolve identity value
        let progress ← resolveEntriesThrough resolve sessions.tail rest
        pure (progress.map (·.map ((language, value) :: ·)))

/-- Through a pool that is there all the time entries are resolved as without one. -/
theorem resolveEntriesThrough_eq {resolve : Identity → α → Dialogue α} (h : parent.IsReadable)
    {sessions : Stream' Session} (hpool : ∀ n, ((sessions.get n).pool? pool).isSome)
    (entries : List (Language × α)) :
    resolveEntriesThrough pool declared parent resolve sessions entries =
      (resolveEntries declared parent resolve entries).map .ok := by
  induction entries generalizing sessions with
  | nil => rfl
  | cons entry rest ih =>
    obtain ⟨language, value⟩ := entry
    rw [resolveEntriesThrough, resolveEntries]
    cases declared.forVariant language with
    | error cause => rfl
    | ok declaredLanguage =>
      have hparent : sessions.head.variantParent pool parent declaredLanguage =
          .ok (parent.inLanguage declaredLanguage) := Session.variantParent_eq (hpool 0) h _
      have hrest : resolveEntriesThrough pool declared parent resolve sessions.tail rest =
          (resolveEntries declared parent resolve rest).map .ok := ih fun n => hpool (n + 1)
      simp only [hparent, hrest, bind_eq, pure_eq, bind_map, map_bind, map_done]
      rfl

end Viewpoint

/-- Resolve a page with the identities of its variants from a pool. -/
def Page.resolveThrough (pool : String) (sessions : Stream' Session) (settings : Settings)
    (page : Page) : Dialogue (Except CommandError (Progress Page)) :=
  match page.content with
  | .symbol p => do
    let progress ← Viewpoint.resolveEntriesThrough pool p.languages page.reference
      (page.viewpoint settings).resolvePart sessions p.entries
    pure (progress.map (·.map fun entries =>
      { page with content := .symbol (p.withEntries entries) }))
  | _ => (page.resolve settings).map .ok

/-- Through every pool a page is resolved as without one. -/
theorem Page.resolveThrough_eq {page : Page} (h : page.reference.IsReadable) {pool : String}
    {sessions : Stream' Session} (hpool : ∀ n, ((sessions.get n).pool? pool).isSome)
    (settings : Settings) :
    page.resolveThrough pool sessions settings = (page.resolve settings).map .ok := by
  unfold resolveThrough
  split
  next p hpage =>
    rw [resolve_eq_entries settings hpage, Viewpoint.resolveEntriesThrough_eq pool _ _ h hpool,
      Dialogue.bind_eq, Dialogue.bind_map, Dialogue.map_map]
    rfl
  next => rfl

namespace Walker

/-- Resolve a page with a walker of its own, which has a pool. -/
def resolvePageThrough (pool : String) (sessions : Stream' Session) (settings : Settings)
    (page : Page) : Dialogue (Except CommandError (Progress Page)) := do
  let w ← start settings
  page.resolveThrough pool sessions w.settings

/-- Walkers with pools resolve a page as walkers without pools do. -/
theorem resolvePageThrough_eq {page : Page} (h : page.reference.IsReadable) {pool : String}
    {sessions : Stream' Session} (hpool : ∀ n, ((sessions.get n).pool? pool).isSome)
    (settings : Settings) :
    resolvePageThrough pool sessions settings page = (resolvePage settings page).map .ok := by
  simp only [resolvePageThrough, resolvePage, Page.resolveThrough_eq h hpool, Dialogue.bind_eq,
    Dialogue.map_bind]

end Walker

end TopicLinks
