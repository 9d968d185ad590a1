import TopicLinks.Proofs.Identity.Absolute
import TopicLinks.Proofs.Pool.Sharing

/-!
# Interning identities again

Whatever texts the commands of a session were given, the identities in use are in normal form:
interning their own parts gives back their own storage. If the bundle can stand in a link, then
the written identity carries these parts, and reading it leads back to the same storage.
-/

namespace TopicLinks

/-- The path that a list of segments makes up: a slash, and the segments with single slashes
between them. -/
def Readable.IsPathOf (segments : List String) (path : String) : Prop :=
  (∀ segment ∈ segments, IsSegment segment) ∧
    path.toList = '/' :: ['/'].intercalate (segments.map String.toList)

/-- An identity is in some language. -/
def Identity.IsSpoken (identity : Identity) : Prop :=
  ∃ language, language ∈ identity.languages

/-- Segments appended to an identity keep its languages. -/
theorem Identity.IsSpoken.below? {identity below : Identity} (h : identity.IsSpoken) {path : String}
    {fragment : Option String} (hbelow : identity.below? path fragment = some below) :
    below.IsSpoken := by
  unfold Identity.below? at hbelow
  split at hbelow
  · cases hbelow
  · cases hbelow
    exact h

theorem Identity.isHereditary_isSpoken : IsHereditary IsSpoken where
  intern? {bundle path fragment languages identity} h := by
    unfold Identity.intern? at h
    cases languages with
    | nil => cases h
    | cons language rest =>
      cases h
      exact ⟨language, LanguageSet.mem_ofList.mpr List.mem_cons_self⟩
  withFragment _ h := h
  addingLanguages languages h := by
    obtain ⟨language, hlanguage⟩ := h
    exact ⟨language, LanguageSet.mem_addAll.mpr (Or.inr hlanguage)⟩
  appending? h hbelow := h.below? hbelow
  appendingLink? h hbelow := h.below? hbelow

/-- The parts of a path have none of the characters that end a path or begin an escape, no
blanks, and ASCII characters only. -/
theorem Place.IsReadable.plain_path {place : Place} (h : place.IsReadable) {c : Char}
    (hc : c ∈ place.path.toList) :
    c ≠ '%' ∧ c ≠ '?' ∧ c ≠ '#' ∧ Text.isBlank c = false ∧ c.toNat < 0x80 := by
  rcases h.mem_path hc with rfl | hchar
  · decide
  · have hliteral := Readable.isLiteral_of_isPathChar hchar
    have hends := Readable.endsPath_of_isPathChar hchar
    rw [AuthoredLink.endsPath, Bool.or_eq_false_iff, beq_eq_false_iff_ne, beq_eq_false_iff_ne]
      at hends
    exact ⟨hliteral.2, hends.1, hends.2, Readable.isBlank_of_isPathChar hchar, hliteral.1⟩

namespace Session

variable {s next : Session}

/-- Every identity that commands lead to has all hereditary properties. -/
theorem of_isHereditary {P : Identity → Prop} (hP : Identity.IsHereditary P) (pool : String)
    (commands : List Command) :
    ∀ handle ∈ ((initial pool).afterAll commands).live, P handle.identity := by
  -- The names of handles must stay unique as well, so both facts are kept together.
  have hkept : ∀ {s next : Session} {command : Command},
      (s.Invariant ∧ ∀ handle ∈ s.live, P handle.identity) → s.run command = .ok next →
        next.Invariant ∧ ∀ handle ∈ next.live, P handle.identity := by
    rintro s next command ⟨hs, h⟩ hrun
    refine ⟨hs.run hrun, fun handle hlive => ?_⟩
    rcases (live_of_run hs.names hrun).1 handle hlive with hold | ⟨-, hidentity⟩
    · exact h handle hold
    · cases command with
      | make name recipe => exact of_recipe_identity? hP h hidentity
      | drop | newPool | sharePool | dropPool => cases hidentity
  have hinitial : ∀ handle ∈ (initial pool).live, P handle.identity := by simp [live, initial]
  exact (afterAll_induction hkept ⟨invariant_initial pool, hinitial⟩ commands).2

/-- A cell in use for an address is found again, and nothing else changes. -/
theorem obtain_of_liveCell? {t : TableId} {identity : Identity} {cell : CellId}
    (h : s.liveCell? t identity.address = some cell) :
    s.obtain t identity = (⟨identity, cell, t⟩, s) := by
  rw [obtain, h]

/-- The parts of an identity in use, interned again in its own table, give a handle of the same
storage, and the session stays as it is. -/
theorem Invariant.prepare_parts (h : s.Invariant) {handle : Handle} (hlive : handle ∈ s.live)
    {own : String} (hown : s.pool? own = some handle.table) {languages : List Language}
    (hlanguages : languages ≠ []) :
    ∃ again, s.prepare (.intern own handle.identity.bundle handle.identity.path
        handle.identity.fragment languages) = .ok (again, s) ∧ again.SharesStorage handle := by
  obtain ⟨table, htable⟩ := Option.isSome_iff_exists.mp (h.isSome_table? hown)
  have hheld : Holding.mk handle.table handle.identity.address handle.cell ∈ s.holdings :=
    holding_mem_holdings hlive
  have hcell := (h.consistent.liveCell?_eq_some_iff htable).mpr hheld
  have hobtain : s.obtain handle.table ⟨handle.identity.address, .ofList languages⟩ =
      (⟨⟨handle.identity.address, .ofList languages⟩, handle.cell, handle.table⟩, s) :=
    obtain_of_liveCell? hcell
  have hintern := (h.isReadable hlive).intern?_parts hlanguages
  refine ⟨⟨⟨handle.identity.address, .ofList languages⟩, handle.cell, handle.table⟩, ?_, rfl⟩
  simp only [Session.prepare, requirePool, hown, hintern]
  exact congrArg Except.ok hobtain

/-- Every identity that commands lead to is in normal form. Its path is made up of readable
segments, which are the pieces of the path and its components behind the root; its fragment has
fragment characters only; it is in some language; and its own bundle, path and fragment, interned
in its table in any languages, give its own storage without a change to the session. -/
theorem normal_form (pool : String) (commands : List Command) :
    let s := (initial pool).afterAll commands
    ∀ name handle, s.handle? name = some handle →
      (∃ segments, Readable.IsPathOf segments handle.identity.path ∧
        Readable.pieces handle.identity.path.toList = segments.map String.toList ∧
        handle.identity.components = "/" :: segments) ∧
      (∀ c ∈ handle.identity.path.toList,
        c ≠ '%' ∧ c ≠ '?' ∧ c ≠ '#' ∧ Text.isBlank c = false ∧ c.toNat < 0x80) ∧
      (∀ fragment ∈ handle.identity.fragment, Readable.IsFragment fragment) ∧
      handle.identity.IsSpoken ∧
      ∀ own languages, s.pool? own = some handle.table → languages ≠ [] →
        ∃ again, s.prepare (.intern own handle.identity.bundle handle.identity.path
            handle.identity.fragment languages) = .ok (again, s) ∧ again.SharesStorage handle := by
  intro s name handle hname
  have hs : s.Invariant := invariant_afterAll pool commands
  have hlive := live_of_handle? hname
  have hplace : handle.identity.address.place.IsReadable := hs.isReadable hlive
  have hpath : Readable.IsPathOf handle.identity.address.place.segments handle.identity.path :=
    ⟨hplace.segments, String.toList_ofList⟩
  refine ⟨⟨_, hpath, hplace.pieces_path, rfl⟩, fun c hc => hplace.plain_path hc, hplace.fragment,
    of_isHereditary Identity.isHereditary_isSpoken pool commands handle hlive, ?_⟩
  intro own languages hown hlanguages
  exact hs.prepare_parts hlive hown hlanguages

/-- A page made from a text with escapes, blanks and empty pieces: interning its path again gives
its storage, although the texts differ. -/
theorem normal_form_of_escapes :
    let s := (initial "main").afterAll [
      .make "page" (.intern "main" "kit" "My%2520 Page//é" (some "a  b") ["occ", "swift"])]
    ∃ handle again, s.handle? "page" = some handle ∧ s.pool? "main" = some handle.table ∧
      ["data"] ≠ ([] : List Language) ∧ handle.identity.path = "/My_20_Page/---" ∧
      s.prepare (.intern "main" "kit" "/My_20_Page/---" (some "a-b") ["data"]) =
        .ok (again, s) ∧ again.SharesStorage handle := by
  intro s
  have h := normal_form "main" [
      .make "page" (.intern "main" "kit" "My%2520 Page//é" (some "a  b") ["occ", "swift"])]
    "page" _ rfl
  obtain ⟨_, _, _, _, hagain⟩ := h
  obtain ⟨again, hprepare, hshares⟩ := hagain "main" ["data"] rfl (by decide)
  exact ⟨_, again, rfl, rfl, by decide, by decide, hprepare, hshares⟩

/-- Reading a written identity in use gives the parts of the identity, so that interning what was
read gives its storage. -/
theorem Invariant.prepare_written (h : s.Invariant) {handle : Handle} (hlive : handle ∈ s.live)
    (hhost : AuthoredLink.IsHost handle.identity.bundle) {own : String}
    (hown : s.pool? own = some handle.table) {languages : List Language}
    (hlanguages : languages ≠ []) {host : String}
    (hread : (AuthoredLink.parse handle.identity.absolute).host = some host) :
    ∃ again, s.prepare (.intern own host (AuthoredLink.parse handle.identity.absolute).path
        (AuthoredLink.parse handle.identity.absolute).fragment languages) = .ok (again, s) ∧
      again.SharesStorage handle := by
  have hparse : AuthoredLink.parse handle.identity.absolute =
      ⟨handle.identity.absolute, some "doc", some handle.identity.bundle, handle.identity.path,
        handle.identity.fragment⟩ := (h.isReadable hlive).parse_absolute hhost
  rw [hparse] at hread ⊢
  cases hread
  exact h.prepare_parts hlive hown hlanguages

/-- Resolved references to handles in use agree exactly when the handles are equal, if their
bundles can stand in a link. -/
theorem Invariant.agrees_iff (h : s.Invariant) {a b : Handle} (ha : a ∈ s.live) (hb : b ∈ s.live)
    (hahost : AuthoredLink.IsHost a.identity.bundle)
    (hbhost : AuthoredLink.IsHost b.identity.bundle) :
    (Topic.resolved a.identity).Agrees (.resolved b.identity) ↔ a.Equals b := by
  rw [h.equals_iff ha hb, h.key_eq_iff ha hb]
  exact (h.isReadable ha).absolute_inj (h.isReadable hb) hahost hbhost

/-- Every identity that commands lead to, if its bundle can stand in a link, is encoded by its
written form. Reading that gives the scheme of topics, the bundle, the path and the fragment;
interning these gives the storage of the identity again; and the link agrees with the resolved
reference. So resolved references to such identities agree exactly when the identities are
equal. -/
theorem written_form (pool : String) (commands : List Command) :
    let s := (initial pool).afterAll commands
    (∀ name handle, s.handle? name = some handle →
      AuthoredLink.IsHost handle.identity.bundle →
      let link := AuthoredLink.parse handle.identity.absolute
      link.scheme = some "doc" ∧ link.host = some handle.identity.bundle ∧
        link.path = handle.identity.path ∧ link.fragment = handle.identity.fragment ∧
        (∀ own languages host, s.pool? own = some handle.table → languages ≠ [] →
          link.host = some host →
          ∃ again, s.prepare (.intern own host link.path link.fragment languages) =
            .ok (again, s) ∧ again.SharesStorage handle) ∧
        (Topic.parse handle.identity.absolute).Agrees (.resolved handle.identity)) ∧
    ∀ x y a b, s.handle? x = some a → s.handle? y = some b →
      AuthoredLink.IsHost a.identity.bundle → AuthoredLink.IsHost b.identity.bundle →
      ((Topic.resolved a.identity).Agrees (.resolved b.identity) ↔ a.Equals b) := by
  intro s
  have hs : s.Invariant := invariant_afterAll pool commands
  constructor
  · intro name handle hname hhost link
    have hlive := live_of_handle? hname
    have hlink : link = ⟨handle.identity.absolute, some "doc", some handle.identity.bundle,
        handle.identity.path, handle.identity.fragment⟩ :=
      (hs.isReadable hlive).parse_absolute hhost
    have hagrees : link.effectiveTarget = handle.identity.absolute :=
      (hs.isReadable hlive).effectiveTarget_parse hhost
    refine ⟨by rw [hlink], by rw [hlink], by rw [hlink], by rw [hlink], ?_, hagrees⟩
    intro own languages host hown hlanguages hread
    exact hs.prepare_written hlive hhost hown hlanguages hread
  · intro x y a b hx hy hahost hbhost
    exact hs.agrees_iff (live_of_handle? hx) (live_of_handle? hy) hahost hbhost

/-- A section of a page whose bundle holds a blank and a colon: the written form is read back in
its parts, and it agrees with the same section made in another pool and with no other. -/
theorem written_form_of_section :
    let s := (initial "main").afterAll [
      .make "section" (.intern "main" "my: kit" "/A?b" (some "c/d") ["swift"]),
      .newPool "other",
      .make "twin" (.intern "other" "my: kit" "A%3Fb" (some "c/d") ["occ"]),
      .make "page" (.withFragment "main" "section" none)]
    ∃ a b c, s.handle? "section" = some a ∧ s.handle? "twin" = some b ∧
      s.handle? "page" = some c ∧ AuthoredLink.IsHost a.identity.bundle ∧
      (AuthoredLink.parse "doc://my: kit/A_b#c/d").path = "/A_b" ∧
      (∃ again, s.prepare (.intern "main" "my: kit" "/A_b" (some "c/d") ["data"]) =
        .ok (again, s) ∧ again.SharesStorage a) ∧
      (Topic.resolved a.identity).Agrees (.resolved b.identity) ∧
      ¬(Topic.resolved a.identity).Agrees (.resolved c.identity) := by
  intro s
  obtain ⟨hwritten, hagree⟩ := written_form "main" [
      .make "section" (.intern "main" "my: kit" "/A?b" (some "c/d") ["swift"]),
      .newPool "other",
      .make "twin" (.intern "other" "my: kit" "A%3Fb" (some "c/d") ["occ"]),
      .make "page" (.withFragment "main" "section" none)]
  have hbundle : AuthoredLink.IsHost "my: kit" := ⟨by decide, by simp [AuthoredLink.endsAuthority]⟩
  obtain ⟨_, hhost, hpath, _, hagain, _⟩ := hwritten "section" _ rfl hbundle
  refine ⟨_, _, _, rfl, rfl, rfl, hbundle, hpath, ?_, ?_, ?_⟩
  · exact hagain "main" ["data"] "my: kit" rfl (by decide) hhost
  · exact (hagree "section" "twin" _ _ rfl rfl hbundle hbundle).mpr (by decide +kernel)
  · intro h
    have hequals := (hagree "section" "page" _ _ rfl rfl hbundle hbundle).mp h
    exact absurd hequals (by decide +kernel)

end Session

/-- With a slash in its bundle an identity can be written like one of another bundle. -/
example : (Identity.ofText "" "/a/b" none (.single "swift")).absolute =
    (Identity.ofText "/a" "/b" none (.single "swift")).absolute := by decide

end TopicLinks
