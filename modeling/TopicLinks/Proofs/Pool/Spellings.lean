import TopicLinks.Proofs.Pool.Appending

/-!
# Spellings of a path

A path without percent signs may be written with escapes for some of its characters, slashes among
them. No pool tells such spellings apart: what is interned, looked up or appended by one of them is
what it is by the path itself, since escapes are decoded before anything else is looked at.
-/

namespace TopicLinks

variable {p q : String}

/-- A spelling of a path without percent signs has the segments of the path. -/
theorem Text.Percent.Spells.segments_eq (h : Spells p.toList q.toList) (hplain : '%' ∉ p.toList) :
    Readable.segments q = Readable.segments p := by
  rw [Readable.segments, Readable.segments, h.decode_eq hplain, decode_eq_self hplain]

/-- The segments of a path are all of it that counts in an address, -/
theorem Address.ofText_congr (h : Readable.segments q = Readable.segments p) (bundle : String)
    (fragment : Option String) : ofText bundle q fragment = ofText bundle p fragment := by
  rw [ofText, ofText, Place.ofText, Place.ofText, h]

/-- for what is interned, -/
theorem Identity.intern?_congr (h : Readable.segments q = Readable.segments p) (bundle : String)
    (fragment : Option String) (languages : List Language) :
    intern? bundle q fragment languages = intern? bundle p fragment languages := by
  rw [intern?, intern?, ofText, ofText, Address.ofText_congr h]

/-- and below an identity. -/
theorem Identity.below?_congr (h : Readable.segments q = Readable.segments p) (identity : Identity)
    (fragment : Option String) : identity.below? q fragment = identity.below? p fragment := by
  rw [below?, below?, h]

namespace Session

/-- Two names stand for handles of one identity that share storage. -/
def AreOne (s : Session) (x y : String) : Prop :=
  ∃ a b, s.handle? x = some a ∧ s.handle? y = some b ∧ a.identity = b.identity ∧ a.SharesStorage b

variable {s : Session} {own x y : String} {table : TableId}

/-- Two handles in use for one identity in one table are one. -/
theorem Invariant.areOne_of_eq (h : s.Invariant) {a b : Handle} (ha : s.handle? x = some a)
    (hb : s.handle? y = some b) (htable : a.table = b.table)
    (hidentity : a.identity = b.identity) : s.AreOne x y :=
  ⟨a, b, ha, hb, hidentity,
    h.sharesStorage_of_eq ha hb htable (congrArg Identity.address hidentity)⟩

/-- What is interned in some language is asked for as given, in any session. -/
theorem identity?_intern_of_ne_nil (s : Session) (own bundle path : String)
    (fragment : Option String) {languages : List Language} (h : languages ≠ []) :
    (Recipe.intern own bundle path fragment languages).identity? s =
      some (.ofText bundle path fragment (.ofList languages)) := by
  rw [Recipe.identity?, Identity.intern?, List.isEmpty_eq_false_iff.mpr h,
    if_neg Bool.false_ne_true]

/-- Two texts with the same segments, interned under two names with the same bundle and fragment
and in the same languages, lead to one storage. -/
theorem Invariant.areOne_intern (hs : s.Invariant)
    (h : Readable.segments q = Readable.segments p) (hown : s.pool? own = some table)
    (bundle : String) (fragment : Option String) {languages : List Language}
    (hlanguages : languages ≠ []) (hxy : x ≠ y) :
    (s.afterAll [.make x (.intern own bundle q fragment languages),
      .make y (.intern own bundle p fragment languages)]).AreOne x y := by
  have hspelled : (Recipe.intern own bundle q fragment languages).identity? s =
      some (.ofText bundle p fragment (.ofList languages)) :=
    (Identity.intern?_congr h bundle fragment languages).trans
      (identity?_intern_of_ne_nil s own bundle p fragment hlanguages)
  obtain ⟨a, ha, haIn, haOf⟩ := exists_makes rfl hown hspelled x
  obtain ⟨b, hb, hbIn, hbOf⟩ := exists_makes rfl (ha.pools hown)
    (identity?_intern_of_ne_nil _ own bundle p fragment hlanguages) y
  exact (hb.invariant (ha.invariant hs)).areOne_of_eq (hb.others hxy ha.made) hb.made
    (haIn.trans hbIn.symm) (haOf.trans hbOf.symm)

/-- Appended to one handle under two names, they lead to one storage as well. -/
theorem Invariant.areOne_append (hs : s.Invariant)
    (h : Readable.segments q = Readable.segments p) (hown : s.pool? own = some table)
    {source : String} {found : Handle} (hsource : s.handle? source = some found)
    (hx : x ≠ source) (hxy : x ≠ y) :
    (s.afterAll [.make x (.append own source q), .make y (.append own source p)]).AreOne x y := by
  obtain ⟨a, ha, haOf, haSame, haIn⟩ := exists_makes_append hsource hown x q
  obtain ⟨b, hb, hbOf, hbSame, hbIn⟩ :=
    exists_makes_append (ha.others hx.symm hsource) (ha.pools hown) y p
  have hidentity : a.identity = b.identity := by
    rw [haOf, hbOf, Identity.appended, Identity.appended, Identity.appending?,
      Identity.appending?, Identity.below?_congr h]
  have hat := hb.others hxy ha.made
  refine ⟨a, b, hat, hb.made, hidentity, ?_⟩
  by_cases hnil : Readable.segments p = []
  · rw [haSame (h.trans hnil), hbSame hnil]
    rfl
  · exact (hb.invariant (ha.invariant hs)).sharesStorage_of_eq hat hb.made
      ((haIn (h ▸ hnil)).trans (hbIn hnil).symm) (congrArg Identity.address hidentity)

/-- No pool tells a path without percent signs from its spellings with escapes. Interning or
appending a spelling does what interning or appending the path does, in any session; a table
contains the one where it contains the other; and in every session that commands lead to, the
handles made by the one and by the other are of one identity and share storage. -/
theorem spelling_changes_no_identity {p q : String} (hplain : '%' ∉ p.toList)
    (h : Text.Percent.Spells p.toList q.toList) :
    (∀ s : Session,
      (∀ own bundle fragment languages,
        s.prepare (.intern own bundle q fragment languages) =
          s.prepare (.intern own bundle p fragment languages)) ∧
      (∀ table bundle fragment,
        s.contains table bundle q fragment = s.contains table bundle p fragment) ∧
      ∀ own source, s.prepare (.append own source q) = s.prepare (.append own source p)) ∧
    ∀ pool commands own x y, let s := (initial pool).afterAll commands
      (s.pool? own).isSome → x ≠ y →
      (∀ bundle fragment languages, languages ≠ [] →
        (s.afterAll [.make x (.intern own bundle q fragment languages),
          .make y (.intern own bundle p fragment languages)]).AreOne x y) ∧
      ∀ source, (s.handle? source).isSome → x ≠ source →
        (s.afterAll [.make x (.append own source q),
          .make y (.append own source p)]).AreOne x y := by
  have hsegments := h.segments_eq hplain
  constructor
  · intro s
    refine ⟨fun own bundle fragment languages => ?_, fun table bundle fragment => ?_,
      fun own source => ?_⟩
    · simp only [prepare, Identity.intern?_congr hsegments]
    · rw [contains, contains, Address.ofText_congr hsegments]
    · simp only [prepare, Identity.appending?, Identity.below?_congr hsegments]
  · intro pool commands own x y s hown hxy
    have hs : s.Invariant := invariant_afterAll pool commands
    obtain ⟨table, hown⟩ := Option.isSome_iff_exists.mp hown
    refine ⟨fun bundle fragment languages hlanguages => ?_, fun source hsource hx => ?_⟩
    · exact hs.areOne_intern hsegments hown bundle fragment hlanguages hxy
    · obtain ⟨found, hsource⟩ := Option.isSome_iff_exists.mp hsource
      exact hs.areOne_append hsegments hown hsource hx hxy

/-- The slash, a letter of two bytes and a blank are escaped, with digits in either case. -/
theorem spelling_changes_no_identity_of_escapes :
    let s := (initial "main").afterAll [
      .make "page" (.intern "main" "kit" "/A" (some "top") ["swift"])]
    '%' ∉ "/é b".toList ∧ Text.Percent.Spells "/é b".toList "%2f%C3%a9%20b".toList ∧
      s.contains 0 "kit" "%2f%C3%a9%20b" none = s.contains 0 "kit" "/é b" none ∧
      (s.afterAll [.make "one" (.intern "main" "kit" "%2f%C3%a9%20b" none ["occ"]),
        .make "other" (.intern "main" "kit" "/é b" none ["occ"])]).AreOne "one" "other" ∧
      (s.afterAll [.make "one" (.append "main" "page" "%2f%C3%a9%20b"),
        .make "other" (.append "main" "page" "/é b")]).AreOne "one" "other" := by
  intro s
  have hplain : '%' ∉ "/é b".toList := by decide
  have hslash : Text.Percent.Escapes (String.utf8EncodeChar '/') "%2f".toList :=
    .cons (Or.inl rfl) (Or.inl rfl) .nil
  have hletter : Text.Percent.Escapes (String.utf8EncodeChar 'é') "%C3%a9".toList :=
    .cons (Or.inr rfl) (Or.inl rfl) (.cons (Or.inl rfl) (Or.inl rfl) .nil)
  have hblank : Text.Percent.Escapes (String.utf8EncodeChar ' ') "%20".toList :=
    .cons (Or.inl rfl) (Or.inl rfl) .nil
  have h : Text.Percent.Spells "/é b".toList "%2f%C3%a9%20b".toList :=
    .escaped hslash (.escaped hletter (.escaped hblank (.kept 'b' .nil)))
  obtain ⟨hany, hreached⟩ := spelling_changes_no_identity hplain h
  obtain ⟨hinterned, happended⟩ := hreached "main" [
      .make "page" (.intern "main" "kit" "/A" (some "top") ["swift"])] "main" "one" "other" rfl
    (by decide)
  exact ⟨hplain, h, (hany s).2.1 0 "kit" none, hinterned "kit" none ["occ"] (by decide),
    happended "page" rfl (by decide)⟩

end Session

end TopicLinks
