import TopicLinks.Proofs.Pool.Spellings

/-!
# Fragments of identities

The fragment is a field of its own in an identity: the last one that was set counts, the one that is
there can be set again without a change, and setting it changes neither the bundle nor the path nor
the languages. Fragments are set as text and kept in readable form, so all of this rests on readable
fragments being their own readable form. Through one pool, the laws hold of storages.
-/

namespace TopicLinks

namespace Identity

variable (identity : Identity) (f g : Option String) (languages : List Language)

/-- The last fragment that is set counts, -/
theorem withFragment_withFragment :
    (identity.withFragment f).withFragment g = identity.withFragment g := rfl

/-- languages may be added before it is set or afterwards, -/
theorem withFragment_addingLanguages :
    (identity.addingLanguages languages).withFragment f =
      (identity.withFragment f).addingLanguages languages := rfl

/-- it may be given with the path or be set on the identity of the path alone, -/
theorem withFragment_ofText (bundle path : String) (languages : LanguageSet) :
    (ofText bundle path none languages).withFragment f = ofText bundle path f languages := rfl

variable {identity}

/-- and setting the fragment that is there changes nothing, since it is in readable form. -/
theorem IsReadable.withFragment_fragment (h : identity.IsReadable) :
    identity.withFragment identity.fragment = identity := by
  have hplace : identity.address.place.IsReadable := h
  rw [Identity.withFragment, Identity.fragment, hplace.map_fragment]

end Identity

namespace Session

variable {s : Session} {own x : String} {table : TableId} {source : Handle}

/-- Languages are added to the identity of the handle. -/
theorem identity?_addLanguages (hsource : s.handle? x = some source) (own : String)
    (languages : List Language) :
    (Recipe.addLanguages own x languages).identity? s =
      some (source.identity.addingLanguages languages) := by
  rw [Recipe.identity?, hsource, Option.map_some]

/-- The identity of a handle in use, asked for in its own table, gives the handle itself. -/
theorem Invariant.obtain_identity (h : s.Invariant) (hown : s.pool? own = some source.table)
    (hlive : source ∈ s.live) : s.obtain source.table source.identity = (source, s) := by
  obtain ⟨table, htable⟩ := Option.isSome_iff_exists.mp (h.isSome_table? hown)
  exact obtain_of_liveCell? ((h.consistent.liveCell?_eq_some_iff htable).mpr
    (holding_mem_holdings hlive))

/-- A fragment set over another one leads to the storage to which it leads without that. -/
theorem Invariant.areOne_withFragment (hs : s.Invariant) (hown : s.pool? own = some table)
    (hsource : s.handle? x = some source) (f g : Option String) {one both direct : String}
    (hone : one ≠ x) (hboth : both ≠ x) (hdirect : both ≠ direct) :
    (s.afterAll [.make one (.withFragment own x f), .make both (.withFragment own one g),
      .make direct (.withFragment own x g)]).AreOne both direct := by
  obtain ⟨a, ha, -, haOf⟩ := exists_makes rfl hown (identity?_withFragment hsource own f) one
  obtain ⟨b, hb, hbIn, hbOf⟩ := exists_makes rfl (ha.pools hown)
    (identity?_withFragment ha.made own g) both
  have hkept := hb.others hboth.symm (ha.others hone.symm hsource)
  obtain ⟨c, hc, hcIn, hcOf⟩ := exists_makes rfl (hb.pools (ha.pools hown))
    (identity?_withFragment hkept own g) direct
  refine (hc.invariant (hb.invariant (ha.invariant hs))).areOne_of_eq
    (hc.others hdirect hb.made) hc.made (hbIn.trans hcIn.symm) ?_
  rw [hbOf, hcOf, haOf, Identity.withFragment_withFragment]

/-- A fragment set on what was interned without one leads to the storage of what is interned with
it. -/
theorem Invariant.areOne_intern_withFragment (hs : s.Invariant) (hown : s.pool? own = some table)
    (bundle path : String) {languages : List Language} (hlanguages : languages ≠ [])
    (f : Option String) (page : String) {part whole : String} (hwhole : part ≠ whole) :
    (s.afterAll [.make page (.intern own bundle path none languages),
      .make part (.withFragment own page f),
      .make whole (.intern own bundle path f languages)]).AreOne part whole := by
  obtain ⟨a, ha, -, haOf⟩ := exists_makes rfl hown
    (identity?_intern_of_ne_nil _ own bundle path none hlanguages) page
  obtain ⟨b, hb, hbIn, hbOf⟩ := exists_makes rfl (ha.pools hown)
    (identity?_withFragment ha.made own f) part
  obtain ⟨c, hc, hcIn, hcOf⟩ := exists_makes rfl (hb.pools (ha.pools hown))
    (identity?_intern_of_ne_nil _ own bundle path f hlanguages) whole
  refine (hc.invariant (hb.invariant (ha.invariant hs))).areOne_of_eq
    (hc.others hwhole hb.made) hc.made (hbIn.trans hcIn.symm) ?_
  rw [hbOf, hcOf, haOf, Identity.withFragment_ofText]

/-- Languages added before a fragment is set, or afterwards, lead to one storage. -/
theorem Invariant.areOne_addLanguages (hs : s.Invariant) (hown : s.pool? own = some table)
    (hsource : s.handle? x = some source) (f : Option String) (languages : List Language)
    {seen first part second : String} (hseen : seen ≠ x) (hfirst : first ≠ x)
    (hpart : first ≠ part) (hsecond : first ≠ second) :
    (s.afterAll [.make seen (.addLanguages own x languages),
      .make first (.withFragment own seen f), .make part (.withFragment own x f),
      .make second (.addLanguages own part languages)]).AreOne first second := by
  obtain ⟨a, ha, -, haOf⟩ := exists_makes rfl hown
    (identity?_addLanguages hsource own languages) seen
  obtain ⟨b, hb, hbIn, hbOf⟩ := exists_makes rfl (ha.pools hown)
    (identity?_withFragment ha.made own f) first
  have hkept := hb.others hfirst.symm (ha.others hseen.symm hsource)
  obtain ⟨c, hc, -, hcOf⟩ := exists_makes rfl (hb.pools (ha.pools hown))
    (identity?_withFragment hkept own f) part
  obtain ⟨d, hd, hdIn, hdOf⟩ := exists_makes rfl (hc.pools (hb.pools (ha.pools hown)))
    (identity?_addLanguages hc.made own languages) second
  refine (hd.invariant (hc.invariant (hb.invariant (ha.invariant hs)))).areOne_of_eq
    (hd.others hsecond (hc.others hpart hb.made)) hd.made (hbIn.trans hdIn.symm) ?_
  rw [hbOf, hdOf, haOf, hcOf, Identity.withFragment_addingLanguages]

/-- The fragment is an independent field of an identity, whatever texts it is set to. In every
session that commands lead to, through any pool: interning a path and then setting a fragment leads
to the storage of both interned at once; a fragment set over another one leads to the storage to
which it leads alone; the fragment of a handle, set again through its own pool, gives the handle
itself; and languages may be added before or after. Setting a fragment changes neither the bundle
nor the path nor the languages, and adding languages neither the bundle nor the path nor the
fragment. -/
theorem fragment_independent (pool : String) (commands : List Command) :
    let s := (initial pool).afterAll commands
    ∀ own, (s.pool? own).isSome →
      (∀ bundle path languages f page part whole, languages ≠ [] → part ≠ whole →
        (s.afterAll [.make page (.intern own bundle path none languages),
          .make part (.withFragment own page f),
          .make whole (.intern own bundle path f languages)]).AreOne part whole) ∧
      ∀ x source, s.handle? x = some source →
        (∀ f g one both direct, one ≠ x → both ≠ x → both ≠ direct →
          (s.afterAll [.make one (.withFragment own x f), .make both (.withFragment own one g),
            .make direct (.withFragment own x g)]).AreOne both direct) ∧
        (s.pool? own = some source.table →
          s.prepare (.withFragment own x source.identity.fragment) = .ok (source, s)) ∧
        (∀ f languages seen first part second,
          seen ≠ x → first ≠ x → first ≠ part → first ≠ second →
          (s.afterAll [.make seen (.addLanguages own x languages),
            .make first (.withFragment own seen f), .make part (.withFragment own x f),
            .make second (.addLanguages own part languages)]).AreOne first second) ∧
        (∀ f, ∃ changed next, s.prepare (.withFragment own x f) = .ok (changed, next) ∧
          changed.identity.bundle = source.identity.bundle ∧
          changed.identity.path = source.identity.path ∧
          changed.identity.languages = source.identity.languages) ∧
        ∀ languages, ∃ seen next, s.prepare (.addLanguages own x languages) = .ok (seen, next) ∧
          seen.identity.bundle = source.identity.bundle ∧
          seen.identity.path = source.identity.path ∧
          seen.identity.fragment = source.identity.fragment := by
  intro s own hown
  have hs : s.Invariant := invariant_afterAll pool commands
  obtain ⟨table, hown⟩ := Option.isSome_iff_exists.mp hown
  refine ⟨fun bundle path languages f page part whole hlanguages hwhole =>
    hs.areOne_intern_withFragment hown bundle path hlanguages f page hwhole, ?_⟩
  intro x source hsource
  have hlive := live_of_handle? hsource
  refine ⟨fun f g one both direct => hs.areOne_withFragment hown hsource f g, fun hsame => ?_,
    fun f languages seen first part second => hs.areOne_addLanguages hown hsource f languages,
    fun f => ?_, fun languages => ?_⟩
  · have hself := identity?_withFragment hsource own source.identity.fragment
    rw [(hs.isReadable hlive).withFragment_fragment] at hself
    rw [prepare_of_identity? rfl hsame hself, hs.obtain_identity hsame hlive]
  · have hasked := identity?_withFragment hsource own f
    obtain ⟨-, hof, -⟩ := obtain_frame (rfl : s.obtain table (source.identity.withFragment f) = _)
    exact ⟨_, _, prepare_of_identity? rfl hown hasked, by rw [hof]; rfl, by rw [hof]; rfl,
      by rw [hof]; rfl⟩
  · have hasked := identity?_addLanguages hsource own languages
    obtain ⟨-, hof, -⟩ :=
      obtain_frame (rfl : s.obtain table (source.identity.addingLanguages languages) = _)
    exact ⟨_, _, prepare_of_identity? rfl hown hasked, by rw [hof]; rfl, by rw [hof]; rfl,
      by rw [hof]; rfl⟩

/-- A fragment of blanks only is kept as an empty one, which is not the same as none; a fragment
that is no readable one is set over it. -/
theorem fragment_independent_of_blanks :
    let s := (initial "main").afterAll [
      .make "part" (.intern "main" "kit" "/A%20b" (some " \t ") ["swift"])]
    ∃ source, s.handle? "part" = some source ∧ source.identity.fragment = some "" ∧
      s.prepare (.withFragment "main" "part" (some "")) = .ok (source, s) ∧
      (s.afterAll [.make "one" (.withFragment "main" "part" none),
        .make "both" (.withFragment "main" "one" (some "é #1 ?")),
        .make "direct" (.withFragment "main" "part" (some "é #1 ?"))]).AreOne "both" "direct" ∧
      (s.afterAll [.make "page" (.intern "main" "kit" "A b" none ["occ"]),
        .make "first" (.withFragment "main" "page" (some " \t ")),
        .make "whole" (.intern "main" "kit" "A b" (some " \t ") ["occ"])]).AreOne
          "first" "whole" ∧
      (s.afterAll [.make "seen" (.addLanguages "main" "part" ["occ"]),
        .make "first" (.withFragment "main" "seen" (some "x y")),
        .make "other" (.withFragment "main" "part" (some "x y")),
        .make "second" (.addLanguages "main" "other" ["occ"])]).AreOne "first" "second" := by
  intro s
  obtain ⟨hinterned, hhandles⟩ := fragment_independent "main" [
      .make "part" (.intern "main" "kit" "/A%20b" (some " \t ") ["swift"])] "main" rfl
  obtain ⟨hover, hagain, hadded, -, -⟩ := hhandles "part" _ rfl
  have hempty : ((s.handle? "part").map (·.identity.fragment)) = some (some "") := by
    decide +kernel
  exact ⟨_, rfl, Option.some.inj hempty, (Option.some.inj hempty) ▸ hagain rfl,
    hover none (some "é #1 ?") "one" "both" "direct" (by decide) (by decide) (by decide),
    hinterned "kit" "A b" ["occ"] (some " \t ") "page" "first" "whole" (by decide) (by decide),
    hadded (some "x y") ["occ"] "seen" "first" "other" "second" (by decide) (by decide) (by decide)
      (by decide)⟩

end Session

end TopicLinks
