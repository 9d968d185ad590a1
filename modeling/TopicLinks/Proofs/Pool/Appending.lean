import TopicLinks.Proofs.Identity.Paths
import TopicLinks.Proofs.Pool.Languages
import TopicLinks.Proofs.Pool.Reinterning

/-!
# Ways to a child

There are several ways from an identity to one below it: its path may be appended in one step or in
two, as text or as part of a link, and it may be interned as a whole. All of them go through the
same segments, so they lead to the same identity and, through one pool, to the same storage. A path
that leads nowhere gives the identity itself back, whichever way is taken.
-/

namespace TopicLinks.Session

variable {s t next : Session} {recipe : Recipe} {name x own : String} {handle source : Handle}
  {table : TableId} {identity : Identity} {path : String}

/-- A recipe leaves the names of pools as they are. -/
theorem pools_of_prepare (h : s.prepare recipe = .ok (handle, next)) : next.pools = s.pools := by
  rcases prepare_cases h with ⟨_, rfl⟩ | ⟨_, _, _, _, _, _, hobtain⟩
  · rfl
  · exact (obtain_frame hobtain).2.2.2.1

/-- A handle was made under a name, and nothing else that has a name was touched. -/
structure Makes (s t : Session) (name : String) (handle : Handle) : Prop where
  /-- The name stands for the handle. -/
  made : t.handle? name = some handle
  /-- The names of other handles stand for what they did, -/
  others : ∀ {other handle}, other ≠ name → s.handle? other = some handle →
    t.handle? other = some handle
  /-- and so do the names of pools. -/
  pools : ∀ {pool table}, s.pool? pool = some table → t.pool? pool = some table
  /-- The session is one that commands can lead to if it was before. -/
  invariant : s.Invariant → t.Invariant

/-- A recipe that gives a handle makes it under any name. -/
theorem makes_of_prepare (h : s.prepare recipe = .ok (handle, next)) (name : String) :
    s.Makes (s.after (.make name recipe)) name handle := by
  have hrun : s.run (.make name recipe) = .ok (next.store name handle) := by
    rw [run, h]
    rfl
  have hafter : s.after (.make name recipe) = next.store name handle := by rw [after, hrun]
  rw [hafter]
  refine ⟨by rw [handle?_store, if_pos rfl], fun hother hhandle => ?_, fun hpool => ?_,
    fun hs => hs.run hrun⟩
  · rw [handle?_store, if_neg hother, handle?, handles_of_prepare h]
    exact hhandle
  · rw [pool?, (store_frame next name handle).1, pools_of_prepare h]
    exact hpool

/-- A recipe that asks for an identity obtains a handle for it through the table of its pool. -/
theorem prepare_of_identity? (hpool : recipe.pool? = some own) (htable : s.pool? own = some table)
    (hidentity : recipe.identity? s = some identity) :
    s.prepare recipe = .ok (s.obtain table identity) := by
  cases recipe with
  | intern pool bundle path fragment languages =>
    cases hpool
    simp only [Recipe.identity?] at hidentity
    simp only [prepare, requirePool, htable, hidentity]
    rfl
  | withFragment pool source changed | addLanguages pool source changed =>
    cases hpool
    obtain ⟨found, hfound, rfl⟩ := Option.map_eq_some_iff.mp hidentity
    simp only [prepare, requirePool, requireHandle, htable, hfound]
    rfl
  | append pool source appended | appendLink pool source appended =>
    cases hpool
    obtain ⟨found, hfound, hbelow⟩ := Option.bind_eq_some_iff.mp hidentity
    simp only [prepare, requirePool, requireHandle, htable, hfound]
    exact congrArg (fun below => Except.ok (s.derive table found below)) hbelow
  | copy source => cases hpool

/-- A recipe that asks for an identity makes a handle for it in the table of its pool. -/
theorem exists_makes (hpool : recipe.pool? = some own) (htable : s.pool? own = some table)
    (hidentity : recipe.identity? s = some identity) (name : String) :
    ∃ handle, s.Makes (s.after (.make name recipe)) name handle ∧ handle.table = table ∧
      handle.identity = identity := by
  obtain ⟨hin, hof, -⟩ := obtain_frame (rfl : s.obtain table identity = _)
  exact ⟨_, makes_of_prepare (prepare_of_identity? hpool htable hidentity) name, hin, hof⟩

/-- A path that leads nowhere gives the handle itself back, and the session as it is. -/
theorem prepare_append_of_nil (hsource : s.handle? x = some source)
    (htable : s.pool? own = some table) (h : Readable.segments path = []) :
    s.prepare (.append own x path) = .ok (source, s) := by
  simp only [prepare, requirePool, requireHandle, htable, hsource]
  exact congrArg (fun below => Except.ok (s.derive table source below)) (Identity.below?_of_nil h _)

/-- So does a link with such a path, whatever its fragment. -/
theorem prepare_appendLink_of_nil (hsource : s.handle? x = some source)
    (htable : s.pool? own = some table) {link : AuthoredLink}
    (h : Readable.segments link.path = []) :
    s.prepare (.appendLink own x link) = .ok (source, s) := by
  simp only [prepare, requirePool, requireHandle, htable, hsource]
  exact congrArg (fun below => Except.ok (s.derive table source below)) (Identity.below?_of_nil h _)

/-- Appending a path to a handle makes a handle for the identity there. It is the same handle if the
path leads nowhere, and otherwise one in the table of the pool. -/
theorem exists_makes_append (hsource : s.handle? x = some source)
    (htable : s.pool? own = some table) (name path : String) :
    ∃ handle, s.Makes (s.after (.make name (.append own x path))) name handle ∧
      handle.identity = source.identity.appended path ∧
      (Readable.segments path = [] → handle = source) ∧
      (Readable.segments path ≠ [] → handle.table = table) := by
  by_cases hnil : Readable.segments path = []
  · exact ⟨source, makes_of_prepare (prepare_append_of_nil hsource htable hnil) name,
      (Identity.appended_of_nil hnil).symm, fun _ => rfl, absurd hnil⟩
  · have hidentity : (Recipe.append own x path).identity? s =
        some (source.identity.appended path) := by
      rw [Recipe.identity?, hsource, Option.bind_some, Identity.appended_of_ne_nil hnil,
        Identity.appending?, Identity.below?_of_ne_nil hnil]
    obtain ⟨handle, hmakes, hin, hof⟩ := exists_makes rfl htable hidentity name
    exact ⟨handle, hmakes, hof, fun h => absurd h hnil, fun _ => hin⟩

/-- Two handles in use share storage if they are of one address in one table. -/
theorem Invariant.sharesStorage_of_eq (h : s.Invariant) {y : String} {a b : Handle}
    (ha : s.handle? x = some a) (hb : s.handle? y = some b) (htable : a.table = b.table)
    (haddress : a.identity.address = b.identity.address) : a.SharesStorage b :=
  (h.sharesStorage_iff (live_of_handle? ha) (live_of_handle? hb)).mpr
    ⟨htable, congrArg Address.key haddress⟩

/-- Appending one path to an identity in use and then another leads to the same bundle, path,
fragment and languages as appending both at once with a slash between them, through whichever pools
and whatever the two texts hold. Through pools of one table it leads to the same storage. -/
theorem appending_composes (pool : String) (commands : List Command) :
    let s := (initial pool).afterAll commands
    ∀ x source first second third below deeper direct a b, s.handle? x = some source →
      (s.pool? first).isSome → (s.pool? second).isSome → (s.pool? third).isSome →
      below ≠ x → deeper ≠ x → deeper ≠ direct →
      let t := s.afterAll [
        .make below (.append first x a),
        .make deeper (.append second below b),
        .make direct (.append third x (a ++ "/" ++ b))]
      ∃ two one, t.handle? deeper = some two ∧ t.handle? direct = some one ∧
        two.identity = one.identity ∧
        (s.pool? first = s.pool? second → s.pool? second = s.pool? third →
          two.SharesStorage one) := by
  intro s x source first second third below deeper direct a b hsource hfirst hsecond hthird hbelow
    hdeeper hdirect t
  obtain ⟨first', hfirst⟩ := Option.isSome_iff_exists.mp hfirst
  obtain ⟨second', hsecond⟩ := Option.isSome_iff_exists.mp hsecond
  obtain ⟨third', hthird⟩ := Option.isSome_iff_exists.mp hthird
  obtain ⟨mid, hmid, hmidOf, hmidSame, hmidIn⟩ := exists_makes_append hsource hfirst below a
  obtain ⟨two, htwo, htwoOf, htwoSame, htwoIn⟩ :=
    exists_makes_append hmid.made (hmid.pools hsecond) deeper b
  obtain ⟨one, hone, honeOf, honeSame, honeIn⟩ :=
    exists_makes_append (htwo.others hdeeper.symm (hmid.others hbelow.symm hsource))
      (htwo.pools (hmid.pools hthird)) direct (a ++ "/" ++ b)
  have hidentity : two.identity = one.identity := by
    rw [htwoOf, hmidOf, honeOf, Identity.appended_appended]
  have hnamed := hone.others hdirect htwo.made
  refine ⟨two, one, hnamed, hone.made, hidentity, fun hsame hsame' => ?_⟩
  have ht : t.Invariant := hone.invariant (htwo.invariant (hmid.invariant
    (invariant_afterAll pool commands)))
  have hboth := Readable.segments_append a b
  rw [hfirst, hsecond, Option.some.injEq] at hsame
  rw [hsecond, hthird, Option.some.injEq] at hsame'
  by_cases hnil : Readable.segments (a ++ "/" ++ b) = []
  · obtain ⟨ha, hb⟩ := List.append_eq_nil_iff.mp (hboth.symm.trans hnil)
    rw [htwoSame hb, hmidSame ha, honeSame hnil]
    rfl
  · refine ht.sharesStorage_of_eq hnamed hone.made ?_ (congrArg Identity.address hidentity)
    rw [honeIn hnil]
    by_cases hb : Readable.segments b = []
    · have ha : Readable.segments a ≠ [] := by
        intro ha
        exact hnil (hboth.trans (List.append_eq_nil_iff.mpr ⟨ha, hb⟩))
      rw [htwoSame hb, hmidIn ha, hsame, hsame']
    · rw [htwoIn hb, hsame']

/-- A byte of two is written before the slash between the texts and the other one behind it, and an
escaped slash follows: neither way puts the bytes together, and both cut at the escaped slash. -/
theorem appending_composes_of_broken_seam :
    let s := (initial "main").afterAll [
      .make "page" (.intern "main" "kit" "/A" (some "top") ["swift", "occ"])]
    let t := s.afterAll [
      .make "below" (.append "main" "page" "B%C3"),
      .make "deeper" (.append "main" "below" "%A9%2F//c%"),
      .make "direct" (.append "main" "page" ("B%C3" ++ "/" ++ "%A9%2F//c%"))]
    (s.handle? "page").isSome ∧ (s.pool? "main").isSome ∧
      ∃ two one, t.handle? "deeper" = some two ∧ t.handle? "direct" = some one ∧
        two.identity = one.identity ∧ two.SharesStorage one ∧
        one.identity.path = "/A/B_/---/c_" ∧ one.identity.fragment = none := by
  intro s t
  obtain ⟨two, one, htwo, hone, hidentity, hshares⟩ := appending_composes "main" [
      .make "page" (.intern "main" "kit" "/A" (some "top") ["swift", "occ"])]
    "page" _ "main" "main" "main" "below" "deeper" "direct" "B%C3" "%A9%2F//c%" rfl rfl rfl rfl
    (by decide) (by decide) (by decide)
  have hparts : (t.handle? "direct").map (fun one => (one.identity.path, one.identity.fragment)) =
      some ("/A/B_/---/c_", none) := by decide +kernel
  rw [hone, Option.map_some, Option.some.injEq, Prod.mk.injEq] at hparts
  exact ⟨rfl, rfl, two, one, htwo, hone, hidentity, hshares rfl rfl, hparts⟩

/-- Interned behind the path of a readable identity, a path with segments is asked for as it is
appended, in any session. -/
theorem identity?_intern (h : identity.IsReadable) (own : String)
    (hpath : Readable.segments path ≠ []) {languages : List Language}
    (hlanguages : languages ≠ []) :
    (Recipe.intern own identity.bundle (identity.path ++ "/" ++ path) none languages).identity? s =
      some ⟨(identity.appended path).address, .ofList languages⟩ :=
  h.intern?_appended hpath hlanguages

/-- Another fragment is asked for on the identity of the handle. -/
theorem identity?_withFragment (hsource : s.handle? x = some source) (own : String)
    (fragment : Option String) :
    (Recipe.withFragment own x fragment).identity? s =
      some (source.identity.withFragment fragment) := by
  rw [Recipe.identity?, hsource, Option.map_some]

/-- A link with segments is asked for as its path is, and then with its fragment. -/
theorem identity?_appendLink (hsource : s.handle? x = some source) (own : String)
    {link : AuthoredLink} (h : Readable.segments link.path ≠ []) :
    (Recipe.appendLink own x link).identity? s =
      some ((source.identity.appended link.path).withFragment link.fragment) := by
  rw [Recipe.identity?, hsource, Option.bind_some, Identity.appendingLink?_of_ne_nil h]

/-- A path that has segments leads from an identity in use to one identity, whether it is appended
or interned behind the path of the identity: the handles share storage. Its components are those of
the identity and then the readable forms of the pieces of the path, so it is another identity; it
keeps the languages and has no fragment. Its path is the path joined to that of the identity as
text, and its components are read off this text. A link with this path leads to the same storage as
its fragment does from there. Every other path, and every link with such a path, gives the handle
itself back. -/
theorem ways_to_child_agree (pool : String) (commands : List Command) :
    let s := (initial pool).afterAll commands
    ∀ x parent own raw link, s.handle? x = some parent → (s.pool? own).isSome → link.path = raw →
      ((∃ c ∈ Text.Percent.decode raw.toList, c ≠ '/') →
        ∀ below again part linked, [x, below, again, part, linked].Nodup →
        let t := s.afterAll [
          .make below (.append own x raw),
          .make again (.intern own parent.identity.bundle (parent.identity.path ++ "/" ++ raw) none
            parent.identity.languages.ids),
          .make part (.withFragment own below link.fragment),
          .make linked (.appendLink own x link)]
        ∃ a b c d, t.handle? below = some a ∧ t.handle? again = some b ∧
          t.handle? part = some c ∧ t.handle? linked = some d ∧
          a.SharesStorage b ∧ a.identity.languages = parent.identity.languages ∧
          a.identity.fragment = none ∧
          a.identity.components = parent.identity.components ++
            (Readable.pieces (Text.Percent.decode raw.toList)).map
              (fun piece => .ofList (Readable.segment piece)) ∧
          ¬a.Equals parent ∧ c.SharesStorage d ∧
          Readable.joined? parent.identity.path raw = some a.identity.path ∧
          a.identity.components =
            "/" :: (Readable.pieces a.identity.path.toList).map String.ofList) ∧
      ((∀ c ∈ Text.Percent.decode raw.toList, c = '/') →
        s.prepare (.append own x raw) = .ok (parent, s) ∧
        s.prepare (.appendLink own x link) = .ok (parent, s)) := by
  rintro s x parent own raw link hparent hown rfl
  obtain ⟨table, hown⟩ := Option.isSome_iff_exists.mp hown
  constructor
  · rintro ⟨c, hc, hslash⟩ below again part linked hnames t
    have hne : Readable.segments link.path ≠ [] :=
      fun hnil => hslash (Readable.segments_eq_nil_iff.mp hnil c hc)
    have hs : s.Invariant := invariant_afterAll pool commands
    have hlive := live_of_handle? hparent
    obtain ⟨language, hlanguage⟩ :=
      of_isHereditary Identity.isHereditary_isSpoken pool commands parent hlive
    simp only [List.nodup_cons, List.mem_cons, not_or] at hnames
    obtain ⟨⟨hxb, hxa, hxp, hxl, -⟩, ⟨hba, hbp, hbl, -⟩, ⟨hap, hal, -⟩, ⟨hpl, -⟩, -⟩ := hnames
    obtain ⟨a, ha, haOf, -, haIn⟩ := exists_makes_append hparent hown below link.path
    obtain ⟨b, hb, hbIn, hbOf⟩ := exists_makes rfl (ha.pools hown)
      (identity?_intern (hs.isReadable hlive) own hne (List.ne_nil_of_mem hlanguage)) again
    have hbelow := hb.others hba ha.made
    obtain ⟨c, hc, hcIn, hcOf⟩ := exists_makes rfl (hb.pools (ha.pools hown))
      (identity?_withFragment hbelow own link.fragment) part
    have hkept := hc.others hxp (hb.others hxa (ha.others hxb hparent))
    obtain ⟨d, hd, hdIn, hdOf⟩ := exists_makes rfl (hc.pools (hb.pools (ha.pools hown)))
      (identity?_appendLink hkept own hne) linked
    have ht : t.Invariant := hd.invariant (hc.invariant (hb.invariant (ha.invariant hs)))
    have hat := hd.others hbl (hc.others hbp hbelow)
    have hbt := hd.others hal (hc.others hap hb.made)
    have hct := hd.others hpl hc.made
    refine ⟨a, b, c, d, hat, hbt, hct, hd.made, ?_, ?_, ?_, ?_, ?_, ?_, ?_,
      (ht.isReadable (live_of_handle? hat)).components_eq⟩
    · refine ht.sharesStorage_of_eq hat hbt ((haIn hne).trans hbIn.symm) ?_
      rw [haOf, hbOf]
    · rw [haOf, Identity.appended_of_ne_nil hne]
    · rw [haOf, Identity.appended_of_ne_nil hne]
      rfl
    · rw [haOf, Identity.appended_of_ne_nil hne]
      rfl
    · intro hequals
      have hlive' := live_of_handle? (hd.others hxl hkept)
      have hkey := (ht.equals_iff (live_of_handle? hat) hlive').mp hequals
      have haddress := (ht.key_eq_iff (live_of_handle? hat) hlive').mp hkey
      rw [haOf] at haddress
      exact Identity.address_appended_ne hne haddress
    · refine ht.sharesStorage_of_eq hct hd.made (hcIn.trans hdIn.symm) ?_
      rw [hcOf, hdOf, haOf]
    · rw [← (hs.isReadable hlive).map_path_below? none, Identity.below?_of_ne_nil hne, haOf,
        Identity.appended_of_ne_nil hne]
      rfl
  · intro hslash
    have hnil : Readable.segments link.path = [] := Readable.segments_eq_nil_iff.mpr hslash
    exact ⟨prepare_append_of_nil hparent hown hnil, prepare_appendLink_of_nil hparent hown hnil⟩

/-- Below a section of a page: a path with an escaped slash, an empty piece and a blank leads to one
storage on all ways, and slashes, one of them escaped, lead back to the section. -/
theorem ways_to_child_agree_of_escaped_slash :
    let s := (initial "main").afterAll [
      .make "page" (.intern "main" "kit" "/A" (some "top") ["swift", "occ"])]
    let t := s.afterAll [
      .make "below" (.append "main" "page" "/B%2fc//d e"),
      .make "again" (.intern "main" "kit" "/A//B%2fc//d e" none ["occ", "swift"]),
      .make "part" (.withFragment "main" "below" (some "my part")),
      .make "linked" (.appendLink "main" "page" (.parse "/B%2fc//d e#my part"))]
    ∃ parent a b c d, s.handle? "page" = some parent ∧ t.handle? "below" = some a ∧
      t.handle? "again" = some b ∧ t.handle? "part" = some c ∧ t.handle? "linked" = some d ∧
      a.SharesStorage b ∧ c.SharesStorage d ∧ ¬a.Equals parent ∧
      a.identity.components = ["/", "A", "B", "c", "d_e"] ∧
      s.prepare (.append "main" "page" "/%2F/") = .ok (parent, s) ∧
      s.prepare (.appendLink "main" "page" (.parse "/%2F/#other")) = .ok (parent, s) := by
  intro s t
  have h := ways_to_child_agree "main" [
      .make "page" (.intern "main" "kit" "/A" (some "top") ["swift", "occ"])]
  obtain ⟨a, b, c, d, ha, hb, hc, hd, hab, -, -, hcomponents, hother, hcd, -⟩ :=
    (h "page" _ "main" "/B%2fc//d e" (.parse "/B%2fc//d e#my part") rfl rfl (by decide +kernel)).1
      ⟨'B', by decide +kernel, by decide⟩ "below" "again" "part" "linked" (by decide)
  have hslashes : ∀ c ∈ Text.Percent.decode "/%2F/".toList, c = '/' := by
    have hdecoded : Text.Percent.decode "/%2F/".toList = List.replicate 3 '/' := by decide +kernel
    rw [hdecoded]
    exact fun c hc => List.eq_of_mem_replicate hc
  obtain ⟨happend, hlink⟩ :=
    (h "page" _ "main" "/%2F/" (.parse "/%2F/#other") rfl rfl (by decide +kernel)).2 hslashes
  exact ⟨_, a, b, c, d, rfl, ha, hb, hc, hd, hab, hcd, hother,
    hcomponents.trans (by decide +kernel), happend, hlink⟩

end TopicLinks.Session
