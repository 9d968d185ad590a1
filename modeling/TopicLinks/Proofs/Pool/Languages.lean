import TopicLinks.Proofs.Pool.Erasure

/-!
# Languages and identities

What is asked about handles and pools is answered without a look at languages, so two runs that
differ in their languages only give the same answers. The languages of a handle come down to it
from the handle that was interned first, with those that were added on the way.
-/

namespace TopicLinks

/-- All that can be read off an identity, apart from its languages. -/
def Identity.parts (identity : Identity) :
    String × String × String × Option String × List String :=
  (identity.absolute, identity.bundle, identity.path, identity.fragment, identity.components)

/-- Two sessions give the same answers to all questions about their handles and pools, apart from
those about languages. -/
structure Session.Resembles (s t : Session) : Prop where
  /-- The same names stand for handles, with the same parts. -/
  parts : ∀ x, (s.handle? x).map (·.identity.parts) = (t.handle? x).map (·.identity.parts)
  /-- Handles of the same names share storage, and are equal. -/
  sharing : ∀ {x y : String} {a b a' b' : Handle}, s.handle? x = some a → s.handle? y = some b →
    t.handle? x = some a' → t.handle? y = some b' →
      (a.SharesStorage b ↔ a'.SharesStorage b') ∧ (a.Equals b ↔ a'.Equals b')
  /-- There are as many different topics. -/
  distinctTopics : s.distinctTopics = t.distinctTopics
  /-- Names stand for the same pools, -/
  pools : ∀ pool, s.pool? pool = t.pool? pool
  /-- which contain the same keys, -/
  contains : ∀ table bundle path fragment,
    s.contains table bundle path fragment = t.contains table bundle path fragment
  /-- and as many of them. -/
  liveCount : ∀ table, s.liveCount table = t.liveCount table

/-- The name of the handle from which a recipe derives its handle. What is interned derives from
no handle. -/
def Recipe.source? : Recipe → Option String
  | .intern _ _ _ _ _ => none
  | .withFragment _ source _ => some source
  | .addLanguages _ source _ => some source
  | .append _ source _ => some source
  | .appendLink _ source _ => some source
  | .copy source => some source

/-- The languages that a recipe names. -/
def Recipe.languages : Recipe → List Language
  | .intern _ _ _ _ languages => languages
  | .addLanguages _ _ languages => languages
  | _ => []

/-- How the handles of all names came about, after a command that succeeds: a new handle comes
about as its source did, and then by its recipe. -/
def Command.extend (lineage : String → List Recipe) : Command → String → List Recipe
  | .make name recipe => fun x =>
    if x = name then recipe.source?.elim [] lineage ++ [recipe] else lineage x
  | _ => lineage

/-- How the handles of all names came about, after commands in order. Those that fail make no
handle. -/
def Session.lineageAfter (s : Session) (lineage : String → List Recipe) :
    List Command → String → List Recipe
  | [] => lineage
  | command :: rest =>
    match s.run command with
    | .error _ => s.lineageAfter lineage rest
    | .ok next => next.lineageAfter (command.extend lineage) rest

/-- A handle came about by some recipes. -/
structure Handle.DescendsBy (handle : Handle) (recipes : List Recipe) : Prop where
  /-- The first of them interns an identity, and each of the others derives a handle. -/
  interned : ∃ first rest, recipes = first :: rest ∧ first.source? = none ∧
    ∀ recipe ∈ rest, recipe.source?.isSome
  /-- The languages of the handle are those that the recipes name. -/
  languages : ∀ language, language ∈ handle.identity.languages ↔
    ∃ recipe ∈ recipes, language ∈ recipe.languages

namespace Handle.DescendsBy

variable {handle source : Handle} {recipe : Recipe}

theorem intern (h : recipe.source? = none)
    (hlanguages : handle.identity.languages = .ofList recipe.languages) :
    handle.DescendsBy [recipe] where
  interned := ⟨recipe, [], rfl, h, fun _ hnil => absurd hnil List.not_mem_nil⟩
  languages language := by
    rw [hlanguages, LanguageSet.mem_ofList]
    simp

theorem derive {recipes : List Recipe} (hsource : source.DescendsBy recipes)
    (h : recipe.source?.isSome)
    (hlanguages : handle.identity.languages =
      source.identity.languages.addAll recipe.languages) :
    handle.DescendsBy (recipes ++ [recipe]) where
  interned := by
    obtain ⟨first, rest, rfl, hfirst, hrest⟩ := hsource.interned
    refine ⟨first, rest ++ [recipe], rfl, hfirst, List.forall_mem_append.mpr ⟨hrest, ?_⟩⟩
    exact fun other hother => List.mem_singleton.mp hother ▸ h
  languages language := by
    rw [hlanguages, LanguageSet.mem_addAll, hsource.languages]
    simp only [List.mem_append, List.mem_singleton, or_and_right, exists_or, exists_eq_left]
    exact or_comm

end Handle.DescendsBy

theorem Identity.languages_of_below? {identity below : Identity} {path : String}
    {fragment : Option String} (h : identity.below? path fragment = some below) :
    below.languages = identity.languages := by
  unfold below? at h
  split at h
  · cases h
  · cases h
    rfl

namespace Session

variable {s t : Session}

/-- Sessions that differ in their languages only resemble each other. -/
theorem resembles_of_bare_eq (h : s.bare = t.bare) : s.Resembles t where
  parts x := by
    have hhandle : (s.handle? x).map Handle.bare = (t.handle? x).map Handle.bare := by
      rw [← handle?_bare, ← handle?_bare, h]
    have hparts := congrArg (Option.map fun a : Handle => a.identity.parts) hhandle
    rwa [Option.map_map, Option.map_map] at hparts
  sharing {x y a b a' b'} hx hy hx' hy' := by
    have hbare : ∀ {z c c'}, s.handle? z = some c → t.handle? z = some c' → c.bare = c'.bare := by
      intro z c c' hc hc'
      have hhandle := congrArg (·.handle? z) h
      simp only [handle?_bare, hc, hc', Option.map_some] at hhandle
      exact Option.some.inj hhandle
    change (a.bare.SharesStorage b.bare ↔ a'.bare.SharesStorage b'.bare) ∧
      (a.bare.Equals b.bare ↔ a'.bare.Equals b'.bare)
    rw [hbare hx hx', hbare hy hy']
    exact ⟨Iff.rfl, Iff.rfl⟩
  distinctTopics := by
    have hbare : ∀ u : Session, u.bare.distinctTopics = u.distinctTopics := by
      intro u
      simp only [distinctTopics, bare, List.map_map]
      rfl
    rw [← hbare s, ← hbare t, h]
  pools pool := congrArg (·.pool? pool) h
  contains table bundle path fragment := by
    simp only [contains]
    rw [← liveCell?_bare s, ← liveCell?_bare t, h]
  liveCount table := by
    have hbare : ∀ u : Session, u.bare.liveCount table = u.liveCount table := by
      intro u
      simp only [liveCount, holds_bare]
      rfl
    rw [← hbare s, ← hbare t, h]

/-- A handle made by a recipe has the languages of its source and those that the recipe names. -/
theorem languages_of_prepare {recipe : Recipe} {handle : Handle} {next : Session}
    (h : s.prepare recipe = .ok (handle, next)) :
    (recipe.source? = none ∧ handle.identity.languages = .ofList recipe.languages) ∨
      ∃ source found, recipe.source? = some source ∧ s.handle? source = some found ∧
        handle.identity.languages = found.identity.languages.addAll recipe.languages := by
  cases recipe with
  | intern pool bundle path fragment languages =>
    obtain ⟨table, -, h⟩ := exists_of_bind_eq_ok h
    unfold Identity.intern? at h
    split at h
    · cases h
    · rename_i identity hidentity
      split at hidentity
      · cases hidentity
      · cases hidentity
        left
        rw [(obtain_frame (Except.ok.inj h)).2.1]
        exact ⟨rfl, rfl⟩
  | withFragment pool source fragment =>
    obtain ⟨table, found, -, hfound, h⟩ := exists_of_source_eq_ok h
    refine Or.inr ⟨source, found, rfl, hfound, ?_⟩
    rw [(obtain_frame h).2.1]
    rfl
  | addLanguages pool source languages =>
    obtain ⟨table, found, -, hfound, h⟩ := exists_of_source_eq_ok h
    refine Or.inr ⟨source, found, rfl, hfound, ?_⟩
    rw [(obtain_frame h).2.1]
    rfl
  | append pool source path =>
    obtain ⟨table, found, -, hfound, h⟩ := exists_of_source_eq_ok h
    refine Or.inr ⟨source, found, rfl, hfound, ?_⟩
    rcases derive_cases h with ⟨rfl, rfl⟩ | ⟨identity, hidentity, hobtain⟩
    · rfl
    · rw [(obtain_frame hobtain).2.1]
      exact Identity.languages_of_below? hidentity
  | appendLink pool source link =>
    obtain ⟨table, found, -, hfound, h⟩ := exists_of_source_eq_ok h
    refine Or.inr ⟨source, found, rfl, hfound, ?_⟩
    rcases derive_cases h with ⟨rfl, rfl⟩ | ⟨identity, hidentity, hobtain⟩
    · rfl
    · rw [(obtain_frame hobtain).2.1]
      exact Identity.languages_of_below? hidentity
  | copy source =>
    obtain ⟨found, hfound, h⟩ := exists_of_bind_eq_ok h
    cases h
    exact Or.inr ⟨source, handle, rfl, requireHandle_eq_ok hfound, rfl⟩

/-- All handles came about by the recipes of their names. -/
def Descends (s : Session) (lineage : String → List Recipe) : Prop :=
  ∀ name handle, s.handle? name = some handle → handle.DescendsBy (lineage name)

variable {lineage : String → List Recipe}

/-- From handles that came about by recipes every recipe makes another one. -/
theorem Descends.prepare (h : s.Descends lineage) {recipe : Recipe} {handle : Handle}
    {next : Session} (hprepare : s.prepare recipe = .ok (handle, next)) :
    handle.DescendsBy (recipe.source?.elim [] lineage ++ [recipe]) := by
  rcases languages_of_prepare hprepare with ⟨hsource, hlanguages⟩ | ⟨source, found, hsource, hfound,
    hlanguages⟩
  · rw [hsource]
    exact .intern hsource hlanguages
  · rw [hsource]
    exact (h source found hfound).derive (by rw [hsource]; rfl) hlanguages

/-- Every command that succeeds keeps handles to their recipes. -/
theorem Descends.run (h : s.Descends lineage) {command : Command} {next : Session}
    (hrun : s.run command = .ok next) : next.Descends (command.extend lineage) := by
  intro x handle hhandle
  rw [handle?_of_run hrun] at hhandle
  cases command with
  | make name recipe =>
    simp only [Command.leaves?, Command.extend] at hhandle ⊢
    split at hhandle
    · next hx =>
      obtain ⟨⟨made, prepared⟩, hprepare, -⟩ := exists_of_bind_eq_ok hrun
      rw [hprepare] at hhandle
      cases hhandle
      rw [if_pos hx]
      exact h.prepare hprepare
    · next hx =>
      rw [if_neg hx]
      exact h x handle hhandle
  | drop name =>
    simp only [Command.leaves?] at hhandle
    split at hhandle
    · cases hhandle
    · exact h x handle hhandle
  | newPool | sharePool | dropPool => exact h x handle hhandle

/-- After any commands all handles came about by the recipes of their names. The induction is on
the commands, from any session. -/
theorem Descends.afterAll (h : s.Descends lineage) (commands : List Command) :
    (s.afterAll commands).Descends (s.lineageAfter lineage commands) := by
  induction commands generalizing s lineage with
  | nil => exact h
  | cons command rest ih =>
    change ((s.after command).afterAll rest).Descends _
    unfold lineageAfter after
    cases hrun : s.run command with
    | error e => exact ih h
    | ok next => exact ih (h.run hrun)

/-- A change of the result leaves a failure as it is. -/
theorem map_eq_error_iff {ε α β : Type} {f : α → β} {x : Except ε α} {e : ε} :
    x.map f = .error e ↔ x = .error e := by
  cases x with
  | error e' => simp only [Except.map, Except.error.injEq]
  | ok a => simp only [Except.map, reduceCtorEq]

/-- Languages never influence identities. Two runs of commands that differ in their languages only
give the same answers after every command, and a command that fails in one of them fails in the
other, for the same reason. In every run the languages of a handle are exactly those named where it
was interned and where languages were added on the way to it. -/
theorem languages_change_no_identity (pool : String) {commands others : List Command}
    (h : List.Forall₂ Command.Alike commands others) :
    (∀ n, ((initial pool).afterAll (commands.take n)).Resembles
        ((initial pool).afterAll (others.take n))) ∧
    (∀ n command other e, commands[n]? = some command → others[n]? = some other →
      (((initial pool).afterAll (commands.take n)).run command = .error e ↔
        ((initial pool).afterAll (others.take n)).run other = .error e)) ∧
    ∀ run name handle, ((initial pool).afterAll run).handle? name = some handle →
      handle.DescendsBy ((initial pool).lineageAfter (fun _ => []) run name) := by
  have hbare : ∀ n, ((initial pool).afterAll (commands.take n)).bare =
      ((initial pool).afterAll (others.take n)).bare :=
    fun n => bare_afterAll_eq rfl (List.forall₂_take n h)
  refine ⟨fun n => resembles_of_bare_eq (hbare n), ?_, ?_⟩
  · intro n command other e hcommand hother
    obtain ⟨hn, rfl⟩ := List.getElem?_eq_some_iff.mp hcommand
    obtain ⟨hn', rfl⟩ := List.getElem?_eq_some_iff.mp hother
    have hrun := map_run_eq_of_bare_eq (hbare n) (h.get hn hn')
    exact map_eq_error_iff.symm.trans ((iff_of_eq (congrArg (· = .error e) hrun)).trans
      map_eq_error_iff)
  · intro run
    have hinitial : (initial pool).Descends fun _ => [] :=
      fun name handle hhandle => nomatch hhandle
    exact hinitial.afterAll run

/-- A page in some languages, seen in more of them, and a part of the page as it was seen. The name
of the seen page is then given to another handle, and the page itself is dropped. -/
def bilingual (first second : List Language) : List Command :=
  [.make "page" (.intern "main" "kit" "/My%20Page" none first),
    .make "seen" (.addLanguages "main" "page" second),
    .make "part" (.append "main" "seen" "Part"),
    .make "seen" (.intern "main" "kit" "My_Page" none ["data"]),
    .drop "page"]

/-- In other languages the same commands come to the same answers. The part is in the languages of
the page as it was seen, although neither handle is in use any more. -/
theorem languages_change_no_identity_of_bilingual :
    let s := (initial "main").afterAll (bilingual ["swift"] ["occ"])
    let t := (initial "main").afterAll (bilingual ["occ", "occ"] [])
    s.Resembles t ∧ ∃ a b, s.handle? "part" = some a ∧ t.handle? "part" = some b ∧
      (∀ language, language ∈ a.identity.languages ↔ language = "swift" ∨ language = "occ") ∧
      ∀ language, language ∈ b.identity.languages ↔ language = "occ" := by
  intro s t
  have halike : List.Forall₂ Command.Alike (bilingual ["swift"] ["occ"])
      (bilingual ["occ", "occ"] []) :=
    .cons (.make _ (.intern _ _ _ _ (by simp))) (.cons (.make _ (.addLanguages _ _ _ _))
      (.cons (.same _) (.cons (.same _) (.cons (.same _) .nil))))
  obtain ⟨hresembles, -, hdescends⟩ := languages_change_no_identity "main" halike
  have hlineage : ∀ first rest second, (initial "main").lineageAfter (fun _ => [])
      (bilingual (first :: rest) second) "part" =
        [.intern "main" "kit" "/My%20Page" none (first :: rest),
          .addLanguages "main" "page" second, .append "main" "seen" "Part"] :=
    fun _ _ _ => rfl
  refine ⟨hresembles 5, _, _, rfl, rfl, fun language => ?_, fun language => ?_⟩
  · rw [(hdescends (bilingual ["swift"] ["occ"]) "part" _ rfl).languages, hlineage]
    simp [Recipe.languages]
  · rw [(hdescends (bilingual ["occ", "occ"] []) "part" _ rfl).languages, hlineage]
    simp [Recipe.languages]

end Session

end TopicLinks
