import Mathlib.Data.List.Forall2
import TopicLinks.Proofs.Pool.Runs

/-!
# Sessions without languages

Languages travel with handles, and nothing else in a session looks at them. If they are taken
away from all handles, every command still does to storages, tables and names what it did before.
So two commands that differ in their languages only have the same effect on sessions that differ
in their languages only.
-/

namespace TopicLinks

/-- Values that are changed one by one are looked up under their keys. -/
theorem Assoc.get?_map_snd {κ α β : Type} [DecidableEq κ] (f : α → β) (entries : List (κ × α))
    (key : κ) : get? (entries.map fun entry => (entry.1, f entry.2)) key =
      (get? entries key).map f := by
  induction entries with
  | nil => rfl
  | cons entry rest ih =>
    simp only [List.map_cons, get?]
    split
    · rfl
    · exact ih

theorem Assoc.erase_map_snd {κ α β : Type} [DecidableEq κ] (f : α → β) (entries : List (κ × α))
    (key : κ) : erase (entries.map fun entry => (entry.1, f entry.2)) key =
      (erase entries key).map fun entry => (entry.1, f entry.2) :=
  List.filter_map

/-- An identity without its languages. -/
def Identity.bare (identity : Identity) : Identity := { identity with languages := .empty }

/-- The identity below another one is at the same address, whatever the languages are. -/
theorem Identity.map_below?_bare (identity : Identity) (path : String) (fragment : Option String) :
    (identity.bare.below? path fragment).map bare = (identity.below? path fragment).map bare := by
  unfold below?
  cases Readable.segments path with
  | nil => rfl
  | cons first rest => rfl

/-- A handle without its languages. -/
def Handle.bare (handle : Handle) : Handle := { handle with identity := handle.identity.bare }

/-- Two recipes that differ in their languages only: both intern in some languages, or both in
none. -/
inductive Recipe.Alike : Recipe → Recipe → Prop where
  /-- The same parts are interned. -/
  | intern (pool bundle path : String) (fragment : Option String) {languages others : List Language}
    (h : languages = [] ↔ others = []) :
    Alike (.intern pool bundle path fragment languages) (.intern pool bundle path fragment others)
  /-- Languages are added to the same handle. -/
  | addLanguages (pool source : String) (languages others : List Language) :
    Alike (.addLanguages pool source languages) (.addLanguages pool source others)
  /-- The recipes are the same. -/
  | same (recipe : Recipe) : Alike recipe recipe

/-- Two commands that differ in their languages only. -/
inductive Command.Alike : Command → Command → Prop where
  /-- A handle is made under the same name. -/
  | make (name : String) {recipe other : Recipe} (h : recipe.Alike other) :
    Alike (.make name recipe) (.make name other)
  /-- The commands are the same. -/
  | same (command : Command) : Alike command command

namespace Session

/-- A session whose handles are without languages. -/
def bare (s : Session) : Session :=
  { s with handles := s.handles.map fun entry => (entry.1, entry.2.bare) }

/-- A handle and the session after it was made, without languages. -/
def bareMade (made : Handle × Session) : Handle × Session := (made.1.bare, made.2.bare)

variable (s : Session)

@[simp] theorem bare_bare : s.bare.bare = s.bare := by
  simp only [bare, List.map_map]
  rfl

theorem handle?_bare (name : String) : s.bare.handle? name = (s.handle? name).map Handle.bare :=
  Assoc.get?_map_snd Handle.bare s.handles name

@[simp] theorem holds_bare : s.bare.holds = s.holds := by
  funext cell
  simp only [holds, bare, List.any_map]
  rfl

@[simp] theorem liveCell?_bare (t : TableId) (address : Address) :
    s.bare.liveCell? t address = s.liveCell? t address := by
  simp only [liveCell?, holds_bare]
  rfl

/-- Obtaining a handle looks at the address only. -/
theorem bareMade_obtain (t : TableId) (identity : Identity) :
    bareMade (s.obtain t identity) = s.bare.obtain t identity.bare := by
  have hcell : s.bare.liveCell? t identity.bare.address = s.liveCell? t identity.address :=
    s.liveCell?_bare t identity.address
  simp only [obtain, hcell]
  cases s.liveCell? t identity.address with
  | some cell => rfl
  | none => rfl

theorem bareMade_derive (t : TableId) (source : Handle) (identity : Option Identity) :
    bareMade (s.derive t source identity) =
      s.bare.derive t source.bare (identity.map Identity.bare) := by
  cases identity with
  | none => rfl
  | some identity => exact s.bareMade_obtain t identity

theorem bare_release (old : Handle) : (s.release old).bare = s.bare.release old.bare := by
  have hholds : s.bare.holds old.bare.cell = s.holds old.cell := by rw [holds_bare]; rfl
  have htable : s.bare.table? old.bare.table = s.table? old.table := rfl
  simp only [release, hholds, htable]
  split
  · rfl
  · cases s.table? old.table with
    | none => rfl
    | some table => rfl

theorem bare_store (name : String) (handle : Handle) :
    (s.store name handle).bare = s.bare.store name handle.bare := by
  have hset : ({ s with handles := Assoc.set s.handles name handle } : Session).bare =
      { s.bare with handles := Assoc.set s.bare.handles name handle.bare } := by
    simp only [bare, Assoc.set, Assoc.erase_map_snd, List.map_cons]
  simp only [store, handle?_bare]
  cases s.handle? name with
  | none => exact hset
  | some old => rw [bare_release, hset]; rfl

theorem bare_drop (name : String) : (s.drop name).bare = s.bare.drop name := by
  have herase : ({ s with handles := Assoc.erase s.handles name } : Session).bare =
      { s.bare with handles := Assoc.erase s.bare.handles name } := by
    simp only [bare, Assoc.erase_map_snd]
  simp only [drop, handle?_bare]
  cases s.handle? name with
  | none => rfl
  | some old => rw [bare_release, herase]; rfl

theorem requireHandle_bare (name : String) :
    s.bare.requireHandle name = (s.requireHandle name).map Handle.bare := by
  simp only [requireHandle, handle?_bare]
  cases s.handle? name with
  | none => rfl
  | some handle => rfl

/-- A way to make a handle from another one does the same without languages, if it does so for
every handle. -/
theorem map_source_bare {pool source : String} {f g : TableId → Handle → Handle × Session}
    (h : ∀ t handle, bareMade (f t handle.bare) = bareMade (g t handle)) :
    (do
      let table ← s.bare.requirePool pool
      let handle ← s.bare.requireHandle source
      Except.ok (f table handle)).map bareMade =
    (do
      let table ← s.requirePool pool
      let handle ← s.requireHandle source
      Except.ok (g table handle)).map bareMade := by
  have hpool : s.bare.requirePool pool = s.requirePool pool := rfl
  rw [hpool, requireHandle_bare]
  cases s.requirePool pool with
  | error e => rfl
  | ok table =>
    cases s.requireHandle source with
    | error e => rfl
    | ok handle => exact congrArg Except.ok (h table handle)

/-- The languages of the handles do not matter to a recipe. -/
theorem map_prepare_bare (recipe : Recipe) :
    (s.bare.prepare recipe).map bareMade = (s.prepare recipe).map bareMade := by
  have hobtain : ∀ t identity, bareMade (s.bare.obtain t identity) =
      bareMade (s.obtain t identity) := fun t identity => by
    rw [bareMade_obtain, bareMade_obtain, bare_bare]
  cases recipe with
  | intern pool bundle path fragment languages =>
    have hpool : s.bare.requirePool pool = s.requirePool pool := rfl
    simp only [prepare, hpool]
    cases s.requirePool pool with
    | error e => rfl
    | ok table =>
      cases Identity.intern? bundle path fragment languages with
      | none => rfl
      | some identity => exact congrArg Except.ok (hobtain table identity)
  | withFragment pool source fragment =>
    refine s.map_source_bare fun t handle => ?_
    rw [bareMade_obtain, bareMade_obtain, bare_bare]
    rfl
  | addLanguages pool source languages =>
    refine s.map_source_bare fun t handle => ?_
    rw [bareMade_obtain, bareMade_obtain, bare_bare]
    rfl
  | append pool source path =>
    refine s.map_source_bare fun t handle => ?_
    rw [bareMade_derive, bareMade_derive, bare_bare]
    exact congrArg (s.bare.derive t handle.bare) (Identity.map_below?_bare handle.identity _ _)
  | appendLink pool source link =>
    refine s.map_source_bare fun t handle => ?_
    rw [bareMade_derive, bareMade_derive, bare_bare]
    exact congrArg (s.bare.derive t handle.bare) (Identity.map_below?_bare handle.identity _ _)
  | copy source =>
    simp only [prepare, requireHandle_bare]
    cases s.requireHandle source with
    | error e => rfl
    | ok handle => exact congrArg Except.ok (Prod.ext rfl s.bare_bare)

/-- The languages in a recipe do not matter, except that an identity is in some language. -/
theorem map_prepare_alike {recipe other : Recipe} (h : recipe.Alike other) :
    (s.prepare recipe).map bareMade = (s.prepare other).map bareMade := by
  cases h with
  | same => rfl
  | intern pool bundle path fragment h =>
    rename_i languages others
    simp only [prepare, Identity.intern?, List.isEmpty_iff, h]
    cases s.requirePool pool with
    | error e => rfl
    | ok table =>
      by_cases hothers : others = []
      · simp only [hothers, if_true]
      · simp only [hothers, if_false]
        refine congrArg Except.ok ?_
        rw [bareMade_obtain, bareMade_obtain]
        rfl
  | addLanguages pool source languages others =>
    simp only [prepare]
    cases s.requirePool pool with
    | error e => rfl
    | ok table =>
      cases s.requireHandle source with
      | error e => rfl
      | ok handle =>
        refine congrArg Except.ok ?_
        rw [bareMade_obtain, bareMade_obtain]
        rfl

/-- What a command does to a session without languages follows from what its recipe makes. -/
theorem map_run_make (name : String) (recipe : Recipe) :
    (s.run (.make name recipe)).map bare =
      ((s.prepare recipe).map bareMade).map fun made => made.2.store name made.1 := by
  simp only [run]
  cases s.prepare recipe with
  | error e => rfl
  | ok made => exact congrArg Except.ok (bare_store made.2 name made.1)

/-- The languages of the handles do not matter to a change of pools. -/
theorem bare_forgetTables_bare (pools : List (String × TableId)) (tables : List (TableId × Table))
    (nextTable : TableId) :
    (forgetTables { s.bare with pools, tables, nextTable }).bare =
      (forgetTables { s with pools, tables, nextTable }).bare := by
  have hhandles : s.bare.bare.handles = s.bare.handles := congrArg Session.handles s.bare_bare
  exact congrArg (fun handles => (⟨pools, _, handles, nextTable, s.nextCell⟩ : Session)) hhandles

/-- The languages of the handles do not matter to a command. -/
theorem map_run_bare (command : Command) :
    (s.bare.run command).map bare = (s.run command).map bare := by
  cases command with
  | make name recipe => rw [map_run_make, map_run_make, map_prepare_bare]
  | drop name =>
    refine congrArg Except.ok ?_
    rw [bare_drop, bare_drop, bare_bare]
  | newPool name => exact congrArg Except.ok (s.bare_forgetTables_bare _ _ _)
  | sharePool name source =>
    have hpool : s.bare.requirePool source = s.requirePool source := rfl
    simp only [run, hpool]
    cases s.requirePool source with
    | error e => rfl
    | ok table => exact congrArg Except.ok (s.bare_forgetTables_bare _ s.tables s.nextTable)
  | dropPool name => exact congrArg Except.ok (s.bare_forgetTables_bare _ s.tables s.nextTable)

/-- The languages in a command do not matter either, except that an identity is in some. -/
theorem map_run_alike {command other : Command} (h : command.Alike other) :
    (s.run command).map bare = (s.run other).map bare := by
  cases h with
  | make name h => rw [map_run_make, map_run_make, s.map_prepare_alike h]
  | same => rfl

variable {s} {t : Session}

/-- Commands that differ in their languages only fail alike, and keep sessions the same that differ
in their languages only. -/
theorem map_run_eq_of_bare_eq (h : s.bare = t.bare) {command other : Command}
    (hcommand : command.Alike other) : (s.run command).map bare = (t.run other).map bare :=
  calc (s.run command).map bare
    _ = (s.bare.run command).map bare := (s.map_run_bare command).symm
    _ = (t.bare.run command).map bare := by rw [h]
    _ = (t.run command).map bare := t.map_run_bare command
    _ = (t.run other).map bare := t.map_run_alike hcommand

theorem bare_after_eq (h : s.bare = t.bare) {command other : Command}
    (hcommand : command.Alike other) : (s.after command).bare = (t.after other).bare := by
  have hrun := map_run_eq_of_bare_eq h hcommand
  unfold after
  cases hs : s.run command with
  | error e =>
    cases ht : t.run other with
    | error e' => exact h
    | ok next => rw [hs, ht] at hrun; cases hrun
  | ok next =>
    cases ht : t.run other with
    | error e => rw [hs, ht] at hrun; cases hrun
    | ok next' => rw [hs, ht] at hrun; exact Except.ok.inj hrun

/-- Runs of commands that differ in their languages only lead to sessions that differ in their
languages only. The induction is on the commands. -/
theorem bare_afterAll_eq (h : s.bare = t.bare) {commands others : List Command}
    (hcommands : List.Forall₂ Command.Alike commands others) :
    (s.afterAll commands).bare = (t.afterAll others).bare := by
  induction hcommands generalizing s t with
  | nil => exact h
  | cons hcommand _ ih => exact ih (bare_after_eq h hcommand)

end Session

end TopicLinks
