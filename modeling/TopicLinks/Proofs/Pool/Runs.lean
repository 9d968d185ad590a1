import TopicLinks.Proofs.Pool.Consistency

/-!
# Runs of commands

Every command keeps the relation between the tables of a session and the handles in use, so
every session that a sequence of commands leads to has it. The file also says what a command
can do to the set of handles in use.
-/

namespace TopicLinks

/-- A computation that may fail and goes on succeeds through its first part. -/
theorem exists_of_bind_eq_ok {ε α β : Type} {x : Except ε α} {f : α → Except ε β} {b : β}
    (h : (x >>= f) = .ok b) : ∃ a, x = .ok a ∧ f a = .ok b := by
  cases x with
  | error e => cases h
  | ok a => exact ⟨a, rfl, h⟩

/-- The pool in which a recipe makes its handle. A copy is made in no pool. -/
def Recipe.pool? : Recipe → Option String
  | .intern pool _ _ _ _ => some pool
  | .withFragment pool _ _ => some pool
  | .addLanguages pool _ _ => some pool
  | .append pool _ _ => some pool
  | .appendLink pool _ _ => some pool
  | .copy _ => none

/-- The identity for which a recipe obtains a handle, unless it gives back a handle that is
there already. -/
def Recipe.identity? (s : Session) : Recipe → Option Identity
  | .intern _ bundle path fragment languages => Identity.intern? bundle path fragment languages
  | .withFragment _ source fragment =>
    (s.handle? source).map (·.identity.withFragment fragment)
  | .addLanguages _ source languages =>
    (s.handle? source).map (·.identity.addingLanguages languages)
  | .append _ source path => (s.handle? source).bind (·.identity.appending? path)
  | .appendLink _ source link => (s.handle? source).bind (·.identity.appendingLink? link)
  | .copy _ => none

/-- The table in which a command makes a handle. -/
def Command.table? (s : Session) : Command → Option TableId
  | .make _ recipe => recipe.pool?.bind s.pool?
  | _ => none

/-- The identity for which a command obtains a handle. -/
def Command.identity? (s : Session) : Command → Option Identity
  | .make _ recipe => recipe.identity? s
  | _ => none

/-- The handle that a command drops: the one that had the name before. -/
def Command.dropped? (s : Session) : Command → Option Handle
  | .make name _ => s.handle? name
  | .drop name => s.handle? name
  | _ => none

/-- The handle that a command leaves under a name: the new one under a made name, none under a
dropped one, and the old one under every other name. -/
def Command.leaves? (s : Session) : Command → String → Option Handle
  | .make name recipe, x =>
    if x = name then (s.prepare recipe).toOption.map (·.1) else s.handle? x
  | .drop name, x => if x = name then none else s.handle? x
  | _, x => s.handle? x

/-- A property of identities that all interned ones have and that no way of deriving an identity
from another one loses. -/
structure Identity.IsHereditary (P : Identity → Prop) : Prop where
  /-- Interned identities have it. -/
  intern? : ∀ {bundle path : String} {fragment : Option String} {languages : List Language}
    {identity : Identity}, intern? bundle path fragment languages = some identity → P identity
  /-- Another fragment keeps it. -/
  withFragment : ∀ {identity : Identity} (fragment : Option String),
    P identity → P (identity.withFragment fragment)
  /-- More languages keep it. -/
  addingLanguages : ∀ {identity : Identity} (languages : List Language),
    P identity → P (identity.addingLanguages languages)
  /-- A path appended keeps it. -/
  appending? : ∀ {identity below : Identity} {path : String},
    P identity → identity.appending? path = some below → P below
  /-- A link appended keeps it. -/
  appendingLink? : ∀ {identity below : Identity} {link : AuthoredLink},
    P identity → identity.appendingLink? link = some below → P below

theorem Identity.isHereditary_isReadable : IsHereditary IsReadable where
  intern? := readable_of_intern?
  withFragment fragment h := h.withFragment fragment
  addingLanguages _ h := h
  appending? h := h.appending?
  appendingLink? h := h.appendingLink?

namespace Session

variable {s next : Session}

theorem requirePool_eq_ok {pool : String} {table : TableId} (h : s.requirePool pool = .ok table) :
    s.pool? pool = some table := by
  unfold requirePool at h
  split at h
  · rename_i hpool
    cases h
    exact hpool
  · cases h

theorem requireHandle_eq_ok {name : String} {handle : Handle}
    (h : s.requireHandle name = .ok handle) : s.handle? name = some handle := by
  unfold requireHandle at h
  split at h
  · rename_i hhandle
    cases h
    exact hhandle
  · cases h

/-- A recipe that starts from a handle and a pool has found both when it succeeds. -/
theorem exists_of_source_eq_ok {α : Type} {pool source : String} {f : TableId → Handle → α}
    {a : α} (h : (do
      let table ← s.requirePool pool
      let handle ← s.requireHandle source
      Except.ok (f table handle)) = .ok a) :
    ∃ table handle, s.pool? pool = some table ∧ s.handle? source = some handle ∧
      f table handle = a := by
  obtain ⟨table, htable, h⟩ := exists_of_bind_eq_ok h
  obtain ⟨handle, hhandle, h⟩ := exists_of_bind_eq_ok h
  exact ⟨table, handle, requirePool_eq_ok htable, requireHandle_eq_ok hhandle, Except.ok.inj h⟩

/-- A derived handle is the source itself, or obtained for the new identity. -/
theorem derive_cases {table : TableId} {source handle : Handle} {identity : Option Identity}
    (h : s.derive table source identity = (handle, next)) :
    (handle = source ∧ next = s) ∨
      ∃ i, identity = some i ∧ s.obtain table i = (handle, next) := by
  cases identity with
  | none =>
    cases h
    exact Or.inl ⟨rfl, rfl⟩
  | some i => exact Or.inr ⟨i, rfl, h⟩

/-- All that a recipe can come to: a handle in use, given back as it is, or a handle obtained
for a new identity through the table of the recipe's pool. -/
theorem prepare_cases {recipe : Recipe} {handle : Handle}
    (h : s.prepare recipe = .ok (handle, next)) :
    (handle ∈ s.live ∧ next = s) ∨
      ∃ pool table identity, recipe.pool? = some pool ∧ s.pool? pool = some table ∧
        recipe.identity? s = some identity ∧ s.obtain table identity = (handle, next) := by
  cases recipe with
  | intern pool bundle path fragment languages =>
    obtain ⟨table, htable, h⟩ := exists_of_bind_eq_ok h
    cases hidentity : Identity.intern? bundle path fragment languages with
    | none => simp [hidentity] at h
    | some identity =>
      simp only [hidentity, Except.ok.injEq] at h
      exact Or.inr ⟨pool, table, identity, rfl, requirePool_eq_ok htable, hidentity, h⟩
  | withFragment pool source fragment =>
    obtain ⟨table, found, htable, hfound, h⟩ := exists_of_source_eq_ok h
    exact Or.inr ⟨pool, table, _, rfl, htable, by rw [Recipe.identity?, hfound, Option.map_some], h⟩
  | addLanguages pool source languages =>
    obtain ⟨table, found, htable, hfound, h⟩ := exists_of_source_eq_ok h
    exact Or.inr ⟨pool, table, _, rfl, htable, by rw [Recipe.identity?, hfound, Option.map_some], h⟩
  | append pool source path =>
    obtain ⟨table, found, htable, hfound, h⟩ := exists_of_source_eq_ok h
    rcases derive_cases h with ⟨rfl, rfl⟩ | ⟨identity, hidentity, hobtain⟩
    · exact Or.inl ⟨live_of_handle? hfound, rfl⟩
    · exact Or.inr ⟨pool, table, identity, rfl, htable,
        by rw [Recipe.identity?, hfound, Option.bind_some, hidentity], hobtain⟩
  | appendLink pool source link =>
    obtain ⟨table, found, htable, hfound, h⟩ := exists_of_source_eq_ok h
    rcases derive_cases h with ⟨rfl, rfl⟩ | ⟨identity, hidentity, hobtain⟩
    · exact Or.inl ⟨live_of_handle? hfound, rfl⟩
    · exact Or.inr ⟨pool, table, identity, rfl, htable,
        by rw [Recipe.identity?, hfound, Option.bind_some, hidentity], hobtain⟩
  | copy source =>
    obtain ⟨found, hfound, h⟩ := exists_of_bind_eq_ok h
    cases h
    exact Or.inl ⟨live_of_handle? (requireHandle_eq_ok hfound), rfl⟩

/-- From handles with a hereditary property every recipe asks for an identity that has it. -/
theorem of_recipe_identity? {P : Identity → Prop} (hP : Identity.IsHereditary P)
    (h : ∀ handle ∈ s.live, P handle.identity) {recipe : Recipe} {identity : Identity}
    (hidentity : recipe.identity? s = some identity) : P identity := by
  cases recipe with
  | intern => exact hP.intern? hidentity
  | withFragment =>
    obtain ⟨found, hfound, rfl⟩ := Option.map_eq_some_iff.mp hidentity
    exact hP.withFragment _ (h found (live_of_handle? hfound))
  | addLanguages =>
    obtain ⟨found, hfound, rfl⟩ := Option.map_eq_some_iff.mp hidentity
    exact hP.addingLanguages _ (h found (live_of_handle? hfound))
  | append =>
    obtain ⟨found, hfound, hbelow⟩ := Option.bind_eq_some_iff.mp hidentity
    exact hP.appending? (h found (live_of_handle? hfound)) hbelow
  | appendLink =>
    obtain ⟨found, hfound, hbelow⟩ := Option.bind_eq_some_iff.mp hidentity
    exact hP.appendingLink? (h found (live_of_handle? hfound)) hbelow
  | copy => cases hidentity

/-- Obtaining a handle leaves the names and the open tables as they are. -/
theorem obtain_frame {t : TableId} {identity : Identity} {handle : Handle}
    (h : s.obtain t identity = (handle, next)) :
    handle.table = t ∧ handle.identity = identity ∧ next.handles = s.handles ∧
      next.pools = s.pools ∧ ∀ other, (s.table? other).isSome → (next.table? other).isSome := by
  unfold obtain at h
  split at h
  · cases h
    exact ⟨rfl, rfl, rfl, rfl, fun _ hother => hother⟩
  · cases h
    refine ⟨rfl, rfl, rfl, rfl, fun other hother => ?_⟩
    rw [table?_set]
    split
    · rfl
    · exact hother

/-! ### Names -/

/-- The handles that other names stand for. -/
def others (s : Session) (name : String) : Set Handle :=
  {handle | ∃ other, (other, handle) ∈ s.handles ∧ other ≠ name}

theorem release_handles (s : Session) (old : Handle) : (s.release old).handles = s.handles := by
  unfold release
  repeat' split
  all_goals rfl

theorem release_pools (s : Session) (old : Handle) : (s.release old).pools = s.pools := by
  unfold release
  repeat' split
  all_goals rfl

/-- Releasing a handle closes no table. -/
theorem isSome_table?_release (s : Session) (old : Handle) {t : TableId}
    (h : (s.table? t).isSome) : ((s.release old).table? t).isSome := by
  unfold release
  split
  · exact h
  · split
    · exact h
    · rename_i table htable
      have hset := Assoc.get?_set s.tables old.table t (table.evict old.identity.address old.cell)
      rw [table?, hset]
      split
      · rfl
      · exact h

/-- Storing a handle changes no pool name and closes no table. -/
theorem store_frame (s : Session) (name : String) (handle : Handle) :
    (s.store name handle).pools = s.pools ∧
      ∀ t, (s.table? t).isSome → ((s.store name handle).table? t).isSome := by
  unfold store
  split
  · exact ⟨rfl, fun _ ht => ht⟩
  · exact ⟨release_pools _ _, fun _ ht => isSome_table?_release _ _ ht⟩

/-- Dropping a name changes no pool name and closes no table. -/
theorem drop_frame (s : Session) (name : String) :
    (s.drop name).pools = s.pools ∧
      ∀ t, (s.table? t).isSome → ((s.drop name).table? t).isSome := by
  unfold drop
  split
  · exact ⟨rfl, fun _ ht => ht⟩
  · exact ⟨release_pools _ _, fun _ ht => isSome_table?_release _ _ ht⟩

theorem live_eq_of_handles_eq {s' : Session} (h : s'.handles = s.handles) : s'.live = s.live := by
  simp [live, h]

theorem holdings_eq_of_handles_eq {s' : Session} (h : s'.handles = s.handles) :
    s'.holdings = s.holdings := by
  rw [holdings, holdings, live_eq_of_handles_eq h]

/-- The handles in use are that of a name, if it has one, and those of the other names. -/
theorem live_eq_insert (h : Assoc.Unique s.handles) {name : String} {old : Handle}
    (hold : s.handle? name = some old) : s.live = insert old (s.others name) := by
  ext handle
  constructor
  · rintro ⟨other, hmem⟩
    by_cases hname : other = name
    · subst hname
      have hhandle := h.get?_eq_some_iff.mpr hmem
      left
      exact Option.some.inj (hhandle.symm.trans hold)
    · exact Or.inr ⟨other, hmem, hname⟩
  · rintro (rfl | ⟨other, hmem, _⟩)
    · exact live_of_handle? hold
    · exact ⟨other, hmem⟩

theorem live_eq_others {name : String} (hnone : s.handle? name = none) :
    s.live = s.others name := by
  ext handle
  constructor
  · rintro ⟨other, hmem⟩
    refine ⟨other, hmem, ?_⟩
    rintro rfl
    have hsome := Assoc.isSome_get?_of_mem hmem
    rw [show Assoc.get? s.handles other = none from hnone] at hsome
    cases hsome
  · rintro ⟨other, hmem, _⟩
    exact ⟨other, hmem⟩

theorem live_set (s : Session) (name : String) (handle : Handle) :
    ({ s with handles := Assoc.set s.handles name handle } : Session).live =
      insert handle (s.others name) := by
  ext other
  constructor
  · rintro ⟨key, hmem⟩
    rcases Assoc.mem_set.mp hmem with heq | ⟨hmem, hkey⟩
    · exact Or.inl (Prod.mk.inj heq).2
    · exact Or.inr ⟨key, hmem, hkey⟩
  · rintro (rfl | ⟨key, hmem, hkey⟩)
    · exact ⟨name, Assoc.mem_set.mpr (Or.inl rfl)⟩
    · exact ⟨key, Assoc.mem_set.mpr (Or.inr ⟨hmem, hkey⟩)⟩

theorem live_erase (s : Session) (name : String) :
    ({ s with handles := Assoc.erase s.handles name } : Session).live = s.others name := by
  ext other
  constructor
  · rintro ⟨key, hmem⟩
    exact ⟨key, Assoc.mem_erase.mp hmem⟩
  · rintro ⟨key, hmem⟩
    exact ⟨key, Assoc.mem_erase.mpr hmem⟩

/-- After a handle is stored, it is in use beside those of the other names. -/
theorem live_store (s : Session) (name : String) (handle : Handle) :
    (s.store name handle).live = insert handle (s.others name) := by
  rw [← live_set]
  unfold store
  split
  · rfl
  · exact live_eq_of_handles_eq (release_handles _ _)

/-- After a name is dropped, the handles of the other names are in use. -/
theorem live_drop (s : Session) (name : String) : (s.drop name).live = s.others name := by
  unfold drop
  split
  · rename_i hnone
    exact live_eq_others hnone
  · rw [← live_erase]
    exact live_eq_of_handles_eq (release_handles _ _)

/-- A recipe leaves the names of handles as they are. -/
theorem handles_of_prepare {recipe : Recipe} {handle : Handle}
    (h : s.prepare recipe = .ok (handle, next)) : next.handles = s.handles := by
  rcases prepare_cases h with ⟨_, rfl⟩ | ⟨_, _, _, _, _, _, hobtain⟩
  · rfl
  · exact (obtain_frame hobtain).2.2.1

theorem handle?_store (s : Session) (name : String) (handle : Handle) (x : String) :
    (s.store name handle).handle? x = if x = name then some handle else s.handle? x := by
  have hhandles : (s.store name handle).handles = Assoc.set s.handles name handle := by
    unfold store
    split
    · rfl
    · exact release_handles _ _
  rw [handle?, hhandles, Assoc.get?_set]
  rfl

theorem handle?_drop (s : Session) (name x : String) :
    (s.drop name).handle? x = if x = name then none else s.handle? x := by
  unfold drop
  split
  next hnone =>
    split
    · next hx => rw [hx, hnone]
    · rfl
  next =>
    rw [handle?, release_handles]
    split
    · next hx => rw [hx, Assoc.get?_erase_self]
    · next hx => exact Assoc.get?_erase_of_ne _ hx

/-- Which handles are in use after a command. -/
theorem handle?_of_run {command : Command} (h : s.run command = .ok next) (x : String) :
    next.handle? x = command.leaves? s x := by
  cases command with
  | make name recipe =>
    obtain ⟨⟨made, prepared⟩, hprepare, hstore⟩ := exists_of_bind_eq_ok h
    cases hstore
    rw [handle?_store, Command.leaves?, hprepare, handle?, handles_of_prepare hprepare]
    rfl
  | drop name =>
    cases h
    exact handle?_drop s name x
  | newPool name =>
    cases h
    rfl
  | sharePool name source =>
    obtain ⟨table, -, hshare⟩ := exists_of_bind_eq_ok h
    cases hshare
    rfl
  | dropPool name =>
    cases h
    rfl

/-- A handle made by a recipe is in use already, or it is in the table of the recipe's pool and of
the identity for which the recipe asks. -/
theorem live_or_made_of_prepare {recipe : Recipe} {handle : Handle}
    (h : s.prepare recipe = .ok (handle, next)) :
    handle ∈ s.live ∨ recipe.pool?.bind s.pool? = some handle.table ∧
      recipe.identity? s = some handle.identity := by
  rcases prepare_cases h with ⟨hlive, _⟩ | ⟨pool, t, identity, hpool, ht, hidentity, hobtain⟩
  · exact Or.inl hlive
  · right
    obtain ⟨htable, hmade, _⟩ := obtain_frame hobtain
    rw [hpool, Option.bind_some, ht, htable, hmade]
    exact ⟨rfl, hidentity⟩

/-- The handles of other names are in use. -/
theorem live_of_others {name : String} {handle : Handle} (h : handle ∈ s.others name) :
    handle ∈ s.live := by
  obtain ⟨other, hmem, _⟩ := h
  exact ⟨other, hmem⟩

/-- A handle in use is that of a name or that of another one. -/
theorem live_cases (hnames : Assoc.Unique s.handles) {handle : Handle} (h : handle ∈ s.live)
    (name : String) : handle ∈ s.others name ∨ s.handle? name = some handle := by
  cases hold : s.handle? name with
  | none => exact Or.inl (live_eq_others hold ▸ h)
  | some old =>
    rw [live_eq_insert hnames hold] at h
    rcases h with rfl | h
    · exact Or.inr rfl
    · exact Or.inl h

/-- What a command can do to the handles in use: it adds a handle only in the table in which
it works and for the identity for which it asks, and takes away only the one that it drops. -/
theorem live_of_run (hnames : Assoc.Unique s.handles) {command : Command}
    (hrun : s.run command = .ok next) :
    (∀ handle ∈ next.live, handle ∈ s.live ∨ command.table? s = some handle.table ∧
        command.identity? s = some handle.identity) ∧
      ∀ handle ∈ s.live, handle ∈ next.live ∨ command.dropped? s = some handle := by
  cases command with
  | make name recipe =>
    obtain ⟨⟨made, prepared⟩, hprepare, hrun⟩ := exists_of_bind_eq_ok hrun
    cases hrun
    have hothers : prepared.others name = s.others name := by
      rw [others, others, handles_of_prepare hprepare]
    rw [live_store, hothers]
    constructor
    · rintro handle (rfl | hlive)
      · exact live_or_made_of_prepare hprepare
      · exact Or.inl (live_of_others hlive)
    · intro handle hlive
      rcases live_cases hnames hlive name with hother | hold
      · exact Or.inl (Or.inr hother)
      · exact Or.inr hold
  | drop name =>
    cases hrun
    rw [live_drop]
    exact ⟨fun handle hlive => Or.inl (live_of_others hlive),
      fun handle hlive => live_cases hnames hlive name⟩
  | newPool name =>
    cases hrun
    exact ⟨fun handle hlive => Or.inl hlive, fun handle hlive => Or.inl hlive⟩
  | sharePool name source =>
    obtain ⟨t, _, hrun⟩ := exists_of_bind_eq_ok hrun
    cases hrun
    exact ⟨fun handle hlive => Or.inl hlive, fun handle hlive => Or.inl hlive⟩
  | dropPool name =>
    cases hrun
    exact ⟨fun handle hlive => Or.inl hlive, fun handle hlive => Or.inl hlive⟩

/-- What holds at first and is kept by every command that succeeds holds after any commands: those
that fail change nothing. -/
theorem afterAll_induction {P : Session → Prop}
    (hrun : ∀ {s next : Session} {command : Command}, P s → s.run command = .ok next → P next)
    (h : P s) (commands : List Command) : P (s.afterAll commands) := by
  induction commands generalizing s with
  | nil => exact h
  | cons command rest ih =>
    apply ih
    unfold after
    split
    · rename_i hnext
      exact hrun h hnext
    · exact h

end Session

end TopicLinks
