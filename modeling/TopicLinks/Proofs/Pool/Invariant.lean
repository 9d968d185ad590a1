import TopicLinks.Proofs.Pool.Runs

/-!
# The invariant of sessions

In every session that commands can lead to, names are unique, pools have tables, and the
tables hold exactly what the handles in use hold. Each command keeps this.
-/

namespace TopicLinks.Session

variable {s next : Session}

/-- What holds in every session that commands can lead to. -/
structure Invariant (s : Session) : Prop where
  /-- No name stands for two handles. -/
  names : Assoc.Unique s.handles
  /-- Every pool name stands for a table that is there. -/
  pools : ∀ entry ∈ s.pools, (s.table? entry.2).isSome = true
  /-- The tables hold what the handles hold. -/
  consistent : s.Consistent s.holdings

/-- A pool name that is known stands for a table that is there. -/
theorem Invariant.isSome_table? (h : s.Invariant) {pool : String} {t : TableId}
    (hpool : s.pool? pool = some t) : (s.table? t).isSome = true :=
  h.pools (pool, t) (Assoc.mem_of_get? hpool)

/-- All handles in use have readable identities. -/
theorem Invariant.isReadable (h : s.Invariant) {handle : Handle} (hlive : handle ∈ s.live) :
    handle.identity.IsReadable :=
  h.consistent.readable _ (holding_mem_holdings hlive)

/-- The initial session has nothing in use and one empty table. -/
theorem invariant_initial (pool : String) : (initial pool).Invariant where
  names := List.nodup_nil
  pools := by simp [initial, table?, Assoc.get?]
  consistent := by
    have hnone : (initial pool).holdings = ∅ := by simp [holdings, live, initial]
    have htable : ∀ t table, (initial pool).table? t = some table → t = 0 ∧ table = .empty := by
      intro t table h
      simp only [table?, initial, Assoc.get?] at h
      split at h
      · rename_i ht
        cases h
        exact ⟨ht.symm, rfl⟩
      · cases h
    rw [hnone]
    refine ⟨by simp, by simp, by simp, ?_, by simp, ?_, ?_⟩
    · intro t table h
      rw [(htable t table h).1]
      exact Nat.one_pos
    · intro t table h
      rw [(htable t table h).2]
      exact Table.wellFormed_empty
    · intro t table h address cell
      rw [(htable t table h).2]
      simp

/-- Storing a handle whose storage is held already keeps the tables in step. -/
theorem Consistent.store {handle : Handle} (hnames : Assoc.Unique s.handles)
    (h : s.Consistent (insert handle.holding s.holdings)) (name : String) :
    (s.store name handle).Consistent (s.store name handle).holdings := by
  have hstored := live_set s name handle
  unfold Session.store
  split
  · rename_i hnone
    rw [holdings, hstored, Set.image_insert_eq, ← live_eq_others hnone]
    exact h.rename _ _
  · rename_i old hold
    rw [holdings_eq_of_handles_eq (release_handles _ old)]
    apply Consistent.release
    have hheld : insert handle.holding s.holdings = insert old.holding
        ({ s with handles := Assoc.set s.handles name handle } : Session).holdings := by
      rw [holdings, holdings, hstored, live_eq_insert hnames hold, Set.image_insert_eq,
        Set.image_insert_eq, Set.insert_comm]
    rw [← hheld]
    exact h.rename _ _

/-- Dropping a name keeps the tables in step. -/
theorem Consistent.drop (hnames : Assoc.Unique s.handles) (h : s.Consistent s.holdings)
    (name : String) : (s.drop name).Consistent (s.drop name).holdings := by
  unfold Session.drop
  split
  · exact h
  · rename_i old hold
    rw [holdings_eq_of_handles_eq (release_handles _ old)]
    apply Consistent.release
    have hheld : s.holdings = insert old.holding
        ({ s with handles := Assoc.erase s.handles name } : Session).holdings := by
      rw [holdings, holdings, live_erase, live_eq_insert hnames hold, Set.image_insert_eq]
    rw [← hheld]
    exact h.rename _ _

/-- A table is kept when some pool name stands for it. -/
theorem table?_forgetTables (s : Session) (t : TableId) :
    s.forgetTables.table? t = if s.pools.any (·.2 == t) then s.table? t else none :=
  Assoc.get?_filter s.tables (fun id => s.pools.any (·.2 == id)) t

/-- Forgetting tables keeps the others in step. -/
theorem Consistent.forgetTables {held : Set Holding} (h : s.Consistent held) :
    s.forgetTables.Consistent held := by
  have htable : ∀ t table, s.forgetTables.table? t = some table → s.table? t = some table := by
    intro t table hfound
    rw [table?_forgetTables] at hfound
    split at hfound
    · exact hfound
    · cases hfound
  exact {
    readable := h.readable
    cell_lt := h.cell_lt
    table_lt := h.table_lt
    open_lt := fun t table hfound => h.open_lt t table (htable t table hfound)
    sharing := h.sharing
    wellFormed := fun t table hfound => h.wellFormed t table (htable t table hfound)
    entered := fun t table hfound => h.entered t table (htable t table hfound) }

/-- A new table is empty, and no handle is held in it. -/
theorem Consistent.newTable {held : Set Holding} (h : s.Consistent held) :
    ({ s with
      tables := Assoc.set s.tables s.nextTable .empty
      nextTable := s.nextTable + 1 } : Session).Consistent held where
  readable := h.readable
  cell_lt := h.cell_lt
  table_lt a ha := Nat.lt_succ_of_lt (h.table_lt a ha)
  open_lt := by
    intro t table hfound
    rw [table?_set] at hfound
    split at hfound
    · rename_i ht
      rw [ht]
      exact Nat.lt_succ_self _
    · exact Nat.lt_succ_of_lt (h.open_lt t table hfound)
  sharing := h.sharing
  wellFormed := by
    intro t table hfound
    rw [table?_set] at hfound
    split at hfound
    · cases hfound
      exact Table.wellFormed_empty
    · exact h.wellFormed t table hfound
  entered := by
    intro t table hfound address cell
    rw [table?_set] at hfound
    split at hfound
    · rename_i ht
      cases hfound
      simp only [Table.find?_empty, reduceCtorEq, false_iff]
      exact fun hmem => absurd (h.table_lt _ hmem) (by simp [ht])
    · exact h.entered t table hfound address cell

/-- Changing what pool names stand for keeps the invariant, if they all stand for tables that
are there. -/
theorem Invariant.setPools {pools : List (String × TableId)} (hnames : Assoc.Unique s.handles)
    (hconsistent : s.Consistent s.holdings)
    (hpools : ∀ entry ∈ pools, (s.table? entry.2).isSome = true) :
    ({ s with pools } : Session).forgetTables.Invariant where
  names := hnames
  pools := by
    intro entry hentry
    have hkept : ({ s with pools } : Session).pools.any (·.2 == entry.2) = true :=
      List.any_eq_true.mpr ⟨entry, hentry, beq_self_eq_true _⟩
    rw [table?_forgetTables, if_pos hkept]
    exact hpools entry hentry
  consistent := (hconsistent.rename s.handles pools).forgetTables

/-- A recipe holds the storage of its handle, and keeps names, pools and tables. -/
theorem Invariant.prepare (h : s.Invariant) {recipe : Recipe} {handle : Handle}
    (hprepare : s.prepare recipe = .ok (handle, next)) :
    next.handles = s.handles ∧ next.pools = s.pools ∧
      (∀ t, (s.table? t).isSome → (next.table? t).isSome) ∧
      next.Consistent (insert handle.holding s.holdings) := by
  rcases prepare_cases hprepare with ⟨hlive, rfl⟩ |
    ⟨pool, t, identity, _, hpool, hidentity, hobtain⟩
  · refine ⟨rfl, rfl, fun _ ht => ht, ?_⟩
    rw [Set.insert_eq_of_mem (holding_mem_holdings hlive)]
    exact h.consistent
  · obtain ⟨_, _, hhandles, hpools, htables⟩ := obtain_frame hobtain
    have hreadable : identity.IsReadable :=
      of_recipe_identity? Identity.isHereditary_isReadable (fun _ => h.isReadable) hidentity
    exact ⟨hhandles, hpools, htables,
      h.consistent.obtain (h.isSome_table? hpool) hreadable hobtain⟩

/-- Storing a prepared handle gives a session with the invariant. -/
theorem Invariant.store {handle : Handle} (hnames : Assoc.Unique s.handles)
    (hpools : ∀ entry ∈ s.pools, (s.table? entry.2).isSome = true)
    (hconsistent : s.Consistent (insert handle.holding s.holdings)) (name : String) :
    (s.store name handle).Invariant where
  names := by
    have hunique := hnames.set name handle
    unfold Session.store
    split
    · exact hunique
    · rw [release_handles]
      exact hunique
  pools := by
    obtain ⟨hkept, htables⟩ := store_frame s name handle
    rw [hkept]
    exact fun entry hentry => htables _ (hpools entry hentry)
  consistent := hconsistent.store hnames name

/-- Dropping a name keeps the invariant. -/
theorem Invariant.drop (h : s.Invariant) (name : String) : (s.drop name).Invariant where
  names := by
    unfold Session.drop
    split
    · exact h.names
    · rw [release_handles]
      exact h.names.erase name
  pools := by
    obtain ⟨hkept, htables⟩ := drop_frame s name
    rw [hkept]
    exact fun entry hentry => htables _ (h.pools entry hentry)
  consistent := h.consistent.drop h.names name

/-- Every command keeps the invariant. -/
theorem Invariant.run (h : s.Invariant) {command : Command} (hrun : s.run command = .ok next) :
    next.Invariant := by
  cases command with
  | make name recipe =>
    obtain ⟨⟨handle, prepared⟩, hprepare, hrun⟩ := exists_of_bind_eq_ok hrun
    cases hrun
    obtain ⟨hhandles, hpools, htables, hconsistent⟩ := h.prepare hprepare
    rw [← holdings_eq_of_handles_eq hhandles] at hconsistent
    refine Invariant.store (hhandles ▸ h.names) ?_ hconsistent name
    intro entry hentry
    rw [hpools] at hentry
    exact htables _ (h.pools entry hentry)
  | drop name =>
    cases hrun
    exact h.drop name
  | newPool name =>
    cases hrun
    refine Invariant.setPools (s := { s with
      tables := Assoc.set s.tables s.nextTable .empty
      nextTable := s.nextTable + 1 }) h.names h.consistent.newTable ?_
    intro entry hentry
    rw [table?, Assoc.get?_set]
    rcases Assoc.mem_set.mp hentry with rfl | ⟨hentry, _⟩
    · simp
    · split
      · rfl
      · exact h.pools entry hentry
  | sharePool name source =>
    obtain ⟨t, ht, hrun⟩ := exists_of_bind_eq_ok hrun
    cases hrun
    refine Invariant.setPools h.names h.consistent ?_
    intro entry hentry
    rcases Assoc.mem_set.mp hentry with rfl | ⟨hentry, _⟩
    · exact h.isSome_table? (requirePool_eq_ok ht)
    · exact h.pools entry hentry
  | dropPool name =>
    cases hrun
    refine Invariant.setPools h.names h.consistent ?_
    intro entry hentry
    exact h.pools entry (Assoc.mem_erase.mp hentry).1

/-- Every session that commands lead to has the invariant. -/
theorem invariant_afterAll (pool : String) (commands : List Command) :
    ((initial pool).afterAll commands).Invariant :=
  afterAll_induction (fun hs hrun => hs.run hrun) (invariant_initial pool) commands

end TopicLinks.Session
