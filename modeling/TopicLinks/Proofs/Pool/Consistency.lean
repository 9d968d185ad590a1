import Mathlib.Data.Set.Image
import TopicLinks.Pool.Session
import TopicLinks.Proofs.Identity.Readable
import TopicLinks.Proofs.Pool.Table

/-!
# Tables and the handles in use

A table entry does not keep its cell in use, so what a table holds must follow from the
handles. This file states that relation as one predicate and proves that obtaining a handle
and releasing one keep it. The handles enter only through their holdings, since tables know
nothing about languages.
-/

namespace TopicLinks

/-- What a handle holds: the storage of an address in a table. -/
structure Holding where
  /-- The table that made the storage. -/
  table : TableId
  /-- The address of the storage. -/
  address : Address
  /-- The storage. -/
  cell : CellId

/-- The holding of a handle. Its languages are no part of it. -/
def Handle.holding (handle : Handle) : Holding :=
  ⟨handle.table, handle.identity.address, handle.cell⟩

namespace Session

variable {s : Session}

/-- The handles in use. -/
def live (s : Session) : Set Handle := {handle | ∃ name, (name, handle) ∈ s.handles}

/-- The holdings of the handles in use. -/
def holdings (s : Session) : Set Holding := Handle.holding '' s.live

/-- A handle that a name stands for is in use. -/
theorem live_of_handle? {name : String} {handle : Handle} (h : s.handle? name = some handle) :
    handle ∈ s.live :=
  ⟨name, Assoc.mem_of_get? h⟩

/-- The holding of a handle in use is held. -/
theorem holding_mem_holdings {handle : Handle} (h : handle ∈ s.live) :
    handle.holding ∈ s.holdings :=
  Set.mem_image_of_mem _ h

/-- A cell is held when it is the cell of a holding. -/
theorem holds_iff {cell : CellId} :
    s.holds cell = true ↔ ∃ held ∈ s.holdings, held.cell = cell := by
  simp only [holds, List.any_eq_true, beq_iff_eq]
  constructor
  · rintro ⟨⟨name, handle⟩, hmem, hcell⟩
    exact ⟨_, holding_mem_holdings ⟨name, hmem⟩, hcell⟩
  · rintro ⟨_, ⟨handle, ⟨name, hmem⟩, rfl⟩, hcell⟩
    exact ⟨_, hmem, hcell⟩

/-- The tables of a session agree with some holdings: a storage is one address of one table,
and the tables that are still there hold exactly the holdings in them. -/
structure Consistent (s : Session) (held : Set Holding) : Prop where
  /-- Addresses are in readable form. -/
  readable : ∀ a ∈ held, a.address.IsReadable
  /-- No storage is one that is yet to be made. -/
  cell_lt : ∀ a ∈ held, a.cell < s.nextCell
  /-- No holding is in a table that is yet to be made, -/
  table_lt : ∀ a ∈ held, a.table < s.nextTable
  /-- and no such table exists. -/
  open_lt : ∀ t table, s.table? t = some table → t < s.nextTable
  /-- Two holdings are of one storage exactly for one address of one table. -/
  sharing : ∀ a ∈ held, ∀ b ∈ held, a.cell = b.cell ↔ a.table = b.table ∧ a.address = b.address
  /-- Tables are well formed. -/
  wellFormed : ∀ t table, s.table? t = some table → table.WellFormed
  /-- What stands in a table is what is held in it. -/
  entered : ∀ t table, s.table? t = some table → ∀ address cell,
    table.find? address = some cell ↔ Holding.mk t address cell ∈ held

/-- Consistency does not depend on how handles and pools are named. -/
theorem Consistent.rename {held : Set Holding} (h : s.Consistent held)
    (handles : List (String × Handle)) (pools : List (String × TableId)) :
    ({ s with handles, pools } : Session).Consistent held :=
  ⟨h.readable, h.cell_lt, h.table_lt, h.open_lt, h.sharing, h.wellFormed, h.entered⟩

/-- In a consistent session the cell found for an address is the one that is held. -/
theorem Consistent.liveCell?_eq_some_iff (h : s.Consistent s.holdings) {t : TableId}
    {table : Table} (htable : s.table? t = some table) {address : Address} {cell : CellId} :
    s.liveCell? t address = some cell ↔ Holding.mk t address cell ∈ s.holdings := by
  rw [← h.entered t table htable, liveCell?, htable, Option.bind_some, Option.filter_eq_some_iff]
  constructor
  · exact fun hfound => hfound.1
  · intro hfound
    refine ⟨hfound, holds_iff.mpr ⟨_, (h.entered t table htable _ _).mp hfound, rfl⟩⟩

/-- The tables after one of them was replaced, whatever is made next. -/
theorem table?_set (s : Session) (t other : TableId) (table : Table) (nextCell : CellId)
    (nextTable : TableId) :
    ({ s with tables := Assoc.set s.tables t table, nextCell, nextTable } : Session).table? other =
      if other = t then some table else s.table? other :=
  Assoc.get?_set s.tables t other table

/-- Entering a new cell for an address that is not held in an open table. -/
theorem Consistent.enter {held : Set Holding} (h : s.Consistent held) {t : TableId} {table : Table}
    (htable : s.table? t = some table) {address : Address} (hreadable : address.IsReadable)
    (hnew : ∀ cell, Holding.mk t address cell ∉ held) :
    ({ s with
      tables := Assoc.set s.tables t (table.insert address s.nextCell)
      nextCell := s.nextCell + 1 } : Session).Consistent
        (insert ⟨t, address, s.nextCell⟩ held) where
  readable := by
    rintro a (rfl | ha)
    · exact hreadable
    · exact h.readable a ha
  cell_lt := by
    rintro a (rfl | ha)
    · exact Nat.lt_succ_self _
    · exact Nat.lt_succ_of_lt (h.cell_lt a ha)
  table_lt := by
    rintro a (rfl | ha)
    · exact h.open_lt t table htable
    · exact h.table_lt a ha
  open_lt := by
    intro other found hfound
    rw [table?_set] at hfound
    split at hfound
    · rename_i hother
      exact hother ▸ h.open_lt t table htable
    · exact h.open_lt other found hfound
  sharing := by
    -- The new cell is above all others, and its address was held nowhere in the table.
    have hcell : ∀ b ∈ held, b.cell ≠ s.nextCell := fun b hb => (h.cell_lt b hb).ne
    have haddress : ∀ b ∈ held, ¬(b.table = t ∧ b.address = address) := by
      rintro ⟨_, _, cell⟩ hb ⟨rfl, rfl⟩
      exact hnew cell hb
    rintro a (rfl | ha) b (rfl | hb)
    · simp
    · have hb' := haddress b hb
      simp only [eq_comm (a := s.nextCell), hcell b hb, false_iff]
      exact fun hab => hb' ⟨hab.1.symm, hab.2.symm⟩
    · simp only [hcell a ha, false_iff]
      exact haddress a ha
    · exact h.sharing a ha b hb
  wellFormed := by
    intro other found hfound
    rw [table?_set] at hfound
    split at hfound
    · cases hfound
      exact (h.wellFormed t table htable).insert address s.nextCell
    · exact h.wellFormed other found hfound
  entered := by
    intro other found hfound a cell
    rw [table?_set] at hfound
    simp only [Set.mem_insert_iff, Holding.mk.injEq]
    split at hfound
    · rename_i hother
      subst hother
      cases hfound
      rw [Table.find?_insert]
      split
      · rename_i ha
        subst ha
        simp [hnew cell, eq_comm]
      · rename_i ha
        simp [ha, h.entered other table htable]
    · rename_i hother
      simp [hother, h.entered other found hfound]

/-- Dropping a holding whose table is gone leaves nothing to forget. -/
theorem Consistent.forget {held : Set Holding} {old : Holding}
    (h : s.Consistent (insert old held)) (hgone : s.table? old.table = none) :
    s.Consistent held where
  readable a ha := h.readable a (Or.inr ha)
  cell_lt a ha := h.cell_lt a (Or.inr ha)
  table_lt a ha := h.table_lt a (Or.inr ha)
  open_lt := h.open_lt
  sharing a ha b hb := h.sharing a (Or.inr ha) b (Or.inr hb)
  wellFormed := h.wellFormed
  entered := by
    intro t table htable address cell
    rw [h.entered t table htable, Set.mem_insert_iff, or_iff_right]
    rintro rfl
    rw [htable] at hgone
    cases hgone

/-- Dropping a holding whose storage nobody else holds evicts exactly its entry. -/
theorem Consistent.evict {held : Set Holding} {old : Holding}
    (h : s.Consistent (insert old held)) (hlast : ∀ a ∈ held, a.cell ≠ old.cell) {table : Table}
    (htable : s.table? old.table = some table) :
    ({ s with tables := Assoc.set s.tables old.table (table.evict old.address old.cell) } :
      Session).Consistent held := by
  have hfind : table.find? old.address = some old.cell :=
    (h.entered _ table htable _ _).mpr (Or.inl rfl)
  have htables (other : TableId) := table?_set s old.table other
    (table.evict old.address old.cell) s.nextCell s.nextTable
  exact {
    readable := fun a ha => h.readable a (Or.inr ha)
    cell_lt := fun a ha => h.cell_lt a (Or.inr ha)
    table_lt := fun a ha => h.table_lt a (Or.inr ha)
    open_lt := by
      intro other found hfound
      rw [htables] at hfound
      split at hfound
      · rename_i hother
        rw [hother]
        exact h.open_lt _ table htable
      · exact h.open_lt other found hfound
    sharing := fun a ha b hb => h.sharing a (Or.inr ha) b (Or.inr hb)
    wellFormed := by
      intro other found hfound
      rw [htables] at hfound
      split at hfound
      · cases hfound
        exact (h.wellFormed _ table htable).evict old.address old.cell
      · exact h.wellFormed other found hfound
    entered := by
      intro other found hfound address cell
      rw [htables] at hfound
      split at hfound
      · rename_i hother
        subst hother
        cases hfound
        rw [Table.find?_evict hfind]
        -- Holding the same address of the same table would be holding the same storage.
        have hheld : ∀ cell, Holding.mk old.table old.address cell ∉ held := fun cell hmem =>
          hlast _ hmem ((h.sharing _ (Or.inr hmem) old (Or.inl rfl)).mpr ⟨rfl, rfl⟩)
        split
        · rename_i haddress
          subst haddress
          simp [hheld cell]
        · rename_i haddress
          rw [h.entered _ table htable, Set.mem_insert_iff, or_iff_right]
          exact fun heq => haddress (congrArg Holding.address heq)
      · rename_i hother
        rw [h.entered other found hfound, Set.mem_insert_iff, or_iff_right]
        exact fun heq => hother (congrArg Holding.table heq) }

/-- Obtaining a handle through an open table holds its storage, and nothing else changes. -/
theorem Consistent.obtain (h : s.Consistent s.holdings) {t : TableId}
    (hopen : (s.table? t).isSome = true) {identity : Identity} (hreadable : identity.IsReadable)
    {handle : Handle} {next : Session} (hobtain : s.obtain t identity = (handle, next)) :
    next.Consistent (insert handle.holding s.holdings) := by
  obtain ⟨table, htable⟩ := Option.isSome_iff_exists.mp hopen
  unfold Session.obtain at hobtain
  split at hobtain
  · rename_i cell hcell
    cases hobtain
    have hheld := (h.liveCell?_eq_some_iff htable).mp hcell
    rw [Set.insert_eq_of_mem (by exact hheld)]
    exact h
  · rename_i hnone
    rw [htable, Option.getD_some] at hobtain
    cases hobtain
    refine h.enter htable hreadable fun cell hmem => ?_
    rw [(h.liveCell?_eq_some_iff htable).mpr hmem] at hnone
    cases hnone

/-- Releasing a handle that was dropped forgets its holding, unless another handle has it. -/
theorem Consistent.release {old : Handle} (h : s.Consistent (insert old.holding s.holdings)) :
    (s.release old).Consistent s.holdings := by
  unfold Session.release
  split
  · rename_i hholds
    obtain ⟨a, ha, hcell⟩ := holds_iff.mp hholds
    obtain ⟨htable, haddress⟩ := (h.sharing a (Or.inr ha) old.holding (Or.inl rfl)).mp hcell
    have heq : old.holding = a := by
      cases a
      simp_all [Handle.holding]
    rwa [Set.insert_eq_of_mem (heq ▸ ha)] at h
  · rename_i hholds
    have hlast : ∀ a ∈ s.holdings, a.cell ≠ old.holding.cell := fun a ha hcell =>
      hholds (holds_iff.mpr ⟨a, ha, hcell⟩)
    split
    · rename_i hgone
      exact h.forget hgone
    · rename_i table htable
      exact h.evict hlast htable

end Session

end TopicLinks
