import Mathlib.Data.List.Nodup
import TopicLinks.Pool.Table

/-!
# Laws of interning tables

A table is well formed when no bundle has two shelves, no place stands twice on a shelf, and
no shelf is empty. Entering and evicting keep a table well formed, and both change the look-up
of exactly one address.
-/

namespace TopicLinks.Table

/-- A table in which every entry stands in one place and every shelf is in use. -/
structure WellFormed (table : Table) : Prop where
  /-- No bundle has two shelves. -/
  shelves : Assoc.Unique table.shelves
  /-- No place stands twice on a shelf. -/
  places : ∀ shelf ∈ table.shelves, Assoc.Unique shelf.2
  /-- No shelf is empty. -/
  stocked : ∀ shelf ∈ table.shelves, shelf.2 ≠ []

/-- The table without entries is well formed. -/
theorem wellFormed_empty : empty.WellFormed :=
  ⟨List.nodup_nil, by simp [empty], by simp [empty]⟩

@[simp] theorem find?_empty (address : Address) : empty.find? address = none := rfl

/-- A shelf that is looked up is empty or one of the shelves. -/
theorem shelf_eq_nil_or_mem (table : Table) (bundle : String) :
    table.shelf bundle = [] ∨ (bundle, table.shelf bundle) ∈ table.shelves := by
  unfold shelf
  cases h : Assoc.get? table.shelves bundle with
  | none => exact Or.inl rfl
  | some entries => exact Or.inr (Assoc.mem_of_get? h)

/-- No place stands twice on a shelf that is looked up. -/
theorem WellFormed.unique_shelf {table : Table} (h : table.WellFormed) (bundle : String) :
    Assoc.Unique (table.shelf bundle) := by
  rcases table.shelf_eq_nil_or_mem bundle with hnil | hmem
  · rw [hnil]
    exact List.nodup_nil
  · exact h.places _ hmem

/-- Replacing one shelf by a nonempty one without repetition keeps a table well formed. -/
theorem WellFormed.setShelf {table : Table} (h : table.WellFormed) {bundle : String}
    {entries : List (Place × CellId)} (hunique : Assoc.Unique entries) (hne : entries ≠ []) :
    (Table.mk (Assoc.set table.shelves bundle entries)).WellFormed where
  shelves := h.shelves.set bundle entries
  places := by
    intro shelf hmem
    rcases Assoc.mem_set.mp hmem with rfl | ⟨hmem, _⟩
    · exact hunique
    · exact h.places shelf hmem
  stocked := by
    intro shelf hmem
    rcases Assoc.mem_set.mp hmem with rfl | ⟨hmem, _⟩
    · exact hne
    · exact h.stocked shelf hmem

/-- Removing a shelf keeps a table well formed. -/
theorem WellFormed.eraseShelf {table : Table} (h : table.WellFormed) (bundle : String) :
    (Table.mk (Assoc.erase table.shelves bundle)).WellFormed where
  shelves := h.shelves.erase bundle
  places := fun shelf hmem => h.places shelf (Assoc.mem_erase.mp hmem).1
  stocked := fun shelf hmem => h.stocked shelf (Assoc.mem_erase.mp hmem).1

/-- Entering a cell keeps a table well formed. -/
theorem WellFormed.insert {table : Table} (h : table.WellFormed) (address : Address)
    (cell : CellId) : (table.insert address cell).WellFormed :=
  h.setShelf ((h.unique_shelf address.bundle).set address.place cell) (by simp [Assoc.set])

/-- Evicting a cell keeps a table well formed: an emptied shelf goes with its last entry. -/
theorem WellFormed.evict {table : Table} (h : table.WellFormed) (address : Address)
    (cell : CellId) : (table.evict address cell).WellFormed := by
  unfold Table.evict
  split
  · exact h
  · rename_i entries hentries
    have hunique := h.places _ (Assoc.mem_of_get? hentries)
    dsimp only
    generalize hkept : (if Assoc.get? entries address.place = some cell then
      Assoc.erase entries address.place else entries) = kept
    have hunique' : Assoc.Unique kept := by
      rw [← hkept]
      split
      · exact hunique.erase address.place
      · exact hunique
    split
    · exact h.eraseShelf address.bundle
    · rename_i hne
      exact h.setShelf hunique' (by simpa using hne)

/-- Entering a cell binds its address and leaves every other one alone. -/
theorem find?_insert (table : Table) (address other : Address) (cell : CellId) :
    (table.insert address cell).find? other =
      if other = address then some cell else table.find? other := by
  obtain ⟨bundle, place⟩ := address
  obtain ⟨bundle', place'⟩ := other
  simp only [find?, shelf, insert, Assoc.get?_set, Address.mk.injEq]
  by_cases hbundle : bundle' = bundle
  · subst hbundle
    simp [Assoc.get?_set]
  · simp [hbundle]

/-- The shelf of a bundle after the entry of an address was evicted. -/
theorem shelf_evict {table : Table} {address : Address} {cell : CellId}
    (h : table.find? address = some cell) (bundle : String) :
    (table.evict address cell).shelf bundle =
      if bundle = address.bundle then Assoc.erase (table.shelf bundle) address.place
      else table.shelf bundle := by
  cases hentries : Assoc.get? table.shelves address.bundle with
  | none => simp [find?, shelf, hentries, Assoc.get?] at h
  | some entries =>
    have hplace : Assoc.get? entries address.place = some cell := by
      simpa [find?, shelf, hentries] using h
    simp only [evict, hentries, hplace, if_true]
    -- An emptied shelf is removed, and looks the same as an empty one.
    by_cases hbundle : bundle = address.bundle
    · subst hbundle
      split
      · rename_i hkept
        have hnil : Assoc.erase entries address.place = [] := by simpa using hkept
        simp [shelf, hentries, hnil]
      · simp [shelf, hentries]
    · split
      · simp [shelf, hbundle, Assoc.get?_erase_of_ne]
      · simp [shelf, hbundle, Assoc.get?_set]

/-- Evicting the entry of an address hides that address only. -/
theorem find?_evict {table : Table} {address : Address} {cell : CellId}
    (h : table.find? address = some cell) (other : Address) :
    (table.evict address cell).find? other =
      if other = address then none else table.find? other := by
  obtain ⟨bundle, place⟩ := address
  obtain ⟨bundle', place'⟩ := other
  simp only [find?, shelf_evict h, Address.mk.injEq]
  by_cases hbundle : bundle' = bundle
  · by_cases hplace : place' = place
    · simp [hbundle, hplace]
    · simp [hbundle, hplace, Assoc.get?_erase_of_ne]
  · simp [hbundle]

/-- All entries of a table, each with its address. -/
def entries (table : Table) : List (Address × CellId) :=
  table.shelves.flatMap (fun shelf => shelf.2.map (fun entry => (⟨shelf.1, entry.1⟩, entry.2)))

/-- The cells of a table are the cells of its entries. -/
theorem cells_eq_map_entries (table : Table) : table.cells = table.entries.map (·.2) := by
  simp [cells, entries, List.map_flatMap, Function.comp_def]

/-- The entries of a well-formed table are what can be looked up in it. -/
theorem WellFormed.mem_entries {table : Table} (h : table.WellFormed) {address : Address}
    {cell : CellId} : (address, cell) ∈ table.entries ↔ table.find? address = some cell := by
  obtain ⟨bundle, place⟩ := address
  rw [find?, (h.unique_shelf bundle).get?_eq_some_iff]
  simp only [entries, List.mem_flatMap, List.mem_map, Prod.mk.injEq, Address.mk.injEq]
  constructor
  · rintro ⟨⟨b, es⟩, hshelf, ⟨p, c⟩, hentry, ⟨rfl, rfl⟩, rfl⟩
    have hget : Assoc.get? table.shelves b = some es := h.shelves.get?_eq_some_iff.mpr hshelf
    simpa [shelf, hget] using hentry
  · intro hentry
    rcases table.shelf_eq_nil_or_mem bundle with hnil | hmem
    · rw [hnil] at hentry
      cases hentry
    · exact ⟨_, hmem, _, hentry, ⟨rfl, rfl⟩, rfl⟩

/-- No address is entered twice in a well-formed table. -/
theorem WellFormed.unique_entries {table : Table} (h : table.WellFormed) :
    Assoc.Unique table.entries := by
  have haddresses : table.entries.map (·.1) =
      table.shelves.flatMap (fun shelf => shelf.2.map (fun entry => ⟨shelf.1, entry.1⟩)) := by
    simp [entries, List.map_flatMap, Function.comp_def]
  rw [Assoc.Unique, haddresses, List.nodup_flatMap]
  constructor
  · intro shelf hshelf
    have hplaces : (shelf.2.map (·.1)).Nodup := h.places shelf hshelf
    have hmap := hplaces.map (f := Address.mk shelf.1) (fun _ _ heq => (Address.mk.inj heq).2)
    simpa [Function.comp_def] using hmap
  · have hbundles : table.shelves.Pairwise (fun a b => a.1 ≠ b.1) :=
      List.pairwise_map.mp h.shelves
    refine hbundles.imp fun hne => List.disjoint_left.mpr ?_
    intro address ha hb
    obtain ⟨_, _, rfl⟩ := List.mem_map.mp ha
    obtain ⟨_, _, heq⟩ := List.mem_map.mp hb
    exact hne (Address.mk.inj heq).1.symm

end TopicLinks.Table
