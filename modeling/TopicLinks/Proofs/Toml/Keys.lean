import Mathlib.Data.List.Nodup
import TopicLinks.Assoc
import TopicLinks.Toml.Document

/-!
# Keys of TOML documents

A document names each of its top-level keys once. Entries come to the root in three ways only: at
the end, if their key is not taken; in the place of an entry of the same key; or by taking an entry
out. So reading a line keeps the keys of the root apart, whatever the line adds below them.
-/

namespace TopicLinks.Toml

variable {entries next : Entries} {key : String} {value : Value} {β : Type}

/-- A key that is not found is not among the keys. -/
theorem not_mem_of_lookup?_eq_none (h : lookup? entries key = none) :
    key ∉ entries.map (·.1) := by
  intro hmem
  obtain ⟨entry, hentry, hkey⟩ := List.mem_map.mp hmem
  rw [lookup?, Option.map_eq_none_iff] at h
  exact absurd hkey (by simpa using List.find?_eq_none.mp h entry hentry)

/-- An entry at the end keeps the keys apart, if its key is not taken. -/
theorem unique_append (h : Assoc.Unique entries) (hnone : lookup? entries key = none)
    (value : Value) : Assoc.Unique (entries ++ [(key, value)]) := by
  rw [Assoc.Unique, List.map_append, List.nodup_append]
  refine ⟨h, List.nodup_singleton key, fun a ha b hb hab => ?_⟩
  rw [List.map_singleton, List.mem_singleton] at hb
  rw [hab, hb] at ha
  exact not_mem_of_lookup?_eq_none hnone ha

theorem unique_of_addEntry (h : Assoc.Unique entries)
    (hadd : addEntry key value entries = some next) : Assoc.Unique next := by
  unfold addEntry at hadd
  split at hadd
  · cases hadd
  · rename_i hnone
    cases hadd
    exact unique_append h (by simpa using hnone) value

/-- A value in the place of another one changes no key. -/
theorem map_fst_replace (entries : Entries) (key : String) (value : Value) :
    (replace entries key value).map (·.1) = entries.map (·.1) := by
  rw [replace, List.map_map]
  refine List.map_congr_left fun entry _ => ?_
  simp only [Function.comp_apply]
  split
  · rename_i hkey
    exact (eq_of_beq hkey).symm
  · rfl

theorem unique_replace (h : Assoc.Unique entries) (key : String) (value : Value) :
    Assoc.Unique (replace entries key value) := by
  rwa [Assoc.Unique, map_fst_replace]

/-- A change at the end of a path keeps the keys of the root apart if it does so at the root: on the
way to any other place an entry of the root is added or replaced. -/
theorem unique_of_descend {isDotted : Bool}
    {change : TableOrigin → Entries → Option (Entries × β)} {path : List String}
    {origin : TableOrigin} {result : β}
    (hchange : ∀ {origin entries next result}, Assoc.Unique entries →
      change origin entries = some (next, result) → Assoc.Unique next)
    (h : Assoc.Unique entries)
    (hdescend : descend isDotted change path origin entries = some (next, result)) :
    Assoc.Unique next := by
  cases path with
  | nil => exact hchange h hdescend
  | cons key path =>
    unfold descend at hdescend
    split at hdescend
    · rename_i hnone
      obtain ⟨⟨below, _⟩, -, hbelow⟩ := Option.bind_eq_some_iff.mp hdescend
      cases hbelow
      exact unique_append h hnone _
    · split at hdescend
      · cases hdescend
      · obtain ⟨⟨below, _⟩, -, hbelow⟩ := Option.bind_eq_some_iff.mp hdescend
        cases hbelow
        exact unique_replace h _ _
    · split at hdescend
      · cases hdescend
      · obtain ⟨⟨below, _⟩, -, hbelow⟩ := Option.bind_eq_some_iff.mp hdescend
        cases hbelow
        exact unique_replace h _ _
    · cases hdescend

/-! ### Tables -/

section Tables

variable {path : List String} {table : Entries}

theorem unique_of_addDotted (h : Assoc.Unique entries)
    (hadd : addDotted path key value entries = some next) : Assoc.Unique next := by
  obtain ⟨⟨after, _⟩, hdescend, rfl⟩ := Option.map_eq_some_iff.mp hadd
  refine unique_of_descend (fun hunique hchange => ?_) h hdescend
  split at hchange
  · cases hchange
  · obtain ⟨_, hentry, hnext⟩ := Option.map_eq_some_iff.mp hchange
    cases hnext
    exact unique_of_addEntry hunique hentry

theorem unique_of_openTable (h : Assoc.Unique entries)
    (hopen : openTable path key entries = some (next, table)) : Assoc.Unique next := by
  refine unique_of_descend (fun hunique hchange => ?_) h hopen
  split at hchange
  · cases hchange
    exact hunique
  · cases hchange
    exact hunique.sublist (List.filter_sublist.map _)
  · cases hchange

theorem unique_of_closeTable (h : Assoc.Unique entries)
    (hclose : closeTable path key table entries = some next) : Assoc.Unique next := by
  obtain ⟨⟨after, _⟩, hdescend, rfl⟩ := Option.map_eq_some_iff.mp hclose
  refine unique_of_descend (fun hunique hchange => ?_) h hdescend
  obtain ⟨_, hentry, hnext⟩ := Option.map_eq_some_iff.mp hchange
  cases hnext
  exact unique_of_addEntry hunique hentry

theorem unique_of_openElement (h : Assoc.Unique entries)
    (hopen : openElement path key entries = some next) : Assoc.Unique next := by
  obtain ⟨⟨after, _⟩, hdescend, rfl⟩ := Option.map_eq_some_iff.mp hopen
  refine unique_of_descend (fun hunique hchange => ?_) h hdescend
  split at hchange
  · rename_i hnone
    cases hchange
    exact unique_append hunique hnone _
  · cases hchange
    exact hunique
  · cases hchange

theorem unique_of_closeElement (h : Assoc.Unique entries)
    (hclose : closeElement path key table entries = some next) : Assoc.Unique next := by
  obtain ⟨⟨after, _⟩, hdescend, rfl⟩ := Option.map_eq_some_iff.mp hclose
  refine unique_of_descend (fun hunique hchange => ?_) h hdescend
  split at hchange
  · cases hchange
    exact unique_replace hunique _ _
  · cases hchange

end Tables

/-! ### Documents -/

namespace Draft

variable {draft after : Draft} {path : List String} {root : Entries}

/-- The keys of the root are apart. Before the first header, the root is the open table. -/
def HasUniqueKeys (draft : Draft) : Prop :=
  match draft.header with
  | .root => Assoc.Unique draft.current
  | _ => Assoc.Unique draft.root

theorem hasUniqueKeys_empty : empty.HasUniqueKeys := List.nodup_nil

theorem HasUniqueKeys.close (h : draft.HasUniqueKeys) (hclose : draft.close = some root) :
    Assoc.Unique root := by
  obtain ⟨before, header, current⟩ := draft
  cases header with
  | root =>
    cases hclose
    exact h
  | table path key => exact unique_of_closeTable h hclose
  | element path key => exact unique_of_closeElement h hclose

theorem HasUniqueKeys.openHeader (h : draft.HasUniqueKeys)
    (hopen : draft.openHeader path key = some after) : after.HasUniqueKeys := by
  obtain ⟨root, hclose, hopen⟩ := Option.bind_eq_some_iff.mp hopen
  obtain ⟨⟨next, current⟩, htable, hopen⟩ := Option.bind_eq_some_iff.mp hopen
  cases hopen
  exact unique_of_openTable (h.close hclose) htable

theorem HasUniqueKeys.openArray (h : draft.HasUniqueKeys)
    (hopen : draft.openArray path key = some after) : after.HasUniqueKeys := by
  obtain ⟨root, hclose, hopen⟩ := Option.bind_eq_some_iff.mp hopen
  obtain ⟨next, helement, hopen⟩ := Option.bind_eq_some_iff.mp hopen
  cases hopen
  exact unique_of_openElement (h.close hclose) helement

theorem HasUniqueKeys.add (h : draft.HasUniqueKeys)
    (hadd : draft.add path key value = some after) : after.HasUniqueKeys := by
  obtain ⟨current, hcurrent, hadd⟩ := Option.bind_eq_some_iff.mp hadd
  cases hadd
  obtain ⟨root, header, open'⟩ := draft
  cases header with
  | root => exact unique_of_addDotted h hcurrent
  | table | element => exact h

/-- Every line keeps the keys of the root apart. -/
theorem HasUniqueKeys.line (h : draft.HasUniqueKeys) {text rest : List Char}
    (hline : line? draft text = some (after, rest)) : after.HasUniqueKeys := by
  unfold line? at hline
  split at hline
  · obtain ⟨⟨⟨path, key⟩, rest⟩, -, hline⟩ := Option.bind_eq_some_iff.mp hline
    obtain ⟨rest, -, hline⟩ := Option.bind_eq_some_iff.mp hline
    obtain ⟨rest, -, hline⟩ := Option.bind_eq_some_iff.mp hline
    obtain ⟨rest, -, hline⟩ := Option.bind_eq_some_iff.mp hline
    obtain ⟨opened, hopen, hline⟩ := Option.bind_eq_some_iff.mp hline
    cases hline
    exact h.openArray hopen
  · obtain ⟨⟨⟨path, key⟩, rest⟩, -, hline⟩ := Option.bind_eq_some_iff.mp hline
    obtain ⟨rest, -, hline⟩ := Option.bind_eq_some_iff.mp hline
    obtain ⟨rest, -, hline⟩ := Option.bind_eq_some_iff.mp hline
    obtain ⟨opened, hopen, hline⟩ := Option.bind_eq_some_iff.mp hline
    cases hline
    exact h.openHeader hopen
  · obtain ⟨_, -, hline⟩ := Option.map_eq_some_iff.mp hline
    cases hline
    exact h
  · cases hline
    exact h
  · obtain ⟨_, -, hline⟩ := Option.map_eq_some_iff.mp hline
    cases hline
    exact h
  · obtain ⟨⟨⟨⟨path, key⟩, value⟩, rest⟩, -, hline⟩ := Option.bind_eq_some_iff.mp hline
    obtain ⟨rest, -, hline⟩ := Option.bind_eq_some_iff.mp hline
    obtain ⟨added, hadd, hline⟩ := Option.bind_eq_some_iff.mp hline
    cases hline
    exact h.add hadd

/-- So do all lines together, however many of them are read. -/
theorem HasUniqueKeys.lines (h : draft.HasUniqueKeys) {fuel : Nat} {text : List Char}
    (hlines : lines? fuel draft text = some after) : after.HasUniqueKeys := by
  induction fuel generalizing draft text with
  | zero => cases hlines
  | succ fuel ih =>
    unfold lines? at hlines
    split at hlines
    · cases hlines
      exact h
    · obtain ⟨⟨read, rest⟩, hline, hlines⟩ := Option.bind_eq_some_iff.mp hlines
      exact ih (h.line hline) hlines

end Draft

/-- No top-level key of a document is named twice. -/
theorem unique_of_parse? {text : String} (h : parse? text = some entries) :
    Assoc.Unique entries := by
  obtain ⟨draft, hlines, hclose⟩ := Option.bind_eq_some_iff.mp h
  exact (Draft.hasUniqueKeys_empty.lines hlines).close hclose

end TopicLinks.Toml
