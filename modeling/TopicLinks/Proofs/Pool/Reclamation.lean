import Mathlib.Data.Finset.Card
import Mathlib.Data.Finset.Dedup
import TopicLinks.Proofs.Pool.Sharing

/-!
# Exact reclamation

What a pool reports is what the handles in use hold in its table, no more and no less. So a
command that works through one pool changes the report of another one only by the handle
that it drops.
-/

namespace TopicLinks.Session

variable {s next : Session}

/-- The keys of the handles in use whose storage is in a table, once for each handle. -/
def keysIn (s : Session) (t : TableId) : List Key :=
  (s.handles.filter (fun entry => entry.2.table == t)).map (fun entry => entry.2.identity.key)

/-- A key is held in a table when some handle in use is of this key in this table. -/
theorem mem_keysIn {t : TableId} {key : Key} :
    key ∈ s.keysIn t ↔ ∃ handle ∈ s.live, handle.table = t ∧ handle.identity.key = key := by
  simp only [keysIn, List.mem_map, List.mem_filter, beq_iff_eq]
  constructor
  · rintro ⟨⟨name, handle⟩, ⟨hmem, htable⟩, hkey⟩
    exact ⟨handle, ⟨name, hmem⟩, htable, hkey⟩
  · rintro ⟨handle, ⟨name, hmem⟩, htable, hkey⟩
    exact ⟨(name, handle), ⟨hmem, htable⟩, hkey⟩

/-- When no name stands for two handles, every handle in use is the handle of some name. -/
theorem Invariant.exists_handle? (h : s.Invariant) {handle : Handle} (hlive : handle ∈ s.live) :
    ∃ name, s.handle? name = some handle := by
  obtain ⟨name, hmem⟩ := hlive
  exact ⟨name, h.names.get?_eq_some_iff.mpr hmem⟩

/-- What stands in a table is held by a handle in use. -/
theorem Invariant.exists_live_of_find? (h : s.Invariant) {t : TableId} {table : Table}
    (htable : s.table? t = some table) {address : Address} {cell : CellId}
    (hfind : table.find? address = some cell) :
    ∃ handle ∈ s.live, handle.holding = ⟨t, address, cell⟩ := by
  obtain ⟨handle, hlive, heq⟩ := (h.consistent.entered t table htable address cell).mp hfind
  exact ⟨handle, hlive, heq⟩

/-- An address that stands in a table is readable. -/
theorem Invariant.isReadable_of_mem_entries (h : s.Invariant) {t : TableId} {table : Table}
    (htable : s.table? t = some table) {entry : Address × CellId} (hentry : entry ∈ table.entries) :
    entry.1.IsReadable :=
  h.consistent.readable _ ((h.consistent.entered t table htable entry.1 entry.2).mp
    ((h.consistent.wellFormed t table htable).mem_entries.mp hentry))

/-- A pool contains a key exactly when some handle in use is of this key in its table. -/
theorem Invariant.contains_iff (h : s.Invariant) {t : TableId} (hopen : (s.table? t).isSome)
    {bundle path : String} {fragment : Option String} :
    s.contains t bundle path fragment = true ↔
      (Address.ofText bundle path fragment).key ∈ s.keysIn t := by
  obtain ⟨table, htable⟩ := Option.isSome_iff_exists.mp hopen
  have hreadable : (Address.ofText bundle path fragment).IsReadable :=
    Place.readable_ofText path fragment
  rw [contains, mem_keysIn, Option.isSome_iff_exists]
  constructor
  · rintro ⟨cell, hcell⟩
    obtain ⟨handle, hlive, heq⟩ := (h.consistent.liveCell?_eq_some_iff htable).mp hcell
    obtain ⟨ht, haddress, _⟩ := Holding.mk.inj heq
    exact ⟨handle, hlive, ht, congrArg Address.key haddress⟩
  · rintro ⟨handle, hlive, rfl, hkey⟩
    have haddress : handle.identity.address = .ofText bundle path fragment :=
      (Address.IsReadable.key_inj (h.isReadable hlive) hreadable).mp hkey
    refine ⟨handle.cell, (h.consistent.liveCell?_eq_some_iff htable).mpr ?_⟩
    rw [← haddress]
    exact holding_mem_holdings hlive

/-- The live count of a pool is the number of distinct keys held in its table. -/
theorem Invariant.liveCount_eq (h : s.Invariant) {t : TableId} (hopen : (s.table? t).isSome) :
    s.liveCount t = (s.keysIn t).toFinset.card := by
  obtain ⟨table, htable⟩ := Option.isSome_iff_exists.mp hopen
  have hwf := h.consistent.wellFormed t table htable
  have hentries : ∀ entry ∈ table.entries,
      ∃ handle ∈ s.live, handle.holding = ⟨t, entry.1, entry.2⟩ := fun entry hentry =>
    h.exists_live_of_find? htable (hwf.mem_entries.mp hentry)
  -- Every entry is held, so all of them count.
  have hcount : s.liveCount t = table.entries.length := by
    rw [liveCount, htable, Option.map_some, Option.getD_some, Table.cells_eq_map_entries,
      List.countP_map, List.countP_eq_length]
    intro entry hentry
    obtain ⟨handle, hlive, heq⟩ := hentries entry hentry
    exact holds_iff.mpr ⟨_, holding_mem_holdings hlive, congrArg Holding.cell heq⟩
  have hkeys : (table.entries.map (·.1.key)).Nodup := by
    have haddresses : (table.entries.map (·.1)).Nodup := hwf.unique_entries
    rw [List.nodup_map_iff_inj_on (List.Nodup.of_map _ haddresses)]
    intro a ha b hb hkey
    refine List.inj_on_of_nodup_map haddresses ha hb ?_
    exact (Address.IsReadable.key_inj (h.isReadable_of_mem_entries htable ha)
      (h.isReadable_of_mem_entries htable hb)).mp hkey
  have hsame : (table.entries.map (·.1.key)).toFinset = (s.keysIn t).toFinset := by
    ext key
    rw [List.mem_toFinset, List.mem_toFinset, mem_keysIn, List.mem_map]
    constructor
    · rintro ⟨entry, hentry, rfl⟩
      obtain ⟨handle, hlive, heq⟩ := hentries entry hentry
      obtain ⟨ht, haddress, _⟩ := Holding.mk.inj heq
      exact ⟨handle, hlive, ht, congrArg Address.key haddress⟩
    · rintro ⟨handle, hlive, rfl, rfl⟩
      have hfind := (h.consistent.entered _ table htable _ _).mpr (holding_mem_holdings hlive)
      exact ⟨(handle.identity.address, handle.cell), hwf.mem_entries.mpr hfind, rfl⟩
  rw [hcount, ← hsame, List.toFinset_card_of_nodup hkeys, List.length_map]

/-- No shelf of a table is empty, and on the shelves stand storages in use only. -/
theorem Invariant.shelves_in_use (h : s.Invariant) {t : TableId} {table : Table}
    (htable : s.table? t = some table) :
    (∀ shelf ∈ table.shelves, shelf.2 ≠ [] ∧ ∀ entry ∈ shelf.2, ∃ name handle,
      s.handle? name = some handle ∧ handle.table = t ∧
        handle.identity.address = ⟨shelf.1, entry.1⟩ ∧ handle.cell = entry.2) ∧
      (table.entries.map (·.1)).Nodup := by
  have hwf := h.consistent.wellFormed t table htable
  refine ⟨fun shelf hshelf => ⟨hwf.stocked shelf hshelf, ?_⟩, hwf.unique_entries⟩
  intro entry hentry
  have hmem : (⟨shelf.1, entry.1⟩, entry.2) ∈ table.entries :=
    List.mem_flatMap.mpr ⟨shelf, hshelf, List.mem_map.mpr ⟨entry, hentry, rfl⟩⟩
  obtain ⟨handle, hlive, heq⟩ := h.exists_live_of_find? htable (hwf.mem_entries.mp hmem)
  obtain ⟨ht, haddress, hcell⟩ := Holding.mk.inj heq
  obtain ⟨name, hname⟩ := h.exists_handle? hlive
  exact ⟨name, handle, hname, ht, haddress, hcell⟩

/-- A command that does not work in a table takes at most the key of the handle that it drops
from the keys held there, and adds none. -/
theorem mem_keysIn_of_run (h : s.Invariant) {command : Command} (hrun : s.run command = .ok next)
    {t : TableId} (helse : command.table? s ≠ some t) {key : Key}
    (hkept : ∀ handle, command.dropped? s = some handle → handle.table = t →
      handle.identity.key ≠ key) : key ∈ next.keysIn t ↔ key ∈ s.keysIn t := by
  obtain ⟨hback, hforth⟩ := live_of_run h.names hrun
  rw [mem_keysIn, mem_keysIn]
  constructor
  · rintro ⟨handle, hlive, rfl, hkey⟩
    rcases hback handle hlive with hold | htable
    · exact ⟨handle, hold, rfl, hkey⟩
    · exact absurd htable.1 helse
  · rintro ⟨handle, hlive, rfl, hkey⟩
    rcases hforth handle hlive with hnew | hdropped
    · exact ⟨handle, hnew, rfl, hkey⟩
    · exact absurd hkey (hkept handle hdropped rfl)

/-- After any commands every pool reports exactly what the handles in use hold in its table,
and its table holds nothing else. A further command leaves the new handle in use under a made name
and none under a dropped one. If it works through another pool, it leaves the report of a pool
alone, but for the key of the handle that it drops. -/
theorem reclamation_exact (pool : String) (commands : List Command) :
    let s := (initial pool).afterAll commands
    (∀ command next, s.run command = .ok next → ∀ x, next.handle? x = command.leaves? s x) ∧
    ∀ name t, s.pool? name = some t →
      s.liveCount t = (s.keysIn t).toFinset.card ∧
      (∀ bundle path fragment, s.contains t bundle path fragment = true ↔
        ∃ x handle, s.handle? x = some handle ∧ handle.table = t ∧
          handle.identity.key = (Address.ofText bundle path fragment).key) ∧
      (∃ table, s.table? t = some table ∧ (table.entries.map (·.1)).Nodup ∧
        ∀ shelf ∈ table.shelves, shelf.2 ≠ [] ∧ ∀ entry ∈ shelf.2, ∃ x handle,
          s.handle? x = some handle ∧ handle.table = t ∧
            handle.identity.address = ⟨shelf.1, entry.1⟩ ∧ handle.cell = entry.2) ∧
      ∀ command next other, s.run command = .ok next → next.pool? other = some t →
        command.table? s ≠ some t →
        (∀ bundle path fragment,
          (∀ handle, command.dropped? s = some handle → handle.table = t →
            handle.identity.key ≠ (Address.ofText bundle path fragment).key) →
          next.contains t bundle path fragment = s.contains t bundle path fragment) ∧
        ((∀ handle, command.dropped? s = some handle → handle.table ≠ t) →
          next.liveCount t = s.liveCount t) := by
  intro s
  refine ⟨fun command next hrun => handle?_of_run hrun, fun name t hpool => ?_⟩
  have hs : s.Invariant := invariant_afterAll pool commands
  have hopen := hs.isSome_table? hpool
  obtain ⟨table, htable⟩ := Option.isSome_iff_exists.mp hopen
  obtain ⟨hshelves, hunique⟩ := hs.shelves_in_use htable
  refine ⟨hs.liveCount_eq hopen, ?_, ⟨table, htable, hunique, hshelves⟩, ?_⟩
  · intro bundle path fragment
    rw [hs.contains_iff hopen, mem_keysIn]
    constructor
    · rintro ⟨handle, hlive, ht, hkey⟩
      obtain ⟨x, hx⟩ := hs.exists_handle? hlive
      exact ⟨x, handle, hx, ht, hkey⟩
    · rintro ⟨x, handle, hx, ht, hkey⟩
      exact ⟨handle, live_of_handle? hx, ht, hkey⟩
  · intro command next other hrun hother helse
    have hnext := hs.run hrun
    have hopen' := hnext.isSome_table? hother
    constructor
    · intro bundle path fragment hkept
      rw [Bool.eq_iff_iff, hnext.contains_iff hopen', hs.contains_iff hopen]
      exact mem_keysIn_of_run hs hrun helse hkept
    · intro hkept
      rw [hnext.liveCount_eq hopen', hs.liveCount_eq hopen]
      congr 1
      ext key
      rw [List.mem_toFinset, List.mem_toFinset]
      have helsewhere : ∀ handle, command.dropped? s = some handle → handle.table = t →
          handle.identity.key ≠ key := fun handle hdropped ht => absurd ht (hkept handle hdropped)
      exact mem_keysIn_of_run hs hrun helse helsewhere

/-- Two handles of one pool, of which the first is overwritten by a handle of another pool. -/
def overwriting : List Command := [
  .make "page" (.intern "main" "kit" "/a" none ["swift"]),
  .make "part" (.intern "main" "kit" "/a" (some "x") ["swift"]),
  .newPool "other",
  .make "twin" (.withFragment "other" "part" none),
  .make "page" (.copy "twin")]

/-- A handle overwritten by one of another pool was the last of its key: its own pool forgets
the key and keeps the other one, although the key is still in use elsewhere. It forgets the other
key as well when the last handle of that key is dropped. -/
theorem reclamation_exact_of_overwrite :
    let s := (initial "main").afterAll overwriting
    s.pool? "main" = some 0 ∧ s.liveCount 0 = 1 ∧ s.contains 0 "kit" "%61" (some "x") = true ∧
      s.pool? "other" = some 1 ∧ s.liveCount 1 = 1 ∧
      ∃ next, s.run (.drop "part") = .ok next ∧ next.handle? "part" = none ∧
        next.liveCount 0 = 0 ∧ next.liveCount 1 = 1 := by
  intro s
  obtain ⟨hleaves, hreports⟩ := reclamation_exact "main" overwriting
  obtain ⟨hmain, hcontains, _⟩ := hreports "main" 0 rfl
  obtain ⟨hother, _⟩ := hreports "other" 1 rfl
  obtain ⟨-, hdropped⟩ := reclamation_exact "main" (overwriting ++ [.drop "part"])
  refine ⟨rfl, hmain.trans rfl, (hcontains _ _ _).mpr ⟨"part", _, rfl, rfl, by decide⟩, rfl,
    hother.trans rfl, s.drop "part", rfl, hleaves (.drop "part") _ rfl "part", ?_, ?_⟩
  · exact (hdropped "main" 0 rfl).1.trans rfl
  · exact (hdropped "other" 1 rfl).1.trans rfl

end TopicLinks.Session
