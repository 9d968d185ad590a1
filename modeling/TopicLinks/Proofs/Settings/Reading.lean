import TopicLinks.Assoc
import TopicLinks.Settings.Reading

/-!
# Settings and their entries

An entry is a setting when its key is one of the five and its value is of the type of the key. Each
entry is judged on its own and sets only what belongs to its key. So entries are read exactly if all
of them are settings, in whatever order they stand, and otherwise the first one that is none decides
about the error.
-/

namespace TopicLinks

variable {α : Type} {table : List (String × α)} {nameOf : α → String}

/-- In a table that lists everything under its name, looking up a name gives what has that name. -/
theorem find?_name_eq_some_iff (hnames : ∀ entry ∈ table, entry.1 = nameOf entry.2)
    (hlisted : ∀ a, (table.find? (·.1 == nameOf a)).map (·.2) = some a) {name : String} {a : α} :
    (table.find? (·.1 == name)).map (·.2) = some a ↔ name = nameOf a := by
  constructor
  · intro h
    obtain ⟨entry, hentry, rfl⟩ := Option.map_eq_some_iff.mp h
    have hname : entry.1 = name := by simpa using List.find?_some hentry
    rw [← hname, hnames entry (List.mem_of_find?_eq_some hentry)]
  · rintro rfl
    exact hlisted a

/-- A severity is found by its name. -/
theorem Severity.ofName?_eq_some_iff {name : String} {severity : Severity} :
    ofName? name = some severity ↔ name = severity.name :=
  find?_name_eq_some_iff (by decide) (by rintro ⟨⟩ <;> decide)

namespace Toml.Value

/-- The value holds nothing: it is an empty array or an empty table. -/
inductive IsVacant : Value → Prop
  /-- An empty array. -/
  | array : IsVacant (.array [])
  /-- An empty table, however it came to be. -/
  | table (origin : TableOrigin) : IsVacant (.table origin [])
  /-- An empty array of tables. -/
  | tables : IsVacant (.tables [])

/-- The value spells a severity: with its name as text, or as a table of which its name is the only
key and which says nothing else. -/
inductive Spells : Value → Severity → Prop
  /-- The name as text. -/
  | text (severity : Severity) : Spells (.text severity.name) severity
  /-- The name as the only key of a table. -/
  | table (origin : TableOrigin) (severity : Severity) {value : Value} (h : value.IsVacant) :
    Spells (.table origin [(severity.name, value)]) severity

/-- The name that stands where a severity is spelled. -/
def spelledName? : Value → Option String
  | .text name => some name
  | .table _ [(name, _)] => some name
  | _ => none

end Toml.Value

namespace Settings

open Toml

/-- What the value of a key says. -/
inductive Content where
  /-- How serious something is. -/
  | severity (severity : Severity)
  /-- Whether something is done. -/
  | flag (value : Bool)

/-- A key as it is written. -/
def Key.name : Key → String
  | .duplicateReference => "duplicate-reference"
  | .inheritedLinkFallback => "inherited-link-fallback"
  | .inheritedRelativeLink => "inherited-relative-link"
  | .missingResource => "missing-resource"
  | .unresolvedTopic => "unresolved-topic"

/-- A value of a key says something: for the fallback a boolean, for every other key a severity. -/
inductive Key.Reads : Key → Value → Content → Prop
  /-- The fallback is on or off. -/
  | flag (value : Bool) : Reads .inheritedLinkFallback (.boolean value) (.flag value)
  /-- Every other key is about a severity. -/
  | severity {key : Key} {value : Value} {severity : Severity}
    (hkey : key ≠ .inheritedLinkFallback) (h : value.Spells severity) :
    Reads key value (.severity severity)

/-- What settings say about a key. -/
def content (settings : Settings) : Key → Content
  | .duplicateReference => .severity settings.duplicateReference
  | .inheritedLinkFallback => .flag settings.inheritedLinkFallback
  | .inheritedRelativeLink => .severity settings.inheritedRelativeLink
  | .missingResource => .severity settings.missingResource
  | .unresolvedTopic => .severity settings.unresolvedTopic

/-- An entry is a setting: its key is known, and its value is one of the key. -/
def IsSetting (entry : String × Value) : Prop :=
  ∃ key content, entry.1 = Key.name key ∧ key.Reads entry.2 content

/-- Settings are those of some entries: for a key with a value they say what the value says, and for
every other key what other settings say. -/
structure AreOf (settings : Settings) (entries : Entries) (others : Settings) : Prop where
  /-- What is given counts, -/
  given : ∀ key value, (Key.name key, value) ∈ entries → key.Reads value (settings.content key)
  /-- and nothing else is changed. -/
  missing : ∀ key, (∀ value, (Key.name key, value) ∉ entries) →
    settings.content key = others.content key

/-- Why the value of a key is none of the key. -/
inductive Key.Refuses (key : Key) (value : Value) : SettingsError → Prop
  /-- The value spells a name that no severity has. -/
  | name {name : String} (hkey : key ≠ .inheritedLinkFallback)
    (hname : value.spelledName? = some name) (h : ∀ severity : Severity, name ≠ severity.name) :
    Refuses key value (.unknownSeverity name)
  /-- The value says nothing about the key and spells no such name. -/
  | type (h : ∀ content, ¬key.Reads value content)
    (hname : key ≠ .inheritedLinkFallback → ∀ name ∈ value.spelledName?,
      ∃ severity : Severity, name = severity.name) :
    Refuses key value (.wrongType key.name)

/-- Why an entry is no setting. -/
inductive Refuses (entry : String × Value) : SettingsError → Prop
  /-- Its key is not known. -/
  | key (h : ∀ key, entry.1 ≠ Key.name key) : Refuses entry (.unknownKey entry.1)
  /-- Its value is none of its key. -/
  | value {key : Key} {e : SettingsError} (hkey : entry.1 = key.name)
    (h : key.Refuses entry.2 e) : Refuses entry e

/-! ### Values -/

theorem Key.ofName?_eq_some_iff {name : String} {key : Key} :
    ofName? name = some key ↔ name = key.name :=
  find?_name_eq_some_iff (by decide) (by rintro ⟨⟩ <;> decide)

theorem Key.name_injective {key other : Key} (h : key.name = other.name) : key = other := by
  have hkey := Key.ofName?_eq_some_iff.mpr h
  rw [Key.ofName?_eq_some_iff.mpr rfl] at hkey
  exact Option.some.inj hkey

theorem holdsNothing_iff {value : Value} : holdsNothing value = true ↔ value.IsVacant := by
  constructor
  · intro h
    cases value with
    | array items =>
      rw [List.isEmpty_iff.mp h]
      exact .array
    | table origin entries =>
      rw [List.isEmpty_iff.mp h]
      exact .table origin
    | tables elements =>
      rw [List.isEmpty_iff.mp h]
      exact .tables
    | text | boolean | number | moment => cases h
  · rintro (_ | _ | _) <;> rfl

section Severities

variable {name : String} {value : Value} {severity : Severity}

theorem severityNamed_name (severity : Severity) :
    severityNamed severity.name = .ok severity := by
  rw [severityNamed, Severity.ofName?_eq_some_iff.mpr rfl]

theorem severityNamed_of_ne (h : ∀ severity : Severity, name ≠ severity.name) :
    severityNamed name = .error (.unknownSeverity name) := by
  have hnone : Severity.ofName? name = none :=
    Option.eq_none_iff_forall_ne_some.mpr fun severity hname =>
      h severity (Severity.ofName?_eq_some_iff.mp hname)
  rw [severityNamed, hnone]

theorem severityOf_of_spells (name : String) (h : value.Spells severity) :
    severityOf name value = .ok severity := by
  cases h with
  | text => exact severityNamed_name severity
  | table origin _ hvacant =>
    rw [severityOf, severityNamed_name, holdsNothing_iff.mpr hvacant]
    rfl

theorem severityOf_of_unknown (key : String) (hname : value.spelledName? = some name)
    (h : ∀ severity : Severity, name ≠ severity.name) :
    severityOf key value = .error (.unknownSeverity name) := by
  unfold Value.spelledName? at hname
  split at hname
  · cases hname
    exact severityNamed_of_ne h
  · cases hname
    rw [severityOf, severityNamed_of_ne h]
    rfl
  · cases hname

/-- Whatever has no severity's name where a name would stand, or has more beside it, is of the
wrong type. -/
theorem severityOf_of_not_spells (key : String) (h : ∀ severity, ¬value.Spells severity)
    (hname : ∀ name ∈ value.spelledName?, ∃ severity : Severity, name = severity.name) :
    severityOf key value = .error (.wrongType key) := by
  unfold severityOf
  split
  · obtain ⟨severity, rfl⟩ := hname _ rfl
    exact absurd (.text severity) (h severity)
  · rename_i origin name inner
    obtain ⟨severity, rfl⟩ := hname _ rfl
    have hinner : holdsNothing inner = false := by
      rw [← Bool.not_eq_true, holdsNothing_iff]
      exact fun hvacant => h severity (.table origin severity hvacant)
    rw [severityNamed_name, hinner]
    rfl
  · rfl

end Severities

/-! ### Entries -/

section Entry

variable {settings after : Settings} {entry : String × Value} {key : Key} {content : Content}
  {e : SettingsError}

/-- A setting sets what its value says about its key, and nothing else. -/
theorem exists_setEntry (settings : Settings) (hkey : entry.1 = key.name)
    (h : key.Reads entry.2 content) :
    ∃ after, settings.setEntry entry = .ok after ∧ after.content key = content ∧
      ∀ other ≠ key, after.content other = settings.content other := by
  obtain ⟨name, value⟩ := entry
  have hname := Key.ofName?_eq_some_iff.mpr hkey
  cases h with
  | flag value =>
    refine ⟨{ settings with inheritedLinkFallback := value }, ?_, rfl, fun other hother => ?_⟩
    · rw [setEntry, hname]
      rfl
    · cases other <;> first | rfl | exact absurd rfl hother
  | @severity _ _ severity hne hspells =>
    have hseverity := severityOf_of_spells name hspells
    rw [setEntry, hname]
    cases key with
    | inheritedLinkFallback => exact absurd rfl hne
    | duplicateReference | inheritedRelativeLink | missingResource | unresolvedTopic =>
      refine ⟨_, by rw [hseverity]; rfl, rfl, fun other hother => ?_⟩
      cases other <;> first | rfl | exact absurd rfl hother

theorem IsSetting.exists_setEntry (h : IsSetting entry) (settings : Settings) :
    ∃ after, settings.setEntry entry = .ok after := by
  obtain ⟨key, content, hkey, hreads⟩ := h
  obtain ⟨after, hafter, -⟩ := Settings.exists_setEntry settings hkey hreads
  exact ⟨after, hafter⟩

theorem booleanOf_of_not_reads (name : String) {value : Value}
    (h : ∀ content, ¬Key.inheritedLinkFallback.Reads value content) :
    booleanOf name value = .error (.wrongType name) := by
  unfold booleanOf
  split
  · exact absurd (.flag _) (h _)
  · rfl

/-- What a key other than the fallback refuses is no severity. -/
theorem Key.Refuses.severityOf {value : Value} (h : key.Refuses value e)
    (hne : key ≠ .inheritedLinkFallback) : severityOf key.name value = .error e := by
  cases h with
  | name _ hname hunknown => exact severityOf_of_unknown key.name hname hunknown
  | type hreads hname =>
    exact severityOf_of_not_spells key.name (fun _ hspells => hreads _ (.severity hne hspells))
      (hname hne)

/-- What refuses the value of a key is the error. -/
theorem Key.Refuses.setEntry {value : Value} (h : key.Refuses value e) (settings : Settings) :
    settings.setEntry (key.name, value) = .error e := by
  rw [Settings.setEntry, Key.ofName?_eq_some_iff.mpr rfl]
  cases key with
  | inheritedLinkFallback =>
    cases h with
    | name hne => exact absurd rfl hne
    | type hreads =>
      rw [booleanOf_of_not_reads _ hreads]
      rfl
  | duplicateReference | inheritedRelativeLink | missingResource | unresolvedTopic =>
    rw [h.severityOf (by decide)]
    rfl

/-- What refuses an entry is the error, whatever has been set. -/
theorem Refuses.setEntry (h : Refuses entry e) (settings : Settings) :
    settings.setEntry entry = .error e := by
  obtain ⟨name, value⟩ := entry
  cases h with
  | key hunknown =>
    have hnone : Key.ofName? name = none :=
      Option.eq_none_iff_forall_ne_some.mpr fun key hname =>
        hunknown key (Key.ofName?_eq_some_iff.mp hname)
    rw [Settings.setEntry, hnone]
  | value hkey h =>
    cases hkey
    exact h.setEntry settings

/-- Every entry is a setting, or there is a reason why it is none. -/
theorem isSetting_or_refuses (entry : String × Value) :
    IsSetting entry ∨ ∃ e, Refuses entry e := by
  by_cases hkey : ∃ key, entry.1 = Key.name key
  · obtain ⟨key, hkey⟩ := hkey
    by_cases hreads : ∃ content, key.Reads entry.2 content
    · obtain ⟨content, hreads⟩ := hreads
      exact .inl ⟨key, content, hkey, hreads⟩
    by_cases hname : ∃ name ∈ entry.2.spelledName?,
        key ≠ .inheritedLinkFallback ∧ ∀ severity : Severity, name ≠ severity.name
    · obtain ⟨name, hname, hne, hunknown⟩ := hname
      exact .inr ⟨_, .value hkey (.name hne hname hunknown)⟩
    · refine .inr ⟨_, .value hkey (.type (not_exists.mp hreads) fun hne name hmem => ?_)⟩
      exact Classical.byContradiction fun hnone =>
        hname ⟨name, hmem, hne, not_exists.mp hnone⟩
  · exact .inr ⟨_, .key (not_exists.mp hkey)⟩

/-- What is refused is no setting. -/
theorem Refuses.not_isSetting (h : Refuses entry e) : ¬IsSetting entry := by
  intro hsetting
  obtain ⟨after, hafter⟩ := hsetting.exists_setEntry {}
  rw [h.setEntry] at hafter
  cases hafter

/-- A value says one thing only about a key. -/
theorem Key.Reads.unique {value : Value} {other : Content} (h : key.Reads value content)
    (hother : key.Reads value other) : content = other := by
  have hkey : (key.name, value).1 = key.name := rfl
  obtain ⟨after, hafter, hcontent, -⟩ := exists_setEntry {} hkey h
  obtain ⟨again, hagain, hcontent', -⟩ := exists_setEntry {} hkey hother
  rw [hafter] at hagain
  cases hagain
  rw [← hcontent, hcontent']

end Entry

/-! ### Lists of entries -/

section Entries

variable {entries : Entries} {settings after : Settings}

/-- If all entries are settings, all of them are set. -/
theorem exists_setEntries (h : ∀ entry ∈ entries, IsSetting entry) (settings : Settings) :
    ∃ after, settings.setEntries entries = .ok after := by
  induction entries generalizing settings with
  | nil => exact ⟨settings, rfl⟩
  | cons entry rest ih =>
    obtain ⟨hfirst, hrest⟩ := List.forall_mem_cons.mp h
    obtain ⟨between, hbetween⟩ := hfirst.exists_setEntry settings
    rw [setEntries, hbetween]
    exact ih hrest between

/-- Behind settings only, an entry that is none is the error, and nothing after it is looked at. -/
theorem setEntries_append_of_refuses {entry : String × Value} {e : SettingsError}
    (h : ∀ other ∈ entries, IsSetting other) (hrefuses : Refuses entry e) (settings : Settings)
    (rest : Entries) : settings.setEntries (entries ++ entry :: rest) = .error e := by
  induction entries generalizing settings with
  | nil =>
    rw [List.nil_append, setEntries, hrefuses.setEntry]
    rfl
  | cons first entries ih =>
    obtain ⟨hfirst, hothers⟩ := List.forall_mem_cons.mp h
    obtain ⟨between, hbetween⟩ := hfirst.exists_setEntry settings
    rw [List.cons_append, setEntries, hbetween]
    exact ih hothers between

/-- If not all entries are settings, there is a first one that is none. -/
theorem forall_isSetting_or (entries : Entries) : (∀ entry ∈ entries, IsSetting entry) ∨
    ∃ before entry rest e, entries = before ++ entry :: rest ∧
      (∀ other ∈ before, IsSetting other) ∧ Refuses entry e := by
  induction entries with
  | nil => exact .inl fun _ h => absurd h List.not_mem_nil
  | cons first entries ih =>
    obtain hfirst | ⟨e, he⟩ := isSetting_or_refuses first
    · obtain hall | ⟨before, entry, rest, e, rfl, hbefore, he⟩ := ih
      · exact .inl (List.forall_mem_cons.mpr ⟨hfirst, hall⟩)
      · exact .inr ⟨first :: before, entry, rest, e, rfl,
          List.forall_mem_cons.mpr ⟨hfirst, hbefore⟩, he⟩
    · exact .inr ⟨[], first, entries, e, rfl, fun _ h => absurd h List.not_mem_nil, he⟩

/-- If no key is there twice, what is set is what the entries say, and nothing else. -/
theorem areOf_of_setEntries (hunique : Assoc.Unique entries)
    (hall : ∀ entry ∈ entries, IsSetting entry) (h : settings.setEntries entries = .ok after) :
    after.AreOf entries settings := by
  induction entries generalizing settings with
  | nil =>
    cases h
    exact ⟨fun _ _ h => absurd h List.not_mem_nil, fun _ _ => rfl⟩
  | cons entry rest ih =>
    obtain ⟨hfirst, hrest⟩ := List.nodup_cons.mp hunique
    obtain ⟨⟨key, content, hkey, hreads⟩, hsettings⟩ := List.forall_mem_cons.mp hall
    obtain ⟨between, hbetween, hset, hkept⟩ := exists_setEntry settings hkey hreads
    rw [setEntries, hbetween] at h
    obtain ⟨hgiven, hmissing⟩ := ih hrest hsettings h
    -- The key of the first entry is not in the rest, so that what is set first stays.
    have hnone : ∀ value, (key.name, value) ∉ rest := fun value hvalue =>
      hfirst (List.mem_map.mpr ⟨_, hvalue, hkey.symm⟩)
    constructor
    · intro other value hvalue
      rcases List.mem_cons.mp hvalue with rfl | hvalue
      · cases Key.name_injective hkey
        rwa [hmissing _ hnone, hset]
      · exact hgiven other value hvalue
    · intro other hother
      have hne : other ≠ key := by
        rintro rfl
        exact hother entry.2 (hkey ▸ List.mem_cons_self)
      rw [hmissing other fun value hvalue => hother value (List.mem_cons_of_mem _ hvalue),
        hkept other hne]

/-- Settings that say the same about every key are the same. -/
theorem ext_content {other : Settings} (h : ∀ key, settings.content key = other.content key) :
    settings = other := by
  obtain ⟨_, _, _, _, _⟩ := settings
  obtain ⟨_, _, _, _, _⟩ := other
  have hduplicate := h .duplicateReference
  have hfallback := h .inheritedLinkFallback
  have hrelative := h .inheritedRelativeLink
  have hresource := h .missingResource
  have htopic := h .unresolvedTopic
  cases hduplicate
  cases hfallback
  cases hrelative
  cases hresource
  cases htopic
  rfl

/-- Entries and what they leave alone say everything about the settings. -/
theorem AreOf.unique {other others : Settings} (h : settings.AreOf entries others)
    (hother : other.AreOf entries others) : settings = other := by
  refine ext_content fun key => ?_
  by_cases hkey : ∃ value, (key.name, value) ∈ entries
  · obtain ⟨value, hvalue⟩ := hkey
    exact (h.given key value hvalue).unique (hother.given key value hvalue)
  · have hnone := not_exists.mp hkey
    rw [h.missing key hnone, hother.missing key hnone]

/-- The order of the entries does not matter. -/
theorem AreOf.perm {other : Entries} {others : Settings} (h : settings.AreOf entries others)
    (hperm : entries.Perm other) : settings.AreOf other others where
  given key value hvalue := h.given key value (hperm.mem_iff.mpr hvalue)
  missing key hnone := h.missing key fun value hvalue => hnone value (hperm.mem_iff.mp hvalue)

end Entries

/-! ### Documents -/

/-- Entries are read strictly: they are settings all together or not at all, and it is the first
entry which is none that counts. -/
structure AreReadStrictly (entries : Entries) : Prop where
  /-- They are read if and only if each of them is a setting. -/
  read : (∃ settings, ofEntries entries = .ok settings) ↔ ∀ entry ∈ entries, IsSetting entry
  /-- Every key is as its entry says, or as it is by default. -/
  areOf : ∀ settings, ofEntries entries = .ok settings → settings.AreOf entries {}
  /-- In every order they give the same settings. -/
  reordered : ∀ other settings, other.Perm entries →
    (ofEntries other = .ok settings ↔ ofEntries entries = .ok settings)
  /-- The error is that of the first entry that is no setting. -/
  refused : ∀ e, ofEntries entries = .error e ↔ ∃ before entry rest,
    entries = before ++ entry :: rest ∧ (∀ other ∈ before, IsSetting other) ∧
      ¬IsSetting entry ∧ Refuses entry e

section Documents

variable {entries : Entries} {settings : Settings}

/-- Entries that are read are settings. -/
theorem isSetting_of_ofEntries (h : ofEntries entries = .ok settings) :
    ∀ entry ∈ entries, IsSetting entry := by
  obtain hall | ⟨before, entry, rest, e, rfl, hbefore, he⟩ := forall_isSetting_or entries
  · exact hall
  · rw [ofEntries, setEntries_append_of_refuses hbefore he] at h
    cases h

/-- Entries without a key twice are read as the settings that are theirs. -/
theorem ofEntries_eq_ok_iff (hunique : Assoc.Unique entries) :
    ofEntries entries = .ok settings ↔
      (∀ entry ∈ entries, IsSetting entry) ∧ settings.AreOf entries {} := by
  constructor
  · intro h
    have hall := isSetting_of_ofEntries h
    exact ⟨hall, areOf_of_setEntries hunique hall h⟩
  · rintro ⟨hall, hareOf⟩
    obtain ⟨after, hafter⟩ := exists_setEntries hall {}
    rwa [hareOf.unique (areOf_of_setEntries hunique hall hafter)]

theorem ofEntries_eq_error_iff {e : SettingsError} :
    ofEntries entries = .error e ↔ ∃ before entry rest, entries = before ++ entry :: rest ∧
      (∀ other ∈ before, IsSetting other) ∧ ¬IsSetting entry ∧ Refuses entry e := by
  constructor
  · intro h
    obtain hall | ⟨before, entry, rest, e', rfl, hbefore, he⟩ := forall_isSetting_or entries
    · obtain ⟨after, hafter⟩ := exists_setEntries hall {}
      rw [ofEntries, hafter] at h
      cases h
    · rw [ofEntries, setEntries_append_of_refuses hbefore he] at h
      cases h
      exact ⟨before, entry, rest, rfl, hbefore, he.not_isSetting, he⟩
  · rintro ⟨before, entry, rest, rfl, hbefore, -, he⟩
    exact setEntries_append_of_refuses hbefore he {} rest

/-- Entries without a key twice are read strictly. -/
theorem areReadStrictly (hunique : Assoc.Unique entries) : AreReadStrictly entries where
  read := ⟨fun ⟨_, h⟩ => isSetting_of_ofEntries h, fun h => exists_setEntries h {}⟩
  areOf settings h := ((ofEntries_eq_ok_iff hunique).mp h).2
  reordered other settings hperm := by
    have hother : Assoc.Unique other := (hperm.map _).nodup_iff.mpr hunique
    rw [ofEntries_eq_ok_iff hother, ofEntries_eq_ok_iff hunique]
    constructor
    · rintro ⟨hall, hareOf⟩
      exact ⟨fun entry hentry => hall entry (hperm.mem_iff.mpr hentry), hareOf.perm hperm⟩
    · rintro ⟨hall, hareOf⟩
      exact ⟨fun entry hentry => hall entry (hperm.mem_iff.mp hentry), hareOf.perm hperm.symm⟩
  refused e := ofEntries_eq_error_iff

end Documents

end Settings

end TopicLinks
