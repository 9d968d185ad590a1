import TopicLinks.Proofs.Settings.Reading
import TopicLinks.Proofs.Text.Decoding
import TopicLinks.Proofs.Toml.Writing
import TopicLinks.Settings.File

/-!
# Settings are never made up

The defaults stand for keys that are missing and for a file that is missing, and for nothing else.
A file that is there gives the settings of its entries, or an error: if its bytes are no text, if
its text is no document, and if one of its entries is no setting.
-/

namespace TopicLinks

open Text

namespace FileSystem

variable {fs : FileSystem} {path : String}

/-- There is a file with some bytes at a path. -/
def HasFile (fs : FileSystem) (path : String) (bytes : List UInt8) : Prop :=
  ∃ location, fs.locate path = .ok location ∧ fs.entry? location = some (.file bytes)

/-- There is nothing at a path, or the way to it ends before. -/
def IsMissing (fs : FileSystem) (path : String) : Prop :=
  fs.locate path = .error .missing ∨
    ∃ location, fs.locate path = .ok location ∧ fs.entry? location = none

/-- Nothing but a missing file is read as one. -/
theorem readText_eq_missing_iff : fs.readText path = .error .missing ↔ fs.IsMissing path := by
  constructor
  · intro h
    unfold readText at h
    split at h
    · rename_i hlocate
      cases h
      exact .inl hlocate
    · rename_i location hlocate
      unfold textAt at h
      split at h
      · rename_i hentry
        exact .inr ⟨location, hlocate, hentry⟩
      · cases h
      · split at h <;> cases h
  · rintro (h | ⟨location, hlocate, hentry⟩)
    · rw [readText, h]
    · simp only [readText, hlocate, textAt, hentry]

/-- What is read is the text whose bytes a file has. -/
theorem readText_eq_ok_iff {text : String} :
    fs.readText path = .ok text ↔ fs.HasFile path (Utf8.encode text.toList) := by
  constructor
  · intro h
    unfold readText at h
    split at h
    · cases h
    · rename_i location hlocate
      unfold textAt at h
      split at h
      · cases h
      · cases h
      · rename_i bytes hentry
        split at h
        · cases h
        · rename_i text htext
          cases h
          rw [String.toList_ofList, ← Utf8.decode?_eq_some_iff.mp htext]
          exact ⟨location, hlocate, hentry⟩
  · rintro ⟨location, hlocate, hentry⟩
    simp only [readText, hlocate, textAt, hentry, Utf8.decode?_encode, String.ofList_toList]

theorem HasFile.readText_eq_notText {bytes : List UInt8} (h : fs.HasFile path bytes)
    (hbytes : ∀ text : String, bytes ≠ Utf8.encode text.toList) :
    fs.readText path = .error .notText := by
  obtain ⟨location, hlocate, hentry⟩ := h
  have hnone : Utf8.decode? bytes = none := by
    refine Option.eq_none_iff_forall_ne_some.mpr fun text htext => hbytes (.ofList text) ?_
    rw [String.toList_ofList, Utf8.decode?_eq_some_iff.mp htext]
  simp only [readText, hlocate, textAt, hentry, hnone]

end FileSystem

namespace Settings

variable {fs : FileSystem} {directory : String}

/-- The path of the settings file of a directory. -/
def pathIn (directory : String) : String := Location.join directory fileName

/-- The settings of a directory are loaded strictly: only a missing file means the defaults, and any
other file gives what its text holds or an error. -/
structure AreLoadedStrictly (fs : FileSystem) (directory : String) : Prop where
  /-- Settings are those of the text of the file, or the defaults if there is no file. -/
  loaded : ∀ settings, load fs directory = .ok settings ↔
    fs.IsMissing (pathIn directory) ∧ settings = {} ∨
      ∃ text : String, fs.HasFile (pathIn directory) (Utf8.encode text.toList) ∧
        parse text = .ok settings
  /-- Bytes that are not those of any text are an error. -/
  notText : ∀ bytes, fs.HasFile (pathIn directory) bytes →
    (∀ text : String, bytes ≠ Utf8.encode text.toList) →
      load fs directory = .error (.unreadable .notText)
  /-- The error of the text is that of the file. -/
  refused : ∀ (text : String) e, fs.HasFile (pathIn directory) (Utf8.encode text.toList) →
    parse text = .error e → load fs directory = .error (.settings e)

theorem load_of_isMissing (h : fs.IsMissing (pathIn directory)) :
    load fs directory = .ok {} := by
  have hread := FileSystem.readText_eq_missing_iff.mpr h
  rw [pathIn] at hread
  simp only [load, fromFile, hread]

/-- A text that is read decides. -/
theorem load_of_readText_eq_ok {text : String} (h : fs.readText (pathIn directory) = .ok text) :
    load fs directory = (parse text).mapError .settings := by
  rw [pathIn] at h
  cases hparse : parse text <;> simp only [load, fromFile, h, hparse, Except.mapError]

/-- What is there and cannot be read is an error. -/
theorem load_of_readText_eq_error {cause : FileError}
    (h : fs.readText (pathIn directory) = .error cause) (hcause : cause ≠ .missing) :
    load fs directory = .error (.unreadable cause) := by
  rw [pathIn] at h
  cases cause with
  | missing => exact absurd rfl hcause
  | notDirectory | isDirectory | tooLong | malformed | notText => simp only [load, fromFile, h]

/-- Settings are loaded strictly, whatever the file system has. -/
theorem areLoadedStrictly (fs : FileSystem) (directory : String) :
    AreLoadedStrictly fs directory where
  loaded settings := by
    constructor
    · intro h
      cases hread : fs.readText (pathIn directory) with
      | error cause =>
        by_cases hcause : cause = .missing
        · rw [hcause] at hread
          have hmissing := FileSystem.readText_eq_missing_iff.mp hread
          rw [load_of_isMissing hmissing] at h
          cases h
          exact .inl ⟨hmissing, rfl⟩
        · rw [load_of_readText_eq_error hread hcause] at h
          cases h
      | ok text =>
        rw [load_of_readText_eq_ok hread] at h
        cases hparse : parse text with
        | error e =>
          rw [hparse] at h
          cases h
        | ok read =>
          rw [hparse] at h
          cases h
          exact .inr ⟨text, FileSystem.readText_eq_ok_iff.mp hread, hparse⟩
    · rintro (⟨hmissing, rfl⟩ | ⟨text, hfile, hparse⟩)
      · exact load_of_isMissing hmissing
      · rw [load_of_readText_eq_ok (FileSystem.readText_eq_ok_iff.mpr hfile), hparse]
        rfl
  notText bytes hfile hbytes :=
    load_of_readText_eq_error (hfile.readText_eq_notText hbytes) (by decide)
  refused text e hfile he := by
    rw [load_of_readText_eq_ok (FileSystem.readText_eq_ok_iff.mpr hfile), he]
    rfl

/-- A text is no document, or it is read as its entries are, none of which has the key of another
one. -/
theorem parse_cases (text : String) : Toml.parse? text = none ∧ parse text = .error .malformed ∨
    ∃ entries, Toml.parse? text = some entries ∧ Assoc.Unique entries ∧
      parse text = ofEntries entries := by
  rw [parse]
  cases h : Toml.parse? text with
  | none => exact .inl ⟨rfl, rfl⟩
  | some entries => exact .inr ⟨entries, rfl, Toml.unique_of_parse? h, rfl⟩

/-- The document of entries that can be written is read as these entries are. -/
theorem parse_written {entries : Toml.Entries} (hunique : Assoc.Unique entries)
    (h : ∀ entry ∈ entries, Toml.IsWritable entry) :
    parse (Toml.written entries) = ofEntries entries := by
  rw [parse, Toml.parse?_written hunique h]

/-- Settings are read strictly, from entries, from texts and from files. Entries of strings and
booleans are read from the document in which they are written. -/
theorem read_strictly :
    (∀ entries : Toml.Entries, Assoc.Unique entries → AreReadStrictly entries) ∧
    (∀ text, Toml.parse? text = none ∧ parse text = .error .malformed ∨
      ∃ entries, Toml.parse? text = some entries ∧ Assoc.Unique entries ∧
        parse text = ofEntries entries) ∧
    (∀ entries, Assoc.Unique entries → (∀ entry ∈ entries, Toml.IsWritable entry) →
      parse (Toml.written entries) = ofEntries entries) ∧
    ∀ fs directory, AreLoadedStrictly fs directory :=
  ⟨fun _ => areReadStrictly, parse_cases, fun _ => parse_written, areLoadedStrictly⟩

/-- Two settings in either order give the same, a key in the middle that is none is the one that is
reported, a document with a setting in it is read, and a file that is no text means no defaults. -/
theorem read_strictly_of_offenders :
    ofEntries [("inherited-link-fallback", .boolean false), ("unresolved-topic", .text "error")] =
        .ok { inheritedLinkFallback := false, unresolvedTopic := .error } ∧
      ofEntries [("missing-resource", .text "hint"), ("colour", .number),
        ("unresolved-topic", .text "loud")] = .error (.unknownKey "colour") ∧
      parse (Toml.written [("unresolved-topic", .text "error")]) =
        .ok { unresolvedTopic := .error } ∧
      load { entries := [([".doclink.toml"], .file [0xFF])] } "" =
        .error (.unreadable .notText) := by
  obtain ⟨hentries, -, hwritten, hload⟩ := read_strictly
  refine ⟨?_, ?_, ?_, ?_⟩
  · have hread := hentries
      [("unresolved-topic", .text "error"), ("inherited-link-fallback", .boolean false)]
      (show ["unresolved-topic", "inherited-link-fallback"].Nodup by decide)
    exact (hread.reordered _ _ (.swap _ _ [])).mpr rfl
  · have hread := hentries
      [("missing-resource", .text "hint"), ("colour", .number), ("unresolved-topic", .text "loud")]
      (show ["missing-resource", "colour", "unresolved-topic"].Nodup by decide)
    have hunknown : Refuses ("colour", .number) (.unknownKey "colour") :=
      .key (by rintro ⟨⟩ <;> decide)
    have hbefore : IsSetting ("missing-resource", .text "hint") :=
      ⟨.missingResource, .severity .hint, rfl, .severity (by decide) (.text .hint)⟩
    exact (hread.refused _).mpr ⟨[("missing-resource", .text "hint")], ("colour", .number),
      [("unresolved-topic", .text "loud")], rfl, List.forall_mem_singleton.mpr hbefore,
      hunknown.not_isSetting, hunknown⟩
  · have hwritable : Toml.IsWritable ("unresolved-topic", .text "error") :=
      .text (by decide) (by decide)
    have hunique : Assoc.Unique [("unresolved-topic", Toml.Value.text "error")] :=
      List.nodup_singleton _
    rw [hwritten _ hunique (List.forall_mem_singleton.mpr hwritable)]
    rfl
  · refine (hload _ "").notText [0xFF] ⟨[".doclink.toml"], rfl, by decide⟩ fun text htext => ?_
    have hnone : Utf8.decode? [0xFF] = none := rfl
    rw [Utf8.decode?_eq_some_iff.mpr htext] at hnone
    cases hnone

end Settings

end TopicLinks
