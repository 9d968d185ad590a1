import Mathlib.Data.List.TakeWhile
import TopicLinks.Proofs.Toml.Keys

/-!
# Written TOML documents

Entries whose values are strings and booleans can be written as a document, one on each line. The
document is read back as these entries, in their order: each part of a line is read up to its own
end, whatever stands behind it, and a line adds its entry behind those of the lines before.
-/

namespace TopicLinks.Toml

/-! ### Writing -/

/-- A text between quotation marks. -/
def quoted (text : String) : List Char := '\"' :: (text.toList ++ ['\"'])

/-- A text needs no escapes between quotation marks. -/
def IsPlain (text : String) : Prop := ∀ c ∈ text.toList, isBasicChar c = true

instance (text : String) : Decidable (IsPlain text) :=
  decidable_of_iff (text.toList.all isBasicChar = true) List.all_eq_true

/-- A key as it is, if it is a bare one, or between quotation marks. -/
def writtenKey (key : String) : List Char :=
  if key.toList ≠ [] ∧ key.toList.all isBareChar then key.toList else quoted key

/-- A string or a boolean as it is written. Nothing else is. -/
def writtenValue? : Value → Option (List Char)
  | .text text => some (quoted text)
  | .boolean value => some (toString value).toList
  | _ => none

/-- The line of an entry. -/
def writtenLine (entry : String × Value) : List Char :=
  writtenKey entry.1 ++ " = ".toList ++ (writtenValue? entry.2).getD [] ++ ['\n']

/-- The document of entries, one line for each. -/
def written (entries : Entries) : String := .ofList (entries.flatMap writtenLine)

/-- An entry can be written: its value is a string or a boolean, and no text needs escapes. -/
inductive IsWritable : String × Value → Prop
  /-- The value is a string. -/
  | text {key text : String} (hkey : IsPlain key) (h : IsPlain text) : IsWritable (key, .text text)
  /-- The value is a boolean. -/
  | boolean {key : String} (hkey : IsPlain key) (value : Bool) : IsWritable (key, .boolean value)

/-! ### Texts -/

/-- A character that needs no escape stands for itself. -/
theorem basic?_cons {c : Char} (h : isBasicChar c = true) (rest : List Char) :
    basic? (c :: rest) = prepend c (basic? rest) := by
  rw [basic?.eq_def]
  split
  all_goals simp_all [isBasicChar]

/-- A plain text is read up to its quotation mark. -/
theorem basic?_append {text : List Char} (h : ∀ c ∈ text, isBasicChar c = true)
    (rest : List Char) : basic? (text ++ '\"' :: rest) = some (text, rest) := by
  induction text with
  | nil => rfl
  | cons c text ih =>
    obtain ⟨hc, htext⟩ := List.forall_mem_cons.mp h
    rw [List.cons_append, basic?_cons hc, ih htext]
    rfl

theorem quoted_append (text : String) (rest : List Char) :
    quoted text ++ rest = '\"' :: (text.toList ++ '\"' :: rest) := by
  simp [quoted]

/-- A plain text on one line is no text over several lines. -/
theorem string?_quoted {text : String} (h : IsPlain text) (rest : List Char) :
    string? (quoted text ++ '\n' :: rest) = some (text.toList, '\n' :: rest) := by
  have hread := basic?_append h ('\n' :: rest)
  rw [quoted_append]
  cases htext : text.toList with
  | nil => rfl
  | cons c more =>
    rw [htext] at hread
    have hc : c ≠ '\"' := by
      rintro rfl
      have hquote := h '\"' (by simp [htext])
      cases hquote
    rw [List.cons_append, string?.eq_def]
    split
    all_goals simp_all

/-! ### Keys -/

theorem simpleKey?_quoted {key : String} (h : IsPlain key) (rest : List Char) :
    simpleKey? (quoted key ++ rest) = some (key, rest) := by
  have hread : simpleKey? ('\"' :: (key.toList ++ '\"' :: rest)) =
      (basic? (key.toList ++ '\"' :: rest)).map fun read => (.ofList read.1, read.2) := rfl
  simp only [quoted_append, hread, basic?_append h, Option.map_some, String.ofList_toList]

theorem simpleKey?_bare {key : String} (hne : key.toList ≠ [])
    (h : ∀ c ∈ key.toList, isBareChar c = true) (rest : List Char) :
    simpleKey? (key.toList ++ ' ' :: rest) = some (key, ' ' :: rest) := by
  have htake : (key.toList ++ ' ' :: rest).takeWhile isBareChar = key.toList := by
    rw [List.takeWhile_append_of_pos h]
    simp [isBareChar]
  have hdrop : (key.toList ++ ' ' :: rest).dropWhile isBareChar = ' ' :: rest := by
    rw [List.dropWhile_append_of_pos h]
    simp [isBareChar]
  have hfirst : ∀ mark more, key.toList ++ ' ' :: rest = mark :: more → isBareChar mark = true := by
    intro mark more heq
    obtain ⟨c, others, hkey⟩ := List.exists_cons_of_ne_nil hne
    rw [hkey, List.cons_append] at heq
    exact List.head_eq_of_cons_eq heq ▸ h c (by simp [hkey])
  rw [simpleKey?.eq_def]
  split
  next heq => cases hfirst _ _ heq
  next heq => cases hfirst _ _ heq
  next =>
    have hnonempty : key.toList.isEmpty = false := by simpa using hne
    simp only [htake, hdrop, hnonempty, Bool.false_eq_true, if_false, String.ofList_toList]

/-- A written key begins with a quotation mark or a character of bare keys. -/
theorem writtenKey_eq_cons (key : String) :
    ∃ c rest, writtenKey key = c :: rest ∧ (c = '\"' ∨ isBareChar c = true) := by
  unfold writtenKey
  split
  next h =>
    obtain ⟨c, rest, hkey⟩ := List.exists_cons_of_ne_nil h.1
    exact ⟨c, rest, hkey, Or.inr (List.all_eq_true.mp h.2 c (by simp [hkey]))⟩
  next => exact ⟨_, _, rfl, Or.inl rfl⟩

/-- A written key is read up to the blank behind it. -/
theorem simpleKey?_writtenKey {key : String} (h : IsPlain key) (rest : List Char) :
    simpleKey? (writtenKey key ++ ' ' :: rest) = some (key, ' ' :: rest) := by
  unfold writtenKey
  split
  next hbare => exact simpleKey?_bare hbare.1 (List.all_eq_true.mp hbare.2) rest
  next => exact simpleKey?_quoted h _

/-- Nothing is skipped before a character that is no blank. -/
theorem skipBlanks_cons {c : Char} (h : isBlank c = false) (rest : List Char) :
    skipBlanks (c :: rest) = c :: rest := by
  simp [skipBlanks, h]

theorem skipBlanks_writtenKey (key : String) (rest : List Char) :
    skipBlanks (writtenKey key ++ rest) = writtenKey key ++ rest := by
  obtain ⟨c, more, hkey, hc⟩ := writtenKey_eq_cons key
  have hblank : isBlank c = false := by
    simp only [isBlank, Bool.or_eq_false_iff, beq_eq_false_iff_ne]
    constructor
    all_goals
      rintro rfl
      rcases hc with hc | hc
      all_goals cases hc
  rw [hkey, List.cons_append, skipBlanks_cons hblank]

theorem key?_writtenKey {key : String} (h : IsPlain key) (rest : List Char) :
    key? (writtenKey key ++ ' ' :: '=' :: rest) = some (([], key), '=' :: rest) := by
  have hparts : keyParts? (depthLimit - 1) (writtenKey key ++ ' ' :: '=' :: rest) =
      some ([key], '=' :: rest) := by
    change keyParts? (78 + 1) _ = _
    rw [keyParts?, skipBlanks_writtenKey, simpleKey?_writtenKey h]
    rfl
  rw [key?, hparts]
  rfl

/-! ### Values and lines -/

/-- What is written of a value is read as the value. -/
theorem value?_written {entry : String × Value} (h : IsWritable entry) (fuel depth : Nat)
    (rest : List Char) :
    value? (fuel + 1) depth ((writtenValue? entry.2).getD [] ++ '\n' :: rest) =
      some (entry.2, '\n' :: rest) := by
  cases h with
  | text hkey h =>
    rename_i key text
    have hread : value? (fuel + 1) depth (quoted text ++ '\n' :: rest) =
        (string? (quoted text ++ '\n' :: rest)).map fun read =>
          (.text (.ofList read.1), read.2) := rfl
    simp only [writtenValue?, Option.getD_some, hread, string?_quoted h, Option.map_some,
      String.ofList_toList]
  | boolean hkey value => cases value <;> rfl

theorem IsWritable.isPlain {entry : String × Value} (h : IsWritable entry) : IsPlain entry.1 := by
  cases h with
  | text hkey | boolean hkey => exact hkey

/-- An entry whose key is not taken comes last. -/
theorem add_of_not_mem {draft : Draft} {entry : String × Value}
    (h : entry.1 ∉ draft.current.map (·.1)) :
    draft.add [] entry.1 entry.2 = some { draft with current := draft.current ++ [entry] } := by
  have hfree : lookup? draft.current entry.1 = none := by
    rw [lookup?, Option.map_eq_none_iff, List.find?_eq_none]
    intro other hother hkey
    exact h (List.mem_map.mpr ⟨other, hother, eq_of_beq hkey⟩)
  have hadd : addEntry entry.1 entry.2 draft.current = some (draft.current ++ [entry]) := by
    rw [addEntry, hfree]
    rfl
  have hdotted : addDotted [] entry.1 entry.2 draft.current =
      ((addEntry entry.1 entry.2 draft.current).map (·, ())).map (·.1) := rfl
  rw [Draft.add, hdotted, hadd]
  rfl

/-- The line of an entry as its parts, with another text behind it. -/
theorem writtenLine_append (entry : String × Value) (rest : List Char) :
    writtenLine entry ++ rest = writtenKey entry.1 ++
      ' ' :: '=' :: ' ' :: ((writtenValue? entry.2).getD [] ++ '\n' :: rest) := by
  simp [writtenLine]

/-- The first character of a line is no mark that begins another kind of line. -/
theorem first_of_writtenLine {entry : String × Value} {rest others : List Char} {c : Char}
    (h : writtenLine entry ++ rest = c :: others) : c = '\"' ∨ isBareChar c = true := by
  obtain ⟨first, more, hkey, hfirst⟩ := writtenKey_eq_cons entry.1
  rw [writtenLine_append, hkey, List.cons_append] at h
  exact List.head_eq_of_cons_eq h ▸ hfirst

theorem entry?_writtenLine {entry : String × Value} (h : IsWritable entry) (rest : List Char) :
    entry? (writtenLine entry ++ rest) = some ((([], entry.1), entry.2), '\n' :: rest) := by
  let value := (writtenValue? entry.2).getD [] ++ '\n' :: rest
  have hblanks : skipBlanks (' ' :: value) = value := by
    cases h with
    | text hkey h => rfl
    | boolean hkey flag => cases flag <;> rfl
  have hvalue : value? (2 * (' ' :: value).length + 2) 0 value = some (entry.2, '\n' :: rest) :=
    value?_written h _ 0 rest
  rw [writtenLine_append, entry?, key?_writtenKey h.isPlain]
  change (do
    let read ← value? (2 * (' ' :: value).length + 2) 0 (skipBlanks (' ' :: value))
    some ((([], entry.1), read.1), read.2)) = _
  rw [hblanks, hvalue]
  rfl

/-- The line of an entry is read up to its end, and the entry comes last. -/
theorem line?_writtenLine {entry : String × Value} (h : IsWritable entry) {draft : Draft}
    (hkey : entry.1 ∉ draft.current.map (·.1)) (rest : List Char) :
    line? draft (writtenLine entry ++ rest) =
      some ({ draft with current := draft.current ++ [entry] }, rest) := by
  have hread : entryLine? draft (writtenLine entry ++ rest) =
      some ({ draft with current := draft.current ++ [entry] }, rest) := by
    rw [entryLine?, entry?_writtenLine h]
    change (do
      let draft ← draft.add [] entry.1 entry.2
      some (draft, rest)) = _
    rw [add_of_not_mem hkey]
    rfl
  rw [← hread, line?.eq_def]
  split
  case h_6 => rfl
  all_goals
    rename_i heq
    rcases first_of_writtenLine heq with hmark | hmark
    all_goals cases hmark

/-- Written lines are read one after the other. Each takes one unit of fuel, and so does the end. -/
theorem lines?_written {entries : Entries} (h : ∀ entry ∈ entries, IsWritable entry)
    {draft : Draft} (hunique : Assoc.Unique (draft.current ++ entries)) {fuel : Nat}
    (hfuel : entries.length < fuel) :
    lines? fuel draft (entries.flatMap writtenLine) =
      some { draft with current := draft.current ++ entries } := by
  induction entries generalizing draft fuel with
  | nil =>
    obtain ⟨fuel, rfl⟩ := Nat.exists_eq_succ_of_ne_zero (Nat.ne_of_gt hfuel)
    rw [List.append_nil]
    rfl
  | cons entry rest ih =>
    obtain ⟨fuel, rfl⟩ := Nat.exists_eq_succ_of_ne_zero (Nat.ne_of_gt (Nat.zero_lt_of_lt hfuel))
    obtain ⟨hentry, hrest⟩ := List.forall_mem_cons.mp h
    have hkey : entry.1 ∉ draft.current.map (·.1) := by
      rw [Assoc.Unique, List.map_append, List.nodup_append] at hunique
      exact fun hmem => hunique.2.2 _ hmem _ List.mem_cons_self rfl
    have hblanks : skipBlanks (writtenLine entry ++ rest.flatMap writtenLine) =
        writtenLine entry ++ rest.flatMap writtenLine := by
      rw [writtenLine_append, skipBlanks_writtenKey]
    have hnext : lines? fuel { draft with current := draft.current ++ [entry] }
        (rest.flatMap writtenLine) =
          some { draft with current := draft.current ++ [entry] ++ rest } :=
      ih hrest (by simpa using hunique) (Nat.lt_of_succ_lt_succ hfuel)
    rw [List.flatMap_cons, lines?, hblanks]
    split
    next hnil => exact absurd hnil (List.append_ne_nil_of_left_ne_nil (by simp [writtenLine]) _)
    next =>
      rw [line?_writtenLine hentry hkey]
      change lines? fuel _ _ = _
      rw [hnext, List.append_assoc]
      rfl

/-- No byte order mark begins a document that is written. -/
theorem dropMark_written (entries : Entries) :
    dropMark (entries.flatMap writtenLine) = entries.flatMap writtenLine := by
  cases entries with
  | nil => rfl
  | cons entry rest =>
    cases hline : writtenLine entry ++ rest.flatMap writtenLine with
    | nil => rw [List.flatMap_cons, hline, dropMark]
    | cons c others =>
      have hmark : c.toNat ≠ 0xFEFF := by
        intro hcode
        obtain rfl : Char.ofNat 0xFEFF = c := hcode ▸ Char.ofNat_toNat c
        rcases first_of_writtenLine hline with hc | hc
        all_goals exact absurd hc (by decide)
      rw [List.flatMap_cons, hline, dropMark, if_neg hmark]

/-- A document has more characters than lines. -/
theorem length_le_written (entries : Entries) :
    entries.length ≤ (entries.flatMap writtenLine).length := by
  induction entries with
  | nil => exact Nat.le_refl 0
  | cons entry rest ih =>
    rw [List.flatMap_cons, List.length_append, List.length_cons, writtenLine, List.length_append,
      List.length_singleton]
    omega

/-- A document of entries that can be written is read as these entries. -/
theorem parse?_written {entries : Entries} (hunique : Assoc.Unique entries)
    (h : ∀ entry ∈ entries, IsWritable entry) : parse? (written entries) = some entries := by
  have hall : Assoc.Unique (Draft.empty.current ++ entries) := hunique
  have hread : lines? ((entries.flatMap writtenLine).length + 1) .empty
      (entries.flatMap writtenLine) = some { Draft.empty with current := entries } :=
    lines?_written h hall (Nat.lt_succ_of_le (length_le_written entries))
  rw [parse?, written, String.toList_ofList, dropMark_written]
  change (do
    let draft ← lines? ((entries.flatMap writtenLine).length + 1) .empty
      (entries.flatMap writtenLine)
    draft.close) = _
  rw [hread]
  rfl

end TopicLinks.Toml
