/-!
# Association lists with one entry per key

A key is bound at most once: binding a key again replaces its entry. The order of the
entries carries no meaning.
-/

namespace TopicLinks.Assoc

variable {κ : Type} {α : Type} [DecidableEq κ]

/-- The value bound to a key. -/
def get? (entries : List (κ × α)) (key : κ) : Option α :=
  match entries with
  | [] => none
  | entry :: rest => if entry.1 = key then some entry.2 else get? rest key

/-- Remove the entry of a key. -/
def erase (entries : List (κ × α)) (key : κ) : List (κ × α) :=
  entries.filter (fun entry => entry.1 ≠ key)

/-- Bind a key to a value. -/
def set (entries : List (κ × α)) (key : κ) (value : α) : List (κ × α) :=
  (key, value) :: erase entries key

@[simp] theorem get?_erase_self (entries : List (κ × α)) (key : κ) :
    get? (erase entries key) key = none := by
  induction entries with
  | nil => rfl
  | cons entry rest ih =>
    by_cases h : entry.1 = key
    · simpa [erase, h] using ih
    · have ih' : get? (rest.filter fun entry => entry.1 ≠ key) key = none := ih
      simp only [erase, List.filter_cons, h, ne_eq, not_false_eq_true, decide_true, if_true, get?,
        if_false]
      simpa using ih'

theorem get?_erase_of_ne (entries : List (κ × α)) {key other : κ} (h : other ≠ key) :
    get? (erase entries key) other = get? entries other := by
  induction entries with
  | nil => rfl
  | cons entry rest ih =>
    have ih' : get? (rest.filter fun entry => !decide (entry.1 = key)) other = get? rest other := by
      simpa [erase] using ih
    by_cases hkey : entry.1 = key
    · have hother : ¬ entry.1 = other := fun e => h (e.symm.trans hkey)
      simp [erase, get?, hkey, ih', Ne.symm h]
    · by_cases hother : entry.1 = other
      · simp [erase, get?, hother, h]
      · simp [erase, get?, hkey, hother, ih']

@[simp] theorem get?_set_self (entries : List (κ × α)) (key : κ) (value : α) :
    get? (set entries key value) key = some value := by
  simp [set, get?]

theorem get?_set_of_ne (entries : List (κ × α)) {key other : κ} (value : α) (h : other ≠ key) :
    get? (set entries key value) other = get? entries other := by
  simp [set, get?, Ne.symm h, get?_erase_of_ne entries h]

theorem get?_set (entries : List (κ × α)) (key other : κ) (value : α) :
    get? (set entries key value) other =
      if other = key then some value else get? entries other := by
  by_cases h : other = key
  · rw [if_pos h, h, get?_set_self]
  · rw [if_neg h, get?_set_of_ne entries value h]

/-- Keeping only some keys hides exactly the others. -/
theorem get?_filter (entries : List (κ × α)) (keep : κ → Bool) (key : κ) :
    get? (entries.filter (fun entry => keep entry.1)) key =
      if keep key then get? entries key else none := by
  induction entries with
  | nil => simp [get?]
  | cons entry rest ih =>
    by_cases hkey : entry.1 = key
    · subst hkey
      by_cases hkeep : keep entry.1 = true
      · simp [get?, hkeep]
      · simpa [get?, hkeep] using ih
    · by_cases hkeep : keep entry.1 = true
      · simpa [List.filter_cons, get?, hkeep, hkey] using ih
      · simpa [List.filter_cons, get?, hkeep, hkey] using ih

/-- A value that is found is in the list. -/
theorem mem_of_get? {entries : List (κ × α)} {key : κ} {value : α}
    (h : get? entries key = some value) : (key, value) ∈ entries := by
  induction entries with
  | nil => cases h
  | cons entry rest ih =>
    unfold get? at h
    split at h
    · rename_i hkey
      cases h
      exact hkey ▸ List.mem_cons_self
    · exact List.mem_cons_of_mem _ (ih h)

theorem isSome_get?_of_mem {entries : List (κ × α)} {entry : κ × α} (h : entry ∈ entries) :
    (get? entries entry.1).isSome = true := by
  induction entries with
  | nil => cases h
  | cons first rest ih =>
    unfold get?
    split
    · rfl
    · rename_i hne
      rcases List.mem_cons.mp h with rfl | h
      · exact absurd rfl hne
      · exact ih h

theorem mem_erase {entries : List (κ × α)} {key : κ} {entry : κ × α} :
    entry ∈ erase entries key ↔ entry ∈ entries ∧ entry.1 ≠ key := by
  simp [erase]

theorem mem_set {entries : List (κ × α)} {key : κ} {value : α} {entry : κ × α} :
    entry ∈ set entries key value ↔ entry = (key, value) ∨ entry ∈ entries ∧ entry.1 ≠ key := by
  simp [set, mem_erase]

/-- No key is bound twice. -/
def Unique (entries : List (κ × α)) : Prop := (entries.map (·.1)).Nodup

theorem Unique.erase {entries : List (κ × α)} (h : Unique entries) (key : κ) :
    Unique (erase entries key) :=
  h.sublist (List.filter_sublist.map _)

theorem Unique.set {entries : List (κ × α)} (h : Unique entries) (key : κ) (value : α) :
    Unique (set entries key value) := by
  refine List.nodup_cons.mpr ⟨fun hmem => ?_, h.erase key⟩
  obtain ⟨entry, hentry, hkey⟩ := List.mem_map.mp hmem
  exact (mem_erase.mp hentry).2 hkey

/-- When no key is bound twice, looking up finds exactly the entries. -/
theorem Unique.get?_eq_some_iff {entries : List (κ × α)} (h : Unique entries) {key : κ}
    {value : α} : get? entries key = some value ↔ (key, value) ∈ entries := by
  refine ⟨mem_of_get?, fun hmem => ?_⟩
  induction entries with
  | nil => cases hmem
  | cons entry rest ih =>
    obtain ⟨hfirst, hrest⟩ := List.nodup_cons.mp h
    rcases List.mem_cons.mp hmem with rfl | hmem
    · simp [get?]
    · have hne : entry.1 ≠ key := by
        intro hkey
        exact hfirst (List.mem_map.mpr ⟨(key, value), hmem, hkey.symm⟩)
      rw [get?, if_neg hne]
      exact ih hrest hmem

end TopicLinks.Assoc
