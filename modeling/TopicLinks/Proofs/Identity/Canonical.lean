import TopicLinks.Pool.Session
import TopicLinks.Proofs.Identity.Readable
import TopicLinks.Proofs.Text.Percent

/-!
# Readable text is its own readable form

Escapes, gaps and blanks are what bringing a text into readable form removes, and readable text
has none of them. So the bundle, path and fragment of a readable identity lead back to its
address, through whichever pool it is interned again.
-/

namespace TopicLinks

namespace Text

/-- A character that stands for one byte and does not begin an escape. -/
def IsLiteral (c : Char) : Prop := c.toNat < 0x80 ∧ c ≠ '%'

/-- Literal text is its own decoding. -/
theorem Percent.decode_of_literal {text : List Char} (h : ∀ c ∈ text, IsLiteral c) :
    Percent.decode text = text :=
  Percent.decode_eq_self fun hmem => (h '%' hmem).2 rfl

end Text

namespace Readable

open Text

/-- Path characters are printable ASCII. -/
theorem toNat_of_isPathChar {c : Char} (h : isPathChar c = true) :
    0x20 < c.toNat ∧ c.toNat < 0x80 := by
  have hmarks : ∀ mark ∈ "-._~!$&'()*+,;=:@".toList,
      0x20 < mark.toNat ∧ mark.toNat < 0x80 := by simp
  rcases Bool.or_eq_true_iff.mp h with h | h
  · change (decide (c.val ≥ 65 ∧ c.val ≤ 90) ||
      (decide (c.val ≥ 97) && decide (c.val ≤ 122)) ||
        (decide (c.val ≥ 48) && decide (c.val ≤ 57))) = true at h
    simp only [Bool.or_eq_true, Bool.and_eq_true, decide_eq_true_eq, ge_iff_le,
      UInt32.le_iff_toNat_le] at h
    change ((65 ≤ c.toNat ∧ c.toNat ≤ 90) ∨ (97 ≤ c.toNat ∧ c.toNat ≤ 122)) ∨
      (48 ≤ c.toNat ∧ c.toNat ≤ 57) at h
    omega
  · exact hmarks c (List.contains_iff_mem.mp h)

/-- The text of a path is literal: the escape mark is no path character. -/
theorem isLiteral_of_isPathChar {c : Char} (h : isPathChar c = true) : IsLiteral c := by
  refine ⟨(toNat_of_isPathChar h).2, ?_⟩
  rintro rfl
  exact absurd h (by decide)

/-- Fragment characters are not blank. -/
theorem isBlank_of_isFragmentChar {c : Char} (h : isFragmentChar c = true) :
    isBlank c = false := by
  have hascii : 0x20 < c.toNat ∧ c.toNat < 0x80 := by
    rcases Bool.or_eq_true_iff.mp h with h | h
    · rcases Bool.or_eq_true_iff.mp h with h | h
      · exact toNat_of_isPathChar h
      · rw [eq_of_beq h]
        decide
    · rw [eq_of_beq h]
      decide
  simp only [isBlank, Bool.or_eq_false_iff, Bool.and_eq_false_iff, decide_eq_false_iff_not,
    beq_eq_false_iff_ne]
  omega

/-- Where there is no gap, nothing is collapsed. -/
theorem collapse_eq_self {text : List Char} (h : ∀ c ∈ text, isPathChar c = true) :
    collapse false text = text := by
  induction text with
  | nil => rfl
  | cons c rest ih =>
    rw [collapse, if_pos (h c List.mem_cons_self),
      ih fun d hd => h d (List.mem_cons_of_mem c hd)]

/-- A readable segment is its own readable form. -/
theorem IsSegment.segment_eq {s : String} (h : IsSegment s) : segment s.toList = s.toList := by
  obtain ⟨hne, hchars⟩ := h
  obtain ⟨c, hc⟩ := List.exists_mem_of_ne_nil _ hne
  have hany : s.toList.any isPathChar = true := List.any_eq_true.mpr ⟨c, hc, hchars c hc⟩
  rw [segment, if_neg (by simpa using hne), if_pos hany, collapse_eq_self hchars]

/-- A readable fragment is one word, or nothing, and keeps all its characters. -/
theorem IsFragment.fragment_eq {f : String} (h : IsFragment f) : fragment f = f := by
  have hword : f.toList.splitOnP isBlank = [f.toList] :=
    List.splitOnP_eq_singleton fun c hc => isBlank_of_isFragmentChar (h c hc)
  have hkept : f.toList.filter isFragmentChar = f.toList := List.filter_eq_self.mpr h
  apply String.toList_injective
  rw [fragment, words, hword, String.toList_ofList]
  cases hempty : f.toList.isEmpty with
  | true =>
    rw [List.isEmpty_iff.mp hempty]
    rfl
  | false => simp [hempty, hkept]

end Readable

namespace Place

/-- The characters of a readable path are slashes and path characters. -/
theorem IsReadable.mem_path {place : Place} (h : place.IsReadable) {c : Char}
    (hc : c ∈ place.path.toList) : c = '/' ∨ Readable.isPathChar c = true := by
  rw [path, String.toList_ofList, List.mem_cons] at hc
  rcases hc with rfl | hc
  · exact Or.inl rfl
  · rcases Readable.mem_intercalate hc with hc | ⟨part, hpart, hc⟩
    · exact Or.inl (List.mem_singleton.mp hc)
    · obtain ⟨s, hs, rfl⟩ := List.mem_map.mp hpart
      exact Or.inr ((h.segments s hs).2 c hc)

/-- The segments of the path of a readable place are its segments. -/
theorem IsReadable.segments_path {place : Place} (h : place.IsReadable) :
    Readable.segments place.path = place.segments := by
  have hliteral : ∀ c ∈ place.path.toList, Text.IsLiteral c := by
    intro c hc
    rcases h.mem_path hc with rfl | hchar
    · exact ⟨by decide, by decide⟩
    · exact Readable.isLiteral_of_isPathChar hchar
  rw [Readable.segments, Text.Percent.decode_of_literal hliteral, h.pieces_path, List.map_map]
  refine (List.map_congr_left fun s hs => ?_).trans (List.map_id _)
  simp only [Function.comp_apply, (h.segments s hs).segment_eq, String.ofList_toList, id_eq]

/-- The fragment of a readable place is its own readable form, if there is one. -/
theorem IsReadable.map_fragment {place : Place} (h : place.IsReadable) :
    place.fragment.map Readable.fragment = place.fragment := by
  cases hplace : place.fragment with
  | none => rfl
  | some f => rw [Option.map_some, (h.fragment f hplace).fragment_eq]

/-- The path and the fragment of a readable place lead back to it. -/
theorem IsReadable.ofText_path {place : Place} (h : place.IsReadable) :
    ofText place.path place.fragment = place := by
  rw [ofText, h.segments_path, h.map_fragment]

end Place

/-- Interning the parts of a readable identity again, in any languages, gives its address in these
languages. -/
theorem Identity.IsReadable.intern?_parts {identity : Identity} (h : identity.IsReadable)
    {languages : List Language} (hlanguages : languages ≠ []) :
    intern? identity.bundle identity.path identity.fragment languages =
      some ⟨identity.address, .ofList languages⟩ := by
  have hplace : Place.ofText identity.address.place.path identity.address.place.fragment =
      identity.address.place := Place.IsReadable.ofText_path h
  have hnone : languages.isEmpty = false := by simpa using hlanguages
  simp only [intern?, hnone, Bool.false_eq_true, if_false, ofText, Address.ofText, bundle, path,
    fragment, hplace]

/-- Through every pool, whatever is in use there, the parts of a readable identity are interned as
its address. -/
theorem Session.prepare_intern_parts {s : Session} {pool : String} {table : TableId}
    (hpool : s.pool? pool = some table) {identity : Identity} (h : identity.IsReadable)
    (language : Language) :
    ∃ handle next, s.prepare (.intern pool identity.bundle identity.path identity.fragment
        [language]) = .ok (handle, next) ∧
      handle.identity = identity.inLanguage language := by
  refine ⟨(s.obtain table (identity.inLanguage language)).1,
    (s.obtain table (identity.inLanguage language)).2, ?_, ?_⟩
  · simp only [prepare, requirePool, hpool, h.intern?_parts (List.cons_ne_nil language [])]
    rfl
  · unfold obtain
    split
    · rfl
    · rfl

end TopicLinks
