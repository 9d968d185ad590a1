import TopicLinks.Identity

/-!
# Readable places

Whatever text a path and a fragment are given as, the place made from them is readable: its
segments are nonempty and hold path characters only, and its fragment holds fragment
characters only. On readable places the path as text determines the segments.
-/

namespace TopicLinks

namespace Readable

/-- A slash separates segments, so it never occurs in one. -/
theorem isPathChar_slash : isPathChar '/' = false := by decide

/-- A segment of a readable path: at least one character, and path characters only. -/
def IsSegment (s : String) : Prop := s.toList ≠ [] ∧ ∀ c ∈ s.toList, isPathChar c = true

/-- A readable fragment has fragment characters only. It may be empty. -/
def IsFragment (s : String) : Prop := ∀ c ∈ s.toList, isFragmentChar c = true

/-- No segment holds the separator. -/
theorem IsSegment.slash_not_mem {s : String} (h : IsSegment s) : '/' ∉ s.toList := by
  intro hmem
  have hslash := h.2 '/' hmem
  rw [isPathChar_slash] at hslash
  cases hslash

/-- The underscore written for a run of other characters is itself a path character, so
collapsing leaves path characters only. -/
theorem isPathChar_of_mem_collapse {inGap : Bool} {text : List Char} {c : Char}
    (h : c ∈ collapse inGap text) : isPathChar c = true := by
  induction text generalizing inGap with
  | nil => simp [collapse] at h
  | cons d rest ih =>
    unfold collapse at h
    split at h
    · rename_i hd
      rcases List.mem_cons.mp h with rfl | h
      · exact hd
      · exact ih h
    · split at h
      · exact ih h
      · rcases List.mem_cons.mp h with rfl | h
        · decide
        · exact ih h

/-- Outside a run of other characters, collapsing a nonempty text leaves something. -/
theorem collapse_ne_nil {text : List Char} (h : text ≠ []) : collapse false text ≠ [] := by
  cases text with
  | nil => exact absurd rfl h
  | cons c rest =>
    unfold collapse
    split <;> simp

/-- The readable form of a nonempty text is a segment. -/
theorem isSegment_segment {text : List Char} (h : text ≠ []) :
    IsSegment (.ofList (segment text)) := by
  have hempty : text.isEmpty = false := by simpa using h
  simp only [IsSegment, String.toList_ofList, segment, hempty, Bool.false_eq_true, if_false]
  split
  · exact ⟨collapse_ne_nil h, fun c hc => isPathChar_of_mem_collapse hc⟩
  · have hchars : placeholder.all isPathChar = true := by decide
    exact ⟨by decide, List.all_eq_true.mp hchars⟩

/-- Every segment of a path as given is readable. -/
theorem isSegment_of_mem_segments {path s : String} (h : s ∈ segments path) : IsSegment s := by
  obtain ⟨piece, hpiece, rfl⟩ := List.mem_map.mp h
  have hne : piece ≠ [] := by simpa using (List.mem_filter.mp hpiece).2
  exact isSegment_segment hne

/-- What is written between the parts or stands in one of them makes up the whole. -/
theorem mem_intercalate {separator : List Char} {parts : List (List Char)} {c : Char}
    (h : c ∈ separator.intercalate parts) : c ∈ separator ∨ ∃ part ∈ parts, c ∈ part := by
  induction parts with
  | nil => simp at h
  | cons part rest ih =>
    cases rest with
    | nil => exact Or.inr ⟨part, by simp, by simpa using h⟩
    | cons next rest =>
      rw [List.intercalate_cons_cons] at h
      simp only [List.mem_append] at h
      rcases h with (h | h) | h
      · exact Or.inr ⟨part, by simp, h⟩
      · exact Or.inl h
      · rcases ih h with h | ⟨other, hother, h⟩
        · exact Or.inl h
        · exact Or.inr ⟨other, List.mem_cons_of_mem _ hother, h⟩

/-- The readable form of a text has fragment characters only: the hyphen between its words
is one itself. -/
theorem isFragment_fragment (text : String) : IsFragment (fragment text) := by
  intro c hc
  rw [fragment, String.toList_ofList] at hc
  rcases mem_intercalate hc with hc | ⟨word, hword, hc⟩
  · rw [List.mem_singleton.mp hc]
    decide
  · obtain ⟨original, _, rfl⟩ := List.mem_map.mp (List.mem_filter.mp hword).1
    exact (List.mem_filter.mp hc).2

/-- Cutting the text of a path at its slashes gives its segments back. -/
theorem pieces_intercalate {parts : List (List Char)}
    (h : ∀ part ∈ parts, part ≠ [] ∧ '/' ∉ part) :
    pieces ('/' :: ['/'].intercalate parts) = parts := by
  have hcut : ('/' :: ['/'].intercalate parts).splitOn '/' =
      [] :: (['/'].intercalate parts).splitOn '/' :=
    List.splitOn_append_cons_self_of_not_mem List.not_mem_nil (['/'].intercalate parts)
  have hkept : parts.filter (!·.isEmpty) = parts := by
    apply List.filter_eq_self.mpr
    intro part hpart
    simpa using (h part hpart).1
  unfold pieces
  rw [hcut]
  cases parts with
  | nil => simp
  | cons part rest =>
    rw [List.splitOn_intercalate '/' (fun part hpart => (h part hpart).2) (by simp)]
    simpa using hkept

end Readable

namespace Place

/-- A place in readable form. -/
structure IsReadable (place : Place) : Prop where
  /-- The segments are readable. -/
  segments : ∀ s ∈ place.segments, Readable.IsSegment s
  /-- The fragment is readable, if there is one. -/
  fragment : ∀ f ∈ place.fragment, Readable.IsFragment f

/-- A fragment as given is readable once it is in readable form. -/
theorem readable_fragment (fragment : Option String) :
    ∀ f ∈ fragment.map Readable.fragment, Readable.IsFragment f := by
  intro f hf
  obtain ⟨text, _, rfl⟩ := Option.map_eq_some_iff.mp hf
  exact Readable.isFragment_fragment text

/-- The place of a path and a fragment as given is readable. -/
theorem readable_ofText (path : String) (fragment : Option String) :
    (ofText path fragment).IsReadable :=
  ⟨fun _ hs => Readable.isSegment_of_mem_segments hs, readable_fragment fragment⟩

/-- The pieces of the text of a readable path are its segments. -/
theorem IsReadable.pieces_path {place : Place} (h : place.IsReadable) :
    Readable.pieces place.path.toList = place.segments.map String.toList := by
  rw [path, String.toList_ofList]
  apply Readable.pieces_intercalate
  intro part hpart
  obtain ⟨s, hs, rfl⟩ := List.mem_map.mp hpart
  exact ⟨(h.segments s hs).1, (h.segments s hs).slash_not_mem⟩

/-- Readable places with one path and one fragment are the same. -/
theorem IsReadable.eq_of_path_eq {p q : Place} (hp : p.IsReadable) (hq : q.IsReadable)
    (hpath : p.path = q.path) (hfragment : p.fragment = q.fragment) : p = q := by
  have hmap : p.segments.map String.toList = q.segments.map String.toList := by
    rw [← hp.pieces_path, ← hq.pieces_path, hpath]
  have hsegments : p.segments = q.segments :=
    (List.map_inj_right fun _ _ h => String.toList_injective h).mp hmap
  cases p
  cases q
  simp_all

end Place

/-- What tells topics apart: the bundle, the path as text, and the fragment. -/
structure Key where
  /-- The identifier of the bundle. -/
  bundle : String
  /-- The path as text. -/
  path : String
  /-- The fragment, if there is one. -/
  fragment : Option String
  deriving DecidableEq

namespace Address

/-- The key of an address. -/
def key (address : Address) : Key := ⟨address.bundle, address.place.path, address.place.fragment⟩

/-- An address is readable when its place is. Nothing is asked of the bundle. -/
def IsReadable (address : Address) : Prop := address.place.IsReadable

/-- Readable addresses are told apart by their keys. -/
theorem IsReadable.key_inj {a b : Address} (ha : a.IsReadable) (hb : b.IsReadable) :
    a.key = b.key ↔ a = b := by
  constructor
  · intro h
    obtain ⟨bundle, place⟩ := a
    obtain ⟨bundle', place'⟩ := b
    obtain ⟨hbundle, hpath, hfragment⟩ := Key.mk.inj h
    have hplace : place = place' := Place.IsReadable.eq_of_path_eq ha hb hpath hfragment
    rw [mk.injEq]
    exact ⟨hbundle, hplace⟩
  · rintro rfl
    rfl

end Address

namespace Identity

/-- The key of an identity. Its languages are no part of it. -/
def key (identity : Identity) : Key := ⟨identity.bundle, identity.path, identity.fragment⟩

/-- An identity is readable when its address is. -/
def IsReadable (identity : Identity) : Prop := identity.address.IsReadable

/-- Every identity that can be asked for by its parts is readable. -/
theorem readable_ofText (bundle path : String) (fragment : Option String)
    (languages : LanguageSet) : (ofText bundle path fragment languages).IsReadable :=
  Place.readable_ofText path fragment

/-- Interning gives a readable identity, and fails exactly without a language. -/
theorem readable_of_intern? {bundle path : String} {fragment : Option String}
    {languages : List Language} {identity : Identity}
    (h : intern? bundle path fragment languages = some identity) : identity.IsReadable := by
  unfold intern? at h
  split at h
  · cases h
  · cases h
    exact readable_ofText bundle path fragment _

/-- Another fragment keeps an identity readable. -/
theorem IsReadable.withFragment {identity : Identity} (h : identity.IsReadable)
    (fragment : Option String) : (identity.withFragment fragment).IsReadable := by
  have hplace : identity.address.place.IsReadable := h
  exact ⟨hplace.segments, Place.readable_fragment fragment⟩

/-- Segments appended to a readable identity are readable as well. -/
theorem IsReadable.below? {identity below : Identity} (h : identity.IsReadable) {path : String}
    {fragment : Option String} (hfragment : ∀ f ∈ fragment, Readable.IsFragment f)
    (hbelow : identity.below? path fragment = some below) : below.IsReadable := by
  have hplace : identity.address.place.IsReadable := h
  have hsegments : ∀ s ∈ Readable.segments path, Readable.IsSegment s :=
    fun _ hs => Readable.isSegment_of_mem_segments hs
  unfold Identity.below? at hbelow
  split at hbelow
  · cases hbelow
  · cases hbelow
    refine ⟨fun s hs => ?_, hfragment⟩
    rcases List.mem_append.mp hs with hs | hs
    · exact hplace.segments s hs
    · exact hsegments s hs

/-- A path appended to a readable identity gives a readable one. -/
theorem IsReadable.appending? {identity below : Identity} (h : identity.IsReadable) {path : String}
    (hbelow : identity.appending? path = some below) : below.IsReadable :=
  h.below? (by simp) hbelow

/-- A link appended to a readable identity gives a readable one. -/
theorem IsReadable.appendingLink? {identity below : Identity} (h : identity.IsReadable)
    {link : AuthoredLink} (hbelow : identity.appendingLink? link = some below) :
    below.IsReadable :=
  h.below? (Place.readable_fragment link.fragment) hbelow

end Identity

end TopicLinks
