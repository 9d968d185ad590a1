import Mathlib.Data.List.DropRight
import TopicLinks.Proofs.Identity.Canonical

/-!
# Appended paths

Decoding and cutting both go slash by slash. So the segments of two texts with a slash between them
are those of the one and then those of the other, whatever stands on either side of the slash, and
paths can be appended one after the other or all at once. The texts of paths tell the same: a path
is joined to the text of another one, and its components are what stands between its slashes.
-/

namespace TopicLinks

namespace Readable

/-- Cutting at slashes splits at every slash. -/
theorem pieces_append_cons (before after : List Char) :
    pieces (before ++ '/' :: after) = pieces before ++ pieces after := by
  have hcut : (before ++ '/' :: after).splitOn '/' = before.splitOn '/' ++ after.splitOn '/' :=
    List.splitOnP_append_cons before after (beq_self_eq_true '/')
  rw [pieces, hcut, List.filter_append]
  rfl

/-- The segments of two texts with a slash between them are those of both. -/
theorem segments_append (a b : String) : segments (a ++ "/" ++ b) = segments a ++ segments b := by
  have htext : (a ++ "/" ++ b).toList = a.toList ++ '/' :: b.toList := by
    rw [String.toList_append, String.toList_append, List.append_assoc]
    rfl
  rw [segments, htext, Text.Percent.decode_append_cons Text.Percent.separates_slash,
    pieces_append_cons, List.map_append]
  rfl

/-- A text has no pieces exactly when it has no other characters than slashes. -/
theorem pieces_eq_nil_iff {text : List Char} : pieces text = [] ↔ ∀ c ∈ text, c = '/' := by
  constructor
  · intro h c hc
    have hjoined : ['/'].intercalate (text.splitOn '/') = text := List.intercalate_splitOn '/'
    rw [← hjoined] at hc
    rcases mem_intercalate hc with hc | ⟨piece, hpiece, hc⟩
    · exact List.mem_singleton.mp hc
    · have hkept : piece ∈ pieces text :=
        List.mem_filter.mpr ⟨hpiece, by simpa using List.ne_nil_of_mem hc⟩
      rw [h] at hkept
      exact absurd hkept List.not_mem_nil
  · intro h
    induction text with
    | nil => rfl
    | cons c rest ih =>
      obtain ⟨rfl, hrest⟩ := List.forall_mem_cons.mp h
      exact (pieces_append_cons [] rest).trans (ih hrest)

/-- A path leads nowhere exactly when nothing but slashes is left of it by decoding. -/
theorem segments_eq_nil_iff {path : String} :
    segments path = [] ↔ ∀ c ∈ Text.Percent.decode path.toList, c = '/' :=
  List.map_eq_nil_iff.trans pieces_eq_nil_iff

/-- A path behind the text of another one: slashes at the end of the base are dropped, and the
segments follow, with slashes between them. There is no such text for a path without segments. -/
def joined? (base path : String) : Option String :=
  match segments path with
  | [] => none
  | segments => some (.ofList (base.toList.rdropWhile (· == '/') ++
      '/' :: ['/'].intercalate (segments.map String.toList)))

/-- Parts with slashes between them, behind one more slash, are parts with a slash before each. -/
theorem slash_cons_intercalate {parts : List (List Char)} (h : parts ≠ []) :
    '/' :: ['/'].intercalate parts = parts.flatMap ('/' :: ·) := by
  induction parts with
  | nil => exact absurd rfl h
  | cons part rest ih =>
    by_cases hrest : rest = []
    · subst hrest
      rw [List.intercalate_singleton, List.flatMap_singleton]
    · rw [List.intercalate_cons_of_ne_nil hrest, List.flatMap_cons, ← ih hrest]
      simp

end Readable

namespace Place

/-- The text of a readable path without the slashes at its end has one slash before each segment:
only the root ends in a slash. -/
theorem IsReadable.rdropWhile_path {place : Place} (h : place.IsReadable) :
    place.path.toList.rdropWhile (· == '/') =
      (place.segments.map String.toList).flatMap ('/' :: ·) := by
  rw [path, String.toList_ofList]
  rcases List.eq_nil_or_concat place.segments with hnil | ⟨before, last, hsegments⟩
  · rw [hnil]
    rfl
  · obtain ⟨hne, hchars⟩ := h.segments last (by simp [hsegments])
    have hlast : last.toList.getLast hne ≠ '/' := by
      rintro heq
      have hchar := hchars _ (List.getLast_mem hne)
      rw [heq, Readable.isPathChar_slash] at hchar
      cases hchar
    rw [Readable.slash_cons_intercalate (by simp [hsegments]), List.rdropWhile_eq_self_iff]
    intro hpath
    simpa [hsegments, List.getLast_append, hne] using hlast

end Place

namespace Identity

/-- The identity that appending a path leads to: the one below, or the identity itself where the
path leads nowhere. -/
def appended (identity : Identity) (path : String) : Identity :=
  (identity.appending? path).getD identity

variable {identity : Identity} {path : String}

/-- Nothing is below an identity at a path that leads nowhere. -/
theorem below?_of_nil (h : Readable.segments path = []) (fragment : Option String) :
    identity.below? path fragment = none := by
  rw [below?, h]

/-- Every other path leads to its segments behind those of the identity. -/
theorem below?_of_ne_nil (h : Readable.segments path ≠ []) (fragment : Option String) :
    identity.below? path fragment = some { identity with
      address.place := ⟨identity.address.place.segments ++ Readable.segments path, fragment⟩ } := by
  unfold below?
  split
  · rename_i hnil
    exact absurd hnil h
  · rfl

theorem appended_of_nil (h : Readable.segments path = []) : identity.appended path = identity := by
  rw [appended, appending?, below?_of_nil h, Option.getD_none]

theorem appended_of_ne_nil (h : Readable.segments path ≠ []) :
    identity.appended path = { identity with
      address.place := ⟨identity.address.place.segments ++ Readable.segments path, none⟩ } := by
  rw [appended, appending?, below?_of_ne_nil h, Option.getD_some]

/-- The text of the path below a readable identity is the appended path joined to its own. -/
theorem IsReadable.map_path_below? (h : identity.IsReadable) (fragment : Option String) :
    (identity.below? path fragment).map (·.path) = Readable.joined? identity.path path := by
  have htrimmed : identity.path.toList.rdropWhile (· == '/') =
      (identity.address.place.segments.map String.toList).flatMap ('/' :: ·) :=
    Place.IsReadable.rdropWhile_path h
  unfold Readable.joined?
  split
  next hnil => rw [below?_of_nil hnil, Option.map_none]
  next hne =>
    have hsegments : (Readable.segments path).map String.toList ≠ [] := by simpa using hne
    have hall : (identity.address.place.segments ++ Readable.segments path).map String.toList ≠
        [] := by simpa using fun _ => hne
    rw [below?_of_ne_nil hne, Option.map_some, htrimmed,
      Readable.slash_cons_intercalate hsegments, ← List.flatMap_append, ← List.map_append,
      ← Readable.slash_cons_intercalate hall]
    rfl

/-- The components of a readable identity are the root and what stands between the slashes of its
path. -/
theorem IsReadable.components_eq (h : identity.IsReadable) :
    identity.components = "/" :: (Readable.pieces identity.path.toList).map String.ofList := by
  have hpieces : Readable.pieces identity.path.toList =
      identity.address.place.segments.map String.toList := Place.IsReadable.pieces_path h
  rw [hpieces, List.map_map, components]
  simp [Function.comp_def]

/-- Appending one path and then another is appending both with a slash between them. A path that
leads nowhere clears no fragment, so each of the two may be such a path. -/
theorem appended_appended (identity : Identity) (a b : String) :
    (identity.appended a).appended b = identity.appended (a ++ "/" ++ b) := by
  have hboth := Readable.segments_append a b
  by_cases ha : Readable.segments a = []
  · rw [appended_of_nil ha]
    rw [ha, List.nil_append] at hboth
    by_cases hb : Readable.segments b = []
    · rw [appended_of_nil hb, appended_of_nil (hboth.trans hb)]
    · rw [appended_of_ne_nil hb, appended_of_ne_nil (hboth ▸ hb), hboth]
  · have hne : Readable.segments (a ++ "/" ++ b) ≠ [] := by
      rw [hboth]
      exact List.append_ne_nil_of_left_ne_nil ha _
    rw [appended_of_ne_nil hne, hboth, appended_of_ne_nil ha]
    by_cases hb : Readable.segments b = []
    · rw [appended_of_nil hb, hb, List.append_nil]
    · rw [appended_of_ne_nil hb, List.append_assoc]

/-- A link leads where its path leads, and there to its fragment. -/
theorem appendingLink?_of_ne_nil {link : AuthoredLink} (h : Readable.segments link.path ≠ []) :
    identity.appendingLink? link =
      some ((identity.appended link.path).withFragment link.fragment) := by
  rw [appendingLink?, below?_of_ne_nil h, appended_of_ne_nil h]
  rfl

/-- A path with segments leads to another place. -/
theorem address_appended_ne (h : Readable.segments path ≠ []) :
    (identity.appended path).address ≠ identity.address := by
  rw [appended_of_ne_nil h]
  intro heq
  have hsegments : identity.address.place.segments ++ Readable.segments path =
      identity.address.place.segments := congrArg (·.place.segments) heq
  exact h (List.append_right_eq_self.mp hsegments)

/-- Interning the path of a readable identity with another path behind a slash leads where appending
the other path leads. -/
theorem IsReadable.intern?_appended (hreadable : identity.IsReadable)
    (h : Readable.segments path ≠ []) {languages : List Language} (hlanguages : languages ≠ []) :
    intern? identity.bundle (identity.path ++ "/" ++ path) none languages =
      some ⟨(identity.appended path).address, .ofList languages⟩ := by
  have hnone : languages.isEmpty = false := by simpa using hlanguages
  have hown : Readable.segments identity.path = identity.address.place.segments :=
    Place.IsReadable.segments_path hreadable
  rw [intern?, hnone, if_neg Bool.false_ne_true, ofText, Address.ofText, Place.ofText,
    Readable.segments_append, hown, appended_of_ne_nil h]
  rfl

end Identity

end TopicLinks
