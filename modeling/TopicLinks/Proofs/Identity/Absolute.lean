import TopicLinks.Proofs.Identity.Canonical
import TopicLinks.Topic

/-!
# Written identities

An identity can be written as a link. If its bundle can stand in a link, then reading the link
gives the bundle, the path and the fragment back, so the written form tells topics apart. A bundle
that is empty or holds a delimiter is lost in its written form.
-/

namespace TopicLinks

namespace Text

/-- Nothing is removed behind a character that is not blank. -/
theorem trimEnd_append_singleton {c : Char} (h : isBlank c = false) (before : List Char) :
    trimEnd (before ++ [c]) = before ++ [c] := by
  induction before with
  | nil => simp [trimEnd, h]
  | cons d rest ih =>
    rw [List.cons_append, trimEnd, ih]
    cases rest with
    | nil => rfl
    | cons e rest => rfl

/-- Text that begins and ends without blanks is not trimmed. -/
theorem trim_cons_append {c : Char} (hc : isBlank c = false) (between : List Char)
    {ending : List Char} (hne : ending ≠ []) (hending : ∀ d ∈ ending, isBlank d = false) :
    trim (c :: between ++ ending) = c :: between ++ ending := by
  rcases List.eq_nil_or_concat ending with rfl | ⟨before, d, rfl⟩
  · exact absurd rfl hne
  · have hd : isBlank d = false := hending d (by simp)
    rw [trim, List.cons_append, List.dropWhile_cons_of_neg (by simp [hc]), List.concat_eq_append,
      ← List.append_assoc, ← List.cons_append]
    exact trimEnd_append_singleton hd _

end Text

namespace Readable

/-- Path characters do not end a path. -/
theorem endsPath_of_isPathChar {c : Char} (h : isPathChar c = true) :
    AuthoredLink.endsPath c = false := by
  have hquery : c ≠ '?' := by
    rintro rfl
    exact absurd h (by decide)
  have hfragment : c ≠ '#' := by
    rintro rfl
    exact absurd h (by decide)
  simp [AuthoredLink.endsPath, hquery, hfragment]

/-- Path characters are not blank. -/
theorem isBlank_of_isPathChar {c : Char} (h : isPathChar c = true) : Text.isBlank c = false :=
  isBlank_of_isFragmentChar (by simp [isFragmentChar, h])

end Readable

namespace AuthoredLink

/-- A bundle that can stand in a link: it is not empty and holds no character that ends an
authority. -/
def IsHost (bundle : String) : Prop := bundle ≠ "" ∧ ∀ c ∈ bundle.toList, endsAuthority c = false

instance (bundle : String) : Decidable (IsHost bundle) :=
  inferInstanceAs (Decidable (bundle ≠ "" ∧ ∀ c ∈ bundle.toList, endsAuthority c = false))

/-- A fragment as it is written behind a path. -/
def writtenFragment (fragment : Option (List Char)) : List Char := fragment.elim [] ('#' :: ·)

/-- Reading stops at the end of a path, and what follows is the fragment. -/
theorem fragmentOf_writtenFragment (fragment : Option (List Char)) :
    fragmentOf (dropQuery ((writtenFragment fragment).dropWhile (!endsPath ·))) = fragment := by
  cases fragment with
  | none => rfl
  | some fragment => rfl

theorem takeWhile_writtenFragment (fragment : Option (List Char)) :
    (writtenFragment fragment).takeWhile (!endsPath ·) = [] := by
  cases fragment with
  | none => rfl
  | some fragment => rfl

/-- The parts of a written identity are those that were written. -/
theorem parts_written {bundle path : List Char} {fragment : Option (List Char)}
    (hbundle : ∀ c ∈ bundle, endsAuthority c = false)
    (hpath : ∀ c ∈ '/' :: path, endsPath c = false)
    (hfragment : '\n' ∉ fragment.getD []) :
    parts ("doc://".toList ++ bundle ++ '/' :: path ++ writtenFragment fragment) =
      ⟨some "doc".toList, some bundle, '/' :: path, fragment⟩ := by
  have hscheme :
      takeScheme ("doc://".toList ++ bundle ++ '/' :: path ++ writtenFragment fragment) =
        (some "doc".toList,
          "//".toList ++ (bundle ++ '/' :: (path ++ writtenFragment fragment))) := by
    simp only [List.append_assoc, List.cons_append]
    rfl
  have hauthority :
      takeAuthority ("//".toList ++ (bundle ++ '/' :: (path ++ writtenFragment fragment))) =
        (some bundle, '/' :: path ++ writtenFragment fragment) := by
    change (some (List.takeWhile _ (bundle ++ _)), List.dropWhile _ (bundle ++ _)) = _
    have hkept : ∀ c ∈ bundle, (!endsAuthority c) = true := fun c hc => by rw [hbundle c hc]; rfl
    rw [List.takeWhile_append_of_pos hkept, List.dropWhile_append_of_pos hkept]
    simp [endsAuthority]
  have hkept : ∀ c ∈ '/' :: path, (!endsPath c) = true := fun c hc => by rw [hpath c hc]; rfl
  rw [parts, hscheme]
  simp only [hauthority]
  rw [List.takeWhile_append_of_pos hkept, List.dropWhile_append_of_pos hkept,
    fragmentOf_writtenFragment, takeWhile_writtenFragment, List.append_nil]
  simp [hfragment]

end AuthoredLink

namespace Place

variable {place : Place}

/-- A readable path is read to its end. -/
theorem IsReadable.endsPath_path (h : place.IsReadable) {c : Char} (hc : c ∈ place.path.toList) :
    AuthoredLink.endsPath c = false := by
  rcases h.mem_path hc with rfl | hc
  · decide
  · exact Readable.endsPath_of_isPathChar hc

/-- No line ends in a readable fragment. -/
theorem IsReadable.line_not_mem_fragment (h : place.IsReadable) :
    '\n' ∉ (place.fragment.map String.toList).getD [] := by
  intro hmem
  cases hfragment : place.fragment with
  | none => simp [hfragment] at hmem
  | some f =>
    have hchar := h.fragment f hfragment '\n' (by simpa [hfragment] using hmem)
    exact absurd hchar (by decide)

/-- A readable path and a readable fragment, written one behind the other, have no blanks at all. -/
theorem IsReadable.isBlank_written (h : place.IsReadable) : ∀ c ∈ place.path.toList ++
    AuthoredLink.writtenFragment (place.fragment.map String.toList), Text.isBlank c = false := by
  intro c hc
  rcases List.mem_append.mp hc with hc | hc
  · rcases h.mem_path hc with rfl | hc
    · decide
    · exact Readable.isBlank_of_isPathChar hc
  · cases hfragment : place.fragment with
    | none =>
      rw [hfragment] at hc
      exact absurd hc List.not_mem_nil
    | some f =>
      rw [hfragment] at hc
      rcases List.mem_cons.mp hc with rfl | hc
      · decide
      · exact Readable.isBlank_of_isFragmentChar (h.fragment f hfragment c hc)

end Place

namespace Address

variable {address : Address}

/-- The written form, character by character. -/
theorem toList_absolute (address : Address) :
    address.absolute.toList =
      "doc://".toList ++ address.bundle.toList ++ address.place.path.toList ++
        AuthoredLink.writtenFragment (address.place.fragment.map String.toList) := by
  cases hfragment : address.place.fragment with
  | none => simp [absolute, hfragment, AuthoredLink.topicScheme, AuthoredLink.writtenFragment]
  | some fragment =>
    simp [absolute, hfragment, AuthoredLink.topicScheme, AuthoredLink.writtenFragment]

/-- A written readable identity has no blank at either end. -/
theorem IsReadable.trim_absolute (h : address.IsReadable) :
    Text.trim address.absolute.toList = address.absolute.toList := by
  have hplace : address.place.IsReadable := h
  rw [toList_absolute, List.append_assoc]
  exact Text.trim_cons_append (by decide) _ (by simp [Place.path]) hplace.isBlank_written

/-- Reading a written readable identity gives its bundle, its path and its fragment, if the
bundle can stand in a link. -/
theorem IsReadable.parse_absolute (h : address.IsReadable)
    (hhost : AuthoredLink.IsHost address.bundle) :
    AuthoredLink.parse address.absolute =
      ⟨address.absolute, some "doc", some address.bundle, address.place.path,
        address.place.fragment⟩ := by
  have hplace : address.place.IsReadable := h
  obtain ⟨path, hpath⟩ : ∃ path, address.place.path.toList = '/' :: path :=
    ⟨_, String.toList_ofList⟩
  have hbundle : (some address.bundle.toList).filter (!·.isEmpty) = some address.bundle.toList := by
    simp [hhost.1]
  have hparts := AuthoredLink.parts_written hhost.2
    (fun c hc => hplace.endsPath_path (hpath ▸ hc)) hplace.line_not_mem_fragment
  rw [← hpath, ← toList_absolute] at hparts
  rw [AuthoredLink.parse, h.trim_absolute, hparts, AuthoredLink.ofParts, hbundle]
  simp [Function.comp_def]

/-- A written readable identity is its own target. -/
theorem IsReadable.effectiveTarget_parse (h : address.IsReadable)
    (hhost : AuthoredLink.IsHost address.bundle) :
    (AuthoredLink.parse address.absolute).effectiveTarget = address.absolute := by
  have hstart : "doc:" ++ ("//" ++ address.bundle) = "doc" ++ "://" ++ address.bundle := by
    rw [← String.append_assoc]
    rfl
  rw [h.parse_absolute hhost, AuthoredLink.effectiveTarget, absolute, AuthoredLink.topicScheme,
    ← hstart]
  rfl

/-- Readable addresses are told apart by their written forms, if their bundles can stand in a
link. -/
theorem IsReadable.absolute_inj {a b : Address} (ha : a.IsReadable) (hb : b.IsReadable)
    (hahost : AuthoredLink.IsHost a.bundle) (hbhost : AuthoredLink.IsHost b.bundle) :
    a.absolute = b.absolute ↔ a = b := by
  constructor
  · intro heq
    have hparse := congrArg AuthoredLink.parse heq
    rw [ha.parse_absolute hahost, hb.parse_absolute hbhost] at hparse
    obtain ⟨-, -, hbundle, hpath, hfragment⟩ := AuthoredLink.mk.inj hparse
    refine (ha.key_inj hb).mp ?_
    rw [key, key, Option.some.inj hbundle, hpath, hfragment]
  · rintro rfl
    rfl

end Address

end TopicLinks
