import TopicLinks.Proofs.Link.Grammar
import TopicLinks.Resolution.References

/-!
# Links within a bundle

Where a relative link only resolves from the declaration that its documentation was inherited from,
another link is suggested: the path and the fragment of the topic, without its bundle. Such a link
is read back in these parts. A readable path begins with one slash and not with two, so nothing of
it is taken for a bundle, and the link is not relative.
-/

namespace TopicLinks

/-- The link that means an identity from everywhere in its bundle: its path and its fragment,
without the bundle. -/
def Identity.bundleLink (identity : Identity) : String :=
  "doc:" ++ identity.path ++ identity.fragment.elim "" ("#" ++ ·)

/-- It is suggested in angle brackets. -/
theorem Viewpoint.absoluteLink_eq (target : Identity) :
    absoluteLink target = "<" ++ target.bundleLink ++ ">" := by
  rw [absoluteLink, Identity.bundleLink, ← String.append_assoc, ← String.append_assoc]
  rfl

/-- A path with segments begins with a slash and a path character. -/
theorem Place.IsReadable.path_ne_slashes {place : Place} (h : place.IsReadable)
    (rest : List Char) : place.path.toList ++
      AuthoredLink.writtenFragment (place.fragment.map String.toList) ≠ '/' :: '/' :: rest := by
  intro heq
  rw [path, String.toList_ofList, List.cons_append, List.cons.injEq] at heq
  cases hsegments : place.segments with
  | nil =>
    cases hfragment : place.fragment with
    | none => simp [hsegments, hfragment, AuthoredLink.writtenFragment] at heq
    | some f => simp [hsegments, hfragment, AuthoredLink.writtenFragment] at heq
  | cons s others =>
    have hs : Readable.IsSegment s := h.segments s (hsegments ▸ List.mem_cons_self)
    obtain ⟨c, text, htext⟩ := List.exists_cons_of_ne_nil hs.1
    have hslash : c = '/' := by
      cases others with
      | nil => simpa [hsegments, htext] using congrArg List.head? heq.2
      | cons next others => simpa [hsegments, htext] using congrArg List.head? heq.2
    exact hs.slash_not_mem (htext ▸ hslash ▸ List.mem_cons_self)

namespace Identity

variable {identity : Identity}

/-- The link, character by character. -/
theorem toList_bundleLink (identity : Identity) :
    identity.bundleLink.toList = "doc:".toList ++ (identity.path.toList ++
      AuthoredLink.writtenFragment (identity.fragment.map String.toList)) := by
  cases hfragment : identity.fragment with
  | none => simp [bundleLink, hfragment, AuthoredLink.writtenFragment]
  | some f => simp [bundleLink, hfragment, AuthoredLink.writtenFragment]

/-- The link of a readable identity is decomposed into the scheme of topics, the path and the
fragment. -/
theorem IsReadable.isOf_bundleLink (h : identity.IsReadable) :
    AuthoredLink.Decomposition.IsOf ⟨some "doc".toList, none, identity.path.toList, none,
      identity.fragment.map String.toList⟩ identity.bundleLink.toList where
  text := (toList_bundleLink identity).symm
  scheme word hword := by
    obtain rfl : "doc".toList = word := Option.some.inj hword
    exact ⟨by decide, List.all_eq_true.mp (rfl : ['o', 'c'].all AuthoredLink.isSchemeChar = true)⟩
  scheme_isSome _ _ _ _ := rfl
  authority _ hhost := nomatch hhost
  authority_isSome rest heq := absurd heq (Place.IsReadable.path_ne_slashes h rest)
  path c hc := AuthoredLink.endsPath_eq_false_iff.mp (Place.IsReadable.endsPath_path h hc)
  path_of_authority hauthority := nomatch hauthority
  query _ hquery := nomatch hquery

/-- The link of a readable identity is read back in its path and its fragment. -/
theorem IsReadable.parse_bundleLink (h : identity.IsReadable) :
    AuthoredLink.parse identity.bundleLink =
      ⟨identity.bundleLink, some "doc", none, identity.path, identity.fragment⟩ := by
  have htrim : Text.trim identity.bundleLink.toList = identity.bundleLink.toList := by
    rw [toList_bundleLink]
    exact Text.trim_cons_append (by decide) _ (by simp [path, Place.path])
      (Place.IsReadable.isBlank_written h)
  have hline : '\n' ∉ (identity.fragment.map String.toList).getD [] :=
    Place.IsReadable.line_not_mem_fragment h
  rw [AuthoredLink.parse, htrim, AuthoredLink.parts_eq, h.isOf_bundleLink.cut_eq, if_neg hline,
    AuthoredLink.ofParts]
  simp [Function.comp_def]

/-- It is not relative, so it never has a second chance. -/
theorem IsReadable.isRelative_bundleLink (h : identity.IsReadable) :
    (AuthoredLink.parse identity.bundleLink).isRelative = false := by
  rw [h.parse_bundleLink, AuthoredLink.isRelative, path, Place.path, String.toList_ofList]
  rfl

theorem IsReadable.secondChance?_bundleLink (h : identity.IsReadable) (v : Viewpoint) :
    v.secondChance? (AuthoredLink.parse identity.bundleLink) = none := by
  rw [Viewpoint.secondChance?, h.isRelative_bundleLink, Bool.and_false, if_neg Bool.false_ne_true]

end Identity

end TopicLinks
