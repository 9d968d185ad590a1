import TopicLinks.AuthoredLink.Pattern
import TopicLinks.Proofs.Link.Grammar
import TopicLinks.Proofs.Text.Pattern

/-!
# Reading links by their pattern

On a text whose fragment stays on one line the groups of the pattern capture the parts that the
grammar gives: no character that a repetition could take ends it, so a shorter run is never
preferred. There is no match at all if a line ends in the fragment. A link is read off what the
groups captured.
-/

namespace TopicLinks

namespace AuthoredLink

open Text Text.Pattern

/-! ### The parts of the pattern -/

/-- Letters lie in two ranges of code points. -/
theorem isAlpha_eq (c : Char) : c.isAlpha =
    (decide (c.val ≥ 65 ∧ c.val ≤ 90) || (decide (c.val ≥ 97) && decide (c.val ≤ 122))) := rfl

theorem contains_letters (c : Char) : letters.contains c = c.isAlpha := by
  simp [CharClass.contains, letters, CharClass.inRanges, isAlpha_eq, Char.le_def]

theorem contains_schemeChars (c : Char) : schemeChars.contains c = isSchemeChar c := by
  simp only [CharClass.contains, schemeChars]
  rw [CharClass.inRanges_cons, CharClass.inRanges_cons, CharClass.inRanges_cons,
    CharClass.inRanges_cons_self, CharClass.inRanges_cons_self, CharClass.inRanges_cons_self,
    CharClass.inRanges_nil]
  simp [isSchemeChar, Char.isAlphanum, isAlpha_eq, Char.isDigit, Char.le_def, Bool.or_assoc]

/-- A run before a character that ends it is preferred to shorter ones. -/
theorem prefers_many_append {chars : CharClass} {before after : List Char}
    (hbefore : ∀ c ∈ before, chars.contains c = true)
    (hafter : ∀ c ∈ after.head?, chars.contains c = false) (atStart : Bool) :
    (Pattern.many chars).Prefers atStart (before ++ after) ⟨before, [], after⟩ := by
  obtain ⟨htake, hdrop⟩ := span_append hbefore hafter
  have hlongest := prefers_many chars atStart (before ++ after)
  rwa [htake, hdrop] at hlongest

/-- Where the pattern finds a scheme there is one. -/
theorem exists_scheme_of_mem {atStart : Bool} {text : List Char} {o : Outcome}
    (h : o ∈ (Pattern.group (.one letters ++ .many schemeChars) ++
      .one (.only ':')).outcomes atStart text) :
    ∃ word rest, IsScheme word ∧ text = word ++ ':' :: rest := by
  obtain ⟨first, hfirst, colon, hcolon, -⟩ := mem_outcomes_append h
  obtain ⟨word, hword, rfl⟩ := List.mem_map.mp hfirst
  obtain ⟨letter, hletter, run, hrun, rfl⟩ := mem_outcomes_append hword
  obtain ⟨c, afterLetter, rfl, hc, rfl⟩ := mem_outcomes_one hletter
  obtain ⟨hrest, hchars⟩ := mem_runs hrun
  obtain ⟨d, rest, hafter, hd, -⟩ := mem_outcomes_one hcolon
  change run.rest = _ at hafter
  change afterLetter = _ at hrest
  obtain rfl : d = ':' := eq_of_beq hd
  refine ⟨c :: run.taken, rest, ⟨contains_letters c ▸ hc, fun e he => ?_⟩, ?_⟩
  · exact contains_schemeChars e ▸ hchars e he
  · rw [hrest, hafter]
    rfl

namespace Decomposition

variable {d : Decomposition} {whole : List Char}

/-- What the groups of the pattern capture. -/
def captures (d : Decomposition) : List (Option (List Char)) :=
  [d.scheme, d.authority, some d.path, d.query, d.fragment]

theorem IsOf.prefers_schemePart (h : d.IsOf whole) (atStart : Bool) :
    schemePart.Prefers atStart whole
      ⟨d.scheme.elim [] (· ++ [':']), [d.scheme], d.afterScheme⟩ := by
  have htext : d.scheme.elim [] (· ++ [':']) ++ d.afterScheme = whole := h.text
  cases hword : d.scheme with
  | none =>
    rw [hword] at htext
    obtain rfl : d.afterScheme = whole := htext
    refine prefers_optional_of_nil (List.eq_nil_iff_forall_not_mem.mpr fun o ho => ?_)
    obtain ⟨word, rest, hscheme, heq⟩ := exists_scheme_of_mem ho
    have hsome := h.scheme_isSome word rest hscheme heq
    rw [hword] at hsome
    cases hsome
  | some word =>
    cases word with
    | nil => exact absurd (h.scheme [] hword) id
    | cons c word =>
      obtain ⟨hletter, hchars⟩ := h.scheme _ hword
      rw [← contains_letters] at hletter
      have hrun : ∀ atStart, (Pattern.many schemeChars).Prefers atStart
          (word ++ ':' :: d.afterScheme) ⟨word, [], ':' :: d.afterScheme⟩ := by
        refine prefers_many_append (fun e he => (contains_schemeChars e).trans (hchars e he)) ?_
        rintro e ⟨⟩
        rw [contains_schemeChars]
        decide
      rw [hword, Option.elim_some, List.append_assoc] at htext
      subst htext
      exact ((((prefers_one hletter _).append hrun).group).append fun _ =>
        prefers_one (CharClass.contains_only_self ':') d.afterScheme).optional

theorem IsOf.prefers_authorityPart (h : d.IsOf whole) (atStart : Bool) :
    authorityPart.Prefers atStart d.afterScheme
      ⟨d.authority.elim [] (['/', '/'] ++ ·), [d.authority], d.path ++ d.afterPath⟩ := by
  cases hhost : d.authority with
  | none =>
    have hnothing : d.afterScheme = d.path ++ d.afterPath := by rw [afterScheme, hhost]; rfl
    rw [← hnothing]
    refine prefers_optional_of_nil (List.eq_nil_iff_forall_not_mem.mpr fun o ho => ?_)
    obtain ⟨slashes, hslashes, -⟩ := mem_outcomes_append ho
    obtain ⟨first, hfirst, second, hsecond, -⟩ := mem_outcomes_append hslashes
    obtain ⟨c, afterFirst, htext, hc, rfl⟩ := mem_outcomes_one hfirst
    obtain ⟨e, rest, hrest, he, rfl⟩ := mem_outcomes_one hsecond
    obtain rfl : c = '/' := eq_of_beq hc
    obtain rfl : e = '/' := eq_of_beq he
    have hsome := h.authority_isSome rest (htext.trans (congrArg ('/' :: ·) hrest))
    rw [hhost] at hsome
    cases hsome
  | some host =>
    have htext : d.afterScheme = '/' :: '/' :: (host ++ (d.path ++ d.afterPath)) := by
      rw [afterScheme, hhost]
      rfl
    have hrun : ∀ atStart, (Pattern.many (.noneOf ['/', '?', '#'])).Prefers atStart
        (host ++ (d.path ++ d.afterPath)) ⟨host, [], d.path ++ d.afterPath⟩ := by
      refine prefers_many_append (fun c hc => ?_) fun c hc => ?_
      · have hmarks := h.authority host hhost c hc
        simpa [CharClass.contains_noneOf] using hmarks
      · have hmarks : c = '/' ∨ c = '?' ∨ c = '#' := by
          rw [List.head?_append, Option.mem_def, Option.or_eq_some_iff] at hc
          rcases hc with hc | ⟨-, hc⟩
          · exact Or.inl (h.path_of_authority (hhost ▸ rfl) c hc)
          · exact Or.inr (d.head?_afterPath c hc)
        rw [CharClass.contains_noneOf]
        rcases hmarks with rfl | rfl | rfl <;> rfl
    rw [htext]
    exact (((prefers_one (CharClass.contains_only_self '/') _).append fun _ =>
      prefers_one (CharClass.contains_only_self '/') _).append fun atStart =>
        (hrun atStart).group).optional

theorem IsOf.prefers_pathPart (h : d.IsOf whole) (atStart : Bool) :
    pathPart.Prefers atStart (d.path ++ d.afterPath) ⟨d.path, [some d.path], d.afterPath⟩ := by
  refine (prefers_many_append (fun c hc => ?_) (fun c hc => ?_) atStart).group
  · simpa [CharClass.contains_noneOf] using h.path c hc
  · rw [CharClass.contains_noneOf]
    rcases d.head?_afterPath c hc with rfl | rfl <;> rfl

theorem IsOf.prefers_queryPart (h : d.IsOf whole) (atStart : Bool) :
    queryPart.Prefers atStart d.afterPath
      ⟨d.query.elim [] ('?' :: ·), [d.query], writtenFragment d.fragment⟩ := by
  unfold afterPath
  cases hquery : d.query with
  | none =>
    refine prefers_optional_of_nil ?_
    cases d.fragment with
    | none => rfl
    | some fragment => rfl
  | some query =>
    have hrun : ∀ atStart, (Pattern.many (.noneOf ['#'])).Prefers atStart
        (query ++ writtenFragment d.fragment) ⟨query, [], writtenFragment d.fragment⟩ := by
      refine prefers_many_append (fun c hc => ?_) fun c hc => ?_
      · have hhash : c ≠ '#' := fun heq => h.query query hquery (heq ▸ hc)
        simpa [CharClass.contains_noneOf] using hhash
      · cases hfragment : d.fragment with
        | none =>
          rw [hfragment] at hc
          exact absurd hc (Option.not_mem_none c)
        | some fragment =>
          rw [hfragment] at hc
          obtain rfl : '#' = c := Option.some.inj hc
          rfl
    exact ((prefers_one (CharClass.contains_only_self '?') _).append fun atStart =>
      (hrun atStart).group).optional

/-- A fragment on one line is taken whole. -/
theorem prefers_fragmentPart (d : Decomposition) (hline : '\n' ∉ d.fragment.getD [])
    (atStart : Bool) :
    fragmentPart.Prefers atStart (writtenFragment d.fragment)
      ⟨writtenFragment d.fragment, [d.fragment], []⟩ := by
  cases hfragment : d.fragment with
  | none => exact prefers_optional_of_nil rfl
  | some fragment =>
    rw [hfragment, Option.getD_some] at hline
    have hrun : ∀ atStart, (Pattern.many .any).Prefers atStart (fragment ++ [])
        ⟨fragment, [], []⟩ :=
      prefers_many_append (fun c hc => bne_iff_ne.mpr fun heq => hline (heq ▸ hc))
        fun c hc => absurd hc (Option.not_mem_none c)
    rw [List.append_nil] at hrun
    exact ((prefers_one (CharClass.contains_only_self '#') _).append fun atStart =>
      (hrun atStart).group).optional

/-- On a text whose fragment stays on one line the groups capture the parts of the text. -/
theorem IsOf.captures?_eq (h : d.IsOf whole) (hline : '\n' ∉ d.fragment.getD []) :
    linkPattern.captures? whole = some d.captures := by
  have hstart : Pattern.start.Prefers true whole (.empty whole) := rfl
  have hfinish : ∀ atStart, Pattern.finish.Prefers atStart [] (.empty []) := fun _ => rfl
  have hwhole := (((((hstart.append h.prefers_schemePart).append h.prefers_authorityPart).append
    h.prefers_pathPart).append h.prefers_queryPart).append
      (d.prefers_fragmentPart hline)).append hfinish
  have hanchored : linkPattern.isAnchored = true := rfl
  rw [captures?, search_of_isAnchored hanchored]
  exact congrArg (Option.map Outcome.groups) hwhole

end Decomposition

/-- The part for the fragment takes nothing, or a fragment on one line. -/
theorem exists_fragment_of_mem {atStart : Bool} {text : List Char} {o : Outcome}
    (h : o ∈ fragmentPart.outcomes atStart text) :
    ∃ fragment, o.taken = writtenFragment fragment ∧ '\n' ∉ fragment.getD [] := by
  rcases List.mem_append.mp h with h | h
  · obtain ⟨hash, hhash, run, hrun, rfl⟩ := mem_outcomes_append h
    obtain ⟨c, rest, rfl, hc, rfl⟩ := mem_outcomes_one hhash
    obtain rfl : c = '#' := eq_of_beq hc
    obtain ⟨-, hchars⟩ := split_of_mem_outcomes hrun
    refine ⟨some run.taken, rfl, fun hline => ?_⟩
    exact absurd (hchars '\n' hline) (by decide)
  · rw [List.mem_singleton.mp h]
    exact ⟨none, rfl, List.not_mem_nil⟩

/-- A line feed behind the first hash sign leaves no match: no part before the fragment can take
the hash sign, and the fragment cannot take the line feed. -/
theorem captures?_eq_none {before after : List Char} (hbefore : '#' ∉ before)
    (hline : '\n' ∈ after) : linkPattern.captures? (before ++ '#' :: after) = none := by
  have hanchored : linkPattern.isAnchored = true := rfl
  rw [captures?, search_of_isAnchored hanchored, Option.map_eq_none_iff, List.head?_eq_none_iff]
  refine List.eq_nil_iff_forall_not_mem.mpr fun o ho => ?_
  obtain ⟨most, hmost, finish, hfinish, -⟩ := mem_outcomes_append ho
  obtain ⟨front, hfront, last, hlast, rfl⟩ := mem_outcomes_append hmost
  obtain ⟨htext, hchars⟩ := split_of_mem_outcomes hfront
  obtain ⟨hrest, -⟩ := split_of_mem_outcomes hlast
  obtain ⟨fragment, htaken, hline'⟩ := exists_fragment_of_mem hlast
  have hend : last.rest = [] := mem_outcomes_finish hfinish
  have hfrontHash : '#' ∉ front.taken := fun hhash => absurd (hchars '#' hhash) (by decide)
  rw [hrest, hend, List.append_nil, htaken] at htext
  have hdrop := congrArg (List.dropWhile (· != '#')) htext
  rw [(span_hash hfrontHash fragment).2] at hdrop
  have hread := congrArg fragmentOf ((span_hash hbefore (some after)).2.symm.trans hdrop)
  rw [fragmentOf_written, fragmentOf_written] at hread
  rw [← hread] at hline'
  exact hline' hline

/-- A link is read off what its pattern captures. -/
theorem parse_eq_ofCaptures (text : String) :
    parse text = ofCaptures (trim text.toList) (linkPattern.captures? (trim text.toList)) := by
  rw [parse]
  generalize trim text.toList = trimmed
  have hcut := Decomposition.isOf_cut trimmed
  rw [parts_eq]
  by_cases hline : '\n' ∈ (cut trimmed).fragment.getD []
  · obtain ⟨after, hafter⟩ : ∃ after, (cut trimmed).fragment = some after := by
      cases hfragment : (cut trimmed).fragment with
      | none =>
        rw [hfragment] at hline
        exact absurd hline List.not_mem_nil
      | some after => exact ⟨after, rfl⟩
    obtain ⟨before, htext, hbefore⟩ := hcut.fragment_eq_some_iff.mp hafter
    rw [if_pos hline]
    rw [hafter, Option.getD_some] at hline
    rw [htext, captures?_eq_none hbefore hline]
    rfl
  · rw [if_neg hline, hcut.captures?_eq hline]
    rfl

/-- Reading a link loses nothing but blanks around it, and gives what the groups of the pattern of
links capture. If a line ends behind the first hash sign, then the pattern has no match: the text
before this sign is the path, the text behind it is the fragment, and there are no other parts.
Every other text has exactly one decomposition into scheme, authority, path, query and fragment. The
groups capture them, and they are the parts of the link, except that an empty authority is no host.
The link keeps the text as it is written; its target is the text without the query, and without the
slashes of an empty authority. -/
theorem parse_decomposes (text : String) :
    let trimmed := trim text.toList
    IsTrimmed text.toList trimmed ∧
    parse text = ofCaptures trimmed (linkPattern.captures? trimmed) ∧
    (∀ before after, trimmed = before ++ '#' :: after → '#' ∉ before → '\n' ∈ after →
      linkPattern.captures? trimmed = none ∧
      parse text = {
        raw := .ofList trimmed
        scheme := none
        host := none
        path := .ofList before
        fragment := some (.ofList after) } ∧
      (parse text).effectiveTarget = .ofList trimmed) ∧
    ((∀ before after, trimmed = before ++ '#' :: after → '#' ∉ before → '\n' ∉ after) →
      ∃ d : Decomposition, d.IsOf trimmed ∧ (∀ d' : Decomposition, d'.IsOf trimmed → d' = d) ∧
        linkPattern.captures? trimmed =
          some [d.scheme, d.authority, some d.path, d.query, d.fragment] ∧
        parse text = {
          raw := .ofList trimmed
          scheme := d.scheme.map .ofList
          host := (d.authority.filter (!·.isEmpty)).map .ofList
          path := .ofList d.path
          fragment := d.fragment.map .ofList } ∧
        (parse text).effectiveTarget = .ofList
          { d with authority := d.authority.filter (!·.isEmpty), query := none }.text) := by
  intro trimmed
  have hcut := Decomposition.isOf_cut trimmed
  refine ⟨isTrimmed_trim text.toList, parse_eq_ofCaptures text, ?_, ?_⟩
  · intro before after htext hbefore hline
    have hnone : linkPattern.captures? trimmed = none :=
      htext ▸ captures?_eq_none hbefore hline
    have hparts : pathParts trimmed = ⟨none, none, before, some after⟩ := by
      obtain ⟨htake, hdrop⟩ := span_hash hbefore (some after)
      have hwritten : trimmed = before ++ writtenFragment (some after) := htext
      rw [pathParts, hwritten, htake, hdrop]
      rfl
    have hparse : parse text = ofParts trimmed ⟨none, none, before, some after⟩ := by
      rw [parse_eq_ofCaptures, hnone, ← hparts]
      rfl
    refine ⟨hnone, hparse, ?_⟩
    rw [hparse, effectiveTarget_ofParts, htext]
    rfl
  · intro hline
    have hnot : '\n' ∉ (cut trimmed).fragment.getD [] := by
      cases hfragment : (cut trimmed).fragment with
      | none => exact List.not_mem_nil
      | some after =>
        obtain ⟨before, htext, hbefore⟩ := hcut.fragment_eq_some_iff.mp hfragment
        exact hline before after htext hbefore
    have hcaptures := hcut.captures?_eq hnot
    have hparse : parse text = ofParts trimmed ⟨(cut trimmed).scheme, (cut trimmed).authority,
        (cut trimmed).path, (cut trimmed).fragment⟩ := by
      rw [parse_eq_ofCaptures, hcaptures]
      rfl
    refine ⟨cut trimmed, hcut, fun d' hd' => hd'.cut_eq.symm, hcaptures, hparse, ?_⟩
    rw [hparse, effectiveTarget_ofParts]

/-- A link with an empty authority, colons in its path and a question mark in its fragment is
decomposed in one way; with a line feed behind its hash sign it is cut there only. -/
theorem parse_decomposes_of_empty_authority :
    let url := " Doc:////Kit:a//b?c/d#e?f#g "
    let broken := "doc://Kit/a?b#c\nd"
    linkPattern.captures? (trim url.toList) = some [some "Doc".toList, some [],
        some "//Kit:a//b".toList, some "c/d".toList, some "e?f#g".toList] ∧
      parse url = {
        raw := "Doc:////Kit:a//b?c/d#e?f#g"
        scheme := some "Doc"
        host := none
        path := "//Kit:a//b"
        fragment := some "e?f#g" } ∧
      (parse url).effectiveTarget = "Doc://Kit:a//b#e?f#g" ∧
      linkPattern.captures? (trim broken.toList) = none ∧
      parse broken = {
        raw := broken
        scheme := none
        host := none
        path := "doc://Kit/a?b"
        fragment := some "c\nd" } ∧
      (parse broken).effectiveTarget = broken := by
  intro url broken
  obtain ⟨-, -, -, hurl⟩ := parse_decomposes url
  obtain ⟨-, -, hbroken, -⟩ := parse_decomposes broken
  have hcut : (cut (trim url.toList)).fragment = some "e?f#g".toList := by decide +kernel
  have hline : ∀ before after, trim url.toList = before ++ '#' :: after → '#' ∉ before →
      '\n' ∉ after := by
    intro before after htext hbefore
    have hfragment :=
      (Decomposition.isOf_cut _).fragment_eq_some_iff.mpr ⟨before, htext, hbefore⟩
    rw [← Option.some.inj (hcut.symm.trans hfragment)]
    decide
  obtain ⟨d, -, hunique, hcaptures, hparse, htarget⟩ := hurl hline
  obtain rfl := hunique _ (Decomposition.isOf_cut _)
  obtain ⟨hnone, hparse', htarget'⟩ := hbroken "doc://Kit/a?b".toList "c\nd".toList
    (by decide +kernel) (by decide) (by decide)
  exact ⟨hcaptures.trans (by decide +kernel), hparse.trans (by decide +kernel),
    htarget.trans (by decide +kernel), hnone, hparse'.trans (by decide +kernel),
    htarget'.trans (by decide +kernel)⟩

end AuthoredLink

end TopicLinks
