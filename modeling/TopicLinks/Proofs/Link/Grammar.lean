import TopicLinks.Proofs.Identity.Absolute

/-!
# The grammar of links

A link is cut into scheme, authority, path, query and fragment. The grammar says which cuts are
allowed without saying how to find one: every text has exactly one, so nothing of it is lost and
nothing is read twice. Reading a link finds this cut, unless a line ends in the fragment; then the
text is no URL, and is cut at its first hash sign only.
-/

namespace TopicLinks

namespace Text

/-- What is cut off behind a text is blank, and what is left does not end with a blank. -/
theorem exists_trimEnd_append (text : List Char) :
    ∃ after, text = trimEnd text ++ after ∧ (∀ c ∈ after, isBlank c = true) ∧
      ∀ c ∈ (trimEnd text).getLast?, isBlank c = false := by
  induction text with
  | nil =>
    exact ⟨[], rfl, fun c hc => absurd hc List.not_mem_nil,
      fun c hc => absurd hc (Option.not_mem_none c)⟩
  | cons c rest ih =>
    obtain ⟨after, htext, hblank, hlast⟩ := ih
    rw [trimEnd]
    cases hrest : trimEnd rest with
    | nil =>
      rw [hrest, List.nil_append] at htext
      subst htext
      cases hc : isBlank c with
      | true =>
        exact ⟨c :: rest, rfl, List.forall_mem_cons.mpr ⟨hc, hblank⟩,
          fun d hd => absurd hd (Option.not_mem_none d)⟩
      | false => exact ⟨rest, rfl, hblank, fun d hd => Option.some.inj hd ▸ hc⟩
    | cons d kept =>
      rw [hrest] at htext hlast
      refine ⟨after, congrArg (c :: ·) htext, hblank, fun e he => hlast e ?_⟩
      rwa [List.getLast?_cons_cons] at he

/-- A text without the blanks around it. -/
structure IsTrimmed (text trimmed : List Char) : Prop where
  /-- Blanks are removed before and behind, and nothing else. -/
  removed : ∃ before after, text = before ++ trimmed ++ after ∧
    (∀ c ∈ before, isBlank c = true) ∧ ∀ c ∈ after, isBlank c = true
  /-- No blank is left at the beginning, -/
  first : ∀ c ∈ trimmed.head?, isBlank c = false
  /-- and none at the end. -/
  last : ∀ c ∈ trimmed.getLast?, isBlank c = false

theorem isTrimmed_trim (text : List Char) : IsTrimmed text (trim text) := by
  obtain ⟨after, hafter, hblank, hlast⟩ := exists_trimEnd_append (text.dropWhile isBlank)
  change _ = trim text ++ after at hafter
  refine ⟨⟨text.takeWhile isBlank, after, ?_, ?_, hblank⟩, ?_, hlast⟩
  · rw [List.append_assoc, ← hafter, List.takeWhile_append_dropWhile]
  · exact List.all_eq_true.mp List.all_takeWhile
  · intro c hc
    have hhead : (text.dropWhile isBlank).head? = some c := by
      rw [hafter, List.head?_append, Option.mem_def.mp hc]
      rfl
    have hfirst := List.head?_dropWhile_not isBlank text
    rw [hhead] at hfirst
    simpa using hfirst

end Text

namespace AuthoredLink

open Text

/-- A scheme: a letter and any number of further scheme characters. -/
def IsScheme : List Char → Prop
  | [] => False
  | c :: rest => c.isAlpha = true ∧ ∀ d ∈ rest, isSchemeChar d = true

/-- A text cut into the parts of a URL. -/
structure Decomposition where
  /-- The scheme without its colon. -/
  scheme : Option (List Char)
  /-- The authority without its slashes. -/
  authority : Option (List Char)
  /-- The path. -/
  path : List Char
  /-- The query without its question mark. -/
  query : Option (List Char)
  /-- The fragment without its hash sign. -/
  fragment : Option (List Char)
  deriving DecidableEq

namespace Decomposition

/-- What is written behind the path. -/
def afterPath (d : Decomposition) : List Char :=
  d.query.elim [] ('?' :: ·) ++ writtenFragment d.fragment

/-- What is written behind the scheme. -/
def afterScheme (d : Decomposition) : List Char :=
  d.authority.elim [] (['/', '/'] ++ ·) ++ (d.path ++ d.afterPath)

/-- All parts, written one behind the other. -/
def text (d : Decomposition) : List Char := d.scheme.elim [] (· ++ [':']) ++ d.afterScheme

/-- The grammar: a decomposition of a text. -/
structure IsOf (d : Decomposition) (whole : List Char) : Prop where
  /-- The parts make up the text. -/
  text : d.text = whole
  /-- The scheme is one, -/
  scheme : ∀ word, d.scheme = some word → IsScheme word
  /-- and it is not missing if the text begins with one and a colon. -/
  scheme_isSome : ∀ word rest, IsScheme word → whole = word ++ ':' :: rest → d.scheme.isSome
  /-- The authority holds no slash, question mark or hash sign, -/
  authority : ∀ host, d.authority = some host → ∀ c ∈ host, c ≠ '/' ∧ c ≠ '?' ∧ c ≠ '#'
  /-- and it is not missing if two slashes follow the scheme. -/
  authority_isSome : ∀ rest, d.afterScheme = '/' :: '/' :: rest → d.authority.isSome
  /-- The path holds no question mark or hash sign, -/
  path : ∀ c ∈ d.path, c ≠ '?' ∧ c ≠ '#'
  /-- and behind an authority it is empty or begins with a slash. -/
  path_of_authority : d.authority.isSome → ∀ c ∈ d.path.head?, c = '/'
  /-- The query holds no hash sign. -/
  query : ∀ query, d.query = some query → '#' ∉ query

end Decomposition

/-- The query that a text starting with a question mark holds. -/
def queryOf : List Char → Option (List Char)
  | '?' :: rest => some (rest.takeWhile (· != '#'))
  | _ => none

/-- The cut that reading a link makes. -/
def cut (text : List Char) : Decomposition :=
  let afterScheme := (takeScheme text).2
  let afterAuthority := (takeAuthority afterScheme).2
  let afterPath := afterAuthority.dropWhile (!endsPath ·)
  { scheme := (takeScheme text).1
    authority := (takeAuthority afterScheme).1
    path := afterAuthority.takeWhile (!endsPath ·)
    query := queryOf afterPath
    fragment := fragmentOf (dropQuery afterPath) }

theorem endsAuthority_eq_false_iff {c : Char} :
    endsAuthority c = false ↔ c ≠ '/' ∧ c ≠ '?' ∧ c ≠ '#' := by
  simp [endsAuthority, and_assoc]

theorem endsPath_eq_false_iff {c : Char} : endsPath c = false ↔ c ≠ '?' ∧ c ≠ '#' := by
  simp [endsPath]

/-! ### Reading each part -/

section

variable {p : Char → Bool} {before after word host rest text : List Char}

/-- A run of characters is read up to the character that ends it. -/
theorem span_append (hbefore : ∀ c ∈ before, p c = true) (hafter : ∀ c ∈ after.head?, p c = false) :
    (before ++ after).takeWhile p = before ∧ (before ++ after).dropWhile p = after := by
  rw [List.takeWhile_append_of_pos hbefore, List.dropWhile_append_of_pos hbefore]
  cases after with
  | nil => exact ⟨List.append_nil before, rfl⟩
  | cons c rest =>
    have hc : ¬p c = true := by simp [hafter c rfl]
    rw [List.takeWhile_cons_of_neg hc, List.dropWhile_cons_of_neg hc]
    exact ⟨List.append_nil before, rfl⟩

/-- A text without a hash sign is read up to the fragment behind it. -/
theorem span_hash (h : '#' ∉ before) (fragment : Option (List Char)) :
    (before ++ writtenFragment fragment).takeWhile (· != '#') = before ∧
      (before ++ writtenFragment fragment).dropWhile (· != '#') = writtenFragment fragment := by
  refine span_append (fun c hc => bne_iff_ne.mpr fun heq => h (heq ▸ hc)) ?_
  cases fragment with
  | none => exact fun c hc => nomatch hc
  | some fragment =>
    rintro c ⟨⟩
    rfl

/-- A written fragment is read back. -/
theorem fragmentOf_written (fragment : Option (List Char)) :
    fragmentOf (writtenFragment fragment) = fragment := by
  cases fragment with
  | none => rfl
  | some fragment => rfl

/-- What follows a run of characters begins with one that ends it. -/
theorem head?_dropWhile (p : Char → Bool) (text : List Char) :
    ∀ c ∈ (text.dropWhile p).head?, p c = false := by
  intro c hc
  have hfirst := List.head?_dropWhile_not p text
  rw [Option.mem_def.mp hc] at hfirst
  simpa using hfirst

/-- A scheme before a colon is read. -/
theorem takeScheme_append (hword : IsScheme word) (rest : List Char) :
    takeScheme (word ++ ':' :: rest) = (some word, rest) := by
  cases word with
  | nil => exact absurd hword id
  | cons c word =>
    obtain ⟨hletter, hchars⟩ := hword
    have hcolon : ∀ d ∈ (':' :: rest).head?, isSchemeChar d = false := by
      rintro d ⟨⟩
      decide
    obtain ⟨htake, hdrop⟩ := span_append hchars hcolon
    simp only [List.cons_append, takeScheme, hletter, if_true, hdrop, htake]

/-- Without a scheme before a colon nothing is read. -/
theorem takeScheme_eq_none (h : ∀ word rest, IsScheme word → text ≠ word ++ ':' :: rest) :
    takeScheme text = (none, text) := by
  cases text with
  | nil => rfl
  | cons c rest =>
    rw [takeScheme]
    split
    · rename_i hletter
      split
      · rename_i tail htail
        refine absurd ?_ (h (c :: rest.takeWhile isSchemeChar) tail
          ⟨hletter, List.all_eq_true.mp List.all_takeWhile⟩)
        rw [List.cons_append, ← htail, List.takeWhile_append_dropWhile]
      · rfl
    · rfl

/-- A scheme is read if there is one before a colon. -/
theorem takeScheme_cases (text : List Char) :
    (∃ word rest, IsScheme word ∧ text = word ++ ':' :: rest ∧
        takeScheme text = (some word, rest)) ∨
      (∀ word rest, IsScheme word → text ≠ word ++ ':' :: rest) ∧
        takeScheme text = (none, text) := by
  by_cases h : ∃ word rest, IsScheme word ∧ text = word ++ ':' :: rest
  · obtain ⟨word, rest, hword, rfl⟩ := h
    exact Or.inl ⟨word, rest, hword, rfl, takeScheme_append hword rest⟩
  · have hnone : ∀ word rest, IsScheme word → text ≠ word ++ ':' :: rest :=
      fun word rest hword heq => h ⟨word, rest, hword, heq⟩
    exact Or.inr ⟨hnone, takeScheme_eq_none hnone⟩

/-- An authority behind two slashes is read. -/
theorem takeAuthority_append (hhost : ∀ c ∈ host, endsAuthority c = false)
    (hrest : ∀ c ∈ rest.head?, endsAuthority c = true) :
    takeAuthority (['/', '/'] ++ (host ++ rest)) = (some host, rest) := by
  have hread : ∀ c ∈ host, (!endsAuthority c) = true := fun c hc => by rw [hhost c hc]; rfl
  have hend : ∀ c ∈ rest.head?, (!endsAuthority c) = false := fun c hc => by rw [hrest c hc]; rfl
  obtain ⟨htake, hdrop⟩ := span_append hread hend
  change (some ((host ++ rest).takeWhile (!endsAuthority ·)),
    (host ++ rest).dropWhile (!endsAuthority ·)) = _
  rw [htake, hdrop]

/-- Without two slashes nothing is read. -/
theorem takeAuthority_eq_none (h : ∀ rest, text ≠ '/' :: '/' :: rest) :
    takeAuthority text = (none, text) := by
  unfold takeAuthority
  split
  · rename_i rest
    exact absurd rfl (h rest)
  · rfl

/-- An authority is read if there are two slashes, up to a character that ends it. -/
theorem takeAuthority_cases (text : List Char) :
    (∃ host rest, (∀ c ∈ host, endsAuthority c = false) ∧
        (∀ c ∈ rest.head?, endsAuthority c = true) ∧ text = ['/', '/'] ++ (host ++ rest) ∧
        takeAuthority text = (some host, rest)) ∨
      (∀ rest, text ≠ '/' :: '/' :: rest) ∧ takeAuthority text = (none, text) := by
  by_cases h : ∃ rest, text = '/' :: '/' :: rest
  · obtain ⟨rest, rfl⟩ := h
    refine Or.inl ⟨rest.takeWhile (!endsAuthority ·), rest.dropWhile (!endsAuthority ·), ?_, ?_,
      ?_, rfl⟩
    · intro c hc
      simpa using List.all_eq_true.mp List.all_takeWhile c hc
    · intro c hc
      simpa using head?_dropWhile _ rest c hc
    · rw [List.takeWhile_append_dropWhile]
      rfl
  · have hnone : ∀ rest, text ≠ '/' :: '/' :: rest := fun rest heq => h ⟨rest, heq⟩
    exact Or.inr ⟨hnone, takeAuthority_eq_none hnone⟩

end

namespace Decomposition

variable {d : Decomposition} {whole : List Char}

/-- What follows a path begins with a character that ends it. -/
theorem head?_afterPath (d : Decomposition) : ∀ c ∈ d.afterPath.head?, c = '?' ∨ c = '#' := by
  unfold afterPath writtenFragment
  cases d.query with
  | some query =>
    rintro c ⟨⟩
    exact Or.inl rfl
  | none =>
    cases d.fragment with
    | some fragment =>
      rintro c ⟨⟩
      exact Or.inr rfl
    | none => exact fun c hc => nomatch hc

/-- Query and fragment are read back. -/
theorem read_afterPath (h : ∀ query, d.query = some query → '#' ∉ query) :
    queryOf d.afterPath = d.query ∧ fragmentOf (dropQuery d.afterPath) = d.fragment := by
  unfold afterPath
  cases hquery : d.query with
  | none =>
    cases d.fragment with
    | none => exact ⟨rfl, rfl⟩
    | some fragment => exact ⟨rfl, rfl⟩
  | some query =>
    obtain ⟨htake, hdrop⟩ := span_hash (h query hquery) d.fragment
    refine ⟨congrArg some htake, ?_⟩
    exact (congrArg fragmentOf hdrop).trans (fragmentOf_written d.fragment)

/-- Every decomposition of a text is the cut: each part is read back where the one before it
ends. -/
theorem IsOf.cut_eq (h : d.IsOf whole) : cut whole = d := by
  have hscheme : takeScheme whole = (d.scheme, d.afterScheme) := by
    have htext : d.scheme.elim [] (· ++ [':']) ++ d.afterScheme = whole := h.text
    cases hword : d.scheme with
    | none =>
      rw [hword] at htext
      obtain rfl : d.afterScheme = whole := htext
      refine takeScheme_eq_none fun word rest hscheme heq => ?_
      have hsome := h.scheme_isSome word rest hscheme heq
      rw [hword] at hsome
      cases hsome
    | some word =>
      rw [hword, Option.elim_some, List.append_assoc] at htext
      rw [← htext]
      exact takeScheme_append (h.scheme word hword) d.afterScheme
  have hauthority : takeAuthority d.afterScheme = (d.authority, d.path ++ d.afterPath) := by
    cases hhost : d.authority with
    | none =>
      have hnothing : d.afterScheme = d.path ++ d.afterPath := by rw [afterScheme, hhost]; rfl
      rw [← hnothing]
      refine takeAuthority_eq_none fun rest heq => ?_
      have hsome := h.authority_isSome rest heq
      rw [hhost] at hsome
      cases hsome
    | some host =>
      have hrest : ∀ c ∈ (d.path ++ d.afterPath).head?, endsAuthority c = true := by
        have hpath := h.path_of_authority (by rw [hhost]; rfl)
        cases hcases : d.path with
        | nil =>
          intro c hc
          rcases d.head?_afterPath c hc with rfl | rfl <;> rfl
        | cons first rest =>
          rintro c ⟨⟩
          rw [hcases] at hpath
          rw [hpath first rfl]
          rfl
      have hwritten : d.afterScheme = ['/', '/'] ++ (host ++ (d.path ++ d.afterPath)) := by
        rw [afterScheme, hhost]
        rfl
      rw [hwritten]
      refine takeAuthority_append (fun c hc => ?_) hrest
      exact endsAuthority_eq_false_iff.mpr (h.authority host hhost c hc)
  have hread : ∀ c ∈ d.path, (!endsPath c) = true := by
    intro c hc
    rw [endsPath_eq_false_iff.mpr (h.path c hc)]
    rfl
  have hend : ∀ c ∈ d.afterPath.head?, (!endsPath c) = false := by
    intro c hc
    rcases d.head?_afterPath c hc with rfl | rfl
    · rfl
    · rfl
  obtain ⟨htake, hdrop⟩ := span_append hread hend
  obtain ⟨hquery, hfragment⟩ := read_afterPath h.query
  simp only [cut, hscheme, hauthority, htake, hdrop, hquery, hfragment]

/-- No hash sign is read as part of a query. -/
theorem not_mem_queryOf {rest query : List Char} (h : queryOf rest = some query) : '#' ∉ query := by
  unfold queryOf at h
  split at h
  · intro hmem
    rw [← Option.some.inj h] at hmem
    exact absurd (List.all_eq_true.mp List.all_takeWhile '#' hmem) (by decide)
  · cases h

/-- What is read behind a path is what is written there. -/
theorem afterPath_of_head? {rest : List Char} (h : ∀ c ∈ rest.head?, endsPath c = true) :
    (queryOf rest).elim [] ('?' :: ·) ++ writtenFragment (fragmentOf (dropQuery rest)) = rest := by
  have hwritten : ∀ {text : List Char}, (∀ c ∈ text.head?, (c != '#') = false) →
      writtenFragment (fragmentOf text) = text := by
    intro text htext
    cases text with
    | nil => rfl
    | cons c text =>
      obtain rfl : c = '#' := by simpa using htext c rfl
      rfl
  cases rest with
  | nil => rfl
  | cons c rest =>
    have hends : c = '?' ∨ c = '#' := by simpa [endsPath] using h c rfl
    rcases hends with rfl | rfl
    · change '?' :: rest.takeWhile (· != '#') ++
        writtenFragment (fragmentOf (rest.dropWhile (· != '#'))) = '?' :: rest
      rw [hwritten (head?_dropWhile _ rest), List.cons_append, List.takeWhile_append_dropWhile]
    · rfl

/-- Path characters are read into the path of a cut. -/
theorem endsPath_of_mem_path_cut {whole : List Char} {c : Char} (hc : c ∈ (cut whole).path) :
    endsPath c = false := by
  have hall := List.all_eq_true.mp (List.all_takeWhile (p := (!endsPath ·))
    (l := (takeAuthority (takeScheme whole).2).2)) c hc
  simpa using hall

/-- Behind the authority a cut has what is left there. -/
theorem path_append_afterPath_cut (whole : List Char) :
    (cut whole).path ++ (cut whole).afterPath = (takeAuthority (takeScheme whole).2).2 := by
  have hends : ∀ c ∈ ((takeAuthority (takeScheme whole).2).2.dropWhile (!endsPath ·)).head?,
      endsPath c = true := by
    intro c hc
    simpa using head?_dropWhile _ _ c hc
  rw [show (cut whole).afterPath = _ from afterPath_of_head? hends]
  exact List.takeWhile_append_dropWhile

/-- Behind the scheme a cut has what is left there. -/
theorem afterScheme_cut (whole : List Char) : (cut whole).afterScheme = (takeScheme whole).2 := by
  rw [afterScheme, path_append_afterPath_cut]
  rcases takeAuthority_cases (takeScheme whole).2 with ⟨host, rest, -, -, htext, htake⟩ | ⟨-, htake⟩
  · simp only [cut, htake]
    exact htext.symm
  · simp only [cut, htake]
    rfl

/-- The cut is a decomposition of its text. -/
theorem isOf_cut (whole : List Char) : (cut whole).IsOf whole where
  text := by
    rw [text, afterScheme_cut]
    rcases takeScheme_cases whole with ⟨word, rest, -, htext, htake⟩ | ⟨-, htake⟩
    · simp only [cut, htake, Option.elim_some, List.append_assoc]
      exact htext.symm
    · simp only [cut, htake]
      rfl
  scheme word hword := by
    change (takeScheme whole).1 = some word at hword
    rcases takeScheme_cases whole with ⟨read, rest, hread, -, htake⟩ | ⟨-, htake⟩
    · rw [htake] at hword
      exact Option.some.inj hword ▸ hread
    · rw [htake] at hword
      cases hword
  scheme_isSome word rest hscheme heq := by
    change (takeScheme whole).1.isSome
    rw [heq, takeScheme_append hscheme]
    rfl
  authority host hhost c hc := by
    change (takeAuthority (takeScheme whole).2).1 = some host at hhost
    rcases takeAuthority_cases (takeScheme whole).2 with
      ⟨read, rest, hread, -, -, htake⟩ | ⟨-, htake⟩
    · rw [htake] at hhost
      obtain rfl := Option.some.inj hhost
      exact endsAuthority_eq_false_iff.mp (hread c hc)
    · rw [htake] at hhost
      cases hhost
  authority_isSome rest heq := by
    change (takeAuthority (takeScheme whole).2).1.isSome
    rcases takeAuthority_cases (takeScheme whole).2 with ⟨read, after, -, -, -, htake⟩ | ⟨hnone, -⟩
    · rw [htake]
      rfl
    · exact absurd ((afterScheme_cut whole).symm.trans heq) (hnone rest)
  path c hc := endsPath_eq_false_iff.mp (endsPath_of_mem_path_cut hc)
  path_of_authority hauthority c hc := by
    change (takeAuthority (takeScheme whole).2).1.isSome at hauthority
    have hfirst : (takeAuthority (takeScheme whole).2).2.head? = some c := by
      rw [← path_append_afterPath_cut, List.head?_append, Option.mem_def.mp hc]
      rfl
    rcases takeAuthority_cases (takeScheme whole).2 with
      ⟨read, rest, -, hrest, -, htake⟩ | ⟨-, htake⟩
    · rw [htake] at hfirst
      have hslash : endsAuthority c = true := hrest c hfirst
      have hpath := endsPath_eq_false_iff.mp (endsPath_of_mem_path_cut (List.mem_of_mem_head? hc))
      simpa [endsAuthority, hpath.1, hpath.2] using hslash
    · rw [htake] at hauthority
      cases hauthority
  query query hquery := not_mem_queryOf hquery

/-- What is written before the fragment. -/
def beforeFragment (d : Decomposition) : List Char :=
  d.scheme.elim [] (· ++ [':']) ++ d.authority.elim [] (['/', '/'] ++ ·) ++ d.path ++
    d.query.elim [] ('?' :: ·)

theorem text_eq_append (d : Decomposition) :
    d.text = d.beforeFragment ++ writtenFragment d.fragment := by
  simp only [text, afterScheme, afterPath, beforeFragment, List.append_assoc]

/-- The fragment begins at the first hash sign of a text. -/
theorem IsOf.hash_not_mem (h : d.IsOf whole) : '#' ∉ d.beforeFragment := by
  simp only [beforeFragment, List.mem_append, not_or]
  refine ⟨⟨⟨?_, ?_⟩, fun hmem => (h.path '#' hmem).2 rfl⟩, ?_⟩
  · cases hscheme : d.scheme with
    | none => exact List.not_mem_nil
    | some word =>
      have hword := h.scheme word hscheme
      cases word with
      | nil => exact absurd hword id
      | cons c word =>
        obtain ⟨hletter, hchars⟩ := hword
        simp only [Option.elim_some, List.mem_append, List.mem_cons, not_or]
        refine ⟨⟨?_, fun hmem => absurd (hchars '#' hmem) (by decide)⟩, by decide⟩
        rintro rfl
        exact absurd hletter (by decide)
  · cases hhost : d.authority with
    | none => exact List.not_mem_nil
    | some host =>
      simp only [Option.elim_some, List.mem_append, not_or]
      exact ⟨by decide, fun hmem => (h.authority host hhost '#' hmem).2.2 rfl⟩
  · cases hquery : d.query with
    | none => exact List.not_mem_nil
    | some query =>
      simp only [Option.elim_some, List.mem_cons, not_or]
      exact ⟨by decide, h.query query hquery⟩

/-- What stands behind the first hash sign is the fragment. -/
theorem IsOf.fragment_eq_some_iff (h : d.IsOf whole) {after : List Char} :
    d.fragment = some after ↔ ∃ before, whole = before ++ '#' :: after ∧ '#' ∉ before := by
  have htext : whole = d.beforeFragment ++ writtenFragment d.fragment :=
    h.text.symm.trans d.text_eq_append
  constructor
  · intro hafter
    rw [hafter] at htext
    exact ⟨d.beforeFragment, htext, h.hash_not_mem⟩
  · rintro ⟨before, hwhole, hbefore⟩
    have hdrop : whole.dropWhile (· != '#') = writtenFragment (some after) :=
      hwhole ▸ (span_hash hbefore (some after)).2
    rw [htext, (span_hash h.hash_not_mem d.fragment).2] at hdrop
    have hread := congrArg fragmentOf hdrop
    rwa [fragmentOf_written, fragmentOf_written] at hread

end Decomposition

/-- The parts of a text are those of its cut, unless a line ends in the fragment. -/
theorem parts_eq (whole : List Char) :
    parts whole = if '\n' ∈ (cut whole).fragment.getD [] then pathParts whole else
      ⟨(cut whole).scheme, (cut whole).authority, (cut whole).path, (cut whole).fragment⟩ := by
  by_cases hline : '\n' ∈ (cut whole).fragment.getD []
  · rw [if_pos hline]
    exact if_pos (List.contains_iff_mem.mpr hline)
  · rw [if_neg hline]
    exact if_neg fun hcontains => hline (List.contains_iff_mem.mp hcontains)

/-- The target of a link is written from its parts, without a query and without an empty
authority. -/
theorem effectiveTarget_ofParts (raw : List Char) (p : Parts) :
    (ofParts raw p).effectiveTarget =
      .ofList (Decomposition.text ⟨p.scheme, p.authority.filter (!·.isEmpty), p.path, none,
        p.fragment⟩) := by
  apply String.toList_injective
  unfold effectiveTarget ofParts
  cases p.scheme <;> cases p.authority.filter (!·.isEmpty) <;> cases p.fragment <;>
    simp [Decomposition.text, Decomposition.afterScheme, Decomposition.afterPath, writtenFragment]

end AuthoredLink

end TopicLinks
