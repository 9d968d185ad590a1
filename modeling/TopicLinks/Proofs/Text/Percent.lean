import TopicLinks.Text.Percent
import TopicLinks.Proofs.Text.Utf8

/-!
# Spellings with escapes

A text without percent signs may be spelled with escapes for some of its characters. Every spelling
is decoded to the text itself. A slash is neither a hexadecimal digit nor part of an encoded
character, so whatever stands around it, however broken, is decoded on its own.
-/

namespace TopicLinks.Text.Percent

/-! ### Where escapes begin and end -/

/-- A character that does not begin an escape stands for its own bytes. -/
theorem bytes_cons_of_not_escape {c : Char} {rest : List Char}
    (h : ∀ a b tail, c = '%' → rest = a :: b :: tail → escape? a b = none) :
    bytes (c :: rest) = String.utf8EncodeChar c ++ bytes rest := by
  by_cases hc : c = '%'
  · subst hc
    cases rest with
    | nil => rfl
    | cons a rest =>
      cases rest with
      | nil => rfl
      | cons b tail => simp only [bytes, h a b tail rfl rfl]
  · rw [bytes]
    exact fun a b tail heq => absurd heq hc

theorem bytes_cons {c : Char} (h : c ≠ '%') (rest : List Char) :
    bytes (c :: rest) = String.utf8EncodeChar c ++ bytes rest :=
  bytes_cons_of_not_escape fun _ _ _ heq => absurd heq h

/-- Two hexadecimal digits behind a percent sign stand for one byte. -/
theorem bytes_escape {a b : Char} {byte : UInt8} (h : escape? a b = some byte) (rest : List Char) :
    bytes ('%' :: a :: b :: rest) = byte :: bytes rest := by
  simp only [bytes, h]

/-- An escape has two hexadecimal digits. -/
theorem escape?_eq_none {a b : Char} (h : hexValue? a = none ∨ hexValue? b = none) :
    escape? a b = none := by
  unfold escape?
  rcases h with h | h
  · rw [h]
  · rw [h]
    cases hexValue? a <;> rfl

/-- A character that separates: it stands for one byte, whatever is around it. -/
structure Separates (c : Char) : Prop where
  /-- It is one byte below 0x80. -/
  lt : c.toNat < 0x80
  /-- It begins no escape, -/
  ne_percent : c ≠ '%'
  /-- and stands in none. -/
  not_digit : hexValue? c = none

theorem separates_slash : Separates '/' := ⟨by decide, by decide, by decide⟩

/-- No escape goes across a separator: what is malformed before it stays malformed. -/
theorem bytes_append_cons {c : Char} (hc : Separates c) (before after : List Char) :
    bytes (before ++ c :: after) = bytes before ++ .ofNat c.toNat :: bytes after := by
  induction before using bytes.induct with
  | case1 a b rest byte h ih =>
    rw [bytes_escape h]
    exact (bytes_escape h _).trans (congrArg (byte :: ·) ih)
  | case2 a b rest h ih =>
    have hliteral : ∀ tail, bytes ('%' :: a :: b :: tail) =
        String.utf8EncodeChar '%' ++ bytes (a :: b :: tail) := by
      intro tail
      refine bytes_cons_of_not_escape fun x y rest _ heq => ?_
      obtain ⟨hx, heq⟩ := List.cons.inj heq
      obtain ⟨hy, -⟩ := List.cons.inj heq
      rw [← hx, ← hy, h]
    rw [hliteral, List.append_assoc, ← ih]
    exact hliteral _
  | case3 d rest hshort ih =>
    -- If a percent sign begins here, then at most one character is left before the separator.
    have hliteral : ∀ a b tail, d = '%' → rest ++ c :: after = a :: b :: tail →
        escape? a b = none := by
      intro a b tail hd heq
      cases rest with
      | nil =>
        obtain ⟨rfl, -⟩ := List.cons.inj heq
        exact escape?_eq_none (Or.inl hc.not_digit)
      | cons x rest =>
        cases rest with
        | nil =>
          obtain ⟨-, heq⟩ := List.cons.inj heq
          obtain ⟨rfl, -⟩ := List.cons.inj heq
          exact escape?_eq_none (Or.inr hc.not_digit)
        | cons y rest => exact absurd rfl (hshort x y rest hd)
    have hbefore : bytes (d :: rest) = String.utf8EncodeChar d ++ bytes rest :=
      bytes_cons_of_not_escape fun a b tail hd heq => absurd heq (hshort a b tail hd)
    rw [List.cons_append, bytes_cons_of_not_escape hliteral, ih, hbefore, List.append_assoc]
  | case4 =>
    rw [List.nil_append, bytes_cons hc.ne_percent, Utf8.utf8EncodeChar_of_lt hc.lt]
    rfl

/-- Decoding splits at every separator, whatever stands around it. -/
theorem decode_append_cons {c : Char} (hc : Separates c) (before after : List Char) :
    decode (before ++ c :: after) = decode before ++ c :: decode after := by
  rw [decode, bytes_append_cons hc, Utf8.decodeLossy_append_of_lt hc.lt]
  rfl

/-! ### Spellings of one text -/

/-- A character is a hexadecimal digit of a value, in lower or upper case. -/
def IsHexDigit (value : Nat) (c : Char) : Prop :=
  c = value.digitChar ∨ c = value.digitChar.toUpper

/-- A text spells bytes by an escape for each of them. -/
inductive Escapes : List UInt8 → List Char → Prop where
  /-- No bytes are spelled by nothing. -/
  | nil : Escapes [] []
  /-- The first byte is spelled by a percent sign and its two digits. -/
  | cons {byte : UInt8} {high low : Char} {rest : List UInt8} {text : List Char}
    (hhigh : IsHexDigit (byte.toNat / 16) high) (hlow : IsHexDigit (byte.toNat % 16) low)
    (h : Escapes rest text) : Escapes (byte :: rest) ('%' :: high :: low :: text)

/-- A text spelled with escapes of the UTF-8 bytes of some of its characters. -/
inductive Spells : List Char → List Char → Prop where
  /-- Nothing is spelled by nothing. -/
  | nil : Spells [] []
  /-- A character may be kept. -/
  | kept (c : Char) {text spelling : List Char} (h : Spells text spelling) :
    Spells (c :: text) (c :: spelling)
  /-- A character may be escaped. -/
  | escaped {c : Char} {escapes text spelling : List Char}
    (hc : Escapes (String.utf8EncodeChar c) escapes) (h : Spells text spelling) :
    Spells (c :: text) (escapes ++ spelling)

/-- A hexadecimal digit is read as its value. -/
theorem IsHexDigit.hexValue? {value : Nat} (hvalue : value < 16) {c : Char}
    (h : IsHexDigit value c) : hexValue? c = some value := by
  have hdigits : ∀ value < 16, Percent.hexValue? value.digitChar = some value ∧
      Percent.hexValue? value.digitChar.toUpper = some value := by decide
  rcases h with rfl | rfl
  · exact (hdigits value hvalue).1
  · exact (hdigits value hvalue).2

/-- The two digits of a byte are read as the byte. -/
theorem escape?_of_digits {byte : UInt8} {high low : Char}
    (hhigh : IsHexDigit (byte.toNat / 16) high) (hlow : IsHexDigit (byte.toNat % 16) low) :
    escape? high low = some byte := by
  have hbyte : byte.toNat < 256 := byte.toNat_lt
  rw [escape?, hhigh.hexValue? (by omega), hlow.hexValue? (by omega)]
  simp only [Nat.div_add_mod', UInt8.ofNat_toNat]

/-- Escapes are read as the bytes that they spell. -/
theorem Escapes.bytes_append {written : List UInt8} {text : List Char} (h : Escapes written text)
    (rest : List Char) : bytes (text ++ rest) = written ++ bytes rest := by
  induction h with
  | nil => rfl
  | @cons byte _ _ _ _ hhigh hlow _ ih =>
    exact (bytes_escape (escape?_of_digits hhigh hlow) _).trans (congrArg (byte :: ·) ih)

/-- Every spelling of a text without percent signs stands for the bytes of the text. -/
theorem Spells.bytes_eq {text spelling : List Char} (h : Spells text spelling)
    (hplain : '%' ∉ text) : bytes spelling = Utf8.encode text := by
  induction h with
  | nil => rfl
  | kept c _ ih =>
    obtain ⟨hc, hrest⟩ := not_or.mp (mt List.mem_cons.mpr hplain)
    rw [bytes_cons (Ne.symm hc), ih hrest]
    rfl
  | escaped hc _ ih =>
    have hrest := fun hmem => hplain (List.mem_cons_of_mem _ hmem)
    rw [hc.bytes_append, ih hrest]
    rfl

/-- Every spelling of a text without percent signs is decoded to the text. -/
theorem Spells.decode_eq {text spelling : List Char} (h : Spells text spelling)
    (hplain : '%' ∉ text) : decode spelling = text := by
  rw [decode, h.bytes_eq hplain, Utf8.decodeLossy_encode]

/-- A text is a spelling of itself. -/
theorem Spells.refl (text : List Char) : Spells text text := by
  induction text with
  | nil => exact .nil
  | cons c rest ih => exact .kept c ih

/-- A text without percent signs is its own decoding. -/
theorem decode_eq_self {text : List Char} (hplain : '%' ∉ text) : decode text = text :=
  (Spells.refl text).decode_eq hplain

end TopicLinks.Text.Percent
