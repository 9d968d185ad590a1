/-!
# Blank characters

Authored text is trimmed and cut into words at Unicode white space. The class is
the `White_Space` property, which is wider than the ASCII class of `Char.isWhitespace`.
-/

namespace TopicLinks.Text

/-- A character is blank when it has the Unicode property `White_Space`. -/
def isBlank (c : Char) : Bool :=
  (0x09 ≤ c.toNat && c.toNat ≤ 0x0D) || c.toNat == 0x20 || c.toNat == 0x85 ||
    c.toNat == 0xA0 || c.toNat == 0x1680 || (0x2000 ≤ c.toNat && c.toNat ≤ 0x200A) ||
    c.toNat == 0x2028 || c.toNat == 0x2029 || c.toNat == 0x202F || c.toNat == 0x205F ||
    c.toNat == 0x3000

/-- Remove the blanks after the last character that is not blank. -/
def trimEnd : List Char → List Char
  | [] => []
  | c :: rest =>
    match trimEnd rest with
    | [] => if isBlank c then [] else [c]
    | kept => c :: kept

/-- Remove the blanks on both sides of a text. -/
def trim (text : List Char) : List Char :=
  trimEnd (text.dropWhile isBlank)

/-- The maximal runs of characters that are not blank, in order. -/
def words (text : List Char) : List (List Char) :=
  (text.splitOnP isBlank).filter (!·.isEmpty)

end TopicLinks.Text
