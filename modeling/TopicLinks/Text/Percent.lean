import TopicLinks.Text.Utf8

/-!
# Percent escapes

An escape is `%` and two hexadecimal digits, and stands for one byte. Anything else,
a malformed escape included, stands for its own UTF-8 bytes.
-/

namespace TopicLinks.Text.Percent

/-- The value of a hexadecimal digit in either case. -/
def hexValue? (c : Char) : Option Nat :=
  if '0' ≤ c ∧ c ≤ '9' then some (c.toNat - '0'.toNat)
  else if 'a' ≤ c ∧ c ≤ 'f' then some (c.toNat - 'a'.toNat + 10)
  else if 'A' ≤ c ∧ c ≤ 'F' then some (c.toNat - 'A'.toNat + 10)
  else none

/-- The byte written by two hexadecimal digits. -/
def escape? (high low : Char) : Option UInt8 :=
  match hexValue? high, hexValue? low with
  | some h, some l => some (UInt8.ofNat (h * 16 + l))
  | _, _ => none

/-- The bytes a text stands for. -/
def bytes : List Char → List UInt8
  | '%' :: a :: b :: rest =>
    match escape? a b with
    | some byte => byte :: bytes rest
    | none => String.utf8EncodeChar '%' ++ bytes (a :: b :: rest)
  | c :: rest => String.utf8EncodeChar c ++ bytes rest
  | [] => []

/-- Replace the escapes of a text by the characters they spell. Bytes that are not
UTF-8 become U+FFFD. -/
def decode (text : List Char) : List Char :=
  Utf8.decodeLossy (bytes text)

end TopicLinks.Text.Percent
