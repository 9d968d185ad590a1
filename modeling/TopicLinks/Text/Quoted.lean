import TopicLinks.Text.Unseen

/-!
# Quoted texts

A text between quotation marks, as descriptions show it. The two characters that would be
misread are shown after a backslash, and characters that would not be seen for themselves
are shown by a letter or by number.
-/

namespace TopicLinks.Text

/-- The lower-case hexadecimal digits of a number. -/
def hexDigits (n : Nat) : String := .ofList (Nat.toDigits 16 n)

/-- A character as it is shown between quotation marks. -/
def quotedChar (c : Char) : String :=
  if c = '\"' then "\\\""
  else if c = '\\' then "\\\\"
  else if c = '\n' then "\\n"
  else if c = '\r' then "\\r"
  else if c = '\t' then "\\t"
  else if c.toNat = 0 then "\\0"
  else if isUnseen c then "\\u\x7b" ++ hexDigits c.toNat ++ "\x7d"
  else c.toString

/-- A text between quotation marks. -/
def quoted (text : String) : String :=
  "\"" ++ String.join (text.toList.map quotedChar) ++ "\""

end TopicLinks.Text
