import TopicLinks.Text.Percent
import TopicLinks.Toml.Line

/-!
# TOML strings

Basic strings stand between quotation marks and know escapes; literal strings stand
between apostrophes and do not. Both have a form over several lines between three marks.
-/

namespace TopicLinks.Toml

/-- The characters that a basic string holds unescaped. -/
def isBasicChar (c : Char) : Bool := isCommentChar c && c != '\"' && c != '\\'

/-- The characters of a literal string. -/
def isLiteralChar (c : Char) : Bool := isCommentChar c && c != '\''

/-- The character that one letter after a backslash stands for. -/
def letterEscape? : Char → Option Char
  | 'b' => some (Char.ofNat 0x08)
  | 't' => some '\t'
  | 'n' => some '\n'
  | 'f' => some (Char.ofNat 0x0C)
  | 'r' => some '\r'
  | '\"' => some '\"'
  | '\\' => some '\\'
  | _ => none

/-- The character with a code written in hexadecimal digits. Surrogates are none. -/
def coded? (digits : List Char) : Option Char := do
  let values ← digits.mapM Text.Percent.hexValue?
  let code := values.foldl (fun code value => code * 16 + value) 0
  if code.isValidChar then some (Char.ofNat code) else none

/-- Put a character in front of what was read. -/
def prepend (c : Char) (read : Option (List Char × List Char)) :
    Option (List Char × List Char) :=
  read.map fun (text, rest) => (c :: text, rest)

/-- The rest of a basic string on one line, and what follows it. -/
def basic? : List Char → Option (List Char × List Char)
  | [] => none
  | '\"' :: rest => some ([], rest)
  | '\\' :: 'u' :: a :: b :: c :: d :: rest => do
    let char ← coded? [a, b, c, d]
    prepend char (basic? rest)
  | '\\' :: 'U' :: a :: b :: c :: d :: e :: f :: g :: h :: rest => do
    let char ← coded? [a, b, c, d, e, f, g, h]
    prepend char (basic? rest)
  | '\\' :: letter :: rest => do
    let char ← letterEscape? letter
    prepend char (basic? rest)
  | c :: rest => if isBasicChar c then prepend c (basic? rest) else none

/-- After three closing marks up to two more marks belong to the string. -/
def closing (mark : Char) : List Char → List Char × List Char
  | [] => ([], [])
  | [c] => if c == mark then ([mark], []) else ([], [c])
  | c :: d :: rest =>
    if c == mark then if d == mark then ([mark, mark], rest) else ([mark], d :: rest)
    else ([], c :: d :: rest)

/-- The rest of a basic string over several lines. A backslash at the end of a line skips
all blanks and line ends after it; the flag tells whether these are being skipped. -/
def longBasic? (skipping : Bool) : List Char → Option (List Char × List Char)
  | [] => none
  | '\"' :: '\"' :: '\"' :: rest => some (closing '\"' rest)
  | '\r' :: '\n' :: rest =>
    if skipping then longBasic? true rest else prepend '\n' (longBasic? false rest)
  | '\\' :: 'u' :: a :: b :: c :: d :: rest => do
    let char ← coded? [a, b, c, d]
    prepend char (longBasic? false rest)
  | '\\' :: 'U' :: a :: b :: c :: d :: e :: f :: g :: h :: rest => do
    let char ← coded? [a, b, c, d, e, f, g, h]
    prepend char (longBasic? false rest)
  | '\\' :: next :: rest =>
    if (lineFeed? (skipBlanks (next :: rest))).isSome then longBasic? true (next :: rest)
    else do
      let char ← letterEscape? next
      prepend char (longBasic? false rest)
  | c :: rest =>
    if c == '\n' then
      if skipping then longBasic? true rest else prepend '\n' (longBasic? false rest)
    else if skipping && isBlank c then longBasic? true rest
    else if isBasicChar c || c == '\"' then prepend c (longBasic? false rest)
    else none

/-- The rest of a literal string on one line, and what follows it. -/
def literal? (text : List Char) : Option (List Char × List Char) :=
  match text.dropWhile isLiteralChar with
  | '\'' :: rest => some (text.takeWhile isLiteralChar, rest)
  | _ => none

/-- The rest of a literal string over several lines. -/
def longLiteral? : List Char → Option (List Char × List Char)
  | [] => none
  | '\'' :: '\'' :: '\'' :: rest => some (closing '\'' rest)
  | '\r' :: '\n' :: rest => prepend '\n' (longLiteral? rest)
  | c :: rest =>
    if isLiteralChar c || c == '\'' || c == '\n' then prepend c (longLiteral? rest) else none

/-- A string of any form. A line end right after three opening marks is not part of it. -/
def string? : List Char → Option (List Char × List Char)
  | '\"' :: '\"' :: '\"' :: rest => longBasic? false (dropLineFeed rest)
  | '\"' :: rest => basic? rest
  | '\'' :: '\'' :: '\'' :: rest => longLiteral? (dropLineFeed rest)
  | '\'' :: rest => literal? rest
  | _ => none

end TopicLinks.Toml
