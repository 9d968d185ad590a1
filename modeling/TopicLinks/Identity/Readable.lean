import TopicLinks.Text.Blank
import TopicLinks.Text.Percent

/-!
# Readable segments and fragments

The path of an identity is a list of segments made of URL characters only. Text of
any kind is brought into this form: escapes are decoded, runs of other characters
become one underscore, and a segment with no URL character becomes a placeholder.
-/

namespace TopicLinks.Readable

open Text

/-- The characters a segment may have: letters and digits of ASCII, and the marks
that a URL path allows unescaped. -/
def isPathChar (c : Char) : Bool :=
  c.isAlphanum || "-._~!$&'()*+,;=:@".toList.contains c

/-- The characters a fragment may have. -/
def isFragmentChar (c : Char) : Bool :=
  isPathChar c || c == '/' || c == '?'

/-- The segment that stands for a text without any path character. -/
def placeholder : List Char := "---".toList

/-- Keep the path characters and write one underscore for each run of others. The flag
tells whether the text before was such a run. -/
def collapse (inGap : Bool) : List Char → List Char
  | [] => []
  | c :: rest =>
    if isPathChar c then c :: collapse false rest
    else if inGap then collapse true rest
    else '_' :: collapse true rest

/-- The readable form of one segment. -/
def segment (text : List Char) : List Char :=
  if text.isEmpty then []
  else if text.any isPathChar then collapse false text
  else placeholder

/-- The pieces of a text between slashes, without the empty ones. -/
def pieces (text : List Char) : List (List Char) :=
  (text.splitOn '/').filter (!·.isEmpty)

/-- The readable segments of a path as given. Its escapes are decoded once, before
the path is cut at its slashes. -/
def segments (path : String) : List String :=
  (pieces (Percent.decode path.toList)).map (fun piece => .ofList (segment piece))

/-- The readable form of a fragment: its words, each without the characters that are
not allowed, joined by hyphens. Words without an allowed character vanish. -/
def fragment (text : String) : String :=
  .ofList (['-'].intercalate
    (((words text.toList).map (·.filter isFragmentChar)).filter (!·.isEmpty)))

end TopicLinks.Readable
