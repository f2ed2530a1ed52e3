import MarkupAudit.Text.Basic
import MarkupAudit.Text.CodeRange

/-!
White space: the characters with the Unicode property of that name and the four separators
U+001C to U+001F.
-/

namespace MarkupAudit.Text

/-- Ranges of the white space, in increasing order. -/
def blankRanges : CodeRanges :=
  [(0x9, 0xD), (0x1C, 0x20), (0x85, 0x85), (0xA0, 0xA0), (0x1680, 0x1680), (0x2000, 0x200A),
   (0x2028, 0x2029), (0x202F, 0x202F), (0x205F, 0x205F), (0x3000, 0x3000)]

/-- A white space character. -/
def isBlank (c : Char) : Bool :=
  blankRanges.covers c

/-- The text without its leading white space. -/
def trimLeft (t : Text) : Text :=
  t.dropWhile isBlank

/-- The text without its trailing white space. -/
def trimRight (t : Text) : Text :=
  (t.reverse.dropWhile isBlank).reverse

/-- The text without leading and trailing white space. -/
def trim (t : Text) : Text :=
  trimRight (trimLeft t)

/-- The string without leading and trailing white space. -/
def trimString (s : String) : String :=
  String.ofList (trim s.toList)

/-- The maximal runs of characters that are not white space; `word` is the run being read. -/
def wordsFrom (word : Text) : Text → List Text
  | [] => if word.isEmpty then [] else [word.reverse]
  | c :: r =>
    if isBlank c then
      if word.isEmpty then wordsFrom [] r else word.reverse :: wordsFrom [] r
    else wordsFrom (c :: word) r

/-- The maximal runs of characters that are not white space, in order. -/
def words (t : Text) : List Text :=
  wordsFrom [] t

/-- A text that shows nothing: empty, or white space only. -/
def isFiller (t : Text) : Bool :=
  t.all isBlank

end MarkupAudit.Text
