import MarkupAudit.Markup.Tag
import MarkupAudit.Pattern.Search

/-!
Attributes of an opening tag. The insides of quoted values are masked first, so that an attribute is
sought outside of them, and its value is read from the tag itself at the offset that was found.
-/

namespace MarkupAudit.Markup

/-- A quotation mark that `rest` follows opens a quoted part if the same mark follows later. -/
def opensQuote (c : Char) (rest : Text) : Bool :=
  (c = '"' || c = '\'') && rest.contains c

/-- The text with spaces in place of what its quoted parts enclose. The first argument is the mark
of the quoted part that the text starts in. -/
def maskFrom : Option Char → Text → Text
  | _, [] => []
  | some mark, c :: r => if c = mark then c :: maskFrom none r else ' ' :: maskFrom (some mark) r
  | none, c :: r => c :: maskFrom (if opensQuote c r then some c else none) r

/-- The text with spaces in place of what its quoted parts enclose. -/
def maskQuoted (t : Text) : Text :=
  maskFrom none t

/-- The text with two double quotation marks in place of each quoted part. -/
def collapseFrom : Option Char → Text → Text
  | _, [] => []
  | some mark, c :: r => collapseFrom (if c = mark then none else some mark) r
  | none, c :: r =>
    if opensQuote c r then '"' :: '"' :: collapseFrom (some c) r else c :: collapseFrom none r

/-- The text with two double quotation marks in place of each quoted part. -/
def collapseQuoted (t : Text) : Text :=
  collapseFrom none t

/-- A character after which an attribute's name may start. -/
def endsAttribute (c : Char) : Bool :=
  Text.isBlank c || c = '"' || c = '\'' || c = '/'

open Pattern in
/-- An attribute of the name, with or without a value. -/
def attributePattern (name : Text) : Pattern :=
  one endsAttribute ++ letters name ++
    ahead (blanks ++ word "=" <|> blank <|> optional (word "/") ++ word ">" <|> lastLineEnd)

open Pattern in
/-- An attribute of the name and the sign after which its value stands. -/
def valuePattern (name : Text) : Pattern :=
  one endsAttribute ++ letters name ++ blanks ++ word "=" ++ blanks

/-- Whether the opening tag has an attribute of the name. -/
def hasAttribute (tag name : Text) : Bool :=
  (attributePattern name).occursIn (maskQuoted (openingTag tag))

/-- A value as it is written in a tag. -/
structure WrittenValue where
  /-- The number of characters of the written form, quotation marks included. -/
  width : Nat
  /-- The value itself. -/
  value : Text

/-- The value that a text begins with: a quoted one, or characters that are neither white space nor
a quotation mark nor `>`. -/
def readValue? (t : Text) : Option WrittenValue :=
  match t with
  | [] => none
  | c :: r =>
    if c = '"' || c = '\'' then
      if r.contains c then
        let value := r.takeWhile (· != c)
        some { width := value.length + 2, value }
      else none
    else
      let value := t.takeWhile fun x => !(Text.isBlank x || x = '"' || x = '\'' || x = '>')
      if value.isEmpty then none else some { width := value.length, value }

/-- The offset and the written form of the value of the first attribute of the name that is given
one. -/
def valueAt? (tag name : Text) : Option (Nat × WrittenValue) :=
  let opening := openingTag tag
  match (valuePattern name).first? (maskQuoted opening) with
  | none => none
  | some found => (readValue? (opening.drop found.stop)).map fun value => (found.stop, value)

/-- The value of the first attribute of the name that is given one. -/
def attributeValue? (tag name : Text) : Option Text :=
  (valueAt? tag name).map fun found => found.2.value

/-- The value of an attribute, or no characters if it has none. -/
def attributeValue (tag : Text) (name : String) : Text :=
  (attributeValue? tag name.toList).getD []

/-- A character that an attribute's name may start with. -/
def startsAttributeName (c : Char) : Bool :=
  c.isAlpha || c = '_' || c = ':' || c = '@'

/-- A character that may follow the first one of an attribute's name. -/
def isAttributeNameChar (c : Char) : Bool :=
  Text.isWord c || c = ':' || c = '.' || c = '@' || c = '-'

/-- The names in a text, each after white space. -/
def namesIn : Text → List Text
  | [] => []
  | c :: r =>
    if Text.isBlank c && r.head?.any startsAttributeName then
      r.takeWhile isAttributeNameChar :: namesIn r
    else namesIn r

/-- The names of the attributes of the opening tag, in order and in lower case. -/
def attributeNames (tag : Text) : List Text :=
  let opening := collapseQuoted (openingTag tag)
  (namesIn (opening.drop ((tagName opening).length + 1))).map Text.lower

/-- Whether the opening tag has an attribute of one of the names. -/
def hasAnyAttribute (tag : Text) (names : List String) : Bool :=
  names.any fun name => hasAttribute tag name.toList

end MarkupAudit.Markup
