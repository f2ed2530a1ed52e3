import MarkupAudit.Text.Blank
import MarkupAudit.Text.Case
import MarkupAudit.Text.Word

/-!
Parts of a matched span: the opening tag it starts with, the name of that tag, the body between the
opening tag and the last closing tag, and the text that a reader sees.
-/

namespace MarkupAudit.Markup

/-- The text up to and with its first `>`, or the whole text if it has none. -/
def openingTag : Text → Text
  | [] => []
  | c :: r => if c = '>' then [c] else c :: openingTag r

/-- What precedes the last `</`, if there is one. -/
def beforeLastClosing? : Text → Option Text
  | [] => none
  | c :: r =>
    match beforeLastClosing? r with
    | some body => some (c :: body)
    | none => if c = '<' && r.head? == some '/' then some [] else none

/-- What follows the first `>`, up to the last `</` after it if there is one. -/
def elementBody (t : Text) : Text :=
  match t.dropWhile (· != '>') with
  | [] => []
  | _ :: rest => (beforeLastClosing? rest).getD rest

/-- A character that may follow the first letter of a tag's name. -/
def isNameChar (c : Char) : Bool :=
  Text.isWord c || c = ':' || c = '-'

/-- The start of a tag: what precedes its name, the name, and what follows. -/
structure TagHead where
  lead : Text
  name : Text
  rest : Text

/-- The start of the tag that a text begins with: `<`, white space, and a name that begins with one
of the letters a to z. -/
def tagHead? : Text → Option TagHead
  | '<' :: r =>
    let afterBlanks := r.dropWhile Text.isBlank
    match afterBlanks with
    | c :: _ =>
      if c.isAlpha then
        some
          { lead := '<' :: r.takeWhile Text.isBlank
            name := afterBlanks.takeWhile isNameChar
            rest := afterBlanks.dropWhile isNameChar }
      else none
    | [] => none
  | _ => none

/-- The name of the tag that a text begins with, in lower case, or no characters. -/
def tagName (t : Text) : Text :=
  match tagHead? t with
  | some head => Text.lower head.name
  | none => []

/-- The text with a space in place of each tag, that is of `<`, one or more characters other than
`>`, and `>`. The flag tells whether the text starts inside a tag. -/
def dropTags : Bool → Text → Text
  | _, [] => []
  | true, c :: r => dropTags (c != '>') r
  | false, c :: r =>
    if c = '<' && r.head? != some '>' && r.contains '>' then ' ' :: dropTags true r
    else c :: dropTags false r

/-- The text that a reader sees: without tags, and with a single space between words. -/
def innerText (t : Text) : Text :=
  Text.join [' '] (Text.words (dropTags false t))

end MarkupAudit.Markup
