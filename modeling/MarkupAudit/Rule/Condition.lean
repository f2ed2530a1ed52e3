import MarkupAudit.Markup.Element
import MarkupAudit.Markup.Style
import MarkupAudit.Rule.Basic
import MarkupAudit.Text.Digit

/-! Conditions and patterns that rules of several subjects share. -/

namespace MarkupAudit

namespace Condition

/-- A condition on the matched characters alone. -/
def ofTag (holds : Text → Bool) : Condition :=
  ofBool fun tag _ => holds tag

/-- A condition on the whole text alone. -/
def ofDocument (holds : Text → Bool) : Condition :=
  ofBool fun _ document => holds document

end Condition

namespace Markup

open Pattern

/-- Whether the tag names its element by a label, a reference to a label or a title. -/
def isLabelled (tag : Text) : Bool :=
  hasAnyAttribute tag ["aria-label", "aria-labelledby", "title"]

/-- Whether the tag has no alternative text. -/
def lacksAlt (tag : Text) : Bool :=
  !hasAttribute tag "alt".toList

/-- Whether the body of the element shows no text. -/
def isEmptyElement (t : Text) : Bool :=
  (innerText (elementBody t)).isEmpty

/-- The value of an attribute, trimmed. -/
def trimmedValue (tag : Text) (name : String) : Text :=
  Text.trim (attributeValue tag name)

/-- The value of an attribute, trimmed and in lower case. -/
def plainValue (tag : Text) (name : String) : Text :=
  Text.lower (trimmedValue tag name)

/-- Whether a text is one of the words. -/
def isOneOf (t : Text) (words : List String) : Bool :=
  words.any fun word => t == word.toList

/-- Whether sound or a moving picture starts by itself and cannot be stopped. -/
def playsUnasked (tag : Text) : Bool :=
  hasAttribute tag "autoplay".toList && !hasAttribute tag "controls".toList

/-- The texts that are not empty, with a space between neighbours. -/
def joined (ts : List Text) : Text :=
  Text.join [' '] (ts.filter fun t => !t.isEmpty)

/-- A quoted value of at least one character that does not start with white space. -/
def shownValue (mark : Char) : Pattern :=
  one (· == mark) ++ one (fun c => !(c == mark || Text.isBlank c)) ++ longest (· != mark) ++
    one (· == mark)

/-- An image with an alternative text that shows something. -/
def namedImage : Pattern :=
  tagStart (word "img") ++ longest (· != '>') ++ blank ++ word "alt" ++ blanks ++ word "=" ++
    blanks ++ (shownValue '"' <|> shownValue '\'')

/-- Whether an element has no name, no text and no named image. -/
def isSilent (t : Text) : Bool :=
  !isLabelled t && isEmptyElement t && !namedImage.occursIn (elementBody t)

/-- An attribute of the name with a value that starts as `value` does, not necessarily after white
space. -/
def given (name : String) (value : Pattern) : Pattern :=
  word name ++ blanks ++ word "=" ++ blanks ++ quoteMark? ++ value

/-- The value of an attribute of the name, as a whole and ignoring case. -/
def wholeValue (name : String) (value : Text) : Pattern :=
  blank ++ given name (letters value) ++
    one fun c => c == '"' || c == '\'' || c == '>' || Text.isBlank c

/-- One or more decimal digits. -/
def digits : Pattern :=
  one Text.isDecimal ++ longest Text.isDecimal

/-- The start of a heading. -/
def heading : Pattern :=
  tagStart headingName

/-- The start of a field that a label may wrap. -/
def field : Pattern :=
  tagStart (anyOf [word "input", word "select", word "textarea"])

/-- One of the words, ignoring case. -/
def anyWord (words : List String) : Pattern :=
  anyOf (words.map word)

/-- One of the words with no word character beside it. -/
def wholeWord (words : List String) : Pattern :=
  wordEdge ++ anyWord words ++ wordEdge

end Markup

end MarkupAudit
