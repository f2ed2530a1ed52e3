import MarkupAudit.Pattern.Search

/-!
Patterns of tags and elements. Names are compared without regard to case, and a name ends where no
word character follows it.
-/

namespace MarkupAudit.Pattern

/-- The rest of a tag after its name, with the bracket that closes it. -/
def restOfTag : Pattern :=
  longest (· != '>') ++ word ">"

/-- A closing tag. -/
def closingTag (name : Pattern) : Pattern :=
  word "</" ++ name ++ blanks ++ word ">"

/-- An opening tag with one of the names, in which `rest` follows the name. -/
def tagOf (names : List Pattern) (rest : Pattern) : Pattern :=
  word "<" ++ anyOf names ++ wordEdge ++ rest

/-- An opening tag with one of the names. -/
def tag (names : List String) : Pattern :=
  tagOf (names.map word) restOfTag

/-- An opening tag together with what follows up to the first closing tag of the name. -/
def elementOf (name : Pattern) : Pattern :=
  word "<" ++ name ++ wordEdge ++ restOfTag ++ shortest (fun _ => true) ++ closingTag name

/-- An element, or its opening tag alone if no closing tag of the name follows. -/
def elementOrTagOf (name : Pattern) : Pattern :=
  word "<" ++ name ++ wordEdge ++ restOfTag ++
    optional (shortest (fun _ => true) ++ closingTag name)

/-- An element of the name. -/
def element (name : String) : Pattern :=
  elementOf (word name)

/-- An element of the name, or its opening tag alone if no closing tag follows. -/
def elementOrTag (name : String) : Pattern :=
  elementOrTagOf (word name)

/-- The rest of a tag in which an attribute of the name is given a value. -/
def restWith (attr : String) : Pattern :=
  longest (· != '>') ++ blank ++ word attr ++ blanks ++ word "=" ++ restOfTag

/-- The name of a heading, `h1` to `h6`. -/
def headingName : Pattern :=
  word "h" ++ oneIn "123456"

/-- A quotation mark of either kind, or none. -/
def quoteMark? : Pattern :=
  optional (oneIn "\"'")

/-- The start of an opening tag of the name. -/
def tagStart (name : Pattern) : Pattern :=
  word "<" ++ name ++ wordEdge

end MarkupAudit.Pattern

namespace MarkupAudit.Markup

/-- Whether an opening tag of the name starts somewhere in the text. -/
def containsTag (t : Text) (name : String) : Bool :=
  (Pattern.tagStart (Pattern.word name)).occursIn t

end MarkupAudit.Markup
