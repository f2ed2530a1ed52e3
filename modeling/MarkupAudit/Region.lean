import MarkupAudit.Markup.Element

/-!
Regions that are not markup: comments, and script and style elements as a whole. A document is
examined with these regions blanked in place, which keeps its length and its lines, so that an
offset in the blanked text is an offset in the document.
-/

namespace MarkupAudit.Region

open Pattern

/-- A comment. It ends at once after `<!-->` and `<!--->`, otherwise after the first `-->`, or with
the text if there is none. -/
def comment : Pattern :=
  exactly "<!--".toList ++
    (exactly "->".toList <|> exactly ">".toList <|>
      shortest (fun _ => true) ++ (exactly "-->".toList <|> textEnd))

/-- An element with all its content, up to its first closing tag or, if there is none, to the end of
the text. -/
def element (name : String) : Pattern :=
  word "<" ++ word name ++ wordEdge ++ restOfTag ++
    shortest (fun _ => true) ++ (closingTag (word name) <|> textEnd)

/-- A region of one of the three kinds. -/
def pattern : Pattern :=
  comment <|> element "script" <|> element "style"

/-- The regions of a text, from left to right. What starts inside a region belongs to it. -/
def all (t : Text) : List (Nat × Nat) :=
  (pattern.all t).map fun m => (m.start, m.stop)

/-- What stands for a character of a region: line breaks stay, all else becomes a space. -/
def blanked (c : Char) : Char :=
  if c = '\n' || c = '\r' then c else ' '

/-- What follows `cursor` with the regions blanked; `t` is the text from there. -/
def blankFrom (cursor : Nat) (t : Text) : List (Nat × Nat) → Text
  | [] => t
  | (start, stop) :: regions =>
    t.take (start - cursor) ++ ((t.drop (start - cursor)).take (stop - start)).map blanked ++
      blankFrom stop (t.drop (stop - cursor)) regions

/-- The text with its regions blanked. -/
def blank (t : Text) : Text :=
  blankFrom 0 t (all t)

end MarkupAudit.Region
