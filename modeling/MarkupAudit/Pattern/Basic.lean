import MarkupAudit.Text.Basic
import MarkupAudit.Text.Blank
import MarkupAudit.Text.Fold
import MarkupAudit.Text.Word

/-!
Patterns over texts. A pattern may match at a place in several ways, and the ways are ordered: of
two alternatives the first one is preferred, a longest run prefers more characters and a shortest
run prefers fewer. What a pattern matches at a place is the first way in this order after which
all that follows it matches too.
-/

namespace MarkupAudit

/-- A place in a text, reached by a match in progress. -/
structure Cursor where
  /-- The character just before the place. -/
  before : Option Char
  /-- The number of characters before the place. -/
  offset : Nat
  /-- The characters after the place. -/
  rest : Text
  /-- The part of the text that the match has set aside. -/
  held : Text := []

namespace Cursor

/-- The start of a text. -/
def start (t : Text) : Cursor :=
  { before := none, offset := 0, rest := t }

/-- The place after the next character `c`, which `rest` follows. -/
def past (c : Char) (rest : Text) (here : Cursor) : Cursor :=
  { here with before := some c, offset := here.offset + 1, rest := rest }

/-- Whether exactly one of the two characters beside the place is a word character. -/
def atWordEdge (here : Cursor) : Bool :=
  here.before.any Text.isWord != here.rest.head?.any Text.isWord

/-- Whether the place is the end of the text or stands before a line feed that ends the text. -/
def atLastLineEnd (here : Cursor) : Bool :=
  here.rest.isEmpty || here.rest == ['\n']

end Cursor

/-- A pattern, with its ways to match in order of preference. -/
inductive Pattern where
  /-- No character. -/
  | nothing
  /-- One accepted character. -/
  | one (accepts : Char → Bool)
  /-- A match of `first` and then one of `second`. -/
  | seq (first second : Pattern)
  /-- A match of `first`, or else one of `second`. -/
  | either (first second : Pattern)
  /-- Accepted characters, as many as possible. -/
  | longest (accepts : Char → Bool)
  /-- Accepted characters, as few as possible. -/
  | shortest (accepts : Char → Bool)
  /-- Characters, as many as possible, none of them at a place where `stop` matches. -/
  | upTo (stop : Pattern)
  /-- No character, between a word character and the lack of one. -/
  | wordEdge
  /-- No character, at the end of the text. -/
  | textEnd
  /-- No character, at the end of the text or before a line feed that ends it. -/
  | lastLineEnd
  /-- No character, where `p` matches. -/
  | ahead (p : Pattern)
  /-- A match of `p`, which is set aside. -/
  | hold (p : Pattern)
  /-- The part that was set aside, up to the lower case of each character. -/
  | sameAgain

namespace Pattern

/-- Goes on with `next` after each run of accepted characters, longest run first. -/
def afterLongest (accepts : Char → Bool) (next : Cursor → Option Cursor) (held : Text) :
    Option Char → Nat → Text → Option Cursor
  | before, offset, [] => next { before, offset, rest := [], held }
  | before, offset, c :: r =>
    if accepts c then
      (afterLongest accepts next held (some c) (offset + 1) r).orElse fun _ =>
        next { before, offset, rest := c :: r, held }
    else next { before, offset, rest := c :: r, held }

/-- Goes on with `next` after each run of accepted characters, shortest run first. -/
def afterShortest (accepts : Char → Bool) (next : Cursor → Option Cursor) (held : Text) :
    Option Char → Nat → Text → Option Cursor
  | before, offset, [] => next { before, offset, rest := [], held }
  | before, offset, c :: r =>
    (next { before, offset, rest := c :: r, held }).orElse fun _ =>
      if accepts c then afterShortest accepts next held (some c) (offset + 1) r else none

/-- Goes on with `next` after each run of characters of which none stands at a place that `stops`,
longest run first. -/
def afterUpTo (stops : Cursor → Bool) (next : Cursor → Option Cursor) (held : Text) :
    Option Char → Nat → Text → Option Cursor
  | before, offset, [] => next { before, offset, rest := [], held }
  | before, offset, c :: r =>
    if stops { before, offset, rest := c :: r, held } then
      next { before, offset, rest := c :: r, held }
    else
      (afterUpTo stops next held (some c) (offset + 1) r).orElse fun _ =>
        next { before, offset, rest := c :: r, held }

/-- Goes on with `next` after the characters of `part`, up to the lower case of each. -/
def afterSame (next : Cursor → Option Cursor) (part : Text) (here : Cursor) : Option Cursor :=
  match part with
  | [] => next here
  | c :: part =>
    match here.rest with
    | [] => none
    | x :: r =>
      if Text.lowerChar x == Text.lowerChar c then afterSame next part (here.past x r) else none

/-- The result of `next` after the most preferred match of the pattern at a place for which there
is one. -/
def run : Pattern → Cursor → (Cursor → Option Cursor) → Option Cursor
  | .nothing, here, next => next here
  | .one accepts, here, next =>
    match here.rest with
    | [] => none
    | c :: r => if accepts c then next (here.past c r) else none
  | .seq p q, here, next => run p here fun there => run q there next
  | .either p q, here, next => (run p here next).orElse fun _ => run q here next
  | .longest accepts, here, next =>
    afterLongest accepts next here.held here.before here.offset here.rest
  | .shortest accepts, here, next =>
    afterShortest accepts next here.held here.before here.offset here.rest
  | .upTo stop, here, next =>
    afterUpTo (fun there => (run stop there some).isSome) next here.held here.before here.offset
      here.rest
  | .wordEdge, here, next => if here.atWordEdge then next here else none
  | .textEnd, here, next => if here.rest.isEmpty then next here else none
  | .lastLineEnd, here, next => if here.atLastLineEnd then next here else none
  | .ahead p, here, next => if (run p here some).isSome then next here else none
  | .hold p, here, next =>
    run p here fun there =>
      next { there with held := here.rest.take (there.offset - here.offset) }
  | .sameAgain, here, next => afterSame next here.held here

instance : Append Pattern := ⟨seq⟩

instance : OrElse Pattern := ⟨fun p q => either p (q ())⟩

/-- Exactly the characters of the text. -/
def exactly : Text → Pattern
  | [] => nothing
  | [c] => one (· == c)
  | c :: r => one (· == c) ++ exactly r

/-- The characters of the text, ignoring case. -/
def letters : Text → Pattern
  | [] => nothing
  | [c] => one (Text.sameFold c)
  | c :: r => one (Text.sameFold c) ++ letters r

/-- The characters of the word, ignoring case. -/
def word (s : String) : Pattern :=
  letters s.toList

/-- The first of the patterns that matches; no character if there are no patterns. -/
def anyOf : List Pattern → Pattern
  | [] => nothing
  | [p] => p
  | p :: ps => p <|> anyOf ps

/-- A match of `p`, or else no character. -/
def optional (p : Pattern) : Pattern :=
  p <|> nothing

/-- One of the characters of the word, ignoring case. -/
def oneIn (s : String) : Pattern :=
  one fun x => s.toList.any fun c => Text.sameFold c x

/-- White space, one character. -/
def blank : Pattern :=
  one Text.isBlank

/-- White space, as much as possible. -/
def blanks : Pattern :=
  longest Text.isBlank

end Pattern

end MarkupAudit
