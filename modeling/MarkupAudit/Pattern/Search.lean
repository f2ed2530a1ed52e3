import MarkupAudit.Pattern.Basic

/-!
Matches of a pattern in a text: at a place, the first one, and all that do not overlap, from left
to right.
-/

namespace MarkupAudit

/-- A part of a text that a pattern matched. -/
structure Match where
  /-- The offset of the first character. -/
  start : Nat
  /-- The offset after the last character. -/
  stop : Nat
  /-- The matched characters. -/
  text : Text
  /-- The part of them that the pattern set aside. -/
  held : Text
deriving Repr, DecidableEq

/-- The match between two places. -/
def Match.between (here there : Cursor) : Match where
  start := here.offset
  stop := there.offset
  text := here.rest.take (there.offset - here.offset)
  held := there.held

namespace Pattern

/-- The match at a place. -/
def matchAt? (p : Pattern) (here : Cursor) : Option Match :=
  (p.run here some).map (Match.between here)

/-- The match at a place that has at least one character. -/
def advanceAt? (p : Pattern) (here : Cursor) : Option Match :=
  (p.run here fun there => if here.offset < there.offset then some there else none).map
    (Match.between here)

/-- The leftmost match in what follows a place. -/
def firstFrom (p : Pattern) : Option Char → Nat → Text → Option Match
  | before, offset, [] => p.matchAt? { before, offset, rest := [] }
  | before, offset, c :: r =>
    (p.matchAt? { before, offset, rest := c :: r }).orElse fun _ =>
      firstFrom p (some c) (offset + 1) r

/-- The leftmost match in a text. -/
def first? (p : Pattern) (t : Text) : Option Match :=
  p.firstFrom none 0 t

/-- Whether the pattern matches somewhere in a text. -/
def occursIn (p : Pattern) (t : Text) : Bool :=
  (p.first? t).isSome

/-- Whether the pattern matches at the start of a text. -/
def startsIn (p : Pattern) (t : Text) : Bool :=
  (p.matchAt? (Cursor.start t)).isSome

/-- The matches that start at one place: after an empty match there may be a longer one. -/
def allAt (p : Pattern) (here : Cursor) : List Match :=
  match p.matchAt? here with
  | none => []
  | some m =>
    if m.start < m.stop then [m] else m :: (p.advanceAt? here).toList

/-- The number of characters that the matches at one place cover. -/
def covered (ms : List Match) : Nat :=
  ms.foldr (fun m count => m.stop - m.start + count) 0

/-- The matches in what follows a place, none starting in the next `skip` characters. -/
def allFrom (p : Pattern) : (skip : Nat) → Option Char → Nat → Text → List Match
  | 0, before, offset, [] => p.allAt { before, offset, rest := [] }
  | _ + 1, _, _, [] => []
  | 0, before, offset, c :: r =>
    let here := p.allAt { before, offset, rest := c :: r }
    here ++ allFrom p (covered here - 1) (some c) (offset + 1) r
  | skip + 1, _, offset, c :: r => allFrom p skip (some c) (offset + 1) r

/-- The matches in a text that do not overlap, from left to right. -/
def all (p : Pattern) (t : Text) : List Match :=
  p.allFrom 0 none 0 t

end Pattern

end MarkupAudit
