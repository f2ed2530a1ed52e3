import MarkupAudit.Document.Digest
import MarkupAudit.Text.Blank
import MarkupAudit.Text.Case

/-!
Snapshots of documents. A place in a document is an offset, or a line and a column; lines are
counted from one and end with a line feed, columns are counted from zero.
-/

namespace MarkupAudit

/-- A line and a column. -/
structure Position where
  line : Nat
  column : Nat
deriving Repr, DecidableEq

/-- A part of a document, by its offsets and by its positions. -/
structure Span where
  start : Nat
  stop : Nat
  startPosition : Position
  stopPosition : Position
deriving Repr, DecidableEq

/-- The text of a document at one time. -/
structure Snapshot where
  text : Text
  /-- The kind of document. -/
  language : String := "html"
  /-- Where the text was read from. -/
  path : Option String := none

/-- An offset that is not in a document. -/
structure OffsetError where
  offset : Int
  length : Nat
deriving Repr, DecidableEq

/-- What is said of an offset that is not in a document. -/
def OffsetError.message (e : OffsetError) : String :=
  "Offset " ++ toString e.offset ++ " outside document of length " ++ toString e.length

/-- Why a document cannot be audited. -/
inductive DocumentError where
  | missing (path : String)
  /-- The bytes of the file are not UTF-8. -/
  | notUtf8 (path : String)
  | notHtml (label : String)
deriving Repr, DecidableEq

/-- What is said of a document that cannot be audited. -/
def DocumentError.message : DocumentError → String
  | .missing path => "No document to check: " ++ path
  | .notUtf8 path => "Could not read document " ++ path ++ ": the bytes are not UTF-8"
  | .notHtml label => "This is not an HTML file: " ++ label

/-- The digest of a text, by which a document is known to be unchanged. -/
def contentDigest (t : Text) : String :=
  "sha256:" ++ Sha256.digest (String.ofList t).toUTF8

/-- The offsets after the line feeds of a text that starts at `offset`. -/
def startsAfter (offset : Nat) : Text → List Nat
  | [] => []
  | c :: r =>
    if c = '\n' then (offset + 1) :: startsAfter (offset + 1) r else startsAfter (offset + 1) r

/-- The offsets at which the lines of a text start. -/
def lineStarts (t : Text) : List Nat :=
  0 :: startsAfter 0 t

/-- The position of an offset among lines that start at the given offsets: the line is the last one
that does not start after it. -/
def positionAmong (starts : List Nat) (offset : Nat) : Position :=
  let upTo := starts.takeWhile (· ≤ offset)
  { line := upTo.length, column := offset - upTo.getLastD 0 }

namespace Snapshot

/-- The digest of the text. -/
def digest (s : Snapshot) : String :=
  contentDigest s.text

/-- The position of an offset of the document. -/
def position (s : Snapshot) (offset : Nat) : Position :=
  positionAmong (lineStarts s.text) offset

/-- The position of an offset, which must be in the document or at its end. -/
def position? (s : Snapshot) (offset : Int) : Except OffsetError Position :=
  if offset < 0 || s.text.length < offset then
    .error { offset, length := s.text.length }
  else .ok (s.position offset.toNat)

/-- The part of the document between two of its offsets. -/
def span (s : Snapshot) (start stop : Nat) : Span :=
  { start, stop, startPosition := s.position start, stopPosition := s.position stop }

/-- The part of the document between two offsets, which must be in the document or at its end. -/
def span? (s : Snapshot) (start stop : Int) : Except OffsetError Span := do
  let first ← s.position? start
  let last ← s.position? stop
  return { start := start.toNat, stop := stop.toNat, startPosition := first, stopPosition := last }

/-- Whether the document is one that rules can be asked about. -/
def isHtml (s : Snapshot) : Bool :=
  Text.lowerString s.language == "html"

/-- What messages call the document. -/
def label (s : Snapshot) : String :=
  match s.path with
  | some path => if path.isEmpty then "<buffer>" else path
  | none => "<buffer>"

/-- The document, if rules can be asked about it. -/
def requireHtml (s : Snapshot) : Except DocumentError Unit :=
  if s.isHtml then .ok () else .error (.notHtml s.label)

end Snapshot

end MarkupAudit
