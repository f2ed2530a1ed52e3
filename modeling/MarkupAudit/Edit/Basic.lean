import MarkupAudit.Document.Snapshot
import MarkupAudit.Text.Names

/-!
Edits of a document: replacements of parts that do not overlap, all given in the offsets of one
snapshot and applied together.
-/

namespace MarkupAudit

/-- The replacement of a part of a document. -/
structure Edit where
  start : Nat
  stop : Nat
  newText : Text
  /-- The rules that asked for it, in order and without repetition. -/
  ruleIds : List String
deriving Repr, DecidableEq

/-- Why an edit is refused. -/
inductive EditError where
  /-- The part is not one of the document. -/
  | outside (start stop : Int)
  /-- The part overlaps a part that another edit replaces. -/
  | overlap (start stop : Int) (otherStart otherStop : Nat)
  /-- The text is not the one that the edits were made for. -/
  | stale
deriving Repr, DecidableEq

/-- What is said when an edit is refused. -/
def EditError.message : EditError → String
  | .outside start stop =>
    "Edit range " ++ toString start ++ ":" ++ toString stop ++ " is outside the document"
  | .overlap start stop otherStart otherStop =>
    "Edit " ++ toString start ++ ":" ++ toString stop ++ " overlaps pending edit " ++
      toString otherStart ++ ":" ++ toString otherStop
  | .stale => "Document changed since the edits were computed"

namespace Edit

/-- Whether an edit replaces exactly the part between two offsets. -/
def isAt (start stop : Int) (e : Edit) : Bool :=
  start = e.start && stop = e.stop

/-- Whether the part between two offsets overlaps the part that an edit replaces. Parts that only
touch do not. -/
def overlaps (start stop : Int) (e : Edit) : Bool :=
  start < e.stop && e.start < stop

/-- The text with the edit's part replaced. -/
def apply (e : Edit) (t : Text) : Text :=
  t.take e.start ++ e.newText ++ t.drop e.stop

/-- Whether an edit comes before another one: by its start, then by its end. -/
def before (e f : Edit) : Bool :=
  e.start < f.start || e.start = f.start && e.stop ≤ f.stop

/-- Puts an edit into its place among edits in order. -/
def insertInOrder (e : Edit) : List Edit → List Edit
  | [] => [e]
  | f :: edits => if e.before f then e :: f :: edits else f :: insertInOrder e edits

/-- The edits in order. -/
def inOrder (edits : List Edit) : List Edit :=
  edits.foldr insertInOrder []

end Edit

/-- Edits in order, for a text with the digest. -/
structure Batch where
  digest : String
  edits : List Edit
deriving Repr, DecidableEq

namespace Batch

/-- The rules that asked for the edits, each once. -/
def ruleIds (b : Batch) : List String :=
  Text.distinct (b.edits.flatMap (·.ruleIds))

/-- The text with all parts replaced, from the last one to the first, so that the offsets of the
parts still to come stay right. -/
def replaceAll (edits : List Edit) (t : Text) : Text :=
  edits.foldr Edit.apply t

/-- The text with all parts replaced, if it is the one that the edits were made for. -/
def apply (b : Batch) (t : Text) : Except EditError Text :=
  if contentDigest t = b.digest then .ok (replaceAll b.edits t) else .error .stale

end Batch

/-- Edits of a snapshot as they are collected, in order of first request. -/
structure EditBuilder where
  snapshot : Snapshot
  edits : List Edit := []

namespace EditBuilder

/-- The pending edit of exactly the part between two offsets. -/
def pending? (b : EditBuilder) (start stop : Int) : Option Edit :=
  b.edits.find? (Edit.isAt start stop)

/-- What stands between two offsets after the pending edit of exactly that part. -/
def currentText (b : EditBuilder) (start stop : Int) : Text :=
  match b.pending? start stop with
  | some e => e.newText
  | none => Text.slice b.snapshot.text start stop

/-- The ids with one more, unless it is empty or among them. -/
def addId (ids : List String) (id : String) : List String :=
  if id.isEmpty || ids.contains id then ids else ids ++ [id]

/-- Asks for a replacement. One for a part that already has an edit takes its place; otherwise the
part must not overlap that of any pending edit. -/
def replace (b : EditBuilder) (start stop : Int) (newText : Text) (ruleId : String) :
    Except EditError EditBuilder :=
  if !(0 ≤ start && start ≤ stop && stop ≤ b.snapshot.text.length) then
    .error (.outside start stop)
  else if (b.pending? start stop).isSome then
    let update (e : Edit) : Edit :=
      if e.isAt start stop then { e with newText, ruleIds := addId e.ruleIds ruleId } else e
    .ok { b with edits := b.edits.map update }
  else match b.edits.find? (Edit.overlaps start stop) with
    | some e => .error (.overlap start stop e.start e.stop)
    | none =>
      let e : Edit :=
        { start := start.toNat, stop := stop.toNat, newText, ruleIds := addId [] ruleId }
      .ok { b with edits := b.edits ++ [e] }

/-- The edits collected so far. -/
def build (b : EditBuilder) : Batch where
  digest := b.snapshot.digest
  edits := Edit.inOrder b.edits

end EditBuilder

end MarkupAudit
