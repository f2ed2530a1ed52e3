import MarkupAudit.Evaluation
import MarkupAudit.Json.Value
import MarkupAudit.Level
import MarkupAudit.Report.Timestamp

/-!
Summaries of findings, the message that users see, and the record that is kept in a file.
-/

namespace MarkupAudit

/-- Numbers of findings by conformance level. -/
structure LevelCounts where
  a : Nat := 0
  aa : Nat := 0
  aaa : Nat := 0
deriving Repr, DecidableEq

namespace LevelCounts

/-- The number of findings of a level. -/
def get (counts : LevelCounts) : Level → Nat
  | .a => counts.a
  | .aa => counts.aa
  | .aaa => counts.aaa

/-- The numbers with one more finding of a level. -/
def add (counts : LevelCounts) : Level → LevelCounts
  | .a => { counts with a := counts.a + 1 }
  | .aa => { counts with aa := counts.aa + 1 }
  | .aaa => { counts with aaa := counts.aaa + 1 }

/-- The numbers by the names of the levels. -/
def toJson (counts : LevelCounts) : Json.Value :=
  .object (Level.all.map fun level => (level.name, .int (counts.get level)))

end LevelCounts

/-- A summary of findings. -/
structure Summary where
  total : Nat
  byLevel : LevelCounts
  /-- When the findings were summarised. -/
  timestamp : String
deriving Repr, DecidableEq

/-- A level that is none of the conformance levels. -/
structure UnknownLevel where
  level : Json.Value

/-- What is said of an unknown level. -/
def UnknownLevel.message (e : UnknownLevel) : String :=
  "Unknown conformance level: " ++ e.level.shown

/-- The level that a value names. -/
def Level.ofValue? (v : Json.Value) : Except UnknownLevel Level :=
  match Level.ofString? v.plain with
  | some level => .ok level
  | none => .error { level := v }

namespace Summary

/-- The numbers of findings by level, added to `counts`. -/
def countFrom (counts : LevelCounts) : List Finding → Except UnknownLevel LevelCounts
  | [] => .ok counts
  | f :: fs =>
    match Level.ofValue? (.string f.level) with
    | .ok level => countFrom (counts.add level) fs
    | .error e => .error e

/-- The summary of findings. -/
def ofFindings (timestamp : String) (findings : List Finding) : Except UnknownLevel Summary :=
  (countFrom {} findings).map fun byLevel => { total := findings.length, byLevel, timestamp }

/-- The summary as it is shown. -/
def toJson (s : Summary) : Json.Value :=
  .object [("total", .int s.total), ("by_level", s.byLevel.toJson),
    ("timestamp", .string s.timestamp)]

end Summary

/-- A message for users. -/
structure StatusMessage where
  kind : String
  text : String
deriving Repr, DecidableEq

namespace StatusMessage

/-- The message for a summary: the total and the number of each level that has findings. -/
def ofSummary (s : Summary) : StatusMessage :=
  if s.total = 0 then { kind := "success", text := "The HTML is semantically correct." }
  else
    let noun := if s.total = 1 then "issue" else "issues"
    let parts := (Level.all.filter fun level => s.byLevel.get level ≠ 0).map fun level =>
      toString (s.byLevel.get level) ++ " at Level " ++ level.name
    { kind := "warning"
      text := toString s.total ++ " " ++ noun ++ ": " ++ " | ".intercalate parts }

/-- The message as it is shown. -/
def toJson (m : StatusMessage) : Json.Value :=
  .object [("kind", .string m.kind), ("text", .string m.text)]

end StatusMessage

/-- The members of a finding in a record. -/
def Finding.members (f : Finding) : List (String × Json.Value) :=
  [("ruleId", .string f.ruleId), ("level", .string f.level), ("message", .string f.message),
   ("recommendation", .string f.recommendation),
   ("startLine", .int f.span.startPosition.line), ("startChar", .int f.span.startPosition.column),
   ("endLine", .int f.span.stopPosition.line), ("endChar", .int f.span.stopPosition.column)]

/-- The record of findings that is kept in a file. -/
def Summary.record (s : Summary) (findings : List Finding) : Json.Value :=
  .object
    [("totalIssues", .int s.total), ("breakdownByLevel", s.byLevel.toJson),
     ("timestamp", .string s.timestamp),
     ("issues", .array (findings.map fun f => .object f.members))]

end MarkupAudit
