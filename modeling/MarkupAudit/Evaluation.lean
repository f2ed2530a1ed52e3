import MarkupAudit.Document.Snapshot
import MarkupAudit.Log
import MarkupAudit.Region
import MarkupAudit.Rule.Basic

/-!
Evaluation of rules on a document. Each rule is asked about the matches of its pattern in the
prepared text, from left to right; matches that show nothing are passed over. A rule that fails on
some match reports nothing and is listed as failed.
-/

namespace MarkupAudit

/-- A problem that a rule found. -/
structure Finding where
  ruleId : String
  level : String
  message : String
  recommendation : String
  span : Span
  /-- The part of the document that the finding is about. -/
  evidence : Text
deriving Repr, DecidableEq

/-- What the rules of a catalogue found. -/
structure Evaluation where
  findings : List Finding
  /-- The ids of the rules that failed. -/
  failed : List String
deriving Repr, DecidableEq

/-- The matches of which the condition holds, in order; matches that show nothing are left out. -/
def Condition.select (holds : Condition) (document : Text) : List Match → Except Fault (List Match)
  | [] => .ok []
  | m :: ms =>
    if Text.isFiller m.text then select holds document ms
    else do
      let problem ← holds m.text document
      let rest ← select holds document ms
      return if problem then m :: rest else rest

namespace Rule

/-- The condition of the rule, which fails if it is not one that can be asked. -/
def condition (r : Rule) : Condition :=
  r.applies.getD fun _ _ => .error .notCallable

/-- The matches that the rule reports in a text. -/
def reports (r : Rule) (document : Text) : Except Fault (List Match) :=
  match r.pattern with
  | none => .error .noPattern
  | some p => r.condition.select document (p.all document)

/-- The finding of the rule for a match. -/
def finding (r : Rule) (s : Snapshot) (m : Match) : Finding where
  ruleId := r.id
  level := r.level
  message := r.message
  recommendation := r.recommendation
  span := s.span m.start m.stop
  evidence := Text.slice s.text m.start m.stop

/-- The findings of the rule. -/
def findings (r : Rule) (prepared : Text) (s : Snapshot) : Except Fault (List Finding) :=
  (r.reports prepared).map fun ms => ms.map (r.finding s)

end Rule

namespace Evaluation

/-- What one rule adds to an evaluation. -/
def ofRule (prepared : Text) (s : Snapshot) (r : Rule) : Evaluation :=
  match r.findings prepared s with
  | .ok fs => { findings := fs, failed := [] }
  | .error _ => { findings := [], failed := [r.id] }

/-- The findings of one evaluation and then those of another. -/
def append (x y : Evaluation) : Evaluation where
  findings := x.findings ++ y.findings
  failed := x.failed ++ y.failed

instance : Append Evaluation := ⟨append⟩

/-- The evaluation of all rules, in the order of the catalogue, on a prepared text. -/
def ofPrepared (prepared : Text) (s : Snapshot) : List Rule → Evaluation
  | [] => { findings := [], failed := [] }
  | r :: rules => ofRule prepared s r ++ ofPrepared prepared s rules

/-- The evaluation of all rules on a document with its regions blanked. -/
def ofSnapshot (s : Snapshot) (rules : List Rule) : Evaluation :=
  ofPrepared (Region.blank s.text) s rules

/-- Whether some rule failed. -/
def degraded (e : Evaluation) : Bool :=
  !e.failed.isEmpty

/-- What the log says of an evaluation. -/
def log (e : Evaluation) (s : Snapshot) : List LogRecord :=
  let source := "semantic_checker.engine"
  let failures := e.failed.map fun id =>
    { severity := .error, source,
      message := "Rule " ++ id ++ " failed; its findings are discarded for this scan" }
  let warning : List LogRecord :=
    if e.failed.isEmpty then []
    else [{ severity := .warning, source,
            message := toString e.failed.length ++ " rule(s) failed during the scan: " ++
              ", ".intercalate e.failed }]
  failures ++ warning ++
    [{ severity := .debug, source,
       message := "Evaluated document " ++ s.label ++ ": " ++ toString e.findings.length ++
         " finding(s)" }]

end Evaluation

end MarkupAudit
