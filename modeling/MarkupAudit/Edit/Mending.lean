import MarkupAudit.Edit.Basic
import MarkupAudit.Evaluation

/-!
Edits that mend findings. Several rules may mend the same part of a document, one after the other;
a rule that changes nothing asks for no edit.
-/

namespace MarkupAudit

/-- Why no edits are made for findings. -/
inductive MendError where
  /-- An edit is refused. -/
  | edit (e : EditError)
  /-- The repair of a rule gave something that is not a text. -/
  | notText (ruleId kind : String)
  /-- The repair of a rule failed. -/
  | fault (f : Fault)
deriving Repr, DecidableEq

/-- What is said when no edits are made; of a repair that failed, nothing. -/
def MendError.message : MendError → String
  | .edit e => e.message
  | .notText ruleId kind => "Fix for " ++ ruleId ++ " returned " ++ kind ++ ", expected str"
  | .fault _ => ""

namespace Repair

/-- What the repair gives for a part of a document. -/
def mend : Repair → Text → Except Fault Mended
  | .function f, t => f t
  | .notCallable, _ => .error .notCallable

end Repair

namespace EditBuilder

/-- The rule that has the id; of several, the last one. -/
def ruleFor? (rules : List Rule) (id : String) : Option Rule :=
  rules.reverse.find? fun r => r.id == id

/-- Asks for the edit that mends a finding. -/
def mendFinding (rules : List Rule) (b : EditBuilder) (f : Finding) :
    Except MendError EditBuilder :=
  match (ruleFor? rules f.ruleId).bind fun r => r.repair.map fun repair => (r, repair) with
  | none => .ok b
  | some (r, repair) =>
    let current := b.currentText f.span.start f.span.stop
    match repair.mend current with
    | .error fault => .error (.fault fault)
    | .ok (.other kind) => .error (.notText r.id kind)
    | .ok (.text replacement) =>
      if replacement = current then .ok b
      else match b.replace f.span.start f.span.stop replacement r.id with
        | .ok next => .ok next
        | .error e => .error (.edit e)

/-- Asks for the edits that mend the findings, in order. -/
def mendAll (rules : List Rule) (b : EditBuilder) : List Finding → Except MendError EditBuilder
  | [] => .ok b
  | f :: fs =>
    match mendFinding rules b f with
    | .ok next => mendAll rules next fs
    | .error e => .error e

end EditBuilder

/-- The edits that mend the findings of a document. -/
def Batch.mending (s : Snapshot) (findings : List Finding) (rules : List Rule) :
    Except MendError Batch :=
  (EditBuilder.mendAll rules { snapshot := s } findings).map EditBuilder.build

/-- What the log says of the edits of a document. -/
def Batch.log (b : Batch) (s : Snapshot) : List LogRecord :=
  [{ severity := .debug, source := "semantic_checker.autofix",
     message := "Built " ++ toString b.edits.length ++ " edit(s) for " ++ s.label }]

end MarkupAudit
