import MarkupAudit.Audit.Run
import MarkupAudit.Document.Source
import MarkupAudit.Report.File

/-!
Scans. A scan finds the rules to use, evaluates them on a document and, if a project is given and
the settings allow it, writes the report.
-/

namespace MarkupAudit

/-- How a scan ended. -/
inductive ScanStatus where
  | success
  /-- Some rule failed or the report could not be written. -/
  | incomplete
  /-- There were no rules to use. -/
  | failed
deriving Repr, DecidableEq

/-- The name of a status. -/
def ScanStatus.name : ScanStatus → String
  | .success => "SUCCESS"
  | .incomplete => "PARTIAL_SUCCESS"
  | .failed => "FAILED"

/-- What a scan gives. -/
structure ScanOutcome where
  status : ScanStatus
  message : StatusMessage
  findings : List Finding := []
  summary : Option Summary := none
  failedRules : List String := []
  reportPath : Option String := none
  reportError : Option String := none
  error : Option String := none

/-- A string, or null. -/
def Json.Value.ofString? : Option String → Json.Value
  | some s => .string s
  | none => .null

/-- A finding as it is shown: with at most 300 characters of its evidence. -/
def Finding.toJson (f : Finding) : Json.Value :=
  .object (f.members ++ [("evidence", .string (String.ofList (f.evidence.take 300)))])

namespace ScanOutcome

/-- The outcome as it is shown. -/
def toJson (o : ScanOutcome) : Json.Value :=
  .object
    [("status", .string o.status.name), ("message", o.message.toJson),
     ("summary", (o.summary.map Summary.toJson).getD .null),
     ("failed_rules", .array (o.failedRules.map .string)),
     ("report_path", .ofString? o.reportPath), ("report_error", .ofString? o.reportError),
     ("error", .ofString? o.error), ("findings", .array (o.findings.map Finding.toJson))]

/-- The outcome if there are no rules to use. -/
def unavailable (message : String) : ScanOutcome where
  status := .failed
  message := { kind := "error", text := "Rule catalog unavailable: " ++ message }
  error := some message

/-- The outcome of an evaluation, given what became of the report if it was to be written. -/
def ofEvaluation (e : Evaluation) (summary : Summary) (report : Option Report.Written) :
    ScanOutcome :=
  let reportPath := (report.filter fun w => w.fate = .written).map (·.target)
  let reportError := (report.filter fun w => w.fate = .refused).map fun w =>
    Report.failureMessage w.target
  { status := if !e.degraded && reportError.isNone then .success else .incomplete
    message := StatusMessage.ofSummary summary
    findings := e.findings
    summary := some summary
    failedRules := e.failed
    reportPath
    reportError }

end ScanOutcome

namespace Scan

/-- Writes the report if there is a project and the settings allow it. -/
def report? (files : FileTree) (config : Config) (projectRoot : Option Path)
    (record : Json.Value) : Option Report.Written :=
  match projectRoot with
  | some root => if config.writeReport then some (Report.write files record root config.reportPath)
    else none
  | none => none

/-- Scans a document with the given rules. -/
def withRules (now : String) (files : FileTree) (config : Config) (projectRoot : Option Path)
    (s : Snapshot) (rules : List Rule) : Run ScanOutcome :=
  let evaluation := Evaluation.ofSnapshot s rules
  match Summary.ofFindings now evaluation.findings with
  | .error e => { files, log := evaluation.log s, result := .error (.unknownLevel e) }
  | .ok summary =>
    let report := report? files config projectRoot (summary.record evaluation.findings)
    { files := (report.map (·.files)).getD files
      log := evaluation.log s ++ (report.map Report.Written.log).getD []
      result :=
        if report.any fun w => w.fate = .nullInPath then .error .nullInPath
        else .ok (ScanOutcome.ofEvaluation evaluation summary report) }

/-- Scans a document. -/
def snapshot (now : String) (files : FileTree) (config : Config)
    (catalog : Option (List CatalogEntry)) (projectRoot : Option Path) (s : Snapshot) :
    Run ScanOutcome :=
  match s.requireHtml with
  | .error e => { files, result := .error (.document e) }
  | .ok _ =>
    let log := Catalog.resolveLog config.disabledRules catalog
    match Catalog.resolve config.disabledRules catalog with
    | .error e =>
      match e.message? with
      | none => { files, log, result := .error .notRule }
      | some message =>
        { files
          log := log ++ [MarkupAudit.unavailable "semantic_checker.pipeline" message]
          result := .ok (ScanOutcome.unavailable message) }
    | .ok rules =>
      let run := withRules now files config projectRoot s rules
      { run with log := log ++ run.log }

/-- Scans the document in a file. -/
def file (now : String) (files : FileTree) (config : Config)
    (catalog : Option (List CatalogEntry)) (projectRoot : Option Path) (path : String) :
    Run ScanOutcome :=
  match Snapshot.ofFile files config.htmlSuffixes path with
  | .error e => { files, result := .error (.document e) }
  | .ok s => snapshot now files config catalog projectRoot s

end Scan

end MarkupAudit
