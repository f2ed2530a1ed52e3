import MarkupAudit.Audit.Scan
import MarkupAudit.Edit.Mending

/-!
Fixes. The findings of a document are mended by edits of its file, all of them or none, and the new
document is scanned again. The file is changed only if it still holds the text that the edits were
made for.
-/

namespace MarkupAudit

/-- Why edits are not committed to a file. -/
inductive CommitError where
  /-- There is no file at the path. -/
  | missing
  /-- The bytes of the file are not UTF-8. -/
  | notUtf8
  | edit (e : EditError)
deriving Repr, DecidableEq

/-- What is said when edits are not committed. -/
def CommitError.message : CommitError → String
  | .missing => "the file cannot be read"
  | .notUtf8 => "the bytes are not UTF-8"
  | .edit e => e.message

/-- The files with the edits applied to the file at a path. -/
def Batch.commit (b : Batch) (files : FileTree) (path : String) : Except CommitError FileTree :=
  let p := Path.ofString path
  match files.read? p with
  | none => .error .missing
  | some content =>
    match FileTree.decode? content with
    | none => .error .notUtf8
    | some text =>
      match b.apply text with
      | .error e => .error (.edit e)
      | .ok updated =>
        .ok (if updated = text then files
          else (files.write? p (FileTree.encode updated)).getD files)

/-- What takes the edits of a document. -/
inductive Host where
  /-- The file that the document was read from. -/
  | file
  /-- One that refuses all edits. -/
  | refusing

/-- The files after the host was given the edits; none if it refused them. -/
def Host.commit (host : Host) (b : Batch) (files : FileTree) (path : String) :
    Option FileTree × List LogRecord :=
  match host with
  | .refusing => (none, [])
  | .file =>
    match b.commit files path with
    | .ok files => (some files, [])
    | .error e =>
      (none, [{ severity := .warning, source := "semantic_checker.autofix",
                message := "Could not apply fixes to " ++ (Path.ofString path).toString ++ ": " ++
                  e.message }])

/-- What a fix gives. -/
structure FixOutcome where
  applied : Bool := false
  editsCount : Nat := 0
  findingsBefore : Nat := 0
  findingsAfter : Option Nat := none
  dryRun : Bool := false
  error : Option String := none
  fixedRules : List String := []
deriving Repr, DecidableEq

/-- The outcome as it is shown. -/
def FixOutcome.toJson (o : FixOutcome) : Json.Value :=
  .object
    [("applied", .bool o.applied), ("edits_count", .int o.editsCount),
     ("findings_before", .int o.findingsBefore),
     ("findings_after", (o.findingsAfter.map fun n => .int n).getD .null),
     ("dry_run", .bool o.dryRun), ("error", .ofString? o.error),
     ("fixed_rules", .array (o.fixedRules.map .string))]

namespace Fix

/-- Commits edits that there are, and scans the new document. -/
def committed (now : String) (files : FileTree) (config : Config) (projectRoot : Option Path)
    (host : Host) (path : String) (rules : List Rule) (findingsBefore : Nat) (batch : Batch) :
    Run FixOutcome :=
  match host.commit batch files path with
  | (none, log) =>
    { files, log
      result := .ok
        { editsCount := batch.edits.length, findingsBefore
          error := some ("Fixes could not be applied to " ++ path), fixedRules := batch.ruleIds } }
  | (some after, log) =>
    let rescan := Scan.file now after config (some (rules.map .rule)) projectRoot path
    match rescan.result with
    | .error e => { files := rescan.files, log := log ++ rescan.log, result := .error e }
    | .ok outcome =>
      { files := rescan.files
        log := log ++ rescan.log ++
          [{ severity := .info, source := "semantic_checker.pipeline",
             message := "Applied " ++ toString batch.edits.length ++ " edit(s) to " ++ path }]
        result := .ok
          { applied := true, editsCount := batch.edits.length, findingsBefore
            findingsAfter := some outcome.findings.length, fixedRules := batch.ruleIds } }

/-- Mends a document with the given rules. -/
def withRules (now : String) (files : FileTree) (config : Config) (projectRoot : Option Path)
    (dryRun : Bool) (host : Host) (path : String) (s : Snapshot) (rules : List Rule) :
    Run FixOutcome :=
  let evaluation := Evaluation.ofSnapshot s rules
  let findingsBefore := evaluation.findings.length
  match Batch.mending s evaluation.findings rules with
  | .error (.fault f) => { files, log := evaluation.log s, result := .error (.fault f) }
  | .error e =>
    { files
      log := evaluation.log s ++
        [{ severity := .warning, source := "semantic_checker.pipeline",
           message := "Autofix failed for " ++ path ++ ": " ++ e.message }]
      result := .ok { findingsBefore, dryRun, error := some e.message } }
  | .ok batch =>
    let log := evaluation.log s ++ batch.log s
    if dryRun || batch.edits.isEmpty then
      { files, log
        result := .ok
          { editsCount := batch.edits.length, findingsBefore, dryRun, fixedRules := batch.ruleIds
            findingsAfter := if dryRun then none else some findingsBefore } }
    else
      let run := committed now files config projectRoot host path rules findingsBefore batch
      { run with log := log ++ run.log }

/-- Mends the document in a file. -/
def file (now : String) (files : FileTree) (config : Config)
    (catalog : Option (List CatalogEntry)) (projectRoot : Option Path) (dryRun : Bool)
    (host : Host) (path : String) : Run FixOutcome :=
  match Snapshot.ofFile files config.htmlSuffixes path with
  | .error e => { files, result := .error (.document e) }
  | .ok s =>
    match s.requireHtml with
    | .error e => { files, result := .error (.document e) }
    | .ok _ =>
      let log := Catalog.resolveLog config.disabledRules catalog
      match Catalog.resolve config.disabledRules catalog with
      | .error e =>
        match e.message? with
        | none => { files, log, result := .error .notRule }
        | some message =>
          { files
            log := log ++ [unavailable "semantic_checker.pipeline" message]
            result := .ok { error := some message } }
      | .ok rules =>
        let run := withRules now files config projectRoot dryRun host path s rules
        { run with log := log ++ run.log }

end Fix

end MarkupAudit
