import MarkupAudit.Files.Tree
import MarkupAudit.Json.Writer
import MarkupAudit.Log
import MarkupAudit.Report.Summary

/-! The report in a file of the project. -/

namespace MarkupAudit.Report

/-- What became of a report that was to be written. -/
inductive Fate where
  | written
  /-- The file cannot be written. -/
  | refused
  /-- The path has a null character, so that the system does not take it. -/
  | nullInPath
deriving Repr, DecidableEq

/-- The files after a report was to be written, where it was to be, and what became of it. -/
structure Written where
  files : FileTree
  target : String
  fate : Fate

/-- Where the report of a project is. -/
def target (projectRoot : Path) (relative : String) : Path :=
  projectRoot.join (Path.ofString relative)

/-- Writes a record as the report of a project, in place of the one before, and makes the folders
that it needs. -/
def write (files : FileTree) (record : Json.Value) (projectRoot : Path) (relative : String) :
    Written :=
  let path := target projectRoot relative
  if !path.parent.isNullFree then { files, target := path.toString, fate := .nullInPath }
  else
    let (prepared, ready) := files.makeFolders path.parent
    if !ready then { files := prepared, target := path.toString, fate := .refused }
    else if !path.isNullFree then
      { files := prepared, target := path.toString, fate := .nullInPath }
    else match prepared.write? path (Json.write record).toUTF8 with
      | some written => { files := written, target := path.toString, fate := .written }
      | none => { files := prepared, target := path.toString, fate := .refused }

/-- What is said of a report that could not be written. -/
def failureMessage (target : String) : String :=
  "Could not write report to " ++ target ++ ": the file cannot be written"

/-- What the log says of a report. -/
def Written.log (w : Written) : List LogRecord :=
  match w.fate with
  | .written =>
    [{ severity := .info, source := "semantic_checker.report",
       message := "Report written to " ++ w.target }]
  | .refused =>
    [{ severity := .warning, source := "semantic_checker.pipeline",
       message := failureMessage w.target }]
  | .nullInPath => []

end MarkupAudit.Report
