import MarkupAudit.Catalog
import MarkupAudit.Config.Loader
import MarkupAudit.Document.Snapshot
import MarkupAudit.Report.Summary

/-! Runs: what an audit leaves behind besides its result. -/

namespace MarkupAudit

/-- Why an audit has no result. -/
inductive AuditError where
  | document (e : DocumentError)
  /-- Something that is not a rule was given as one. -/
  | notRule
  | unknownLevel (e : UnknownLevel)
  /-- The repair of a rule failed. -/
  | fault (f : Fault)
  /-- The settings could not be read, for a reason that lies outside of them. -/
  | load (e : LoadError)
  /-- What should name a file or a folder names nothing. -/
  | noPath
  /-- A path has a null character. -/
  | nullInPath

/-- The files and the log after an audit, with its result. -/
structure Run (α : Type) where
  files : FileTree
  log : List LogRecord := []
  result : Except AuditError α

/-- What the log says when there are no rules to use. -/
def unavailable (source message : String) : LogRecord where
  severity := .error
  source := source
  message := "Rule catalog unavailable: " ++ message

/-- What is said when there are no rules to use; nothing if something was given that is not a
rule. -/
def ResolveError.message? : ResolveError → Option String
  | .catalog e => some e.message
  | .config e => some e.message
  | .notRule => none

end MarkupAudit
