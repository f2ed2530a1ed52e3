/-!
Log records, and which of them are shown. The time of a record is left out, and so is where records
are written to.
-/

namespace MarkupAudit

/-- How serious a log record is. -/
inductive Severity where
  | debug
  | info
  | warning
  | error
deriving Repr, DecidableEq

/-- The rank of a severity; greater is more serious. -/
def Severity.rank : Severity → Nat
  | .debug => 10
  | .info => 20
  | .warning => 30
  | .error => 40

/-- The name of a severity. -/
def Severity.name : Severity → String
  | .debug => "DEBUG"
  | .info => "INFO"
  | .warning => "WARNING"
  | .error => "ERROR"

/-- A record of the log. -/
structure LogRecord where
  severity : Severity
  /-- The part of the program that speaks. -/
  source : String
  message : String
deriving Repr, DecidableEq

/-- The record as a line. -/
def LogRecord.line (r : LogRecord) : String :=
  r.severity.name ++ " " ++ r.source ++ " " ++ r.message

/-- The least ranks that can be asked for, by name. -/
def logLevels : List (String × Nat) :=
  [("CRITICAL", 50), ("FATAL", 50), ("ERROR", 40), ("WARN", 30), ("WARNING", 30), ("INFO", 20),
   ("DEBUG", 10), ("NOTSET", 0)]

/-- The least rank of the name. -/
def logLevel? (name : String) : Option Nat :=
  (logLevels.find? fun entry => entry.1 == name).map (·.2)

end MarkupAudit
