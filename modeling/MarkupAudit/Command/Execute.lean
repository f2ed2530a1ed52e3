import MarkupAudit.Audit.Fix
import MarkupAudit.Command.Basic

/-!
Execution of commands. The exit code is 0 if all is well, 1 if there are findings or a fix failed,
and 2 if the command could not be carried out. Of a usage error there is the line that tells it; the
usage of the program and its help are left out.
-/

namespace MarkupAudit

/-- What a command leaves for its caller. -/
structure CommandResult where
  exitCode : Nat
  /-- What is printed. -/
  output : String := ""
  /-- What is said of wrong arguments or settings. -/
  usageError : Option String := none
deriving Repr, DecidableEq

namespace Command

/-- A value as it is printed. -/
def printed (v : Json.Value) : String :=
  Json.write v ++ "\n"

/-- What is printed when a command could not be carried out. -/
def failure (message : String) : CommandResult where
  exitCode := 2
  output := printed (.object [("status", .string "FAILED"), ("error", .string message)])

/-- The result of a scan. -/
def scanResult (o : ScanOutcome) : CommandResult where
  exitCode := if o.status = .failed then 2 else if o.findings.isEmpty then 0 else 1
  output := printed o.toJson

/-- The result of a fix. -/
def fixResult (o : FixOutcome) : CommandResult where
  exitCode := if o.error.any fun e => !e.isEmpty then 1 else 0
  output := printed o.toJson

/-- The run of a command from the run of an audit. A document that cannot be audited is reported;
other errors stay. -/
def ofRun {α : Type} (result : α → CommandResult) (run : Run α) : Run CommandResult :=
  { files := run.files
    log := run.log
    result := match run.result with
      | .ok a => .ok (result a)
      | .error (.document e) => .ok (failure e.message)
      | .error e => .error e }

/-- Carries out a command with the settings and rules. -/
def withRules (now : String) (files : FileTree) (config : Config) (known : List Rule) :
    Command → Run CommandResult
  | .scan _ none _ | .fix _ none _ => { files, result := .error .noPath }
  | .scan path (some projectRoot) noReport =>
    if !(Path.ofString projectRoot).isNullFree then { files, result := .error .nullInPath }
    else
      let root := files.resolve (Path.ofString projectRoot)
      ofRun scanResult
        (Scan.file now files config (some (known.map .rule)) (if noReport then none else some root)
          path)
  | .fix path (some projectRoot) dryRun =>
    if !(Path.ofString projectRoot).isNullFree then { files, result := .error .nullInPath }
    else
      let root := files.resolve (Path.ofString projectRoot)
      ofRun fixResult
        (Fix.file now files config (some (known.map .rule)) (some root) dryRun .file path)
  | .rules =>
    { files, result := .ok { exitCode := 0, output := printed (.array (known.map Rule.describe)) } }

/-- Carries out a command with the settings. Listing the rules takes no notice of disabled ones. -/
def withConfig (now : String) (files : FileTree) (config : Config) (command : Command) :
    Run CommandResult :=
  let disabled := if command = .rules then [] else config.disabledRules
  let log := Catalog.loadLog disabled
  match Catalog.load disabled with
  | .error e =>
    let message := e.message?.getD ""
    { files
      log := log ++ (if command = .rules then [] else [unavailable "semantic_checker.cli" message])
      result := .ok (failure message) }
  | .ok known =>
    let run := withRules now files config known command
    { run with log := log ++ run.log }

/-- The least rank of the log records that are shown. -/
def threshold (config : Config) (logLevel : Option String) : Nat :=
  let name := match logLevel with
    | some s => if s.isEmpty then config.logLevel else s
    | none => config.logLevel
  (logLevel? (Text.upperString name)).getD Severity.warning.rank

/-- The settings that an option names, or the defaults without it. -/
def settings (files : FileTree) : Arguments.OptionValue → Except AuditError Config
  | .absent => (Config.load files none).mapError .load
  | .void => .error .noPath
  | .text path => (Config.load files (some path)).mapError .load

/-- Carries out what the arguments ask for, at the time `now`. -/
def execute (now : String) (files : FileTree) (args : List String) : Run CommandResult :=
  match parse args with
  | .error e => { files, result := .ok { exitCode := 2, usageError := some e.line } }
  | .ok none => { files, result := .ok { exitCode := 0 } }
  | .ok (some invocation) =>
    match settings files invocation.config with
    | .error (.load (.config e)) =>
      let line := program ++ ": error: " ++ e.message
      { files, result := .ok { exitCode := 2, usageError := some line } }
    | .error e => { files, result := .error e }
    | .ok config =>
      let run := withConfig now files config invocation.command
      let least := threshold config invocation.logLevel
      { run with log := run.log.filter fun r => least ≤ r.severity.rank }

end Command

end MarkupAudit
