import MarkupAudit.Command.Arguments

/-! The commands of the program and the arguments that they take. -/

namespace MarkupAudit

/-- A command. There is no root of the project if its option is void. -/
inductive Command where
  /-- Checks a document. -/
  | scan (path : String) (projectRoot : Option String) (noReport : Bool)
  /-- Mends a document. -/
  | fix (path : String) (projectRoot : Option String) (dryRun : Bool)
  /-- Lists the rules. -/
  | rules
deriving Repr, DecidableEq

/-- A command with the options that all commands take. -/
structure Invocation where
  command : Command
  config : Arguments.OptionValue
  logLevel : Option String
deriving Repr, DecidableEq

/-- Wrong arguments, and the program or command that says so. -/
structure UsageFailure where
  program : String
  error : Arguments.UsageError
deriving Repr, DecidableEq

namespace Command

open Arguments

/-- The name of the program. -/
def program : String := "semantic-checker"

/-- The names of the commands. -/
def names : List String := ["scan", "fix", "rules"]

def helpOption : OptionSpec := ⟨["-h", "--help"], .help⟩

def configOption : OptionSpec := ⟨["--config"], .value⟩

def logLevelOption : OptionSpec := ⟨["--log-level"], .value⟩

def projectRootOption : OptionSpec := ⟨["--project-root"], .value⟩

def noReportOption : OptionSpec := ⟨["--no-report"], .switch⟩

def dryRunOption : OptionSpec := ⟨["--dry-run"], .switch⟩

/-- The options that all commands take. -/
def commonOptions : List OptionSpec :=
  [helpOption, configOption, logLevelOption]

/-- The options that a command takes. -/
def optionsOf (name : String) : List OptionSpec :=
  commonOptions ++
    if name = "scan" then [projectRootOption, noReportOption]
    else if name = "fix" then [projectRootOption, dryRunOption]
    else []

/-- The names of the words that a command takes. -/
def wordsOf (name : String) : List String :=
  if name = "rules" then [] else ["path"]

/-- The root of the project, which is the working folder unless an option names another. -/
def projectRoot? (r : Reading) : Option String :=
  match r.value projectRootOption with
  | .absent => some "."
  | .void => none
  | .text s => some s

/-- The command of the name with what was read of its arguments. -/
def ofReading (name : String) (r : Reading) : Command :=
  let path := r.words.headD ""
  let root := projectRoot? r
  if name = "scan" then .scan path root (r.has noReportOption)
  else if name = "fix" then .fix path root (r.has dryRunOption)
  else .rules

/-- What comes before the command, and the command with all that follows. -/
structure Split where
  extras : List String
  help : Bool
  rest : List String

/-- Finds the command: the first argument that is not an option. -/
def split (extras : List String) : List (Token × String) → Except UsageError Split
  | [] => .error (.required "command")
  | (.option spec (some value), _) :: _ => .error (.ignoredValue spec value)
  | (.option _ none, _) :: _ => .ok { extras, help := true, rest := [] }
  | (.unknown s, _) :: rest => split (extras ++ [s]) rest
  | [(.hyphens, _)] => .error (.required "command")
  | all => .ok { extras, help := false, rest := all.map (·.2) }

/-- What arguments ask for; none if they ask for help. -/
def parse (args : List String) : Except UsageFailure (Option Invocation) := do
  let found ← ((classify [helpOption] args).bind fun tokens => split [] (tokens.zip args)).mapError
    (UsageFailure.mk program)
  if found.help then return none
  match found.rest with
  | [] => .error ⟨program, .required "command"⟩
  | name :: rest =>
    if !names.contains name then .error ⟨program, .unknownCommand name names⟩
    else
      let r ← (read (optionsOf name) (wordsOf name) rest).mapError
        (UsageFailure.mk (program ++ " " ++ name))
      if r.help then return none
      match found.extras ++ r.extras with
      | [] =>
        return some
          { command := ofReading name r, config := r.value configOption
            logLevel := (r.value logLevelOption).text? }
      | extras => .error ⟨program, .unrecognized extras⟩

end Command

/-- What is said of wrong arguments. -/
def UsageFailure.line (f : UsageFailure) : String :=
  f.program ++ ": error: " ++ f.error.message

end MarkupAudit
