import MarkupAudit.Config.Basic
import MarkupAudit.Files.Tree
import MarkupAudit.Json.Reader
import MarkupAudit.Log
import MarkupAudit.Text.Blank
import MarkupAudit.Text.Case
import MarkupAudit.Text.Names

/-!
Settings from a file. A missing setting, and a text setting that is null or blank, takes its
default; suffixes get a dot and lower case, ids of rules and the log level get upper case.
-/

namespace MarkupAudit

/-- Why settings are not loaded. -/
inductive LoadError where
  | config (e : ConfigError)
  /-- The path is that of a folder. -/
  | folder
  /-- The bytes of the file are not UTF-8. -/
  | notUtf8
  /-- A whole number has too many digits. -/
  | longNumeral
  /-- Lists and objects are nested too deeply. -/
  | tooDeep
deriving Repr, DecidableEq

namespace Config

/-- The keys of the settings. -/
def knownKeys : List String :=
  ["report_path", "write_report", "html_suffixes", "disabled_rules", "log_level"]

/-- The trimmed text of a setting, if it has one that is not blank. -/
def textSetting? (v : Option Json.Value) : Option String :=
  match v with
  | none | some .null => none
  | some v =>
    let s := Text.trimString v.plain
    if s.isEmpty then none else some s

/-- The texts of the items of a list setting; none if it is null or missing. -/
def listSetting (v : Option Json.Value) : Except ConfigError (List String) :=
  match v with
  | none | some .null => .ok []
  | some (.array items) => .ok (items.map Json.Value.plain)
  | some _ => .error .notList

/-- A suffix in lower case and with a dot before it. -/
def normalSuffix (s : String) : Except ConfigError String :=
  let suffix := Text.lowerString (Text.trimString s)
  if suffix.isEmpty then .error .emptySuffix
  else if suffix.toList.head? = some '.' then .ok suffix
  else .ok ("." ++ suffix)

/-- The suffixes in lower case, each with a dot before it. -/
def normalSuffixes : List String → Except ConfigError (List String)
  | [] => .ok []
  | s :: ss =>
    match normalSuffix s with
    | .error e => .error e
    | .ok suffix => (normalSuffixes ss).map (suffix :: ·)

/-- The setting for the path of the report. -/
def reportPathSetting (v : Option Json.Value) : Except ConfigError String :=
  let path := (textSetting? v).getD ({} : Config).reportPath
  if (Path.ofString path).isAbsolute then .error .absoluteReportPath else .ok path

/-- The setting that tells whether a report is written. -/
def writeReportSetting : Option Json.Value → Except ConfigError Bool
  | none => .ok ({} : Config).writeReport
  | some (.bool b) => .ok b
  | some _ => .error .writeReportNotBool

/-- The setting for the suffixes. -/
def suffixesSetting (v : Option Json.Value) : Except ConfigError (List String) :=
  match v with
  | none | some .null => .ok ({} : Config).htmlSuffixes
  | some v => do
    let suffixes ← normalSuffixes (← listSetting (some v))
    if suffixes.isEmpty then .error .noSuffixes else .ok suffixes

/-- The setting for the log level. -/
def logLevelSetting (v : Option Json.Value) : Except ConfigError String :=
  let name := Text.upperString ((textSetting? v).getD ({} : Config).logLevel)
  if (logLevel? name).isSome then .ok name else .error (.unknownLogLevel name)

/-- The settings that an object gives. -/
def ofMembers (members : List (String × Json.Value)) : Except ConfigError Config := do
  let unknown := (members.map (·.1)).filter fun key => !knownKeys.contains key
  if !unknown.isEmpty then .error (.unknownKeys (Text.sortNames unknown))
  let reportPath ← reportPathSetting (Json.Value.get? members "report_path")
  let writeReport ← writeReportSetting (Json.Value.get? members "write_report")
  let htmlSuffixes ← suffixesSetting (Json.Value.get? members "html_suffixes")
  let logLevel ← logLevelSetting (Json.Value.get? members "log_level")
  let disabled ← listSetting (Json.Value.get? members "disabled_rules")
  let disabledRules := disabled.map fun s => Text.upperString (Text.trimString s)
  return { reportPath, writeReport, htmlSuffixes, disabledRules, logLevel }

/-- The settings that the bytes of a file give; `path` is what messages call it. -/
def ofBytes (path : String) (content : ByteArray) : Except LoadError Config :=
  match String.fromUTF8? content with
  | none => .error .notUtf8
  | some s =>
    match Json.read s with
    | .error .malformed => .error (.config (.malformed path))
    | .error .longNumeral => .error .longNumeral
    | .error .tooDeep => .error .tooDeep
    | .ok (.object members) =>
      match ofMembers members with
      | .ok config => .ok config
      | .error e => .error (.config e)
    | .ok _ => .error (.config .notObject)

/-- The settings in the file at a path, or the defaults if no path is given. -/
def load (files : FileTree) : Option String → Except LoadError Config
  | none => .ok {}
  | some s =>
    let path := Path.ofString s
    match files.nodeAt? path with
    | none => .error (.config (.notFound path.toString))
    | some .folder => .error .folder
    | some (.file content) => ofBytes path.toString content

end Config

end MarkupAudit
