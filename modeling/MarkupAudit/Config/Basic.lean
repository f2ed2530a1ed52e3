/-! Settings of an audit, and what can be wrong with them. -/

namespace MarkupAudit

/-- The settings of an audit. -/
structure Config where
  /-- Where the report is written, relative to the project. -/
  reportPath : String := "diagnostics/semantic-checker-log.json"
  writeReport : Bool := true
  /-- The suffixes of the files that are audited. -/
  htmlSuffixes : List String := [".html", ".htm", ".xhtml"]
  /-- The ids of the rules that are not used. -/
  disabledRules : List String := []
  /-- The name of the least serious log records that are shown. -/
  logLevel : String := "WARNING"
deriving Repr, DecidableEq

/-- What is wrong with settings. -/
inductive ConfigError where
  | notFound (path : String)
  | malformed (path : String)
  | notObject
  | unknownKeys (keys : List String)
  | absoluteReportPath
  | writeReportNotBool
  | notList
  | emptySuffix
  | noSuffixes
  | unknownLogLevel (name : String)
  | unknownRules (ids : List String)
deriving Repr, DecidableEq

/-- What is said of wrong settings. -/
def ConfigError.message : ConfigError → String
  | .notFound path => "Config file not found: " ++ path
  | .malformed path => "Config file is not valid JSON: " ++ path ++ ": the text is not a JSON value"
  | .notObject => "Config must be a JSON object"
  | .unknownKeys keys => "Unknown config keys: " ++ ", ".intercalate keys
  | .absoluteReportPath => "'report_path' must be relative to the project root"
  | .writeReportNotBool => "'write_report' must be true or false"
  | .notList => "Expected a list of strings"
  | .emptySuffix => "Empty entry in 'html_suffixes'"
  | .noSuffixes => "'html_suffixes' must not be empty"
  | .unknownLogLevel name => "Unknown log level: " ++ name
  | .unknownRules ids => "Unknown rule ids in disabled_rules: " ++ ", ".intercalate ids

end MarkupAudit
