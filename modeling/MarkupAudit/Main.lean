import MarkupAudit.Command.Execute
import Std.Time.DateTime.Timestamp

/-!
The command line. A picture of the files that a command may touch is taken, the command is carried
out on the picture, and what has changed is written back.
-/

namespace MarkupAudit.Main

/-- The name of a location for the system. -/
def systemName (location : Location) : String :=
  "/" ++ "/".intercalate location

/-- The files with what the system has on the way along the parts. -/
def observe (files : FileTree) (here : Location) : List String → IO FileTree
  | [] => return files
  | part :: parts => do
    if part = ".." then observe files here.dropLast parts
    else
      let next := here ++ [part]
      let name := (← IO.currentDir) / systemName next
      if ← name.isDir then observe (files.put next .folder) next parts
      else if ← name.pathExists then return files.put next (.file (← IO.FS.readBinFile name))
      else return files

/-- The files with what the system has on the way to a path. -/
def observePath (files : FileTree) (p : Path) : IO FileTree :=
  observe files (files.startOf p) p.parts

/-- The files that a command with the arguments may touch. -/
def picture (args : List String) : IO FileTree := do
  let working := (Path.ofString (← IO.currentDir).toString).parts
  let mut files := FileTree.empty working
  if let .ok (some invocation) := Command.parse args then
    if let some config := invocation.config.text? then
      files ← observePath files (Path.ofString config)
    let settings := match Command.settings files invocation.config with
      | .ok config => config
      | .error _ => {}
    let touched : List Path := match invocation.command with
      | .scan path (some root) _ | .fix path (some root) _ =>
        let project := files.resolve (Path.ofString root)
        [Path.ofString path, Report.target project settings.reportPath]
      | _ => []
    for p in touched do
      if p.isNullFree then
        files ← observePath files p
  return files

/-- Writes a file by way of another one in the same folder, so that no reader sees a part of it. -/
def replaceFile (location : Location) (content : ByteArray) : IO Unit := do
  let name := systemName location
  let temporary := name ++ ".tmp"
  IO.FS.writeBinFile temporary content
  IO.FS.rename temporary name

/-- Whether there is a file with the content. -/
def holds (node : Option Node) (content : ByteArray) : Bool :=
  match node with
  | some (.file old) => old == content
  | _ => false

/-- Writes back what is new in the files. -/
def writeBack (before after : FileTree) : IO Unit :=
  for (location, node) in after.nodes.reverse do
    match node with
    | .folder => if (before.node? location).isNone then IO.FS.createDirAll (systemName location)
    | .file content => unless holds (before.node? location) content do replaceFile location content

/-- The time as reports show it. -/
def now : IO String := do
  let stamp ← Std.Time.Timestamp.now
  return (Timestamp.ofMicroseconds (stamp.toNanosecondsSinceUnixEpoch.val.toNat / 1000)).write

/-- What is said of an error that no command reports by itself. -/
def crash : AuditError → String
  | .document e => e.message
  | .notRule => "not a rule"
  | .unknownLevel e => e.message
  | .fault _ => "a repair failed"
  | .load .folder => "the settings are a folder"
  | .load .notUtf8 => "the settings are not UTF-8"
  | .load .longNumeral => "a number in the settings has too many digits"
  | .load .tooDeep => "the settings are nested too deeply"
  | .load (.config e) => e.message
  | .noPath => "an option names no path"
  | .nullInPath => "a path has a null character"

end MarkupAudit.Main

open MarkupAudit MarkupAudit.Main in
/-- Carries out the command that the arguments ask for. -/
def main (args : List String) : IO UInt32 := do
  let before ← picture args
  let time ← MarkupAudit.Main.now
  let run := Command.execute time before args
  writeBack before run.files
  for record in run.log do
    IO.eprintln (time ++ " " ++ record.line)
  match run.result with
  | .error e =>
    IO.eprintln (crash e)
    return 1
  | .ok result =>
    if let some line := result.usageError then IO.eprintln line
    IO.print result.output
    return UInt32.ofNat result.exitCode
