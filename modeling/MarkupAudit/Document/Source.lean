import MarkupAudit.Document.Snapshot
import MarkupAudit.Files.Tree

/-! Documents in files. The suffix of a file tells what kind of document it is. -/

namespace MarkupAudit.Snapshot

/-- The kind of document that a suffix stands for: `html` if it is one of the given suffixes in
either case, otherwise the suffix itself without its dots. -/
def languageOf (htmlSuffixes : List String) (suffix : String) : String :=
  let low := Text.lowerString suffix
  if (htmlSuffixes.map Text.lowerString).contains low then "html"
  else
    let bare := String.ofList (low.toList.dropWhile (· == '.'))
    if bare.isEmpty then "plaintext" else bare

/-- The document in the file at a path. -/
def ofFile (files : FileTree) (htmlSuffixes : List String) (path : String) :
    Except DocumentError Snapshot :=
  let p := Path.ofString path
  match files.read? p with
  | none => .error (.missing p.toString)
  | some content =>
    match FileTree.decode? content with
    | none => .error (.notUtf8 p.toString)
    | some text =>
      .ok { text, language := languageOf htmlSuffixes p.suffix, path := some p.toString }

end MarkupAudit.Snapshot
