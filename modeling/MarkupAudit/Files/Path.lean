import MarkupAudit.Text.Basic

/-!
Paths of files. A path is kept as its parts; empty parts and single dots are dropped, and a double
dot stays, since what it names depends on the files.
-/

namespace MarkupAudit

/-- A path by its root, which is empty for a relative path, and its parts. -/
structure Path where
  root : String
  parts : List String
deriving Repr, DecidableEq

namespace Path

/-- Whether a part says anything. -/
def isPart (part : String) : Bool :=
  !(part.isEmpty || part == ".")

/-- The root of a path: two slashes at its start are kept, more than two are one. -/
def rootOf : Text → String
  | '/' :: '/' :: '/' :: _ => "/"
  | '/' :: '/' :: _ => "//"
  | '/' :: _ => "/"
  | _ => ""

/-- The path that a string writes. -/
def ofString (s : String) : Path where
  root := rootOf s.toList
  parts := ((Text.splitAt '/' s.toList).map String.ofList).filter isPart

/-- The path as a string; one dot if it has no parts. -/
def toString (p : Path) : String :=
  if p.root.isEmpty && p.parts.isEmpty then "." else p.root ++ "/".intercalate p.parts

/-- Whether the path starts at a root. -/
def isAbsolute (p : Path) : Bool :=
  !p.root.isEmpty

/-- Whether the system takes the path: no part of it has a null character. -/
def isNullFree (p : Path) : Bool :=
  p.parts.all fun part => !part.toList.contains '\x00'

/-- The second path seen from the first. An absolute path stays as it is. -/
def join (p q : Path) : Path :=
  if q.isAbsolute then q else { p with parts := p.parts ++ q.parts }

/-- The path without its last part. -/
def parent (p : Path) : Path :=
  { p with parts := p.parts.dropLast }

/-- The last part. -/
def name (p : Path) : String :=
  p.parts.getLastD ""

/-- The last dot of a name and what follows it, if the dot is neither the first nor the last
character. -/
def suffixOf (name : Text) : Text :=
  let after := name.reverse.takeWhile (· != '.')
  if after.isEmpty || name.length ≤ after.length + 1 then [] else '.' :: after.reverse

/-- The suffix of the last part. -/
def suffix (p : Path) : String :=
  String.ofList (suffixOf p.name.toList)

/-- The parts from the root with the double dots resolved, not looking at any files. -/
def resolveParts (base parts : List String) : List String :=
  parts.foldl (fun seen part => if part = ".." then seen.dropLast else seen ++ [part]) base

end Path

end MarkupAudit
