import MarkupAudit.Files.Path

/-!
Files and folders. A place is given by the names on the way from the root to it; a file or folder is
reached only through folders that are there. A file is written as a whole or not at all, and what
can be in the way is a folder in its place or a file in the place of one of its folders. Links,
modes of files, refusals for want of permission or space, and temporary files are left out.
-/

namespace MarkupAudit

/-- What is at a place. -/
inductive Node where
  | folder
  | file (content : ByteArray)

/-- The names on the way from the root to a place. -/
abbrev Location := List String

/-- All files and folders, and the folder that relative paths start from. -/
structure FileTree where
  working : Location
  nodes : List (Location × Node)

namespace FileTree

/-- Only the working folder and the folders around it. -/
def empty (working : Location) : FileTree where
  working
  nodes := (List.range working.length).map fun n => (working.take (n + 1), .folder)

/-- What is at a location. -/
def node? (files : FileTree) (location : Location) : Option Node :=
  if location.isEmpty then some .folder
  else (files.nodes.find? fun entry => entry.1 == location).map (·.2)

/-- The files with something else at a location. -/
def put (files : FileTree) (location : Location) (node : Node) : FileTree :=
  { files with nodes := (location, node) :: files.nodes.filter fun entry => entry.1 != location }

/-- The files without what is at a location. -/
def erase (files : FileTree) (location : Location) : FileTree :=
  { files with nodes := files.nodes.filter fun entry => entry.1 != location }

/-- Where a path starts. -/
def startOf (files : FileTree) (p : Path) : Location :=
  if p.isAbsolute then [] else files.working

/-- The location that parts lead to, if all that is passed on the way is folders. -/
def walk (files : FileTree) : Location → List String → Option Location
  | here, [] => some here
  | here, part :: parts =>
    match files.node? here with
    | some .folder => walk files (if part = ".." then here.dropLast else here ++ [part]) parts
    | _ => none

/-- The location of a path. -/
def locate? (files : FileTree) (p : Path) : Option Location :=
  files.walk (files.startOf p) p.parts

/-- What is at a path. -/
def nodeAt? (files : FileTree) (p : Path) : Option Node :=
  (files.locate? p).bind files.node?

/-- The content of the file at a path. -/
def read? (files : FileTree) (p : Path) : Option ByteArray :=
  match files.nodeAt? p with
  | some (.file content) => some content
  | _ => none

/-- The files with a file at the path, which must be in a folder that is there and not be a folder
itself. -/
def write? (files : FileTree) (p : Path) (content : ByteArray) : Option FileTree :=
  match files.locate? p with
  | none => none
  | some location =>
    match files.node? location with
    | some .folder => none
    | _ => some (files.put location (.file content))

/-- Makes the folders on the way that are not there, up to the first place that is taken by a
file. -/
def makeFoldersFrom (files : FileTree) : Location → List String → FileTree × Bool
  | _, [] => (files, true)
  | here, part :: parts =>
    if part = ".." then makeFoldersFrom files here.dropLast parts
    else
      let next := here ++ [part]
      match files.node? next with
      | some .folder => makeFoldersFrom files next parts
      | some (.file _) => (files, false)
      | none => makeFoldersFrom (files.put next .folder) next parts

/-- Makes the folder of a path and those around it, and tells whether it is there then. -/
def makeFolders (files : FileTree) (p : Path) : FileTree × Bool :=
  files.makeFoldersFrom (files.startOf p) p.parts

/-- The absolute path with double dots resolved, not looking at any files. -/
def resolve (files : FileTree) (p : Path) : Path :=
  { root := "/", parts := Path.resolveParts (files.startOf p) p.parts }

/-- The text of bytes in UTF-8. -/
def decode? (content : ByteArray) : Option Text :=
  (String.fromUTF8? content).map String.toList

/-- The bytes of a text in UTF-8. -/
def encode (t : Text) : ByteArray :=
  (String.ofList t).toUTF8

end FileTree

end MarkupAudit
