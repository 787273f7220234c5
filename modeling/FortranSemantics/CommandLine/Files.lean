import FortranSemantics.Image.Decoder
import FortranSemantics.Image.Library
import FortranSemantics.Json.Reader

/-!
# Files

The files and directories that a run sees. A path is followed name by name, and every name but the
last must lead to a directory. A run that finds nothing at a path records the path, so that an outer
layer can tell which parts of a larger file system would change its outcome.
-/

namespace FortranSemantics.CommandLine

/-- A place below the working directory, as the names that lead to it. A first name `/` leads from
the root instead, and first names `..` lead out of the working directory. -/
abbrev Path := List String

namespace Path

def origin (text : String) : Path :=
  if text.startsWith "/" then ["/"] else []

def names (text : String) : List String :=
  text.splitOn "/"

/-- The directory above a directory; the root is above itself. -/
def parent (path : Path) : Path :=
  if path = ["/"] then path
  else if path.all (· == "..") then path ++ [".."]
  else path.dropLast

/-- The text of a file in a directory; a file with a path from the root is in no other directory. -/
def join (directory file : String) : String :=
  if directory = "" ∨ file.startsWith "/" then file
  else if directory.endsWith "/" then directory ++ file
  else directory ++ "/" ++ file

def toText (path : Path) : String :=
  Text.joined "/" path

def nameMax : Nat := 255

end Path

/-- Why a path leads nowhere, or not to where a file can be. -/
inductive PathProblem where
  | missing
  | notDirectory
  | isDirectory
  | nameTooLong
  | nulInName
deriving DecidableEq, Repr

namespace PathProblem

def message : PathProblem → String
  | .missing => "No such file or directory (os error 2)"
  | .notDirectory => "Not a directory (os error 20)"
  | .isDirectory => "Is a directory (os error 21)"
  | .nameTooLong => "File name too long (os error 36)"
  | .nulInName => "file name contained an unexpected NUL byte"

end PathProblem

/-- What is at a place. -/
inductive Node where
  | directory (path : Path)
  | file (path : Path) (text : String)

/-- Known files with their texts, and known directories. -/
structure Files where
  entries : List (Path × String) := []
  /-- Directories, the working directory and those above it apart. -/
  directories : List Path := []
  /-- Paths of the files that were written. -/
  touched : List Path := []
  /-- Paths at which nothing was found. -/
  missed : List String := []

namespace Files

variable (files : Files)

/-- What a name leads to from a directory. -/
def step (directory : Path) (name : String) : Except PathProblem Node :=
  if name = "" ∨ name = "." then .ok (.directory directory)
  else if name = ".." then .ok (.directory directory.parent)
  else if Path.nameMax < name.utf8ByteSize then .error .nameTooLong
  else
    let path := directory ++ [name]
    match files.entries.lookup path with
    | some text => .ok (.file path text)
    | none => if files.directories.contains path then .ok (.directory path) else .error .missing

/-- What some names lead to from a directory. -/
def follow (files : Files) (directory : Path) : List String → Except PathProblem Node
  | [] => .ok (.directory directory)
  | name :: rest =>
    match files.step directory name with
    | .error problem => .error problem
    | .ok (.directory next) => files.follow next rest
    | .ok (.file path text) => if rest.isEmpty then .ok (.file path text) else .error .notDirectory

def find? (path : String) : Option String :=
  match files.follow (Path.origin path) (Path.names path) with
  | .ok (.file _ text) => some text
  | _ => none

def afterLook (path : String) : Files :=
  if (files.find? path).isSome then files else { files with missed := files.missed ++ [path] }

/-- Makes the directories that are missing on the way from a directory through some names; also
whether nothing else is in the way. -/
def makeWay (files : Files) (directory : Path) : List String → Files × Bool
  | [] => (files, true)
  | name :: rest =>
    match files.step directory name with
    | .ok (.directory next) => files.makeWay next rest
    | .error .missing =>
      let next := directory ++ [name]
      let files := files.afterLook next.toText
      makeWay { files with directories := next :: files.directories } next rest
    | _ => (files, false)

/-- Makes a directory with all that lead to it; also whether that could be done. -/
def makeDirectory (path : String) : Files × Bool :=
  files.makeWay (Path.origin path) (Path.names path)

def put (path : Path) (text : String) : Files :=
  { files with
    entries := (path, text) :: files.entries.filter (·.1 != path)
    touched := path :: files.touched }

variable (path text : String)

/-- The files with a file written, in a directory that is there already. -/
def write : Except PathProblem Files :=
  let names := Path.names path
  let name := names.getLastD ""
  if path.contains '\x00' then .error .nulInName
  else
    match files.follow (Path.origin path) names.dropLast with
    | .error problem => .error problem
    | .ok (.file _ _) => .error .notDirectory
    | .ok (.directory directory) =>
      match files.step directory name with
      | .ok (.directory _) => .error .isDirectory
      | .ok (.file place _) => .ok (files.put place text)
      | .error .missing => .ok (files.put (directory ++ [name]) text)
      | .error problem => .error problem

/-- The files with a file and the directories that lead to it; unchanged files when it cannot be
there. -/
def place : Files :=
  let (files, _) := files.makeWay (Path.origin path) (Path.names path).dropLast
  (files.write path text).toOption.getD files

def written : List (Path × String) :=
  files.entries.filter fun (path, _) => files.touched.contains path

/-- The image in the text of a module file. -/
def imageIn : Except LoadProblem Image :=
  match (Json.scan? 127 text).bind (Image.ofJson? .file) with
  | some image => .ok image
  | none => .error (.corrupt path)

/-- The image of a module, from the first of some directories that has it. -/
def imageOf? (directories : List String) (name : String) : Option (Except LoadProblem Image) :=
  directories.findSome? fun directory => do
    let path := Path.join directory (name ++ ".mod")
    return imageIn path (← files.find? path)

def importedBy : Except LoadProblem Image → List String
  | .ok image => image.imports.filterMap List.head?
  | .error _ => []

/-- The images in some directories of the named modules and of all that any module file refers to.
-/
def library (directories names : List String) : Library where
  entries :=
    let stored := files.entries.filter fun (path, _) => path.toText.endsWith ".mod"
    let imported := stored.flatMap fun (path, text) => importedBy (imageIn path.toText text)
    (names ++ imported).eraseDups.filterMap fun name => do
      return (name, ← files.imageOf? directories name)

end Files

end FortranSemantics.CommandLine
