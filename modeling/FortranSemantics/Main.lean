import FortranSemantics.CommandLine.Run

/-!
# The program

Runs the command line on the disk: a run starts without any files, and is repeated with the files
that it looked for in vain until it finds nothing more. Only then is what it wrote put on the disk.
-/

namespace FortranSemantics.CommandLine

/-- The files with what is at a path of the disk; nothing when there is nothing new. -/
def readDisk? (files : Files) (path : String) : IO (Option Files) := do
  try
    return some (files.place path (← IO.FS.readFile path))
  catch _ =>
    try
      discard <| IO.FS.realPath path
      return some (files.makeDirectory path).1
    catch _ => return none

/-- The files with what is at some paths of the disk, and how many of them lead to something. -/
def readAll (files : Files) (paths : List String) : IO (Files × Nat) :=
  paths.foldlM (fun (files, count) path => do
    match ← readDisk? files path with
    | some files => return (files, count + 1)
    | none => return (files, count)) (files, 0)

/-- Runs with the files of the disk that the run asks for. -/
partial def runOnDisk (args : List String) (files : Files) (seen : List String) :
    IO (Status × Console) := do
  let (status, console) := run args files
  let fresh := (console.files.missed.filter fun path => !seen.contains path).eraseDups
  let (found, count) ← readAll files fresh
  if count = 0 then return (status, console)
  runOnDisk args { entries := found.entries, directories := found.directories } (seen ++ fresh)

def commit (files : Files) : IO Unit := do
  for path in files.directories do
    IO.FS.createDirAll path.toText
  for (path, text) in files.written do
    IO.FS.writeFile path.toText text

/-- What is shown when the words make no command line. -/
def usageText : String :=
  "usage: [options] (check INPUT | asr [--verify] INPUT | emit-mod [-o DIR] INPUT)\n"

def exitCode : Status → UInt32
  | .success => 0
  | .failure | .usage => 1
  | .crash _ => 101

end FortranSemantics.CommandLine

open FortranSemantics.CommandLine in
def main (args : List String) : IO UInt32 := do
  let (status, console) ← runOnDisk args {} []
  commit console.files
  (← IO.getStdout).putStr console.output
  let stderr ← IO.getStderr
  stderr.putStr console.errors
  match status with
  | .usage => stderr.putStr usageText
  | .crash breach => stderr.putStr (breach.message?.getD "broken reference" ++ "\n")
  | _ => return exitCode status
  return exitCode status
