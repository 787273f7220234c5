import FortranSemantics.Analysis.Unit
import FortranSemantics.Arena.Audit
import FortranSemantics.Arena.Printer
import FortranSemantics.CommandLine.Arguments
import FortranSemantics.CommandLine.Files
import FortranSemantics.CommandLine.Snippet
import FortranSemantics.Image.Encoder
import FortranSemantics.Json.Writer

/-!
# Running a command

A command reads files, writes files, and prints. Everything it does is a change of a `Console`.
-/

namespace FortranSemantics.CommandLine

/-- The files and the two outputs of a run. -/
structure Console where
  files : Files
  output : String := ""
  errors : String := ""

/-- How a run ends early. -/
inductive Ending where
  /-- After a reported error. -/
  | failed
  /-- On a broken invariant. -/
  | crashed (breach : Breach)
deriving DecidableEq, Repr

/-- A part of a run. -/
abbrev Run := ExceptT Ending (StateM Console)

namespace Run

def print (text : String) : Run Unit :=
  modify fun console => { console with output := console.output ++ text }

def printError (text : String) : Run Unit :=
  modify fun console => { console with errors := console.errors ++ text }

def fail {α : Type} (message : String) : Run α := do
  printError ("Error: " ++ message ++ "\n")
  throw .failed

/-- The answer to a question about an arena. -/
def ask {α : Type} : Except Breach α → Run α
  | .ok value => return value
  | .error breach => throw (.crashed breach)

def readFile (path : String) : Run String := do
  match (← get).files.find? path with
  | some text => return text
  | none =>
    modify fun console => { console with files := console.files.afterLook path }
    fail s!"failed to read {path}"

def readTree (path : String) : Run Tree.CompilationUnit := do
  let text ← readFile path
  match (Json.scan? 127 text).bind (Tree.CompilationUnit.ofJson? .namedOrPositional) with
  | some unit => return unit
  | none => fail s!"{path} is not a valid syntax tree"

/-- The source text with its name. -/
structure Source where
  name : String
  text : String

/-- Reports a finding, with the source line when there is a source. -/
def report (source : Option Source) (finding : Finding) : Run Unit :=
  match source with
  | none => printError (finding.text ++ "\n")
  | some source =>
    let word :=
      match finding.severity with
      | .error => "error: "
      | .warning => "warning: "
    printError (snippet (word ++ finding.message) source.name source.text finding.span)

def findingOf (error : SemanticError) : Finding where
  severity := .error
  message := error.fault.kind.name ++ ": " ++ error.fault.message
  span := error.span

variable (invocation : Invocation)

/-- The settings that a command line and a source text ask for. -/
def settingsOf (source : Option Source) : Settings :=
  let settings : Settings :=
    { wall := invocation.wall, werror := invocation.werror, policy := invocation.policy
      lowerArrays := invocation.lowerArrays, implicitTyping := invocation.implicitTyping }
  match source with
  | none => settings
  | some source => settings.merge (Settings.ofDirectives source.text)

/-- The directories in which module images are looked for. -/
def directoriesOf : List String :=
  if invocation.includes.isEmpty then ["."] else invocation.includes

/-- Records where a missing module was looked for. -/
def noteMissing (fault : Fault) : Run Unit :=
  match fault with
  | .moduleUnavailable _ (.notFound name) =>
    (directoriesOf invocation).forM fun directory =>
      modify fun console =>
        { console with files := console.files.afterLook (Path.join directory (name ++ ".mod")) }
  | _ => return

/-- Analyses the input and reports every finding; an error among them ends the run. -/
def analyse (invocation : Invocation) : Run Analysed := do
  let unit ← readTree invocation.input
  let source ← invocation.source.mapM fun path => do
    return { name := path, text := ← readFile path : Source }
  let settings := settingsOf invocation source
  let library := (← get).files.library (directoriesOf invocation) unit.usedModules
  match unit.analyse { settings, library } with
  | .error (.broken breach) => throw (.crashed breach)
  | .error (.rejected error) =>
    noteMissing invocation error.fault
    report source (findingOf error)
    throw .failed
  | .ok analysed =>
    let findings := Lint.classify settings analysed.lints
    findings.forM (report source)
    if findings.any fun finding => finding.severity = .error then throw .failed
    return analysed

/-- Reports what an audit finds; a problem ends the run. -/
def audit (arena : Arena) (input : String) : Run Unit := do
  let problems ← ask arena.audit
  if problems.isEmpty then return
  problems.forM fun problem => printError (problem.message ++ "\n")
  fail s!"the ASR of {input} is inconsistent"

def makeDirectory (directory : String) : Run Unit := do
  let (files, made) := (← get).files.makeDirectory directory
  modify fun console => { console with files }
  if !made then fail s!"failed to create {directory}"

def writeFile (path text : String) : Run Unit := do
  match (← get).files.write path text with
  | .ok files => modify fun console => { console with files }
  | .error problem =>
    let directory := Path.toText (Path.names path).dropLast
    modify fun console => { console with files := console.files.afterLook directory }
    fail (path ++ ": " ++ problem.message)

/-- The modules of a program that were not taken from a library. -/
def ownModules (arena : Arena) : Except Breach (List SymbolId) := do
  (← arena.scope arena.root).symbols.filterM fun symbol => do
    match ← arena.kind symbol with
    | .moduleUnit info => return !info.intrinsic && !info.loaded
    | _ => return false

def emitModule (arena : Arena) (directory : String) (quiet : Bool) (symbol : SymbolId) :
    Run Unit := do
  let image ← ask (arena.imageOf symbol)
  let path := Path.join directory (image.name ++ ".mod")
  writeFile path (image.toJson .file).toText
  if !quiet then print s!"Wrote module: {path}\n"

def invoke : Run Unit := do
  let analysed ← analyse invocation
  let arena := analysed.arena
  match invocation.command with
  | .check => if analysed.lints.isEmpty && !invocation.quiet then print "No problems found.\n"
  | .print audited =>
    if audited then audit arena invocation.input
    print (← ask arena.toText)
  | .emitModules directory =>
    makeDirectory directory
    let modules ← ask (ownModules arena)
    modules.forM (emitModule arena directory invocation.quiet)
    if modules.isEmpty && !invocation.quiet then print s!"No modules in {invocation.input}\n"

end Run

/-- How a run ended. -/
inductive Status where
  | success
  | failure
  /-- The words make no command line. -/
  | usage
  | crash (breach : Breach)
deriving DecidableEq, Repr

def run (args : List String) (files : Files) : Status × Console :=
  match Invocation.ofArgs? args with
  | none => (.usage, { files })
  | some invocation =>
    match (Run.invoke invocation).run.run { files } with
    | (.ok _, console) => (.success, console)
    | (.error .failed, console) => (.failure, console)
    | (.error (.crashed breach), console) => (.crash breach, console)

end FortranSemantics.CommandLine
