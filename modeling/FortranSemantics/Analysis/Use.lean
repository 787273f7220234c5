import FortranSemantics.Analysis.Basic
import FortranSemantics.Analysis.GenericMerge
import FortranSemantics.Image.Grafting
import FortranSemantics.Tree.Uses

/-!
# Use statements
-/

namespace FortranSemantics.Analysis

/-! ## Loading of modules

A used module that the program does not have is taken from the library, after the modules that its
image refers to. -/

/-- Makes sure that the first part of an import path exists: intrinsics are created, other modules
are loaded. -/
def prepareImport (load : String → Analysis SymbolId) (first : String) (rest : List String) :
    Analysis Unit := do
  let present ← Edit.ask fun arena => arena.find? arena.root first
  if present.isSome then return
  if Intrinsic.isModule first then
    match rest with
    | function :: _ => discard <| Intrinsic.functionSymbol first function
    | [] => return
  else discard <| load first

/-- The symbol that an import path of a module names. -/
def resolveImport (load : String → Analysis SymbolId) (moduleName : String) (span : Span)
    (path : List String) : Analysis SymbolId := do
  match path with
  | [] => broken (.emptyImportPath moduleName)
  | first :: rest =>
    prepareImport load first rest
    match ← Edit.ask (·.findPath path) with
    | some symbol => return symbol
    | none => reject (.danglingImport moduleName path) span

/-- Marks a module as being loaded; it must not be already. -/
def beginLoading (name : String) (span : Span) : Analysis Unit := do
  if (← journal).loading.contains name then reject (.circularModule name) span
  note fun journal => { journal with loading := name :: journal.loading }

def endLoading (name : String) : Analysis Unit :=
  note fun journal => { journal with loading := journal.loading.filter (· != name) }

/-- Finds or loads a module, with at most `fuel` modules being loaded one inside the other. -/
def loadWithin (library : Library) (span : Span) : Nat → String → Analysis SymbolId
  | 0, _ => broken .endless
  | fuel + 1, name => do
    match ← Edit.ask fun arena => arena.find? arena.root name with
    | some symbol =>
      match ← Edit.ask (·.kind symbol) with
      | .moduleUnit _ => return symbol
      | _ => reject (.notModule name) span
    | none =>
      beginLoading name span
      match library.load name with
      | .error problem => reject (.moduleUnavailable name problem) span
      | .ok image =>
        let imports ← image.imports.mapM (resolveImport (loadWithin library span fuel) name span)
        let symbol ← image.graft imports
        Edit.declare (← root) name symbol span
        endLoading name
        return symbol

/-- Finds or loads a module. A library cannot have more modules loading at once than it holds. -/
def loadModule (library : Library) (name : String) (span : Span) : Analysis SymbolId :=
  loadWithin library span (library.entries.length + 1) name

/-! ## Use statements -/

open Edit

/-- A name to be imported. -/
structure UseEntry where
  localName : String
  remoteName : String
  symbol : SymbolId

/-- The entry that an item of an only list asks for. -/
def listedEntry (moduleName : String) (moduleScope : ScopeId) (span : Span)
    (item : Tree.UseSymbol) : Edit UseEntry := do
  let remoteName := genericSpelling item.remote
  match ← ask (·.find? moduleScope remoteName) with
  | none => reject (.notInModule remoteName moduleName) span
  | some symbol =>
    if (← ask (·.access symbol)) = .privateAccess then
      reject (.privateInModule remoteName moduleName) span
    let localName := (item.localName.map genericSpelling).getD remoteName
    return { localName, remoteName, symbol }

/-- The entries for everything public in a module. -/
def publicEntries (moduleScope : ScopeId) : Edit (List UseEntry) := do
  let entries := (← ask (·.scope moduleScope)).entries
  let visible ← ask fun arena =>
    entries.filterM fun (_, symbol) => return (← arena.access symbol) = .publicAccess
  return visible.map fun (name, symbol) => { localName := name, remoteName := name, symbol }

/-- The import that an entry of a module stands for. What the module imported itself is imported
from where it was declared. -/
def importOf (moduleName : String) (entry : UseEntry) : Edit Import := do
  match ← ask (·.kind entry.symbol) with
  | .imported info => return { info with access := .publicAccess }
  | _ =>
    return {
      target := entry.symbol, moduleName, remoteName := entry.remoteName, access := .publicAccess }

/-- Imports an entry into a scope. A name of an only list must not be there yet; without a list what
is already there stays. A generic adds to one of the same name. -/
def importEntry (scope : ScopeId) (moduleName : String) (listed : Bool) (span : Span)
    (entry : UseEntry) : Edit Unit := do
  let name := entry.localName
  let info ← importOf moduleName entry
  match ← ask (·.find? scope name) with
  | none =>
    let symbol ← addSymbol name scope (.imported info)
    declare scope name symbol span
  | some existing =>
    if (← ask (·.pastImport existing)) = info.target then
      if listed then reject (.duplicate name) span
    else
      match ← ask (·.kind info.target) with
      | .generic generic => extendGeneric scope name existing generic.procs span
      | _ => reject (.duplicate name) span

def useModule (setup : Setup) (scope : ScopeId) (statement : Tree.Use) : Analysis Unit := do
  let name := statement.usedModule
  let span := statement.span
  let symbol ← loadModule setup.library name span
  addDependency scope name
  match ← ask (·.symbolScope? symbol) with
  | none => broken (.scopelessModule name)
  | some moduleScope =>
    let entries ←
      match statement.only with
      | none => publicEntries moduleScope
      | some items => items.mapM fun item => listedEntry name moduleScope span item
    entries.forM fun entry => importEntry scope name statement.only.isSome span entry

end FortranSemantics.Analysis
