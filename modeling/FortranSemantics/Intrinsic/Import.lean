import FortranSemantics.Arena.Edit
import FortranSemantics.Intrinsic.Basic

/-!
# Importing intrinsics

The modules of the intrinsics and the functions in them are created when they are first used. A
scope sees an intrinsic through a private import.
-/

namespace FortranSemantics.Intrinsic

open Edit

/-- The symbol of an intrinsic module, created when it does not exist yet. -/
def moduleSymbol (moduleName : String) : Edit SymbolId := do
  let root := (← get).root
  match ← ask (·.find? root moduleName) with
  | some symbol => return symbol
  | none =>
    let scope ← addScope (some root)
    let symbol ← addSymbol moduleName root
      (.moduleUnit { scope, dependencies := [], intrinsic := true, loaded := false })
    modifyScope scope fun held => { held with owner := some symbol }
    overwrite root moduleName symbol
    return symbol

/-- The function of an intrinsic module, created when it does not exist yet. -/
def functionSymbol (moduleName name : String) : Edit SymbolId := do
  let moduleSymbol ← moduleSymbol moduleName
  match ← ask (·.symbolScope? moduleSymbol) with
  | none => broken (.scopelessIntrinsicModule moduleName)
  | some scope =>
    match ← ask (·.find? scope name) with
    | some function => return function
    | none =>
      let inner ← addScope (some scope)
      let function ← addSymbol name scope
        (.function
          { scope := inner, args := [], result := none, body := [], abi := .intrinsic,
            deftype := .interface, access := .publicAccess, dependencies := [] })
      modifyScope inner fun held => { held with owner := some function }
      overwrite scope name function
      return function

/-- Makes an intrinsic visible in a scope and records the dependency on its module; none when the
name is not that of an intrinsic. -/
def importInto (scope : ScopeId) (name : String) : Edit (Option SymbolId) := do
  match moduleFor? name with
  | none => return none
  | some moduleName =>
    let target ← functionSymbol moduleName name
    let present ← ask fun arena => do
      match ← arena.find? scope name with
      | some existing =>
        return if (← arena.pastImport existing) = target then some existing else none
      | none => return none
    if let some existing := present then return some existing
    let visible ← ask (·.uniqueName scope name)
    let symbol ← addSymbol visible scope
      (.imported { target, moduleName, remoteName := name, access := .privateAccess })
    overwrite scope visible symbol
    addDependency scope moduleName
    return some symbol

end FortranSemantics.Intrinsic
