import FortranSemantics.Arena.Edit

/-!
# Merging of generics

Several interfaces and imports may contribute candidates to one generic name of a scope.
-/

namespace FortranSemantics.Edit

/-- Adds candidates that are not there yet, in order. -/
def mergeCandidates (candidates added : List SymbolId) : List SymbolId :=
  added.foldl (fun all candidate => if all.contains candidate then all else all ++ [candidate])
    candidates

/-- Replaces an imported generic by a generic of this scope, with the imported candidates first. -/
def localizeGeneric (scope : ScopeId) (name : String) (imported : Import) (added : List SymbolId)
    (span : Span) : Edit Unit := do
  match ← ask (·.kind imported.target) with
  | .generic info =>
    let procs := mergeCandidates info.procs added
    let symbol ← addSymbol name scope (.generic { procs, access := imported.access })
    overwrite scope name symbol
  | _ => reject (.duplicate name) span

/-- Adds candidates to the generic that a name stands for in a scope. -/
def extendGeneric (scope : ScopeId) (name : String) (existing : SymbolId) (added : List SymbolId)
    (span : Span) : Edit Unit := do
  let symbol ← ask (·.symbol existing)
  match symbol.kind with
  | .generic info =>
    if symbol.owner = scope then
      modifyKind existing fun _ =>
        .generic { info with procs := mergeCandidates info.procs added }
    else reject (.duplicate name) span
  | .imported info => localizeGeneric scope name info added span
  | _ => reject (.duplicate name) span

end FortranSemantics.Edit
