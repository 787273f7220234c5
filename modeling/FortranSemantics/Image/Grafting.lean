import FortranSemantics.Arena.Edit
import FortranSemantics.Image.Basic

/-!
# Putting a module into an arena

The nodes of an image are appended to an arena. The image's own identifiers are moved behind the
ones the arena has; its imports are replaced by symbols of the arena.
-/

namespace FortranSemantics.Image

/-- What becomes of the identifiers of an image that is appended to an arena. -/
def graftMap (image : Image) (arena : Arena) (imports : List SymbolId) :
    Renumbering (Except Breach) where
  symbol id :=
    let owned := image.arena.symbols.size
    if id.index < owned then return ⟨arena.symbols.size + id.index⟩
    else
      match imports[id.index - owned]? with
      | some symbol => return symbol
      | none => .error (.missingImport (id.index - owned))
  scope id :=
    return if id.index = 0 then arena.root else ⟨arena.scopes.size + (id.index - 1)⟩
  expr id := return ⟨arena.exprs.size + id.index⟩

/-- The arena with the nodes of an image appended, all but its root scope. The imports stand for the
paths of the image, one by one. -/
def appendTo (image : Image) (imports : List SymbolId) (arena : Arena) : Except Breach Arena := do
  let map := image.graftMap arena imports
  let symbols ← image.arena.symbols.mapM map.symbolNode
  let scopes ← (image.arena.scopes.toList.drop 1).mapM map.scopeNode
  let exprs ← image.arena.exprs.mapM map.node
  return {
    symbols := arena.symbols ++ symbols, scopes := arena.scopes ++ scopes,
    exprs := arena.exprs ++ exprs, root := arena.root }

/-- Puts an image into an arena. Gives the module, which is marked as loaded but not yet entered in
the root scope. -/
def graft (image : Image) (imports : List SymbolId) : Edit SymbolId := do
  let arena ← get
  set (← image.appendTo imports arena)
  let root ← (image.graftMap arena imports).symbol image.root
  Edit.modifyKind root fun
    | .moduleUnit info => .moduleUnit { info with loaded := true }
    | kind => kind
  return root

end FortranSemantics.Image
