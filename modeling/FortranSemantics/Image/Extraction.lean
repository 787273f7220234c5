import FortranSemantics.Arena.Renumbering
import FortranSemantics.Image.Basic

/-!
# Taking a module out of an arena

The image of a module holds the module, every symbol of the scopes inside it, those scopes, and the
expressions they refer to. Symbols and scopes are numbered in the order in which they are listed
below, expressions in the order in which they are first met. A symbol that is met without belonging
to the module becomes an import.
-/

namespace FortranSemantics

/-- What the image of a module has numbered so far; the position in a list is the number. -/
structure Numbering where
  /-- The module's own symbols, then the imports met so far. -/
  symbols : List SymbolId
  /-- The root, then the module's own scopes. -/
  scopes : List ScopeId
  /-- The expressions met so far. -/
  exprs : List ExprId
  /-- Expressions that were met but not yet visited, the latest first. -/
  pending : List ExprId

/-- A part of the work of taking a module out. -/
abbrev Extraction := StateT Numbering (Except Breach)

namespace Extraction

/-- The number of a symbol; a symbol that has none becomes an import. -/
def symbol (id : SymbolId) : Extraction SymbolId := do
  let numbering ← get
  match numbering.symbols.idxOf? id with
  | some index => return ⟨index⟩
  | none =>
    set { numbering with symbols := numbering.symbols ++ [id] }
    return ⟨numbering.symbols.length⟩

/-- The number of a scope; scopes outside the module count as the root. -/
def scope (id : ScopeId) : Extraction ScopeId := do
  return ⟨((← get).scopes.idxOf? id).getD 0⟩

/-- The number of an expression, which is to be visited when it had none. -/
def expr (id : ExprId) : Extraction ExprId := do
  let numbering ← get
  match numbering.exprs.idxOf? id with
  | some index => return ⟨index⟩
  | none =>
    set { numbering with exprs := numbering.exprs ++ [id], pending := id :: numbering.pending }
    return ⟨numbering.exprs.length⟩

def renumbering : Renumbering Extraction where
  symbol := symbol
  scope := scope
  expr := expr

/-- Visits at most `fuel` pending expressions, the one met last first. -/
def visitWithin (arena : Arena) : Nat → List (ExprId × Expr) → Extraction (List (ExprId × Expr))
  | 0, visited => do
    match (← get).pending with
    | [] => return visited
    | _ :: _ => throw .endless
  | fuel + 1, visited => do
    let numbering ← get
    match numbering.pending with
    | [] => return visited
    | id :: pending =>
      set { numbering with pending }
      let node ← renumbering.node (← arena.expr id)
      visitWithin arena fuel ((id, node) :: visited)

/-- Visits all expressions that can be reached, and lists them by number. -/
def visitAll (arena : Arena) : Extraction (List Expr) := do
  let visited ← visitWithin arena (arena.exprs.size + 1) []
  return (← get).exprs.filterMap fun id => visited.lookup id

end Extraction

namespace Arena

variable (arena : Arena)

/-- The scopes that the symbols belonging to a scope open, in table order. -/
def innerScopes (id : ScopeId) : Except Breach (List ScopeId) := do
  let inner ← (← arena.scope id).symbols.mapM fun symbol => do
    if (← arena.symbol symbol).owner = id then arena.symbolScope? symbol else return none
  return inner.filterMap fun scope => scope

/-- Numbers the scopes below those on a stack, depth first, in at most `fuel` steps. -/
def scopesWithin (arena : Arena) : Nat → List ScopeId → List ScopeId → Except Breach (List ScopeId)
  | _, numbered, [] => return numbered
  | 0, _, _ :: _ => .error .endless
  | fuel + 1, numbered, id :: stack => do
    if numbered.contains id then arena.scopesWithin fuel numbered stack
    else
      let inner ← arena.innerScopes id
      arena.scopesWithin fuel (numbered ++ [id]) (inner.reverse ++ stack)

/-- The root and the scopes inside a given one. -/
def scopesBelow (id : ScopeId) : Except Breach (List ScopeId) :=
  let entries := (arena.scopes.toList.map (·.entries.length)).foldr (· + ·) 0
  arena.scopesWithin (entries + 2) [arena.root] [id]

/-- The symbols that belong to some scopes other than the root, in the order of their identifiers.
-/
def symbolsOf (scopes : List ScopeId) : List SymbolId :=
  let ids := (List.range arena.symbols.size).map SymbolId.mk
  ids.filter fun id =>
    arena.symbols[id.index]?.any fun symbol =>
      symbol.owner != arena.root && scopes.contains symbol.owner

/-- A module with everything inside it, as an image of its own. -/
def imageOf (root : SymbolId) : Except Breach Image := do
  let name ← arena.name root
  match ← arena.symbolScope? root with
  | none => .error (.notModule name)
  | some inner =>
    let scopes ← arena.scopesBelow inner
    let owned := root :: (arena.symbolsOf scopes).filter (· != root)
    let extraction : Extraction Arena := do
      let symbols ← owned.mapM fun id => do
        Extraction.renumbering.symbolNode (← arena.symbol id)
      let tables ← (scopes.drop 1).mapM fun id => do
        Extraction.renumbering.scopeNode (← arena.scope id)
      let exprs ← Extraction.visitAll arena
      let top : Scope := { parent := none, owner := none, entries := [(name, ⟨0⟩)], helpers := [] }
      return {
        symbols := symbols.toArray, scopes := (top :: tables).toArray, exprs := exprs.toArray,
        root := ⟨0⟩ }
    let start : Numbering := { symbols := owned, scopes, exprs := [], pending := [] }
    let (image, numbering) ← extraction.run start
    let imports ← (numbering.symbols.drop owned.length).mapM arena.path
    return { name, arena := image, root := ⟨0⟩, imports }

end Arena

end FortranSemantics
