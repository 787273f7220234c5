import FortranSemantics.Arena.Basic

/-!
# Module images

The image of a module is an arena that holds the module and all it owns. Symbols that the module
refers to but does not own are kept as paths of names; the image refers to the `k`-th of them by the
`k`-th identifier after its own symbols.
-/

namespace FortranSemantics

/-- A module on its own. -/
structure Image where
  name : String
  arena : Arena
  /-- The module in the arena. -/
  root : SymbolId
  /-- Paths of the symbols that the module refers to but does not own. -/
  imports : List (List String)
deriving Inhabited

end FortranSemantics
