import FortranSemantics.Image.Extraction

/-!
# Libraries of module images

A library supplies the images of modules that are used without being part of the program.
-/

namespace FortranSemantics

/-- Images by the name of their module, or what is wrong with them. -/
structure Library where
  entries : List (String × Except LoadProblem Image) := []

namespace Library

variable (library : Library)

def load (name : String) : Except LoadProblem Image :=
  (library.entries.lookup name).getD (.error (.notFound name))

def contains (name : String) : Bool :=
  (library.entries.lookup name).isSome

/-- The library with one more image, which replaces one of the same name. -/
def insert (image : Image) : Library where
  entries := (image.name, .ok image) :: library.entries.filter (·.1 != image.name)

/-- Whether a symbol is a module of the program, and not one of the intrinsic modules. -/
def publishes (arena : Arena) (id : SymbolId) : Except Breach Bool := do
  match ← arena.kind id with
  | .moduleUnit info => return !info.intrinsic
  | _ => return false

/-- The library of all modules of a program. -/
def ofArena (arena : Arena) : Except Breach Library := do
  let modules ← (← arena.scope arena.root).symbols.filterM (publishes arena)
  let images ← modules.mapM arena.imageOf
  return images.foldl insert {}

end Library

end FortranSemantics
