import FortranSemantics.Arena.Basic
import FortranSemantics.Json.Record

/-!
# Dialects of the image format

Images are exchanged as JSON. Dialects differ in how they write reals, the entries of a scope and
the fields of a variant; module files write reals as numbers and scopes as objects, and take fields
in both forms.
-/

namespace FortranSemantics.Image

/-- How reals, scope entries and the fields of variants are written. -/
structure Dialect where
  form : FieldForm
  readReal : Decoder Float
  writeReal : Float → Json
  readEntries : Decoder (List (String × SymbolId))
  writeEntries : List (String × SymbolId) → Json

namespace Dialect

def symbolId (json : Json) : Option SymbolId :=
  SymbolId.mk <$> Decoder.index json

/-- Enters names in order; a repeated one keeps its place and takes the last symbol. -/
def collect (entries : List (String × SymbolId)) : List (String × SymbolId) :=
  entries.foldl (fun table (name, symbol) => Scope.putEntry name symbol table) []

def number : Decoder Float
  | .integer value => some (Float.ofInt value)
  | .real value => some value
  | _ => none

def entriesObject : Decoder (List (String × SymbolId))
  | .object entries =>
    collect <$> entries.mapM fun (name, json) => do return (name, ← symbolId json)
  | _ => none

def file : Dialect where
  form := .namedOrPositional
  readReal := number
  writeReal := .real
  readEntries := entriesObject
  writeEntries entries := .object (entries.map fun (name, symbol) => (name, .integer symbol.index))

end Dialect

end FortranSemantics.Image
