/-!
# JSON values

The exchange format of syntax trees and module images. Integers and other numbers are kept apart,
and the entries of an object keep their order and their repetitions, because decoders tell them
apart. A part that is well formed but has no value here is kept as unreadable: no decoder takes it,
and a reader of a record that has no use for it passes over it.
-/

namespace FortranSemantics

/-- A JSON value. -/
inductive Json where
  | null
  | bool (value : Bool)
  | integer (value : Int)
  | real (value : Float)
  | text (value : String)
  | array (items : List Json)
  | object (entries : List (String × Json))
  /-- A part that is nested too deep, a number out of range, or a string that is no text. -/
  | unreadable
deriving Inhabited

namespace Json

mutual

/-- How deep arrays and objects are nested. -/
def depth : Json → Nat
  | .array items => depthOfItems items + 1
  | .object entries => depthOfEntries entries + 1
  | .null | .bool _ | .integer _ | .real _ | .text _ | .unreadable => 0

def depthOfItems : List Json → Nat
  | [] => 0
  | item :: rest => max item.depth (depthOfItems rest)

def depthOfEntries : List (String × Json) → Nat
  | [] => 0
  | entry :: rest => max (depthOfEntry entry) (depthOfEntries rest)

def depthOfEntry : String × Json → Nat
  | (_, value) => value.depth

end

mutual

/-- Whether no part of a value is unreadable. -/
def isReadable : Json → Bool
  | .unreadable => false
  | .array items => areReadable items
  | .object entries => areReadableEntries entries
  | .null | .bool _ | .integer _ | .real _ | .text _ => true

/-- Whether no part of some values is unreadable. -/
def areReadable : List Json → Bool
  | [] => true
  | item :: rest => item.isReadable && areReadable rest

/-- Whether no part of some entries is unreadable. -/
def areReadableEntries : List (String × Json) → Bool
  | [] => true
  | entry :: rest => isReadableEntry entry && areReadableEntries rest

/-- Whether no part of an entry is unreadable. -/
def isReadableEntry : String × Json → Bool
  | (_, value) => value.isReadable

end

end Json

end FortranSemantics
