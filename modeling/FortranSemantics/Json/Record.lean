import FortranSemantics.Json.Basic

/-!
# Decoding records and variants

A record is written as an object with its field names, or as an array of its fields in order. A
variant is its name alone, or an object with the name as only key; whether the fields of a variant
may be given in order depends on the exchange.
-/

namespace FortranSemantics

/-- Reads a value of some type from a JSON value. -/
abbrev Decoder (α : Type) := Json → Option α

namespace Decoder

variable {α : Type}

def text : Decoder String
  | .text value => some value
  | _ => none

def bool : Decoder Bool
  | .bool value => some value
  | _ => none

/-- A natural number of at most the given size. -/
def natural (most : Nat) : Decoder Nat
  | .integer value => if 0 ≤ value ∧ value ≤ most then some value.toNat else none
  | _ => none

/-- An index: a natural number of 64 bits. -/
def index : Decoder Nat :=
  natural 0xFFFFFFFFFFFFFFFF

def word : Decoder Int
  | .integer value =>
    if -0x8000000000000000 ≤ value ∧ value < 0x8000000000000000 then some value else none
  | _ => none

def char : Decoder Char
  | .text value =>
    match value.toList with
    | [char] => some char
    | _ => none
  | _ => none

def list (item : Decoder α) : Decoder (List α)
  | .array items => items.mapM item
  | _ => none

def nullable (value : Decoder α) : Decoder (Option α)
  | .null => some none
  | json => some <$> value json

end Decoder

/-- The fields of a record. -/
inductive Record where
  | named (entries : List (String × Json))
  | positional (items : List Json)

namespace Record

variable {α : Type}

/-- The fields of a record with the given field names: no field is given twice, and there are no
more items than fields. -/
def ofJson? (fields : List String) : Json → Option Record
  | .object entries =>
    if fields.all fun field => (entries.filter fun entry => entry.1 == field).length ≤ 1 then
      some (.named entries)
    else none
  | .array items => if items.length ≤ fields.length then some (.positional items) else none
  | _ => none

variable (record : Record) (position : Nat)

/-- The value of a field, given by position and name. -/
def value? (name : String) : Option Json :=
  match record with
  | .named entries => entries.lookup name
  | .positional items => items[position]?

def required (name : String) (decoder : Decoder α) : Option α := do
  decoder (← record.value? position name)

/-- A field that may be left out of an object, or be null. -/
def nullable (record : Record) (position : Nat) (name : String) (decoder : Decoder α) :
    Option (Option α) :=
  match record, record.value? position name with
  | _, some json => Decoder.nullable decoder json
  | .named _, none => some none
  | .positional _, none => none

def defaulted (name : String) (decoder : Decoder α) (absent : α) : Option α :=
  match record.value? position name with
  | some json => decoder json
  | none => some absent

end Record

/-- How the fields of a variant may be written. -/
inductive FieldForm where
  /-- With their names. -/
  | named
  /-- With their names, or in order. -/
  | namedOrPositional
deriving DecidableEq, Repr

/-- A variant: its name and, unless the name stands alone, its contents. -/
structure Variant where
  name : String
  contents : Option Json

namespace Variant

variable {α : Type}

def ofJson? : Json → Option Variant
  | .text name => some { name, contents := none }
  | .object [(name, contents)] => some { name, contents := some contents }
  | _ => none

variable (variant : Variant)

def plain (value : α) : Option α :=
  match variant.contents with
  | none | some .null => some value
  | some _ => none

def single (decoder : Decoder α) : Option α := do
  decoder (← variant.contents)

def pair {β : Type} (variant : Variant) (first : Decoder α) (second : Decoder β) :
    Option (α × β) := do
  match ← variant.contents with
  | .array [left, right] => return (← first left, ← second right)
  | _ => none

def triple {β γ : Type} (variant : Variant) (first : Decoder α) (second : Decoder β)
    (third : Decoder γ) : Option (α × β × γ) := do
  match ← variant.contents with
  | .array [left, middle, right] => return (← first left, ← second middle, ← third right)
  | _ => none

def record (form : FieldForm) (fields : List String) : Option Record := do
  match form, ← variant.contents with
  | .named, .array _ => none
  | _, contents => Record.ofJson? fields contents

/-- One of several variants without contents. -/
def choice (choices : List (String × α)) (json : Json) : Option α := do
  let variant ← ofJson? json
  variant.plain (← choices.lookup variant.name)

end Variant

end FortranSemantics
