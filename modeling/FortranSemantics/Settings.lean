import FortranSemantics.Text

/-!
# Settings of an analysis

Lints can be allowed, denied or made errors by name, also from directives in the source text such as
`!#allow(implicit_narrowing)`.
-/

namespace FortranSemantics

/-- How a generic picks among several matching candidates. -/
inductive OverloadPolicy where
  /-- The first in declaration order. -/
  | firstMatch
  /-- More than one is an error. -/
  | unique
deriving DecidableEq, Repr

/-- The policy with the given name, in any case of letters. -/
def OverloadPolicy.ofName? (name : String) : Option OverloadPolicy :=
  match Text.lowercase name with
  | "first-match" | "first" => some .firstMatch
  | "unique" | "strict" => some .unique
  | _ => none

def OverloadPolicy.unknown (name : String) : String :=
  "unknown overload policy '" ++ Text.lowercase name ++ "'"

/-- What an analysis can be told. -/
structure Settings where
  /-- Lints that are not reported. -/
  allow : List String := []
  /-- Lints that are reported as errors. -/
  deny : List String := []
  /-- Lints that are errors. -/
  error : List String := []
  /-- Report the lints that are off by default. -/
  wall : Bool := false
  /-- Treat every lint as an error. -/
  werror : Bool := false
  policy : OverloadPolicy := .firstMatch
  /-- Replace calls of array intrinsics by calls of generated procedures. -/
  lowerArrays : Bool := true
  /-- Type undeclared names by their first letter in units without `implicit none`. -/
  implicitTyping : Bool := false
deriving Inhabited

namespace Settings

def optIn : List String :=
  ["unused_dummy_argument"]

def reports (settings : Settings) (lint : String) : Bool :=
  let lint := Text.lowercase lint
  if settings.allow.contains lint then false
  else if optIn.contains lint then
    settings.wall || settings.deny.contains lint || settings.error.contains lint
  else true

/-- Whether a reported lint counts as an error. -/
def isError (settings : Settings) (lint : String) : Bool :=
  let lint := Text.lowercase lint
  settings.werror || settings.error.contains lint || settings.deny.contains lint

def union (names others : List String) : List String :=
  others.foldl (fun names name => if names.contains name then names else names ++ [name]) names

/-- Adds the lints and switches of other settings. -/
def merge (settings other : Settings) : Settings :=
  { settings with
    allow := union settings.allow other.allow
    deny := union settings.deny other.deny
    error := union settings.error other.error
    wall := settings.wall || other.wall
    werror := settings.werror || other.werror }

/-- The lint named by a directive line with the given keyword. -/
def directiveName? (keyword line : String) : Option String := do
  let rest ← Text.afterLead? ['!', '#'] (Text.trim line).toList
  let inner ← Text.between? (keyword ++ "(") ")" (Text.trim (String.ofList rest))
  return Text.lowercase (Text.trim inner)

/-- The settings that the directives of a source text ask for. -/
def ofDirectives (source : String) : Settings :=
  let lines := source.splitOn "\n"
  let named (keyword : String) : List String := union [] (lines.filterMap (directiveName? keyword))
  { allow := named "allow", deny := named "deny", error := named "error" }

end Settings

end FortranSemantics
