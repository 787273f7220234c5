import FortranSemantics.Arena.Edit
import FortranSemantics.Arena.TypeRelation
import FortranSemantics.Settings
import FortranSemantics.Tree.Basic

/-!
# What expressions are resolved against

Besides the arena, the meaning of an expression depends on the policy for generics and on the
implicit typing of the scopes around it.
-/

namespace FortranSemantics

/-! ## Implicit typing

An undeclared name may get its type from its first letter: the first implicit rule that covers the
letter decides, and without one the letters i to n mean integer and all others real. -/

/-- An implicit rule. -/
structure ImplicitRule where
  type : Ty
  ranges : List Tree.LetterRange

/-- The implicit typing of a scope. -/
structure ImplicitTyping where
  /-- Set by `implicit none`. -/
  disabled : Bool := false
  rules : List ImplicitRule := []
deriving Inhabited

namespace ImplicitTyping

/-- Whether a range covers a letter, without regard to case. -/
def covers (range : Tree.LetterRange) (letter : Char) : Bool :=
  let first := range.first.toLower
  match range.last with
  | some last => first.toNat ≤ letter.toNat && letter.toNat ≤ last.toLower.toNat
  | none => letter == first

/-- The type of names that start with a letter when no rule covers it. -/
def defaultType (letter : Char) : Ty :=
  if 'i'.toNat ≤ letter.toNat && letter.toNat ≤ 'n'.toNat then .integer 4 else .real 4

variable (typing : ImplicitTyping)

/-- The implicit type of a name; the empty name has none. -/
def typeOf? (name : String) : Option Ty :=
  if typing.disabled then none
  else
    match name.toList with
    | [] => none
    | first :: _ =>
      let letter := first.toLower
      match typing.rules.find? fun rule => rule.ranges.any fun range => covers range letter with
      | some rule => some rule.type
      | none => some (defaultType letter)

def disable : ImplicitTyping :=
  { typing with disabled := true }

/-- The typing with one more rule, after the others. -/
def addRule (type : Ty) (ranges : List Tree.LetterRange) : ImplicitTyping :=
  { typing with rules := typing.rules ++ [{ type, ranges }] }

end ImplicitTyping

/-! ## Environments -/

/-- The rules under which expressions are resolved. -/
structure Environment where
  policy : OverloadPolicy
  /-- The implicit typing of the scopes that have one of their own. -/
  typings : List (ScopeId × ImplicitTyping)

namespace Environment

/-- The implicit type of a name in at most `fuel` enclosing scopes. -/
def implicitTypeWithin (env : Environment) (arena : Arena) (name : String) :
    Nat → ScopeId → Except Breach (Option Ty)
  | 0, _ => .error .endless
  | fuel + 1, scope =>
    match env.typings.lookup scope with
    | some typing => return typing.typeOf? name
    | none => do
      match (← arena.scope scope).parent with
      | some parent => env.implicitTypeWithin arena name fuel parent
      | none => return none

/-- The implicit type of a name, from the nearest scope with rules of its own. -/
def implicitType? (env : Environment) (arena : Arena) (scope : ScopeId) (name : String) :
    Except Breach (Option Ty) :=
  env.implicitTypeWithin arena name (arena.scopes.size + 1) scope

end Environment

def Edit.typeName (type : Ty) : Edit String :=
  Edit.ask (·.typeName type)

def Edit.typeOf (id : ExprId) : Edit Ty :=
  Edit.ask (·.exprType id)

end FortranSemantics
