import FortranSemantics.Expression.Resolution
import FortranSemantics.Image.Library
import FortranSemantics.Lint.Basic

/-!
# The state of an analysis

An analysis edits an arena and keeps a journal of what later steps need but the arena does not hold.
-/

namespace FortranSemantics

/-- What an analysis is run with. -/
structure Setup where
  settings : Settings
  library : Library

/-- What an analysis keeps beside the arena. -/
structure Journal where
  /-- The implicit typing of the scopes that have one of their own. -/
  typings : List (ScopeId × ImplicitTyping) := []
  /-- The lints found so far, in order. -/
  lints : List Lint := []
  /-- Where variables were declared. -/
  declSpans : List (SymbolId × Span) := []
  /-- The modules that are being loaded. -/
  loading : List String := []
  /-- The number of block constructs met so far. -/
  blocks : Nat := 0
  /-- The number of associate constructs met so far. -/
  associates : Nat := 0

/-- The state of an analysis. -/
structure Context where
  arena : Arena
  journal : Journal

/-- A step of an analysis. -/
abbrev Analysis := EStateM Failure Context

namespace Analysis

/-- An edit of the arena as a step of an analysis. -/
def ofEdit {α : Type} (edit : Edit α) : Analysis α := fun ⟨arena, journal⟩ =>
  match edit arena with
  | .ok value arena => .ok value ⟨arena, journal⟩
  | .error failure arena => .error failure ⟨arena, journal⟩

instance : MonadLift Edit Analysis := ⟨ofEdit⟩

def journal : Analysis Journal := do
  return (← get).journal

def note (change : Journal → Journal) : Analysis Unit :=
  modify fun ⟨arena, journal⟩ => ⟨arena, change journal⟩

/-- What expressions are resolved against. -/
def environment (setup : Setup) : Analysis Environment := do
  return { policy := setup.settings.policy, typings := (← journal).typings }

def root : Analysis ScopeId := do
  return (← get).arena.root

def addLint (name message : String) (span : Span) : Analysis Unit :=
  note fun journal => { journal with lints := journal.lints ++ [{ name, message, span }] }

def expression (setup : Setup) (scope : ScopeId) (tree : Tree.Expr) : Analysis ExprId := do
  Expression.resolve (← environment setup) scope tree

def declaredType (setup : Setup) (spec : Tree.TypeSpec) (span : Span) (scope : ScopeId) :
    Analysis Ty := do
  Expression.declaredType (← environment setup) spec span scope

def implicitType? (setup : Setup) (scope : ScopeId) (name : String) : Analysis (Option Ty) := do
  let env ← environment setup
  Edit.ask fun arena => env.implicitType? arena scope name

def declareVariable (scope : ScopeId) (name : String) (info : Variable) (span : Span) :
    Analysis SymbolId := do
  let symbol ← Edit.addSymbol name scope (.variable info)
  Edit.declare scope name symbol span
  note fun journal => { journal with declSpans := (symbol, span) :: journal.declSpans }
  return symbol

/-- A new scope with the symbol that opens it; the name is not yet entered. -/
def addScoped (name : String) (owner : ScopeId) (kind : ScopeId → SymbolKind) :
    Analysis (SymbolId × ScopeId) := do
  let scope ← Edit.addScope (some owner)
  let symbol ← Edit.addSymbol name owner (kind scope)
  Edit.modifyScope scope fun held => { held with owner := some symbol }
  return (symbol, scope)

end Analysis

end FortranSemantics
