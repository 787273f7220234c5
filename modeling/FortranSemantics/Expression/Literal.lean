import FortranSemantics.Conversion
import FortranSemantics.Expression.Environment
import FortranSemantics.Number.DecimalReader

/-!
# Literals
-/

namespace FortranSemantics.Expression

/-- The value of a parameter that gives a kind. -/
def kindParameter (name : String) (scope : ScopeId) (span : Span) : Edit Int := do
  match ← Edit.ask (·.lookup scope name) with
  | none => reject (.undeclaredVariable name) span
  | some symbol =>
    let info ← Edit.ask (·.asVariable? symbol)
    match ← Edit.ask (·.optionalInteger? (info.bind (·.value))) with
    | some kind => return kind
    | none => reject (.kindParameter name) span

/-- Splits the kind off a literal: what follows the last underscore, a number or a parameter. -/
def splitKind (text : String) (scope : ScopeId) (span : Span) : Edit (String × Option Int) := do
  match Text.splitLast? '_' text with
  | none => return (text, none)
  | some (body, suffix) =>
    match Number.readInteger? suffix with
    | some kind => return (body, some kind)
    | none => return (body, some (← kindParameter (Text.lowercase suffix) scope span))

def integerLiteral (text : String) (scope : ScopeId) (span : Span) : Edit ExprId := do
  let (digits, kind) ← splitKind text scope span
  let kind ← checkKind .integer (kind.getD 4) span
  match Number.readInteger? digits with
  | none => reject (.invalidInteger text) span
  | some value =>
    if Number.fitsInteger kind value then Edit.addConstant (.integer value) (.integer kind) span
    else reject (.integerOverflow value kind) span

/-- A real literal; an exponent letter `d` makes it double precision. -/
def realLiteral (text : String) (scope : ScopeId) (span : Span) : Edit ExprId := do
  let (mantissa, kind) ← splitKind text scope span
  let letters := (Text.lowercase mantissa).toList
  let exponentKind : Option Int := if letters.contains 'd' then some 8 else none
  let kind ← checkKind .real ((kind <|> exponentKind).getD 4) span
  let normalized := String.ofList (letters.map fun letter => if letter = 'd' then 'e' else letter)
  match Number.readReal? normalized with
  | none => reject (.invalidReal text) span
  | some value => Edit.addConstant (.real (Number.roundReal value kind)) (.real kind) span

/-- The kind of a complex constant with one more part. -/
def complexPartKind (kind : Nat) (part : ExprId) (span : Span) : Edit Nat := do
  let type ← Edit.typeOf part
  match type.element, type.isScalar with
  | .integer _, true => return kind
  | .real partKind, true => return max kind partKind
  | _, _ => reject (.complexPart (← Edit.typeName type)) span

def complexConstant (re im : ExprId) (span : Span) : Edit ExprId := do
  let kind ← complexPartKind 4 re span
  let kind ← complexPartKind kind im span
  let re ← Conversion.insertCast re (.real kind) span
  let im ← Conversion.insertCast im (.real kind) span
  match ← Edit.ask (·.constant? re), ← Edit.ask (·.constant? im) with
  | some reValue, some imValue =>
    let value := Constant.complex (reValue.real?.getD 0.0) (imValue.real?.getD 0.0)
    Edit.addConstant value (.complex kind) span
  | _, _ => Edit.addExpr (.complexConstructor re im) (.complex kind) none span

end FortranSemantics.Expression
