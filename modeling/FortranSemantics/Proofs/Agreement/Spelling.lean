import FortranSemantics.Expression.Literal
import FortranSemantics.Generic
import FortranSemantics.Tree.Uses

/-!
# Spelling

Two compilation units have the same spelling up to case when they are the same with all names,
keywords, operators, letter ranges and numbers in lower case. Character strings keep their case.
What the analysis takes from a name does not depend on its case.
-/

namespace FortranSemantics

open List

/-! ## Letters in lower case -/

namespace Text

theorem toLower_cases (letter : Char) : letter.toLower = letter ∨
    (65 ≤ letter.toNat ∧ letter.toNat ≤ 90 ∧ letter.toLower.toNat = letter.toNat + 32) := by
  unfold Char.toLower
  split
  · next upper =>
    obtain ⟨low, high⟩ := upper
    have low : 65 ≤ letter.toNat := low
    have high : letter.toNat ≤ 90 := high
    refine .inr ⟨low, high, ?_⟩
    change (letter.val + 32).toNat = letter.toNat + 32
    rw [UInt32.toNat_add]
    change (letter.toNat + 32) % 2 ^ 32 = letter.toNat + 32
    omega
  · exact .inl rfl

/-- What holds of no letter does not depend on letter case. -/
theorem toLower_iff {property : Char → Bool}
    (noLetter : ∀ letter : Char, 65 ≤ letter.toNat → letter.toNat ≤ 122 →
      (letter.toNat ≤ 90 ∨ 97 ≤ letter.toNat) → property letter = false) (char : Char) :
    property char.toLower = property char := by
  rcases toLower_cases char with same | ⟨low, high, raised⟩
  · rw [same]
  · rw [noLetter char low (by omega) (.inl high),
      noLetter char.toLower (by omega) (by omega) (.inr (by omega))]

@[simp]
theorem toLower_toLower (letter : Char) : letter.toLower.toLower = letter.toLower := by
  rcases toLower_cases letter with same | ⟨low, high, raised⟩
  · rw [same, same]
  · rcases toLower_cases letter.toLower with same | ⟨_, tooHigh, _⟩
    · exact same
    · omega

variable (text : String)

@[simp]
theorem toList_lowercase : (lowercase text).toList = text.toList.map Char.toLower :=
  String.toList_ofList

@[simp]
theorem lowercase_lowercase : lowercase (lowercase text) = lowercase text := by
  unfold lowercase
  rw [String.toList_ofList, map_map]
  exact congrArg String.ofList (map_congr_left fun letter _ => toLower_toLower letter)

theorem lowercase_append (first second : String) :
    lowercase (first ++ second) = lowercase first ++ lowercase second := by
  unfold lowercase
  rw [String.toList_append, map_append, String.ofList_append]

theorem trimList_map_toLower {drop : Char → Bool}
    (same : ∀ char : Char, drop char.toLower = drop char) (chars : List Char) :
    trimList drop (chars.map Char.toLower) = (trimList drop chars).map Char.toLower := by
  have condition : drop ∘ Char.toLower = drop := funext same
  unfold trimList
  rw [dropWhile_map, condition, ← map_reverse, dropWhile_map, condition, ← map_reverse]

theorem isBlank_toLower (char : Char) : isBlank char.toLower = isBlank char := by
  refine toLower_iff (fun letter low high _ => ?_) char
  simp only [isBlank, Bool.or_eq_false_iff, Bool.and_eq_false_iff, decide_eq_false_iff_not,
    beq_eq_false_iff_ne]
  omega

theorem trim_lowercase : trim (lowercase text) = lowercase (trim text) := by
  unfold trim
  rw [toList_lowercase, trimList_map_toLower isBlank_toLower]
  unfold lowercase
  rw [String.toList_ofList]

theorem beq_toLower {mark : Char} (noLetter : mark.toNat < 65 ∨ (90 < mark.toNat ∧ mark.toNat < 97))
    (char : Char) : (char.toLower == mark) = (char == mark) := by
  refine @toLower_iff (· == mark) (fun letter low high outside => ?_) char
  refine beq_eq_false_iff_ne.2 fun same => ?_
  rw [same] at low outside
  omega

theorem trimDots_lowercase : trimDots (lowercase text) = lowercase (trimDots text) := by
  unfold trimDots
  rw [toList_lowercase, trimList_map_toLower (beq_toLower (by decide))]
  unfold lowercase
  rw [String.toList_ofList]

theorem splitLast?_lowercase : splitLast? '_' (lowercase text) =
    (splitLast? '_' text).map fun parts => (lowercase parts.1, lowercase parts.2) := by
  have condition : (· != '_') ∘ Char.toLower = (· != '_') :=
    funext fun char => congrArg not (beq_toLower (by decide) char)
  unfold splitLast?
  dsimp only
  rw [toList_lowercase, ← map_reverse, dropWhile_map, takeWhile_map, condition]
  cases text.toList.reverse.dropWhile (· != '_') with
  | nil => rfl
  | cons mark pre => simp [lowercase]

end Text

namespace Number

theorem isDigit_eq_false {letter : Char} (low : 65 ≤ letter.toNat) : letter.isDigit = false := by
  unfold Char.isDigit
  have high : ¬ letter.val ≤ '9'.val := fun small => by
    have small : letter.toNat ≤ 57 := small
    omega
  rw [decide_eq_false high, Bool.and_false]

theorem digits?_toLower (chars : List Char) : digits? (chars.map Char.toLower) = digits? chars := by
  unfold digits?
  rw [isEmpty_map, foldlM_map]
  congr 2
  funext total char
  rcases Text.toLower_cases char with same | ⟨low, high, raised⟩
  · rw [same]
  · rw [isDigit_eq_false low,
      isDigit_eq_false (by omega), if_neg Bool.false_ne_true, if_neg Bool.false_ne_true]

/-- An integer is read whatever the case of the text. -/
theorem readInteger?_lowercase (text : String) :
    readInteger? (Text.lowercase text) = readInteger? text := by
  unfold readInteger?
  rw [Text.toList_lowercase]
  have stays {mark : Char} (noLetter : mark.toNat < 65) {char : Char} (o : char ≠ mark) :
      char.toLower ≠ mark := by
    have same := Text.beq_toLower (.inl noLetter) char
    rw [beq_eq_false_iff_ne.2 o] at same
    exact beq_eq_false_iff_ne.1 same
  cases text.toList with
  | nil => rfl
  | cons first rest =>
    by_cases minus : first = '-'
    · subst minus
      simp only [map_cons, (by decide : '-'.toLower = '-'), digits?_toLower]
    · by_cases plus : first = '+'
      · subst plus
        simp only [map_cons, (by decide : '+'.toLower = '+'), digits?_toLower]
      · have notMinus : first.toLower ≠ '-' := stays (by decide) minus
        have notPlus : first.toLower ≠ '+' := stays (by decide) plus
        have all := digits?_toLower (first :: rest)
        rw [map_cons] at all ⊢
        split
        · next digits shape => exact absurd (cons.inj shape).1 notMinus
        · next digits shape => exact absurd (cons.inj shape).1 notPlus
        · split
          · next digits shape => exact absurd (cons.inj shape).1 minus
          · next digits shape => exact absurd (cons.inj shape).1 plus
          · rw [all]

end Number

/-! ## Names in lower case -/

/-- Operators are named in any letter case. -/
@[simp]
theorem operatorGenericName_lowercase (token : String) :
    operatorGenericName (Text.lowercase token) = operatorGenericName token := by
  unfold operatorGenericName
  rw [Text.trim_lowercase, Text.lowercase_lowercase]

theorem operatorGenericName_dotted (op : String) :
    operatorGenericName ("." ++ Text.trimDots (Text.lowercase op) ++ ".") =
      operatorGenericName ("." ++ Text.trimDots op ++ ".") := by
  have dotted : "." ++ Text.trimDots (Text.lowercase op) ++ "." = Text.lowercase
      ("." ++ Text.trimDots op ++ ".") := by
    rw [Text.trimDots_lowercase, Text.lowercase_append, Text.lowercase_append]
    rfl
  rw [dotted, operatorGenericName_lowercase]

@[simp]
theorem genericSpelling_lowercase (n : String) :
    genericSpelling (Text.lowercase n) = genericSpelling n := by
  unfold genericSpelling
  rw [Text.lowercase_lowercase]

theorem lowercase_eq_star : Text.lowercase n = "*" ↔ n = "*" := by
  constructor
  · intro star
    have letters : n.toList.map Char.toLower = ['*'] := by
      rw [← Text.toList_lowercase, star]
      rfl
    obtain ⟨letter, only, lower⟩ := map_eq_singleton_iff.1 letters
    have same : letter = '*' := by
      have h := Text.beq_toLower (.inl (by decide : '*'.toNat < 65)) letter
      rw [lower] at h
      exact eq_of_beq h.symm
    rw [← String.ofList_toList (s := n), only, same]
  · rintro rfl
    rfl

/-! ## Implicit typing in lower case -/

/-- A range of letters in lower case. -/
def Tree.LetterRange.lowercase (range : LetterRange) : LetterRange :=
  ⟨range.first.toLower, range.last.map Char.toLower⟩

namespace ImplicitTyping

/-- The typing with its ranges in lower case. -/
def lowercase (typing : ImplicitTyping) : ImplicitTyping :=
  { typing with rules := typing.rules.map fun rule =>
      { rule with ranges := rule.ranges.map (·.lowercase) } }

theorem covers_lowercase (range : Tree.LetterRange) (letter : Char) :
    covers range.lowercase letter = covers range letter := by
  obtain ⟨first, last⟩ := range
  cases last <;> simp [covers, Tree.LetterRange.lowercase]

/-- Implicit types do not depend on the case of the ranges. -/
theorem typeOf?_lowercase (typing : ImplicitTyping) (n : String) :
    typing.lowercase.typeOf? n = typing.typeOf? n := by
  unfold typeOf? lowercase
  dsimp only
  split
  · rfl
  · cases n.toList with
    | nil => rfl
    | cons first rest =>
      have covered : (fun rule : ImplicitRule => rule.ranges.any fun range =>
          covers range first.toLower) ∘
          (fun rule : ImplicitRule => { rule with ranges := rule.ranges.map (·.lowercase) }) =
            fun rule => rule.ranges.any fun range => covers range first.toLower := by
        funext rule
        simp only [Function.comp_apply, any_map, Function.comp_def, covers_lowercase]
      dsimp only
      rw [find?_map, covered]
      cases typing.rules.find? fun rule => rule.ranges.any fun range =>
        covers range first.toLower <;> rfl

theorem addRule_lowercase (typing : ImplicitTyping) (ty : Ty) (ranges : List Tree.LetterRange) :
    (typing.addRule ty ranges).lowercase =
      typing.lowercase.addRule ty (ranges.map (·.lowercase)) := by
  simp [addRule, lowercase]

end ImplicitTyping

namespace Environment

/-- The typings of scopes in lower case. -/
def lowercaseTypings (typings : List (ScopeId × ImplicitTyping)) :
    List (ScopeId × ImplicitTyping) :=
  typings.map fun entry => (entry.1, entry.2.lowercase)

theorem lookup_lowercaseTypings (typings : List (ScopeId × ImplicitTyping)) (s : ScopeId) :
    (lowercaseTypings typings).lookup s = (typings.lookup s).map (·.lowercase) := by
  induction typings with
  | nil => rfl
  | cons e rest ih =>
    obtain ⟨owner, typing⟩ := e
    change lookup s ((owner, typing.lowercase) :: lowercaseTypings rest) = _
    rw [lookup_cons, lookup_cons, ih]
    cases s == owner <;> rfl

theorem implicitType?_lowercase {env other : Environment}
    (same : other.typings = lowercaseTypings env.typings) :
    other.implicitType? = env.implicitType? := by
  funext a s n
  unfold implicitType?
  induction a.scopes.size + 1 generalizing s with
  | zero => rfl
  | succ fuel ih =>
    unfold implicitTypeWithin
    rw [same, lookup_lowercaseTypings]
    cases env.typings.lookup s with
    | some typing => exact congrArg Except.ok (typing.typeOf?_lowercase n)
    | none =>
      simp only [Option.map_none, ih]

end Environment

/-! ## Trees in lower case -/

namespace Tree

mutual

/-- An expression with its names and numbers in lower case. -/
def Expr.lowercase : Expr → Expr
  | ⟨kind, span⟩ => ⟨kind.lowercase, span⟩

/-- The form of an expression with its names and numbers in lower case. -/
def ExprKind.lowercase : ExprKind → ExprKind
  | .int text => .int (Text.lowercase text)
  | .real text => .real (Text.lowercase text)
  | .complex re im => .complex re.lowercase im.lowercase
  | .text value => .text value
  | .logical value => .logical value
  | .name name => .name (Text.lowercase name)
  | .member base members => .member (Text.lowercase base) (members.map Text.lowercase)
  | .call receiver name args =>
    .call (receiver.map Text.lowercase) (Text.lowercase name) (Arg.lowercaseAll args)
  | .binary op left right => .binary op left.lowercase right.lowercase
  | .unary op operand => .unary op operand.lowercase
  | .definedBinary op left right =>
    .definedBinary (Text.lowercase op) left.lowercase right.lowercase
  | .definedUnary op operand => .definedUnary (Text.lowercase op) operand.lowercase
  | .paren inner => .paren inner.lowercase
  | .array items => .array (Expr.lowercaseAll items)

/-- Expressions with their names and numbers in lower case. -/
def Expr.lowercaseAll : List Expr → List Expr
  | [] => []
  | first :: rest => first.lowercase :: Expr.lowercaseAll rest

/-- Actual arguments with their names and numbers in lower case. -/
def Arg.lowercaseAll : List Arg → List Arg
  | [] => []
  | first :: rest => first.lowercase :: Arg.lowercaseAll rest

/-- An actual argument with its names and numbers in lower case. -/
def Arg.lowercase : Arg → Arg
  | ⟨keyword, value⟩ => ⟨keyword.map Text.lowercase, value.lowercase⟩

end

@[simp]
theorem Expr.lowercase_span (tree : Expr) : tree.lowercase.span = tree.span := by
  cases tree
  rfl

/-- A character length in lower case. -/
def CharLength.lowercase : CharLength → CharLength
  | .expr length => .expr length.lowercase
  | .assumed => .assumed
  | .deferred => .deferred

/-- A type specification in lower case. -/
def TypeSpec.lowercase : TypeSpec → TypeSpec
  | .integer kind => .integer (kind.map (·.lowercase))
  | .real kind => .real (kind.map (·.lowercase))
  | .doublePrecision => .doublePrecision
  | .complex kind => .complex (kind.map (·.lowercase))
  | .logical kind => .logical (kind.map (·.lowercase))
  | .character length kind => .character (length.map (·.lowercase)) (kind.map (·.lowercase))
  | .derived name => .derived (Text.lowercase name)
  | .polymorphic name => .polymorphic (Text.lowercase name)

/-- A pair of bounds in lower case. -/
def DimSpec.lowercase (spec : DimSpec) : DimSpec :=
  ⟨spec.lower.map (·.lowercase), spec.upper.map (·.lowercase)⟩

/-- An attribute in lower case. -/
def Attribute.lowercase : Attribute → Attribute
  | .dimension dims => .dimension (dims.map (·.lowercase))
  | other => other

/-- A declared entity in lower case. -/
def Entity.lowercase (entity : Entity) : Entity :=
  ⟨Text.lowercase entity.name, entity.dims.map (·.lowercase),
    entity.init.map (·.lowercase), entity.span⟩

/-- A type declaration in lower case. -/
def VarDecl.lowercase (decl : VarDecl) : VarDecl :=
  ⟨decl.typeSpec.lowercase, decl.attributes.map (·.lowercase),
    decl.entities.map (·.lowercase), decl.span⟩

/-- A type-bound procedure in lower case. -/
def TypeBoundProcedure.lowercase (procedure : TypeBoundProcedure) : TypeBoundProcedure :=
  ⟨Text.lowercase procedure.name, procedure.implementation.map Text.lowercase, procedure.nopass,
    procedure.span⟩

/-- A type-bound generic in lower case. -/
def TypeBoundGeneric.lowercase (generic : TypeBoundGeneric) : TypeBoundGeneric :=
  ⟨Text.lowercase generic.name, generic.procedures.map Text.lowercase, generic.span⟩

/-- A derived type definition in lower case. -/
def DerivedTypeDecl.lowercase (decl : DerivedTypeDecl) : DerivedTypeDecl :=
  ⟨Text.lowercase decl.name, decl.parent.map Text.lowercase, decl.access.map (·.lowercase),
    decl.components.map (·.lowercase), decl.procedures.map (·.lowercase),
    decl.generics.map (·.lowercase), decl.span⟩

/-- The head of an interface block in lower case. -/
def InterfaceHeader.lowercase : InterfaceHeader → InterfaceHeader
  | .plain => .plain
  | .generic name => .generic (Text.lowercase name)
  | .operator token => .operator (Text.lowercase token)

/-- An entry of an only list in lower case. -/
def UseSymbol.lowercase (item : UseSymbol) : UseSymbol :=
  ⟨Text.lowercase item.remote, item.localName.map Text.lowercase⟩

/-- A use statement in lower case. -/
def Use.lowercase (statement : Use) : Use :=
  ⟨Text.lowercase statement.moduleName, statement.only.map (map (·.lowercase)), statement.span⟩

/-- An implicit statement in lower case. -/
def ImplicitStmt.lowercase : ImplicitStmt → ImplicitStmt
  | .none => .none
  | .rule typeSpec ranges span => .rule typeSpec.lowercase (ranges.map (·.lowercase)) span

/-- A selector of an associate construct in lower case. -/
def Association.lowercase (association : Association) : Association :=
  ⟨Text.lowercase association.name, association.expr.lowercase⟩

mutual

/-- A procedure in lower case. -/
def Subprogram.lowercase : Subprogram → Subprogram
  | ⟨kind, name, args, resultType, resultName, uses, implicits, decls, body, contained, span⟩ =>
    ⟨kind, Text.lowercase name, args.map Text.lowercase, resultType.map (·.lowercase),
      resultName.map Text.lowercase, uses.map (·.lowercase), implicits.map (·.lowercase),
      Decl.lowercaseAll decls, Stmt.lowercaseAll body, Subprogram.lowercaseAll contained, span⟩

/-- Procedures in lower case. -/
def Subprogram.lowercaseAll : List Subprogram → List Subprogram
  | [] => []
  | first :: rest => first.lowercase :: Subprogram.lowercaseAll rest

/-- A declaration in lower case. -/
def Decl.lowercase : Decl → Decl
  | .var decl => .var decl.lowercase
  | .attributeStmt attr names span => .attributeStmt attr.lowercase (names.map Text.lowercase) span
  | .derivedType decl => .derivedType decl.lowercase
  | .interface header items span =>
    .interface header.lowercase (InterfaceItem.lowercaseAll items) span

/-- Declarations in lower case. -/
def Decl.lowercaseAll : List Decl → List Decl
  | [] => []
  | first :: rest => first.lowercase :: Decl.lowercaseAll rest

/-- An entry of an interface block in lower case. -/
def InterfaceItem.lowercase : InterfaceItem → InterfaceItem
  | .moduleProcedure names => .moduleProcedure (names.map Text.lowercase)
  | .body subprogram => .body subprogram.lowercase

/-- Entries of an interface block in lower case. -/
def InterfaceItem.lowercaseAll : List InterfaceItem → List InterfaceItem
  | [] => []
  | first :: rest => first.lowercase :: InterfaceItem.lowercaseAll rest

/-- A statement in lower case. -/
def Stmt.lowercase : Stmt → Stmt
  | .assign target value span => .assign target.lowercase value.lowercase span
  | .branch cond thenBody elseBody =>
    .branch cond.lowercase (Stmt.lowercaseAll thenBody) (Stmt.lowercaseElse elseBody)
  | .loop var start stop step body span =>
    .loop (Text.lowercase var) start.lowercase stop.lowercase (step.map (·.lowercase))
      (Stmt.lowercaseAll body) span
  | .loopWhile cond body => .loopWhile cond.lowercase (Stmt.lowercaseAll body)
  | .call receiver name args span =>
    .call (receiver.map Text.lowercase) (Text.lowercase name) (Arg.lowercaseAll args) span
  | .print items => .print (items.map (·.lowercase))
  | .returnStmt => .returnStmt
  | .exit span => .exit span
  | .cycle span => .cycle span
  | .stop code span => .stop (code.map (·.lowercase)) span
  | .block decls body span => .block (Decl.lowercaseAll decls) (Stmt.lowercaseAll body) span
  | .associate associations body span =>
    .associate (associations.map (·.lowercase)) (Stmt.lowercaseAll body) span

/-- Statements in lower case. -/
def Stmt.lowercaseAll : List Stmt → List Stmt
  | [] => []
  | first :: rest => first.lowercase :: Stmt.lowercaseAll rest

/-- A missing or present alternative in lower case. -/
def Stmt.lowercaseElse : Option (List Stmt) → Option (List Stmt)
  | none => none
  | some body => some (Stmt.lowercaseAll body)

end

/-- A module in lower case. -/
def Module.lowercase (unit : Module) : Module :=
  ⟨Text.lowercase unit.name, unit.uses.map (·.lowercase), unit.implicits.map (·.lowercase),
    Decl.lowercaseAll unit.decls, Subprogram.lowercaseAll unit.contained, unit.span⟩

/-- A main program in lower case. -/
def Program.lowercase (unit : Program) : Program :=
  ⟨Text.lowercase unit.name, unit.uses.map (·.lowercase), unit.implicits.map (·.lowercase),
    Decl.lowercaseAll unit.decls, Stmt.lowercaseAll unit.body,
    Subprogram.lowercaseAll unit.contained, unit.span⟩

/-- A program unit in lower case. -/
def ProgramUnit.lowercase : ProgramUnit → ProgramUnit
  | .moduleUnit unit => .moduleUnit unit.lowercase
  | .programUnit unit => .programUnit unit.lowercase
  | .subprogramUnit unit => .subprogramUnit unit.lowercase

/-- A compilation unit in lower case, but for its character strings. -/
def CompilationUnit.lowercase (unit : CompilationUnit) : CompilationUnit :=
  ⟨unit.items.map (·.lowercase)⟩

end Tree

end FortranSemantics
