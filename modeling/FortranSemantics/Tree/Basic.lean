import FortranSemantics.Span

/-!
# Syntax trees

The tree of a compilation unit as the analysis receives it: program units hold declarations,
executable statements and contained procedures. Names are kept as they were written; folding their
case is the analysis's work.
-/

namespace FortranSemantics.Tree

/-- Binary operators with an intrinsic meaning. -/
inductive BinaryOperator where
  | add | sub | mul | div | pow
  | eq | ne | lt | gt | le | ge
  | and | or | eqv | neqv
  | concat
deriving DecidableEq, Repr

/-- Unary operators with an intrinsic meaning. -/
inductive UnaryOperator where
  | neg | plus | not
deriving DecidableEq, Repr

mutual

/-- An expression with its place in the source. -/
structure Expr where
  kind : ExprKind
  span : Span

/-- The forms of an expression. -/
inductive ExprKind where
  /-- Digits with an optional kind suffix. -/
  | int (text : String)
  /-- A real literal with an optional exponent and kind suffix. -/
  | real (text : String)
  | complex (re im : Expr)
  | text (value : String)
  | logical (value : Bool)
  | name (name : String)
  /-- A chain of component selections. -/
  | member (base : String) (members : List String)
  /-- A call, an array element or a structure constructor; type-bound when there is a receiver. -/
  | call (receiver : List String) (name : String) (args : List Arg)
  | binary (op : BinaryOperator) (left right : Expr)
  | unary (op : UnaryOperator) (operand : Expr)
  | definedBinary (op : String) (left right : Expr)
  | definedUnary (op : String) (operand : Expr)
  | paren (inner : Expr)
  | array (items : List Expr)

/-- An actual argument, with a keyword when one was written. -/
structure Arg where
  keyword : Option String
  value : Expr

end

/-- The length of a declared character type. -/
inductive CharLength where
  | expr (length : Expr)
  /-- Taken over from the actual argument or the value. -/
  | assumed
  /-- Set when the variable is allocated. -/
  | deferred

/-- The type part of a declaration. -/
inductive TypeSpec where
  | integer (kind : Option Expr)
  | real (kind : Option Expr)
  | doublePrecision
  | complex (kind : Option Expr)
  | logical (kind : Option Expr)
  | character (length : Option CharLength) (kind : Option Expr)
  | derived (name : String)
  | polymorphic (name : String)

/-- Declared direction of a dummy argument. -/
inductive Intent where
  | into | out | inout
deriving DecidableEq, Repr

/-- One pair of bounds; a lone colon leaves both out. -/
structure DimSpec where
  lower : Option Expr
  upper : Option Expr

/-- Attributes of declarations and attribute statements. -/
inductive Attribute where
  | parameter | allocatable | pointer | target | optional | save | publicAccess | privateAccess
  | intent (direction : Intent)
  | dimension (dims : List DimSpec)

/-- One declared entity with its own bounds and initializer. -/
structure Entity where
  name : String
  dims : List DimSpec
  init : Option Expr
  span : Span

/-- A type declaration statement. -/
structure VarDecl where
  typeSpec : TypeSpec
  attributes : List Attribute
  entities : List Entity
  span : Span

/-- A type-bound procedure. -/
structure TypeBoundProcedure where
  name : String
  /-- The implementing procedure, when it has another name. -/
  implementation : Option String
  nopass : Bool
  span : Span

/-- A type-bound generic. -/
structure TypeBoundGeneric where
  name : String
  procedures : List String
  span : Span

/-- A derived type definition. -/
structure DerivedTypeDecl where
  name : String
  parent : Option String
  access : Option Attribute
  components : List VarDecl
  procedures : List TypeBoundProcedure
  generics : List TypeBoundGeneric
  span : Span

/-- What an interface block declares. -/
inductive InterfaceHeader where
  | plain
  | generic (name : String)
  | operator (token : String)

/-- One entry of an only list. -/
structure UseSymbol where
  /-- Name in the used module. -/
  remote : String
  /-- Name here, when it is renamed. -/
  localName : Option String

/-- A use statement; without a list it imports everything public. -/
structure Use where
  moduleName : String
  only : Option (List UseSymbol)
  span : Span

/-- First letters that an implicit rule covers. -/
structure LetterRange where
  first : Char
  last : Option Char
deriving DecidableEq, Repr

/-- An implicit statement. -/
inductive ImplicitStmt where
  | none
  | rule (typeSpec : TypeSpec) (ranges : List LetterRange) (span : Span)

/-- One selector of an associate construct. -/
structure Association where
  name : String
  expr : Expr

/-- Whether a procedure returns a value. -/
inductive SubprogramKind where
  | function | subroutine
deriving DecidableEq, Repr

mutual

/-- A function or subroutine. -/
structure Subprogram where
  kind : SubprogramKind
  name : String
  args : List String
  /-- Result type written before the word `function`. -/
  resultType : Option TypeSpec
  /-- Name of the result variable, when it is not the function's. -/
  resultName : Option String
  uses : List Use
  implicits : List ImplicitStmt
  decls : List Decl
  body : List Stmt
  contained : List Subprogram
  span : Span

/-- One declaration of a specification part. -/
inductive Decl where
  | var (decl : VarDecl)
  /-- An attribute statement without a type. -/
  | attributeStmt (attr : Attribute) (names : List String) (span : Span)
  | derivedType (decl : DerivedTypeDecl)
  | interface (header : InterfaceHeader) (items : List InterfaceItem) (span : Span)

/-- One entry of an interface block. -/
inductive InterfaceItem where
  | moduleProcedure (names : List String)
  | body (subprogram : Subprogram)

/-- An executable statement. -/
inductive Stmt where
  | assign (target value : Expr) (span : Span)
  | branch (cond : Expr) (thenBody : List Stmt) (elseBody : Option (List Stmt))
  | loop (var : String) (start stop : Expr) (step : Option Expr) (body : List Stmt) (span : Span)
  | loopWhile (cond : Expr) (body : List Stmt)
  | call (receiver : List String) (name : String) (args : List Arg) (span : Span)
  | print (items : List Expr)
  | returnStmt
  | exit (span : Span)
  | cycle (span : Span)
  | stop (code : Option Expr) (span : Span)
  | block (decls : List Decl) (body : List Stmt) (span : Span)
  | associate (associations : List Association) (body : List Stmt) (span : Span)

end

/-- A module. -/
structure Module where
  name : String
  uses : List Use
  implicits : List ImplicitStmt
  decls : List Decl
  contained : List Subprogram
  span : Span

/-- A main program. -/
structure Program where
  name : String
  uses : List Use
  implicits : List ImplicitStmt
  decls : List Decl
  body : List Stmt
  contained : List Subprogram
  span : Span

/-- A top-level program unit. -/
inductive ProgramUnit where
  | moduleUnit (unit : Module)
  | programUnit (unit : Program)
  | subprogramUnit (unit : Subprogram)

/-- Everything that is compiled together. -/
structure CompilationUnit where
  items : List ProgramUnit

end FortranSemantics.Tree
