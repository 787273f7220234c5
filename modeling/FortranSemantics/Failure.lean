import FortranSemantics.Span
import FortranSemantics.Text

/-!
# Failures

A program is refused for a `Fault`, a cause with the details its message needs; the wording stands
in one place, `Fault.message`, and the coarse classification in `Fault.kind`. A `Breach` is not the
program's doing: an identifier that points outside its arena, or a broken invariant of a hand-made
arena or image.
-/

namespace FortranSemantics

/-- Classes of faults. -/
inductive FaultKind where
  | undeclaredSymbol
  | undeclaredVariable
  | duplicateSymbol
  | typeMismatch
  | unsupportedCast
  | unsupportedComparison
  | noMatchingOverload
  | ambiguousOverload
  | noSuchMember
  | notCallable
  | intrinsicContract
  | missingReturnType
  | invalidDeclaration
  | misplacedStatement
  | moduleLoad
  | unsupported
deriving DecidableEq, Repr

/-- The name under which a class of faults is reported. -/
def FaultKind.name : FaultKind → String
  | .undeclaredSymbol => "UndeclaredSymbol"
  | .undeclaredVariable => "UndeclaredVariable"
  | .duplicateSymbol => "DuplicateSymbol"
  | .typeMismatch => "TypeMismatch"
  | .unsupportedCast => "UnsupportedCast"
  | .unsupportedComparison => "UnsupportedComparison"
  | .noMatchingOverload => "NoMatchingOverload"
  | .ambiguousOverload => "AmbiguousOverload"
  | .noSuchMember => "NoSuchMember"
  | .notCallable => "NotCallable"
  | .intrinsicContract => "IntrinsicContract"
  | .missingReturnType => "MissingReturnType"
  | .invalidDeclaration => "InvalidDeclaration"
  | .misplacedStatement => "MisplacedStatement"
  | .moduleLoad => "ModuleLoad"
  | .unsupported => "Unsupported"

/-- Why a module image could not be had. -/
inductive LoadProblem where
  | notFound (name : String)
  | corrupt (path : String)
deriving DecidableEq, Repr

def LoadProblem.message : LoadProblem → String
  | .notFound name => s!"no module file found for '{name}'"
  | .corrupt path => s!"{path}: corrupt module file"

/-- What an intrinsic demands of one of its arguments. -/
inductive Requirement where
  | numericArray
  | orderedArray
  | logicalArray
  | integerScalarDim
  | logicalMask
  | mergeSource
  | arraySource
  | intrinsicType
  | realValue
  | integerOrReal
  | numericA
  | characterString
  | arrayArgument
  | integerScalarR
  | integerScalars
  | numericValue
  | realOrComplex
  | complexValue
  | orderedScalars
  | realA
deriving DecidableEq, Repr

def Requirement.message : Requirement → String
  | .numericArray => "argument 'array' must be an integer, real or complex array"
  | .orderedArray => "argument 'array' must be an integer or real array"
  | .logicalArray => "argument 'mask' must be a logical array"
  | .integerScalarDim => "argument 'dim' must be an integer scalar"
  | .logicalMask => "argument 'mask' must be logical"
  | .mergeSource => "character and derived-type arguments are not supported"
  | .arraySource => "argument 'source' must be an array"
  | .intrinsicType => "argument must be of intrinsic type"
  | .realValue => "argument must be real"
  | .integerOrReal => "argument must be integer or real"
  | .numericA => "argument 'a' must be numeric"
  | .characterString => "argument must be a character string"
  | .arrayArgument => "argument 'array' must be an array"
  | .integerScalarR => "argument 'r' must be an integer scalar"
  | .integerScalars => "arguments must be integer scalars"
  | .numericValue => "argument must be numeric"
  | .realOrComplex => "argument must be real or complex"
  | .complexValue => "argument must be complex"
  | .orderedScalars => "arguments must be integer or real scalars"
  | .realA => "argument 'a' must be real"

/-- How a call violates the contract of an intrinsic. -/
inductive Violation where
  | unknownKeyword (keyword : String)
  | positionalAfterKeyword
  | tooManyArguments (most : Nat)
  | givenTwice (argument : String)
  | missing (argument : String)
  | wrongArgument (requirement : Requirement) (got : String)
  | dimOutOfRange (dim : Int) (rank : Nat)
  | dimNotConstant
  | dimRequired
  | maskShape (mask array : String)
  | mergeTypes (tsource fsource : String)
  | mergeRanks
  | keywordsRefused
  | tooFewArguments (least : Nat)
  | kindNotInteger
  | kindNotConstant
  | precisionOrRangeRequired
  | mixedCategories
deriving DecidableEq, Repr

def Violation.message : Violation → String
  | .unknownKeyword keyword => s!"unknown keyword argument '{keyword}'"
  | .positionalAfterKeyword => "positional argument follows a keyword argument"
  | .tooManyArguments most => s!"takes at most {most} arguments"
  | .givenTwice argument => s!"argument '{argument}' is given twice"
  | .missing argument => s!"missing required argument '{argument}'"
  | .wrongArgument requirement got => requirement.message ++ ", got " ++ got
  | .dimOutOfRange dim rank => s!"dim={dim} is out of range for an array of rank {rank}"
  | .dimNotConstant =>
    "argument 'dim' must be a constant expression for arrays of rank greater than 1"
  | .dimRequired => "argument 'dim' is required for arrays of rank greater than 1"
  | .maskShape mask array => s!"argument 'mask' must have the shape of 'array': {mask} vs {array}"
  | .mergeTypes tsource fsource =>
    s!"'tsource' and 'fsource' must have the same type, got {tsource} and {fsource}"
  | .mergeRanks => "array arguments must all have the same rank"
  | .keywordsRefused => "keyword arguments are not accepted"
  | .tooFewArguments least => s!"needs at least {least} arguments"
  | .kindNotInteger => "kind must be an integer"
  | .kindNotConstant => "kind must be a constant expression"
  | .precisionOrRangeRequired => "at least one of 'p' and 'r' must be present"
  | .mixedCategories => "arguments must all be integer or all be real"

/-- Why a program is refused. Types are given by their printed names. -/
inductive Fault where
  -- names
  | undeclaredSymbol (name : String)
  | notInModule (name moduleName : String)
  | privateInModule (name moduleName : String)
  | undeclaredParent (parent type : String)
  | undeclaredBinding (procedure type : String)
  | undeclaredCandidate (procedure generic : String)
  | undeclaredAccess (name : String)
  | undeclaredType (name : String)
  | undeclaredVariable (name : String)
  | undeclaredDummy (dummy procedure : String)
  | duplicate (name : String)
  -- types
  | boundNotInteger
  | loopVariableNotInteger
  | stopCode
  | assignNonVariable (name : String)
  | assignParameter (name : String)
  | assignIntentIn (name : String)
  | assignTarget
  | condition (type : String)
  | loopBound
  | invalidInteger (text : String)
  | integerOverflow (value : Int) (kind : Nat)
  | invalidReal (text : String)
  | kindParameter (name : String)
  | complexPart (type : String)
  | procedureAsValue (name : String)
  | operandRanks (left right : Nat)
  | arithmeticOperands (operator left right : String)
  | logicalComparison (operator : String)
  | comparisonOperands (left right operator : String)
  | logicalOperands (operator left right : String)
  | concatOperands (left right : String)
  | unaryOperand (wanted type : String)
  | noSuchDummy (procedure keyword : String)
  | positionalAfterKeyword (procedure : String)
  | tooManyArguments (procedure : String)
  | argumentTwice (dummy procedure : String)
  | argumentType (dummy procedure expected got : String)
  | missingArgument (dummy procedure : String)
  | subscriptCount (array : String) (rank given : Nat)
  | subscriptType (array : String)
  | tooManyValues (type : String)
  | missingComponent (component type : String)
  | mixedArray (left right : String)
  | characterLength
  | notDerivedType (name : String)
  | assignmentRank (value target : Nat)
  | assignmentType (value target : String)
  | conversion (source target : String)
  | complexOrder (operator : String)
  -- generics
  | noOperator (operator : String) (types : List String)
  | noCandidate (generic : String) (types : List String)
  | ambiguous (generic : String) (candidates : List String)
  -- members
  | memberOfType (member type : String)
  | bindingAsComponent (member : String)
  | noSuchMember (member type : String)
  | boundCallOnType (binding type : String)
  -- calls
  | bindingNotProcedure (implementation type : String)
  | functionAsSubroutine (name : String)
  | operatorSubroutine (name : String)
  | notArrayOrFunction (name : String)
  | notCallable (name : String)
  | subroutineAsValue (name : String)
  | notProcedure (name : String)
  | componentNotProcedure (name : String)
  | notBinding (name : String)
  | contract (intrinsic : String) (violation : Violation)
  -- declarations
  | missingReturnType (function : String)
  | dummyNotVariable (name : String)
  | returnTypeTwice (function : String)
  | resultNotLocal (result function : String)
  | allocatablePointer
  | dimensionsTwice (name : String)
  | parameterNotConstant (name : String)
  | initializerNotConstant (name : String)
  | parameterWithoutValue (name : String)
  | attributeNotVariable (name : String)
  | moduleProcedureOutsideGeneric
  | unsupportedKind (kind : Int) (category : String)
  | notConstantInteger (what : String)
  | outsideLoop (statement : String)
  -- modules
  | notModule (name : String)
  | circularModule (name : String)
  | moduleUnavailable (name : String) (problem : LoadProblem)
  | danglingImport (moduleName : String) (path : List String)
  -- unsupported features
  | parameterStatement
  | vectorSubscript (array : String)
  | emptyArray
  | nestedArray
  | unlimitedPolymorphism
  | locationDim (intrinsic : String)
  | unsupportedIntrinsic (name : String)
deriving DecidableEq, Repr

def Fault.kind : Fault → FaultKind
  | .undeclaredSymbol .. | .notInModule .. | .privateInModule .. | .undeclaredParent ..
  | .undeclaredBinding .. | .undeclaredCandidate .. | .undeclaredAccess .. | .undeclaredType .. =>
    .undeclaredSymbol
  | .undeclaredVariable .. | .undeclaredDummy .. => .undeclaredVariable
  | .duplicate .. => .duplicateSymbol
  | .boundNotInteger | .loopVariableNotInteger | .stopCode | .assignNonVariable ..
  | .assignParameter .. | .assignIntentIn .. | .assignTarget | .condition .. | .loopBound
  | .invalidInteger .. | .integerOverflow .. | .invalidReal .. | .kindParameter .. | .complexPart ..
  | .procedureAsValue .. | .operandRanks .. | .arithmeticOperands .. | .logicalComparison ..
  | .comparisonOperands .. | .logicalOperands .. | .concatOperands .. | .unaryOperand ..
  | .noSuchDummy .. | .positionalAfterKeyword .. | .tooManyArguments .. | .argumentTwice ..
  | .argumentType .. | .missingArgument .. | .subscriptCount .. | .subscriptType ..
  | .tooManyValues .. | .missingComponent .. | .mixedArray .. | .characterLength
  | .notDerivedType .. | .assignmentRank .. | .assignmentType .. => .typeMismatch
  | .conversion .. => .unsupportedCast
  | .complexOrder .. => .unsupportedComparison
  | .noOperator .. | .noCandidate .. => .noMatchingOverload
  | .ambiguous .. => .ambiguousOverload
  | .memberOfType .. | .bindingAsComponent .. | .noSuchMember .. | .boundCallOnType .. =>
    .noSuchMember
  | .bindingNotProcedure .. | .functionAsSubroutine .. | .operatorSubroutine ..
  | .notArrayOrFunction .. | .notCallable .. | .subroutineAsValue .. | .notProcedure ..
  | .componentNotProcedure .. | .notBinding .. => .notCallable
  | .contract .. => .intrinsicContract
  | .missingReturnType .. => .missingReturnType
  | .dummyNotVariable .. | .returnTypeTwice .. | .resultNotLocal .. | .allocatablePointer
  | .dimensionsTwice .. | .parameterNotConstant .. | .initializerNotConstant ..
  | .parameterWithoutValue .. | .attributeNotVariable .. | .moduleProcedureOutsideGeneric
  | .unsupportedKind .. | .notConstantInteger .. => .invalidDeclaration
  | .outsideLoop .. => .misplacedStatement
  | .notModule .. | .circularModule .. | .moduleUnavailable .. | .danglingImport .. => .moduleLoad
  | .parameterStatement | .vectorSubscript .. | .emptyArray | .nestedArray | .unlimitedPolymorphism
  | .locationDim .. | .unsupportedIntrinsic .. => .unsupported

def Fault.message : Fault → String
  | .undeclaredSymbol name => s!"Symbol '{name}' is not declared"
  | .notInModule name moduleName => s!"Symbol '{name}' not found in module '{moduleName}'"
  | .privateInModule name moduleName => s!"Symbol '{name}' is private in module '{moduleName}'"
  | .undeclaredParent parent type =>
    s!"Derived type '{parent}' extended by '{type}' is not declared"
  | .undeclaredBinding procedure type =>
    s!"Procedure '{procedure}' bound to type '{type}' is not declared"
  | .undeclaredCandidate procedure generic =>
    s!"Procedure '{procedure}' of generic '{generic}' is not declared"
  | .undeclaredAccess name => s!"Symbol '{name}' in access statement is not declared"
  | .undeclaredType name => s!"Derived type '{name}' is not declared"
  | .undeclaredVariable name => s!"Variable '{name}' is not declared"
  | .undeclaredDummy dummy procedure =>
    s!"Dummy argument '{dummy}' of '{procedure}' is not declared"
  | .duplicate name => s!"Symbol '{name}' is already declared in this scope"
  | .boundNotInteger => "Array bounds must be integer scalars"
  | .loopVariableNotInteger => "The DO loop variable must be an integer scalar variable"
  | .stopCode => "A STOP code must be an integer or character scalar"
  | .assignNonVariable name => s!"Cannot assign to '{name}', which is not a variable"
  | .assignParameter name => s!"Cannot assign to parameter '{name}'"
  | .assignIntentIn name => s!"Cannot assign to intent(in) argument '{name}'"
  | .assignTarget => "The target of an assignment must be a variable"
  | .condition type => s!"Condition must be a logical scalar, not {type}"
  | .loopBound => "DO loop bounds must be integer scalars"
  | .invalidInteger text => s!"Invalid integer constant '{text}'"
  | .integerOverflow value kind => s!"Integer constant {value} does not fit in integer({kind})"
  | .invalidReal text => s!"Invalid real constant '{text}'"
  | .kindParameter name => s!"Kind parameter '{name}' is not an integer constant"
  | .complexPart type => s!"Complex constant parts must be integer or real scalars, not {type}"
  | .procedureAsValue name => s!"Procedure '{name}' used as a value"
  | .operandRanks left right => s!"Operands have incompatible ranks {left} and {right}"
  | .arithmeticOperands operator left right =>
    s!"Operator '{operator}' cannot be applied to {left} and {right}"
  | .logicalComparison operator =>
    s!"Logical values cannot be compared with '{operator}'; use .eqv. or .neqv."
  | .comparisonOperands left right operator =>
    s!"Cannot compare {left} and {right} with '{operator}'"
  | .logicalOperands operator left right =>
    s!"Operator '{operator}' needs logical operands, got {left} and {right}"
  | .concatOperands left right => s!"Operator '//' needs character scalars, got {left} and {right}"
  | .unaryOperand wanted type => s!"Unary operator needs a {wanted} operand, got {type}"
  | .noSuchDummy procedure keyword => s!"'{procedure}' has no dummy argument named '{keyword}'"
  | .positionalAfterKeyword procedure =>
    s!"Positional argument follows a keyword argument in call to '{procedure}'"
  | .tooManyArguments procedure => s!"Too many arguments in call to '{procedure}'"
  | .argumentTwice dummy procedure => s!"Argument '{dummy}' of '{procedure}' is given twice"
  | .argumentType dummy procedure expected got =>
    s!"Argument '{dummy}' of '{procedure}' expects {expected} but got {got}"
  | .missingArgument dummy procedure => s!"Missing argument '{dummy}' in call to '{procedure}'"
  | .subscriptCount array rank given =>
    s!"Array '{array}' has rank {rank} but {given} subscripts were given"
  | .subscriptType array => s!"Subscripts of '{array}' must be integers"
  | .tooManyValues type => s!"Too many values in constructor of '{type}'"
  | .missingComponent component type =>
    s!"Missing value for component '{component}' in constructor of '{type}'"
  | .mixedArray left right => s!"Array constructor mixes {left} and {right}"
  | .characterLength => "Character length must be an integer"
  | .notDerivedType name => s!"'{name}' is not a derived type"
  | .assignmentRank value target =>
    s!"Cannot assign an array of rank {value} to a target of rank {target}"
  | .assignmentType value target =>
    s!"Type mismatch in assignment: cannot assign {value} to {target}"
  | .conversion source target => s!"Cannot convert {source} to {target}"
  | .complexOrder operator => s!"Complex values cannot be ordered with '{operator}'"
  | .noOperator operator types =>
    s!"No implementation of operator '.{operator}.' accepts (" ++ Text.joined ", " types ++ ")"
  | .noCandidate generic types =>
    s!"No specific procedure of generic '{generic}' matches the argument types ("
      ++ Text.joined ", " types ++ ")"
  | .ambiguous generic candidates =>
    s!"Call to generic '{generic}' is ambiguous: " ++ Text.joined ", " candidates ++ " all match"
  | .memberOfType member type => s!"Member '{member}' requested from a value of type {type}"
  | .bindingAsComponent member => s!"'{member}' is a type-bound procedure, not a component"
  | .noSuchMember member type => s!"Member '{member}' not found in derived type '{type}'"
  | .boundCallOnType binding type =>
    s!"Type-bound procedure '{binding}' called on a value of type {type}"
  | .bindingNotProcedure implementation type =>
    s!"'{implementation}' bound to type '{type}' is not a procedure"
  | .functionAsSubroutine name => s!"Function '{name}' cannot be called as a subroutine"
  | .operatorSubroutine name => s!"Operator implementation '{name}' is a subroutine"
  | .notArrayOrFunction name => s!"'{name}' is neither an array nor a function"
  | .notCallable name => s!"'{name}' cannot be called"
  | .subroutineAsValue name => s!"Subroutine '{name}' cannot be used in an expression"
  | .notProcedure name => s!"'{name}' is not a procedure"
  | .componentNotProcedure name => s!"Component '{name}' is not a procedure"
  | .notBinding name => s!"'{name}' is not a type-bound procedure"
  | .contract intrinsic violation => intrinsic ++ ": " ++ violation.message
  | .missingReturnType function => s!"Return type not specified for function '{function}'"
  | .dummyNotVariable name => s!"Dummy argument '{name}' is not a variable"
  | .returnTypeTwice function => s!"Cannot specify the return type twice in function '{function}'"
  | .resultNotLocal result function =>
    s!"Result '{result}' of function '{function}' is not a local variable"
  | .allocatablePointer => "A variable cannot be both allocatable and a pointer"
  | .dimensionsTwice name => s!"Dimensions of '{name}' are given twice"
  | .parameterNotConstant name =>
    s!"Initializer of parameter '{name}' must be a constant expression"
  | .initializerNotConstant name => s!"Initializer of '{name}' must be a constant expression"
  | .parameterWithoutValue name => s!"Parameter '{name}' requires an initializer"
  | .attributeNotVariable name => s!"'{name}' is not a variable"
  | .moduleProcedureOutsideGeneric => "MODULE PROCEDURE is only allowed in a generic interface"
  | .unsupportedKind kind category => s!"Kind {kind} is not supported for {category}"
  | .notConstantInteger what => s!"{what} must be a constant integer expression"
  | .outsideLoop statement => s!"{statement} used outside of a loop"
  | .notModule name => s!"'{name}' is not a module"
  | .circularModule name => s!"Circular dependency while loading module '{name}'"
  | .moduleUnavailable name problem => s!"Could not load module '{name}': " ++ problem.message
  | .danglingImport moduleName path =>
    s!"Module '{moduleName}' refers to '" ++ Text.joined "%" path ++ "', which does not exist"
  | .parameterStatement => "PARAMETER statements are not supported; use the parameter attribute"
  | .vectorSubscript array => s!"Vector subscripts of '{array}' are not supported"
  | .emptyArray => "Empty array constructors are not supported"
  | .nestedArray => "Nested arrays in array constructors are not supported"
  | .unlimitedPolymorphism => "Unlimited polymorphism is not supported"
  | .locationDim intrinsic => s!"{intrinsic}: the 'dim' argument is not supported"
  | .unsupportedIntrinsic name => s!"Intrinsic '{name}' is not supported"

/-- A fault at its place in the source. -/
structure SemanticError where
  fault : Fault
  span : Span
deriving DecidableEq, Repr

/-- A broken invariant of an arena or image. -/
inductive Breach where
  /-- An identifier points outside the arena. -/
  | dangling
  /-- A chain of references does not end. -/
  | endless
  | aggregateElement
  | emptyImportPath (image : String)
  | scopelessModule (name : String)
  | untypedDeclaration (name : String)
  | scopelessType (name : String)
  | programNotDeclared (name : String)
  | unitNotDeclared (name : String)
  | procedureNotDeclared (name : String)
  | untypedVariable (name : String)
  | emptyDesignator
  | boundNonFunction (name : String)
  | untypedComponent (type : String)
  | missingArrayArgument (index : Nat)
  | notArrayCall (node : Nat)
  | reductionWithoutDim
  | untypedDim
  | untypedArray
  | untypedHelperVariable (name : String)
  | missingScalarArgument (index : Nat)
  | scopelessIntrinsicModule (name : String)
  | notModule (name : String)
  | missingImport (index : Nat)
deriving DecidableEq, Repr

/-- The wording of a breach; pointing outside the arena has none. -/
def Breach.message? : Breach → Option String
  | .dangling | .endless => none
  | .aggregateElement => some "element type is never an aggregate wrapper"
  | .emptyImportPath image => some s!"empty import path in image of '{image}'"
  | .scopelessModule name => some s!"module '{name}' has no scope"
  | .untypedDeclaration name => some s!"declared variable '{name}' has no type"
  | .scopelessType name => some s!"derived type '{name}' has no scope"
  | .programNotDeclared name => some s!"program '{name}' was not declared"
  | .unitNotDeclared name => some s!"'{name}' was not declared by the symbol-table pass"
  | .procedureNotDeclared name => some s!"procedure '{name}' was not declared"
  | .untypedVariable name => some s!"variable '{name}' has neither a type nor an alias"
  | .emptyDesignator => some "empty designator"
  | .boundNonFunction name => some s!"binding arguments of non-function '{name}'"
  | .untypedComponent type => some s!"component without a type in '{type}'"
  | .missingArrayArgument index =>
    some s!"array intrinsic argument {index} is missing after normalization"
  | .notArrayCall node => some s!"expression #{node} is not an array intrinsic call"
  | .reductionWithoutDim => some "array-valued reduction without a dim argument"
  | .untypedDim => some "dim argument has no type"
  | .untypedArray => some "array argument has no type"
  | .untypedHelperVariable name => some s!"helper variable '{name}' has no type"
  | .missingScalarArgument index => some s!"required intrinsic argument {index} is missing"
  | .scopelessIntrinsicModule name => some s!"intrinsic module '{name}' has no scope"
  | .notModule name => some s!"'{name}' is not a module"
  | .missingImport index => some s!"module image refers to missing import {index}"

/-- How a step of the analysis fails. -/
inductive Failure where
  | rejected (error : SemanticError)
  | broken (breach : Breach)
deriving DecidableEq, Repr

end FortranSemantics
