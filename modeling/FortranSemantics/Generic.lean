import FortranSemantics.Arena.TypeRelation
import FortranSemantics.Settings

/-!
# Generic procedures

A generic name stands for several procedures; a call picks one by the types of its arguments.
Operators are generics too, under names that no program can spell.
-/

namespace FortranSemantics

/-- What the choice among the candidates of a generic gives. -/
inductive Selection where
  | found (candidate : SymbolId)
  | noMatch
  /-- All matching candidates in declaration order. -/
  | ambiguous (candidates : List SymbolId)
deriving DecidableEq, Repr

namespace Arena

variable (arena : Arena)

/-- Whether a dummy argument has exactly the type of an actual argument. -/
def dummyEquals (dummy : SymbolId) (actual : Ty) : Except Breach Bool := do
  match ← arena.variableType? dummy with
  | some formal => arena.typesEqual formal actual
  | none => return false

/-- Whether a dummy argument accepts an object of the given type. -/
def dummyAccepts (dummy : SymbolId) (receiver : Ty) : Except Breach Bool := do
  match ← arena.variableType? dummy with
  | some formal => arena.argumentCompatible formal receiver
  | none => return false

/-- Whether dummy arguments have the types of the actual arguments, one by one. -/
def dummiesEqual (arena : Arena) : List SymbolId → List Ty → Except Breach Bool
  | [], [] => return true
  | dummy :: dummies, actual :: actuals => do
    if ← arena.dummyEquals dummy actual then arena.dummiesEqual dummies actuals else return false
  | _, _ => return false

/-- Whether there are as many dummy arguments as actual ones, with the same types. -/
def signatureMatches (dummies : List SymbolId) (args : List Ty) : Except Breach Bool :=
  if dummies.length = args.length then arena.dummiesEqual dummies args else return false

/-- Whether a candidate fits the argument types. A type-bound candidate that is passed its object
takes it as first dummy argument. -/
def candidateMatches (candidate : SymbolId) (args : List Ty) (receiver : Option Ty) :
    Except Breach Bool := do
  let target ← arena.pastImport candidate
  match ← arena.kind target with
  | .function info => arena.signatureMatches info.args args
  | .binding info =>
    match ← arena.asFunction? info.proc with
    | none => return false
    | some function =>
      match info.dispatch, receiver with
      | .pass, some receiver =>
        match function.args with
        | [] => return false
        | first :: rest =>
          if ← arena.dummyAccepts first receiver then arena.signatureMatches rest args
          else return false
      | _, _ => arena.signatureMatches function.args args
  | _ => return false

/-- The first candidate that matches. -/
def firstMatch (arena : Arena) (args : List Ty) (receiver : Option Ty) :
    List SymbolId → Except Breach Selection
  | [] => return .noMatch
  | candidate :: rest => do
    if ← arena.candidateMatches candidate args receiver then return .found candidate
    arena.firstMatch args receiver rest

/-- The only candidate that matches. -/
def uniqueMatch (args : List Ty) (receiver : Option Ty) (candidates : List SymbolId) :
    Except Breach Selection := do
  match ← candidates.filterM fun candidate => arena.candidateMatches candidate args receiver with
  | [] => return .noMatch
  | [candidate] => return .found candidate
  | several => return .ambiguous several

/-- Picks a candidate of a generic for some argument types. -/
def select (policy : OverloadPolicy) (candidates : List SymbolId) (args : List Ty)
    (receiver : Option Ty) : Except Breach Selection :=
  match policy with
  | .firstMatch => arena.firstMatch args receiver candidates
  | .unique => arena.uniqueMatch args receiver candidates

end Arena

/-- The generic behind an arithmetic operator. -/
def ArithmeticOperator.genericName : ArithmeticOperator → String
  | .add => "~add"
  | .sub => "~sub"
  | .mul => "~mul"
  | .div => "~div"
  | .pow => "~pow"

/-- The generic behind a relational operator. -/
def Comparison.genericName : Comparison → String
  | .eq => "~eq"
  | .notEq => "~noteq"
  | .lt => "~lt"
  | .ltE => "~lte"
  | .gt => "~gt"
  | .gtE => "~gte"

/-- The generic behind a logical operator. -/
def LogicalOperator.genericName : LogicalOperator → String
  | .and => "~and"
  | .or => "~or"
  | .eqv => "~eqv"
  | .neqv => "~neqv"

def UnaryOperator.genericName : UnaryOperator → String
  | .minus => "~sub"
  | .not => "~not"

def concatGenericName : String :=
  "~concat"

/-- The generic behind an operator as it is written in an interface block. -/
def operatorGenericName (token : String) : String :=
  let token := Text.lowercase (Text.trim token)
  match token with
  | "+" => ArithmeticOperator.add.genericName
  | "-" => ArithmeticOperator.sub.genericName
  | "*" => ArithmeticOperator.mul.genericName
  | "/" => ArithmeticOperator.div.genericName
  | "**" => ArithmeticOperator.pow.genericName
  | "==" | ".eq." => Comparison.eq.genericName
  | "/=" | ".ne." => Comparison.notEq.genericName
  | "<" | ".lt." => Comparison.lt.genericName
  | "<=" | ".le." => Comparison.ltE.genericName
  | ">" | ".gt." => Comparison.gt.genericName
  | ">=" | ".ge." => Comparison.gtE.genericName
  | "//" => concatGenericName
  | ".and." => LogicalOperator.and.genericName
  | ".or." => LogicalOperator.or.genericName
  | ".eqv." => LogicalOperator.eqv.genericName
  | ".neqv." => LogicalOperator.neqv.genericName
  | ".not." => UnaryOperator.not.genericName
  | _ => "~~" ++ Text.trimDots token

/-- The name that a written name stands for: `operator(+)` names the generic behind the operator. -/
def genericSpelling (name : String) : String :=
  let name := Text.lowercase name
  match Text.between? "operator(" ")" name with
  | some token => operatorGenericName token
  | none => name

end FortranSemantics
