import FortranSemantics.Text
import FortranSemantics.Tree.Basic

/-!
# Used modules

The names of the modules that the use statements of a unit ask for, wherever they stand in it.
-/

namespace FortranSemantics.Tree

def Use.usedModule (statement : Use) : String :=
  Text.lowercase statement.moduleName

mutual

def Subprogram.usedModules : Subprogram → List String
  | ⟨_, _, _, _, _, uses, _, decls, body, contained, _⟩ =>
    uses.map Use.usedModule ++ usedInDecls decls ++ usedInStmts body ++ usedInSubprograms contained

def usedInSubprograms : List Subprogram → List String
  | [] => []
  | tree :: rest => tree.usedModules ++ usedInSubprograms rest

def Decl.usedModules : Decl → List String
  | .interface _ items _ => usedInItems items
  | .var _ | .attributeStmt _ _ _ | .derivedType _ => []

/-- The modules that some declarations use. -/
def usedInDecls : List Decl → List String
  | [] => []
  | tree :: rest => tree.usedModules ++ usedInDecls rest

/-- The modules that an entry of an interface block uses. -/
def InterfaceItem.usedModules : InterfaceItem → List String
  | .body subprogram => subprogram.usedModules
  | .moduleProcedure _ => []

/-- The modules that some entries of an interface block use. -/
def usedInItems : List InterfaceItem → List String
  | [] => []
  | tree :: rest => tree.usedModules ++ usedInItems rest

def Stmt.usedModules : Stmt → List String
  | .branch _ thenBody elseBody => usedInStmts thenBody ++ usedInElse elseBody
  | .loop _ _ _ _ body _ | .loopWhile _ body | .associate _ body _ => usedInStmts body
  | .block decls body _ => usedInDecls decls ++ usedInStmts body
  | .assign _ _ _ | .call _ _ _ _ | .print _ | .returnStmt | .exit _ | .cycle _ | .stop _ _ => []

def usedInStmts : List Stmt → List String
  | [] => []
  | tree :: rest => tree.usedModules ++ usedInStmts rest

/-- The modules that the statements of a missing or present alternative use. -/
def usedInElse : Option (List Stmt) → List String
  | none => []
  | some trees => usedInStmts trees

end

def ProgramUnit.usedModules : ProgramUnit → List String
  | .moduleUnit unit =>
    unit.uses.map Use.usedModule ++ usedInDecls unit.decls ++ usedInSubprograms unit.contained
  | .programUnit unit =>
    unit.uses.map Use.usedModule ++ usedInDecls unit.decls ++ usedInStmts unit.body
      ++ usedInSubprograms unit.contained
  | .subprogramUnit unit => unit.usedModules

/-- The modules that a compilation unit uses. -/
def CompilationUnit.usedModules (unit : CompilationUnit) : List String :=
  unit.items.flatMap ProgramUnit.usedModules

end FortranSemantics.Tree
