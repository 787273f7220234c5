import FortranSemantics.Analysis.Body
import FortranSemantics.Lint.UnusedDummy
import FortranSemantics.Lowering

/-!
# Analysis of compilation units

A compilation unit is declared, then its statements are resolved, then calls of array intrinsics are
lowered where the settings ask for it, and last the finished program is searched for unused
arguments.
-/

namespace FortranSemantics

namespace Analysis

/-- Records the unused dummy arguments that were declared in this unit. -/
def lintUnusedDummies : Analysis Unit := do
  let unused ← Edit.ask (·.unusedDummies)
  let declSpans := (← journal).declSpans
  unused.forM fun (function, arg) => do
    match declSpans.lookup arg with
    | none => return
    | some span =>
      let argName ← Edit.ask (·.name arg)
      let functionName ← Edit.ask (·.name function)
      addLint "unused_dummy_argument"
        s!"Dummy argument '{argName}' of '{functionName}' is never used" span

/-- Declares a unit, resolves its bodies and lowers its arrays. -/
def analyse (setup : Setup) (unit : Tree.CompilationUnit) : Analysis Unit := do
  declareUnit setup unit
  unit.items.forM (unitBody setup)
  if setup.settings.lowerArrays then Lowering.arena
  lintUnusedDummies

end Analysis

/-- What an analysis gives. -/
structure Analysed where
  arena : Arena
  lints : List Lint

/-- Analyses a compilation unit on top of those that an arena already holds. -/
def Arena.extend (arena : Arena) (setup : Setup) (unit : Tree.CompilationUnit) :
    Except Failure Analysed :=
  match Analysis.analyse setup unit { arena, journal := {} } with
  | .ok _ context => .ok { arena := context.arena, lints := context.journal.lints }
  | .error failure _ => .error failure

/-- Analyses a compilation unit on its own. -/
def Tree.CompilationUnit.analyse (unit : Tree.CompilationUnit) (setup : Setup) :
    Except Failure Analysed :=
  Arena.empty.extend setup unit

end FortranSemantics
