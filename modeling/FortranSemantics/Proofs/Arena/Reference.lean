import FortranSemantics.Proofs.Arena.Relocation
import FortranSemantics.Proofs.Arena.TypeShape

/-!
# Expressions among references

The expressions that a type refers to are those in its bounds and lengths, the ones that the form of
an expression refers to are its operands, and the ones that statements refer to are those in them.
-/

namespace FortranSemantics

variable {id : ExprId}

theorem expr_mem_map_toList {held : Option ExprId} : Reference.expr id ∈ held.toList.map .expr ↔
    id ∈ held := by
  cases held <;> simp [eq_comm]

theorem expr_mem_argumentReferences {args : List (Option ExprId)} :
    Reference.expr id ∈ argumentReferences args ↔ some id ∈ args := by
  unfold argumentReferences
  simp only [List.mem_flatMap, expr_mem_map_toList, Option.mem_def]
  exact ⟨fun ⟨_, mem, same⟩ => same ▸ mem, fun mem => ⟨_, mem, rfl⟩⟩

/-- The references of a type name the expressions in it. -/
theorem Ty.expr_mem_references (ty : Ty) : Reference.expr id ∈ ty.references ↔ id ∈ ty.exprs := by
  induction ty with
  | array el dims ih =>
    have bounds (dim : Dimension) : Reference.expr id ∈ dim.references ↔
        id ∈ Ty.dimensionExprs dim := by
      simp [Dimension.references, Ty.dimensionExprs]
    simp [references, exprs, ih, bounds]
  | pointer tgt ih | allocatable tgt ih => simpa [references, exprs] using ih
  | _ => simp [references, exprs]

/-- The references of a form name its operands. -/
theorem ExprKind.expr_mem_references (k : ExprKind) : Reference.expr id ∈ k.references ↔
    id ∈ k.children := by
  cases k <;> simp [references, children, expr_mem_argumentReferences]

namespace Stmt

mutual

/-- The references of a statement name its expressions. -/
theorem expr_mem_references : ∀ stmt : Stmt, Reference.expr id ∈ stmt.references ↔ id ∈ exprs stmt
  | .branch _ body orelse => by
    simp [references, exprs, expr_mem_referencesOf body, expr_mem_referencesOf orelse]
  | .loop _ _ _ _ body
  | .loopWhile _ body => by simp [references, exprs, expr_mem_referencesOf body]
  | .call .. => by simp [references, exprs, expr_mem_argumentReferences]
  | .assignment .. | .print _ | .stop _ | .returnStmt | .exit | .cycle | .block _ => by
    simp [references, exprs]

theorem expr_mem_referencesOf : ∀ body : List Stmt, Reference.expr id ∈ referencesOf body ↔
    id ∈ exprsOf body
  | [] => by simp [referencesOf, exprsOf]
  | first :: rest => by
    simp [referencesOf, exprsOf, expr_mem_references first, expr_mem_referencesOf rest]

end

end Stmt

theorem Relocation.exists_expr_of_mem {move : Relocation} {refs : List Reference}
    (occurs : .expr id ∈ refs.map move.reference) : ∃ old, .expr old ∈ refs ∧
    move.expr old = id := by
  obtain ⟨reference, mem, same⟩ := List.mem_map.1 occurs
  cases reference <;> cases same
  exact ⟨_, mem, rfl⟩

theorem SymbolKind.expr_not_mem_imported (node : ExprId) :
    Reference.expr node ∉ (SymbolKind.imported info).references := by
  simp [references]

end FortranSemantics
