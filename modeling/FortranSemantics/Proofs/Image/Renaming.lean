import FortranSemantics.Proofs.Image.Extraction

/-!
# Numbering under a renaming

The order in which the nodes of an image are numbered depends on the nodes and not on their
identifiers. When a relocation keeps apart whatever is met, the visit of relocated nodes meets the
relocated references in the same order, and gives each of them the number that the original has.
-/

namespace FortranSemantics

open List FortranSemantics.Numbering

namespace Relocation

variable (move : Relocation)

/-! ## One relocation after another -/

/-- The relocation as a renumbering. -/
def renumbering : Renumbering Id :=
  ⟨move.symbol, move.scope, move.expr⟩

theorem meets_agree (inner outer whole : Relocation) : outer.renumbering.Meets inner
    fun _ part refs v =>
      (∀ r ∈ refs, outer.reference (inner.reference r) = whole.reference r) → part = v whole where
  pure _ _ := rfl
  bind pre after agrees := by
    obtain ⟨front, back⟩ := forall_mem_append.1 agrees
    rw [pre front]
    exact after _ back
  symbol id agrees := Reference.symbol.inj (agrees _ (.head _))
  expr id agrees := Reference.expr.inj (agrees _ (.head _))

theorem reference_identity (r : Reference) :
    move.reference (identity.reference r) = move.reference r := by
  cases r <;> rfl

variable {inner outer whole : Relocation}

theorem node_node {expr : Expr}
    (agrees : ∀ r ∈ expr.references, outer.reference (inner.reference r) = whole.reference r) :
    outer.node (inner.node expr) = whole.node expr := by
  have once := (meets_agree identity outer outer).node (inner.node expr) fun r _ =>
    outer.reference_identity r
  rw [identity_node] at once
  exact once.symm.trans ((meets_agree inner outer whole).node expr agrees)

section

variable (scopes : ∀ id, outer.scope (inner.scope id) = whole.scope id)

include scopes

theorem symbolNode_symbolNode {symbol : Symbol} (agrees : ∀ r ∈ symbol.kind.references,
      outer.reference (inner.reference r) = whole.reference r) :
    outer.symbolNode (inner.symbolNode symbol) = whole.symbolNode symbol := by
  have once := (meets_agree identity outer outer).symbolNode (fun _ _ => rfl)
    (inner.symbolNode symbol) fun r _ => outer.reference_identity r
  rw [identity_symbolNode] at once
  exact once.symm.trans ((meets_agree inner outer whole).symbolNode (fun id _ => scopes id)
    symbol agrees)

theorem scopeNode_scopeNode {s : Scope}
    (agrees : ∀ r ∈ s.references, outer.reference (inner.reference r) = whole.reference r) :
    outer.scopeNode (inner.scopeNode s) = whole.scopeNode s := by
  have once := (meets_agree identity outer outer).scopeNode (fun _ _ => rfl) (inner.scopeNode s)
    fun r _ => outer.reference_identity r
  rw [identity_scopeNode] at once
  exact once.symm.trans ((meets_agree inner outer whole).scopeNode (fun id _ => scopes id) s agrees)

end

/-! ## Numberings -/

/-- Whether the relocation keeps apart the references of some kind. -/
def Separates (move : Relocation) (met : Reference → Prop) : Prop :=
  ∀ left right, met left → met right → move.reference left = move.reference right → left = right

/-- The numbering of the relocated identifiers. -/
def numbering (move : Relocation) (numbers : Numbering) : Numbering where
  symbols := numbers.symbols.map move.symbol
  scopes := numbers.scopes.map move.scope
  exprs := numbers.exprs.map move.expr
  pending := numbers.pending.map move.expr

variable {met : Reference → Prop} {numbers : Numbering}

/-- A relocated reference has a number exactly when the reference has one. -/
theorem Separates.knows_iff {move : Relocation} (separate : move.Separates met)
    (known : ∀ r, numbers.Knows r → met r) {r : Reference} (occurs : met r) :
    (move.numbering numbers).Knows (move.reference r) ↔ numbers.Knows r := by
  cases r with
  | symbol id =>
    constructor
    · intro mem
      obtain ⟨o, member, same⟩ := mem_map.1 mem
      have equal := separate (.symbol o) (.symbol id) (known _ member) occurs
        (congrArg Reference.symbol same)
      cases equal
      exact member
    · exact mem_map_of_mem
  | expr id =>
    constructor
    · intro mem
      obtain ⟨o, member, same⟩ := mem_map.1 mem
      have equal := separate (.expr o) (.expr id) (known _ member) occurs
        (congrArg Reference.expr same)
      cases equal
      exact member
    · exact mem_map_of_mem

/-- Meeting a relocated reference is meeting the reference. -/
theorem Separates.meet {move : Relocation} (separate : move.Separates met)
    (known : ∀ r, numbers.Knows r → met r) {r : Reference} (occurs : met r) :
    (move.numbering numbers).meet (move.reference r) = move.numbering (numbers.meet r) := by
  have same := separate.knows_iff known occurs
  cases r
  all_goals
    simp only [Numbering.meet, reference, apply_ite move.numbering]
    refine if_congr (by exact same) rfl ?_
    simp only [numbering, map_append, map_cons, map_nil]

/-- Meeting relocated references is meeting the references. -/
theorem Separates.meetAll {move : Relocation} (separate : move.Separates met)
    (known : ∀ r, numbers.Knows r → met r) {refs : List Reference} (occur : ∀ r ∈ refs, met r) :
    (move.numbering numbers).meetAll (refs.map move.reference) =
      move.numbering (numbers.meetAll refs) := by
  induction refs generalizing numbers with
  | nil => rfl
  | cons first rest ih =>
    obtain ⟨here, b⟩ := forall_mem_cons.1 occur
    have knownNext : ∀ r, (numbers.meet first).Knows r → met r := fun r met =>
      (knows_of_meet met).elim (known r) fun same => same ▸ here
    rw [map_cons, meetAll_cons, meetAll_cons, separate.meet known here]
    exact ih knownNext b

end Relocation

theorem idxOf_map {α β : Type} [DecidableEq α] [DecidableEq β] {move : α → β}
    {items : List α} {item : α} (apart : ∀ o ∈ items, move o = move item → o = item) :
    (items.map move).idxOf (move item) = items.idxOf item := by
  induction items with
  | nil => rfl
  | cons first rest ih =>
    obtain ⟨here, b⟩ := forall_mem_cons.1 apart
    rw [map_cons]
    by_cases same : first = item
    · rw [same, idxOf_cons_self, idxOf_cons_self]
    · rw [idxOf_cons_ne _ (mt here same), idxOf_cons_ne _ same, ih b]

/-- Relocated references get the numbers that the references have. -/
theorem Relocation.Separates.relocation_numbering {move : Relocation} {met : Reference → Prop}
    {numbers : Numbering} (separate : move.Separates met) (known : ∀ r, numbers.Knows r → met r)
    {r : Reference} (occurs : met r) :
    (move.numbering numbers).relocation.reference (move.reference r) =
      numbers.relocation.reference r := by
  cases r with
  | symbol id =>
    refine congrArg (fun i => Reference.symbol ⟨i⟩) (idxOf_map fun o mem same => ?_)
    exact Reference.symbol.inj
      (separate (.symbol o) (.symbol id) (known _ mem) occurs (congrArg Reference.symbol same))
  | expr id =>
    refine congrArg (fun i => Reference.expr ⟨i⟩) (idxOf_map fun o mem same => ?_)
    exact Reference.expr.inj (separate (.expr o) (.expr id) (known _ mem) occurs
      (congrArg Reference.expr same))

/-! ## The visit of expressions -/

namespace Extraction

variable {source copy : Arena} {move : Relocation} {met : Reference → Prop}

/-- The visit of relocated expressions numbers relocated references in the same order, with no more
steps than there are expressions. -/
theorem visitWithin_relocated (separate : move.Separates met)
    (closed : ∀ id expr, met (.expr id) → source.expr id = .ok expr → ∀ r ∈ expr.references, met r)
    (copied : ∀ id expr, met (.expr id) → source.expr id = .ok expr →
      copy.expr (move.expr id) = .ok (move.node expr)) {fuel steps : Nat}
    {visited h copies : List (ExprId × Expr)} {numbering last : Numbering}
    (ran : visitWithin source fuel visited numbering = .ok (h, last))
    (progress : Progress source visited numbering)
    (known : ∀ r, numbering.Knows r → met r) (enough : last.exprs.length ≤ visited.length + steps) :
    ∃ res, visitWithin copy steps copies (move.numbering numbering) = .ok
    (res, move.numbering last) := by
  induction fuel using Nat.strong_induction_on generalizing steps visited copies numbering with
  | _ fuel ih =>
    rcases visitWithin_eq_ok ran progress with ⟨waits, rfl, rfl⟩ |
      ⟨fuel, id, pending, expr, node, rfl, waits, numbered, held, stepped, rest⟩
    · exact ⟨copies, visitWithin_done (congrArg (map move.expr) waits)⟩
    · obtain ⟨-, -, extended⟩ := visitWithin_progress ran progress
      have metHere := known (.expr id) numbered
      have occur := closed id expr metHere held
      -- One expression waits and is numbered, so that a step is left for it.
      obtain ⟨left, rfl⟩ : ∃ left, steps = left + 1 := by
        have counted := progress.waiting.perm.length_eq
        rw [length_append, length_map, waits, length_cons] at counted
        have bound := extended.exprs.length_le
        exact ⟨steps - 1, by omega⟩
      have knownRest : ∀ r, ({ numbering with pending } : Numbering).Knows r → met r
        | .symbol o => known (.symbol o)
        | .expr o => known (.expr o)
      have knownNext : ∀ r, ({ numbering with pending }.meetAll expr.references).Knows r → met r :=
        fun r knows => (knows_of_meetAll knows).elim (knownRest r) (occur r)
      obtain ⟨copyNode, copyVisit, -⟩ := visits_node (move.node expr)
        { move.numbering numbering with pending := pending.map move.expr }
      rw [move.references_node] at copyVisit
      have same := separate.meetAll knownRest occur
      obtain ⟨res, ranCopy⟩ := @ih fuel fuel.lt_succ_self left ((id, node) :: visited)
        ((move.expr id, copyNode) :: copies) _ rest
        stepped knownNext (by rw [length_cons]; omega)
      refine ⟨res, ?_⟩
      rw [visitWithin_step (congrArg (map move.expr) waits), copied id expr metHere held]
      change (renumbering.node (move.node expr) _ >>= _) = _
      rw [copyVisit]
      change visitWithin copy left _ ((move.numbering { numbering with pending }).meetAll _) = _
      rw [same]
      exact ranCopy

end Extraction

end FortranSemantics
