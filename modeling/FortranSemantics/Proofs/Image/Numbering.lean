import FortranSemantics.Image.Extraction
import FortranSemantics.Proofs.Arena.Relocation
import Mathlib.Data.List.Basic

/-!
# Numbering the nodes of an image

Taking a node out of an arena meets its references in order and gives each new one the next number.
The node that comes out is the node with every identifier replaced by its number, and it stays so
when more references are numbered afterwards.
-/

namespace FortranSemantics

open FortranSemantics.Numbering List

variable {α : Type} {reference o : Reference} {numbering : Numbering}

namespace Numbering

/-- The numbering after a reference was met. -/
def meet (numbering : Numbering) : Reference → Numbering
  | .symbol id =>
    if id ∈ numbering.symbols then numbering
    else { numbering with symbols := numbering.symbols ++ [id] }
  | .expr id =>
    if id ∈ numbering.exprs then numbering
    else { numbering with exprs := numbering.exprs ++ [id], pending := id :: numbering.pending }

/-- The numbering after some references were met. -/
def meetAll (numbering : Numbering) (references : List Reference) : Numbering :=
  references.foldl meet numbering

/-- Whether a reference has a number. -/
def Knows (numbering : Numbering) : Reference → Prop
  | .symbol id => id ∈ numbering.symbols
  | .expr id => id ∈ numbering.exprs

/-- The replacement of identifiers by their numbers; scopes without one count as the root. -/
def relocation (numbering : Numbering) : Relocation where
  symbol id := ⟨numbering.symbols.idxOf id⟩
  scope id := ⟨(numbering.scopes.idxOf? id).getD 0⟩
  expr id := ⟨numbering.exprs.idxOf id⟩

/-- Whether a numbering keeps the numbers of an earlier one. -/
structure Extends (earlier later : Numbering) : Prop where
  symbols : earlier.symbols <+: later.symbols
  scopes : earlier.scopes = later.scopes
  exprs : earlier.exprs <+: later.exprs

namespace Extends

variable {first second third : Numbering}

theorem refl (numbering : Numbering) : numbering.Extends numbering :=
  ⟨prefix_refl _, rfl, prefix_refl _⟩

theorem trans (early : first.Extends second) (late : second.Extends third) : first.Extends third :=
  ⟨early.symbols.trans late.symbols, early.scopes.trans late.scopes, early.exprs.trans late.exprs⟩

section

variable (extended : first.Extends second)

include extended

theorem knows (known : first.Knows reference) : second.Knows reference := by
  cases reference with
  | symbol id => exact extended.symbols.subset known
  | expr id => exact extended.exprs.subset known

theorem symbol_eq {id : SymbolId} (known : id ∈ first.symbols) :
    second.relocation.symbol id = first.relocation.symbol id := by
  obtain ⟨rest, appended⟩ := extended.symbols
  simp only [relocation, ← appended, idxOf_append_of_mem known]

theorem scope_eq (id : ScopeId) : second.relocation.scope id = first.relocation.scope id := by
  simp only [relocation, extended.scopes]

theorem expr_eq {id : ExprId} (known : id ∈ first.exprs) :
    second.relocation.expr id = first.relocation.expr id := by
  obtain ⟨rest, appended⟩ := extended.exprs
  simp only [relocation, ← appended, idxOf_append_of_mem known]

end

end Extends

theorem extends_meet (numbering : Numbering) (reference : Reference) :
    numbering.Extends (numbering.meet reference) := by
  cases reference with
  | symbol id =>
    by_cases known : id ∈ numbering.symbols
    · simpa only [meet, if_pos known] using Extends.refl numbering
    · simp only [meet, if_neg known]
      exact ⟨prefix_append _ _, rfl, prefix_refl _⟩
  | expr id =>
    by_cases known : id ∈ numbering.exprs
    · simpa only [meet, if_pos known] using Extends.refl numbering
    · simp only [meet, if_neg known]
      exact ⟨prefix_refl _, rfl, prefix_append _ _⟩

theorem knows_meet (numbering : Numbering) (reference : Reference) :
    (numbering.meet reference).Knows reference := by
  cases reference with
  | symbol id =>
    by_cases known : id ∈ numbering.symbols
    · simpa only [meet, if_pos known, Knows] using known
    · simp [meet, if_neg known, Knows]
  | expr id =>
    by_cases known : id ∈ numbering.exprs
    · simpa only [meet, if_pos known, Knows] using known
    · simp [meet, if_neg known, Knows]

/-- Only the reference that is met gets a number. -/
theorem knows_of_meet (known : (numbering.meet reference).Knows o) : numbering.Knows o ∨
    o = reference := by
  cases reference with
  | symbol id =>
    by_cases old : id ∈ numbering.symbols
    · simp only [meet, if_pos old] at known
      exact .inl known
    · simp only [meet, if_neg old] at known
      cases o with
      | symbol o => simpa [Knows] using known
      | expr o => exact .inl known
  | expr id =>
    by_cases old : id ∈ numbering.exprs
    · simp only [meet, if_pos old] at known
      exact .inl known
    · simp only [meet, if_neg old] at known
      cases o with
      | symbol o => exact .inl known
      | expr o => simpa [Knows] using known

@[simp] theorem meetAll_nil (numbering : Numbering) : numbering.meetAll [] = numbering := rfl

@[simp] theorem meetAll_cons (numbering : Numbering) (reference : Reference)
    (rest : List Reference) :
    numbering.meetAll (reference :: rest) = (numbering.meet reference).meetAll rest := rfl

theorem meetAll_append (numbering : Numbering) (front back : List Reference) :
    numbering.meetAll (front ++ back) = (numbering.meetAll front).meetAll back :=
  foldl_append

theorem extends_meetAll (numbering : Numbering) (refs : List Reference) :
    numbering.Extends (numbering.meetAll refs) := by
  induction refs generalizing numbering with
  | nil => exact Extends.refl numbering
  | cons reference rest ih => exact (extends_meet numbering reference).trans (ih _)

theorem knows_meetAll (numbering : Numbering) (refs : List Reference) :
    ∀ reference ∈ refs, (numbering.meetAll refs).Knows reference := by
  induction refs generalizing numbering with
  | nil => simp
  | cons head rest ih =>
    intro reference mem
    rcases mem_cons.1 mem with same | b
    · subst same
      exact (extends_meetAll _ rest).knows (knows_meet numbering reference)
    · exact ih _ reference b

theorem knows_of_meetAll (known : (numbering.meetAll references).Knows o) : numbering.Knows o ∨
    o ∈ references := by
  induction references generalizing numbering with
  | nil => exact .inl known
  | cons head rest ih =>
    rcases ih known with met | b
    · rcases knows_of_meet met with old | same
      · exact .inl old
      · exact .inr (by simp [same])
    · exact .inr (.tail _ b)

end Numbering

namespace Extraction

/-- A part of an extraction that never fails, meets these references in order, and gives the value
for the numbers of every later numbering. -/
def Visits {α : Type} (part : Extraction α) (references : List Reference)
    (value : Relocation → α) : Prop :=
  ∀ numbering : Numbering, ∃ result,
    part numbering = .ok (result, numbering.meetAll references) ∧
    ∀ later, (numbering.meetAll references).Extends later → result = value later.relocation

namespace Visits

variable {α β : Type}

theorem pure (v : α) : Visits (pure v) [] fun _ => v :=
  fun _ => ⟨v, rfl, fun _ _ => rfl⟩

/-- One part after another meets the references of the first, then those of the second. -/
theorem bind {part : Extraction α} {next : α → Extraction β} {front back : List Reference}
    {v : Relocation → α} {res : α → Relocation → β} (pre : Visits part front v)
    (after : ∀ a, Visits (next a) back (res a)) :
    Visits (part >>= next) (front ++ back) fun relocation => res (v relocation) relocation := by
  intro numbering
  obtain ⟨a, ran, valued⟩ := pre numbering
  obtain ⟨b, ranNext, valuedNext⟩ := after a (numbering.meetAll front)
  rw [← meetAll_append] at ranNext valuedNext
  refine ⟨b, ?_, fun later extended => ?_⟩
  · change (part numbering >>= fun pair => next pair.1 pair.2) = _
    rw [ran]
    exact ranNext
  · have kept : (numbering.meetAll front).Extends later := by
      rw [meetAll_append] at extended
      exact (extends_meetAll _ back).trans extended
    rw [valuedNext later extended, valued later kept]

end Visits

theorem idxOf?_of_mem [DecidableEq α] {items : List α} (mem : item ∈ items) :
    items.idxOf? item = some (items.idxOf item) := by
  induction items with
  | nil => simp at mem
  | cons head rest ih =>
    by_cases same : head = item
    · simp [idxOf?_cons, same]
    · have b : item ∈ rest := by simpa [Ne.symm same] using mem
      simp [idxOf?_cons, same, ih b]

/-- Numbering an item of a list: it has a number there, or gets the next one. -/
theorem numbered_eq [DecidableEq α] {β : Type} (items : List α) (item : α) (later : Numbering)
    (build : Nat → β) : (match items.idxOf? item with
      | some index => return build index
      | none => do
        set later
        return build items.length : Extraction β) numbering =
      .ok (if item ∈ items then
        (build (items.idxOf item), numbering) else (build items.length, later)) := by
  by_cases known : item ∈ items
  · rw [idxOf?_of_mem known, if_pos known]
    rfl
  · rw [idxOf?_eq_none_iff.2 known, if_neg known]
    rfl

/-- A symbol is met and gets its number. -/
theorem visits_symbol (id : SymbolId) : Visits (symbol id) [.symbol id] fun relocation =>
    relocation.symbol id := by
  intro numbering
  refine ⟨(numbering.meet (.symbol id)).relocation.symbol id, ?_, fun b extended =>
    (extended.symbol_eq (knows_meet numbering (.symbol id))).symm⟩
  refine (numbered_eq numbering.symbols id _ SymbolId.mk).trans ?_
  by_cases known : id ∈ numbering.symbols <;>
    simp [meetAll, meet, relocation, known, idxOf_append_of_notMem]

theorem visits_expr (id : ExprId) : Visits (expr id) [.expr id] fun relocation =>
    relocation.expr id := by
  intro numbering
  refine ⟨(numbering.meet (.expr id)).relocation.expr id, ?_, fun b extended =>
    (extended.expr_eq (knows_meet numbering (.expr id))).symm⟩
  refine (numbered_eq numbering.exprs id _ ExprId.mk).trans ?_
  by_cases known : id ∈ numbering.exprs <;>
    simp [meetAll, meet, relocation, known, idxOf_append_of_notMem]

theorem visits_scope (id : ScopeId) : Visits (scope id) [] fun relocation => relocation.scope id :=
  fun numbering => ⟨numbering.relocation.scope id, rfl, fun _ extended =>
    (extended.scope_eq id).symm⟩

theorem meets_visits : renumbering.Meets .identity @Visits :=
  ⟨.pure, .bind, visits_symbol, visits_expr⟩

theorem Visits.mapM {β : Type} {step : α → Extraction β} {refs : α → List Reference}
    {v : α → Relocation → β}
    (items : List α) (each : ∀ item, Visits (step item) (refs item) (v item)) :
    Visits (items.mapM step) (items.flatMap refs) fun relocation => items.map fun item =>
    v item relocation := by
  have visited : Visits ((items.map id).mapM step) _ _ := meets_visits.mapM items each
  rwa [map_id] at visited

/-- A node comes out with the numbers of its references. -/
theorem visits_node (node : Expr) :
    Visits (renumbering.node node) node.references fun relocation => relocation.node node := by
  have visited := meets_visits.node node
  rwa [Relocation.identity_node] at visited

theorem visits_symbolNode (symbol : Symbol) :
    Visits (renumbering.symbolNode symbol) symbol.kind.references fun relocation =>
    relocation.symbolNode symbol := by
  have visited := meets_visits.symbolNode visits_scope symbol
  rwa [Relocation.identity_symbolNode] at visited

theorem visits_scopeNode (scope : Scope) :
    Visits (renumbering.scopeNode scope) scope.references fun relocation =>
    relocation.scopeNode scope := by
  have visited := meets_visits.scopeNode visits_scope scope
  rwa [Relocation.identity_scopeNode] at visited

end Extraction

end FortranSemantics
