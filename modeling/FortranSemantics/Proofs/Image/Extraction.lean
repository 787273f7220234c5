import FortranSemantics.Proofs.Image.Numbering
import FortranSemantics.Proofs.Image.Ownership

/-!
# The image of a module

An image holds, in the order of their numbers, the module's symbols, its scopes and every expression
that these refer to, directly or through other expressions. Each of them is the original with every
identifier replaced by its number. The numbers after the module's own symbols stand for the symbols
that are referred to without belonging to the module, whose paths are the imports.
-/

namespace FortranSemantics

open FortranSemantics.Numbering

variable {id : ExprId} {image : Image} {pending : List ExprId} {scopes : List ScopeId} {fuel : Nat}
  {last numbering : Numbering} {α β γ : Type} {visited h : List (ExprId × Expr)}
  {ask : α → Except Breach β} {act : β → Extraction γ} {inner : ScopeId} {symbols : List Symbol}
  {tables : List Scope}

/-- The references that occur in what a symbol owns: in its symbols, in its scopes, and in the
expressions reached from there. -/
inductive Arena.Holds (arena : Arena) (root : SymbolId) : Reference → Prop
  | ofSymbol {id : SymbolId} {symbol : Symbol} {reference : Reference}
      (owned : arena.OwnsSymbol root id) (found : arena.symbol id = .ok symbol)
      (occurs : reference ∈ symbol.kind.references) : Holds arena root reference
  | ofScope {id : ScopeId} {scope : Scope} {reference : Reference}
      (owned : arena.OwnsScope root id) (found : arena.scope id = .ok scope)
      (occurs : reference ∈ scope.references) : Holds arena root reference
  | ofExpr {id : ExprId} {expr : Expr} {reference : Reference}
      (held : Holds arena root (.expr id)) (found : arena.expr id = .ok expr)
      (occurs : reference ∈ expr.references) : Holds arena root reference

namespace Numbering

theorem nodup_symbols_meet (distinct : numbering.symbols.Nodup)
    (reference : Reference) : (numbering.meet reference).symbols.Nodup := by
  cases reference with
  | symbol id =>
    by_cases known : id ∈ numbering.symbols
    · simpa only [meet, if_pos known] using distinct
    · simp only [meet, if_neg known]
      rw [List.nodup_append_comm]
      exact List.nodup_cons.2 ⟨known, distinct⟩
  | expr id =>
    by_cases known : id ∈ numbering.exprs
    · simpa only [meet, if_pos known] using distinct
    · simpa only [meet, if_neg known] using distinct

theorem nodup_symbols_meetAll (distinct : numbering.symbols.Nodup)
    (refs : List Reference) : (numbering.meetAll refs).symbols.Nodup := by
  induction refs generalizing numbering with
  | nil => exact distinct
  | cons reference rest ih => exact ih (nodup_symbols_meet distinct reference)

/-- Whether the numbered expressions are some that were visited and those that wait, each once. -/
structure Waiting (numbering : Numbering) (visited : List ExprId) : Prop where
  perm : (visited ++ numbering.pending).Perm numbering.exprs
  nodup : numbering.exprs.Nodup

/-- An expression that is met for the first time waits to be visited. -/
theorem Waiting.meet {visited : List ExprId} (waiting : numbering.Waiting visited)
    (reference : Reference) : (numbering.meet reference).Waiting visited := by
  cases reference with
  | symbol id =>
    by_cases known : id ∈ numbering.symbols
    · simpa only [Numbering.meet, if_pos known] using waiting
    · simp only [Numbering.meet, if_neg known]
      exact ⟨waiting.perm, waiting.nodup⟩
  | expr id =>
    by_cases known : id ∈ numbering.exprs
    · simpa only [Numbering.meet, if_pos known] using waiting
    · simp only [Numbering.meet, if_neg known]
      constructor
      · calc
          (visited ++ id :: numbering.pending).Perm (id :: (visited ++ numbering.pending)) :=
            List.perm_middle
          List.Perm _ (id :: numbering.exprs) := waiting.perm.cons id
          List.Perm _ (numbering.exprs ++ [id]) := (List.perm_append_singleton _ _).symm
      · rw [List.nodup_append_comm]
        exact List.nodup_cons.2 ⟨known, waiting.nodup⟩

theorem Waiting.meetAll {visited : List ExprId} (waiting : numbering.Waiting visited)
    (refs : List Reference) : (numbering.meetAll refs).Waiting visited := by
  induction refs generalizing numbering with
  | nil => exact waiting
  | cons reference rest ih => exact ih (waiting.meet reference)

theorem extends_visit (numbering : Numbering) (pending : List ExprId) (refs : List Reference) :
    numbering.Extends ({ numbering with pending }.meetAll refs) := by
  have taken : numbering.Extends { numbering with pending } :=
    ⟨List.prefix_refl _, rfl, List.prefix_refl _⟩
  exact taken.trans (extends_meetAll _ refs)

end Numbering

namespace Extraction

variable {a : Arena}

/-- How far the visit of expressions has come: each came out with numbers, and what it refers to is
numbered. -/
structure Progress (arena : Arena) (visited : List (ExprId × Expr)) (numbering : Numbering) :
    Prop where
  waiting : numbering.Waiting (visited.map (·.1))
  copied : ∀ pair ∈ visited, ∃ expr, arena.expr pair.1 = .ok expr ∧
    (∀ r ∈ expr.references, numbering.Knows r) ∧
    ∀ later, numbering.Extends later → pair.2 = later.relocation.node expr

/-- Visiting one expression that waits makes progress. -/
theorem Progress.step {expr node : Expr} (progress : Progress a visited numbering)
    (next : numbering.pending = id :: pending) (h : a.expr id = .ok expr)
    (copied : ∀ b, ({ numbering with pending }.meetAll expr.references).Extends b →
      node = b.relocation.node expr) :
    Progress a ((id, node) :: visited) ({ numbering with pending }.meetAll expr.references) := by
  have taken : ({ numbering with pending } : Numbering).Waiting (id :: visited.map (·.1)) := by
    constructor
    · have moved := progress.waiting.perm
      rw [next] at moved
      exact List.perm_middle.symm.trans moved
    · exact progress.waiting.nodup
  have extended := numbering.extends_visit pending expr.references
  constructor
  · exact taken.meetAll expr.references
  · intro pair mem
    rcases List.mem_cons.1 mem with rfl | earlier
    · exact ⟨expr, h, knows_meetAll _ _, copied⟩
    · obtain ⟨o, held, known, same⟩ := progress.copied pair earlier
      exact ⟨o, held, fun r occurs => extended.knows (known r occurs),
        fun b kept => same b (extended.trans kept)⟩

theorem visitWithin_done (done : numbering.pending = []) :
    visitWithin a fuel visited numbering = .ok (visited, numbering) := by
  cases fuel <;>
    simp only [visitWithin, bind, StateT.bind, get, getThe, MonadStateOf.get, StateT.get, pure,
      Except.pure, Except.bind, done]
  all_goals rfl

theorem visitWithin_endless (next : numbering.pending = id :: pending) :
    visitWithin a 0 visited numbering = .error .endless := by
  simp only [visitWithin, bind, StateT.bind, get, getThe, MonadStateOf.get, StateT.get, pure,
    Except.pure, Except.bind, next]
  rfl

theorem visitWithin_step (next : numbering.pending = id :: pending) :
    visitWithin a (fuel + 1) visited numbering = (do
      let expr ← a.expr id
      let res ← renumbering.node expr { numbering with pending }
      visitWithin a fuel ((id, res.1) :: visited) res.2) := by
  conv_lhs => unfold visitWithin
  simp only [bind, StateT.bind, get, getThe, MonadStateOf.get, StateT.get, pure, Except.pure,
    Except.bind, next, liftM, monadLift, MonadLift.monadLift, StateT.lift]
  cases a.expr id <;> rfl

section

variable (ran : visitWithin a fuel visited numbering = .ok (h, last))

include ran

/-- A visit that ends has nothing waiting, or goes on after one expression. -/
theorem visitWithin_eq_ok (progress : Progress a visited numbering) :
    numbering.pending = [] ∧ visited = h ∧ numbering = last ∨
      ∃ left id pending expr node, fuel = left + 1 ∧ numbering.pending = id :: pending ∧
        id ∈ numbering.exprs ∧ a.expr id = .ok expr ∧
        Progress a ((id, node) :: visited) ({ numbering with pending }.meetAll expr.references) ∧
        visitWithin a left ((id, node) :: visited)
          ({ numbering with pending }.meetAll expr.references) = .ok (h, last) := by
  cases waits : numbering.pending with
  | nil =>
    cases (visitWithin_done waits).symm.trans ran
    exact .inl ⟨rfl, rfl, rfl⟩
  | cons id pending =>
    cases fuel with
    | zero => cases (visitWithin_endless waits).symm.trans ran
    | succ left =>
      rw [visitWithin_step waits] at ran
      obtain ⟨expr, held, rest⟩ := bind_eq_ok.1 ran
      obtain ⟨node, visit, copied⟩ := visits_node expr { numbering with pending }
      rw [visit] at rest
      exact .inr ⟨left, id, pending, expr, node, rfl, rfl,
        progress.waiting.perm.subset (by simp [waits]), held, progress.step waits held copied, rest⟩

/-- A visit that ends has visited everything it met. -/
theorem visitWithin_progress (progress : Progress a visited numbering) :
    Progress a h last ∧ last.pending = [] ∧ numbering.Extends last := by
  induction fuel using Nat.strong_induction_on generalizing visited numbering with
  | _ fuel ih =>
    rcases visitWithin_eq_ok ran progress with ⟨waits, rfl, rfl⟩ |
      ⟨left, id, pending, expr, node, rfl, -, -, -, stepped, rest⟩
    · exact ⟨progress, waits, .refl _⟩
    · obtain ⟨after, done, extended⟩ := ih left left.lt_succ_self rest stepped
      exact ⟨after, done, (numbering.extends_visit pending expr.references).trans extended⟩

/-- A visit numbers nothing beyond what the visited expressions refer to, and numbers no symbol
twice. -/
theorem visitWithin_origin {origin : Reference → Prop} (progress : Progress a visited numbering)
    (closed : ∀ id expr, origin (.expr id) → a.expr id = .ok expr → ∀ r ∈ expr.references, origin r)
    (known : ∀ r, numbering.Knows r → origin r) (distinct : numbering.symbols.Nodup) :
    (∀ r, last.Knows r → origin r) ∧ last.symbols.Nodup := by
  induction fuel using Nat.strong_induction_on generalizing visited numbering with
  | _ fuel ih =>
    rcases visitWithin_eq_ok ran progress with ⟨-, rfl, rfl⟩ |
      ⟨left, id, pending, expr, node, rfl, -, numbered, held, stepped, rest⟩
    · exact ⟨known, distinct⟩
    · refine ih left left.lt_succ_self rest stepped (fun r met => ?_)
        (nodup_symbols_meetAll (by exact distinct) _)
      rcases knows_of_meetAll met with old | occurs
      · cases r with
        | symbol o => exact known (.symbol o) old
        | expr o => exact known (.expr o) old
      · exact closed id expr (known (.expr id) numbered) held r occurs

end

theorem length_le_of_inRange {ids : List ExprId} (distinct : ids.Nodup)
    (lt : ∀ id ∈ ids, id.index < a.exprs.size) : ids.length ≤ a.exprs.size := by
  have injective : Function.Injective ExprId.index := fun left right same => by
    cases left
    cases right
    simpa using same
  have below : ids.map ExprId.index ⊆ List.range a.exprs.size := by
    intro i mem
    obtain ⟨id, idMember, rfl⟩ := List.mem_map.1 mem
    exact List.mem_range.2 (lt id idMember)
  have bound := ((List.nodup_map_iff injective).2 distinct).subperm below |>.length_le
  simpa using bound

/-- A visit ends when everything it can meet is in range and it may visit every expression. -/
theorem exists_visitWithin (closed : a.Closed) (progress : Progress a visited numbering)
    (lt : ∀ id ∈ numbering.exprs, id.index < a.exprs.size)
    (enough : a.exprs.size ≤ visited.length + fuel) :
    ∃ outcome, visitWithin a fuel visited numbering = .ok outcome := by
  have bound : visited.length + numbering.pending.length ≤ a.exprs.size := by
    have counted := progress.waiting.perm.length_eq
    rw [List.length_append, List.length_map] at counted
    rw [counted]
    exact length_le_of_inRange progress.waiting.nodup lt
  induction fuel generalizing visited numbering with
  | zero =>
    cases waits : numbering.pending with
    | nil => exact ⟨_, visitWithin_done waits⟩
    | cons id pending =>
      rw [waits, List.length_cons] at bound
      omega
  | succ fuel ih =>
    cases waits : numbering.pending with
    | nil => exact ⟨_, visitWithin_done waits⟩
    | cons id pending =>
      have numbered : id ∈ numbering.exprs :=
        progress.waiting.perm.subset (by simp [waits])
      obtain ⟨expr, held⟩ := Arena.exists_expr (lt id numbered)
      obtain ⟨node, visit, copied⟩ := visits_node expr { numbering with pending }
      have after := progress.step waits held copied
      have afterInRange : ∀ other ∈ ({ numbering with pending }.meetAll expr.references).exprs,
          other.index < a.exprs.size := by
        intro other mem
        have met : ({ numbering with pending }.meetAll expr.references).Knows (.expr other) := mem
        rcases knows_of_meetAll met with old | occurs
        · exact lt other old
        · exact closed.expr held (.expr other) occurs
      have afterBound : (visited.length + 1) +
          ({ numbering with pending }.meetAll expr.references).pending.length ≤ a.exprs.size := by
        have counted := after.waiting.perm.length_eq
        rw [List.length_append, List.length_map, List.length_cons] at counted
        rw [counted]
        exact length_le_of_inRange after.waiting.nodup afterInRange
      obtain ⟨outcome, ran⟩ := ih after afterInRange (by rw [List.length_cons]; omega) afterBound
      refine ⟨outcome, ?_⟩
      rw [visitWithin_step waits, held]
      change (renumbering.node expr { numbering with pending } >>= _) = _
      rw [visit]
      exact ran

/-- Everything visited is listed by number, as it came out. -/
theorem filterMap_lookup_visited (progress : Progress a visited numbering)
    (done : numbering.pending = []) : ∃ exprs, numbering.exprs.mapM a.expr = .ok exprs ∧
    (numbering.exprs.filterMap fun id => visited.lookup id) =
        exprs.map numbering.relocation.node := by
  have complete : (visited.map (·.1)).Perm numbering.exprs := by
    have moved := progress.waiting.perm
    rwa [done, List.append_nil] at moved
  have each : ∀ ids : List ExprId, ids ⊆ numbering.exprs → ∃ exprs, ids.mapM a.expr = .ok exprs ∧
        (ids.filterMap fun id => visited.lookup id) = exprs.map numbering.relocation.node := by
    intro ids
    induction ids with
    | nil => exact fun _ => ⟨[], rfl, rfl⟩
    | cons id rest ih =>
      intro numbered
      obtain ⟨exprs, h, copied⟩ := ih fun o mem => numbered (.tail _ mem)
      have key : id ∈ visited.map (·.1) := complete.symm.subset (numbered (.head _))
      obtain ⟨node, looked⟩ : ∃ node, visited.lookup id = some node := by
        cases looked : visited.lookup id with
        | none =>
          obtain ⟨pair, mem, same⟩ := List.mem_map.1 key
          have absent := List.lookup_eq_none_iff.1 looked pair mem
          simp [same] at absent
        | some node => exact ⟨node, rfl⟩
      obtain ⟨front, back, split, -⟩ := List.lookup_eq_some_iff.1 looked
      obtain ⟨expr, held, -, same⟩ := progress.copied (id, node) (by simp [split])
      refine ⟨expr :: exprs, by rw [List.mapM_cons, held, h]; rfl, ?_⟩
      have here : node = numbering.relocation.node expr := same numbering (.refl _)
      rw [List.filterMap_cons, looked, copied, List.map_cons, here]
  exact each numbering.exprs fun _ mem => mem

/-- Acts on the answer to a question. -/
def onAnswer {α β γ : Type} (ask : α → Except Breach β) (act : β → Extraction γ) (item : α) :
    Extraction γ := do
  act (← ask item)

theorem onAnswer_eq_ok : onAnswer ask act item numbering = .ok outcome ↔
      ∃ ans, ask item = .ok ans ∧ act ans numbering = .ok outcome := by
  have split : onAnswer ask act item numbering = ask item >>= fun ans => act ans numbering := by
    unfold onAnswer
    cases q : ask item <;> rfl
  rw [split, bind_eq_ok]

theorem bind_run_eq_ok {part : Extraction α} {next : α → Extraction β} {outcome : β × Numbering} :
    (part >>= next) numbering = .ok outcome ↔
      ∃ v mid, part numbering = .ok (v, mid) ∧ next v mid = .ok outcome := by
  change (part numbering >>= fun pair => next pair.1 pair.2) = _ ↔ _
  rw [bind_eq_ok]
  exact Prod.exists

/-- Acting on the answer for every element is acting on every answer. -/
theorem mapM_onAnswer_eq_ok {items : List α} :
    items.mapM (onAnswer ask act) numbering = .ok outcome ↔
      ∃ answers, items.mapM ask = .ok answers ∧ answers.mapM act numbering = .ok outcome := by
  induction items generalizing numbering outcome with
  | nil =>
    constructor
    · exact fun ran => ⟨[], rfl, ran⟩
    · rintro ⟨answers, answered, ran⟩
      cases answered
      exact ran
  | cons item rest ih =>
    simp only [List.mapM_cons, bind_run_eq_ok, bind_eq_ok, onAnswer_eq_ok, ih]
    constructor
    · rintro ⟨head, mid, ⟨ans, q, acted⟩, tail, final, ⟨answers, answered, acts⟩, made⟩
      refine ⟨ans :: answers, ⟨ans, q, answers, answered, rfl⟩, ?_⟩
      simp only [List.mapM_cons, bind_run_eq_ok]
      exact ⟨head, mid, acted, tail, final, acts, made⟩
    · rintro ⟨_, ⟨ans, q, answers, answered, made⟩, acts⟩
      cases made
      simp only [List.mapM_cons, bind_run_eq_ok] at acts
      obtain ⟨head, mid, acted, tail, final, acts, made⟩ := acts
      exact ⟨head, mid, ⟨ans, q, acted⟩, tail, final, ⟨answers, answered, acts⟩, made⟩

end Extraction

/-- Whether a reference is to a symbol of the module or occurs in what it owns. -/
def Arena.Met (arena : Arena) (root : SymbolId) (reference : Reference) : Prop :=
  (∃ id, reference = .symbol id ∧ arena.OwnsSymbol root id) ∨ arena.Holds root reference

/-- The root scope of an image, which holds the module. -/
def topScope (name : String) : Scope where
  parent := none
  owner := none
  entries := [(name, ⟨0⟩)]
  helpers := []

/-- How the image of a module came about: the numbers that were given, and the image as the found
nodes with numbers. -/
structure Extracted (arena : Arena) (root : SymbolId) (image : Image) where
  inner : ScopeId
  scopes : List ScopeId
  numbering : Numbering
  symbols : List Symbol
  tables : List Scope
  exprs : List Expr
  opened : arena.symbolScope? root = .ok (some inner)
  listed : arena.ScopesOf root inner scopes
  scopesNumbered : numbering.scopes = scopes
  owned : arena.ownedBy root scopes <+: numbering.symbols
  distinctSymbols : numbering.symbols.Nodup
  distinctExprs : numbering.exprs.Nodup
  symbolsFound : (arena.ownedBy root scopes).mapM arena.symbol = .ok symbols
  tablesFound : (scopes.drop 1).mapM arena.scope = .ok tables
  exprsFound : numbering.exprs.mapM arena.expr = .ok exprs
  knows_iff : ∀ r, numbering.Knows r ↔ arena.Met root r
  imports : (numbering.symbols.drop (arena.ownedBy root scopes).length).mapM arena.path
    = .ok image.imports
  name : arena.name root = .ok image.name
  imageRoot : image.root = ⟨0⟩
  imageSymbols : image.arena.symbols = (symbols.map numbering.relocation.symbolNode).toArray
  imageScopes : image.arena.scopes =
    (topScope image.name :: tables.map numbering.relocation.scopeNode).toArray
  imageExprs : image.arena.exprs = (exprs.map numbering.relocation.node).toArray

namespace Arena

variable {a : Arena} {root : SymbolId}

/-- The work of taking a module out, when its symbols and scopes are known. -/
def extraction (arena : Arena) (name : String) (owned : List SymbolId) (scopes : List ScopeId) :
    Extraction Arena := do
  let symbols ← owned.mapM (Extraction.onAnswer arena.symbol Extraction.renumbering.symbolNode)
  let tables ← (scopes.drop 1).mapM
    (Extraction.onAnswer arena.scope Extraction.renumbering.scopeNode)
  let exprs ← Extraction.visitAll arena
  return {
    symbols := symbols.toArray, scopes := (topScope name :: tables).toArray
    exprs := exprs.toArray, root := ⟨0⟩ }

/-- The numbers before anything was met. -/
def numberingAt (owned : List SymbolId) (scopes : List ScopeId) : Numbering where
  symbols := owned
  scopes := scopes
  exprs := []
  pending := []

/-- The references of some symbols and some scopes. -/
def nodeReferences (symbols : List Symbol) (tables : List Scope) : List Reference :=
  symbols.flatMap (·.kind.references) ++ tables.flatMap Scope.references

/-- An image is taken in three steps: the scopes are listed, the nodes are copied, the imports are
named. -/
theorem imageOf_eq_ok : a.imageOf root = .ok image ↔ ∃ name inner scopes copy last imports,
      a.name root = .ok name ∧ a.symbolScope? root = .ok (some inner) ∧
      a.scopesBelow inner = .ok scopes ∧
      a.extraction name (a.ownedBy root scopes) scopes (numberingAt (a.ownedBy root scopes) scopes)
      = .ok (copy, last) ∧
      (last.symbols.drop (a.ownedBy root scopes).length).mapM a.path = .ok imports ∧
      image = { name, arena := copy, root := ⟨0⟩, imports } := by
  unfold imageOf
  rw [bind_eq_ok]
  constructor
  · rintro ⟨name, named, rest⟩
    obtain ⟨opened, opens, rest⟩ := bind_eq_ok.1 rest
    cases opened with
    | none => cases rest
    | some inner =>
      obtain ⟨scopes, searched, rest⟩ := bind_eq_ok.1 rest
      obtain ⟨⟨copy, last⟩, drawn, rest⟩ := bind_eq_ok.1 rest
      obtain ⟨imports, paths, made⟩ := bind_eq_ok.1 rest
      exact ⟨name, inner, scopes, copy, last, imports, named, opens, searched, drawn, paths,
        (Except.ok.inj made).symm⟩
  · rintro ⟨name, inner, scopes, copy, last, imports, named, opens, searched, drawn, paths, rfl⟩
    refine ⟨name, named, bind_eq_ok.2 ⟨some inner, opens, ?_⟩⟩
    exact bind_eq_ok.2 ⟨scopes, searched,
      bind_eq_ok.2 ⟨(copy, last), drawn, bind_eq_ok.2 ⟨imports, paths, rfl⟩⟩⟩

theorem progress_start (own : List SymbolId) (scopes : List ScopeId) (refs : List Reference) :
    Extraction.Progress a [] ((numberingAt own scopes).meetAll refs) := by
  constructor
  · apply Numbering.Waiting.meetAll
    exact ⟨.nil, List.nodup_nil⟩
  · simp

/-- The nodes that are found when a module is taken out, and what becomes of them. -/
theorem extraction_eq_ok {own : List SymbolId} :
    a.extraction n own scopes (numberingAt own scopes) = .ok (copy, last) ↔
      ∃ symbols tables visited, own.mapM a.symbol = .ok symbols ∧
      (scopes.drop 1).mapM a.scope = .ok tables ∧
        Extraction.visitWithin a (a.exprs.size + 1) []
          ((numberingAt own scopes).meetAll (nodeReferences symbols tables)) = .ok
          (visited, last) ∧ copy = {
          symbols := (symbols.map last.relocation.symbolNode).toArray
          scopes := (topScope n :: tables.map last.relocation.scopeNode).toArray
          exprs := (last.exprs.filterMap fun id => visited.lookup id).toArray
          root := ⟨0⟩ } := by
  have symbolsRun (symbols : List Symbol) :=
    Extraction.Visits.mapM symbols Extraction.visits_symbolNode (numberingAt own scopes)
  have tablesRun (symbols : List Symbol) (tables : List Scope) :=
    Extraction.Visits.mapM tables Extraction.visits_scopeNode
      ((numberingAt own scopes).meetAll (symbols.flatMap (·.kind.references)))
  unfold extraction Extraction.visitAll
  simp only [Extraction.bind_run_eq_ok, Extraction.mapM_onAnswer_eq_ok]
  constructor
  · rintro ⟨copies, afterSymbols, ⟨symbols, symbolsFound, symbolsRan⟩, tableCopies, afterTables,
      ⟨tables, tablesFound, tablesRan⟩, exprs, afterExprs,
      ⟨visited, afterVisit, visit, _, _, got, exprsListed⟩, made⟩
    cases made
    cases got
    cases exprsListed
    obtain ⟨_, ran, symbolsCopied⟩ := symbolsRun symbols
    cases symbolsRan.symm.trans ran
    obtain ⟨_, ran, tablesCopied⟩ := tablesRun symbols tables
    cases tablesRan.symm.trans ran
    rw [← meetAll_append] at visit tablesCopied
    obtain ⟨-, -, extended⟩ :=
      Extraction.visitWithin_progress visit (progress_start own scopes _)
    refine ⟨symbols, tables, visited, symbolsFound, tablesFound, visit, ?_⟩
    rw [tablesCopied last extended, symbolsCopied last]
    rw [meetAll_append] at extended
    exact (extends_meetAll _ _).trans extended
  · rintro ⟨symbols, tables, visited, symbolsFound, tablesFound, visit, rfl⟩
    obtain ⟨copies, symbolsRan, symbolsCopied⟩ := symbolsRun symbols
    obtain ⟨tableCopies, tablesRan, tablesCopied⟩ := tablesRun symbols tables
    obtain ⟨-, -, extended⟩ :=
      Extraction.visitWithin_progress visit (progress_start own scopes _)
    rw [nodeReferences, meetAll_append] at visit extended
    refine ⟨copies, _, ⟨symbols, symbolsFound, symbolsRan⟩, tableCopies, _,
      ⟨tables, tablesFound, tablesRan⟩, _, _, ⟨visited, last, visit, last, last, rfl, rfl⟩, ?_⟩
    rw [symbolsCopied last ((extends_meetAll _ _).trans extended), tablesCopied last extended]
    rfl

theorem Met.expr {expr : Expr} (met : a.Met root (.expr id))
    (h : a.expr id = .ok expr) : ∀ r ∈ expr.references, a.Met root r := by
  intro r occurs
  rcases met with ⟨_, same, -⟩ | holds
  · cases same
  · exact .inr (.ofExpr holds h occurs)

/-- The references of a module's symbols and scopes are met. -/
theorem met_of_mem_nodeReferences (mem : a.ScopesOf root inner scopes)
    (symbolsFound : (a.ownedBy root scopes).mapM a.symbol = .ok symbols)
    (tablesFound : (scopes.drop 1).mapM a.scope = .ok tables) :
    ∀ r ∈ nodeReferences symbols tables, a.Holds root r := by
  intro r occurs
  rcases List.mem_append.1 occurs with inSymbol | inTable
  · obtain ⟨sym, member, occurs⟩ := List.mem_flatMap.1 inSymbol
    obtain ⟨id, own, h⟩ := (mem_answers symbolsFound).1 member
    exact .ofSymbol ((mem_ownedBy mem).1 own) h occurs
  · obtain ⟨tb, member, occurs⟩ := List.mem_flatMap.1 inTable
    obtain ⟨id, own, h⟩ := (mem_answers tablesFound).1 member
    exact .ofScope (mem.mem_tail.1 own) h occurs

/-- A visit that starts from a module's symbols and scopes numbers exactly what occurs in the
module. -/
theorem visit_knows (mem : a.ScopesOf root inner scopes)
    (symbolsFound : (a.ownedBy root scopes).mapM a.symbol = .ok symbols)
    (tablesFound : (scopes.drop 1).mapM a.scope = .ok tables)
    (visit : Extraction.visitWithin a fuel []
      ((numberingAt (a.ownedBy root scopes) scopes).meetAll (nodeReferences symbols tables)) =
      .ok (visited, last)) :
    (numberingAt (a.ownedBy root scopes) scopes).Extends last ∧ last.symbols.Nodup ∧
      ∀ r, last.Knows r ↔ a.Met root r := by
  have start := a.progress_start (a.ownedBy root scopes) scopes (nodeReferences symbols tables)
  obtain ⟨progress, done, extended⟩ := Extraction.visitWithin_progress visit start
  have met := met_of_mem_nodeReferences mem symbolsFound tablesFound
  have knownAtStart : ∀ r, ((numberingAt (a.ownedBy root scopes) scopes).meetAll
      (nodeReferences symbols tables)).Knows r → a.Met root r := by
    intro r known
    rcases knows_of_meetAll known with old | occurs
    · cases r with
      | symbol id => exact .inl ⟨id, rfl, (mem_ownedBy mem).1 old⟩
      | expr id => cases old
    · exact .inr (met r occurs)
  have distinctAtStart : ((numberingAt (a.ownedBy root scopes) scopes).meetAll
      (nodeReferences symbols tables)).symbols.Nodup := by
    apply nodup_symbols_meetAll
    exact nodup_ownedBy root scopes
  obtain ⟨origin, distinct⟩ := Extraction.visitWithin_origin visit start
    (fun id expr metExpr h => metExpr.expr h) knownAtStart distinctAtStart
  have kept : (numberingAt (a.ownedBy root scopes) scopes).Extends last :=
    (extends_meetAll _ _).trans extended
  refine ⟨kept, distinct, fun r => ⟨origin r, ?_⟩⟩
  rintro (⟨id, rfl, own⟩ | holds)
  · exact kept.symbols.subset ((mem_ownedBy mem).2 own)
  · induction holds with
    | @ofSymbol id symbol r own h occurs =>
      refine extended.knows (knows_meetAll _ _ r (List.mem_append_left _ ?_))
      have member := (mem_answers symbolsFound).2 ⟨id, (mem_ownedBy mem).2 own, h⟩
      exact List.mem_flatMap.2 ⟨symbol, member, occurs⟩
    | @ofScope id tb r own h occurs =>
      refine extended.knows (knows_meetAll _ _ r (List.mem_append_right _ ?_))
      have member := (mem_answers tablesFound).2 ⟨id, mem.mem_tail.2 own, h⟩
      exact List.mem_flatMap.2 ⟨tb, member, occurs⟩
    | @ofExpr id expr r held h occurs ih =>
      -- The expression has a number and nothing waits, so it was visited and its references were
      -- met.
      have visitedHere : id ∈ visited.map (·.1) := by
        have all := progress.waiting.perm
        rw [done, List.append_nil] at all
        exact all.symm.subset ih
      obtain ⟨pair, member, rfl⟩ := List.mem_map.1 visitedHere
      obtain ⟨same, foundAgain, known, -⟩ := progress.copied pair member
      cases h.symm.trans foundAgain
      exact known r occurs

/-- Every image came about by a search for the module's scopes and a visit from its symbols and
scopes on. -/
theorem exists_extracted (taken : a.imageOf root = .ok image) :
    ∃ (drawn : Extracted a root image) (visited : List (ExprId × Expr)),
      a.scopesBelow drawn.inner = .ok drawn.scopes ∧ Extraction.visitWithin a (a.exprs.size + 1) []
        ((numberingAt (a.ownedBy root drawn.scopes) drawn.scopes).meetAll
          (nodeReferences drawn.symbols drawn.tables)) = .ok (visited, drawn.numbering) ∧
          image.arena.root = ⟨0⟩ := by
  obtain ⟨name, inner, scopes, copy, last, imports, named, opened, searched, drawn, paths, rfl⟩ :=
    imageOf_eq_ok.1 taken
  have listed := scopesBelow_eq_ok opened searched
  obtain ⟨symbols, tables, visited, symbolsFound, tablesFound, visit, rfl⟩ :=
    extraction_eq_ok.1 drawn
  obtain ⟨kept, distinct, knows⟩ := visit_knows listed symbolsFound tablesFound visit
  obtain ⟨progress, done, -⟩ := Extraction.visitWithin_progress visit
    (a.progress_start (a.ownedBy root scopes) scopes (nodeReferences symbols tables))
  obtain ⟨exprs, exprsFound, numbered⟩ := Extraction.filterMap_lookup_visited progress done
  refine ⟨{
    inner, scopes, numbering := last, symbols, tables, exprs, opened, listed
    scopesNumbered := kept.scopes.symm
    owned := kept.symbols
    distinctSymbols := distinct
    distinctExprs := progress.waiting.nodup
    symbolsFound, tablesFound, exprsFound
    knows_iff := knows
    imports := paths
    name := named
    imageRoot := rfl
    imageSymbols := rfl
    imageScopes := rfl
    imageExprs := congrArg List.toArray numbered }, visited, searched, visit, rfl⟩

theorem extracted_of_imageOf (taken : a.imageOf root = .ok image) :
    Nonempty (Extracted a root image) :=
  let ⟨drawn, _⟩ := exists_extracted taken
  ⟨drawn⟩

theorem Holds.inRange (closed : a.Closed) (holds : a.Holds root r) : a.InRange r := by
  cases holds with
  | ofSymbol _ h occurs => exact closed.symbol h r occurs
  | ofScope _ h occurs => exact closed.scope h r occurs
  | ofExpr _ h occurs => exact closed.expr h r occurs

theorem OwnsScope.inRange (closed : a.Closed) (owned : a.OwnsScope root s) :
    s.index < a.scopes.size := by
  cases owned with
  | own h opened _ => exact closed.opened h opened
  | nested _ opened _ =>
    obtain ⟨_, _, _, _, _, h, _, opens⟩ := opened
    exact closed.opened h opens

/-- Whether a symbol occurs in what a module owns without belonging to it. -/
def Foreign (arena : Arena) (root id : SymbolId) : Prop :=
  arena.Holds root (.symbol id) ∧ ¬ arena.OwnsSymbol root id

/-- Every module of an arena with all identifiers in range has an image, as soon as the symbols it
refers to have paths. -/
theorem exists_imageOf (closed : a.Closed) (isModule : a.kind root = .ok (.moduleUnit info))
    (paths : ∀ id, a.Foreign root id → ∃ path, a.path id = .ok path) : ∃ image,
    a.imageOf root = .ok image := by
  obtain ⟨sym, h, k⟩ := kind_eq_ok.1 isModule
  have opens : sym.kind.scope? = some info.scope := by rw [k]; rfl
  have opened : a.symbolScope? root = .ok (some info.scope) :=
    symbolScope?_eq_ok.2 ⟨sym, h, opens⟩
  obtain ⟨scopes, searched⟩ := exists_scopesBelow closed (closed.opened h opens)
  have listed := scopesBelow_eq_ok opened searched
  obtain ⟨symbols, symbolsFound⟩ : ∃ symbols,
    (a.ownedBy root scopes).mapM a.symbol = .ok symbols := by
    apply exists_answers
    intro id own
    rcases (mem_ownedBy listed).1 own with rfl | ⟨sym, held, -⟩
    · exact ⟨sym, h⟩
    · exact ⟨sym, held⟩
  obtain ⟨tables, tablesFound⟩ : ∃ tables, (scopes.drop 1).mapM a.scope = .ok tables := by
    apply exists_answers
    intro id own
    exact exists_scope ((listed.mem_tail.1 own).inRange closed)
  have met := met_of_mem_nodeReferences listed symbolsFound tablesFound
  have lt : ∀ id ∈ ((numberingAt (a.ownedBy root scopes) scopes).meetAll
      (nodeReferences symbols tables)).exprs, id.index < a.exprs.size := by
    intro id mem
    have known : ((numberingAt (a.ownedBy root scopes) scopes).meetAll
      (nodeReferences symbols tables)).Knows (.expr id) := mem
    rcases knows_of_meetAll known with old | occurs
    · cases old
    · exact (met _ occurs).inRange closed
  obtain ⟨⟨visited, last⟩, visit⟩ := Extraction.exists_visitWithin closed
    (a.progress_start (a.ownedBy root scopes) scopes _) lt
    (by simp : a.exprs.size ≤ 0 + (a.exprs.size + 1))
  obtain ⟨kept, distinct, knows⟩ := visit_knows listed symbolsFound tablesFound visit
  obtain ⟨imports, named⟩ : ∃ imports,
      (last.symbols.drop (a.ownedBy root scopes).length).mapM a.path = .ok imports := by
    apply exists_answers
    intro id mem
    apply paths id
    obtain ⟨foreign, appended⟩ := kept.symbols
    have split : a.ownedBy root scopes ++ foreign = last.symbols := appended
    rw [← split, List.drop_left] at mem
    have notOwned : ¬ a.OwnsSymbol root id := by
      intro own
      rw [← split] at distinct
      exact List.disjoint_of_nodup_append distinct ((mem_ownedBy listed).2 own) mem
    have known : last.Knows (.symbol id) := by
      change id ∈ last.symbols
      rw [← split]
      exact List.mem_append_right _ mem
    rcases (knows _).1 known with ⟨same, equal, own⟩ | holds
    · cases equal
      exact absurd own notOwned
    · exact ⟨holds, notOwned⟩
  exact ⟨_, imageOf_eq_ok.2 ⟨sym.name, info.scope, scopes, _, last, imports,
    name_eq_ok.2 ⟨sym, h, rfl⟩, opened, searched,
    extraction_eq_ok.2 ⟨symbols, tables, visited, symbolsFound, tablesFound, visit,
      rfl⟩, named, rfl⟩⟩

end Arena

end FortranSemantics
