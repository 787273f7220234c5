import FortranSemantics.Proofs.Lawful.Session

/-!
# Lowering is complete

Lowering what an analysis returns always succeeds. No array intrinsic is called afterwards in what
was analysed here, modules that were not analysed here stay as they are, and a second lowering
changes nothing.
-/

namespace FortranSemantics

/-! ## Lowering what is lowered

Where no array intrinsic is called there is nothing to lower. So lowering an arena a second time
leaves it as it is. -/

open List Edit Arena

variable {t : Terms} {a : Arena} {σ α : Type} {items : List α} {state : σ} {id : SymbolId}
  {sym : Symbol} {fuel : Nat} {ids : List ExprId}

theorem mapM_unchanged {β : Type} {step : α → EStateM Failure σ β} {ans : α → β}
    (each : ∀ item ∈ items, step item state = .ok (ans item) state) :
    items.mapM step state = .ok (items.map ans) state := by
  induction items with
  | nil => exact run_mapM_nil.2 ⟨rfl, rfl⟩
  | cons item rest ih =>
    exact run_mapM_cons.2 ⟨_, state, _, each item (.head _), ih fun other mem =>
      each other (.tail _ mem), rfl⟩

theorem forIn_unchanged {step : α → EStateM Failure σ PUnit}
    (each : ∀ item ∈ items, step item state = .ok PUnit.unit state) :
    (do for item in items do step item : EStateM Failure σ PUnit) state = .ok PUnit.unit state := by
  refine run_bind_eq_ok.2 ⟨PUnit.unit, state, ?_, rfl⟩
  induction items with
  | nil => rfl
  | cons item rest ih =>
    rw [forIn_cons]
    refine run_bind_eq_ok.2 ⟨.yield PUnit.unit, state, ?_, ?_⟩
    · exact run_bind_eq_ok.2 ⟨_, state, each item (.head _), rfl⟩
    · exact ih fun other mem => each other (.tail _ mem)

theorem Arena.revise_self (h : a.symbol id = .ok sym) : a.revise id sym.kind = a := by
  have here : a.symbols[id.index]? = some sym := symbol_eq_ok.1 h
  have same : a.symbols.modify id.index (fun held => { held with kind := sym.kind }) =
    a.symbols := by
    apply Array.ext_getElem?
    intro i
    rw [Array.getElem?_modify]
    split
    · next isHere => rw [← isHere, here]; rfl
    · rfl
  unfold revise
  rw [same]

theorem SymbolKind.withBody_self {kind : SymbolKind} {body : List Stmt}
    (has : kind.body? = some body) : kind.withBody body = kind := by
  cases kind <;> cases has <;> rfl

namespace Lowering

variable {site : Site}

/-! ## Expressions and statements -/

/-- An expression in which no array intrinsic is called stays as it is. -/
theorem exprWithin_clean {id : ExprId} (within : a.Within fuel id) (clean : a.Clean id) :
    exprWithin site fuel id a = .ok [] a := by
  induction fuel generalizing id with
  | zero => exact within.elim
  | succ fuel ih =>
    obtain ⟨expr, h, nested⟩ := within
    have plain := clean id expr .refl h
    have ops : expr.kind.children.mapM (exprWithin site fuel) a = .ok
        (expr.kind.children.map fun _ => []) a :=
      mapM_unchanged fun child mem => ih (nested child mem) fun node held more =>
        clean node held (.head ⟨expr, h, mem⟩ more)
    have hoisted : (do return (← expr.kind.children.mapM (exprWithin site fuel)).flatten :
        Edit (List Stmt)) a = .ok [] a :=
      run_bind_eq_ok.2 ⟨_, a, ops, run_pure_eq_ok.2 ⟨by simp, rfl⟩⟩
    refine run_bind_eq_ok.2 ⟨expr, a, ask_eq_ok.2 ⟨h, rfl⟩, ?_⟩
    cases named : expr.kind <;> rw [named] at plain hoisted <;> first | exact hoisted | cases plain

theorem exprs_clean (ok : a.Lawful t) (lowered : ∀ id ∈ ids, a.Lowered id) :
    exprs site ids a = .ok [] a := by
  have each : (ids.mapM fun id => do exprWithin site ((← get).exprs.size + 1) id) a =
      .ok (ids.map fun _ => []) a :=
    mapM_unchanged fun id mem => run_bind_eq_ok.2 ⟨a, a, rfl,
      exprWithin_clean ((ok.depth (lowered id mem).1.1).mono (Nat.le_succ _)) (lowered id mem).2⟩
  exact run_bind_eq_ok.2 ⟨_, a, each, run_pure_eq_ok.2 ⟨by simp, rfl⟩⟩

theorem hoisting_unchanged {stmt : Stmt} (ok : a.Lawful t) (lowered : ∀ id ∈ ids, a.Lowered id) :
    (do return (← exprs site ids) ++ [stmt] : Edit (List Stmt)) a = .ok [stmt] a :=
  run_bind_eq_ok.2 ⟨_, a, exprs_clean ok lowered, rfl⟩

mutual

/-- A statement in which no array intrinsic is called stays as it is. -/
theorem stmt_unchanged (ok : a.Lawful t) : ∀ statement : Stmt,
    (∀ id ∈ Stmt.exprs statement, a.Lowered id) → stmt site statement a = .ok [statement] a
  | .assignment target v, lowered => by
    have isValue : a.Lowered v := lowered v (.tail _ (.head _))
    obtain ⟨expr, h⟩ := exists_expr isValue.1.1
    have asked : returnsArray a v = .ok false := by
      rw [returnsArray_eq h, isValue.2 v expr .refl h]
      rfl
    rw [stmt]
    exact run_bind_eq_ok.2 ⟨false, a, ask_eq_ok.2 ⟨asked, rfl⟩, hoisting_unchanged ok lowered⟩
  | .branch cond body orelse, lowered => by
    have one := stmts_unchanged ok body fun id mem => lowered id (.tail _ (mem_append_left _ mem))
    have other := stmts_unchanged ok orelse fun id mem =>
      lowered id (.tail _ (mem_append_right _ mem))
    have head : exprs site [cond] a = .ok [] a := exprs_clean ok fun id mem =>
      lowered id (mem_singleton.1 mem ▸ .head _)
    rw [stmt]
    exact run_bind_eq_ok.2 ⟨_, a, head, run_bind_eq_ok.2 ⟨_, a, one, run_bind_eq_ok.2
      ⟨_, a, other, rfl⟩⟩⟩
  | .loop var start stop step body, lowered => by
    have inner := stmts_unchanged ok body fun id mem => lowered id (mem_append_right _ mem)
    have head : exprs site ([var, start, stop] ++ step.toList) a = .ok [] a := exprs_clean ok
      fun id mem => lowered id (mem_append_left _ mem)
    rw [stmt]
    exact run_bind_eq_ok.2 ⟨_, a, head, run_bind_eq_ok.2 ⟨_, a, inner, rfl⟩⟩
  | .loopWhile cond body, lowered => by
    have inner := stmts_unchanged ok body fun id mem => lowered id (.tail _ mem)
    have head : exprs site [cond] a = .ok [] a := exprs_clean ok fun id mem =>
      lowered id (mem_singleton.1 mem ▸ .head _)
    rw [stmt]
    refine run_bind_eq_ok.2 ⟨_, a, head, run_bind_eq_ok.2 ⟨_, a, inner, run_bind_eq_ok.2
      ⟨[], a, rfl, ?_⟩⟩⟩
    rw [append_nil]
    rfl
  | .call name via args receiver, lowered | .print items, lowered | .stop code, lowered => by
    rw [stmt]
    exact hoisting_unchanged ok lowered
  | .returnStmt, _ | .exit, _ | .cycle, _ | .block sym, _ => by rw [stmt]; rfl

theorem stmts_unchanged (ok : a.Lawful t) : ∀ statements : List Stmt,
    (∀ id ∈ Stmt.exprsOf statements, a.Lowered id) → stmts site statements a = .ok statements a
  | [], _ => by rw [stmts]; rfl
  | first :: rest, lowered => by
    have one := stmt_unchanged ok first fun id mem => lowered id (mem_append_left _ mem)
    have others := stmts_unchanged ok rest fun id mem => lowered id (mem_append_right _ mem)
    rw [stmts]
    exact run_bind_eq_ok.2 ⟨_, a, one, run_bind_eq_ok.2 ⟨_, a, others, rfl⟩⟩

end

/-! ## Units -/

/-- A symbol stays as it is when no array intrinsic is called in it or inside it. -/
theorem symbolWithin_unchanged {unit : ScopeId} (ok : a.Lawful t) (h : a.symbol id = .ok sym)
    (enough : a.Enough fuel sym.kind) (settled : ∀ other, a.Beneath id other → a.Settled other) :
    symbolWithin unit fuel id a = .ok () a := by
  induction fuel generalizing id sym with
  | zero =>
    unfold Arena.Enough at enough
    split at enough <;> omega
  | succ fuel ih =>
    refine run_bind_eq_ok.2 ⟨_, a, ask_eq_ok.2 ⟨kind_eq_ok.2 ⟨sym, h, rfl⟩, rfl⟩, ?_⟩
    cases opens : sym.kind.scope? with
    | none => rfl
    | some s =>
      obtain ⟨table, isTable, -⟩ := ok.sound.opened h opens
      have loop : (do
          for child in table.symbols do
            symbolWithin unit fuel child : Edit Unit) a = .ok () a := by
        refine forIn_unchanged fun child mem => ?_
        obtain ⟨⟨name, _⟩, entry, rfl⟩ := mem_map.1 mem
        obtain ⟨held, foundHeld, owned, -⟩ := ok.sound.entry isTable entry
        refine ih foundHeld ?_ fun other inside =>
          settled other (.head ⟨sym, s, held, h, opens, foundHeld, owned⟩ inside)
        exact (ok.lowers (· = s)).enough (scope_inRange isTable) ok.sound opens enough
          foundHeld owned
      have rest : (do
          let table ← ask (·.scope s)
          for child in table.symbols do
            symbolWithin unit fuel child : Edit Unit) a = .ok () a :=
        run_bind_eq_ok.2 ⟨table, a, ask_eq_ok.2 ⟨isTable, rfl⟩, loop⟩
      cases has : sym.kind.body? with
      | none => exact rest
      | some body =>
        obtain ⟨again, refound, lowered⟩ := settled id .refl
        cases h.symm.trans refound
        rw [SymbolKind.body, has] at lowered
        have same : modifyKind id (·.withBody body) a = .ok () a := by
          rw [modifyKind_eq h, SymbolKind.withBody_self has, revise_self h]
        exact run_bind_eq_ok.2 ⟨body, a, stmts_unchanged ok body lowered,
          run_bind_eq_ok.2 ⟨(), a, same, rest⟩⟩

theorem arena_unchanged (ok : a.Lawful t) (lowered : a.LoweredUnits) :
    Lowering.arena a = .ok () a := by
  obtain ⟨table, isTable, -⟩ := ok.sound.root
  refine run_bind_eq_ok.2 ⟨a, a, rfl, run_bind_eq_ok.2
    ⟨table, a, ask_eq_ok.2 ⟨isTable, rfl⟩, forIn_unchanged fun id mem => ?_⟩⟩
  obtain ⟨⟨name, _⟩, entry, rfl⟩ := mem_map.1 mem
  obtain ⟨sym, h, -⟩ := ok.sound.entry isTable entry
  refine run_bind_eq_ok.2 ⟨_, a, ask_eq_ok.2 ⟨isForeignModule_eq h, rfl⟩, ?_⟩
  cases native : sym.kind.isForeign with
  | true => rfl
  | false =>
    refine run_bind_eq_ok.2 ⟨_, a, ask_eq_ok.2 ⟨symbolScope?_eq h, rfl⟩, ?_⟩
    cases opens : sym.kind.scope? with
    | none => rfl
    | some s =>
      refine run_bind_eq_ok.2 ⟨a, a, rfl, symbolWithin_unchanged ok h ?_
        (lowered table _ sym isTable mem h native)⟩
      unfold Arena.Enough
      rw [opens]
      exact ⟨Nat.le_add_left _ _, Nat.le_add_left _ _⟩

end Lowering

variable {t : Terms} {id : SymbolId} {symbol : Symbol} {arenas : List Arena}

namespace Arena

variable {a b : Arena}

/-! ## What occurs in statements -/

/-- Whether an expression occurs in statements: in them or in a block that they enter, as an operand
at any depth. -/
inductive Occurs (a : Arena) (node : ExprId) : List Stmt → Prop
  | operand {body : List Stmt} {expr : ExprId} (listed : expr ∈ Stmt.exprsOf body)
      (nested : a.Reaches expr node) : Occurs a node body
  | block {body : List Stmt} {block : SymbolId} {symbol : Symbol}
      (listed : block ∈ Stmt.blocksOf body)
      (found : a.symbol block = .ok symbol) (inside : Occurs a node symbol.kind.body) :
      Occurs a node body

/-- Whether no array intrinsic is called in the statements of the units that were analysed here and
of what lies inside them. -/
def CallsNone (a : Arena) : Prop :=
  ∀ table unit top, a.scope a.root = .ok table → unit ∈ table.symbols → a.symbol unit = .ok top →
    top.kind.isForeign = false → ∀ id symbol, a.Beneath unit id → a.symbol id = .ok symbol →
      ∀ node expr, a.Occurs node symbol.kind.body → a.expr node = .ok expr →
      expr.kind.isArrayCall = false

/-- The blocks that a symbol's statements enter are in its scope. -/
theorem Lawful.under_block (ok : a.Lawful t) {block : SymbolId} (h : a.symbol id = .ok symbol)
    (mem : block ∈ Stmt.blocksOf symbol.kind.body) : a.Under id block := by
  cases has : symbol.kind.body? with
  | none =>
    rw [SymbolKind.body, has] at mem
    cases mem
  | some body =>
    rw [SymbolKind.body, has] at mem
    cases opens : symbol.kind.scope? with
    | none => cases named : symbol.kind <;> rw [named] at has opens <;> cases has <;> cases opens
    | some s =>
      obtain ⟨_, held, hh, own, -⟩ := (ok.body h opens has).blocks block mem
      exact ⟨symbol, s, held, h, opens, hh, own⟩

/-- Where the statements of units are lowered, none of them calls an array intrinsic in any block
either. -/
theorem LoweredUnits.callsNone (lowered : a.LoweredUnits) (ok : a.Lawful t) : a.CallsNone := by
  intro tb unit top ht mem topFound native id symbol beneath h node expr occurs
  generalize held : symbol.kind.body = body at occurs
  induction occurs generalizing id symbol with
  | operand mem nested =>
    subst held
    obtain ⟨again, refound, settled⟩ := lowered tb unit top ht ‹_› topFound native id beneath
    cases h.symm.trans refound
    exact (settled _ mem).2 node expr nested
  | block mem blockFound _ ih =>
    subst held
    exact ih _ _ (beneath.tail (ok.under_block h mem)) blockFound rfl

/-! ## Modules that were not analysed here -/

/-- Whether a symbol is an intrinsic module or one that was loaded. -/
def IsForeign (a : Arena) (module : SymbolId) : Prop :=
  ∃ symbol, a.symbol module = .ok symbol ∧ symbol.kind.isForeign = true

theorem exists_module_of_isForeign {k : SymbolKind} (foreign : k.isForeign = true) : ∃ info,
    k = .moduleUnit info := by
  cases k with
  | moduleUnit info => exact ⟨info, rfl⟩
  | _ => cases foreign

/-- Whether a module stays as it is, with the scopes and symbols that it owns and the expressions
that it holds. -/
structure Untouched (module : SymbolId) (a later : Arena) : Prop where
  symbol : ∀ id symbol, a.OwnsSymbol module id → a.symbol id = .ok symbol →
    later.symbol id = .ok symbol
  scope : ∀ id table, a.OwnsScope module id → a.scope id = .ok table → later.scope id = .ok table
  expr : ∀ id expr, a.Holds module (.expr id) → a.expr id = .ok expr → later.expr id = .ok expr

namespace IsForeign

variable {t : Terms} {module : SymbolId} (foreign : a.IsForeign module) (ok : a.Lawful t)

include foreign ok

/-- The scopes of a foreign module are foreign. -/
theorem alien {s : ScopeId} (owned : a.OwnsScope module s) : a.Alien s := by
  induction owned with
  | own h opens _ =>
    obtain ⟨tb, ht, owner, -⟩ := ok.sound.opened h opens
    obtain ⟨symbol, symbolFound, marked⟩ := foreign
    cases h.symm.trans symbolFound
    obtain ⟨info, named⟩ := exists_module_of_isForeign marked
    have top := ok.kind h
    rw [named] at top
    exact .unit ht owner h top marked
  | nested _ opened _ ih =>
    obtain ⟨_, e, symbol, _, _, h, belongs, opens⟩ := opened
    obtain ⟨tb, ht, owner, -⟩ := ok.sound.opened h opens
    exact .inner ht owner h (belongs ▸ ih)

theorem alien_owner (own : a.OwnsSymbol module id) (h : a.symbol id = .ok symbol) :
    a.Alien symbol.owner ∨ ∃ info, symbol.kind = .moduleUnit info := by
  by_cases proper : id = module
  · obtain ⟨again, refound, marked⟩ := foreign
    subst proper
    cases h.symm.trans refound
    exact .inr (exists_module_of_isForeign marked)
  · exact .inl (foreign.alien ok (ownsScope_owner own h proper))

theorem loaned {r : Reference} (holds : a.Holds module r) : ∀ {node : ExprId}, r = .expr node →
    a.Loaned node := by
  induction holds with
  | ofSymbol own h occurs =>
    rintro node rfl
    rcases foreign.alien_owner ok own h with alien | ⟨info, named⟩
    · exact .ofSymbol h alien occurs
    · rw [named] at occurs
      cases occurs
  | ofScope _ _ occurs =>
    rintro node rfl
    simp [Scope.references] at occurs
  | ofExpr _ h occurs ih =>
    rintro node rfl
    exact .ofExpr (ih rfl) h occurs

theorem untouched {homes : ScopeId → Prop} (lowers : a.Lowers t homes b) :
    a.Untouched module b where
  symbol id symbol owned h := by
    rcases lowers.symbol h with kept | ⟨own, body, -, changed⟩
    · exact kept
    · obtain ⟨info, named⟩ := (foreign.alien_owner ok owned h).resolve_left own
      -- a module has no body to be replaced
      have same : symbol.kind.withBody body = symbol.kind := by
        rw [named]
        rfl
      rw [same] at changed
      exact changed
  scope id tb owned h := lowers.table h (.inr (foreign.alien ok owned))
  expr id expr holds h := lowers.loaned (foreign.loaned ok holds rfl) h

end IsForeign

/-! ## Lowering -/

/-- Lowering a lawful arena succeeds, leaves no calls of array intrinsics, has no work the second
time, and spares foreign modules. -/
theorem Lawful.exists_lowered (lawful : a.Lawful (.loose 0)) : ∃ lowered,
    Lowering.arena a = .ok () lowered ∧ lowered.CallsNone ∧
      (∀ module, a.IsForeign module → a.Untouched module lowered) ∧
      Lowering.arena lowered = .ok () lowered := by
  obtain ⟨_, lowered, ran, lowers, units⟩ :=
    (Lowering.arena_lowers lawful (Nat.zero_le _)).exists_result
  have law := lowers.leads.lawful
  exact ⟨lowered, ran, units.callsNone law, fun _ foreign => foreign.untouched lawful lowers,
    Lowering.arena_unchanged law units⟩

end Arena

/-- Lowering is complete and idempotent. The arena that an analysis returns, with whatever modules
of earlier analyses it loads, is lowered to one in which no unit that was analysed here calls an
array intrinsic; intrinsic modules and loaded ones are as they were; and lowering once more changes
nothing. -/
theorem Lowering.complete_and_idempotent {arenas : List Arena} (session : Session arenas)
    {setup : Setup}
    (served : setup.library.ServedBy arenas) {unit : Tree.CompilationUnit} {analysed : Analysed}
    (ran : unit.analyse setup = .ok analysed) :
    ∃ lowered, Lowering.arena analysed.arena = .ok () lowered ∧ lowered.CallsNone ∧
      (∀ module, analysed.arena.IsForeign module → analysed.arena.Untouched module lowered) ∧
      Lowering.arena lowered = .ok () lowered :=
  (lawful_empty.extend served session.lawful ran).exists_lowered

/-! ## A module that is loaded as it was published -/

/-- A module `totals` with a function that adds up an array. -/
def Tree.sampleTotals : Tree.CompilationUnit :=
  ⟨[.moduleUnit ⟨"totals", [], [], [],
    [⟨.function, "total", ["x"], some (.integer none), none, [], [],
      [.var ⟨.integer none, [],
        [⟨"x", [⟨none, some ⟨.int "3", default⟩⟩], none, default⟩], default⟩],
      [.assign ⟨.name "total", default⟩ ⟨.call [] "sum" [⟨none, ⟨.name "x", default⟩⟩], default⟩
        default], [],
      default⟩], default⟩]⟩

/-- A program that uses the module and adds up an array of its own in a block. -/
def Tree.sampleReport : Tree.CompilationUnit :=
  ⟨[.programUnit ⟨"p", [⟨"totals", none, default⟩], [],
    [.var ⟨.integer none, [], [⟨"x", [⟨none, some ⟨.int "3", default⟩⟩], none, default⟩], default⟩],
    [.block [] [.print [⟨.call [] "sum" [⟨none, ⟨.name "x", default⟩⟩], default⟩]] default],
    [], default⟩]⟩

namespace Session

theorem servedBy_unlowered {lib : Library} (served : lib.ServedBy arenas) :
    (unlowered lib).library.ServedBy arenas :=
  served

/-- The module with its call. -/
def sampleTotals : Arena :=
  empty.after (unlowered {}) Tree.sampleTotals

end Session

/-- The calls of array intrinsics among all expressions of an arena. -/
def Arena.arrayCalls (a : Arena) : List ExprId :=
  (List.range a.exprs.size).map ExprId.mk |>.filter fun id =>
    (a.expr id).toOption.any (·.kind.isArrayCall)

/-- The call in the block of the program goes away, and the one in the loaded module stays. -/
theorem Lowering.complete_and_idempotent_report :
    Session [Session.sampleTotals, empty] ∧ ∃ analysed lowered,
      Tree.sampleReport.analyse (Session.unlowered Session.sampleTotals.setup.library) =
      .ok analysed ∧ analysed.arena.arrayCalls = [⟨1⟩, ⟨8⟩] ∧ analysed.arena.IsForeign ⟨3⟩ ∧
      Lowering.arena analysed.arena = .ok () lowered ∧ lowered.CallsNone ∧
      analysed.arena.Untouched ⟨3⟩ lowered ∧ Lowering.arena lowered = .ok () lowered := by
  have session : Session [Session.sampleTotals, empty] :=
    .after .start (.head _) (fun _ _ loaded => by cases loaded) (by decide +kernel)
  have served := Session.servedBy_unlowered
    (@Arena.servedBy_setup _ [Session.sampleTotals, empty] (.head _))
  have facts : (Tree.sampleReport.analyse
      (Session.unlowered Session.sampleTotals.setup.library)).toOption.any
      (fun result => decide (result.arena.arrayCalls = [⟨1⟩, ⟨8⟩]) &&
        (result.arena.symbol ⟨3⟩).toOption.any (·.kind.isForeign)) = true := by decide +kernel
  cases ran : Tree.sampleReport.analyse (Session.unlowered Session.sampleTotals.setup.library) with
  | error failure =>
    rw [ran] at facts
    cases facts
  | ok analysed =>
    rw [ran] at facts
    obtain ⟨calls, marked⟩ := Bool.and_eq_true_iff.1 facts
    have foreign : analysed.arena.IsForeign ⟨3⟩ := by
      cases found : analysed.arena.symbol ⟨3⟩ with
      | ok symbol =>
        rw [found] at marked
        exact ⟨symbol, found, marked⟩
      | error breach =>
        rw [found] at marked
        cases marked
    obtain ⟨lowered, lowers, none, untouched, again⟩ := complete_and_idempotent session served ran
    exact ⟨session, analysed, lowered, rfl, of_decide_eq_true calls, foreign, lowers, none,
      untouched _ foreign, again⟩

end FortranSemantics
