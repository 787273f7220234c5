import FortranSemantics.Proofs.Lawful.Copy

/-!
# Building procedures in lawful arenas

A procedure is built in a scope that no symbol owns yet. Building it adds variables to the scope,
and expressions in which no array intrinsic is called, and changes nothing else.
-/

namespace FortranSemantics

open List Edit Stmt

variable {α : Type} {t : Terms} {a later : Arena} {array : SymbolId} {unit scope : ScopeId}
  {id : ExprId} {ty whole : Ty} {body first second : List Stmt} {k : ExprKind} {n : String}
  {v : Int} {dim : Nat}

theorem ExprKind.exists_of_isArrayCall (isCall : k.isArrayCall = true) :
    ∃ op overload args, k = .arrayCall op overload args := by
  cases k <;> cases isCall
  exact ⟨_, _, _, rfl⟩

namespace Arena

/-! ## Expressions without calls of array intrinsics -/

/-- Whether no call of an array intrinsic is nested in an expression. -/
def Clean (arena : Arena) (id : ExprId) : Prop :=
  ∀ node expr, arena.Reaches id node → arena.expr node = .ok expr → expr.kind.isArrayCall = false

/-- No array intrinsic is called where neither the form nor an operand does so. -/
theorem Clean.ofChildren {expr : Expr} (h : a.expr id = .ok expr)
    (plain : expr.kind.isArrayCall = false)
    (ops : ∀ child ∈ expr.kind.children, a.Clean child) : a.Clean id := by
  intro node held nested hh
  rcases Relation.ReflTransGen.cases_head nested with rfl | ⟨child, ⟨again, refound, mem⟩, rest⟩
  · cases h.symm.trans hh
    exact plain
  · cases h.symm.trans refound
    exact ops child mem node held rest hh

/-- Whether an expression may be used and no array intrinsic is called in it. -/
def Lowered (arena : Arena) (id : ExprId) : Prop :=
  arena.Usable id ∧ arena.Clean id

/-- Whether an arena leads to one in which array intrinsics are called only where they were. -/
structure Quells (terms : Terms) (arena later : Arena) : Prop where
  leads : arena.Leads terms later
  fresh : ∀ {id expr}, later.expr id = .ok expr → expr.kind.isArrayCall = true →
    arena.expr id = .ok expr

section

variable (quelled : a.Quells t later)

include quelled

theorem Quells.before : a.Precedes later :=
  quelled.leads.before

theorem Quells.lawful : later.Lawful t :=
  quelled.leads.lawful

theorem Quells.clean (lt : id.index < a.exprs.size) (clean : a.Clean id) : later.Clean id := by
  intro node expr nested h
  by_contra called
  have isCall : expr.kind.isArrayCall = true := by simpa using called
  rcases quelled.before.reaches lt nested with earlier | ⟨again, sym, refound, refers⟩
  · exact called (clean node expr earlier (quelled.fresh h isCall))
  · cases h.symm.trans refound
    rw [refers] at isCall
    cases isCall

theorem Quells.lowered (lowered : a.Lowered id) : later.Lowered id :=
  ⟨quelled.before.usable lowered.1, quelled.clean lowered.1.1 lowered.2⟩

end

/-- Whether an expression of some type may be used and no array intrinsic is called in it. -/
def Operand (arena : Arena) (type : Ty) (id : ExprId) : Prop :=
  arena.Lowered id ∧ arena.HasType id type

/-! ## Variables and expressions that are added -/

/-- Whether an arena is followed by one with more expressions but calls of array intrinsics, and
more variables in a scope. -/
structure Supplies (terms : Terms) (scope : ScopeId) (arena later : Arena) : Prop
    extends arena.Quells terms later where
  expr : ∀ {id expr}, arena.expr id = .ok expr → later.expr id = .ok expr
  symbol : ∀ {id symbol}, arena.symbol id = .ok symbol → later.symbol id = .ok symbol
  new : ∀ {id symbol}, later.symbol id = .ok symbol →
    arena.symbol id = .ok symbol ∨ symbol.owner = scope ∧ symbol.kind.form = .variable
  table : ∀ {id table}, arena.scope id = .ok table → ∃ held, later.scope id = .ok held ∧
    held.owner = table.owner ∧ (id ≠ scope → held = table)

theorem Lawful.supplies (ok : a.Lawful t) (scope : ScopeId) : a.Supplies t scope a where
  leads := ok.leads
  expr := id
  fresh h _ := h
  symbol := id
  new := .inl
  table {_ table} h := ⟨table, h, rfl, fun _ => rfl⟩

instance {scope : ScopeId} : Progress (Arena.Supplies t scope) where
  trans first second := {
    leads := Progress.trans first.leads second.leads
    expr := fun h => second.expr (first.expr h)
    fresh := fun h isCall => first.fresh (second.fresh h isCall) isCall
    symbol := fun h => second.symbol (first.symbol h)
    new := fun h => (second.new h).elim first.new .inr
    table := fun h => by
      obtain ⟨mid, foundMiddle, owner, same⟩ := first.table h
      obtain ⟨held, hh, ownerToo, sameToo⟩ := second.table foundMiddle
      exact ⟨held, hh, ownerToo.trans owner, fun apart => (sameToo apart).trans (same apart)⟩ }
  arrive led := led.lawful.supplies scope

theorem Supplies.trans (first : a.Supplies t scope later) (second : later.Supplies t scope last) :
    a.Supplies t scope last :=
  Progress.trans first second

section

variable {scope : ScopeId}

theorem Lawful.supplies_addExpr (ok : a.Lawful t) (law : a.LawfulExpr t new)
    (plain : new.kind.isArrayCall = false) : a.Supplies t scope (a.addExpr new).2 where
  leads := ok.addExpr law
  expr h := expr_addExpr.2 (.inl h)
  fresh h isCall := by
    rcases expr_addExpr.1 h with old | ⟨-, rfl⟩
    · exact old
    · cases plain.symm.trans isCall
  symbol h := h
  new := .inl
  table {_ table} h := ⟨table, h, rfl, fun _ => rfl⟩

theorem LawfulEntry.supplies (e : a.LawfulEntry t scope n (.variable info)) (ok : a.Lawful t)
    (typed : info.type ≠ none) : a.Supplies t scope (a.enter scope n (.variable info)) where
  leads := e.leads ok fun _ same => SymbolKind.variable.inj same ▸ typed
  expr h := h
  fresh h _ := h
  symbol h := symbol_enter.2 (.inl h)
  new h := by
    rcases symbol_enter.1 h with old | ⟨-, rfl⟩
    · exact .inl old
    · exact .inr ⟨rfl, rfl⟩
  table {id table} h := by
    refine ⟨⟨table.parent, table.owner, if id = scope then (table.put n ⟨a.symbols.size⟩).entries
      else
      table.entries, table.helpers⟩, scope_enter.2 ⟨table, h, rfl, rfl, rfl, rfl⟩, rfl,
      fun apart => ?_⟩
    rw [if_neg apart]

/-- Whether a symbol is a variable of a scope with a type. -/
def IsLocal (arena : Arena) (scope : ScopeId) (type : Ty) (id : SymbolId) : Prop :=
  ∃ symbol info, arena.symbol id = .ok symbol ∧ symbol.owner = scope ∧
    symbol.kind = .variable info ∧ info.type = some type

theorem Supplies.isLocal {id : SymbolId} (given : a.Supplies t scope later)
    (isLocal : a.IsLocal scope ty id) : later.IsLocal scope ty id := by
  obtain ⟨sym, info, h, rest⟩ := isLocal
  exact ⟨sym, info, given.symbol h, rest⟩

theorem IsLocal.variableType? {id : SymbolId} (isLocal : a.IsLocal scope ty id) :
    a.variableType? id = .ok (some ty) := by
  obtain ⟨sym, info, h, -, named, typed⟩ := isLocal
  have k : a.kind id = .ok (.variable info) := kind_eq_ok.2 ⟨sym, h, named⟩
  have past : a.pastImport id = .ok id := by
    unfold pastImport
    rw [k]
    rfl
  unfold Arena.variableType? asVariable? target
  simp only [past, k, bind, Except.bind, pure, Except.pure, Option.bind_some, typed]

theorem IsLocal.lawfulType {id : SymbolId} (isLocal : a.IsLocal scope ty id) (ok : a.Lawful t) :
    a.LawfulType t ty := by
  obtain ⟨sym, info, h, -, named, typed⟩ := isLocal
  have law := ok.kind h
  rw [named] at law
  exact law.type ty typed

theorem IsLocal.inRange {id : SymbolId} (isLocal : a.IsLocal scope ty id) :
    id.index < a.symbols.size := by
  obtain ⟨sym, _, h, -⟩ := isLocal
  exact symbol_inRange h

theorem Supplies.operand (given : a.Supplies t scope later) (operand : a.Operand ty id) :
    later.Operand ty id :=
  ⟨given.lowered operand.1, given.before.hasType operand.2⟩

end

/-! ## Scopes of procedures to be -/

/-- Whether a scope inside another one has variables only and no owner, and is not fixed. -/
structure Framed (terms : Terms) (arena : Arena) (unit scope : ScopeId) : Prop where
  late : terms.fixed ≤ scope.index
  unowned : ∃ table, arena.scope scope = .ok table ∧ table.owner = none ∧ table.parent = some unit
  locals : ∀ {id symbol}, arena.symbol id = .ok symbol → symbol.owner = scope →
    symbol.kind.form = .variable

theorem Supplies.framed (given : a.Supplies t scope later) (framed : a.Framed t unit scope) :
    later.Framed t unit scope where
  late := framed.late
  unowned := by
    obtain ⟨table, h, unowned, parent⟩ := framed.unowned
    obtain ⟨held, hh, owner, -⟩ := given.table h
    obtain ⟨again, refound, sameParent, -⟩ := given.before.scope h
    cases hh.symm.trans refound
    exact ⟨held, hh, owner.trans unowned, sameParent.trans parent⟩
  locals h own := by
    rcases given.new h with old | ⟨-, isVariable⟩
    · exact framed.locals old own
    · exact isVariable

/-- A variable whose type refers to no expression may be entered in the scope of a procedure to be.
-/
theorem Framed.lawfulEntry (framed : a.Framed t unit scope) (ok : a.Lawful t) (n : String)
    (intent : Intent) (law : a.LawfulType t ty) (closed : ty.exprs = []) :
    a.LawfulEntry t scope n (.variable { Variable.ofType ty with intent }) := by
  obtain ⟨table, h, unowned, parent⟩ := framed.unowned
  refine ⟨.over h rfl nofun fun old sym taken isSym => ?_,
    .ofType law intent, .inl fun node occurs => ?_, fun again old refound own => ?_,
    fun isRoot => ?_,
    fun early => early.elim (fun early => absurd early framed.late.not_gt) fun guarded => ?_, nofun⟩
  · obtain ⟨ans, q, stands⟩ := ok.exists_find? (scope_inRange h) n
    cases q.symm.trans (find?_eq_some.2 ⟨table, h, taken⟩)
    obtain ⟨again, refound, own, -⟩ := stands old rfl
    cases isSym.symm.trans refound
    obtain ⟨info, named⟩ := SymbolKind.form_eq_variable (framed.locals isSym own)
    rw [named]
    rfl
  · have inType : Reference.expr node ∈ ty.references := by
      simpa [SymbolKind.references, Variable.ofType] using occurs
    rw [Ty.expr_mem_references, closed] at inType
    cases inType
  · cases h.symm.trans refound
    exact absurd unowned own
  · obtain ⟨root, rootFound, outermost, -⟩ := ok.sound.root
    rw [isRoot, rootFound] at h
    cases h
    cases outermost.symm.trans parent
  · -- a block would own its scope
    obtain ⟨block, has⟩ := guarded
    obtain ⟨again, refound, owner⟩ := ok.sound.block_owns has
    cases h.symm.trans refound
    cases owner.symm.trans unowned

/-! ## Statements -/

/-- Whether no array intrinsic is called in some statements, no block is entered, and their types
are proper. -/
structure Straight (arena : Arena) (body : List Stmt) : Prop where
  exprs : ∀ id ∈ exprsOf body, arena.Lowered id
  blocks : blocksOf body = []
  typed : ∀ demand ∈ demandsOf body, arena.Typed demand

theorem Quells.straight (quelled : a.Quells t later) (straight : a.Straight body) :
    later.Straight body :=
  ⟨fun id mem => quelled.lowered (straight.exprs id mem), straight.blocks,
    fun demand mem => quelled.before.typed (straight.typed demand mem)⟩

namespace Straight

theorem nil : a.Straight [] :=
  ⟨nofun, rfl, nofun⟩

/-- Statements are straight when their parts are. -/
theorem append_iff : a.Straight (first ++ second) ↔ a.Straight first ∧ a.Straight second := by
  constructor
  · rintro ⟨exprs, blocks, typed⟩
    simp only [exprsOf_append, blocksOf_append, demandsOf_append, forall_mem_append,
      append_eq_nil_iff] at exprs blocks typed
    exact ⟨⟨exprs.1, blocks.1, typed.1⟩, exprs.2, blocks.2, typed.2⟩
  · rintro ⟨one, other⟩
    refine ⟨?_, by simp [one.blocks, other.blocks], ?_⟩
    · rw [exprsOf_append, forall_mem_append]
      exact ⟨one.exprs, other.exprs⟩
    · rw [demandsOf_append, forall_mem_append]
      exact ⟨one.typed, other.typed⟩

theorem append (one : a.Straight first) (other : a.Straight second) :
    a.Straight (first ++ second) :=
  append_iff.2 ⟨one, other⟩

theorem ofEach (each : ∀ step ∈ body, a.Straight [step]) : a.Straight body := by
  induction body with
  | nil => exact nil
  | cons step rest ih =>
    exact (each step (.head _)).append (ih fun item mem => each item (.tail _ mem))

theorem each (straight : a.Straight body) (step : Stmt) (mem : step ∈ body) :
    a.Straight [step] := by
  obtain ⟨pre, after, rfl⟩ := append_of_mem mem
  have both : a.Straight ([step] ++ after) := (append_iff.1 straight).2
  exact (append_iff.1 both).1

theorem flatten {bodies : List (List Stmt)} (each : ∀ body ∈ bodies, a.Straight body) :
    a.Straight bodies.flatten := by
  induction bodies with
  | nil => exact nil
  | cons body rest ih =>
    exact append (each body (.head _)) (ih fun item mem => each item (.tail _ mem))

theorem assignment {target v : ExprId} {targetType : Ty} (one : a.Operand targetType target)
    (other : a.Operand ty v) (scalar : ty.rank = 0) (same : ty.element = targetType.element) :
    a.Straight [.assignment target v] where
  exprs := forall_mem_pair one.1 other.1
  blocks := rfl
  typed := forall_mem_singleton.2 ⟨targetType, ty, one.2, other.2, .inl scalar, .inl same⟩

theorem call {n : SymbolId} {via : Option SymbolId} {args : List (Option ExprId)}
    {receiver : Option ExprId}
    (ops : ∀ arg, some arg ∈ args → a.Lowered arg) (object : ∀ id ∈ receiver, a.Lowered id) :
    a.Straight [.call n via args receiver] where
  exprs id mem := by
    simp only [Stmt.exprsOf, Stmt.exprs, append_nil, mem_append, mem_filterMap,
      Option.mem_toList] at mem
    rcases mem with ⟨arg, isArg, rfl⟩ | isReceiver
    · exact ops id isArg
    · exact object id isReceiver
  blocks := rfl
  typed _ mem := absurd mem not_mem_nil

theorem branch {cond : ExprId} {orelse : List Stmt} (chosen : a.Operand ty cond)
    (logical : ty.isLogical = true) (scalar : ty.rank = 0) (one : a.Straight body)
    (other : a.Straight orelse) : a.Straight [.branch cond body orelse] where
  exprs := by
    simpa [Stmt.exprsOf, Stmt.exprs, or_imp, forall_and] using ⟨chosen.1, one.exprs, other.exprs⟩
  blocks := by simp [Stmt.blocksOf, Stmt.blocks, one.blocks, other.blocks]
  typed := by
    have condition : a.Typed (.condition cond) := ⟨ty, chosen.2, logical, scalar⟩
    simpa [demandsOf, demands, or_imp, forall_and] using ⟨condition, one.typed, other.typed⟩

theorem loop {var first last : ExprId} (counter : a.Operand (.integer 4) var) (isVar : a.IsVar var)
    (start : a.Operand (.integer 4) first) (stop : a.Operand (.integer 4) last)
    (inner : a.Straight body) : a.Straight [.loop var first last none body] where
  exprs := by
    simpa [Stmt.exprsOf, Stmt.exprs, or_imp, forall_and] using ⟨counter.1, start.1,
      stop.1, inner.exprs⟩
  blocks := by simp [Stmt.blocksOf, Stmt.blocks, inner.blocks]
  typed := by
    have counts : a.Typed (.counter var) := ⟨isVar, _, counter.2, rfl, rfl⟩
    have bound {id : ExprId} (operand : a.Operand (.integer 4) id) : a.Typed (.bound var id) :=
      ⟨_, _, counter.2, operand.2, rfl, rfl⟩
    simpa [demandsOf, demands, or_imp, forall_and] using ⟨counts, bound start,
      bound stop, inner.typed⟩

/-- Straight statements are a proper body. -/
theorem lawfulBody (straight : a.Straight body) (own : a.Own owner) :
    a.LawfulBody t owner scope body where
  exprs id mem := (straight.exprs id mem).1.1
  separate target v mem expr h isCall := by
    obtain ⟨-, clean⟩ := straight.exprs v (mem_exprsOf_of_assigned body mem).2
    cases (clean v expr .refl h).symm.trans isCall
  typed demand mem := .inr (straight.typed demand mem)
  blocks block mem := by
    rw [straight.blocks] at mem
    cases mem
  side := .inr (.inr ⟨own, fun expr mem => (straight.exprs expr mem).1.2⟩)

end Straight

end Arena

/-! ## Edits -/

/-- Whether an edit adds expressions, and variables of a scope, with a result as described. -/
abbrev Edit.Supplies (terms : Terms) (scope : ScopeId) (edit : Edit α) (arena : Arena)
    (post : α → Arena → Prop) : Prop :=
  Yields .none (Arena.Supplies terms scope) edit arena post

section

variable {scope : ScopeId} {span : Span} (ok : a.Lawful t)

include ok

namespace Edit

/-- Adding an expression that is no call of an array intrinsic. -/
theorem newExpr_supplies (new : Expr) (ops : ∀ child ∈ new.kind.children, a.Lowered child)
    (law : a.LawfulType t new.type) (v : ∀ id ∈ new.value, a.IsConstant id)
    (form : a.LawfulForm new.type new.kind) (plain : new.kind.isArrayCall = false) :
    (addExpr new.kind new.type new.value new.span).Supplies t scope a fun id next =>
      next.Operand new.type id ∧ next.expr id = .ok new := by
  have law : a.NewExpr t new := ⟨fun child mem => (ops child mem).1, law, v, form⟩
  have given : a.Supplies t scope (a.addExpr new).2 := ok.supplies_addExpr law.lawful plain
  have here : (a.addExpr new).2.expr ⟨a.exprs.size⟩ = .ok new :=
    Arena.expr_addExpr.2 (.inr ⟨rfl, rfl⟩)
  have clean : (a.addExpr new).2.Clean ⟨a.exprs.size⟩ :=
    .ofChildren here plain fun child mem => (given.lowered (ops child mem)).2
  exact Runs.of_ok rfl ⟨given, ⟨⟨law.usable ok, clean⟩, ⟨_, here, rfl⟩⟩, here⟩

theorem addExpr_supplies (ops : ∀ child ∈ k.children, a.Lowered child) (law : a.LawfulType t ty)
    (form : a.LawfulForm ty k) (plain : k.isArrayCall = false) :
    (addExpr k ty none span).Supplies t scope a fun id next => next.Operand ty id :=
  (newExpr_supplies ok ⟨k, ty, none, span⟩ ops law nofun form plain).mono
    fun _ _ _ => And.left

/-- Copying an expression in which no array intrinsic is called. -/
theorem copyWithin_supplies (within : a.Within depth id) (clean : a.Clean id) :
    (copyWithin depth id).Supplies t scope a fun copied next => next.Lowered copied ∧
    next.SameType id copied := by
  induction depth generalizing a id with
  | zero => exact False.elim within
  | succ depth ih =>
    obtain ⟨expr, h, nested⟩ := within
    refine ask_bind h ?_
    have ops : (({ symbol := pure, scope := pure, expr := copyWithin depth } :
      Renumbering Edit).exprKind
        expr.kind).Supplies t scope a fun copied next =>
          expr.kind.Alike (fun id copied => next.Lowered copied ∧
            next.SameType id copied) copied := by
      refine Renumbering.exprKind_yields (ok.supplies scope) ?_ fun child mem mid given => ?_
      · exact fun _ _ given _ _ => And.imp given.lowered given.before.sameType
      · have inner : a.Reaches id child := .single ⟨expr, h, mem⟩
        have lt := ok.child_inRange ⟨expr, h, mem⟩
        exact ih given.lawful (given.before.within (nested child mem))
          (given.clean lt fun node held more => clean node held (inner.trans more))
    refine Yields.bind ops fun k mid given alike => ?_
    have law := given.before.lawfulExpr (ok.expr h)
    have plain := alike.isArrayCall.trans (clean id expr .refl h)
    refine (newExpr_supplies given.lawful ⟨k, expr.type, expr.value, expr.span⟩ ?_
      law.type law.value
      (alike.lawfulForm (fun _ _ copy => copy.2) law.form) plain).mono
      fun copied next more ⟨⟨lowered, has⟩, _⟩ => ?_
    · intro child mem
      obtain ⟨operand, -, copy⟩ := exists_of_mem_right alike.children mem
      exact copy.1
    · have pre := (Progress.trans given more).before
      exact ⟨lowered, expr.type, pre.hasType ⟨expr, h, rfl⟩, has⟩

theorem addConstant_supplies {v : Constant} (law : a.LawfulType t ty) :
    (addConstant v ty span).Supplies t scope a fun id next => next.Operand ty id :=
  addExpr_supplies ok nofun law trivial rfl

theorem addInteger_supplies : (addInteger v span).Supplies t scope a fun id next =>
    next.Operand (.integer 4) id :=
  addConstant_supplies ok (.ofPlain trivial (by decide))

theorem addVar_supplies (lt : sym.index < a.symbols.size) (law : a.LawfulType t ty) :
    (addVar sym ty span).Supplies t scope a fun id next => next.Operand ty id ∧ next.IsVar id :=
  (newExpr_supplies ok ⟨.var sym, ty, none, span⟩ nofun law
    nofun lt rfl).mono fun _ _ _ => And.imp_right fun h => ⟨_, sym, h, rfl⟩

end Edit

end

namespace Intrinsic

/-- Whether a place of some type is made up of variables of a scope. -/
def Place.IsLocal (arena : Arena) (scope : ScopeId) (type : Ty) : Place → Prop
  | .var symbol => arena.IsLocal scope type symbol
  | .item array indices => (∃ whole, arena.IsLocal scope whole array ∧ whole.element = type) ∧
      ∀ index ∈ indices, arena.IsLocal scope (.integer 4) index

theorem Place.IsLocal.supplied {place : Place} (isLocal : place.IsLocal a scope ty)
    (given : a.Supplies t scope later) : place.IsLocal later scope ty := by
  cases place with
  | var sym => exact given.isLocal isLocal
  | item array indices =>
    obtain ⟨⟨whole, isArray, el⟩, vars⟩ := isLocal
    exact ⟨⟨whole, given.isLocal isArray, el⟩, fun i mem =>
      given.isLocal (vars i mem)⟩

namespace Frame

variable {frame : Frame} (ok : a.Lawful t)

include ok

theorem declare_supplies (framed : a.Framed t unit frame.scope) (law : a.LawfulType t ty)
    (closed : ty.exprs = []) : (frame.declare n ty intent).Supplies t frame.scope a fun id next =>
      next.IsLocal frame.scope ty id := by
  have e := framed.lawfulEntry ok n intent law closed
  refine overwrite_new_runs rfl e.inRange (.pure ⟨?_, ?_⟩)
  · exact e.supplies ok nofun
  · exact ⟨_, _, Arena.symbol_enter.2 (.inr ⟨rfl, rfl⟩), rfl, rfl, rfl⟩

theorem counter_supplies (isLocal : a.IsLocal frame.scope ty sym) :
    (frame.var sym).Supplies t frame.scope a fun id next => next.Operand ty id ∧ next.IsVar id :=
  ask_bind isLocal.variableType?
    (addVar_supplies ok isLocal.inRange (isLocal.lawfulType ok))

theorem var_supplies (isLocal : a.IsLocal frame.scope ty sym) :
    (frame.var sym).Supplies t frame.scope a fun id next => next.Operand ty id :=
  (counter_supplies ok isLocal).mono fun _ _ _ => And.left

theorem vars_supplies {symbols : List SymbolId}
    (isLocal : ∀ sym ∈ symbols, a.IsLocal frame.scope ty sym) :
    (symbols.mapM frame.var).Supplies t frame.scope a fun ids next => ∀ id ∈ ids,
    next.Operand ty id := by
  have each : (symbols.mapM frame.var).Supplies t frame.scope a fun ids next =>
      List.Forall₂ (fun _ id => next.Operand ty id) symbols ids :=
    Yields.mapM (ok.supplies _) (fun _ _ _ _ given => given.operand)
      fun sym mem mid given =>
        var_supplies given.lawful (given.isLocal (isLocal sym mem))
  refine each.mono fun ids next _ ops id mem => ?_
  obtain ⟨_, -, operand⟩ := exists_of_mem_right ops mem
  exact operand

theorem constant_supplies {v : Constant} (law : a.LawfulType t ty) :
    (frame.constant v ty).Supplies t frame.scope a fun id next => next.Operand ty id :=
  addConstant_supplies ok law

theorem integer_supplies : (frame.integer v).Supplies t frame.scope a fun id next =>
    next.Operand (.integer 4) id :=
  addInteger_supplies ok

section

variable (isLocal : a.IsLocal frame.scope whole array)

include isLocal

/-- An element of an array, at integer subscripts. -/
theorem itemAt_supplies (selects : ∀ mid, a.Supplies t frame.scope mid →
      indices.Supplies t frame.scope mid fun ids next => ∀ id ∈ ids, next.Operand (.integer 4) id) :
    (frame.itemAt array indices).Supplies t frame.scope a fun id next =>
    next.Operand whole.element id := by
  refine Yields.bind (var_supplies ok isLocal) fun base mid given isBase => ?_
  refine ask_bind (Arena.exprType_eq_ok.2 isBase.2) ?_
  refine Yields.bind (selects mid given) fun ids last more ops => ?_
  have law := (more.before.lawfulType (given.before.lawfulType (isLocal.lawfulType ok))).element
  refine addExpr_supplies more.lawful (fun child mem => ?_) law trivial rfl
  rcases mem_cons.1 mem with rfl | isIndex
  · exact (more.operand isBase).1
  · exact (ops child isIndex).1

theorem item_supplies {indices : List SymbolId}
    (vars : ∀ i ∈ indices, a.IsLocal frame.scope (.integer 4) i) :
    (frame.item array indices).Supplies t frame.scope a fun id next =>
    next.Operand whole.element id :=
  itemAt_supplies ok isLocal fun _ given =>
    vars_supplies given.lawful fun i mem => given.isLocal (vars i mem)

theorem literalItem_supplies : (frame.literalItem array i).Supplies t frame.scope a fun id next =>
    next.Operand whole.element id := by
  refine itemAt_supplies ok isLocal fun mid given => ?_
  refine .bind (integer_supplies given.lawful) fun literal last more operand => ?_
  exact .pure (more.lawful.supplies _) (forall_mem_singleton.2 operand)

end

theorem content_supplies {place : Place} (isLocal : place.IsLocal a frame.scope ty) :
    (frame.content place).Supplies t frame.scope a fun id next => next.Operand ty id := by
  cases place with
  | var sym => exact var_supplies ok isLocal
  | item array indices =>
    obtain ⟨⟨whole, isArray, rfl⟩, vars⟩ := isLocal
    exact item_supplies ok isArray vars

theorem extent_supplies (isLocal : a.IsLocal frame.scope whole array) :
    (frame.extent array dim).Supplies t frame.scope a fun id next =>
    next.Operand (.integer 4) id := by
  refine .bind (var_supplies ok isLocal) fun base mid given isBase => ?_
  refine .bind (integer_supplies given.lawful) fun number last more isNumber => ?_
  exact addExpr_supplies more.lawful (forall_mem_pair (more.operand isBase).1 isNumber.1)
    (.ofPlain trivial (by decide)) trivial rfl

section

variable {left right : ExprId} {leftType rightType : Ty} (isLeft : a.Operand leftType left)
  (isRight : a.Operand rightType right) (plain : leftType.element.IsPlain)
  (same : rightType.element = leftType.element) (scalar : leftType.rank = 0)
  (scalarToo : rightType.rank = 0)

omit ok in
include scalar scalarToo in
theorem conforms_scalars (alsoScalar : res.rank = 0) : leftType.Conforms rightType res where
  ranks notScalar := absurd scalar notScalar
  rank := by rw [alsoScalar, scalar, scalarToo]; rfl

include isLeft isRight plain same scalar scalarToo

/-- An operation on scalars of one plain type has this type. -/
theorem operation_supplies (operands : k.children = [left, right]) (isPlain : k.isArrayCall = false)
    (form : a.LawfulForm leftType (.logical left .and right none) → a.LawfulForm leftType k) :
    Edit.Supplies t frame.scope (do
      let type ← ask (·.exprType left)
      addExpr k type none frame.span) a fun id next => next.Operand leftType id := by
  refine ask_bind (Arena.exprType_eq_ok.2 isLeft.2) ?_
  exact addExpr_supplies ok (operands ▸ forall_mem_pair isLeft.1 isRight.1) (ok.lawfulType isLeft.2)
    (form ⟨leftType, rightType, isLeft.2, isRight.2, plain, same, rfl,
      conforms_scalars scalar scalarToo scalar⟩)
    isPlain

theorem arithmetic_supplies :
    (frame.arithmetic left op right).Supplies t frame.scope a fun id next =>
    next.Operand leftType id :=
  operation_supplies ok isLeft isRight plain same scalar scalarToo rfl rfl id

theorem logical_supplies : (frame.logical left op right).Supplies t frame.scope a fun id next =>
    next.Operand leftType id :=
  operation_supplies ok isLeft isRight plain same scalar scalarToo rfl rfl id

theorem compare_supplies : (frame.compare left op right).Supplies t frame.scope a fun id next =>
    next.Operand (.logical 4) id :=
  addExpr_supplies ok (forall_mem_pair isLeft.1 isRight.1) (.ofPlain trivial (by decide))
    ⟨leftType, rightType, isLeft.2, isRight.2, .inl ⟨plain, same⟩, rfl,
      conforms_scalars scalar scalarToo rfl⟩ rfl

end

/-- Loops over an array around straight statements are straight. -/
theorem loopsFrom_supplies (isArray : a.IsLocal frame.scope whole array)
    (isLocal : ∀ counter ∈ vars, a.IsLocal frame.scope (.integer 4) counter)
    (straight : a.Straight body) :
    (frame.loopsFrom array dim vars body).Supplies t frame.scope a fun loops next =>
    next.Straight loops := by
  induction vars generalizing a dim body with
  | nil => exact .pure (ok.supplies _) straight
  | cons counter rest ih =>
    refine .bind (counter_supplies ok (isLocal counter (.head _)))
      fun var first toFirst ⟨counts, isVar⟩ => ?_
    refine .bind (integer_supplies toFirst.lawful) fun start second toSecond isStart => ?_
    refine .bind (extent_supplies toSecond.lawful (toSecond.isLocal (toFirst.isLocal isArray)))
      fun stop third toThird isStop => ?_
    have supplied := Progress.trans (Progress.trans toFirst toSecond) toThird
    refine ih toThird.lawful (supplied.isLocal isArray) (fun item mem =>
      supplied.isLocal (isLocal item (.tail _ mem))) ?_
    have sinceFirst := Progress.trans toSecond toThird
    exact .loop (sinceFirst.operand counts) (sinceFirst.before.isVar isVar)
      (toThird.operand isStart) isStop (supplied.straight straight)

theorem loopVariables_supplies (framed : a.Framed t unit frame.scope) :
    (frame.loopVariables rank).Supplies t frame.scope a fun counters next =>
      ∀ counter ∈ counters, next.IsLocal frame.scope (.integer 4) counter := by
  have each : (frame.loopVariables rank).Supplies t frame.scope a fun counters next =>
      List.Forall₂ (fun _ counter => next.IsLocal frame.scope (.integer 4) counter)
        (range rank) counters :=
    Yields.mapM (ok.supplies _) (fun _ _ _ _ given => given.isLocal) fun i _ mid given =>
      declare_supplies given.lawful (given.framed framed) (.ofPlain trivial (by decide)) rfl
  refine each.mono fun counters next _ declared counter mem => ?_
  obtain ⟨_, -, isLocal⟩ := exists_of_mem_right declared mem
  exact isLocal

end Frame

end Intrinsic

end FortranSemantics
