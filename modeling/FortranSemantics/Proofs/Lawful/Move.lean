import FortranSemantics.Proofs.Lawful.Basic

/-!
# Steps between lawful arenas

Adding a lawful expression, giving an expression a form that nests nothing anew, opening a scope,
entering a lawful symbol, revising what a symbol names and remembering a helper lead from lawful
arenas to lawful arenas.
-/

namespace FortranSemantics.Arena

open List Arena SymbolKind

variable {t : Terms} {a after : Arena} {first last node other child : ExprId} {new : Expr}
  {roots : List ExprId} {depth : Nat} {id : ExprId} {expr : Expr} {sym : Symbol} {kind : ExprKind}

/-! ## Nested operands -/

theorem Within.mono (within : a.Within depth id) (enough : depth ≤ more) : a.Within more id := by
  induction depth generalizing more id with
  | zero => exact False.elim within
  | succ depth ih =>
    obtain ⟨expr, h, nested⟩ := within
    cases more with
    | zero => omega
    | succ more =>
      exact ⟨expr, h, fun child mem => ih (nested child mem) (by omega)⟩

theorem Within.kept (within : a.Within depth id)
    (same : ∀ {id expr}, a.expr id = .ok expr → ∃ held, after.expr id = .ok held ∧
      held.kind.children ⊆ expr.kind.children) :
    after.Within depth id := by
  induction depth generalizing id with
  | zero => exact within
  | succ depth ih =>
    obtain ⟨expr, h, nested⟩ := within
    obtain ⟨held, foundLater, fewer⟩ := same h
    exact ⟨held, foundLater, fun child mem => ih (nested child (fewer mem))⟩

section

variable (ok : a.Lawful t)

include ok

theorem Lawful.child_inRange (nested : a.Child id child) : child.index < a.exprs.size := by
  obtain ⟨expr, h, mem⟩ := nested
  exact (ok.expr h).children child mem

theorem Lawful.reaches_inRange (lt : first.index < a.exprs.size) (nested : a.Reaches first last) :
    last.index < a.exprs.size := by
  cases nested with
  | refl => exact lt
  | tail _ step => exact ok.child_inRange step

/-- The expressions that a symbol refers to are in range. -/
theorem Lawful.symbol_references {id : SymbolId} (h : a.symbol id = .ok sym)
    (occurs : .expr node ∈ sym.kind.references) : node.index < a.exprs.size := by
  have law := ok.kind h
  cases named : sym.kind with
  | «variable» info =>
    rw [named] at law occurs
    simp only [references, mem_append, mem_flatMap, Option.mem_toList,
      expr_mem_map_toList, Ty.expr_mem_references] at occurs
    rcases occurs with ((⟨ty, typed, inType⟩ | init) | v) | aliased
    · exact (law.type ty typed).exprs node inType
    · exact law.init node init
    · exact (law.value node v).inRange
    · exact law.aliased node aliased
  | function info | program info | block info =>
    rw [named] at law occurs
    refine law.exprs node ?_
    simpa [references, Stmt.expr_mem_referencesOf] using occurs
  | _ =>
    rw [named] at occurs
    simp [references] at occurs

theorem Lawful.expr_references (h : a.expr id = .ok expr) (occurs : .expr node ∈ expr.references) :
    node.index < a.exprs.size := by
  have law := ok.expr h
  simp only [Expr.references, mem_append, Ty.expr_mem_references, expr_mem_map_toList,
    ExprKind.expr_mem_references] at occurs
  rcases occurs with (inType | v) | operand
  · exact law.type.exprs node inType
  · exact (law.value node v).inRange
  · exact law.children node operand

end

theorem Borrowed.inRange (borrowed : a.Borrowed node) (ok : a.Lawful t) :
    node.index < a.exprs.size := by
  cases borrowed with
  | ofSymbol h _ occurs => exact ok.symbol_references h occurs
  | ofExpr _ h occurs => exact ok.expr_references h occurs

theorem Borrowed.earlier (borrowed : after.Borrowed node)
    (symbols : ∀ {id sym}, after.symbol id = .ok sym → ¬ after.Own sym.owner →
      ∀ node, .expr node ∈ sym.kind.references → a.Borrowed node)
    (exprs : ∀ {id expr}, a.Borrowed id → after.expr id = .ok expr → a.expr id = .ok expr) :
    a.Borrowed node := by
  induction borrowed with
  | ofSymbol h foreign occurs => exact symbols h foreign _ occurs
  | ofExpr _ h occurs ih => exact .ofExpr ih (exprs ih h) occurs

theorem Own.ofEq {scope : ScopeId} (own : a.Own scope) (symbols : after.symbols = a.symbols)
    (scopes : after.scopes = a.scopes) (root : after.root = a.root) : after.Own scope := by
  refine own.kept root (fun {_ sym} h => ⟨sym, ?_, .refl sym⟩) fun {_ tb _} h owned =>
    ⟨tb, ?_, owned⟩
  · unfold Arena.symbol at h ⊢
    rwa [symbols]
  · unfold Arena.scope at h ⊢
    rwa [scopes]

/-! ## Adding expressions -/

theorem expr_addExpr : (a.addExpr new).2.expr id = .ok expr ↔
    a.expr id = .ok expr ∨ id = ⟨a.exprs.size⟩ ∧ expr = new := by
  have same : id = ⟨a.exprs.size⟩ ↔ id.index = a.exprs.size := by
    cases id
    simp
  simp only [expr_eq_ok, addExpr, Array.getElem?_push, same]
  by_cases added : id.index = a.exprs.size
  · simp [added, eq_comm]
  · simp [added]

section

variable (ok : a.Lawful t)

include ok

theorem Lawful.reaches_addExpr (lt : first.index < a.exprs.size)
    (nested : (a.addExpr new).2.Reaches first last) : a.Reaches first last := by
  induction nested with
  | refl => exact .refl
  | tail _ step reached =>
    obtain ⟨expr, h, mem⟩ := step
    rcases expr_addExpr.1 h with old | ⟨rfl, -⟩
    · exact reached.tail ⟨expr, old, mem⟩
    · exact absurd (ok.reaches_inRange lt reached) (Nat.lt_irrefl _)

theorem Lawful.borrowed_addExpr (borrowed : (a.addExpr new).2.Borrowed node) : a.Borrowed node := by
  refine borrowed.earlier (fun h foreign _ occurs => ?_) fun known h => ?_
  · exact .ofSymbol h (fun own => foreign (own.ofEq rfl rfl rfl)) occurs
  · rcases expr_addExpr.1 h with old | ⟨rfl, -⟩
    · exact old
    · exact absurd (known.inRange ok) (Nat.lt_irrefl _)

theorem Lawful.precedes_addExpr (new : Expr) : a.Precedes (a.addExpr new).2 where
  root := rfl
  expr {_ expr} h := ⟨expr, expr_addExpr.2 (.inl h), .refl expr⟩
  reaches lt nested := .inl (ok.reaches_addExpr lt nested)
  within nested := nested.kept fun {_ expr} h =>
    ⟨expr, expr_addExpr.2 (.inl h), List.Subset.refl _⟩
  native lt native node nested borrowed :=
    native node (ok.reaches_addExpr lt nested) (ok.borrowed_addExpr borrowed)
  symbol {_ sym} h := ⟨sym, h, .refl sym⟩
  scope {_ tb} h := ⟨tb, h, rfl, fun _ => ⟨rfl, fun _ _ st _ => st⟩⟩

end

/-- Whether an expression is there and has no borrowed operands. -/
def Usable (arena : Arena) (id : ExprId) : Prop :=
  id.index < arena.exprs.size ∧ arena.Native id

/-- Whether an expression may be added: it is lawful, and its operands may be used. -/
structure NewExpr (terms : Terms) (arena : Arena) (expr : Expr) : Prop where
  children : ∀ child ∈ expr.kind.children, arena.Usable child
  type : arena.LawfulType terms expr.type
  value : ∀ id ∈ expr.value, arena.IsConstant id
  form : arena.LawfulForm expr.type expr.kind

theorem NewExpr.lawful (new : a.NewExpr t expr) : a.LawfulExpr t expr :=
  ⟨fun child mem => (new.children child mem).1, new.type, new.value, new.form⟩

theorem NewExpr.usable (law : a.NewExpr t new) (ok : a.Lawful t) :
    (a.addExpr new).2.Usable ⟨a.exprs.size⟩ := by
  refine ⟨by simp [addExpr], fun node nested borrowed => ?_⟩
  rcases Relation.ReflTransGen.cases_head nested with rfl | ⟨child, ⟨expr, h, mem⟩, rest⟩
  · -- nothing that was there refers to the new expression
    exact absurd ((ok.borrowed_addExpr borrowed).inRange ok) (Nat.lt_irrefl _)
  · rcases expr_addExpr.1 h with old | ⟨-, rfl⟩
    · exact absurd (expr_inRange old) (Nat.lt_irrefl _)
    · have usable := law.children child mem
      exact (ok.precedes_addExpr expr).native usable.1 usable.2 node rest borrowed

/-- Adding a lawful expression leads to a lawful arena. -/
theorem Lawful.addExpr (ok : a.Lawful t) (law : a.LawfulExpr t new) :
    a.Leads t (a.addExpr new).2 := by
  have pre := ok.precedes_addExpr new
  have size : (a.addExpr new).2.exprs.size = a.exprs.size + 1 := Array.size_push new
  refine ⟨?_, pre.grown rfl, .ofSymbols pre (fun _ st => st) rfl⟩
  exact {
    sound := ok.sound.withExprs _
    expr := fun {id expr} h => by
      rcases expr_addExpr.1 h with old | ⟨-, rfl⟩
      · exact pre.lawfulExpr (ok.expr old)
      · exact pre.lawfulExpr law
    depth := fun {id} lt => by
      rw [size] at lt ⊢
      by_cases isNew : id.index = a.exprs.size
      · have here : (a.addExpr new).2.expr id = .ok new :=
          expr_addExpr.2 (.inr ⟨by cases id; cases isNew; rfl, rfl⟩)
        exact ⟨new, here, fun child mem => pre.within (ok.depth (law.children child mem))⟩
      · have old : id.index < a.exprs.size := by omega
        exact (pre.within (ok.depth old)).mono (Nat.le_succ _)
    kind := fun h => pre.lawfulKind (ok.kind h)
    helpers := ok.helpers
    registered := ok.registered
    units := ok.units }

/-! ## Giving an expression another form -/

/-- The arena in which an expression has another form. -/
def reform (arena : Arena) (id : ExprId) (kind : ExprKind) : Arena :=
  { arena with exprs := arena.exprs.modify id.index fun expr => { expr with kind } }

/-- Whether an expression may be given another form: it is no literal, no reference, and then no
call of an array intrinsic, and its new operands are old ones or references that belong here. -/
structure Reforms (arena : Arena) (old new : ExprKind) : Prop where
  constant : ∀ value, old ≠ .constant value
  var : ∀ sym, old ≠ .var sym
  arrayCall : new.isArrayCall = false
  children : ∀ child ∈ new.children, child ∈ old.children ∨ arena.IsVar child ∧ arena.Native child
  leaf : old.children = [] → new.children = []
  form : ∀ type, arena.LawfulForm type new

theorem expr_reform : (a.reform id kind).expr other = .ok expr ↔ ∃ old, a.expr other = .ok old ∧
      expr = if other = id then { old with kind } else old := by
  have same : id.index = other.index ↔ other = id := by
    cases id
    cases other
    simp [eq_comm]
  simp only [expr_eq_ok, reform, Array.getElem?_modify, same]
  by_cases here : other = id
  · simp only [here, if_true, Option.map_eq_some_iff, eq_comm (b := expr)]
  · simp [here]

section

variable {id : ExprId} {expr : Expr} {kind : ExprKind} (h : a.expr id = .ok expr)
  (reforms : a.Reforms expr.kind kind)

include h reforms

theorem Reforms.ne_of_isVar (reference : a.IsVar other) : other ≠ id := by
  rintro rfl
  obtain ⟨held, sym, hh, refers⟩ := reference
  cases h.symm.trans hh
  exact reforms.var sym refers

/-- After an expression was given another form, nothing is nested anew but references. -/
theorem Reforms.reaches (nested : (a.reform id kind).Reaches first last) :
    a.Reaches first last ∨ a.IsVar last ∧ a.Native last := by
  induction nested with
  | refl => exact .inl .refl
  | @tail mid last _ step ih =>
    obtain ⟨held, hh, mem⟩ := step
    obtain ⟨old, isOld, rfl⟩ := expr_reform.1 hh
    rcases ih with reached | ⟨reference, -⟩
    · by_cases here : mid = id
      · subst here
        cases h.symm.trans isOld
        rw [if_pos rfl] at mem
        exact (reforms.children last mem).imp_left fun child => reached.tail ⟨expr, h, child⟩
      · rw [if_neg here] at mem
        exact .inl (reached.tail ⟨old, isOld, mem⟩)
    · rw [if_neg (reforms.ne_of_isVar h reference)] at mem
      obtain ⟨again, sym, refound, refers⟩ := reference
      cases isOld.symm.trans refound
      rw [refers] at mem
      cases mem

/-- Operands stay nested no deeper after an expression was given another form. -/
theorem Reforms.within (within : a.Within depth other) : (a.reform id kind).Within depth other := by
  induction depth generalizing other with
  | zero => exact within
  | succ depth ih =>
    obtain ⟨held, hh, nested⟩ := within
    refine ⟨_, expr_reform.2 ⟨held, hh, rfl⟩, fun child mem => ?_⟩
    by_cases here : other = id
    · subst here
      cases h.symm.trans hh
      rw [if_pos rfl] at mem
      rcases reforms.children child mem with old | ⟨reference, -⟩
      · exact ih (nested child old)
      · -- The old form has an operand too, so there is room for a reference.
        have some : expr.kind.children ≠ [] := fun none => by
          rw [reforms.leaf none] at mem
          cases mem
        obtain ⟨operand, isOperand⟩ := exists_mem_of_ne_nil _ some
        have apart := reforms.ne_of_isVar h reference
        obtain ⟨leaf, sym, foundLeaf, refers⟩ := reference
        cases depth with
        | zero => exact False.elim (nested operand isOperand)
        | succ depth =>
          refine ⟨leaf, expr_reform.2 ⟨leaf, foundLeaf, by rw [if_neg apart]⟩, fun child mem => ?_⟩
          rw [refers] at mem
          cases mem
    · rw [if_neg here] at mem
      exact ih (nested child mem)

/-- An arena comes before the one in which an expression without borrowed operands has another form.
-/
theorem Reforms.precedes (native : a.Native id) : a.Precedes (a.reform id kind) where
  root := rfl
  expr {other held} foundHeld := by
    refine ⟨_, expr_reform.2 ⟨held, foundHeld, rfl⟩, ?_⟩
    by_cases here : other = id
    · subst here
      cases h.symm.trans foundHeld
      rw [if_pos rfl]
      refine ⟨rfl, rfl, rfl, fun v literal => absurd literal (reforms.constant v),
        fun sym refers => absurd refers (reforms.var sym), fun isCall => ?_⟩
      cases reforms.arrayCall.symm.trans isCall
    · rw [if_neg here]
      exact .refl held
  reaches _ nested := by
    rcases reforms.reaches h nested with reached | ⟨reference, -⟩
    · exact .inl reached
    · have apart := reforms.ne_of_isVar h reference
      obtain ⟨held, sym, foundHeld, refers⟩ := reference
      exact .inr ⟨held, sym, expr_reform.2 ⟨held, foundHeld, by rw [if_neg apart]⟩, refers⟩
  within nested := reforms.within h nested
  native {other} _ isNative node nested borrowed := by
    have earlier : a.Borrowed node := by
      refine borrowed.earlier (fun holds foreign _ occurs => ?_) fun {other _} known foundHeld => ?_
      · exact .ofSymbol holds (fun own => foreign (own.ofEq rfl rfl rfl)) occurs
      · obtain ⟨old, foundOld, rfl⟩ := expr_reform.1 foundHeld
        have apart : other ≠ id := fun same => native id .refl (same ▸ known)
        rw [if_neg apart]
        exact foundOld
    rcases reforms.reaches h nested with reached | ⟨-, apart⟩
    · exact isNative node reached earlier
    · exact apart node .refl earlier
  symbol {_ sym} h := ⟨sym, h, .refl sym⟩
  scope {_ tb} h := ⟨tb, h, rfl, fun _ => ⟨rfl, fun _ _ st _ => st⟩⟩

/-- Giving an expression another form leads to a lawful arena. -/
theorem Lawful.reform (ok : a.Lawful t) (native : a.Native id) : a.Leads t (a.reform id kind) := by
  have pre := reforms.precedes h native
  have size : (a.reform id kind).exprs.size = a.exprs.size := Array.size_modify
  refine ⟨?_, pre.grown rfl, .ofSymbols pre (fun _ st => st) rfl⟩
  exact {
    sound := ok.sound.withExprs _
    expr := fun {other held} hh => by
      obtain ⟨old, isOld, rfl⟩ := expr_reform.1 hh
      have law := pre.lawfulExpr (ok.expr isOld)
      by_cases here : other = id
      · subst here
        rw [if_pos rfl]
        cases h.symm.trans isOld
        refine ⟨fun child mem => ?_, law.type, law.value, pre.lawfulForm (reforms.form _)⟩
        rcases reforms.children child mem with old | ⟨⟨leaf, _, foundLeaf, _⟩, -⟩
        · exact law.children child old
        · rw [size]
          exact expr_inRange foundLeaf
      · rw [if_neg here]
        exact law
    depth := fun lt => by
      rw [size] at lt ⊢
      exact pre.within (ok.depth lt)
    kind := fun h => pre.lawfulKind (ok.kind h)
    helpers := ok.helpers
    registered := ok.registered
    units := ok.units }

end

/-! ## Symbols and scopes -/

theorem reaches_of_exprs_eq (same : after.exprs = a.exprs) : after.Reaches = a.Reaches := by
  have children : after.Child = a.Child := by
    unfold Child expr
    rw [same]
  unfold Reaches
  rw [children]

/-- An arena comes before one with the same expressions and with more symbols and scopes. -/
theorem Precedes.ofExprs (exprs : after.exprs = a.exprs) (root : after.root = a.root)
    (sym : ∀ {id sym}, a.symbol id = .ok sym → ∃ held, after.symbol id = .ok held ∧
      sym.Continues held)
    (scope : ∀ {id tb}, a.scope id = .ok tb → ∃ held, after.scope id = .ok held ∧
      held.parent = tb.parent ∧ (tb.owner ≠ none → held.owner = tb.owner ∧
        ∀ n mem, tb.find? n = some mem → a.IsTyped mem → held.find? n = some mem))
    (refs : ∀ {id sym}, after.symbol id = .ok sym → ∀ node, .expr node ∈ sym.kind.references →
      after.Own sym.owner ∨
        ∃ old, a.symbol id = .ok old ∧ old.owner = sym.owner ∧ .expr node ∈ old.kind.references) :
    a.Precedes after where
  root := root
  expr {id expr} h := by
    have again : after.expr id = .ok expr := by
      unfold Arena.expr at *
      rw [exprs]
      exact h
    exact ⟨expr, again, .refl expr⟩
  reaches _ nested := .inl (reaches_of_exprs_eq exprs ▸ nested)
  within nested := nested.kept fun {_ expr} h => by
    refine ⟨expr, ?_, List.Subset.refl _⟩
    unfold Arena.expr at *
    rw [exprs]
    exact h
  native _ native node nested borrowed := by
    rw [reaches_of_exprs_eq exprs] at nested
    refine native node nested (borrowed.earlier (fun {_ held} h foreign node occurs => ?_) ?_)
    · obtain ⟨old, oldFound, same, oldOccurs⟩ := (refs h node occurs).resolve_left foreign
      refine .ofSymbol oldFound (fun own => foreign (same ▸ own.kept root sym ?_)) oldOccurs
      intro id tb outer h owned
      obtain ⟨held, hh, -, kept⟩ := scope h
      exact ⟨held, hh, (kept (by rw [owned]; exact nofun)).1.trans owned⟩
    · intro id expr _ h
      unfold Arena.expr at *
      rwa [← exprs]
  symbol := sym
  scope := scope

theorem Lawful.exprs_of_eq (ok : a.Lawful t) (pre : a.Precedes after)
    (same : after.exprs = a.exprs) :
    (∀ {id expr}, after.expr id = .ok expr → after.LawfulExpr t expr) ∧
      ∀ {id : ExprId}, id.index < after.exprs.size → after.Within after.exprs.size id := by
  have h {id : ExprId} {expr : Expr} (here : after.expr id = .ok expr) : a.expr id = .ok expr := by
    unfold Arena.expr at *
    rw [← same]
    exact here
  refine ⟨fun here => pre.lawfulExpr (ok.expr (h here)), fun lt => ?_⟩
  rw [same] at lt ⊢
  exact pre.within (ok.depth lt)

/-- Other scopes lead to a lawful arena, where those that there were have the same parents, owners
and names. -/
theorem Lawful.withScopes {scopes : Array Scope} (ok : a.Lawful t) (sound : Sound { a with scopes })
    (kept : ∀ {id tb}, a.scope id = .ok tb → ∃ held, scope { a with scopes } id = .ok held ∧
      held.parent = tb.parent ∧ held.owner = tb.owner ∧ ∀ n, held.find? n = tb.find? n)
    (helpers : ∀ {id table}, scope { a with scopes } id = .ok table → ∀ e ∈ table.helpers,
      ∀ helper ∈ e.2, helper.index < a.symbols.size) : a.Leads t { a with scopes } := by
  have stands {id : ScopeId} {n : String} {member : SymbolId}
      (st : a.find? id n = .ok (some member)) :
      find? { a with scopes } id n = .ok (some member) := by
    obtain ⟨tb, h, st⟩ := find?_eq_some.1 st
    obtain ⟨held, hh, -, -, same⟩ := kept h
    exact find?_eq_some.2 ⟨held, hh, (same n).trans st⟩
  have pre : a.Precedes { a with scopes } := by
    refine .ofExprs rfl rfl (fun {_ sym} h => ⟨sym, h, .refl sym⟩) (fun {_ tb} h => ?_)
      fun {_ sym} h expr mem => .inr ⟨sym, h, rfl, mem⟩
    obtain ⟨held, hh, parent, owner, st⟩ := kept h
    exact ⟨held, hh, parent, fun _ => ⟨owner, fun n _ mem _ => (st n).trans mem⟩⟩
  obtain ⟨expr, depth⟩ := ok.exprs_of_eq pre rfl
  refine ⟨?_, pre.grown rfl, .ofSymbols pre (fun _ => stands) rfl⟩
  exact {
    sound := sound
    expr := expr
    depth := depth
    kind := fun h => pre.lawfulKind (ok.kind h)
    helpers := helpers
    registered := fun h opens settled =>
      find?_eq_some.1 (stands (find?_eq_some.2 (ok.registered h opens settled)))
    units := ok.units }

theorem Lawful.addScope (ok : a.Lawful t) (lt : outer.index < a.scopes.size) :
    a.Leads t (a.addScope (some outer) none).2 := by
  refine ok.withScopes (ok.sound.addScope lt)
    (fun {_ tb} h => ⟨tb, scope_addScope.2 (.inl h), rfl, rfl, fun _ => rfl⟩)
    fun h e mem helper member => ?_
  rcases scope_addScope.1 h with old | ⟨-, rfl⟩
  · exact ok.helpers old e mem helper member
  · cases mem

theorem find?_enter {s : ScopeId} {kind : SymbolKind} (lt : s.index < a.scopes.size) :
    (a.enter s n kind).find? s n = .ok (some ⟨a.symbols.size⟩) := by
  obtain ⟨tb, h⟩ := exists_scope lt
  obtain ⟨held, hh, -, -, st⟩ := @exists_scope_enter n s kind _ _ _ h
  exact find?_eq_some.2 ⟨held, hh, by rw [st, if_pos ⟨rfl, rfl⟩]⟩

/-- What must hold for a symbol to be entered in a lawful arena: it is lawful, it refers to no
expressions or belongs here, it replaces no variable with a type in an owned scope and nothing in a
fixed one or when it is guarded, in the root it opens a scope, and nothing is in the scope of a
block yet. -/
structure LawfulEntry (terms : Terms) (arena : Arena) (scope : ScopeId) (name : String)
    (kind : SymbolKind) : Prop extends arena.Entering scope name kind where
  law : arena.LawfulKind terms scope kind
  home : (∀ node, .expr node ∉ kind.references) ∨ arena.Own scope
  untyped : ∀ table old, arena.scope scope = .ok table → table.owner ≠ none →
    table.find? name = some old → ¬ arena.IsTyped old
  unit : scope = arena.root → kind.scope?.isSome = true
  free : scope.index < terms.fixed ∨ arena.Guarded scope kind.form → arena.Free scope name
  vacant : ∀ inner, kind.form = .block inner → ∀ id symbol, arena.symbol id = .ok symbol →
    symbol.owner ≠ inner

section

variable {scope : ScopeId} {n : String} {kind : SymbolKind}

section

variable (e : a.LawfulEntry t scope n kind)

include e

theorem LawfulEntry.not_replaced (ok : a.Lawful t) {id : SymbolId} {inner : ScopeId}
    (h : a.symbol id = .ok sym) (opens : sym.kind.scope? = some inner)
    (settled : sym.kind.isStub = false) : ¬ (sym.owner = scope ∧ sym.name = n) := by
  rintro ⟨rfl, rfl⟩
  obtain ⟨tb, ht, st⟩ := ok.registered h opens settled
  rcases e.replaced tb id sym ht st h with plain | ⟨-, stub⟩
  · cases opens.symm.trans plain
  · cases settled.symm.trans stub

/-- A scope keeps its parent, its owner and what is known of its names when a symbol is entered. -/
theorem LawfulEntry.scope_kept {id : ScopeId} (h : a.scope id = .ok tb) :
    ∃ held, (a.enter scope n kind).scope id = .ok held ∧ held.parent = tb.parent ∧
      (tb.owner ≠ none → held.owner = tb.owner ∧
        ∀ n member, tb.find? n = some member → a.IsTyped member → held.find? n = some member) := by
  obtain ⟨held, hh, parent, owner, st⟩ := exists_scope_enter h
  refine ⟨held, hh, parent, fun own => ⟨?_, fun key member mem typed => ?_⟩⟩
  · -- the scope that the symbol opens had no owner
    rw [owner, if_neg]
    intro opens
    obtain ⟨inner, innerFound, unowned, -⟩ := e.inner id opens
    cases h.symm.trans innerFound
    exact own unowned
  · rw [st, if_neg, mem]
    rintro ⟨rfl, rfl⟩
    exact e.untyped tb member h own mem typed

/-- An arena comes before the one in which a symbol was entered. -/
theorem LawfulEntry.precedes : a.Precedes (a.enter scope n kind) := by
  have kept {id : SymbolId} {sym : Symbol} (h : a.symbol id = .ok sym) :
      ∃ held, (a.enter scope n kind).symbol id = .ok held ∧ sym.Continues held :=
    ⟨sym, symbol_enter.2 (.inl h), .refl sym⟩
  refine .ofExprs rfl rfl kept e.scope_kept fun {_ sym} h expr mem => ?_
  rcases symbol_enter.1 h with old | ⟨-, rfl⟩
  · exact .inr ⟨sym, old, rfl, mem⟩
  · rcases e.home with none | own
    · exact absurd mem (none expr)
    · refine .inl (own.kept rfl kept fun {_ tb _} ht owned => ?_)
      obtain ⟨held, hh, -, same⟩ := e.scope_kept ht
      exact ⟨held, hh, (same (by rw [owned]; exact nofun)).1.trans owned⟩

/-- Entering a lawful symbol keeps an arena lawful. -/
theorem LawfulEntry.lawful (ok : a.Lawful t) : (a.enter scope n kind).Lawful t := by
  have pre := e.precedes
  obtain ⟨expr, depth⟩ := ok.exprs_of_eq pre rfl
  exact {
    sound := ok.sound.enter e.toEntering
    expr := expr
    depth := depth
    kind := fun h => by
      rcases symbol_enter.1 h with old | ⟨-, rfl⟩
      · exact pre.lawfulKind (ok.kind old)
      · exact pre.lawfulKind e.law
    helpers := fun h mem member helper isHelper => by
      obtain ⟨old, oldFound, -, same, -⟩ := scope_enter.1 h
      rw [same] at member
      exact (ok.helpers oldFound mem member helper isHelper).trans_le pre.symbols_le
    registered := fun {id sym inner} h opens settled => by
      rcases symbol_enter.1 h with old | ⟨rfl, rfl⟩
      · obtain ⟨tb, ht, st⟩ := ok.registered old opens settled
        obtain ⟨held, hh, -, -, finds⟩ := exists_scope_enter ht
        refine ⟨held, hh, ?_⟩
        rw [finds, if_neg (e.not_replaced ok old opens settled), st]
      · obtain ⟨tb, ht⟩ := exists_scope e.inRange
        obtain ⟨held, hh, -, -, finds⟩ := exists_scope_enter ht
        exact ⟨held, hh, by rw [finds, if_pos ⟨rfl, rfl⟩]⟩
    units := fun h inRoot => by
      rcases symbol_enter.1 h with old | ⟨-, rfl⟩
      · exact ok.units old inRoot
      · exact e.unit inRoot }

/-- A symbol is entered under a fresh name when it is guarded. -/
theorem LawfulEntry.fresh (ok : a.Lawful t) : a.Fresh → (a.enter scope n kind).Fresh := by
  have isLast {id : SymbolId} {sym : Symbol} (h : (a.enter scope n kind).symbol id = .ok sym)
      (isNew : a.symbols.size ≤ id.index) : sym = ⟨n, scope, kind⟩ := by
    rcases symbol_enter.1 h with old | ⟨-, rfl⟩
    · exact absurd (symbol_inRange old) isNew.not_gt
    · rfl
  refine e.precedes.fresh (fun {block inner id sym} has isNew h => ?_)
    fun {id sym other held} h isNew _ guarded hh lt sameOwner sameName => ?_
  · obtain ⟨_, found, isBlock⟩ := has
    cases isLast found isNew
    exact e.vacant inner isBlock id sym h
  · cases isLast h isNew
    have here : a.Guarded scope kind.form := by
      cases form : kind.form with
      | «variable» =>
        rw [form] at guarded
        obtain ⟨block, opener, found, isBlock⟩ := guarded
        rcases symbol_enter.1 found with old | ⟨-, rfl⟩
        · exact ⟨block, opener, old, isBlock⟩
        · cases form.symm.trans isBlock
      | _ => rwa [form] at guarded
    -- the name would be taken by the earlier symbol
    rcases symbol_enter.1 hh with old | ⟨rfl, -⟩
    · obtain ⟨tb, _, ht, st⟩ := ok.sound.entered old
      obtain ⟨again, refound, none⟩ := e.free (.inr here)
      rw [sameOwner] at ht
      rw [sameName] at st
      cases ht.symm.trans refound
      cases st.symm.trans none
    · exact absurd (lt.trans_le
        (Nat.le_of_lt_succ (by simpa [enter] using symbol_inRange h))) (Nat.lt_irrefl _)

theorem LawfulEntry.keeps (ok : a.Lawful t) : a.Keeps t.fixed (a.enter scope n kind) where
  name lt st := by
    obtain ⟨tb, h, st⟩ := find?_eq_some.1 st
    obtain ⟨held, hh, -, -, finds⟩ := exists_scope_enter h
    refine find?_eq_some.2 ⟨held, hh, ?_⟩
    rw [finds, if_neg, st]
    rintro ⟨rfl, rfl⟩
    obtain ⟨again, refound, free⟩ := e.free (.inl lt)
    cases h.symm.trans refound
    cases st.symm.trans free
  new h isNew _ _ := by
    rcases symbol_enter.1 h with old | ⟨rfl, rfl⟩
    · exact absurd (symbol_inRange old) isNew.not_gt
    · exact find?_enter e.inRange
  fresh := e.fresh ok

theorem LawfulEntry.leads (ok : a.Lawful t)
    (typed : ∀ info, kind = .variable info → info.type ≠ none) :
    a.Leads t (a.enter scope n kind) := by
  refine ⟨e.lawful ok, ⟨e.precedes, fun {_ sym} h special => ?_⟩, e.keeps ok⟩
  rcases symbol_enter.1 h with old | ⟨-, rfl⟩
  · exact .inr ⟨sym, old, special⟩
  · have ordinary : kind.isOrdinary = true := isOrdinary_iff.2 ⟨e.settled, typed⟩
    cases ordinary.symm.trans special

end

end

/-- What must hold for a symbol of a lawful arena to name something else. -/
structure LawfulRevision (terms : Terms) (arena : Arena) (id : SymbolId) (kind : SymbolKind)
    (sym : Symbol) : Prop extends arena.Revising id kind sym where
  law : arena.LawfulKind terms sym.owner kind
  ordinary : kind.isOrdinary = sym.kind.isOrdinary
  foreign : kind.isForeign = sym.kind.isForeign
  binding : ∀ info, sym.kind = .binding info → kind = .binding info
  references : (∀ node, .expr node ∈ kind.references → .expr node ∈ sym.kind.references) ∨
    arena.Own sym.owner

section

variable {id : SymbolId} {kind : SymbolKind} {sym : Symbol}

section

variable (revision : a.LawfulRevision t id kind sym)

include revision

theorem LawfulRevision.continues {other : SymbolId} {held : Symbol}
    (h : a.symbol other = .ok held) :
    ∃ b, (a.revise id kind).symbol other = .ok b ∧ held.Continues b := by
  by_cases here : other = id
  · subst here
    cases revision.found.symm.trans h
    exact ⟨_, (symbol_revise revision.toRevising).2 (.inl ⟨rfl, rfl⟩), rfl, rfl, revision.form,
      fun ordinary => revision.ordinary.trans ordinary, revision.foreign, revision.binding⟩
  · exact ⟨held, (symbol_revise revision.toRevising).2 (.inr ⟨here, h⟩), .refl held⟩

theorem LawfulRevision.precedes : a.Precedes (a.revise id kind) := by
  refine .ofExprs rfl rfl revision.continues
    (fun {_ tb} h => ⟨tb, h, rfl, fun _ => ⟨rfl, fun _ _ st _ => st⟩⟩)
    fun {_ held} h expr mem => ?_
  rcases (symbol_revise revision.toRevising).1 h with ⟨rfl, rfl⟩ | ⟨-, old⟩
  · rcases revision.references with fewer | own
    · exact .inr ⟨sym, revision.found, rfl, fewer expr mem⟩
    · exact .inl (own.kept rfl revision.continues fun {_ tb _} h owned => ⟨tb, h, owned⟩)
  · exact .inr ⟨held, old, rfl, mem⟩

theorem LawfulRevision.isStub_eq : kind.isStub = sym.kind.isStub := by
  have form := revision.form
  have ordinary := revision.ordinary
  cases kind with
  | function info =>
    cases named : sym.kind with
    | function old =>
      rw [named] at ordinary
      simpa [isOrdinary] using ordinary
    | _ => rw [named] at form; cases form
  | _ =>
    cases named : sym.kind with
    | function old => rw [named] at form; cases form
    | _ => rfl

/-- Revising what a symbol names leads to a lawful arena. -/
theorem LawfulRevision.leads (ok : a.Lawful t) : a.Leads t (a.revise id kind) := by
  have pre := revision.precedes
  obtain ⟨expr, depth⟩ := ok.exprs_of_eq pre rfl
  have sameScope : kind.scope? = sym.kind.scope? := scope?_eq_of_form revision.form
  refine ⟨?_, ?_, .ofSymbols pre (fun _ st => st) Array.size_modify⟩
  · exact {
      sound := ok.sound.revise revision.toRevising
      expr := expr
      depth := depth
      kind := fun h => by
        rcases (symbol_revise revision.toRevising).1 h with ⟨rfl, rfl⟩ | ⟨-, old⟩
        · exact pre.lawfulKind revision.law
        · exact pre.lawfulKind (ok.kind old)
      helpers := fun h e mem helper member =>
        (ok.helpers h e mem helper member).trans_le pre.symbols_le
      registered := fun h opens settled => by
        rcases (symbol_revise revision.toRevising).1 h with ⟨rfl, rfl⟩ | ⟨-, old⟩
        · have opensOld := sameScope.symm.trans opens
          have settledOld := revision.isStub_eq.symm.trans settled
          obtain ⟨tb, ht, st⟩ := ok.registered revision.found opensOld settledOld
          exact ⟨tb, ht, st⟩
        · exact ok.registered old opens settled
      units := fun h inRoot => by
        rcases (symbol_revise revision.toRevising).1 h with ⟨-, rfl⟩ | ⟨-, old⟩
        · have opensOld := ok.units revision.found inRoot
          rw [← sameScope] at opensOld
          exact opensOld
        · exact ok.units old inRoot }
  · refine ⟨pre, fun {_ held} h special => .inr ?_⟩
    rcases (symbol_revise revision.toRevising).1 h with ⟨rfl, rfl⟩ | ⟨-, old⟩
    · exact ⟨sym, revision.found, revision.ordinary.symm.trans special⟩
    · exact ⟨held, old, special⟩

end

end

/-- Remembering helpers that are there leads to a lawful arena. -/
theorem Lawful.remember (ok : a.Lawful t) (scope : ScopeId)
    {helpers : List (HelperKey × List SymbolId)}
    (known : ∀ e ∈ helpers, ∀ helper ∈ e.2, helper.index < a.symbols.size) :
    a.Leads t (a.remember scope helpers) := by
  have changed : (a.remember scope helpers).scopes =
      a.scopes.modify scope.index fun held => { held with helpers } := rfl
  refine ok.withScopes (ok.sound.remember scope helpers) (fun {_ tb} h => ?_)
    fun h e mem helper member => ?_
  · refine ⟨_, (scope_modify changed).2 ⟨tb, h, rfl⟩, ?_⟩
    split <;> exact ⟨rfl, rfl, fun _ => rfl⟩
  · obtain ⟨old, oldFound, rfl⟩ := (scope_modify changed).1 h
    split at mem
    · exact known e mem helper member
    · exact ok.helpers oldFound e mem helper member

/-! ## What is nested in an expression -/

theorem Within.not_cyclic (within : a.Within depth id) : ¬ Relation.TransGen a.Child id id := by
  induction depth generalizing id with
  | zero => exact within.elim
  | succ depth ih =>
    obtain ⟨expr, h, nested⟩ := within
    intro cycle
    obtain ⟨child, ⟨again, refound, mem⟩, back⟩ := Relation.TransGen.head'_iff.1 cycle
    cases h.symm.trans refound
    exact ih (nested child mem) (.tail' back ⟨expr, h, mem⟩)

theorem Lawful.not_reaches_of_child (ok : a.Lawful t) (nested : a.Child id child) :
    ¬ a.Reaches child id := by
  intro back
  have lt : id.index < a.exprs.size := by
    obtain ⟨expr, h, -⟩ := nested
    exact expr_inRange h
  exact (ok.depth lt).not_cyclic (.head' nested back)

theorem Precedes.var_kept {sym : SymbolId} (pre : a.Precedes after) (h : a.expr id = .ok expr)
    (refers : expr.kind = .var sym) : after.expr id = .ok expr := by
  obtain ⟨⟨kind, ty, v, span⟩, foundLater, kept⟩ := pre.expr h
  obtain ⟨rfl, rfl, rfl, -, same, -⟩ := kept
  rw [foundLater]
  exact congrArg (fun kind => Except.ok (Expr.mk kind _ _ _)) (same sym refers)

/-- Whether only what is nested in some expressions changed. -/
structure Spares (roots : List ExprId) (arena after : Arena) : Prop where
  inRange : ∀ root ∈ roots, root.index < arena.exprs.size
  spared : ∀ {node expr}, arena.expr node = .ok expr → (∀ root ∈ roots, ¬ arena.Reaches root node) →
    after.expr node = .ok expr

theorem Spares.ofKept (lt : ∀ root ∈ roots, root.index < a.exprs.size)
    (kept : ∀ id expr, a.expr id = .ok expr → after.expr id = .ok expr) : a.Spares roots after :=
  ⟨lt, fun h _ => kept _ _ h⟩

theorem Spares.widen (spares : a.Spares roots after) (lt : ∀ root ∈ more, root.index < a.exprs.size)
    (covered : ∀ root ∈ roots, ∃ other ∈ more, a.Reaches other root) : a.Spares more after where
  inRange := lt
  spared h apart := spares.spared h fun root mem nested => by
    obtain ⟨other, member, above⟩ := covered root mem
    exact apart other member (above.trans nested)

theorem Spares.trans {last : Arena} (one : a.Spares roots after)
    (pre : a.Precedes after) (more : after.Precedes last) (other : after.Spares roots last) :
    a.Spares roots last where
  inRange := one.inRange
  spared {node expr} h apart := by
    have here := one.spared h apart
    by_cases reference : after.IsVar node
    · obtain ⟨again, sym, refound, refers⟩ := reference
      cases here.symm.trans refound
      exact more.var_kept here refers
    · -- only references came to be nested anew
      refine other.spared here fun root mem nested => ?_
      exact (pre.reaches (one.inRange root mem) nested).elim (apart root mem) reference

theorem spares_reform (inRange : id.index < a.exprs.size) : a.Spares [id] (a.reform id kind) where
  inRange root mem := mem_singleton.1 mem ▸ inRange
  spared {node held} h apart := by
    refine expr_reform.2 ⟨held, h, ?_⟩
    rw [if_neg]
    rintro rfl
    exact apart node (mem_singleton_self node) .refl

/-- The arena with an empty root scope is lawful. -/
theorem lawful_empty : empty.Lawful t := by
  have noSymbol {id : SymbolId} {sym : Symbol} : empty.symbol id ≠ .ok sym := by
    rw [Ne, symbol_eq_ok]
    simp [empty]
  have noExpr {id : ExprId} {expr : Expr} : empty.expr id ≠ .ok expr := by
    rw [Ne, expr_eq_ok]
    simp [empty]
  exact {
    sound := sound_empty
    expr := fun h => absurd h noExpr
    depth := fun lt => absurd lt (Nat.not_lt_zero _)
    kind := fun h => absurd h noSymbol
    helpers := fun h e mem => by
      rw [scope_eq_ok, empty, getElem?_toArray, getElem?_singleton] at h
      split at h
      · cases h
        cases mem
      · cases h
    registered := fun h => absurd h noSymbol
    units := fun h => absurd h noSymbol }

end FortranSemantics.Arena
