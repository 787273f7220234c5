import FortranSemantics.Proofs.Lawful.Frame

/-!
# What lowering leaves alone

Lowering replaces calls of array intrinsics and the bodies of what was analysed here, and adds
helpers and temporaries. Modules that were not analysed here stay as they are, with every expression
that they refer to.
-/

namespace FortranSemantics

variable {s unit : ScopeId} {node : ExprId} {id : SymbolId} {symbol : Symbol}

theorem SymbolKind.withBody_withBody (k : SymbolKind) (first second : List Stmt) :
    (k.withBody first).withBody second = k.withBody second := by
  cases k <;> rfl

theorem SymbolKind.exprsOf_withBody {k : SymbolKind} {body : List Stmt} {expr : ExprId}
    (mem : expr ∈ Stmt.exprsOf (k.withBody body).body) : expr ∈ Stmt.exprsOf body := by
  cases k <;> first | exact mem | cases mem

namespace Arena

variable {t : Terms} {a b : Arena} {homes : ScopeId → Prop}

/-! ## Modules that were not analysed here -/

/-- A scope that belongs to a unit has an owner. -/
theorem Belongs.owned (belongs : a.Belongs foreign s) (h : a.scope s = .ok tb) :
    tb.owner ≠ none := by
  cases belongs with
  | unit refound own | inner refound own =>
    cases h.symm.trans refound
    rw [own]
    exact nofun

theorem Sound.not_belongs_root (sound : a.Sound) : ¬ a.Belongs foreign a.root := by
  obtain ⟨tb, h, -, unowned⟩ := sound.root
  exact fun belongs => belongs.owned h unowned

/-- The owner of a scope is the unit that the scope belongs to, or lies inside that unit. -/
theorem Belongs.owner (belongs : a.Belongs foreign s) (h : a.scope s = .ok tb)
    (own : tb.owner = some id) (held : a.symbol id = .ok symbol) :
    symbol.owner = a.root ∧ symbol.kind.isForeign = foreign ∨ a.Belongs foreign symbol.owner := by
  cases belongs with
  | unit refound ownedAgain heldAgain top same =>
    cases h.symm.trans refound
    cases own.symm.trans ownedAgain
    cases held.symm.trans heldAgain
    exact .inl ⟨top, same⟩
  | inner refound ownedAgain heldAgain belongs =>
    cases h.symm.trans refound
    cases own.symm.trans ownedAgain
    cases held.symm.trans heldAgain
    exact .inr belongs

/-- No scope belongs to a foreign unit and to one that is not. -/
theorem Belongs.unique (one : a.Belongs first s) (sound : a.Sound) (other : a.Belongs second s) :
    first = second := by
  induction one with
  | unit h own held top same =>
    rcases other.owner h own held with ⟨-, sameAgain⟩ | belongs
    · exact same.symm.trans sameAgain
    · exact absurd (top ▸ belongs) sound.not_belongs_root
  | inner h own held belongs ih =>
    rcases other.owner h own held with ⟨top, -⟩ | belongsAgain
    · exact absurd (top ▸ belongs) sound.not_belongs_root
    · exact ih belongsAgain

theorem Own.not_alien (own : a.Own s) (sound : a.Sound) : ¬ a.Alien s := by
  intro alien
  rcases own with rfl | belongs
  · exact sound.not_belongs_root alien
  · cases belongs.unique sound alien

theorem not_alien_of_unowned (h : a.scope s = .ok tb) (unowned : tb.owner = none) : ¬ a.Alien s :=
  fun alien => alien.owned h unowned

/-- Whether a scope is the root or belongs to a module that was not analysed here. -/
def Outer (a : Arena) (scope : ScopeId) : Prop :=
  scope = a.root ∨ a.Alien scope

theorem Own.not_outer (own : a.Own s) (sound : a.Sound) (notRoot : s ≠ a.root) : ¬ a.Outer s :=
  fun outer => outer.elim notRoot (own.not_alien sound)

/-- Whether an expression belongs to a module that was not analysed here: a symbol or an expression
of it refers to it. -/
inductive Loaned (a : Arena) : ExprId → Prop
  | ofSymbol {id : SymbolId} {symbol : Symbol} {node : ExprId} (found : a.symbol id = .ok symbol)
      (foreign : a.Alien symbol.owner)
      (occurs : .expr node ∈ symbol.kind.references) : Loaned a node
  | ofExpr {id node : ExprId} {expr : Expr} (loaned : Loaned a id)
      (found : a.expr id = .ok expr) (occurs : .expr node ∈ expr.references) : Loaned a node

theorem Loaned.borrowed (loaned : a.Loaned node) (sound : a.Sound) : a.Borrowed node := by
  induction loaned with
  | ofSymbol h foreign occurs => exact .ofSymbol h (fun own => own.not_alien sound foreign) occurs
  | ofExpr _ h occurs ih => exact .ofExpr ih h occurs

/-! ## Lowering -/

/-- Whether an arena is followed by one in which only the bodies of what was analysed here changed,
with fewer calls of array intrinsics. What is new calls none, and opens only new scopes, in one of
the given ones. -/
structure Lowers (terms : Terms) (homes : ScopeId → Prop) (a later : Arena) : Prop
    extends a.Quells terms later where
  plain : ∀ {id expr}, a.expr id = .ok expr → expr.kind.isArrayCall = false →
    later.expr id = .ok expr
  symbol : ∀ {id symbol}, a.symbol id = .ok symbol → later.symbol id = .ok symbol ∨
    ¬ a.Alien symbol.owner ∧ ∃ body, (∀ expr ∈ Stmt.exprsOf body, later.Lowered expr) ∧
      later.symbol id = .ok { symbol with kind := symbol.kind.withBody body }
  new : ∀ {id symbol}, later.symbol id = .ok symbol → a.symbols.size ≤ id.index →
    (∀ inner, symbol.kind.scope? = some inner → homes symbol.owner ∧ a.scopes.size ≤ inner.index) ∧
      ∀ expr ∈ Stmt.exprsOf symbol.kind.body, later.Lowered expr
  table : ∀ {id table}, a.scope id = .ok table → a.Outer id → later.scope id = .ok table
  loaned : ∀ {node expr}, a.Loaned node → a.expr node = .ok expr → later.expr node = .ok expr

theorem Lawful.lowers (ok : a.Lawful t) (homes : ScopeId → Prop) : a.Lowers t homes a where
  leads := ok.leads
  fresh h _ := h
  plain h _ := h
  symbol := .inl
  new h isNew := absurd (symbol_inRange h) isNew.not_gt
  table h _ := h
  loaned _ h := h

theorem Lowers.mono (lowered : a.Lowers t homes b) (among : ∀ s, homes s → more s) :
    a.Lowers t more b :=
  { lowered with
    new := fun h isNew => (lowered.new h isNew).imp_left fun place inner opens =>
      (place inner opens).imp_left (among _) }

theorem Lowers.loaned_kept (lowered : a.Lowers t homes b) (loaned : a.Loaned node) :
    b.Loaned node := by
  induction loaned with
  | ofSymbol h foreign occurs =>
    rcases lowered.symbol h with same | ⟨notAlien, -⟩
    · exact .ofSymbol same (lowered.before.alien foreign) occurs
    · exact absurd foreign notAlien
  | ofExpr loaned h occurs ih => exact .ofExpr ih (lowered.loaned loaned h) occurs

theorem Quells.outer (quelled : a.Quells t b) (outer : a.Outer s) : b.Outer s :=
  outer.imp (fun isRoot => isRoot.trans quelled.before.root.symm) quelled.before.alien

/-- A symbol that has lowered statements or none keeps them so. -/
theorem Lowers.body_kept (lowered : a.Lowers t homes b) (h : a.symbol id = .ok symbol)
    (body : ∀ expr ∈ Stmt.exprsOf symbol.kind.body, a.Lowered expr) :
    ∃ held, b.symbol id = .ok held ∧ held.owner = symbol.owner ∧
    held.kind.scope? = symbol.kind.scope? ∧
      ∀ expr ∈ Stmt.exprsOf held.kind.body, b.Lowered expr := by
  rcases lowered.symbol h with same | ⟨-, replaced, isLowered, changed⟩
  · exact ⟨symbol, same, rfl, rfl, fun expr mem => lowered.lowered (body expr mem)⟩
  · refine ⟨_, changed, rfl, ?_, fun expr mem => isLowered expr (SymbolKind.exprsOf_withBody mem)⟩
    cases symbol.kind <;> rfl

instance : Progress (Arena.Lowers t homes) where
  trans {first second third} one o := {
    leads := Progress.trans one.leads o.leads
    fresh := fun h isCall => one.fresh (o.fresh h isCall) isCall
    plain := fun h notCall => o.plain (one.plain h notCall) notCall
    symbol := fun {id symbol} h => by
      rcases one.symbol h with same | ⟨notAlien, body, isLowered, changed⟩
      · refine (o.symbol same).imp_right (And.imp_left fun notAlien alien => ?_)
        exact notAlien (one.before.alien alien)
      · right
        refine ⟨notAlien, ?_⟩
        rcases o.symbol changed with same | ⟨-, again, isLoweredAgain, changedAgain⟩
        · exact ⟨body, fun expr mem => o.lowered (isLowered expr mem), same⟩
        · refine ⟨again, isLoweredAgain, ?_⟩
          rw [changedAgain, SymbolKind.withBody_withBody]
    new := fun {id symbol} h isNew => by
      by_cases newer : second.symbols.size ≤ id.index
      · obtain ⟨place, body⟩ := o.new h newer
        refine ⟨fun inner opens => (place inner opens).imp_right fun b => ?_, body⟩
        exact one.before.scopes_le.trans b
      · obtain ⟨held, heldFound⟩ := exists_symbol (Nat.lt_of_not_le newer)
        obtain ⟨place, body⟩ := one.new heldFound isNew
        obtain ⟨again, foundAgain, owner, opens, kept⟩ := o.body_kept heldFound body
        cases h.symm.trans foundAgain
        exact ⟨fun inner opened => owner.symm ▸ place inner (opens ▸ opened), kept⟩
    table := fun h outer => o.table (one.table h outer) (one.outer outer)
    loaned := fun loaned h => o.loaned (one.loaned_kept loaned) (one.loaned loaned h) }
  arrive led := led.lawful.lowers homes

/-! ## Steps of lowering -/

/-- Adding expressions and variables of a scope that was analysed here. -/
theorem Supplies.lowers (supplied : a.Supplies t s b) (apart : ¬ a.Outer s) :
    a.Lowers t homes b where
  leads := supplied.leads
  fresh := supplied.fresh
  plain h _ := supplied.expr h
  symbol h := .inl (supplied.symbol h)
  new {id symbol} h isNew := by
    rcases supplied.new h with old | ⟨-, isVariable⟩
    · exact absurd (symbol_inRange old) isNew.not_gt
    · obtain ⟨info, named⟩ := SymbolKind.form_eq_variable isVariable
      rw [named]
      exact ⟨fun _ opens => (nomatch opens), nofun⟩
  table h outer := by
    obtain ⟨held, heldFound, -, same⟩ := supplied.table h
    have o : _ ≠ s := fun isScope => apart (isScope ▸ outer)
    rw [heldFound, same o]
  loaned _ h := supplied.expr h

theorem absurd_new {held : Prop} (isNew : a.symbols.size ≤ id.index)
    (h : a.symbol id = .ok symbol) : held :=
  absurd (symbol_inRange h) isNew.not_gt

theorem Lawful.lowers_addScope (ok : a.Lawful t) (lt : outer.index < a.scopes.size) :
    a.Lowers t homes (a.addScope (some outer) none).2 where
  leads := ok.addScope lt
  fresh h _ := h
  plain h _ := h
  symbol := .inl
  new h isNew := absurd_new isNew h
  table h _ := scope_addScope.2 (.inl h)
  loaned _ h := h

/-- Entering a procedure with a new scope in a unit that was analysed here. -/
theorem Lowers.enter {start : Arena} {info : Function} (lowered : start.Lowers t homes a)
    (e : a.LawfulEntry t unit n (.function info)) (isHome : homes unit)
    (fresh : start.scopes.size ≤ info.scope.index) (apart : ¬ a.Outer unit)
    (body : ∀ expr ∈ Stmt.exprsOf info.body, a.Lowered expr) :
    start.Lowers t homes (a.enter unit n (.function info)) := by
  have led := e.leads lowered.lawful nofun
  have quelled : a.Quells t (a.enter unit n (.function info)) := ⟨led, fun h _ => h⟩
  have kept {id : SymbolId} {symbol : Symbol} (h : a.symbol id = .ok symbol) :
      (a.enter unit n (.function info)).symbol id = .ok symbol := symbol_enter.2 (.inl h)
  exact {
    leads := Progress.trans lowered.leads led
    fresh := lowered.fresh
    plain := lowered.plain
    symbol := fun h => (lowered.symbol h).imp kept fun ⟨notAlien, replaced, isLowered, changed⟩ =>
      ⟨notAlien, replaced, fun expr mem => quelled.lowered (isLowered expr mem), kept changed⟩
    new := fun h isNew => by
      rcases symbol_enter.1 h with old | ⟨-, rfl⟩
      · exact (lowered.new old isNew).imp_right fun isLowered expr mem => quelled.lowered
          (isLowered expr mem)
      · refine ⟨fun inner opens => ?_, fun expr mem => quelled.lowered (body expr mem)⟩
        cases opens
        exact ⟨isHome, fresh⟩
    table := fun {id table} h outer => by
      have here := lowered.table h outer
      have outer := lowered.outer outer
      have notInner : info.scope ≠ id := by
        rintro rfl
        obtain ⟨inner, innerFound, unowned, inside⟩ := e.inner info.scope rfl
        rcases outer with isRoot | alien
        · obtain ⟨top, topFound, none, -⟩ := lowered.lawful.sound.root
          rw [isRoot, topFound] at innerFound
          cases innerFound
          cases none.symm.trans inside
        · exact not_alien_of_unowned innerFound unowned alien
      have notUnit : id ≠ unit := fun same => apart (same ▸ outer)
      refine scope_enter.2 ⟨table, here, rfl, rfl, ?_, ?_⟩
      · rw [if_neg]
        exact fun same => notInner (Option.some.inj same)
      · rw [if_neg notUnit]
    loaned := lowered.loaned }

/-- Remembering helpers of a unit that was analysed here. -/
theorem Lawful.lowers_remember (ok : a.Lawful t) (apart : ¬ a.Outer unit)
    {helpers : List (HelperKey × List SymbolId)}
    (known : ∀ e ∈ helpers, ∀ helper ∈ e.2, helper.index < a.symbols.size) :
    a.Lowers t homes (a.remember unit helpers) where
  leads := ok.remember unit known
  fresh h _ := h
  plain h _ := h
  symbol := .inl
  new h isNew := absurd_new isNew h
  table {id table} h outer := by
    have notUnit : id ≠ unit := fun same => apart (same ▸ outer)
    have changed : (a.remember unit helpers).scopes =
      a.scopes.modify unit.index fun held => { held with helpers } := rfl
    exact (scope_modify changed).2 ⟨table, h, by rw [if_neg notUnit]⟩
  loaned _ h := h

/-- Replacing a call of an array intrinsic in what was analysed here. -/
theorem Reforms.lowers {id : ExprId} {expr : Expr} (h : a.expr id = .ok expr)
    (reforms : a.Reforms expr.kind k) (ok : a.Lawful t) (native : a.Native id)
    (isCall : expr.kind.isArrayCall = true) : a.Lowers t homes (a.reform id k) where
  leads := ok.reform h reforms native
  fresh {o held} foundHeld called := by
    obtain ⟨old, foundOld, rfl⟩ := expr_reform.1 foundHeld
    by_cases here : o = id
    · rw [if_pos here, reforms.arrayCall] at called
      cases called
    · rw [if_neg here]
      exact foundOld
  plain {o held} foundHeld notCall := by
    refine expr_reform.2 ⟨held, foundHeld, ?_⟩
    rw [if_neg]
    rintro rfl
    cases h.symm.trans foundHeld
    cases isCall.symm.trans notCall
  symbol := .inl
  new h isNew := absurd_new isNew h
  table h _ := h
  loaned {node held} loaned foundHeld := by
    refine expr_reform.2 ⟨held, foundHeld, ?_⟩
    rw [if_neg]
    rintro rfl
    exact native node .refl (loaned.borrowed ok.sound)

end Arena

/-- Whether an edit that refuses nothing lowers, with a result as described. -/
abbrev Edit.Lowers (terms : Terms) (homes : ScopeId → Prop) {α : Type} (edit : Edit α) (a : Arena)
    (post : α → Arena → Prop) : Prop :=
  Yields .none (Arena.Lowers terms homes) edit a post

end FortranSemantics
