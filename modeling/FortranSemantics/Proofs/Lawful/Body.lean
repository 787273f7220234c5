import FortranSemantics.Analysis.Body
import FortranSemantics.Proofs.Lawful.Declaration

/-!
# Statements in lawful arenas

The second pass over a compilation unit resolves the statements of what the first pass declared.
Their operands are new expressions, the values of assignments are not nested in the targets, and the
blocks they enter are in their scope. The names of an associate construct are the only aliases; they
go into a new scope.
-/

namespace FortranSemantics

open List Arena Edit Stmt

variable {α β : Type} {t : Terms} {a b : Arena} {ctx : Context} {setup : Setup}
  {target value i : ExprId} {span : Span} {tree : Tree.Expr} {id : ExprId} {owner : ScopeId}
  {name : String} {form : SymbolForm} {body : List Stmt} {type : Ty} {indices : List ExprId}
  {fuel : Nat} {step : Analysis α} {post : β → Context → Prop} {receiver : List String}
  {args : List Tree.Arg}

namespace Arena

variable {scope : ScopeId}

/-! ## Resolved statements -/

/-- Whether statements with the given expressions, demands and blocks are resolved in a scope. -/
structure Resolved (arena : Arena) (scope : ScopeId) (exprs : List ExprId) (demands : List Demand)
    (blocks : List SymbolId) : Prop where
  exprs : ∀ id ∈ exprs, arena.Usable id
  separate : ∀ target value, .assigned target value ∈ demands → arena.Separate target value
  typed : ∀ demand ∈ demands, arena.Typed demand
  blocks : ∀ block ∈ blocks, ∃ inner, arena.Has block scope (.block inner)

/-- Whether a statement is resolved in a scope. -/
abbrev ResolvedStmt (arena : Arena) (scope : ScopeId) (statement : Stmt) : Prop :=
  arena.Resolved scope statement.exprs statement.demands statement.blocks

/-- Whether statements are resolved in a scope. -/
abbrev ResolvedBody (arena : Arena) (scope : ScopeId) (body : List Stmt) : Prop :=
  arena.Resolved scope (exprsOf body) (demandsOf body) (blocksOf body)

section

variable {exprs others : List ExprId} {demands more : List Demand} {blocks inner : List SymbolId}

theorem Precedes.resolved (before : a.Precedes b)
    (resolved : a.Resolved scope exprs demands blocks) : b.Resolved scope exprs demands blocks where
  exprs id mem := before.usable (resolved.exprs id mem)
  separate target value mem := by
    obtain ⟨_, _, hasTarget, hasValue, -⟩ := resolved.typed _ mem
    exact before.separate hasTarget.inRange hasValue.inRange (resolved.separate target value mem)
  typed demand mem := before.typed (resolved.typed demand mem)
  blocks block mem := by
    obtain ⟨inner, has⟩ := resolved.blocks block mem
    exact ⟨inner, before.has has⟩

theorem Resolved.ofExprs (usable : ∀ id ∈ exprs, a.Usable id) : a.Resolved scope exprs [] [] :=
  ⟨usable, (fun _ _ => nofun), nofun, nofun⟩

theorem Resolved.append (one : a.Resolved scope exprs demands blocks)
    (other : a.Resolved scope others more inner) :
    a.Resolved scope (exprs ++ others) (demands ++ more) (blocks ++ inner) where
  exprs := forall_mem_append.2 ⟨one.exprs, other.exprs⟩
  separate _ _ mem := (mem_append.1 mem).elim (one.separate _ _) (other.separate _ _)
  typed := forall_mem_append.2 ⟨one.typed, other.typed⟩
  blocks := forall_mem_append.2 ⟨one.blocks, other.blocks⟩

end

theorem Usable.condition (usable : a.Usable id) (typed : a.Typed (.condition id)) :
    a.Resolved scope [id] [.condition id] [] where
  exprs := forall_mem_singleton.2 usable
  separate _ _ mem := nomatch mem_singleton.1 mem
  typed := forall_mem_singleton.2 typed
  blocks := nofun

theorem resolvedBody_nil : a.ResolvedBody scope [] :=
  .ofExprs (by simp [Stmt.exprsOf])

theorem Resolved.appendBody (one : a.ResolvedBody scope first)
    (other : a.ResolvedBody scope second) : a.ResolvedBody scope (first ++ second) := by
  unfold ResolvedBody
  rw [exprsOf_append, demandsOf_append, blocksOf_append]
  exact one.append other

theorem resolvedBody_flatten {groups : List (List Stmt)}
    (each : ∀ group ∈ groups, a.ResolvedBody scope group) :
    a.ResolvedBody scope groups.flatten := by
  induction groups with
  | nil => exact resolvedBody_nil
  | cons first rest ih =>
    exact (each first (.head _)).appendBody (ih fun group mem => each group (.tail _ mem))

theorem resolvedStmt_assignment (targetUsable : a.Usable target) (valueUsable : a.Usable value)
    (apart : a.Separate target value) (typed : a.Typed (.assigned target value)) :
    a.ResolvedStmt scope (.assignment target value) where
  exprs := forall_mem_pair targetUsable valueUsable
  separate _ _ mem := by
    cases mem_singleton.1 mem
    exact apart
  typed := forall_mem_singleton.2 typed
  blocks := nofun

theorem resolvedStmt_block {block : SymbolId} {inner : ScopeId}
    (has : a.Has block scope (.block inner)) : a.ResolvedStmt scope (.block block) where
  exprs := nofun
  separate _ _ := nofun
  typed := nofun
  blocks := forall_mem_singleton.2 ⟨inner, has⟩

theorem Resolved.single (resolved : a.ResolvedStmt scope stmt) : a.ResolvedBody scope [stmt] := by
  unfold ResolvedBody
  rw [exprsOf, demandsOf, blocksOf]
  exact resolved.append resolvedBody_nil

theorem Resolved.lawfulBody (resolved : a.ResolvedBody scope body) (own : a.Own owner) :
    a.LawfulBody t owner scope body where
  exprs id mem := (resolved.exprs id mem).1
  separate := resolved.separate
  typed demand mem := .inr (resolved.typed demand mem)
  blocks := resolved.blocks
  side := .inr (.inr ⟨own, fun id mem => (resolved.exprs id mem).2⟩)

/-! ## Frozen subscripts -/

theorem IsVar.separate (ref : a.IsVar target) (value : ExprId) : a.Separate target value := by
  obtain ⟨held, sym, isHeld, refers⟩ := ref
  intro expr h isCall nested
  rcases Relation.ReflTransGen.cases_head nested with same | ⟨child, ⟨other, foundOther, mem⟩, _⟩
  · rw [← same, isHeld] at h
    cases h
    rw [refers] at isCall
    cases isCall
  · cases isHeld.symm.trans foundOther
    rw [refers] at mem
    cases mem

/-- A step that changes no expressions but those nested in the given ones. -/
structure Freezes (terms : Terms) (roots : List ExprId) (arena later : Arena) : Prop
    extends arena.Leads terms later, arena.Spares roots later

instance {roots : List ExprId} : Progress (Arena.Freezes t roots) where
  trans one other := ⟨Progress.trans one.toLeads other.toLeads,
    one.toSpares.trans one.before other.before other.toSpares⟩
  arrive one := ⟨Progress.arrive one.toLeads, .ofKept
    (fun root mem => (one.inRange root mem).trans_le one.before.exprs_le) fun _ _ h => h⟩

theorem Freezes.widen (freezes : a.Freezes t roots b)
    (lt : ∀ root ∈ more, root.index < a.exprs.size)
    (covered : ∀ root ∈ roots, ∃ other ∈ more, a.Reaches other root) : a.Freezes t more b :=
  ⟨freezes.toLeads, freezes.toSpares.widen lt covered⟩

/-- What stands for a subscript that is frozen: the subscript, or a variable. -/
def Frozen (arena : Arena) (index frozen : ExprId) : Prop :=
  frozen = index ∨ arena.IsVar frozen ∧ arena.Native frozen

theorem Precedes.frozen {frozen : ExprId} (before : a.Precedes b) (held : a.Frozen i frozen) :
    b.Frozen i frozen := by
  rcases held with same | ⟨ref, native⟩
  · exact .inl same
  · obtain ⟨expr, _, h, _⟩ := ref
    exact .inr ⟨before.isVar ⟨_, _, h, ‹_›⟩, before.native (expr_inRange h) native⟩

end Arena

namespace Edit

open Arena (Freezes)

variable {scope : ScopeId} {name : String}

section

variable (lawful : a.Lawful t)

include lawful

theorem addVar_freezes (lt : sym.index < a.symbols.size) (law : a.LawfulType t type) :
    Yields t.tolerated (Freezes t []) (addVar sym type span) a fun id next =>
      next.IsVar id ∧ next.Usable id ∧ next.HasType id type := by
  have works : (addVar sym type span).Works t a fun id next =>
      next.Since 0 id ∧ next.IsVar id ∧ next.HasType id type :=
        addVar_works lawful (Nat.zero_le _) lt law
  obtain ⟨led, since, ref, has⟩ := works.result rfl
  exact .of_ok rfl ⟨⟨led, .ofKept (by simp) fun _ _ h =>
    expr_addExpr.2 (.inl h)⟩, ref, since.usable, has⟩

/-- A subscript is frozen by a new variable. No expression changes. -/
theorem freezeIndex_freezes (inner : a.Inner scope) (own : a.Own scope) (usable : a.Usable i) :
    Yields t.tolerated (Freezes t []) (freezeIndex name scope i) a fun ans next =>
      next.Frozen i ans.1 ∧ next.ResolvedBody scope ans.2 := by
  obtain ⟨constant, asked⟩ := lawful.exists_constant? usable.1
  have none : ∀ root ∈ ([] : List ExprId), root.index < a.exprs.size := by simp
  refine ask_bind asked ?_
  cases constant with
  | some value =>
    exact Yields.pure ⟨lawful.leads, .ofKept none fun _ _ h => h⟩ ⟨.inl rfl, resolvedBody_nil⟩
  | none =>
    obtain ⟨expr, h⟩ := exists_expr usable.1
    obtain ⟨chosen, asked, free⟩ := exists_uniqueName inner.1 ("__" ++ name ++ "_index")
    have law : a.LawfulType t expr.type := (lawful.expr h).type
    have entry : a.LawfulEntry t scope chosen (.variable (.ofType expr.type)) :=
      .ofFree free inner rfl (fun _ origin => by cases origin) (.ofType law .localVar) (.inr own)
    have entered : a.Freezes t [] (a.enter scope chosen (.variable (.ofType expr.type))) :=
      ⟨entry.leads lawful (fun _ same => by cases same; exact nofun),
        .ofKept none fun _ _ h => h⟩
    refine ask_bind h (ask_bind asked (overwrite_new_runs rfl inner.1 ?_))
    have lt := symbol_inRange (symbol_enter.2 (.inr ⟨rfl, rfl⟩) :
      (a.enter scope chosen (.variable (.ofType expr.type))).symbol ⟨a.symbols.size⟩ = .ok _)
    refine Yields.after entered
      (.bind (addVar_freezes entered.lawful lt (entered.before.lawfulType law))
      fun target first led ⟨isVar, targetUsable, hasTarget⟩ => ?_)
    have before := entered.before.trans led.before
    refine .bind (addVar_freezes led.lawful (lt.trans_le led.before.symbols_le)
      (before.lawfulType law)) fun frozen second further ⟨isVarToo, frozenUsable, _⟩ => ?_
    have stays := further.before.isVar isVar
    have kept := before.trans further.before
    have typed : second.Typed (.assigned target i) :=
      ⟨expr.type, expr.type, further.before.hasType hasTarget,
      kept.hasType ⟨expr, h, rfl⟩, .inr rfl, .inl rfl⟩
    exact .pure (Progress.arrive further)
      ⟨.inr ⟨isVarToo, frozenUsable.2⟩, .single (resolvedStmt_assignment
      (further.before.usable targetUsable) (kept.usable usable) (stays.separate i) typed)⟩

/-- The subscripts of an element are frozen one after another. -/
theorem freezeIndices_freezes (inner : a.Inner scope) (own : a.Own scope)
    (usable : ∀ i ∈ indices, a.Usable i) :
    Yields t.tolerated (Freezes t []) (indices.mapM (freezeIndex name scope)) a fun answers next =>
      List.Forall₂ (fun i ans => next.Frozen i ans.1 ∧
      next.ResolvedBody scope ans.2) indices answers :=
  Yields.mapM ⟨lawful.leads, .ofKept (by simp) fun _ _ h => h⟩
    (fun _ _ _ _ led held => ⟨led.before.frozen held.1, led.before.resolved held.2⟩)
    fun i mem _ led => freezeIndex_freezes led.lawful (led.before.inner inner) (led.before.own own)
      (led.before.usable (usable i mem))

end

theorem reforms_frozen (each : List.Forall₂ a.Frozen indices frozen) :
    a.Reforms (.arrayItem arr indices) (.arrayItem arr frozen) where
  constant _ same := by cases same
  var _ same := by cases same
  arrayCall := rfl
  children child mem := by
    rcases mem_cons.1 mem with rfl | mem
    · exact .inl (.head _)
    · obtain ⟨i, known, held⟩ := exists_of_mem_right each mem
      exact held.imp (fun same : child = i => mem_cons_of_mem _ (same ▸ known)) id
  leaf none := by cases none
  form _ := trivial

/-- The subscripts of a designator are frozen from the inside out. Only expressions nested in it
change. -/
theorem freezeWithin_freezes (lawful : a.Lawful t) (inner : a.Inner scope) (own : a.Own scope)
    (within : a.Within fuel id) (native : a.Native id) :
    Yields t.tolerated (Freezes t [id]) (freezeWithin name scope fuel id) a fun body next =>
      next.ResolvedBody scope body := by
  induction fuel generalizing id with
  | zero => exact within.elim
  | succ fuel ih =>
    obtain ⟨expr, h, deeper⟩ := within
    have lt := expr_inRange h
    have single : ∀ root ∈ [id], root.index < a.exprs.size := fun root listed =>
      mem_singleton.1 listed ▸ lt
    have nested : ∀ child ∈ expr.kind.children, a.Reaches id child := fun child listed =>
      .single ⟨expr, h, listed⟩
    -- What happens inside a part of the designator happens inside the designator.
    have inside : ∀ child ∈ expr.kind.children, Yields t.tolerated (Freezes t [child])
        (freezeWithin name scope fuel child) a fun body next => next.ResolvedBody scope body :=
      fun child listed => ih (deeper child listed) (native.reached (nested child listed))
    have widened : ∀ child ∈ expr.kind.children, ∀ next, a.Freezes t [child] next →
        a.Freezes t [id] next := fun child listed next led =>
      led.widen single fun root isChild =>
        ⟨id, (.head _), mem_singleton.1 isChild ▸ nested child listed⟩
    refine ask_bind h ?_
    split
    case h_1 arr indices form =>
      rw [form] at inside widened nested
      have isChild : a.Child id arr := ⟨expr, h, form ▸ (.head _)⟩
      refine .bind (inside arr (.head _)) fun entry mid ⟨led, resolved⟩ => ?_
      have kept : mid.expr id = .ok expr := led.spared h fun root listed =>
        mem_singleton.1 listed ▸ lawful.not_reaches_of_child isChild
      refine .bind (freezeIndices_freezes led.lawful (led.before.inner inner) (led.before.own own)
        fun i listed => led.before.usable ⟨lawful.reaches_inRange lt (nested i (.tail _ listed)),
          native.reached (nested i (.tail _ listed))⟩) fun answers last ⟨further, each⟩ => ?_
      have again : last.expr id = .ok expr := further.spared kept (by simp)
      have reforms : last.Reforms expr.kind (.arrayItem arr (answers.map (·.1))) :=
        form ▸ reforms_frozen (forall₂_map_right_iff.2 (each.imp fun _ _ held => held.1))
      have before := led.before.trans further.before
      have reformed := further.lawful.reform again reforms (before.native lt native)
      have replaced : last.Freezes t [id] (last.reform id (.arrayItem arr (answers.map (·.1)))) :=
        ⟨reformed, spares_reform (expr_inRange again)⟩
      have frozen : mid.Freezes t [id] last := further.widen
        (fun root listed => mem_singleton.1 listed ▸ expr_inRange kept) (by simp)
      refine Runs.bind_ok (setExprKind_eq (expr_inRange again) _) (.pure ⟨?_, ?_⟩)
      · exact Progress.trans (widened arr (.head _) mid led) (Progress.trans frozen replaced)
      · refine (further.before.trans reformed.before).resolved resolved |>.appendBody ?_
        rw [flatMap_def]
        refine resolvedBody_flatten fun group listed => ?_
        obtain ⟨ans, known, rfl⟩ := mem_map.1 listed
        obtain ⟨_, _, held⟩ := exists_of_mem_right each known
        exact reformed.before.resolved held.2
    case h_2 base mem form =>
      rw [form] at inside widened
      exact Runs.mono (inside base mem_cons_self) fun _ next ⟨led, resolved⟩ =>
        ⟨widened base mem_cons_self next led, resolved⟩
    case h_3 => exact Yields.pure ⟨lawful.leads, .ofKept single fun _ _ h => h⟩ resolvedBody_nil

theorem freezeSubscripts_works (lawful : a.Lawful t) (inner : a.Inner scope) (own : a.Own scope)
    (usable : a.Usable id) :
    (freezeSubscripts name scope id).Works t a fun body next => next.ResolvedBody scope body := by
  have within : a.Within (a.exprs.size + 1) id := (lawful.depth usable.1).mono (Nat.le_succ _)
  exact Runs.bind_ok rfl (.mono (freezeWithin_freezes lawful inner own within usable.2)
    fun _ _ ⟨led, resolved⟩ => ⟨led.toLeads, resolved⟩)

end Edit

/-! ## Associate names -/

namespace Arena

variable {bound : Nat}

/-- A step that fills a scope from a given one on. Unlike other steps it may enter names for
expressions there. -/
structure Fills (terms : Terms) (bound : Nat) (arena later : Arena) : Prop where
  lawful : later.Lawful terms
  before : arena.Precedes later
  ordinary : ∀ {id symbol}, later.symbol id = .ok symbol → symbol.kind.isOrdinary = false →
    bound ≤ symbol.owner.index ∨ ∃ old, arena.symbol id = .ok old ∧ old.kind.isOrdinary = false
  keeps : arena.Keeps terms.fixed later

instance : Progress (Arena.Fills t bound) where
  trans {first second third} one other :=
    { lawful := other.lawful
      before := one.before.trans other.before
      ordinary := fun {id sym} h plain => by
        rcases other.ordinary h plain with new | ⟨old, isOld, plainOld⟩
        · exact .inl new
        · obtain ⟨held, isHeld, kept⟩ := other.before.symbol isOld
          cases h.symm.trans isHeld
          exact kept.owner ▸ one.ordinary isOld plainOld
      keeps := one.keeps.trans one.before.scopes_le other.before other.keeps }
  arrive one := ⟨one.lawful, .refl _, fun {_ sym} h plain => .inr ⟨sym, h, plain⟩,
    .ofSymbols (.refl _) (fun _ st => st) rfl⟩

theorem Leads.fills (led : a.Leads t b) (le : bound ≤ a.scopes.size) : a.Fills t bound b :=
  ⟨led.lawful, led.before, fun h plain => (led.grown.ordinary h plain).imp (le.trans) id,
    led.keeps⟩

theorem Leads.filled (led : a.Leads t b) (fills : b.Fills t a.scopes.size last) :
    a.Leads t last where
  lawful := fills.lawful
  grown :=
    { toPrecedes := led.before.trans fills.before
      ordinary := (Progress.trans (led.fills (Nat.le_refl _)) fills).ordinary }
  keeps := led.keeps.trans led.grown.scopes_le fills.before fills.keeps

theorem LawfulEntry.fills {scope : ScopeId} (entry : a.LawfulEntry t scope name k)
    (lawful : a.Lawful t) (le : bound ≤ scope.index) : a.Fills t bound (a.enter scope name k) where
  lawful := entry.lawful lawful
  before := entry.precedes
  ordinary {id sym} h plain := by
    rcases symbol_enter.1 h with old | ⟨_, rfl⟩
    · exact .inr ⟨sym, old, plain⟩
    · exact .inl le
  keeps := entry.keeps lawful

end Arena

namespace Context

variable {bound : Nat} {scope : ScopeId} {next : Context}

theorem Follows.lawfulFilled (led : ctx.Follows t (Arena.Fills t bound) next) : next.Lawful t :=
  ⟨led.arena.lawful, led.typings⟩

theorem Ready.filled (ready : ctx.Ready t scope) (led : ctx.Follows t (Arena.Fills t bound) next) :
    next.Ready t scope :=
  ready.kept led.lawfulFilled led.arena.before

end Context

namespace Analysis

variable {scope : ScopeId} {bound : Nat}

theorem Works.fills {post : α → Context → Prop} (works : step.Works t ctx post)
    (le : bound ≤ ctx.arena.scopes.size) :
    Yields t.tolerated (Context.Follows t (Arena.Fills t bound)) step ctx post :=
  Runs.mono works fun _ _ ⟨led, held⟩ => ⟨⟨led.arena.fills le, led.typings⟩, held⟩

theorem Works.filled {opened : Context} {post : α → Context → Prop}
    (opening : ctx.Follows t (Arena.Leads t) opened)
    (fills : Yields t.tolerated (Context.Follows t (Arena.Fills t ctx.arena.scopes.size)) step
      opened post) :
    Runs t.tolerated step opened fun res next => ctx.Follows t (Arena.Leads t) next ∧
    post res next :=
  Runs.mono fills fun _ _ ⟨led, held⟩ => ⟨⟨opening.arena.filled led.arena, led.typings⟩, held⟩

/-- An associate name stands for a designator or is assigned. -/
theorem associateName_fills (ready : ctx.Ready t scope) (le : bound ≤ scope.index)
    (usable : ctx.arena.Usable selector) :
    Yields t.tolerated (Context.Follows t (Arena.Fills t bound))
    (associateName scope name selector span) ctx
      fun body next => next.arena.ResolvedBody scope body := by
  have room : bound ≤ ctx.arena.scopes.size := le.trans (ready.inner.1.le)
  obtain ⟨expr, h⟩ := exists_expr usable.1
  have law := (ready.lawful.expr h).type
  refine ask_bind h ?_
  dsimp only
  split
  · have aliased : ctx.arena.LawfulVariable t
        { Variable.ofType expr.type with type := none, aliasOf := some selector } :=
      { type := fun _ isType => by cases isType
        typed := fun _ => rfl
        init := fun _ isInit => by cases isInit
        value := fun _ isValue => by cases isValue
        aliased := fun _ isAlias => by cases isAlias; exact usable.1 }
    have named : Yields t.tolerated (Context.Follows t (Arena.Fills t bound))
        (discard (declareVariable scope name
          { Variable.ofType expr.type with type := none, aliasOf := some selector } span)) ctx
          fun _ _ => True := by
      refine .map (declareVariable_runs ready fun free journal same => ?_)
      have entry : ctx.arena.LawfulEntry t scope name (.variable
          { Variable.ofType expr.type with type := none, aliasOf := some selector }) :=
        .ofFree free ready.inner rfl (fun _ origin => by cases origin) aliased (.inr ready.own)
      exact ⟨⟨entry.fills ready.lawful le, same ▸ entry.precedes.lawfulTypings ready.typings⟩,
        trivial⟩
    refine Yields.bind named fun _ mid led _ => ?_
    have inside := ready.filled led
    exact Works.fills (lift_works inside.toLawful
      (freezeSubscripts_works inside.lawful inside.inner inside.own
      (led.arena.before.usable usable))) (room.trans led.arena.before.scopes_le)
  · refine Works.fills ?_ room
    refine .bind (declareVariable_works ready (.ofType law .localVar) nofun)
      fun sym mid led ⟨_, declared⟩ => ?_
    have isTarget : (liftM (addVar sym expr.type span) : Analysis ExprId).Works t mid fun id next =>
        next.arena.Since 0 id ∧ next.arena.IsVar id ∧ next.arena.HasType id expr.type :=
      lift_works led.lawful (addVar_works led.lawful.lawful (Nat.zero_le _)
        (symbol_inRange declared) (led.arena.before.lawfulType law))
    refine .bind isTarget fun target last further ⟨since, isVar, hasTarget⟩ => ?_
    have before := led.arena.before.trans further.arena.before
    exact .pure further.lawful.here
      (.single (resolvedStmt_assignment since.usable (before.usable usable)
      (isVar.separate selector) ⟨expr.type, expr.type, hasTarget, before.hasType ⟨expr, h, rfl⟩,
        .inr rfl, .inl rfl⟩))

/-- The names of an associate construct are bound one after another. -/
theorem associateNames_fills {associations : List Tree.Association} {selectors : List ExprId}
    (ready : ctx.Ready t scope) (le : bound ≤ scope.index)
    (usable : ∀ selector ∈ selectors, ctx.arena.Usable selector) :
    Yields t.tolerated (Context.Follows t (Arena.Fills t bound))
    (associateNames scope associations selectors)
      ctx fun body next => next.arena.ResolvedBody scope body := by
  have room : bound ≤ ctx.arena.scopes.size := le.trans (ready.inner.1.le)
  have here : ctx.Follows t (Arena.Fills t bound) ctx :=
    ⟨ready.lawful.leads.fills room, ready.typings⟩
  have each : Yields t.tolerated (Context.Follows t (Arena.Fills t bound))
      ((associations.zip selectors).mapM fun pair =>
        associateName scope (Text.lowercase pair.1.name) pair.2 pair.1.expr.span) ctx
          fun groups next =>
      ∀ group ∈ groups, next.arena.ResolvedBody scope group :=
    Yields.mapM_all here (fun _ _ _ led held => led.arena.before.resolved held)
      fun pair mem mid led =>
      associateName_fills (ready.filled led) le
      (led.arena.before.usable (usable pair.2 (of_mem_zip mem).2))
  exact .bind each fun groups last led held =>
    Yields.pure (Progress.arrive led) (resolvedBody_flatten held)

/-! ## Blocks -/

/-- A block gets a new scope under a free name. -/
theorem openBlock_works (ready : ctx.Ready t scope) :
    (openBlock wanted scope span).Works t ctx fun ans next => ans.2 = ⟨ctx.arena.scopes.size⟩ ∧
    next.Open t ans.2 ∧
        next.arena.Has ans.1 scope (.block ans.2) := by
  obtain ⟨name, chosen, _⟩ := exists_uniqueName ready.inner.1 wanted
  refine ask_bind chosen (Runs.bind_ok (addScoped_eq fun _ => rfl) ?_)
  have openable : ctx.arena.Openable t scope
      (.block { scope := ⟨ctx.arena.scopes.size⟩, body := [] }) :=
    { opens := rfl
      arguments := rfl
      settled := rfl
      origin := fun _ origin => by cases origin
      law := lawfulBody_nil _ _
      empty := fun _ mem => by cases mem }
  refine entered_works ready.toLawful ready.room ready.own openable rfl
    (declare_opening ready.lawful ready.inner.1 openable) fun opened led isOpen stands => ?_
  exact .pure (Progress.arrive led) ⟨rfl, isOpen, _, stands, rfl, rfl⟩

theorem note_bind {next : Unit → Analysis β}
    (rest : Runs t.tolerated (next ()) ⟨ctx.arena, change ctx.journal⟩ post) :
    Runs t.tolerated (note change >>= next) ctx post :=
  Runs.bind_ok rfl rest

theorem openBlockConstruct_works (ready : ctx.Ready t scope) :
    (openBlockConstruct scope span).Works t ctx fun ans next =>
      next.Open t ans.2 ∧ next.arena.Has ans.1 scope (.block ans.2) := by
  refine note_bind (Runs.bind_ok rfl ?_)
  have noted : Context.Ready t scope
      ⟨ctx.arena, { ctx.journal with blocks := ctx.journal.blocks + 1 }⟩ :=
    ⟨⟨ready.lawful, ready.typings⟩, ready.inner, ready.own, ready.room⟩
  exact .mono (openBlock_works noted) fun _ _ ⟨led, _, held⟩ => ⟨⟨led.arena, led.typings⟩, held⟩

theorem openAssociateConstruct_works (ready : ctx.Ready t scope) :
    (openAssociateConstruct scope span).Works t ctx fun ans next =>
      ans.2 = ⟨ctx.arena.scopes.size⟩ ∧ next.Open t ans.2 ∧
        next.arena.Has ans.1 scope (.block ans.2) := by
  refine note_bind (Runs.bind_ok rfl ?_)
  have noted : Context.Ready t scope
      ⟨ctx.arena, { ctx.journal with associates := ctx.journal.associates + 1 }⟩ :=
    ⟨⟨ready.lawful, ready.typings⟩, ready.inner, ready.own, ready.room⟩
  exact .mono (openBlock_works noted) fun _ _ ⟨led, held⟩ => ⟨⟨led.arena, led.typings⟩, held⟩

theorem setBody_works {id : SymbolId} (lawful : ctx.Lawful t)
    (own : ctx.arena.Own owner) (has : ctx.arena.Has id owner form)
    (opens : form.scope? = some scope) (resolved : ctx.arena.ResolvedBody scope body)
    (changes : ∀ k : SymbolKind, k.form = form → change k = k.withBody body) :
    (liftM (modifyKind id change) : Analysis Unit).Works t ctx fun _ _ => True := by
  obtain ⟨sym, h, rfl, rfl⟩ := has
  have revision := Arena.LawfulRevision.withBody lawful.lawful h
    ((SymbolKind.scope?_form _).symm.trans opens) own (resolved.lawfulBody own)
  exact lift_works lawful (modifyKind_to_works lawful.lawful (changes sym.kind rfl) revision)

/-! ## Operands of statements -/

section

variable [t.Wary] (ready : ctx.Ready t scope)
include ready

theorem condition_works : (condition setup scope tree).Works t ctx fun id next =>
      next.arena.Resolved scope [id] [.condition id] [] := by
  refine .bind (expression_works ready (Nat.zero_le _)) fun id mid led since => ?_
  refine typeOf_bind led.arena.lawful since.2 fun type has law => ?_
  obtain ⟨text, asked⟩ := led.arena.lawful.exists_typeName law
  dsimp only
  split
  · exact ask_bind asked Runs.reject_bind
  · next holds =>
    have both : type.isLogical = true ∧ type.isScalar = true := by simpa using holds
    exact Yields.pure led.lawful.here (since.usable.condition ⟨type, has, both.1, eq_of_beq both.2⟩)

theorem loopBound_works (has : ctx.arena.HasType counter type) (isInteger : type.isInteger = true) :
    (loopBound setup scope type tree).Works t ctx fun id next =>
      next.arena.Usable id ∧ next.arena.Typed (.bound counter id) := by
  have plain := Ty.isPlain_of_isNumeric (Ty.isNumeric_of_isInteger isInteger)
  refine .bind (expression_works ready (Nat.zero_le _)) fun id mid led since => ?_
  refine typeOf_bind led.arena.lawful since.2 fun held hasHeld _ => .guard fun allowed => ?_
  have scalar : held.rank = 0 := by
    have both : held.isInteger = true ∧ held.isScalar = true := by simpa using allowed
    exact eq_of_beq both.2
  refine (lift_works led.lawful (Conversion.insertCast_works led.arena.lawful since hasHeld
    (led.arena.before.lawfulType (ready.lawful.lawfulType has)))).mono
    fun _ _ further ⟨made, own, hasOwn, rank, same⟩ => ?_
  exact ⟨made.usable, type, own, (led.arena.before.trans further.arena.before).hasType has, hasOwn,
    same plain, rank.trans scalar⟩

omit [t.Wary] in
theorem loopCounter_works : (loopCounter setup scope name span).Works t ctx fun ans next =>
    next.arena.Usable ans.1 ∧
      next.arena.IsVar ans.1 ∧ next.arena.HasType ans.1 ans.2 ∧ ans.2.isInteger = true ∧
      ans.2.rank = 0 := by
  refine environment_bind fun env same => ?_
  refine Yields.bind (lift_works ready.toLawful
    (Expression.nameValue_makes (ready.resolving same (Nat.zero_le _)))) fun id mid led since => ?_
  obtain ⟨expr, h⟩ := exists_expr since.2
  refine ask_bind h ?_
  split
  · next sym refers =>
    refine Runs.guard fun allowed => ?_
    have both : expr.type.isInteger = true ∧ expr.type.isScalar = true := by simpa using allowed
    exact Yields.pure led.lawful.here
      ⟨since.usable, ⟨expr, sym, h, refers⟩, ⟨expr, h, rfl⟩, both.1, eq_of_beq both.2⟩
  · exact Runs.reject _ _

theorem stopCode_works : (stopCode setup scope span tree).Works t ctx fun id next =>
    next.arena.Usable id := by
  refine .bind (expression_works ready (Nat.zero_le _)) fun id mid led since => ?_
  exact typeOf_bind led.arena.lawful since.2 fun _ _ _ => .guard fun _ =>
    Yields.pure led.lawful.here since.usable

theorem bindCall_works : (bindCall setup scope receiver name args span).Works t ctx fun call next =>
    call.Lawful next.arena 0 := by
  refine environment_bind fun env same => ?_
  have resolving := ready.resolving same (Nat.zero_le _)
  split
  · obtain ⟨ans, asked, known⟩ := ready.lawful.exists_lookup ready.inner.1 name
    refine ask_bind asked ?_
    cases ans with
    | none => exact .reject _ _
    | some sym =>
      refine Yields.bind (lift_works ready.toLawful (Expression.resolveArgs_works args resolving))
        fun args mid led since => ?_
      exact lift_works led.lawful (Expression.bindProcedureCall_works led.arena.lawful
        (led.arena.before.inner ready.inner)
        ((known sym rfl).trans_le led.arena.before.symbols_le) since)
  · rename_i isCalled
    have some : receiver ≠ [] := fun none => isCalled (isEmpty_iff.2 none)
    refine Yields.bind (lift_works ready.toLawful (Expression.designator_makes resolving some))
      fun base mid led isSince => ?_
    refine Yields.bind (lift_works led.lawful
      (Expression.resolveArgs_works args (resolving.after led.arena)))
      fun args last further since => ?_
    refine Runs.mono (lift_quiet (Expression.bindTypeBoundCall_quiet further.arena.lawful
      (further.arena.before.since isSince) since)) ?_
    rintro call _ ⟨rfl, law⟩
    exact ⟨further.lawful.here, law⟩

theorem callStmt_works : (callStmt setup scope receiver name args span).Works t ctx fun stmt next =>
      next.arena.ResolvedStmt scope stmt := by
  refine .bind (bindCall_works ready) fun call mid led law => ?_
  obtain ⟨ans, asked, _⟩ := led.arena.lawful.exists_returnType? law.function
  obtain ⟨sym, h⟩ := exists_symbol law.function
  refine ask_bind asked ?_
  split
  · exact ask_bind (name_eq_ok.2 ⟨sym, h, rfl⟩) Runs.reject_bind
  · refine Yields.pure led.lawful.here (.ofExprs fun id mem => ?_)
    rcases mem_append.1 mem with isArg | isReceiver
    · obtain ⟨slot, known, same⟩ := mem_filterMap.1 isArg
      exact (law.args id (same ▸ known)).usable
    · exact (law.receiver id (Option.mem_toList.1 isReceiver)).usable

end

end Analysis

/-! ## Assignments -/

namespace Arena

/-- The innermost part of a designator is the form of an expression. -/
theorem Within.exists_designatorBase (within : a.Within fuel id) :
    ∃ node expr, a.designatorBaseWithin fuel id = .ok expr.kind ∧ a.expr node = .ok expr := by
  induction fuel generalizing id with
  | zero => exact within.elim
  | succ fuel ih =>
    obtain ⟨expr, h, deeper⟩ := within
    simp only [designatorBaseWithin, h, bind, Except.bind]
    split
    case h_1 arr indices form => exact ih (deeper arr (form ▸ (.head _)))
    case h_2 base mem form => exact ih (deeper base (form ▸ (.head _)))
    case h_3 => exact ⟨id, expr, rfl, h⟩

theorem Precedes.separate_new (before : a.Precedes b) (lawful : a.Lawful t)
    (lt : target.index < a.exprs.size) (new : a.exprs.size ≤ value.index) :
    b.Separate target value := by
  intro expr h isCall nested
  rcases before.reaches lt nested with old | ⟨held, sym, isHeld, refers⟩
  · exact absurd (lawful.reaches_inRange lt old) (Nat.not_lt_of_le new)
  · cases h.symm.trans isHeld
    rw [refers] at isCall
    cases isCall

end Arena

namespace Analysis

variable {scope : ScopeId}

theorem checkAssignable_quiet (lawful : ctx.arena.Lawful t)
    (lt : target.index < ctx.arena.exprs.size) :
    Quiet t.tolerated (checkAssignable target span) ctx fun _ => True := by
  obtain ⟨node, expr, asked, h⟩ :=
    Arena.Within.exists_designatorBase ((lawful.depth lt).mono (Nat.le_succ _))
  have form := (lawful.expr h).form
  refine ask_bind asked ?_
  split
  case h_1 sym refers =>
    rw [refers] at form
    obtain ⟨held, isHeld⟩ := exists_symbol form
    obtain ⟨ans, asked, _⟩ := lawful.exists_asVariable? form
    refine ask_bind (name_eq_ok.2 ⟨held, isHeld, rfl⟩) (ask_bind asked ?_)
    cases ans with
    | none => exact Runs.reject _ _
    | some info => exact Runs.guard fun _ => Runs.guard fun _ => Quiet.pure trivial
  case h_2 => exact Runs.reject _ _

theorem lintNarrowing_works {src target : Ty} (lawful : ctx.Lawful t)
    (sourceLaw : ctx.arena.LawfulType t src) (targetLaw : ctx.arena.LawfulType t target) :
    (lintNarrowing src target span).Works t ctx fun _ _ => True := by
  obtain ⟨one, askedOne⟩ := lawful.lawful.exists_typeName sourceLaw.element
  obtain ⟨other, askedOther⟩ := lawful.lawful.exists_typeName targetLaw.element
  exact ask_bind askedOne (ask_bind askedOther
    (Runs.of_ok rfl ⟨⟨lawful.lawful.leads, lawful.typings⟩, trivial⟩))

/-- The value of an assignment is resolved after its target. -/
theorem assignment_works [t.Wary] {target value : Tree.Expr} (ready : ctx.Ready t scope) :
    (assignment setup scope target value span).Works t ctx fun stmt next =>
      next.arena.ResolvedStmt scope stmt := by
  refine Yields.bind (expression_works ready (Nat.zero_le _)) fun target mid led targetSince => ?_
  refine Quiet.bind (checkAssignable_quiet led.arena.lawful targetSince.2) fun _ _ => ?_
  refine Yields.bind (expression_works (ready.after led) (Nat.le_refl _))
    fun value last further valueSince => ?_
  refine typeOf_bind further.arena.lawful (further.arena.before.since targetSince).2
    fun targetType hasTarget targetLaw => ?_
  refine typeOf_bind further.arena.lawful valueSince.2 fun valueType _ valueLaw => ?_
  refine Yields.bind (lift_works further.lawful
    (Conversion.forAssignment_works further.arena.lawful valueSince
    targetLaw)) fun ans final converted ⟨since, type, has, ranks, takes⟩ => ?_
  obtain ⟨value, narrowing⟩ := ans
  have before := further.arena.before.trans converted.arena.before
  have resolved : final.arena.ResolvedStmt scope (.assignment target value) :=
    resolvedStmt_assignment
    (before.usable targetSince.usable) since.usable
      (before.separate_new led.arena.lawful targetSince.2 since.1.1)
    ⟨targetType, type, converted.arena.before.hasType hasTarget, has, ranks, takes⟩
  cases narrowing with
  | false => exact .pure converted.lawful.here resolved
  | true =>
    refine .bind (lintNarrowing_works converted.lawful (converted.arena.before.lawfulType valueLaw)
      (converted.arena.before.lawfulType targetLaw)) fun _ noted led _ => ?_
    exact .pure led.lawful.here (led.arena.before.resolved resolved)

/-! ## Statements -/

theorem operand?_works {item : Option α} {step : α → Analysis ExprId}
    {holds : ExprId → Context → Prop}
    (lawful : ctx.Lawful t) (each : ∀ given, (step given).Works t ctx holds) :
    (item.mapM step).Works t ctx fun ans next => ∀ id ∈ ans, holds id next := by
  cases item with
  | none => exact .pure lawful.here fun _ given => by cases given
  | some given => exact .map ((each given).mono fun _ _ _ held _ same =>
    Option.mem_some.1 same ▸ held)

mutual

theorem statement_works [t.Wary] (loads : setup.library.Loads t) :
    ∀ (tree : Tree.Stmt) {inLoop : Bool} {scope : ScopeId} {ctx : Context}, ctx.Ready t scope →
      (statement setup inLoop scope tree).Works t ctx fun stmt next =>
      next.arena.ResolvedStmt scope stmt
  | .assign _ _ _, _, _, _, ready => assignment_works ready
  | .branch cond thenBody none, inLoop, scope, ctx, ready => by
    refine .bind (condition_works ready) fun cond mid led isCond => ?_
    refine .bind (statements_works loads thenBody (ready.after led))
      fun body last further resolved => ?_
    exact .pure further.lawful.here
      ((further.arena.before.resolved isCond).append (resolved.append resolvedBody_nil))
  | .branch cond thenBody (some elseBody), inLoop, scope, ctx, ready => by
    refine .bind (condition_works ready) fun cond mid led isCond => ?_
    refine .bind (statements_works loads thenBody (ready.after led))
      fun body last further resolved => ?_
    have inside := (ready.after led).after further
    refine .bind (statements_works loads elseBody inside) fun orelse final again resolvedToo => ?_
    have before := further.arena.before.trans again.arena.before
    exact .pure again.lawful.here ((before.resolved isCond).append
      ((again.arena.before.resolved resolved).append resolvedToo))
  | .loop counter start final step body span, inLoop, scope, ctx, ready => by
    refine .bind (loopCounter_works ready)
      fun ⟨counter, type⟩ one led ⟨counterUsable, isVar, has, isInteger, scalar⟩ => ?_
    have readyOne := ready.after led
    refine .bind (loopBound_works readyOne has isInteger) fun start two ledTwo isStart => ?_
    have readyTwo := readyOne.after ledTwo
    refine .bind (loopBound_works readyTwo (ledTwo.arena.before.hasType has) isInteger)
      fun last three ledThree isLast => ?_
    have readyThree := readyTwo.after ledThree
    have before := ledTwo.arena.before.trans ledThree.arena.before
    refine .bind (operand?_works readyThree.toLawful fun _ =>
      loopBound_works readyThree (before.hasType has) isInteger) fun step four ledFour isStep => ?_
    refine .bind (statements_works loads body (readyThree.after ledFour))
      fun body five ledFive resolved => ?_
    have further := ledFour.arena.before.trans ledFive.arena.before
    have all := before.trans further
    -- what holds of a bound in the arena where it was made holds in the last one
    have bounds : ∀ id ∈ [start, last] ++ step.toList,
        five.arena.Usable id ∧ five.arena.Typed (.bound counter id) := by
      have kept {mid : Arena} {id : ExprId} (led : mid.Precedes five.arena)
          (isBound : mid.Usable id ∧ mid.Typed (.bound counter id)) :
          five.arena.Usable id ∧ five.arena.Typed (.bound counter id) :=
          isBound.imp led.usable led.typed
      refine forall_mem_cons.2 ⟨kept (ledThree.arena.before.trans further) isStart,
        forall_mem_cons.2 ⟨kept further isLast, fun id mem => ?_⟩⟩
      exact kept ledFive.arena.before (isStep id (Option.mem_toList.1 mem))
    have head : five.arena.Resolved scope (counter :: ([start, last] ++ step.toList))
        (.counter counter :: ([start, last] ++ step.toList).map (.bound counter)) [] := {
      exprs := forall_mem_cons.2 ⟨all.usable counterUsable, fun id mem => (bounds id mem).1⟩
      separate := fun target value mem => by simp at mem
      typed := forall_mem_cons.2 ⟨⟨all.isVar isVar, type, all.hasType has, isInteger, scalar⟩,
        forall_mem_map.2 fun id mem => (bounds id mem).2⟩
      blocks := nofun }
    exact .pure ledFive.lawful.here (head.append resolved)
  | .loopWhile cond body, inLoop, scope, ctx, ready => by
    refine .bind (condition_works ready) fun cond mid led isCond => ?_
    refine .bind (statements_works loads body (ready.after led))
      fun body last further resolved => ?_
    exact .pure further.lawful.here ((further.arena.before.resolved isCond).append resolved)
  | .call _ _ _ _, _, _, _, ready => callStmt_works ready
  | .print items, inLoop, scope, ctx, ready => by
    have each : (items.mapM (expression setup scope)).Works t ctx fun ids next =>
        ∀ id ∈ ids, next.arena.Since 0 id :=
      Yields.mapM_all ready.here (fun _ _ _ led since => led.arena.before.since since)
        fun _ _ _ led =>
        expression_works (ready.after led) (Nat.zero_le _)
    exact .bind each fun ids next led since =>
      Yields.pure led.lawful.here (.ofExprs fun id mem => (since id mem).usable)
  | .returnStmt, _, _, _, ready => .pure ready.here (.ofExprs nofun)
  | .exit _, _, _, _, ready | .cycle _, _, _, _, ready => by
    rw [statement]
    exact Runs.guard fun _ => Yields.pure ready.here (.ofExprs fun _ mem => absurd mem not_mem_nil)
  | .stop code span, inLoop, scope, ctx, ready => by
    refine Yields.bind (operand?_works ready.toLawful fun _ => stopCode_works ready)
      fun code next led usable => ?_
    exact .pure led.lawful.here (.ofExprs fun id mem => usable id (Option.mem_toList.1 mem))
  | .block decls body span, inLoop, scope, ctx, ready => by
    refine .bind (openBlockConstruct_works ready) fun ⟨sym, inner⟩ opened led ⟨isOpen, has⟩ => ?_
    refine .bind (declareBlock_works loads isOpen) fun _ declared further _ => ?_
    refine .bind (statements_works loads body (isOpen.toReady.after further))
      fun body last again resolved => ?_
    have before := further.arena.before.trans again.arena.before
    refine .bind (setBody_works again.lawful (before.own (led.arena.before.own ready.own))
      (before.has has) rfl resolved fun _ _ => rfl) fun _ closed closing _ => ?_
    exact .pure closing.lawful.here
      (resolvedStmt_block ((before.trans closing.arena.before).has has))
  | .associate associations body span, inLoop, scope, ctx, ready => by
    have selected : (associations.mapM fun association => expression setup scope
        association.expr).Works t ctx fun ids next => ∀ id ∈ ids, next.arena.Since 0 id :=
      Yields.mapM_all ready.here (fun _ _ _ led since => led.arena.before.since since)
        fun _ _ _ led =>
        expression_works (ready.after led) (Nat.zero_le _)
    refine .bind selected fun selectors chosen led since => ?_
    have readyChosen := ready.after led
    refine Runs.bind (openAssociateConstruct_works readyChosen)
      fun ⟨sym, inner⟩ opened ⟨opening, same, isOpen, has⟩ => ?_
    have le : chosen.arena.scopes.size ≤ inner.index :=
      Nat.le_of_eq (congrArg ScopeId.index same).symm
    have room {next : Context} (before : opened.arena.Precedes next.arena) :
        chosen.arena.scopes.size ≤ next.arena.scopes.size :=
      opening.arena.before.scopes_le.trans before.scopes_le
    -- The new scope is filled from here on, and is not there before.
    refine Works.filled opening ?_
    refine .bind (associateNames_fills isOpen.toReady le fun selector mem =>
      opening.arena.before.usable (since selector mem).usable) fun entry bound fills resolved => ?_
    refine .bind (Works.fills (statements_works loads body (isOpen.toReady.filled fills))
      (room fills.arena.before)) fun body last further resolvedBody => ?_
    have before := fills.arena.before.trans further.arena.before
    refine .bind (Works.fills (setBody_works further.lawfulFilled
      (before.own (opening.arena.before.own readyChosen.own)) (before.has has) rfl
      ((further.arena.before.resolved resolved).appendBody resolvedBody) fun _ _ => rfl)
      (room before)) fun _ closed closing _ => ?_
    exact .pure (Progress.arrive closing)
      (resolvedStmt_block ((before.trans closing.arena.before).has has))

theorem statements_works [t.Wary] (loads : setup.library.Loads t) :
    ∀ (trees : List Tree.Stmt) {inLoop : Bool} {scope : ScopeId} {ctx : Context},
      ctx.Ready t scope → (statements setup inLoop scope trees).Works t ctx fun body next =>
      next.arena.ResolvedBody scope body
  | [], _, _, _, ready => .pure ready.here resolvedBody_nil
  | first :: rest, inLoop, scope, ctx, ready => by
    refine .bind (statement_works loads first ready) fun stmt mid led resolved => ?_
    refine .bind (statements_works loads rest (ready.after led))
      fun body last further resolvedRest => ?_
    exact .pure further.lawful.here ((further.arena.before.resolved resolved).append resolvedRest)

end

/-! ## Program units -/

/-- What the first pass declared is found by its name, with the scope that it opens. -/
theorem introduced {id : SymbolId} (lawful : ctx.Lawful t) (room : t.fixed ≤ ctx.arena.scopes.size)
    (own : ctx.arena.Own owner)
    (has : ctx.arena.Introduces owner name form id) (opens : form.scope? = some scope) :
    ctx.arena.find? owner name = .ok (some id) ∧ ctx.arena.symbolScope? id = .ok (some scope) ∧
      ctx.Ready t scope := by
  obtain ⟨sym, h, rfl, rfl, rfl, ordinary, native⟩ := has
  have opens : sym.kind.scope? = some scope := (SymbolKind.scope?_form _).symm.trans opens
  obtain ⟨table, foundTable, st⟩ := lawful.lawful.registered h opens
    (SymbolKind.isOrdinary_iff.1 ordinary).1
  exact ⟨find?_eq_some.2 ⟨table, foundTable, st⟩, symbolScope?_eq_ok.2 ⟨sym, h, opens⟩,
    lawful, lawful.lawful.inner_opened h opens, own.opened lawful.lawful.sound h opens
    fun _ => native, room⟩

theorem unitScope_bind {id : SymbolId} {next : ScopeId → Analysis β}
    (st : ctx.arena.find? owner name = .ok (some id))
    (opened : ctx.arena.symbolScope? id = .ok (some scope))
    (rest : Runs t.tolerated (next scope) ctx post) :
    Runs t.tolerated (liftM (unitScope owner name) >>= next : Analysis β) ctx post := by
  refine Quiet.bind (lift_quiet (Edit.ask_bind (bind_eq_ok.2 ⟨_, st, opened⟩) (Quiet.pure rfl)))
    fun ans same => ?_
  exact same ▸ rest

/-- The body of what the first pass declared is resolved, and those of the procedures in it. -/
theorem bodies_works [t.Wary] {id : SymbolId} {change : List Stmt → SymbolKind → SymbolKind}
    {trees : List Tree.Stmt} {contained : List Tree.Subprogram} (loads : setup.library.Loads t)
    (ready : ctx.Ready t scope) (own : ctx.arena.Own owner)
    (has : ctx.arena.Introduces owner name form id) (opens : form.scope? = some scope)
    (changes : ∀ (body : List Stmt) (k : SymbolKind), k.form = form →
      change body k = k.withBody body)
    (inner : ∀ next : Context, ctx.arena.Precedes next.arena → next.Ready t scope →
      (containedBodies setup scope contained).Works t next fun _ _ => True) :
    (do let body ← statements setup false scope trees
        modifyKind id (change body)
        containedBodies setup scope contained : Analysis Unit).Works t ctx fun _ _ => True := by
  refine .bind (statements_works loads trees ready) fun body mid led resolved => ?_
  have before := led.arena.before
  obtain ⟨sym, h, owned, _, formed, _⟩ := before.introduces has
  refine .bind (setBody_works led.lawful (before.own own) ⟨sym, h, owned, formed⟩ opens resolved
    (changes body)) fun _ last further _ => ?_
  exact inner last (before.trans further.arena.before) ((ready.after led).after further)

mutual

/-- The body of a procedure is resolved, and those of the procedures in it. -/
theorem procedureBody_works [t.Wary] (loads : setup.library.Loads t) :
    ∀ (tree : Tree.Subprogram) {parent : ScopeId} {ctx : Context}, ctx.Lawful t →
      t.fixed ≤ ctx.arena.scopes.size → ctx.arena.Own parent → ctx.arena.HasProcedure parent tree →
      (procedureBody setup parent tree).Works t ctx fun _ _ => True
  | ⟨_, name, _, _, _, _, _, _, body, contained, _⟩, parent, ctx, lawful, room, own,
      ⟨id, scope, has, inside⟩ => by
    obtain ⟨stands, opened, ready⟩ := introduced lawful room own has rfl
    refine ask_bind stands
      (unitScope_bind stands opened (bodies_works loads ready own has rfl (fun body k form => ?_)
      fun next before ready => containedBodies_works loads contained ready.toLawful ready.room
      ready.own
        (before.hasProcedures contained inside)))
    cases k with
    | function info => rfl
    | _ => cases form

theorem containedBodies_works [t.Wary] (loads : setup.library.Loads t) :
    ∀ (trees : List Tree.Subprogram)
    {parent : ScopeId} {ctx : Context}, ctx.Lawful t → t.fixed ≤ ctx.arena.scopes.size →
    ctx.arena.Own parent →
      ctx.arena.HasProcedures parent trees → (containedBodies setup parent trees).Works t ctx
      fun _ _ => True
  | [], _, _, lawful, _, _, _ => .pure lawful.here trivial
  | first :: rest, _, _, lawful, room, own, ⟨here, there⟩ =>
    Yields.bind (procedureBody_works loads first lawful room own here) fun _ _ led _ =>
      containedBodies_works loads rest led.lawful (room.trans led.arena.before.scopes_le)
        (led.arena.before.own own) (led.arena.before.hasProcedures rest there)

end

theorem unitBody_works [t.Wary] {unit : Tree.ProgramUnit} (loads : setup.library.Loads t)
    (lawful : ctx.Lawful t) (room : t.fixed ≤ ctx.arena.scopes.size)
    (has : ctx.arena.HasUnit unit) : (unitBody setup unit).Works t ctx fun _ _ => True := by
  have own : ctx.arena.Own ctx.arena.root := .inl rfl
  cases unit with
  | moduleUnit unit =>
    obtain ⟨id, scope, has, inside⟩ := has
    obtain ⟨st, opened, ready⟩ := introduced lawful room own has rfl
    exact Runs.bind_ok rfl (unitScope_bind st opened
      (containedBodies_works loads unit.contained lawful room ready.own inside))
  | programUnit unit =>
    obtain ⟨id, scope, has, inside⟩ := has
    obtain ⟨st, opened, ready⟩ := introduced lawful room own has rfl
    refine Runs.bind_ok rfl (ask_bind st
      (unitScope_bind st opened (bodies_works loads ready own has rfl
      (fun body k form => ?_) fun next before ready => containedBodies_works loads unit.contained
      ready.toLawful
        ready.room ready.own (before.hasProcedures unit.contained inside))))
    cases k with
    | program info => rfl
    | _ => cases form
  | subprogramUnit unit =>
    exact Runs.bind_ok rfl (procedureBody_works loads unit lawful room own has)

end Analysis

end FortranSemantics
