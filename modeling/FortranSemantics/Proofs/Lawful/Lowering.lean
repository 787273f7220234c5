import FortranSemantics.Lowering
import FortranSemantics.Proofs.Lawful.Helper

/-!
# Lowering of lawful arenas

Lowering the statements of a lawful arena gives rise to no breach, and no array intrinsic is called
in the statements that come out. An expression is lowered in place, so what is nested in it changes
and nothing else does.
-/

namespace FortranSemantics

open List Arena Edit
open Stmt (exprsOf blocksOf demandsOf)

variable {t : Terms} {a b : Arena} {homes : ScopeId → Prop} {id target value : ExprId} {expr : Expr}
  {ids roots args : List ExprId} {body lowered hoisted : List Stmt} {op : ArrayIntrinsic}
  {helper : SymbolId} {scope : ScopeId} {first : Stmt}

namespace Arena

/-- Whether an arena is lowered and only what is nested in some expressions changed. -/
structure Reworks (terms : Terms) (homes : ScopeId → Prop) (roots : List ExprId)
    (arena later : Arena) : Prop extends arena.Lowers terms homes later, arena.Spares roots later

theorem Lowers.reworks (lowered : a.Lowers t homes b)
    (lt : ∀ root ∈ roots, root.index < a.exprs.size)
    (kept : ∀ id expr, a.expr id = .ok expr → b.expr id = .ok expr) : a.Reworks t homes roots b :=
  ⟨lowered, .ofKept lt kept⟩

theorem Reworks.widen (reworked : a.Reworks t homes roots b)
    (lt : ∀ root ∈ more, root.index < a.exprs.size)
    (covered : ∀ root ∈ roots, ∃ o ∈ more, a.Reaches o root) : a.Reworks t homes more b :=
  ⟨reworked.toLowers, reworked.toSpares.widen lt covered⟩

instance {roots : List ExprId} : Progress (Arena.Reworks t homes roots) where
  trans one o := ⟨Progress.trans one.toLowers o.toLowers, one.toSpares.trans one.before o.before
    o.toSpares⟩
  arrive reworked := (reworked.lawful.lowers homes).reworks
    (fun root mem => (reworked.inRange root mem).trans_le reworked.before.exprs_le)
    fun _ _ h => h

/-- Whether lowered statements may be put at a site: its unit and its scope were analysed here, and
new scopes are not fixed. -/
structure Placed (terms : Terms) (arena : Arena) (site : Lowering.Site) : Prop where
  room : terms.fixed ≤ arena.scopes.size
  unit : arena.Own site.unit
  unitInner : arena.Inner site.unit
  body : arena.Own site.body
  bodyInner : arena.Inner site.body

theorem Precedes.placed (pre : a.Precedes b) (placed : a.Placed t site) : b.Placed t site :=
  ⟨placed.room.trans pre.scopes_le, pre.own placed.unit, pre.inner placed.unitInner,
    pre.own placed.body, pre.inner placed.bodyInner⟩

end Arena

namespace Lowering

variable {site : Site}

/-! ## Expressions -/

section

variable (ok : a.Lawful t)

include ok

/-- Replacing a call of an array intrinsic by something over lowered operands. -/
theorem setExprKind_reworks {kind : ExprKind} (h : a.expr id = .ok expr)
    (isCall : expr.kind.isArrayCall = true)
    (native : a.Native id) (reforms : a.Reforms expr.kind kind)
    (ops : ∀ child ∈ kind.children, a.Lowered child) :
    Yields .none (Arena.Reworks t homes [id]) (setExprKind id kind) a fun _ next =>
    next.Lowered id := by
  have lt := expr_inRange h
  have lowered : a.Lowers t homes (a.reform id kind) := reforms.lowers h ok native isCall
  have changed : (a.reform id kind).expr id = .ok { expr with kind } :=
    expr_reform.2 ⟨expr, h, by rw [if_pos rfl]⟩
  have clean : (a.reform id kind).Clean id :=
    .ofChildren changed reforms.arrayCall fun child mem => (lowered.lowered (ops child mem)).2
  refine Runs.of_ok (setExprKind_eq lt kind) ⟨?_, lowered.before.usable ⟨lt, native⟩, clean⟩
  exact ⟨lowered, spares_reform lt⟩

/-- Turning a call into a reference to a temporary. -/
theorem introduceTemporary_reworks (inner : a.Inner site.body) (own : a.Own site.body)
    (h : a.expr id = .ok expr) (isCall : expr.kind.isArrayCall = true) (native : a.Native id) :
    Yields .none (Arena.Reworks t homes [id]) (introduceTemporary site id op) a
      fun target next => next.Lowered target ∧ next.Lowered id := by
  have law := (ok.expr h).type
  have lt : ∀ root ∈ [id], root.index < a.exprs.size := fun root mem =>
    mem_singleton.1 mem ▸ expr_inRange h
  refine ask_bind h ?_
  obtain ⟨n, chosen, free⟩ := exists_uniqueName inner.1 ("__" ++ op.name ++ "_result")
  refine ask_bind chosen (overwrite_new_runs rfl inner.1 ?_)
  have e : a.LawfulEntry t site.body n (.variable (.ofType expr.type)) :=
    .ofFree free inner rfl nofun (.ofType law _) (.inr own)
  have toEntered := e.supplies ok nofun
  have entered : (a.enter site.body n (.variable (.ofType expr.type))).symbol
      ⟨a.symbols.size⟩ = .ok _ :=
    symbol_enter.2 (.inr ⟨rfl, rfl⟩)
  have present := symbol_inRange entered
  have adds : (addVar ⟨a.symbols.size⟩ expr.type expr.span).Supplies t site.body
      (a.enter site.body n (.variable (.ofType expr.type))) fun id next =>
        next.Operand expr.type id ∧ next.IsVar id :=
    addVar_supplies toEntered.lawful present (toEntered.before.lawfulType law)
  refine .bind adds fun target second ⟨toSecond, isTarget, _⟩ => ?_
  have supplied := Progress.trans toEntered toSecond
  have apart := own.not_outer ok.sound inner.2
  refine Yields.after ((supplied.lowers apart).reworks lt fun _ _ => supplied.expr) ?_
  obtain ⟨called, overload, args, named⟩ := ExprKind.exists_of_isArrayCall isCall
  have reforms : second.Reforms expr.kind (.var ⟨a.symbols.size⟩) := {
    constant := fun _ isConstant => by rw [named] at isConstant; cases isConstant
    var := fun _ isVar => by rw [named] at isVar; cases isVar
    arrayCall := rfl
    children := nofun
    leaf := fun _ => rfl
    form := fun _ => present.trans_le toSecond.before.symbols_le }
  refine .bind (setExprKind_reworks supplied.lawful (supplied.expr h) isCall
    (supplied.before.native (expr_inRange h) native) reforms fun _ mem =>
      absurd mem not_mem_nil) fun _ last toLast lowered => ?_
  exact .pure (Progress.arrive toLast) ⟨toLast.lowered isTarget.1, lowered⟩

theorem callHelper_reworks {overload : Overload} (h : a.expr id = .ok expr)
    (named : expr.kind = .arrayCall op overload args) (native : a.Native id)
    (ops : ∀ arg ∈ args, a.Lowered arg) : Yields .none (Arena.Reworks t homes [id])
      (setExprKind id (.call helper none (args.map some) none)) a fun _ next =>
      next.Lowered id := by
  have children : (ExprKind.call helper none (args.map some) none).children = args := by
    simp [ExprKind.children, filterMap_map]
  have pre : expr.kind.children = args := by rw [named]; rfl
  refine setExprKind_reworks ok h (by rw [named]; rfl) native {
    constant := fun _ isConstant => by rw [named] at isConstant; cases isConstant
    var := fun _ isVar => by rw [named] at isVar; cases isVar
    arrayCall := rfl
    children := fun child mem => .inl (pre ▸ children ▸ mem)
    leaf := fun none => children.trans (pre.symm.trans none)
    form := fun _ => trivial } fun child mem => ops child (children ▸ mem)

end

theorem helperCall (ops : ∀ arg ∈ args, a.Lowered arg) (isTarget : a.Lowered target) :
    a.Straight [.call helper none (args.map some ++ [some target]) none] := by
  refine .call (fun arg mem => ?_) nofun
  rcases mem_append.1 mem with isArg | isResult
  · obtain ⟨held, isArg, same⟩ := mem_map.1 isArg
    exact Option.some.inj same ▸ ops held isArg
  · exact Option.some.inj (mem_singleton.1 isResult) ▸ isTarget

section

variable (ok : a.Lawful t)

include ok

/-- Lowering expressions one after another, each of which is lowered alone. -/
theorem mapM_reworks (lt : ∀ id ∈ ids, id.index < a.exprs.size)
    (each : ∀ id ∈ ids, ∀ mid, a.Reworks t homes ids mid →
      Yields .none (Arena.Reworks t homes [id]) (lower id) mid fun hoisted next => next.Lowered id ∧
      next.Straight hoisted) :
    Yields .none (Arena.Reworks t homes ids) (ids.mapM lower) a fun hoisted next =>
      (∀ id ∈ ids, next.Lowered id) ∧ next.Straight hoisted.flatten := by
  have here : a.Reworks t homes ids a := (ok.lowers homes).reworks lt fun _ _ h => h
  have steps : Yields .none (Arena.Reworks t homes ids) (ids.mapM lower) a fun hoisted next =>
      List.Forall₂ (fun id steps => next.Lowered id ∧ next.Straight steps) ids hoisted := by
    refine Yields.mapM here (fun _ _ _ _ reworked => And.imp reworked.lowered reworked.straight)
      fun id mem mid reworked => ?_
    refine Runs.mono (each id mem mid reworked) fun hoisted next ⟨more, held⟩ => ⟨?_, held⟩
    refine more.widen (Progress.arrive reworked).inRange fun root isRoot => ⟨root, ?_, .refl⟩
    rw [mem_singleton.1 isRoot]
    exact mem
  refine steps.mono fun hoisted next _ held => ⟨fun id mem => ?_, .flatten fun steps mem => ?_⟩
  · obtain ⟨steps, -, lowered, -⟩ := exists_of_mem_right held.flip mem
    exact lowered
  · obtain ⟨id, -, -, straight⟩ := exists_of_mem_right held mem
    exact straight

theorem exprWithin_reworks (placed : a.Placed t site) (within : a.Within fuel id)
    (usable : a.Usable id) :
    Yields .none (Arena.Reworks t (· = site.unit) [id]) (exprWithin site fuel id) a
      fun hoisted next => next.Lowered id ∧ next.Straight hoisted := by
  induction fuel generalizing a id with
  | zero => exact within.elim
  | succ fuel ih =>
    obtain ⟨expr, h, nested⟩ := within
    have inner {child : ExprId} (mem : child ∈ expr.kind.children) : a.Child id child :=
      ⟨expr, h, mem⟩
    have lt : ∀ root ∈ [id], root.index < a.exprs.size := fun root mem =>
      mem_singleton.1 mem ▸ usable.1
    -- the operands are lowered first, which leaves the expression itself as it is
    have ops : Yields .none (Arena.Reworks t (· = site.unit) expr.kind.children)
        (expr.kind.children.mapM (exprWithin site fuel)) a fun hoisted next =>
          (∀ child ∈ expr.kind.children, next.Lowered child) ∧ next.Straight hoisted.flatten := by
      refine mapM_reworks ok (fun child mem => ok.child_inRange (inner mem))
        fun child mem mid reworked => ?_
      have childUsable : a.Usable child :=
        ⟨ok.child_inRange (inner mem), usable.2.reached (.single (inner mem))⟩
      exact ih reworked.lawful (reworked.before.placed placed)
        (reworked.before.within (nested child mem)) (reworked.before.usable childUsable)
    have widened {mid : Arena} (reworked : a.Reworks t (· = site.unit) expr.kind.children mid) :
        a.Reworks t (· = site.unit) [id] mid :=
      reworked.widen lt fun child mem => ⟨id, mem_singleton_self id, .single (inner mem)⟩
    have kept {mid : Arena} (reworked : a.Reworks t (· = site.unit) expr.kind.children mid) :
        mid.expr id = .ok expr :=
      reworked.spared h fun child mem => ok.not_reaches_of_child (inner mem)
    refine ask_bind h ?_
    split
    · next op overload args named =>
      have isCall : expr.kind.isArrayCall = true := by rw [named]; rfl
      have children : expr.kind.children = args := by rw [named]; rfl
      rw [children] at ops widened kept
      refine .bind ops fun hoisted first ⟨toFirst, lowered, straight⟩ => ?_
      refine Yields.after (widened toFirst) ?_
      have ok := toFirst.lawful
      have placed := toFirst.before.placed placed
      have usable := toFirst.before.usable usable
      have h := kept toFirst
      refine Runs.bind (Intrinsic.helperFor_lowers ok h isCall placed.room placed.unit
        placed.unitInner) fun helper second ⟨toSecond, present, same⟩ => ?_
      refine Yields.after (toSecond.reworks (fun root mem => mem_singleton.1 mem ▸ usable.1)
        same) ?_
      have ok := toSecond.lawful
      have usable := toSecond.before.usable usable
      have lowered := fun arg mem => toSecond.lowered (lowered arg mem)
      have straight := toSecond.straight straight
      split
      · have placed := toSecond.before.placed placed
        refine .bind (introduceTemporary_reworks ok placed.bodyInner placed.body (same _ _ h) isCall
          usable.2) fun target third toThird ⟨isTarget, done⟩ => ?_
        refine .pure (Progress.arrive toThird) ⟨done, (toThird.straight straight).append
          (helperCall (fun arg mem => toThird.lowered (lowered arg mem)) isTarget)⟩
      · refine .bind (callHelper_reworks ok (same _ _ h) named usable.2 lowered)
          fun _ third toThird done => ?_
        exact .pure (Progress.arrive toThird) ⟨done, toThird.straight straight⟩
    · next notCall =>
      have plain : expr.kind.isArrayCall = false := by
        cases named : expr.kind <;> first | rfl | exact absurd named (notCall _ _ _)
      refine .bind ops fun hoisted next ⟨reworked, lowered, straight⟩ =>
        .pure ⟨widened reworked, ?_⟩
      have clean : next.Clean id := .ofChildren (kept reworked) plain fun child mem =>
        (lowered child mem).2
      exact ⟨⟨reworked.before.usable usable, clean⟩, straight⟩

theorem exprs_reworks (placed : a.Placed t site) (usable : ∀ id ∈ ids, a.Usable id) :
    Yields .none (Arena.Reworks t (· = site.unit) ids) (exprs site ids) a fun hoisted next =>
      (∀ id ∈ ids, next.Lowered id) ∧ next.Straight hoisted := by
  refine .bind (mapM_reworks ok (fun id mem => (usable id mem).1) fun id mem mid reworked => ?_)
    fun hoisted next reworked held => .pure (Progress.arrive reworked) held
  have usable := reworked.before.usable (usable id mem)
  exact Runs.bind_ok rfl (exprWithin_reworks reworked.lawful (reworked.before.placed placed)
    ((reworked.lawful.depth usable.1).mono (Nat.le_succ _)) usable)

theorem copy_supplies (lowered : a.Lowered id) : (copy id).Supplies t scope a fun copied next =>
    next.Lowered copied :=
  (copyWithin_supplies ok ((ok.depth lowered.1.1).mono (Nat.le_succ _)) lowered.2).mono
    fun _ _ _ held => held.1

/-- Repeating a statement in which no array intrinsic is called. -/
theorem repeated_supplies (straight : a.Straight [step]) :
    (repeated step).Supplies t scope a fun again next => next.Straight [again] := by
  cases step with
  | call n via args receiver =>
    have stable {first second : Arena} {arg copied : Option ExprId}
        (given : first.Supplies t scope second)
        (copy : Option.Rel (fun _ copied => first.Lowered copied) arg copied) :
        Option.Rel (fun _ copied => second.Lowered copied) arg copied := by
      cases copy with
      | none => exact .none
      | some lowered => exact .some (given.lowered lowered)
    have operand {arg : Option ExprId} {mid : Arena} (given : a.Supplies t scope mid)
        (mem : ∀ id ∈ arg, id ∈ exprsOf [.call n via args receiver]) :
        (({ symbol := pure, scope := pure, expr := copy } : Renumbering Edit).expr?
          arg).Supplies t scope
          mid fun copied next => Option.Rel (fun _ copied => next.Lowered copied) arg copied :=
      Renumbering.expr?_yields (Progress.arrive given) fun id held =>
        copy_supplies given.lawful (given.lowered (straight.exprs id (mem id held)))
    have several : (args.mapM
        ({ symbol := pure, scope := pure, expr := copy } : Renumbering Edit).expr?).Supplies
        t scope a fun copies next =>
          List.Forall₂ (Option.Rel fun _ copied => next.Lowered copied) args copies := by
      refine Yields.mapM (ok.supplies scope) (fun _ _ _ _ => stable) fun arg isArg mid given => ?_
      exact operand given fun id held => by
        simp [exprsOf, Stmt.exprs]; exact .inl (held ▸ isArg)
    refine .bind several fun args' mid given copies => ?_
    refine .bind (operand given fun id held => by simp [exprsOf, Stmt.exprs]; exact .inr held)
      fun receiver' last more copied => .pure (Progress.arrive more) (.call ?_ ?_)
    · intro arg mem
      obtain ⟨old, -, copy⟩ := exists_of_mem_right copies mem
      cases copy with
      | some lowered => exact more.lowered lowered
    · intro id held
      cases held
      cases copied with
      | some lowered => exact lowered
  | _ => exact .pure (ok.supplies scope) straight

end

/-! ## Statements -/

end Lowering

namespace Arena

/-- Whether statements may be lowered: their expressions may be used, with separate targets and
values. -/
structure Lowerable (arena : Arena) (body : List Stmt) : Prop where
  exprs : ∀ id ∈ exprsOf body, arena.Usable id
  separate : ∀ target value, .assigned target value ∈ demandsOf body →
    arena.Separate target value

theorem Precedes.lowerable (pre : a.Precedes b) (lowerable : a.Lowerable body) :
    b.Lowerable body where
  exprs id mem := pre.usable (lowerable.exprs id mem)
  separate target value mem := by
    have among := Stmt.mem_exprsOf_of_assigned body mem
    exact pre.separate (lowerable.exprs _ among.1).1 (lowerable.exprs _ among.2).1
      (lowerable.separate target value mem)

theorem Lowerable.mono (lowerable : a.Lowerable body)
    (exprs : exprsOf fewer ⊆ exprsOf body)
    (demands : demandsOf fewer ⊆ demandsOf body) : a.Lowerable fewer :=
  ⟨fun id mem => lowerable.exprs id (exprs mem),
    fun target value mem => lowerable.separate target value (demands mem)⟩

/-- Whether what some statements became calls no array intrinsic, has no further blocks, and asks
nothing of expressions that they do not meet. -/
structure Tidy (arena : Arena) (body lowered : List Stmt) : Prop where
  exprs : ∀ id ∈ exprsOf lowered, arena.Lowered id
  blocks : blocksOf lowered ⊆ blocksOf body
  demands : ∀ demand ∈ demandsOf lowered, demand ∈ demandsOf body ∨ arena.Typed demand

theorem Quells.tidy (quelled : a.Quells t b) (tidy : a.Tidy body lowered) : b.Tidy body lowered :=
  ⟨fun id mem => quelled.lowered (tidy.exprs id mem), tidy.blocks,
    fun demand mem => (tidy.demands demand mem).imp_right quelled.before.typed⟩

theorem Tidy.refl (exprs : ∀ id ∈ exprsOf body, a.Lowered id) : a.Tidy body body :=
  ⟨exprs, List.Subset.refl _, fun _ => .inl⟩

theorem Straight.tidy (straight : a.Straight lowered) : a.Tidy body lowered :=
  ⟨straight.exprs, by
    rw [straight.blocks]; exact nil_subset _, fun demand mem => .inr (straight.typed demand mem)⟩

theorem Tidy.after (straight : a.Straight hoisted) (exprs : ∀ id ∈ Stmt.exprs second, a.Lowered id)
    (blocks : Stmt.blocks second ⊆ Stmt.blocks first)
    (demands : ∀ demand ∈ Stmt.demands second, demand ∈ Stmt.demands first ∨ a.Typed demand) :
    a.Tidy [first] (hoisted ++ [second]) where
  exprs := by
    rw [Stmt.exprsOf_append, forall_mem_append]
    exact ⟨straight.exprs, by simpa [exprsOf] using exprs⟩
  blocks := by
    rw [Stmt.blocksOf_append, straight.blocks]
    simpa [blocksOf] using blocks
  demands := by
    rw [Stmt.demandsOf_append, forall_mem_append]
    exact ⟨fun demand mem => .inr (straight.typed demand mem), by
      simpa [demandsOf] using demands⟩

theorem Tidy.append (tidy : a.Tidy [first] one) (tidyToo : a.Tidy rest others) :
    a.Tidy (first :: rest) (one ++ others) where
  exprs := by
    rw [Stmt.exprsOf_append, forall_mem_append]
    exact ⟨tidy.exprs, tidyToo.exprs⟩
  demands := by
    have here := tidy.demands
    simp only [demandsOf, append_nil] at here
    rw [Stmt.demandsOf_append, forall_mem_append]
    exact ⟨fun demand mem => (here demand mem).imp_left (mem_append_left _),
      fun demand mem => (tidyToo.demands demand mem).imp_left (mem_append_right _)⟩
  blocks := by
    have here : blocksOf one ⊆ Stmt.blocks first := by simpa [blocksOf] using tidy.blocks
    rw [Stmt.blocksOf_append]
    exact append_subset.2 ⟨fun block mem => mem_append_left _ (here mem),
      fun block mem => mem_append_right _ (tidyToo.blocks mem)⟩

end Arena

namespace Lowering

theorem repeatAll_lowers (ok : a.Lawful t) (placed : a.Placed t site)
    (straight : a.Straight hoisted) :
    (hoisted.mapM repeated).Lowers t homes a fun again next => next.Straight again := by
  have each : (hoisted.mapM repeated).Supplies t site.body a fun again next =>
      List.Forall₂ (fun _ step => next.Straight [step]) hoisted again := by
    refine Yields.mapM (ok.supplies _) (fun _ _ _ _ given => given.straight)
      fun step mem mid given => ?_
    exact repeated_supplies given.lawful (given.straight (straight.each step mem))
  refine Runs.mono each fun again next ⟨given, held⟩ => ⟨?_, .ofEach fun step mem => ?_⟩
  · exact given.lowers (placed.body.not_outer ok.sound placed.bodyInner.2)
  · obtain ⟨-, -, done⟩ := exists_of_mem_right held mem
    exact done

theorem returnsArray_eq (h : a.expr value = .ok expr) :
    returnsArray a value = .ok (expr.kind.isArrayCall && expr.type.isArray) := by
  obtain ⟨k, ty, held, span⟩ := expr
  unfold returnsArray
  rw [h]
  cases k <;> rfl

theorem hoisting_lowers {stmt : Stmt} (ok : a.Lawful t) (placed : a.Placed t site)
    (lowerable : a.Lowerable [stmt]) (all : Stmt.exprs stmt = ids) :
    (do return (← exprs site ids) ++ [stmt] : Edit (List Stmt)).Lowers t (· = site.unit) a
      fun lowered next => next.Tidy [stmt] lowered := by
  refine Runs.bind (exprs_reworks ok placed fun id mem => lowerable.exprs id ?_)
    fun hoisted next ⟨reworked, isLowered, straight⟩ => Runs.pure ⟨reworked.toLowers, ?_⟩
  · exact mem_append_left _ (all ▸ mem)
  · exact .after straight (all ▸ isLowered) (List.Subset.refl _) fun _ => .inl

theorem assignment_lowers (ok : a.Lawful t) (placed : a.Placed t site)
    (lowerable : a.Lowerable [.assignment target value]) :
    (stmt site (.assignment target value)).Lowers t (· = site.unit) a fun lowered next =>
      next.Tidy [.assignment target value] lowered := by
  have isTarget : a.Usable target := lowerable.exprs target (.head _)
  have isValue : a.Usable value := lowerable.exprs value (.tail _ (.head _))
  obtain ⟨expr, h⟩ := exists_expr isValue.1
  rw [stmt]
  refine ask_bind (returnsArray_eq h) ?_
  split
  · next direct =>
    have isCall : expr.kind.isArrayCall = true := (Bool.and_eq_true_iff.1 direct).1
    refine .bind (exprs_reworks ok placed fun id mem => mem_singleton.1 mem ▸ isTarget)
      fun hoisted first ⟨toFirst, isLowered, straight⟩ => Yields.after toFirst.toLowers ?_
    -- the value is not nested in the target, so it is still the same call
    have apart := lowerable.separate target value (.head _) expr h isCall
    have h := toFirst.spared h fun root mem => mem_singleton.1 mem ▸ apart
    obtain ⟨op, overload, args, named⟩ := ExprKind.exists_of_isArrayCall isCall
    have children : expr.kind.children = args := by rw [named]; rfl
    have called : Quiet .none (arrayCallArgs value) first fun h => h = args := by
      refine ask_bind h ?_
      rw [named]
      exact Quiet.pure rfl
    refine called.bind fun _ same => same ▸ ?_
    have inner {arg : ExprId} (mem : arg ∈ args) : first.Child value arg :=
      ⟨expr, h, children ▸ mem⟩
    have isValue := toFirst.before.usable isValue
    refine .bind (exprs_reworks toFirst.lawful (toFirst.before.placed placed) fun arg mem =>
      ⟨toFirst.lawful.child_inRange (inner mem), isValue.2.reached (.single (inner mem))⟩)
      fun within second ⟨toSecond, areLowered, straightToo⟩ => Yields.after toSecond.toLowers ?_
    have h := toSecond.spared h fun arg mem =>
      toFirst.lawful.not_reaches_of_child (inner mem)
    have placed := (Progress.trans toFirst.toLowers toSecond.toLowers).before.placed placed
    refine .bind ((Intrinsic.helperFor_lowers toSecond.lawful h isCall placed.room placed.unit
      placed.unitInner))
      fun helper third toThird _ => .pure (Progress.arrive toThird) (Arena.Straight.tidy ?_)
    have sinceFirst := Progress.trans toSecond.toLowers toThird
    refine ((sinceFirst.straight straight).append (toThird.straight straightToo)).append
      (helperCall ?_ ?_)
    · exact fun arg mem => toThird.lowered (areLowered arg mem)
    · exact sinceFirst.lowered (isLowered target (mem_singleton_self target))
  · exact hoisting_lowers ok placed lowerable rfl

mutual

theorem stmt_lowers : ∀ (statement : Stmt) {a : Arena}, a.Lawful t → a.Placed t site →
    a.Lowerable [statement] → (stmt site statement).Lowers t (· = site.unit) a fun lowered next =>
      next.Tidy [statement] lowered
  | .assignment target value, _, ok, placed, lowerable => assignment_lowers ok placed lowerable
  | .branch cond body orelse, a, ok, placed, lowerable => by
    have bodyLowerable : a.Lowerable body := lowerable.mono (by simp [exprsOf, Stmt.exprs])
      (by simp [demandsOf, Stmt.demands])
    have orelseLowerable : a.Lowerable orelse := lowerable.mono (by simp [exprsOf, Stmt.exprs])
      (by simp [demandsOf, Stmt.demands])
    rw [stmt]
    refine Runs.bind (exprs_reworks ok placed fun id mem => lowerable.exprs id
      (mem_singleton.1 mem ▸ .head _)) fun hoisted first ⟨toFirst, isLowered, straight⟩ =>
        Yields.after toFirst.toLowers ?_
    refine Yields.bind (stmts_lowers body toFirst.lawful (toFirst.before.placed placed)
      (toFirst.before.lowerable bodyLowerable)) fun body' second toSecond tidy => ?_
    have led := Progress.trans toFirst.toLowers toSecond
    refine Yields.bind (stmts_lowers orelse toSecond.lawful (led.before.placed placed)
      (led.before.lowerable orelseLowerable)) fun orelse' third toThird tidyToo => ?_
    have sinceFirst := Progress.trans toSecond toThird
    have tidy := toThird.tidy tidy
    refine Yields.pure (Progress.arrive toThird) (.after (sinceFirst.straight straight) ?_ ?_ ?_)
    · refine forall_mem_cons.2 ⟨sinceFirst.lowered (isLowered cond mem_cons_self), ?_⟩
      exact forall_mem_append.2 ⟨tidy.exprs, tidyToo.exprs⟩
    · exact append_subset.2 ⟨fun block mem => mem_append_left _ (tidy.blocks mem),
        fun block mem => mem_append_right _ (tidyToo.blocks mem)⟩
    · refine forall_mem_cons.2 ⟨.inl mem_cons_self, forall_mem_append.2 ⟨?_, ?_⟩⟩
      · exact fun demand mem => (tidy.demands demand mem).imp_left fun known =>
          mem_cons_of_mem _ (mem_append_left _ known)
      · exact fun demand mem => (tidyToo.demands demand mem).imp_left fun known =>
          mem_cons_of_mem _ (mem_append_right _ known)
  | .loop var start stop step body, a, ok, placed, lowerable => by
    have bodyLowerable : a.Lowerable body := lowerable.mono
      (fun _ mem => mem_append_left _ (mem_append_right _ mem))
      fun _ mem => mem_append_left _ (mem_append_right _ mem)
    rw [stmt]
    refine Runs.bind (exprs_reworks ok placed fun id mem => lowerable.exprs id
      (mem_append_left _ (mem_append_left _ mem)))
      fun hoisted first ⟨toFirst, isLowered, straight⟩ =>
        Yields.after toFirst.toLowers ?_
    refine Yields.bind (stmts_lowers body toFirst.lawful (toFirst.before.placed placed)
      (toFirst.before.lowerable bodyLowerable)) fun body' second toSecond tidy => ?_
    refine Yields.pure (Progress.arrive toSecond)
      (.after (toSecond.straight straight) ?_ tidy.blocks ?_)
    · exact forall_mem_append.2 ⟨fun id mem => toSecond.lowered (isLowered id mem), tidy.exprs⟩
    · refine forall_mem_append.2 ⟨fun _ mem => .inl (mem_append_left _ mem), fun demand mem => ?_⟩
      exact (tidy.demands demand mem).imp_left (mem_append_right _)
  | .loopWhile cond body, a, ok, placed, lowerable => by
    have bodyLowerable : a.Lowerable body := lowerable.mono (by simp [exprsOf, Stmt.exprs])
      (by simp [demandsOf, Stmt.demands])
    rw [stmt]
    refine Runs.bind (exprs_reworks ok placed fun id mem => lowerable.exprs id
      (mem_singleton.1 mem ▸ .head _)) fun hoisted first ⟨toFirst, isLowered, straight⟩ =>
        Yields.after toFirst.toLowers ?_
    refine Yields.bind (stmts_lowers body toFirst.lawful (toFirst.before.placed placed)
      (toFirst.before.lowerable bodyLowerable)) fun body' second toSecond tidy => ?_
    have placed := (Progress.trans toFirst.toLowers toSecond).before.placed placed
    refine Yields.bind (repeatAll_lowers toSecond.lawful placed (toSecond.straight straight))
      fun again third toThird straightToo => ?_
    have sinceFirst := Progress.trans toSecond toThird
    have tidy := toThird.tidy tidy
    refine Yields.pure (Progress.arrive toThird) (.after (sinceFirst.straight straight) ?_ ?_ ?_)
    · refine forall_mem_cons.2 ⟨sinceFirst.lowered (isLowered cond mem_cons_self), ?_⟩
      rw [Stmt.exprsOf_append, forall_mem_append]
      exact ⟨tidy.exprs, straightToo.exprs⟩
    · change blocksOf (body' ++ again) ⊆ _
      rw [Stmt.blocksOf_append, straightToo.blocks, append_nil]
      exact tidy.blocks
    · refine forall_mem_cons.2 ⟨.inl (.head _), ?_⟩
      rw [Stmt.demandsOf_append, forall_mem_append]
      exact ⟨fun demand mem => (tidy.demands demand mem).imp_left (mem_cons_of_mem _),
        fun demand mem => .inr (straightToo.typed demand mem)⟩
  | .call .., _, ok, placed, lowerable | .print _, _, ok, placed, lowerable
  | .stop _, _, ok, placed, lowerable => by
    rw [stmt]
    exact hoisting_lowers ok placed lowerable rfl
  | .returnStmt, _, ok, _, _ | .exit, _, ok, _, _ | .cycle, _, ok, _, _
  | .block _, _, ok, _, _ => by
    rw [stmt]
    exact .pure (ok.lowers _) (.refl nofun)

theorem stmts_lowers : ∀ (statements : List Stmt) {a : Arena}, a.Lawful t → a.Placed t site →
    a.Lowerable statements → (stmts site statements).Lowers t (· = site.unit) a fun lowered next =>
      next.Tidy statements lowered
  | [], _, ok, _, _ => by
    rw [stmts]
    exact .pure (ok.lowers _) (.refl nofun)
  | first :: rest, a, ok, placed, lowerable => by
    have here : a.Lowerable [first] :=
      lowerable.mono (by simp [exprsOf]) (by simp [demandsOf])
    have b : a.Lowerable rest := lowerable.mono (by simp [exprsOf]) (by simp [demandsOf])
    rw [stmts]
    refine .bind (stmt_lowers first ok placed here) fun one mid toMiddle tidy => ?_
    refine .bind (stmts_lowers rest toMiddle.lawful (toMiddle.before.placed placed)
      (toMiddle.before.lowerable b)) fun others last toLast tidyToo => ?_
    exact .pure (Progress.arrive toLast) ((toLast.tidy tidy).append tidyToo)

end

end Lowering

end FortranSemantics
