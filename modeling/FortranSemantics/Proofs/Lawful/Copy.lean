import FortranSemantics.Proofs.Lawful.Edit

/-!
# Copies of expressions

A copy of an expression has the same form over copies of the operands, and the same type and value.
-/

namespace FortranSemantics

open ExprKind

/-! ## Other operands -/

namespace ExprKind

/-- The arguments of a call with other operands in their places, and the operands that are left. -/
def refillArgs : List (Option ExprId) → List ExprId → List (Option ExprId) × List ExprId
  | none :: rest, operands => (none :: (refillArgs rest operands).1, (refillArgs rest operands).2)
  | some _ :: rest, operand :: operands =>
    (some operand :: (refillArgs rest operands).1, (refillArgs rest operands).2)
  | _, operands => ([], operands)

/-- The form of an expression with other operands in their places. -/
def refill : ExprKind → List ExprId → ExprKind
  | .arrayConstructor _, operands => .arrayConstructor operands
  | .complexConstructor .., [re, im] => .complexConstructor re im
  | .arithmetic _ op _ _, left :: right :: rest => .arithmetic left op right rest.head?
  | .compare _ op _ _, left :: right :: rest => .compare left op right rest.head?
  | .logical _ op _ _, left :: right :: rest => .logical left op right rest.head?
  | .concat .., left :: right :: rest => .concat left right rest.head?
  | .unary op _ _, operand :: rest => .unary op operand rest.head?
  | .cast _ k, [arg] => .cast arg k
  | .call name via args _, operands =>
    .call name via (refillArgs args operands).1 (refillArgs args operands).2.head?
  | .arrayCall intrinsic overload _, operands => .arrayCall intrinsic overload operands
  | .arrayItem .., array :: indices => .arrayItem array indices
  | .component _ member, [base] => .component base member
  | .structConstructor type _, operands => .structConstructor type operands
  | .arraySize .., array :: dim => .arraySize array dim.head?
  | .arrayBound _ _ bound, [array, dim] => .arrayBound array dim bound
  | k, _ => k

/-- Whether two forms of expressions differ in their operands only, which are related one by one. -/
def Alike (related : ExprId → ExprId → Prop) (kind copied : ExprKind) : Prop :=
  ∃ operands, List.Forall₂ related kind.children operands ∧ copied = kind.refill operands

variable {related : ExprId → ExprId → Prop} {k copied : ExprKind}

theorem refillArgs_operands (each : List.Forall₂ related (args.filterMap id ++ rest) ops) :
    (refillArgs args ops).1.filterMap id ++ (refillArgs args ops).2 = ops ∧
      List.Forall₂ related rest (refillArgs args ops).2 := by
  induction args generalizing ops with
  | nil => exact ⟨rfl, each⟩
  | cons arg args ih =>
    cases arg with
    | none => exact ih each
    | some id =>
      cases each with
      | cons _ others => exact (ih others).imp_left (congrArg _)

theorem Alike.children (alike : k.Alike related copied) :
    List.Forall₂ related k.children copied.children := by
  obtain ⟨xs, each, rfl⟩ := alike
  have optional {given : Option ExprId} {left : List ExprId}
      (each : List.Forall₂ related given.toList left) : left.head?.toList = left := by
    cases given with
    | none =>
      cases each
      rfl
    | some id =>
      obtain _ | ⟨_, _ | _⟩ := each
      rfl
  have same : (k.refill xs).children = xs := by
    cases k with
    | constant | var =>
      cases each
      rfl
    | arrayConstructor | arrayCall | structConstructor => rfl
    | complexConstructor | arrayBound =>
      obtain _ | ⟨_, _ | ⟨_, _ | _⟩⟩ := each
      rfl
    | cast | component =>
      obtain _ | ⟨_, _ | _⟩ := each
      rfl
    | arithmetic | compare | logical | concat =>
      obtain _ | ⟨_, _ | ⟨_, others⟩⟩ := each
      exact congrArg (_ :: _ :: ·) (optional others)
    | unary | arraySize =>
      obtain _ | ⟨_, others⟩ := each
      exact congrArg (_ :: ·) (optional others)
    | arrayItem =>
      obtain _ | ⟨_, _⟩ := each
      rfl
    | call =>
      obtain ⟨same, others⟩ := refillArgs_operands each
      exact (congrArg _ (optional others)).trans same
  rwa [same]

theorem Alike.isArrayCall (alike : k.Alike related copied) :
    copied.isArrayCall = k.isArrayCall := by
  obtain ⟨ops, -, rfl⟩ := alike
  unfold refill
  split <;> rfl

end ExprKind

namespace Renumbering

variable {m : Type → Type} [Monad m] [LawfulMonad m] {expr : ExprId → m ExprId}

/-- Renumbering the arguments of a call, and more operands after them. -/
theorem refillArgs_mapM {β : Type} (args : List (Option ExprId)) (rest : List ExprId)
    (next : List (Option ExprId) × List ExprId → m β) :
    (do next (refillArgs args (← (args.filterMap id ++ rest).mapM expr))) = (do
      let args ← args.mapM ({ symbol := pure, scope := pure, expr } : Renumbering m).expr?
      next (args, ← rest.mapM expr)) := by
  induction args generalizing next with
  | nil => simp [refillArgs]
  | cons arg args ih =>
    cases arg with
    | none => simpa [refillArgs, expr?] using ih fun held => next (none :: held.1, held.2)
    | some arg =>
      have inner (copied : ExprId) := ih fun held => next (some copied :: held.1, held.2)
      simp [refillArgs, expr?, ← inner]

/-- Renumbering the operands of an expression, one after another. -/
theorem exprKind_eq_refill (kind : ExprKind) :
    ({ symbol := pure, scope := pure, expr } : Renumbering m).exprKind kind =
    kind.refill <$> kind.children.mapM expr := by
  cases kind with
  | arrayConstructor | arrayCall => rfl
  | structConstructor => exact (pure_bind _ _).trans (bind_pure_comp _ _)
  | arithmetic _ _ _ call | compare _ _ _ call | logical _ _ _ call | concat _ _ call
    | unary _ _ call | arraySize _ call =>
    cases call <;> simp [exprKind, expr?, children, refill]
  | call n via args receiver =>
    have isVia : ({ symbol := pure, scope := pure, expr } : Renumbering m).symbol?
      via = pure via := by
      cases via <;> simp [symbol?]
    have both := @refillArgs_mapM m _ _ expr _ args receiver.toList fun held =>
      pure (call n via held.1 held.2.head?)
    change _ = refill _ <$> (args.filterMap id ++ receiver.toList).mapM expr
    rw [map_eq_pure_bind]
    refine Eq.trans ?_ both.symm
    cases receiver <;> simp [exprKind, isVia, expr?]
  | _ => simp [exprKind, children, refill]

section

variable {σ : Type} {tolerated : Tolerance} {leads : σ → σ → Prop} [Progress leads] {state : σ}
  {expr : ExprId → EStateM Failure σ ExprId} {related : σ → ExprId → ExprId → Prop}
  (here : leads state state)
  (stable : ∀ first second, leads first second → ∀ child copied, related first child copied →
    related second child copied)

include here

omit [Progress leads] in
theorem expr?_yields (each : ∀ id ∈ child, Yields tolerated leads (expr id) state fun copied next =>
      related next id copied) :
    Yields tolerated leads (({ symbol := pure, scope := pure, expr } : Renumbering _).expr? child)
    state
      fun copied next => Option.Rel (related next) child copied := by
  cases child with
  | none => exact .pure here .none
  | some id => exact .map ((each id rfl).mono fun _ _ _ made => .some made)

include stable

theorem exprKind_yields (each : ∀ child ∈ k.children, ∀ mid, leads state mid →
      Yields tolerated leads (expr child) mid fun copied next => related next child copied) :
    Yields tolerated leads (({ symbol := pure, scope := pure, expr } : Renumbering _).exprKind k)
    state
      fun copied next => k.Alike (related next) copied := by
  rw [exprKind_eq_refill]
  refine .map ((Yields.mapM here ?_ each).mono fun ops _ _ held => ⟨ops, held, rfl⟩)
  exact fun _ _ _ _ more => stable _ _ more _ _

end

end Renumbering

/-! ## Copies -/

variable {t : Terms} {a : Arena} {start : Nat}

/-- Whether two expressions have one type. -/
def Arena.SameType (a : Arena) (id other : ExprId) : Prop :=
  ∃ type, a.HasType id type ∧ a.HasType other type

theorem Arena.Precedes.sameType {id o : ExprId} (pre : a.Precedes b) (same : a.SameType id o) :
    b.SameType id o :=
  same.imp fun _ => And.imp pre.hasType pre.hasType

/-- Whether an expression was made after others, with the type of another expression. -/
def Arena.Copied (start : Nat) (a : Arena) (id copied : ExprId) : Prop :=
  a.Since start copied ∧ a.SameType id copied

theorem Arena.Precedes.copied {id copied : ExprId} (pre : a.Precedes b)
    (copy : a.Copied start id copied) : b.Copied start id copied :=
  copy.imp pre.since pre.sameType

/-- A form over operands of the same types stays lawful. -/
theorem ExprKind.Alike.lawfulForm (alike : k.Alike related copied)
    (same : ∀ id o, related id o → a.SameType id o)
    (law : a.LawfulForm ty k) : a.LawfulForm ty copied := by
  have typed {id o : ExprId} {ty : Ty} (copy : related id o)
      (has : a.HasType id ty) : a.HasType o ty := by
    obtain ⟨held, hasHeld, hasToo⟩ := same id o copy
    exact hasHeld.unique has ▸ hasToo
  obtain ⟨ops, each, rfl⟩ := alike
  cases k with
  | var sym => exact law
  | arithmetic _ _ _ call | logical _ _ _ call | compare _ _ _ call =>
    obtain _ | ⟨first, _ | ⟨second, others⟩⟩ := each
    cases call with
    | none =>
      cases others
      obtain ⟨leftType, rightType, left, right, rest⟩ := law
      exact ⟨leftType, rightType, typed first left, typed second right, rest⟩
    | some _ =>
      obtain _ | ⟨_, _ | _⟩ := others
      trivial
  | cast arg k =>
    obtain _ | ⟨first, _ | _⟩ := each
    obtain ⟨source, arg, rest⟩ := law
    exact ⟨source, typed first arg, rest⟩
  | arrayCall op overload args =>
    obtain ⟨types, hasTypes, fits⟩ := law
    refine ⟨types, ?_, fits⟩
    clear fits
    change List.Forall₂ related args ops at each
    induction each generalizing types with
    | nil => exact hasTypes
    | cons here _ ih =>
      cases hasTypes with
      | cons has others => exact .cons (typed here has) (ih _ others)
  | _ =>
    unfold refill
    split <;> trivial

/-- Copying an expression whose operands are nested less than `depth` deep. -/
theorem Edit.copyWithin_works {id : ExprId} (ok : a.Lawful t)
    (room : start ≤ a.exprs.size) (within : a.Within depth id) :
    (copyWithin depth id).Works t a fun copied next => next.Copied start id copied := by
  induction depth generalizing a id with
  | zero => exact False.elim within
  | succ depth ih =>
    obtain ⟨expr, h, nested⟩ := within
    refine ask_bind h ?_
    have ops : Yields t.tolerated (Arena.Leads t)
        (({ symbol := pure, scope := pure, expr := copyWithin depth } : Renumbering Edit).exprKind
          expr.kind)
        a fun copied next => expr.kind.Alike (next.Copied start) copied := by
      refine Renumbering.exprKind_yields ok.leads ?_ fun child mem mid led => ?_
      · exact fun _ _ led _ _ => led.before.copied
      · exact ih led.lawful (room.trans led.before.exprs_le) (led.before.within (nested child mem))
    refine Yields.bind ops fun k mid led alike => ?_
    have law := led.before.lawfulExpr (ok.expr h)
    have new : mid.NewExpr t ⟨k, expr.type, expr.value, expr.span⟩ := {
      children := fun child mem => by
        obtain ⟨operand, -, copy⟩ := exists_of_mem_right alike.children mem
        exact copy.1.usable
      type := law.type
      value := law.value
      form := alike.lawfulForm (fun _ _ copy => copy.2) (led.before.lawfulForm (ok.expr h).form) }
    refine (addExpr_works led.lawful (room.trans led.before.exprs_le) new).mono
      fun copied next more ⟨since, made⟩ => ?_
    exact ⟨since, expr.type, more.before.hasType (led.before.hasType ⟨expr, h, rfl⟩), _, made, rfl⟩

theorem Edit.copy_works {id : ExprId} (ok : a.Lawful t) (room : start ≤ a.exprs.size)
    (lt : id.index < a.exprs.size) :
    (copy id).Works t a fun copied next => next.Copied start id copied :=
  copyWithin_works ok room ((ok.depth lt).mono (Nat.le_succ _))

end FortranSemantics
