import FortranSemantics.Proofs.Lawful.Move

/-!
# Copies of lawful expressions

A relocation replaces the identifiers in a type, an expression or a statement and leaves its shape.
So a copy of lawful expressions in another arena, with all that they refer to, is lawful there, and
operands are nested in it as they were.
-/

namespace FortranSemantics

open List Stmt

variable {type left right res : Ty} {id : ExprId} {k : ExprKind} {depth : Nat} {expr : Expr}

namespace Relocation

variable (move : Relocation)

/-! ## Types -/

theorem pastPointer_type (type : Ty) :
    (move.type type).pastPointer = move.type type.pastPointer := by
  induction type with
  | pointer target ih | allocatable target ih => exact ih
  | _ => rfl

theorem element_type (type : Ty) : (move.type type).element = move.type type.element := by
  unfold Ty.element
  rw [pastPointer_type]
  cases type.pastPointer <;> first | rfl | exact move.pastPointer_type _

theorem rank_type (type : Ty) : (move.type type).rank = type.rank := by
  unfold Ty.rank Ty.dims
  rw [pastPointer_type]
  cases type.pastPointer <;> first | rfl | exact length_map _

theorem type_of_plain (plain : type.IsPlain) : move.type type = type := by
  cases type <;> first | rfl | cases plain

theorem element_of_plain (plain : type.element.IsPlain) :
    (move.type type).element = type.element := by
  rw [element_type, move.type_of_plain plain]

theorem isElement_type (single : type.IsElement) : (move.type type).IsElement := by
  cases type <;> trivial

theorem flat_type (flat : type.Flat) : (move.type type).Flat := by
  unfold Ty.Flat at flat ⊢
  rw [pastPointer_type]
  cases named : type.pastPointer with
  | array el dims =>
    rw [named] at flat
    refine ⟨by simpa using flat.1, ?_⟩
    rw [pastPointer_type]
    exact move.isElement_type flat.2
  | _ => trivial

theorem supported_type (type : Ty) : (move.type type).Supported ↔ type.Supported := by
  induction type with
  | array _ _ ih | pointer _ ih | allocatable _ ih => exact ih
  | _ => rfl

theorem mem_exprs_type (mem : id ∈ (move.type type).exprs) : ∃ old ∈ type.exprs,
    move.expr old = id := by
  rw [← Ty.expr_mem_references, references_type] at mem
  obtain ⟨old, occurs, same⟩ := exists_expr_of_mem mem
  exact ⟨old, type.expr_mem_references.1 occurs, same⟩

theorem symbols_type (type : Ty) : (move.type type).symbols = type.symbols.map move.symbol := by
  induction type with
  | array el dims ih | pointer target ih | allocatable target ih => exact ih
  | _ => rfl

theorem conforms_type (conforms : left.Conforms right res) :
    (move.type left).Conforms (move.type right) (move.type res) where
  ranks := by simpa only [rank_type] using conforms.ranks
  rank := by simpa only [rank_type] using conforms.rank

theorem agree_type (agree : left.Agree right) : (move.type left).Agree (move.type right) := by
  unfold Ty.Agree
  rw [element_type, element_type]
  rcases agree with ⟨plain, same⟩ | ⟨k, leftLength, leftExpr, rightLength, rightExpr, one, o⟩
  · rw [same, move.type_of_plain plain]
    exact .inl ⟨plain, rfl⟩
  · rw [one, o]
    exact .inr ⟨k, _, _, _, _, rfl, rfl⟩

theorem castKind?_type (source target : Ty) :
    Conversion.castKind? (move.type source) (move.type target) =
      Conversion.castKind? source target := by
  unfold Conversion.castKind?
  rw [element_type, element_type]
  cases source.element <;> first | rfl | (cases target.element <;> rfl)

/-- The arguments and the result of a call of an array intrinsic fit as they did. -/
theorem fits_type {op : ArrayIntrinsic} {args : List Ty} (fits : op.Fits overload args res) :
    op.Fits overload (args.map move.type) (move.type res) := by
  have el {old : Ty} (member : old ∈ args) : (move.type old).element = old.element :=
    move.element_of_plain (fits.plain old member)
  have logical {old : Ty} (member : old ∈ args) (isLogical : old.isLogical = true) :
      (move.type old).isLogical = true := by
    unfold Ty.isLogical at isLogical ⊢
    rwa [el member]
  exact {
    arity := (length_map _).trans fits.arity
    plain := fun type mem => by
      obtain ⟨old, member, rfl⟩ := mem_map.1 mem
      exact (el member).symm ▸ fits.plain old member
    data := fun type isHead => by
      rw [head?_map] at isHead
      obtain ⟨old, first, rfl⟩ := Option.map_eq_some_iff.1 isHead
      have plain := fits.plain old (mem_of_head? first)
      have same : op.resultElement (move.type old) = op.resultElement old := by
        unfold ArrayIntrinsic.resultElement
        rw [el (mem_of_head? first)]
      have plainResult : (op.resultElement old).IsPlain := by
        unfold ArrayIntrinsic.resultElement
        split <;> trivial
      have given := fits.data old first
      rw [same, move.element_of_plain (given ▸ plainResult)]
      exact given
    dim := fun has type isDim => by
      rw [getElem?_map] at isDim
      obtain ⟨old, second, rfl⟩ := Option.map_eq_some_iff.1 isDim
      exact (move.rank_type old).trans (fits.dim has old second)
    rank := by
      have ranks : Ty.rank ∘ move.type = Ty.rank := funext move.rank_type
      rw [move.rank_type, map_map, ranks, fits.rank]
    location := fits.location
    notShape := fits.notShape
    mask := fun given type isLast => by
      rw [getLast?_map] at isLast
      obtain ⟨old, last, rfl⟩ := Option.map_eq_some_iff.1 isLast
      exact logical (mem_of_getLast? last) (fits.mask given old last)
    count := fun isCount type isHead => by
      rw [head?_map] at isHead
      obtain ⟨old, first, rfl⟩ := Option.map_eq_some_iff.1 isHead
      exact logical (mem_of_head? first) (fits.count isCount old first)
    sources := fun isMerge type isHead o isOther => by
      rw [head?_map] at isHead
      rw [getElem?_map] at isOther
      obtain ⟨old, first, rfl⟩ := Option.map_eq_some_iff.1 isHead
      obtain ⟨oldOther, second, rfl⟩ := Option.map_eq_some_iff.1 isOther
      rw [el (mem_of_head? first), el (mem_of_getElem? second)]
      exact fits.sources isMerge old first oldOther second }

/-! ## Expressions and statements -/

theorem mem_children_exprKind (mem : id ∈ (move.exprKind k).children) : ∃ old ∈ k.children,
    move.expr old = id := by
  rw [← ExprKind.expr_mem_references, references_exprKind] at mem
  obtain ⟨old, occurs, same⟩ := exists_expr_of_mem mem
  exact ⟨old, k.expr_mem_references.1 occurs, same⟩

theorem isArrayCall_exprKind (k : ExprKind) : (move.exprKind k).isArrayCall = k.isArrayCall := by
  cases k <;> rfl

theorem mem_exprsOf_stmts (mem : id ∈ exprsOf (move.stmts body)) :
    ∃ old ∈ exprsOf body, move.expr old = id := by
  rw [← expr_mem_referencesOf, references_stmts] at mem
  obtain ⟨old, occurs, same⟩ := exists_expr_of_mem mem
  exact ⟨old, (expr_mem_referencesOf body).1 occurs, same⟩

/-- What a relocated statement asks of its expressions. -/
def demand : Demand → Demand
  | .assigned target value => .assigned (move.expr target) (move.expr value)
  | .condition id => .condition (move.expr id)
  | .counter id => .counter (move.expr id)
  | .bound counter id => .bound (move.expr counter) (move.expr id)

mutual

theorem demands_stmt :
    ∀ statement : Stmt, demands (move.stmt statement) = (demands statement).map move.demand
  | .branch cond body orelse => by
    simp only [stmt, demands, demandsOf_stmts body, demandsOf_stmts orelse, map_cons,
      map_append, demand]
  | .loop var start last step body => by
    simp only [stmt, demands, demandsOf_stmts body, map_append]
    cases step <;> rfl
  | .loopWhile cond body => by simp only [stmt, demands, demandsOf_stmts body, map_cons, demand]
  | .assignment .. | .call .. | .stop _ | .print _ | .returnStmt | .exit | .cycle | .block _ => rfl

theorem demandsOf_stmts : ∀ statements : List Stmt,
    demandsOf (move.stmts statements) = (demandsOf statements).map move.demand
  | [] => rfl
  | first :: rest => by
    simp only [stmts, demandsOf, demands_stmt first, demandsOf_stmts rest, map_append]

end

mutual

theorem blocks_stmt :
    ∀ statement : Stmt, blocks (move.stmt statement) = (blocks statement).map move.symbol
  | .branch cond body orelse => by
    simp only [stmt, blocks, blocksOf_stmts body, blocksOf_stmts orelse, map_append]
  | .loop _ _ _ _ body | .loopWhile _ body => by simp only [stmt, blocks, blocksOf_stmts body]
  | .assignment .. | .call .. | .stop _ | .print _ | .returnStmt | .exit | .cycle | .block _ => rfl

theorem blocksOf_stmts : ∀ statements : List Stmt,
    blocksOf (move.stmts statements) = (blocksOf statements).map move.symbol
  | [] => rfl
  | first :: rest => by
    simp only [stmts, blocksOf, blocks_stmt first, blocksOf_stmts rest, map_append]

end

end Relocation

theorem Ty.symbol_mem_references {id : SymbolId} (mem : id ∈ type.symbols) :
    Reference.symbol id ∈ type.references := by
  induction type with
  | derived sym | polymorphic sym =>
    cases mem_singleton.1 mem
    exact mem_singleton_self _
  | array el dims ih => exact mem_append_left _ (ih mem)
  | pointer target ih | allocatable target ih => exact ih mem
  | _ => cases mem

namespace Arena

/-! ## Nested operands -/

section

variable {a : Arena}

/-- Operands that are nested to some depth are nested no deeper than there are expressions, as none
is nested in itself. -/
theorem Within.bounded (within : a.Within depth id) : a.Within a.exprs.size id := by
  -- the expressions passed on the way are distinct, so there are no more of them than expressions
  suffices passing : ∀ {depth : Nat} {id : ExprId} (passed : List ExprId), a.Within depth id →
    passed.Nodup →
      (∀ o ∈ passed, o.index < a.exprs.size ∧ Relation.TransGen a.Child o id) →
        a.Within (a.exprs.size - passed.length) id from
    passing [] within .nil nofun
  intro depth
  induction depth with
  | zero => exact fun _ within => within.elim
  | succ depth ih =>
    intro id passed within distinct known
    have fresh : id ∉ passed := fun mem => within.not_cyclic (known id mem).2
    obtain ⟨expr, h, nested⟩ := within
    have distinctNow : (id :: passed).Nodup := nodup_cons.2 ⟨fresh, distinct⟩
    have lt : ∀ o ∈ id :: passed, o.index < a.exprs.size :=
      forall_mem_cons.2 ⟨expr_inRange h, fun o mem => (known o mem).1⟩
    have room : (id :: passed).length ≤ a.exprs.size := by
      have indices : ((id :: passed).map ExprId.index).Nodup :=
        distinctNow.map fun left right same => by
          cases left; cases right; exact congrArg ExprId.mk same
      have subset : (id :: passed).map ExprId.index ⊆ range a.exprs.size := fun i mem => by
        obtain ⟨o, member, rfl⟩ := mem_map.1 mem
        exact mem_range.2 (lt o member)
      simpa using (indices.subperm subset).length_le
    rw [length_cons] at room
    obtain ⟨left, enough⟩ : ∃ left, a.exprs.size - passed.length = left + 1 :=
      ⟨a.exprs.size - passed.length - 1, by omega⟩
    rw [enough]
    refine ⟨expr, h, fun child mem => ?_⟩
    have step : a.Child id child := ⟨expr, h, mem⟩
    have deeper := ih (id :: passed) (nested child mem) distinctNow <|
      forall_mem_cons.2 ⟨⟨expr_inRange h, .single step⟩,
        fun o member => ⟨(known o member).1, (known o member).2.tail step⟩⟩
    rw [length_cons] at deeper
    exact deeper.mono (by omega)

end

/-! ## Copies -/

/-- Whether an arena holds a copy of what is held of another: of its expressions, with all that they
refer to. -/
structure Copies (source later : Arena) (move : Relocation) (held : Reference → Prop) : Prop where
  closed : ∀ {id expr}, held (.expr id) → source.expr id = .ok expr → ∀ r ∈ expr.references, held r
  expr : ∀ {id expr}, held (.expr id) → source.expr id = .ok expr →
    later.expr (move.expr id) = .ok (move.node expr)
  symbol : ∀ {id}, held (.symbol id) → (move.symbol id).index < later.symbols.size
  injective : ∀ {left right}, held (.expr left) → held (.expr right) →
    move.expr left = move.expr right → left = right

namespace Copies

variable {t : Terms} {source b : Arena} {move : Relocation} {held : Reference → Prop}
  (copies : source.Copies b move held)

include copies

section

variable (hh : held (.expr id))

include hh

theorem child {child : ExprId} (h : source.expr id = .ok expr) (mem : child ∈ expr.kind.children) :
    held (.expr child) :=
  copies.closed hh h _ (mem_append_right _ ((ExprKind.expr_mem_references _).2 mem))

theorem inRange (lt : id.index < source.exprs.size) : (move.expr id).index < b.exprs.size := by
  obtain ⟨expr, h⟩ := exists_expr lt
  exact expr_inRange (copies.expr hh h)

theorem hasType (has : source.HasType id type) : b.HasType (move.expr id) (move.type type) := by
  obtain ⟨expr, h, rfl⟩ := has
  exact ⟨_, copies.expr hh h, rfl⟩

end

theorem hasTypes (areHeld : ∀ id ∈ ids, held (.expr id))
    (typed : List.Forall₂ source.HasType ids types) :
    List.Forall₂ b.HasType (ids.map move.expr) (types.map move.type) := by
  induction typed with
  | nil => exact .nil
  | cons has _ ih =>
    obtain ⟨here, others⟩ := forall_mem_cons.1 areHeld
    exact .cons (copies.hasType here has) (ih others)

theorem isConstant (hh : held (.expr id)) (constant : source.IsConstant id) :
    b.IsConstant (move.expr id) := by
  obtain ⟨⟨k, type, v, span⟩, literal, h, rfl⟩ := constant
  exact ⟨_, literal, copies.expr hh h, rfl⟩

theorem lawfulType (lenient : t.lenient) (areHeld : ∀ r ∈ type.references, held r)
    (law : source.LawfulType t type) : b.LawfulType t (move.type type) where
  flat := move.flat_type law.flat
  exprs id listed := by
    obtain ⟨old, mem, rfl⟩ := move.mem_exprs_type listed
    exact copies.inRange (areHeld _ (type.expr_mem_references.2 mem)) (law.exprs old mem)
  symbols id listed := by
    rw [Relocation.symbols_type] at listed
    obtain ⟨old, mem, rfl⟩ := mem_map.1 listed
    exact ⟨copies.symbol (areHeld _ (Ty.symbol_mem_references mem)), .inl lenient⟩
  supported := (move.supported_type type).2 law.supported

/-- The relocated form of an expression is lawful where the form was. -/
theorem lawfulForm (areHeld : ∀ r ∈ k.references, held r) (law : source.LawfulForm type k) :
    b.LawfulForm (move.type type) (move.exprKind k) := by
  have operand {id : ExprId} (mem : id ∈ k.children) : held (.expr id) :=
    areHeld _ ((ExprKind.expr_mem_references k).2 mem)
  cases k with
  | var sym => exact copies.symbol (areHeld _ (mem_singleton_self _))
  | arithmetic left op right overloaded | logical left op right overloaded =>
    cases overloaded with
    | some call => trivial
    | none =>
      obtain ⟨leftType, rightType, one, o, plain, same, res, conforms⟩ := law
      refine ⟨_, _, copies.hasType (operand (.head _)) one,
        copies.hasType (operand (.tail _ (.head _))) o, ?_⟩
      rw [move.element_of_plain plain, move.element_of_plain (same ▸ plain),
        move.element_of_plain (res ▸ plain)]
      exact ⟨plain, same, res, move.conforms_type conforms⟩
  | compare left op right overloaded =>
    cases overloaded with
    | some call => trivial
    | none =>
      obtain ⟨leftType, rightType, one, o, agree, res, conforms⟩ := law
      refine ⟨_, _, copies.hasType (operand (.head _)) one,
        copies.hasType (operand (.tail _ (.head _))) o,
        move.agree_type agree, ?_, move.conforms_type conforms⟩
      rw [move.element_type, res]
      rfl
  | cast arg k =>
    obtain ⟨argType, has, converts, ranked⟩ := law
    refine ⟨_, copies.hasType (operand (.head _)) has, ?_, ?_⟩
    · rw [move.castKind?_type]
      exact converts
    · rw [move.rank_type, move.rank_type]
      exact ranked
  | arrayCall intrinsic overload args =>
    obtain ⟨types, typed, fits⟩ := law
    exact ⟨_, copies.hasTypes (fun _ => operand) typed, move.fits_type fits⟩
  | _ => trivial

theorem lawfulExpr (lenient : t.lenient) (hh : held (.expr id)) (h : source.expr id = .ok expr)
    (law : source.LawfulExpr t expr) : b.LawfulExpr t (move.node expr) := by
  have areHeld := copies.closed hh h
  obtain ⟨k, type, value, span⟩ := expr
  exact {
    children := fun child mem => by
      obtain ⟨old, member, rfl⟩ := move.mem_children_exprKind mem
      exact copies.inRange (copies.child hh h member) (law.children old member)
    type := copies.lawfulType lenient
      (fun r mem => areHeld r (mem_append_left _ (mem_append_left _ mem))) law.type
    value := fun id isValue => by
      obtain ⟨old, some, rfl⟩ := Option.map_eq_some_iff.1 isValue
      refine copies.isConstant (areHeld _ ?_) (law.value old some)
      exact mem_append_left _ (mem_append_right _ (expr_mem_map_toList.2 some))
    form := copies.lawfulForm (fun r mem => areHeld r (mem_append_right _ mem)) law.form }

theorem within (hh : held (.expr id)) (within : source.Within depth id) :
    b.Within depth (move.expr id) := by
  induction depth generalizing id with
  | zero => exact within
  | succ depth ih =>
    obtain ⟨expr, h, nested⟩ := within
    refine ⟨_, copies.expr hh h, fun child mem => ?_⟩
    obtain ⟨old, member, rfl⟩ := move.mem_children_exprKind mem
    exact ih (copies.child hh h member) (nested old member)

/-- What is nested in the copy of an expression is the copy of what is nested in the expression. -/
theorem reaches (ok : source.Lawful t) (hh : held (.expr first))
    (lt : first.index < source.exprs.size) (nested : b.Reaches (move.expr first) last) :
    ∃ original, held (.expr original) ∧ source.Reaches first original ∧
    last = move.expr original := by
  induction nested with
  | refl => exact ⟨first, hh, .refl, rfl⟩
  | tail _ step ih =>
    obtain ⟨mid, middleHeld, reached, rfl⟩ := ih
    obtain ⟨copy, copyFound, mem⟩ := step
    obtain ⟨expr, h⟩ := exists_expr (ok.reaches_inRange lt reached)
    cases (copies.expr middleHeld h).symm.trans copyFound
    obtain ⟨old, member, rfl⟩ := move.mem_children_exprKind mem
    exact ⟨old, copies.child middleHeld h member, reached.tail ⟨expr, h, member⟩, rfl⟩

/-- Targets and values stay separate in a copy. -/
theorem separate {target v : ExprId} (ok : source.Lawful t) (targetHeld : held (.expr target))
    (valueHeld : held (.expr v)) (targetInRange : target.index < source.exprs.size)
    (valueInRange : v.index < source.exprs.size) (apart : source.Separate target v) :
    b.Separate (move.expr target) (move.expr v) := by
  intro copy copyFound isCall nested
  obtain ⟨expr, h⟩ := exists_expr valueInRange
  cases (copies.expr valueHeld h).symm.trans copyFound
  obtain ⟨original, originalHeld, reached, same⟩ :=
    copies.reaches ok targetHeld targetInRange nested
  cases copies.injective valueHeld originalHeld same
  exact apart expr h ((move.isArrayCall_exprKind expr.kind).symm.trans isCall) reached

end Copies

end Arena

end FortranSemantics
