import FortranSemantics.Proofs.Lawful.Unit

/-!
# Accepted units

With a library that has no module to offer, a compilation unit is accepted or rejected, whatever it
says. In an accepted one every expression is well typed: the operands of an operation have elements
that agree and ranks that go together, a conversion is the one between the two types, and what is
attached as a value is a literal. Every type is one of scalars or of an array of scalars, of a kind
that its category has or a derived type. Typed well is also every statement, those of helpers
included: a target takes the value that is assigned to it, a condition is one logical value, and a
loop counts with a variable over integers of its kind.
-/

namespace FortranSemantics

open List

variable {a : Arena} {setup : Setup} {unit : Tree.CompilationUnit}

/-- With a library that has no module to offer, every compilation unit is accepted or rejected: no
step breaks. -/
theorem Analysis.accepted_or_rejected (unit : Tree.CompilationUnit) (setup : Setup)
    (nothing : setup.library.OffersNothing) : (∃ analysed, unit.analyse setup = .ok analysed) ∨
      ∃ error, unit.analyse setup = .error (.rejected error) :=
  (Analysis.analyse_lawful nothing).imp_left fun ⟨analysed, ran, _⟩ => ⟨analysed, ran⟩

/-- A program that adds an integer array and a real value, and reduces a selection of the array
through an alias. -/
def Tree.sampleMixture : Tree.CompilationUnit :=
  ⟨[.programUnit ⟨"p", [], [],
    [.var ⟨.integer none, [], [⟨"x", [⟨none, some ⟨.int "3", default⟩⟩], none, default⟩], default⟩,
     .var ⟨.real none, [], [⟨"y", [], none, default⟩], default⟩],
    [.print [⟨.binary .add ⟨.name "x", default⟩ ⟨.name "y", default⟩, default⟩],
     .associate [⟨"a", ⟨.name "x", default⟩⟩]
     [.print [⟨.call [] "sum" [⟨none, ⟨.name "a", default⟩⟩,
         ⟨some "mask", ⟨.binary .gt ⟨.name "a", default⟩ ⟨.int "1", default⟩, default⟩⟩], default⟩]]
         default], [],
    default⟩]⟩

/-- The program of the sample does not break either. -/
theorem Analysis.accepted_or_rejected_mixture : (⟨{}, {}⟩ : Setup).library.OffersNothing ∧
    ((∃ analysed, Tree.sampleMixture.analyse ⟨{}, {}⟩ = .ok analysed) ∨
      ∃ error, Tree.sampleMixture.analyse ⟨{}, {}⟩ = .error (.rejected error)) := by
  have nothing := Library.offersNothing_empty
  exact ⟨nothing, accepted_or_rejected _ _ nothing⟩

/-! ## Types -/

/-- Whether a type, maybe of the elements of an array, is well formed: of scalars or an array of
them, in wrappers in any order. Intrinsic types have a kind that there is, and what names a derived
type is or imports one. -/
def Arena.WellFormedType (arena : Arena) (inArray : Bool) : Ty → Prop
  | .integer kind | .logical kind => kind ∈ [1, 2, 4, 8]
  | .real kind | .complex kind => kind ∈ [4, 8]
  | .character kind _ _ => kind = 1
  | .derived symbol | .polymorphic symbol => ∃ info, arena.target symbol = .ok (.derivedType info)
  | .array element dims => inArray = false ∧ dims ≠ [] ∧ arena.WellFormedType true element
  | .pointer target | .allocatable target => arena.WellFormedType inArray target

variable (arena : Arena)

/-- Whether a type is that of a variable or of an expression, whatever refers to them. -/
def Arena.Stores (type : Ty) : Prop :=
  (∃ id symbol info, arena.symbol id = .ok symbol ∧ symbol.kind = .variable info ∧
    info.type = some type) ∨ ∃ id, arena.exprType id = .ok type

theorem Arena.NamesType.target {id : SymbolId} (names : a.NamesType id) :
    ∃ info, a.target id = .ok (.derivedType info) := by
  obtain ⟨past, st, s, parent, sym, h, formed⟩ := names
  have named : a.target id = .ok sym.kind := by
    unfold Arena.target
    rw [st]
    exact kind_eq_ok.2 ⟨sym, h, rfl⟩
  cases isType : sym.kind with
  | derivedType info => exact ⟨info, isType ▸ named⟩
  | _ =>
    rw [isType] at formed
    cases formed

theorem Arena.wellFormedType_scalar (single : type.pastPointer.IsElement)
    (supported : type.Supported) (names : ∀ id ∈ type.symbols, a.NamesType id) :
    a.WellFormedType inArray type := by
  induction type with
  | pointer target ih | allocatable target ih => exact ih single supported names
  | array element dims => cases single
  | derived sym | polymorphic sym => exact (names sym (.head _)).target
  | character k length lengthExpr => exact mem_singleton.1 supported
  | _ => exact supported

theorem Arena.LawfulType.wellFormed (law : a.LawfulType .strict type) :
    a.WellFormedType false type := by
  have names id mem := (law.symbols id mem).2.resolve_left not_false
  have flat := law.flat
  have supported := law.supported
  clear law
  induction type with
  | pointer target ih | allocatable target ih => exact ih names flat supported
  | array element dims => exact ⟨rfl, flat.1, wellFormedType_scalar flat.2 supported names⟩
  | _ => exact wellFormedType_scalar trivial supported names

/-- Every type of an accepted unit is well formed, whatever statements and selections it was put
together from, so it has a category. -/
theorem Analysis.types_wellFormed {analysed : Analysed} (nothing : setup.library.OffersNothing)
    (ran : unit.analyse setup = .ok analysed) {type : Ty} (stored : analysed.arena.Stores type) :
    analysed.arena.WellFormedType false type ∧ type.element.IsElement ∧ ∃ category,
    type.category = .ok category := by
  rcases @analyse_lawful setup unit nothing with ⟨again, ranAgain, lawful⟩ | ⟨error, refused⟩
  · cases ran.symm.trans ranAgain
    have law : analysed.arena.LawfulType .strict type := by
      rcases stored with ⟨id, symbol, info, found, named, typed⟩ | ⟨id, typed⟩
      · have law := lawful.kind found
        rw [named] at law
        exact law.type type typed
      · exact lawful.lawfulType (Arena.exprType_eq_ok.1 typed)
    exact ⟨law.wellFormed, law.flat.element, law.flat.exists_category⟩
  · cases ran.symm.trans refused

/-- A program that selects a member from every element of an array, which statements of their own
make a pointer. -/
def Tree.sampleShapes : Tree.CompilationUnit :=
  ⟨[.programUnit ⟨"p", [], [],
    [.derivedType ⟨"t", none, none, [⟨.integer none, [], [⟨"n", [], none, default⟩], default⟩],
      [], [], default⟩,
     .var ⟨.derived "t", [], [⟨"v", [], none, default⟩], default⟩,
     .attributeStmt .pointer ["v"] default, .attributeStmt (.dimension [⟨none, none⟩])
     ["v"] default],
    [.print [⟨.member "v" ["n"], default⟩]], [], default⟩]⟩

/-- In the sample the array, of pointers to values of the derived type, and the members selected
from it are of well formed types. -/
theorem Analysis.types_wellFormed_shapes : ∃ analysed,
    Tree.sampleShapes.analyse ⟨{}, {}⟩ = .ok analysed ∧
    analysed.arena.Stores (.array (.pointer (.derived ⟨1⟩)) [⟨none, none⟩]) ∧
    analysed.arena.WellFormedType false (.array (.pointer (.derived ⟨1⟩)) [⟨none, none⟩]) ∧
    analysed.arena.Stores (.array (.integer 4) [⟨none, none⟩]) ∧
    analysed.arena.WellFormedType false (.array (.integer 4) [⟨none, none⟩]) := by
  have nothing := Library.offersNothing_empty
  have shaped : (Tree.sampleShapes.analyse ⟨{}, {}⟩).toOption.any (fun analysed =>
      analysed.arena.exprType ⟨0⟩ = .ok (.array (.pointer (.derived ⟨1⟩)) [⟨none, none⟩]) ∧
        analysed.arena.exprType ⟨1⟩ = .ok (.array (.integer 4) [⟨none, none⟩])) = true := by
        decide +kernel
  cases ran : Tree.sampleShapes.analyse ⟨{}, {}⟩ with
  | error failure =>
    rw [ran] at shaped
    cases shaped
  | ok analysed =>
    rw [ran] at shaped
    obtain ⟨whole, members⟩ := of_decide_eq_true shaped
    exact ⟨analysed, rfl, .inr ⟨_, whole⟩, (types_wellFormed nothing ran (.inr ⟨_, whole⟩)).1,
      .inr ⟨_, members⟩, (types_wellFormed nothing ran (.inr ⟨_, members⟩)).1⟩

/-! ## Typing -/

/-- Whether operands of these types go together in an operation with such a result: their elements
agree or are strings of one kind, and arrays among them have the rank of the result. -/
structure Arena.Operands (arena : Arena) (left right result : Ty) : Prop where
  elements : arena.elementsEqual left.element right.element = .ok true ∨
    ∃ kind leftLength leftExpr rightLength rightExpr, left.element = .character kind leftLength
    leftExpr ∧
      right.element = .character kind rightLength rightExpr
  leftRank : left.isArray = true → result.rank = left.rank
  rightRank : right.isArray = true → result.rank = right.rank
  scalar : left.isScalar = true → right.isScalar = true → result.isScalar = true

/-- Whether the type of an expression goes with its form. -/
def Arena.TypedForm (type : Ty) : ExprKind → Prop
  | .arithmetic left _ right none | .logical left _ right none =>
    ∃ leftType rightType, arena.exprType left = .ok leftType ∧
      arena.exprType right = .ok rightType ∧
      arena.Operands leftType rightType type ∧ type.element = leftType.element ∧
      type.element = rightType.element
  | .compare left _ right none =>
    ∃ leftType rightType, arena.exprType left = .ok leftType ∧
      arena.exprType right = .ok rightType ∧
      arena.Operands leftType rightType type ∧ type.element = .logical 4
  | .cast arg kind =>
    ∃ source, arena.exprType arg = .ok source ∧ Conversion.castKind? source type = some kind ∧
      type.rank = source.rank
  | _ => True

/-- Whether an expression has a type that goes with its form, and a literal as its value if it has
one. -/
structure Arena.WellTyped (arena : Arena) (expr : Expr) : Prop where
  form : arena.TypedForm expr.type expr.kind
  value : ∀ id ∈ expr.value, ∃ held literal, arena.expr id = .ok held ∧
    held.kind = .constant literal

theorem Ty.IsPlain.elementsEqual (plain : ty.IsPlain) : a.elementsEqual ty ty = .ok true := by
  cases ty <;> first | exact congrArg Except.ok (decide_eq_true rfl) | cases plain

/-- Operands of types that agree and have one shape with the result go together. -/
theorem Ty.Agree.operands (agree : left.Agree right) (conforms : left.Conforms right res) :
    a.Operands left right res where
  elements := agree.imp_left fun ⟨plain, same⟩ => by rw [same]; exact plain.elementsEqual
  leftRank arr := by
    have ranked : 0 < left.rank := of_decide_eq_true arr
    have ranks := conforms.ranks
    have rank := conforms.rank
    omega
  rightRank arr := by
    have ranked : 0 < right.rank := of_decide_eq_true arr
    have ranks := conforms.ranks
    have rank := conforms.rank
    omega
  scalar leftScalar rightScalar := by
    have left : left.rank = 0 := eq_of_beq leftScalar
    have right : right.rank = 0 := eq_of_beq rightScalar
    exact beq_iff_eq.2 (by rw [conforms.rank, left, right]; rfl)

theorem Arena.LawfulForm.typed (law : a.LawfulForm ty k) : a.TypedForm ty k := by
  revert law
  unfold TypedForm
  split
  iterate 2
    · rintro ⟨leftType, rightType, left, right, plain, same, el, conforms⟩
      exact ⟨leftType, rightType, exprType_eq_ok.2 left, exprType_eq_ok.2 right,
        Ty.Agree.operands (.inl ⟨plain, same⟩) conforms, el, el.trans same.symm⟩
  · rintro ⟨leftType, rightType, left, right, agree, el, conforms⟩
    exact ⟨leftType, rightType, exprType_eq_ok.2 left, exprType_eq_ok.2 right,
      agree.operands conforms, el⟩
  · rintro ⟨src, arg, converts, rank⟩
    exact ⟨src, exprType_eq_ok.2 arg, converts, rank⟩
  · exact fun _ => trivial

/-- Every expression of an accepted unit is well typed, whether or not a statement refers to it. -/
theorem Analysis.expr_wellTyped {analysed : Analysed} (nothing : setup.library.OffersNothing)
    (ran : unit.analyse setup = .ok analysed) {id : ExprId} {expr : Expr}
    (found : analysed.arena.expr id = .ok expr) : analysed.arena.WellTyped expr := by
  rcases @analyse_lawful setup unit nothing with ⟨again, ranAgain, lawful⟩ | ⟨error, refused⟩
  · cases ran.symm.trans ranAgain
    have law := lawful.expr found
    refine ⟨law.form.typed, fun id attached => ?_⟩
    obtain ⟨held, literal, heldFound, isLiteral⟩ := law.value id attached
    exact ⟨held, literal, heldFound, isLiteral⟩
  · cases ran.symm.trans refused

/-- Whether the expression of an identifier is a sum. -/
def Arena.isSum (id : ExprId) : Bool :=
  match arena.expr id with
  | .ok ⟨.arithmetic _ .add _ none, _, _, _⟩ => true
  | _ => false

/-- The sum of the array and the real value is well typed, after a conversion of the array. -/
theorem Analysis.expr_wellTyped_mixture : ∃ analysed,
    Tree.sampleMixture.analyse ⟨{}, {}⟩ = .ok analysed ∧
    ∃ expr, analysed.arena.expr ⟨5⟩ = .ok expr ∧ analysed.arena.isSum ⟨5⟩ = true ∧
      analysed.arena.WellTyped expr := by
  have nothing := Library.offersNothing_empty
  have sum : (Tree.sampleMixture.analyse ⟨{}, {}⟩).toOption.any (·.arena.isSum ⟨5⟩) = true := by
    decide +kernel
  cases ran : Tree.sampleMixture.analyse ⟨{}, {}⟩ with
  | error failure =>
    rw [ran] at sum
    cases sum
  | ok analysed =>
    rw [ran] at sum
    obtain ⟨expr, found⟩ : ∃ expr, analysed.arena.expr ⟨5⟩ = .ok expr := by
      cases found : analysed.arena.expr ⟨5⟩ with
      | ok expr => exact ⟨expr, rfl⟩
      | error breach =>
        have sum : analysed.arena.isSum ⟨5⟩ = true := sum
        unfold Arena.isSum at sum
        rw [found] at sum
        cases sum
    exact ⟨analysed, rfl, expr, found, sum, expr_wellTyped nothing ran found⟩

/-! ## Statements -/

namespace Stmt

/-- Whether a statement stands among others or inside one of them. -/
inductive StandsIn (statement : Stmt) : List Stmt → Prop
  | among {body : List Stmt} (listed : statement ∈ body) : StandsIn statement body
  | inBranch {cond : ExprId} {inner orelse body : List Stmt}
      (listed : .branch cond inner orelse ∈ body)
      (inside : StandsIn statement inner) : StandsIn statement body
  | inElse {cond : ExprId} {inner orelse body : List Stmt}
      (listed : .branch cond inner orelse ∈ body)
      (inside : StandsIn statement orelse) : StandsIn statement body
  | inLoop {var start last : ExprId} {step : Option ExprId} {inner body : List Stmt}
      (listed : .loop var start last step inner ∈ body) (inside : StandsIn statement inner) :
      StandsIn statement body
  | inWhile {cond : ExprId} {inner body : List Stmt} (listed : .loopWhile cond inner ∈ body)
      (inside : StandsIn statement inner) : StandsIn statement body

variable {statement : Stmt} {body : List Stmt} {demand : Demand}

theorem mem_demandsOf (mem : statement ∈ body) (asked : demand ∈ statement.demands) :
    demand ∈ demandsOf body := by
  induction body with
  | nil => cases mem
  | cons first rest ih =>
    rcases mem_cons.1 mem with rfl | b
    · exact mem_append_left _ asked
    · exact mem_append_right _ (ih b)

theorem StandsIn.mem_demandsOf (inside : statement.StandsIn body)
    (asked : demand ∈ statement.demands) : demand ∈ demandsOf body := by
  induction inside with
  | among mem => exact Stmt.mem_demandsOf mem asked
  | inBranch mem _ ih => exact Stmt.mem_demandsOf mem (.tail _ (mem_append_left _ ih))
  | inElse mem _ ih => exact Stmt.mem_demandsOf mem (.tail _ (mem_append_right _ ih))
  | inLoop mem _ ih => exact Stmt.mem_demandsOf mem (mem_append_right _ ih)
  | inWhile mem _ ih => exact Stmt.mem_demandsOf mem (.tail _ ih)

end Stmt

namespace Arena

variable (arena : Arena)

/-- Whether elements of a type may be assigned to those of another: they are the same, strings of
one kind, or the other is a derived type that accepts them as an argument. -/
def Assignable (target value : Ty) : Prop :=
  value = target ∨
    (∃ kind length lengthExpr other otherExpr, target = .character kind length lengthExpr ∧
      value = .character kind other otherExpr) ∨
    ((∃ symbol, target = .derived symbol ∨ target = .polymorphic symbol) ∧
      arena.argumentCompatible target value = .ok true)

/-- Whether a value is one integer of the given kind. -/
def IsInteger (kind : Nat) (id : ExprId) : Prop :=
  ∃ type, arena.exprType id = .ok type ∧ type.element = .integer kind ∧ type.isScalar = true

/-- Whether a condition is one logical value. -/
def IsCondition (id : ExprId) : Prop :=
  ∃ type, arena.exprType id = .ok type ∧ type.isLogical = true ∧ type.isScalar = true

/-- Whether the expressions of a statement have the types that it needs. -/
def TypedStmt : Stmt → Prop
  | .assignment target value => ∃ targetType type, arena.exprType target = .ok targetType ∧
      arena.exprType value = .ok type ∧ (type.rank = 0 ∨ type.rank = targetType.rank) ∧
      arena.Assignable targetType.element type.element
  | .branch cond _ _ | .loopWhile cond _ => arena.IsCondition cond
  | .loop var start last step _ => arena.IsVar var ∧ ∃ kind, arena.IsInteger kind var ∧
      ∀ bound ∈ start :: last :: step.toList, arena.IsInteger kind bound
  | _ => True

theorem Takes.assignable {target v : Ty} (takes : a.Takes target v) (single : target.IsElement)
    (other : v.IsElement) : a.Assignable target v := by
  rcases takes with same | texts | accepted
  · exact .inl same
  · exact .inr (.inl texts)
  -- the elements of other types are compared by kind
  cases target with
  | derived sym => exact .inr (.inr ⟨⟨sym, .inl rfl⟩, accepted⟩)
  | polymorphic sym => exact .inr (.inr ⟨⟨sym, .inr rfl⟩, accepted⟩)
  | array | pointer | allocatable => cases single
  | _ =>
    unfold argumentCompatible at accepted
    rw [single.rank, other.rank, if_pos rfl, single.element, other.element] at accepted
    cases v <;> simp_all [elementsEqual, Assignable, pure, Except.pure]

/-- A statement that has what it asks for has expressions of the types that it needs. -/
theorem Lawful.typedStmt (ok : a.Lawful t) (typed : ∀ demand ∈ statement.demands, a.Typed demand) :
    a.TypedStmt statement := by
  cases statement with
  | assignment target v =>
    obtain ⟨targetType, type, hasTarget, has, ranks, takes⟩ := typed _ (.head _)
    exact ⟨targetType, type, exprType_eq_ok.2 hasTarget, exprType_eq_ok.2 has, ranks,
      takes.assignable (ok.lawfulType hasTarget).flat.element (ok.lawfulType has).flat.element⟩
  | branch cond | loopWhile cond =>
    obtain ⟨type, has, isLogical, scalar⟩ := typed _ (.head _)
    exact ⟨type, exprType_eq_ok.2 has, isLogical, beq_iff_eq.2 scalar⟩
  | loop var start last step inner =>
    obtain ⟨isVar, type, has, isInteger, scalar⟩ := typed _ (.head _)
    obtain ⟨k, element⟩ := Ty.isInteger_iff.1 isInteger
    refine ⟨isVar, k, ⟨type, exprType_eq_ok.2 has, element, beq_iff_eq.2 scalar⟩,
      fun bound mem => ?_⟩
    obtain ⟨counterType, own, hasCounter, hasOwn, same, single⟩ := typed (.bound var bound)
      (mem_append_left _ (.tail _ (mem_map_of_mem mem)))
    cases hasCounter.unique has
    exact ⟨own, exprType_eq_ok.2 hasOwn, same.trans element, beq_iff_eq.2 single⟩
  | _ => trivial

end Arena

/-- Every statement of an accepted unit, also inside of others and in the helpers that were made for
it, has expressions of the types that it needs. -/
theorem Analysis.stmt_wellTyped {analysed : Analysed} (nothing : setup.library.OffersNothing)
    (ran : unit.analyse setup = .ok analysed) {id : SymbolId} {symbol : Symbol} {body : List Stmt}
    {statement : Stmt}
    (found : analysed.arena.symbol id = .ok symbol) (has : symbol.kind.body? = some body)
    (inside : statement.StandsIn body) : analysed.arena.TypedStmt statement := by
  rcases @analyse_lawful setup unit nothing with ⟨again, ranAgain, lawful⟩ | ⟨error, refused⟩
  · cases ran.symm.trans ranAgain
    obtain ⟨scope, opens⟩ : ∃ scope, symbol.kind.scope? = some scope := by
      cases named : symbol.kind <;> rw [named] at has <;> first | exact ⟨_, rfl⟩ | cases has
    have law := lawful.body found opens has
    exact lawful.typedStmt fun demand asked =>
      (law.typed demand (inside.mem_demandsOf asked)).resolve_left not_false
  · cases ran.symm.trans refused

/-- Whether a symbol has a body of an assignment and a loop over a branch. -/
def Arena.hasGuardedLoop (id : SymbolId) : Bool :=
  match arena.symbol id with
  | .ok symbol =>
    match symbol.kind.body? with
    | some [.assignment .., .loop _ _ _ _ [.branch ..]] => true
    | _ => false
  | .error _ => false

/-- The helper that was made for the reduction of the sample starts with an assignment and loops
over a condition, all of them with proper types. -/
theorem Analysis.stmt_wellTyped_mixture : ∃ analysed,
    Tree.sampleMixture.analyse ⟨{}, {}⟩ = .ok analysed ∧
    ∃ symbol target value var start last step cond body orelse,
    analysed.arena.symbol ⟨12⟩ = .ok symbol ∧
      symbol.kind.body? = some [.assignment target value,
        .loop var start last step [.branch cond body orelse]] ∧
      analysed.arena.TypedStmt (.assignment target value) ∧
      analysed.arena.TypedStmt (.loop var start last step [.branch cond body orelse]) ∧
      analysed.arena.TypedStmt (.branch cond body orelse) := by
  have nothing := Library.offersNothing_empty
  have looped : (Tree.sampleMixture.analyse ⟨{}, {}⟩).toOption.any
      (·.arena.hasGuardedLoop ⟨12⟩) = true := by
    decide +kernel
  cases ran : Tree.sampleMixture.analyse ⟨{}, {}⟩ with
  | error failure =>
    rw [ran] at looped
    cases looped
  | ok analysed =>
    rw [ran] at looped
    have looped : analysed.arena.hasGuardedLoop ⟨12⟩ = true := looped
    unfold Arena.hasGuardedLoop at looped
    split at looped
    · next symbol found =>
      split at looped
      · next has =>
        have typed {statement : Stmt} := @stmt_wellTyped _ _ analysed nothing ran _ _ _
          statement found has
        exact ⟨analysed, rfl, symbol, _, _, _, _, _, _, _, _, _, found, has,
          typed (.among (.head _)),
          typed (.among (.tail _ (.head _))),
          typed (.inLoop (.tail _ (.head _)) (.among (.head _)))⟩
      · cases looped
    · cases looped

end FortranSemantics
