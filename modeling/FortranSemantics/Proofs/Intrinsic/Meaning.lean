import FortranSemantics.Intrinsic.Loop
import FortranSemantics.Proofs.Arena.Edit
import FortranSemantics.Proofs.Intrinsic.Execution

/-!
# What built expressions and loops mean

While the body of a procedure is built, expressions are added to the arena and none is changed. What
an expression means is therefore said of the arena it was built in together with all arenas that
begin with the same expressions.
-/

namespace FortranSemantics

open Arena Edit

variable {array sym : SymbolId} {vars : List SymbolId}
variable {id : ExprId} {ty : Ty} {a : Arena}

/-! ## Adding expressions -/

namespace Arena

/-- Whether the expressions of another arena begin with those of this one. -/
def Prefixes (arena later : Arena) : Prop :=
  arena.exprs.toList <+: later.exprs.toList

variable {a after b : Arena}

theorem Prefixes.refl (a : Arena) : a.Prefixes a :=
  List.prefix_refl _

theorem Prefixes.trans (first : a.Prefixes after) (second : after.Prefixes b) : a.Prefixes b :=
  List.IsPrefix.trans first second

section

variable (grown : a.Prefixes b)

include grown

theorem Prefixes.size_le : a.exprs.size ≤ b.exprs.size := by
  simpa using List.IsPrefix.length_le grown

theorem Prefixes.getElem? {i : Nat} (lt : i < a.exprs.size) : b.exprs[i]? = a.exprs[i]? := by
  rw [← Array.getElem?_toList, ← Array.getElem?_toList]
  obtain ⟨more, same⟩ := grown
  rw [← same, List.getElem?_append_left (by simpa using lt)]

theorem Prefixes.exprType (typed : a.exprType id = .ok ty) : b.exprType id = .ok ty := by
  obtain ⟨expr, h, same⟩ := bind_eq_ok.1 typed
  have lt := expr_inRange h
  rw [expr_eq_ok] at h
  exact bind_eq_ok.2 ⟨expr, expr_eq_ok.2 ((grown.getElem? lt).trans h), same⟩

end

/-- Whether an arena differs from an earlier one by additional expressions only. -/
structure Grows (arena after : Arena) : Prop where
  exprs : arena.Prefixes after
  others : after = { arena with exprs := after.exprs }

theorem Grows.refl (a : Arena) : a.Grows a :=
  ⟨.refl a, rfl⟩

theorem Grows.trans (first : a.Grows after) (second : after.Grows b) : a.Grows b where
  exprs := first.exprs.trans second.exprs
  others := by rw [second.others, first.others]

/-- Whether a symbol is a variable with the given type. -/
def Declared (arena : Arena) (symbol : SymbolId) (type : Ty) : Prop :=
  arena.variableType? symbol = .ok (some type)

theorem Declared.grows (declared : a.Declared sym ty) (grown : a.Grows after) :
    after.Declared sym ty := by
  rw [grown.others]
  exact declared

end Arena

/-- Whether an edit succeeds in an arena and does nothing but add expressions. -/
def Edit.Builds {α : Type} (edit : Edit α) (arena : Arena) (post : α → Arena → Prop) : Prop :=
  ∃ result after, edit arena = .ok result after ∧ arena.Grows after ∧ post result after

namespace Edit.Builds

variable {α β : Type} {a : Arena}

theorem pure {value : α} {post : α → Arena → Prop} (kept : post value a) :
    Edit.Builds (Pure.pure value) a post :=
  ⟨value, a, rfl, .refl a, kept⟩

theorem bind {first : Edit α} {next : α → Edit β} {mid : α → Arena → Prop}
    {post : β → Arena → Prop} (head : first.Builds a mid)
    (tail : ∀ value after, a.Grows after → mid value after → (next value).Builds after post) :
    Edit.Builds (first >>= next) a post := by
  obtain ⟨value, between, ran, grown, reached⟩ := head
  obtain ⟨res, after, ranNext, grownNext, finished⟩ := tail value between grown reached
  exact ⟨res, after, run_bind_eq_ok.2 ⟨value, between, ran, ranNext⟩,
    grown.trans grownNext, finished⟩

theorem mono {edit : Edit α} {post weaker : α → Arena → Prop} (built : edit.Builds a post)
    (weaken : ∀ res after, a.Grows after → post res after → weaker res after) :
    edit.Builds a weaker := by
  obtain ⟨res, after, ran, grown, reached⟩ := built
  exact ⟨res, after, ran, grown, weaken res after grown reached⟩

theorem ask {question : Arena → Except Breach α} {ans : α} (answered : question a = .ok ans) :
    (ask question).Builds a fun h after => h = ans ∧ after = a :=
  ⟨ans, a, ask_eq_ok.2 ⟨answered, rfl⟩, .refl a, rfl, rfl⟩

end Edit.Builds

theorem Edit.addExpr_builds (kind : ExprKind) (type : Ty) (value : Option ExprId) (span : Span) :
    (addExpr kind type value span).Builds a fun id after =>
      a.exprs.size = id.index ∧ after.exprs[id.index]? = some { kind, type, value, span } := by
  refine ⟨⟨a.exprs.size⟩, (a.addExpr { kind, type, value, span }).2, rfl, ⟨?_, rfl⟩, rfl, ?_⟩
  · simp [Arena.Prefixes, Arena.addExpr]
  · simp [Arena.addExpr]

/-! ## Meanings of expressions -/

namespace Arena

variable {a after b : Arena} {id left right : ExprId}

/-- Whether an expression is a reference to a variable. -/
def Refers (arena : Arena) (id : ExprId) (symbol : SymbolId) : Prop :=
  ∀ b, arena.Prefixes b → b.referent? id = some symbol

/-- Whether the value of an expression depends on the memory in the given way. -/
def Means (arena : Arena) (id : ExprId) (meaning : Memory → Option Constant) : Prop :=
  id.index < arena.exprs.size ∧ ∀ b, arena.Prefixes b → ∀ mem fuel, id.index < fuel →
    b.valueWithin mem fuel id = meaning mem

theorem Refers.grows (refers : a.Refers id sym) (grown : a.Grows after) : after.Refers id sym :=
  fun b more => refers b (grown.exprs.trans more)

/-- Expressions keep their meaning when others are added. -/
theorem Means.grows {meaning : Memory → Option Constant} (means : a.Means id meaning)
    (grown : a.Grows after) : after.Means id meaning :=
  ⟨Nat.lt_of_lt_of_le means.1 grown.exprs.size_le, fun b more => means.2 b (grown.exprs.trans more)⟩

theorem Means.value {meaning : Memory → Option Constant} (means : a.Means id meaning)
    (more : a.Prefixes b) (mem : Memory) : b.value mem id = meaning mem :=
  means.2 b more mem _ (Nat.lt_succ_of_lt (Nat.lt_of_lt_of_le means.1 more.size_le))

/-- The form of an expression determines its meaning. -/
theorem means_of_form {expr : Expr} {meaning : Memory → Option Constant}
    (here : a.exprs[id.index]? = some expr)
    (rule : ∀ b, a.Prefixes b → b.exprs[id.index]? = some expr → ∀ mem fuel,
      id.index ≤ fuel → b.valueWithin mem (fuel + 1) id = meaning mem) : a.Means id meaning := by
  have lt := (Array.getElem?_eq_some_iff.1 here).1
  refine ⟨lt, fun b more mem fuel enough => ?_⟩
  cases fuel with
  | zero => exact absurd enough (Nat.not_lt_zero _)
  | succ fuel =>
    exact rule b more ((more.getElem? lt).trans here) mem fuel (Nat.lt_succ_iff.1 enough)

section

variable {span : Span} {value : Option ExprId}

theorem means_constant {constant : Constant}
    (here : a.exprs[id.index]? = some ⟨.constant constant, ty, value, span⟩) :
    a.Means id fun _ => some constant :=
  means_of_form here fun b _ h mem fuel _ => by simp [valueWithin, h]

section

variable (here : a.exprs[id.index]? = some ⟨.var sym, ty, value, span⟩)

include here

theorem means_var : a.Means id (·.scalar sym) :=
  means_of_form here fun b _ h mem fuel _ => by simp [valueWithin, h]

theorem refers_var : a.Refers id sym := by
  intro b more
  have lt := (Array.getElem?_eq_some_iff.1 here).1
  simp [referent?, more.getElem? lt, here]

end

theorem Means.operand {meaning : Memory → Option Constant} (means : a.Means left meaning)
    (grown : a.Grows after) (size : a.exprs.size = id.index) (more : after.Prefixes b)
    (mem : Memory)
    {fuel : Nat} (enough : id.index ≤ fuel) : b.valueWithin mem fuel left = meaning mem := by
  have lt := means.1
  exact means.2 b (grown.exprs.trans more) mem fuel (by omega)

theorem means_arraySize {array dim : ExprId} {number : Int}
    (refers : a.Refers array sym) (dimMeans : a.Means dim fun _ => some (.integer number))
    (grown : a.Grows after) (size : a.exprs.size = id.index)
    (here : after.exprs[id.index]? = some ⟨.arraySize array (some dim), ty, value, span⟩) :
    after.Means id (fun mem => do
      return .integer (← (← mem.array sym).extent? number)) :=
  means_of_form here fun b more h mem fuel enough => by
    simp [valueWithin, h, dimMeans.operand grown size more mem enough, Constant.integer?,
      refers b (grown.exprs.trans more)]

end

end Arena

/-! ## Places -/

namespace Memory

/-- The values of some counters. -/
def index? (mem : Memory) (vars : List SymbolId) : Option (List Int) :=
  vars.mapM fun counter => (mem.scalar counter).bind Constant.integer?

end Memory

namespace Intrinsic

/-- What a place holds. -/
def Place.read (mem : Memory) : Place → Option Constant
  | .var sym => mem.scalar sym
  | .item array vars => do
    let index ← mem.index? vars
    (← mem.array array).item? index

/-- The memory in which a place holds another value. -/
def Place.write (value : Constant) (mem : Memory) : Place → Option Memory
  | .var sym => some (mem.setScalar sym value)
  | .item array vars => do
    let index ← mem.index? vars
    mem.setItem? array index value

/-- Whether a place is made of declared variables and holds values of the given type. -/
def Place.Declared (arena : Arena) (type : Ty) : Place → Prop
  | .var sym => ∃ declared, arena.Declared sym declared ∧ declared.element = type
  | .item array vars => (∃ declared, arena.Declared array declared ∧ declared.element = type) ∧
      ∀ counter ∈ vars, arena.Declared counter (.integer 4)

theorem Place.Declared.grows {after : Arena} {place : Place} (declared : place.Declared a ty)
    (grown : a.Grows after) : place.Declared after ty := by
  cases place with
  | var sym =>
    obtain ⟨held, h, same⟩ := declared
    exact ⟨held, h.grows grown, same⟩
  | item array vars =>
    obtain ⟨⟨held, h, same⟩, integers⟩ := declared
    exact ⟨⟨held, h.grows grown, same⟩, fun counter mem => (integers counter mem).grows grown⟩

end Intrinsic

namespace Arena

variable {a after b : Arena}

/-- Whether an expression stands for a part of the memory: its value is read there, and assignments
to it write there. -/
structure Stands (arena : Arena) (id : ExprId) (read : Memory → Option Constant)
    (write : Constant → Memory → Option Memory) : Prop where
  means : arena.Means id read
  assigns : ∀ b, arena.Prefixes b → ∀ value mem, b.assign id value mem = write value mem

theorem Stands.grows {read : Memory → Option Constant} {write : Constant → Memory → Option Memory}
    (st : a.Stands id read write) (grown : a.Grows after) : after.Stands id read write :=
  ⟨st.means.grows grown, fun b more => st.assigns b (grown.exprs.trans more)⟩

/-- Whether an expression stands for a place. -/
abbrev Locates (arena : Arena) (id : ExprId) (place : Intrinsic.Place) : Prop :=
  arena.Stands id (fun mem => place.read mem) fun value mem => place.write value mem

theorem mapM_integers {α : Type} {ids : List ExprId} {items : List α}
    {values : ExprId → Option Constant} {meaning : α → Option Constant}
    (each : List.Forall₂ (fun id item => values id = meaning item) ids items) :
    (ids.mapM fun id => (values id).bind Constant.integer?) =
      items.mapM fun item => (meaning item).bind Constant.integer? := by
  induction each with
  | nil => rfl
  | cons here _ ih => rw [List.mapM_cons, List.mapM_cons, here, ih]

/-- An element of an array stands for what its indices select. -/
theorem stands_item {α : Type} {array : ExprId} {ids : List ExprId} {items : List α}
    {meaning : α → Memory → Option Constant} {value : Option ExprId} {span : Span}
    (refers : a.Refers array sym)
    (indices : List.Forall₂ (fun id item => a.Means id (meaning item)) ids items)
    (grown : a.Grows after) (size : a.exprs.size = id.index)
    (here : after.exprs[id.index]? = some ⟨.arrayItem array ids, ty, value, span⟩) : after.Stands id
      (fun mem => do
        let i ← items.mapM fun item => (meaning item mem).bind Constant.integer?
        (← mem.array sym).item? i)
      (fun value mem => do
        let i ← items.mapM fun item => (meaning item mem).bind Constant.integer?
        mem.setItem? sym i value) where
  means := means_of_form here fun b more h mem fuel enough => by
    have values := mapM_integers (indices.imp fun _ _ means =>
      means.operand grown size more mem enough)
    simp [valueWithin, h, values, refers b (grown.exprs.trans more)]
  assigns b more constant mem := by
    have lt := (Array.getElem?_eq_some_iff.1 here).1
    have values := mapM_integers
      (indices.imp fun _ _ means => means.value (grown.exprs.trans more) mem)
    change (ids.mapM (b.integerValue mem)) = _ at values
    simp [assign, more.getElem? lt, here, values, refers b (grown.exprs.trans more)]

theorem locates_var {value : Option ExprId} {span : Span}
    (here : a.exprs[id.index]? = some ⟨.var sym, ty, value, span⟩) : a.Locates id (.var sym) where
  means := means_var here
  assigns b more constant mem := by
    have lt := (Array.getElem?_eq_some_iff.1 here).1
    simp [assign, more.getElem? lt, here, Intrinsic.Place.write]

end Arena

/-! ## Building expressions -/

namespace Intrinsic.Frame

variable {a : Arena} {ty : Ty}

theorem exprType_of_form {expr : Expr} (here : a.exprs[id.index]? = some expr) :
    a.exprType id = .ok expr.type :=
  bind_eq_ok.2 ⟨expr, expr_eq_ok.2 here, rfl⟩

section

variable (frame : Frame)

include frame

theorem var_builds (declared : a.Declared sym ty) : (frame.var sym).Builds a fun id after =>
      after.Locates id (.var sym) ∧ after.Refers id sym ∧ after.exprType id = .ok ty := by
  refine .bind (.ask declared) ?_
  rintro _ _ - ⟨rfl, rfl⟩
  exact (addExpr_builds _ _ _ _).mono fun id after _ built =>
    ⟨locates_var built.2, refers_var built.2, exprType_of_form built.2⟩

theorem vars_builds (declared : ∀ counter ∈ counters, a.Declared counter ty) :
    Edit.Builds (counters.mapM frame.var) a fun ids after =>
      List.Forall₂ (fun id counter => after.Means id (·.scalar counter)) ids counters := by
  induction counters generalizing a with
  | nil => exact .pure .nil
  | cons counter rest ih =>
    rw [List.mapM_cons]
    refine .bind (frame.var_builds (declared counter (.head _))) ?_
    rintro first after grown ⟨locates, -, -⟩
    refine .bind (ih fun o mem => (declared o (.tail _ mem)).grows grown) ?_
    intro others final grownMore means
    exact .pure (.cons (locates.means.grows grownMore) means)

theorem constant_builds (value : Constant) (ty : Ty) :
    (frame.constant value ty).Builds a fun id after => after.Means id fun _ => some value :=
  (addExpr_builds _ _ _ _).mono fun _ _ _ built => means_constant built.2

theorem integer_builds (value : Int) :
    (frame.integer value).Builds a fun id after => after.Means id fun _ => some (.integer value) :=
  frame.constant_builds _ _

/-- An element of an array is built from its indices. -/
theorem itemAt_builds {α : Type} {items : List α} {meaning : α → Memory → Option Constant}
    {indices : Edit (List ExprId)} (declared : a.Declared array ty)
    (builds : ∀ after, a.Grows after → indices.Builds after fun ids final =>
      List.Forall₂ (fun id item => final.Means id (meaning item)) ids items) :
    (frame.itemAt array indices).Builds a fun id after => after.Stands id (fun mem => do
          let i ← items.mapM fun item => (meaning item mem).bind Constant.integer?
          (← mem.array array).item? i)
        (fun value mem => do
          let i ← items.mapM fun item => (meaning item mem).bind Constant.integer?
          mem.setItem? array i value) ∧ after.exprType id = .ok ty.element := by
  refine .bind (frame.var_builds declared) ?_
  rintro base after grown ⟨-, refers, typed⟩
  refine .bind (.ask typed) ?_
  rintro _ _ - ⟨rfl, rfl⟩
  refine .bind (builds _ grown) fun ids mid grownMore means => ?_
  refine (addExpr_builds _ _ _ _).mono fun id final grownLast built => ?_
  exact ⟨stands_item (refers.grows grownMore) means grownLast built.1 built.2,
    exprType_of_form built.2⟩

theorem item_builds (declared : a.Declared array ty)
    (integers : ∀ counter ∈ vars, a.Declared counter (.integer 4)) :
    (frame.item array vars).Builds a fun id after =>
      after.Locates id (.item array vars) ∧ after.exprType id = .ok ty.element :=
  frame.itemAt_builds declared fun _ grown => frame.vars_builds fun counter mem =>
    (integers counter mem).grows grown

theorem literalItem_builds (declared : a.Declared array ty) (position : Int) :
    (frame.literalItem array position).Builds a fun id after =>
      after.Stands id (fun mem => (mem.array array).bind (·.item? [position]))
        fun value mem => mem.setItem? array [position] value :=
  (@itemAt_builds _ _ _ frame Int [position] (fun number _ => some (.integer number)) _
    declared fun _ _ =>
    (frame.integer_builds position).bind fun _ _ _ means => .pure (.cons means .nil)).mono
    fun _ _ _ built => built.1

/-- The content of a place is what is stored there. -/
theorem content_builds {place : Place} (declared : place.Declared a ty) (plain : ty.element = ty) :
    (frame.content place).Builds a fun id after =>
      after.Locates id place ∧ ∃ held, after.exprType id = .ok held ∧ held.element = ty := by
  cases place with
  | var sym =>
    obtain ⟨held, h, same⟩ := declared
    exact (frame.var_builds h).mono fun id after _ built => ⟨built.1, held, built.2.2, same⟩
  | item array vars =>
    obtain ⟨⟨held, h, rfl⟩, integers⟩ := declared
    exact (frame.item_builds h integers).mono fun id after _ built =>
      ⟨built.1, held.element, built.2, plain⟩

theorem extent_builds (dim : Nat) (declared : a.Declared array ty) :
    (frame.extent array dim).Builds a fun id after => after.Means id (fun mem => do
      return .integer (← (← mem.array array).extent? dim)) := by
  refine .bind (frame.var_builds declared) ?_
  rintro base after grown ⟨-, refers, -⟩
  refine .bind (frame.integer_builds dim) fun number mid grownMore means => ?_
  exact (addExpr_builds _ _ _ _).mono fun id final grownLast built =>
    means_arraySize (refers.grows grownMore) means grownLast built.1 built.2

end

section

variable (frame : Frame) {left right : ExprId} {leftMeaning rightMeaning : Memory → Option Constant}
  (leftMeans : a.Means left leftMeaning) (rightMeans : a.Means right rightMeaning)

include leftMeans rightMeans

/-- An expression with two operands is built, and means what the rule for its form makes of what
they mean. -/
theorem operation_builds {k : ExprKind} {span : Span} (rule : Constant → Constant → Option Constant)
    (evaluates : ∀ (b : Arena) (id : ExprId), b.exprs[id.index]? = some ⟨k, ty, none, span⟩ →
      ∀ mem fuel, b.valueWithin mem (fuel + 1) id = do
        rule (← b.valueWithin mem fuel left) (← b.valueWithin mem fuel right)) :
    (addExpr k ty none span).Builds a fun id after => after.Means id (fun mem => do
      rule (← leftMeaning mem) (← rightMeaning mem)) := by
  refine (addExpr_builds _ _ _ _).mono fun id after grown built => ?_
  refine means_of_form built.2 fun b more h mem fuel enough => ?_
  rw [evaluates b id h, leftMeans.operand grown built.1 more mem enough,
    rightMeans.operand grown built.1 more mem enough]

theorem arithmetic_builds (op : ArithmeticOperator) (typed : a.exprType left = .ok ty) :
    (frame.arithmetic left op right).Builds a fun id after => after.Means id (fun mem => do
      Folding.arithmetic op ty (← leftMeaning mem) (← rightMeaning mem)) := by
  refine .bind (.ask typed) ?_
  rintro _ _ - ⟨rfl, rfl⟩
  exact operation_builds leftMeans rightMeans _ fun _ _ h _ _ => by simp [valueWithin, h]

theorem compare_builds (op : Comparison) :
    (frame.compare left op right).Builds a fun id after => after.Means id (fun mem => do
      Folding.compare op (← leftMeaning mem) (← rightMeaning mem)) :=
  operation_builds leftMeans rightMeans _ fun _ _ h _ _ => by simp [valueWithin, h]

theorem logical_builds (op : LogicalOperator) (typed : a.exprType left = .ok ty) :
    (frame.logical left op right).Builds a fun id after => after.Means id (fun mem => do
      Folding.logical op (← leftMeaning mem) (← rightMeaning mem)) := by
  refine .bind (.ask typed) ?_
  rintro _ _ - ⟨rfl, rfl⟩
  exact operation_builds leftMeans rightMeans _ fun _ _ h _ _ => by simp [valueWithin, h]

end

end Intrinsic.Frame

/-! ## Meanings of statements -/

namespace Arena

variable {a b : Arena}

theorem run_assignment {target value : ExprId} {read meaning : Memory → Option Constant}
    {write : Constant → Memory → Option Memory} (st : a.Stands target read write)
    (means : a.Means value meaning) (more : a.Prefixes b) (mem : Memory) :
    b.run (.assignment target value) mem = (meaning mem).bind (write · mem) := by
  simp only [run, means.value more]
  exact congrArg _ (funext fun constant => st.assigns b more constant mem)

theorem run_branch {cond : ExprId} {meaning : Memory → Option Constant}
    (means : a.Means cond meaning)
    (more : a.Prefixes b) (body orelse : List Stmt) {mem : Memory} {holds : Bool}
    (decided : meaning mem = some (.logical holds)) : b.run (.branch cond body orelse) mem =
      if holds then b.runAll body mem else b.runAll orelse mem := by
  simp [run, means.value more, decided, Constant.logical?]

theorem runAll_append (a : Arena) (first second : List Stmt) (mem : Memory) :
    a.runAll (first ++ second) mem = (a.runAll first mem).bind (a.runAll second) := by
  induction first generalizing mem with
  | nil => rfl
  | cons stmt rest ih =>
    simp only [List.cons_append, runAll]
    cases a.run stmt mem with
    | none => rfl
    | some next => exact ih next

theorem runAll_singleton (a : Arena) (statement : Stmt) (mem : Memory) :
    a.runAll [statement] mem = a.run statement mem := by
  simp [runAll]

end Arena

namespace Memory

/-- Runs a step for all elements of an array, in loops from the first counter outwards. Dimensions
count from `dim`. -/
def nest (array : SymbolId) : Nat → List SymbolId → (Memory → Option Memory) → Memory →
    Option Memory
  | _, [], step => step
  | dim, counter :: rest, step => nest array (dim + 1) rest fun mem => do
    iterate counter 1 step (← (← mem.array array).extent? dim) 1 mem

end Memory

namespace Intrinsic.Frame

/-- Loops over an array are built, and run as a nest. -/
theorem loopsFrom_builds (frame : Frame) (dim : Nat) (body : List Stmt)
    (declared : a.Declared array ty)
    (integers : ∀ counter ∈ vars, a.Declared counter (.integer 4)) :
    (frame.loopsFrom array dim vars body).Builds a fun stmts after => ∀ b, after.Prefixes b → ∀ mem,
        b.runAll stmts mem = Memory.nest array dim vars (b.runAll body) mem := by
  induction vars generalizing a dim body with
  | nil => exact .pure fun b _ mem => rfl
  | cons counter rest ih =>
    refine .bind (frame.var_builds (integers counter (.head _))) ?_
    rintro var first grown ⟨-, refers, -⟩
    refine .bind (frame.integer_builds 1) fun start second grownSecond startMeans => ?_
    have declared := (declared.grows grown).grows grownSecond
    refine .bind (frame.extent_builds dim declared) fun stop third grownThird stopMeans => ?_
    refine (ih (dim + 1) _ (declared.grows grownThird) fun o listed =>
      (((integers o (.tail _ listed)).grows grown).grows grownSecond).grows
        grownThird).mono fun stmts after grownLast runs b more mem => ?_
    have moreThird := grownLast.exprs.trans more
    have loop : b.runAll [.loop var start stop none body] = (fun mem => do
        Memory.iterate counter 1 (b.runAll body) (← (← mem.array array).extent? dim) 1 mem) := by
      funext mem
      have counted := (refers.grows grownSecond).grows grownThird b moreThird
      have startValue := (startMeans.grows grownThird).value moreThird mem
      have stopValue := stopMeans.value moreThird mem
      rw [runAll_singleton]
      simp only [run, counted, integerValue, startValue, stopValue]
      cases (mem.array array) with
      | none => rfl
      | some grid =>
        cases extent : grid.extent? dim with
        | none => simp [extent]
        | some extent => simp [extent, Constant.integer?]
    rw [runs b more mem, loop]
    rfl

end Intrinsic.Frame

end FortranSemantics
