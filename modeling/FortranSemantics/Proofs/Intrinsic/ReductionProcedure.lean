import FortranSemantics.Proofs.Arena.TypeShape
import FortranSemantics.Proofs.Intrinsic.Procedure
import FortranSemantics.Proofs.Intrinsic.Reduction

/-!
# Generated reductions

A call of a reduction over integers or truth values has a generated procedure. Whatever arguments
the procedure is given, running its body leaves the reduction in its result.
-/

namespace FortranSemantics

open List

variable {type : Ty} {after before : Arena} {dim mask : Option SymbolId} {array : SymbolId}

/-! ## Calls of reductions -/

/-- A call of a reduction over an array of integers or truth values, by the types of its arguments.
-/
structure ReductionCall where
  intrinsic : ArrayIntrinsic
  /-- The kind of the elements. -/
  kind : Nat
  data : Ty
  dim : Option Ty
  mask : Option Ty
  result : Ty
  reduces : intrinsic.isReduction = true
  isArray : data.isArray = true
  element : data.element = intrinsic.elementType kind
  dimScalar : ∀ type ∈ dim, type.isInteger = true ∧ type.isScalar = true
  maskShape : ∀ type ∈ mask, type.isLogical = true ∧ type.rank = data.rank
  value : result.element = intrinsic.valueType kind
  /-- The result has the other dimensions when one of several is reduced, and none otherwise. -/
  shape : result.rank = if dim.isSome ∧ 1 < data.rank then data.rank - 1 else 0

namespace ReductionCall

variable (call : ReductionCall)

/-- Which optional arguments a call has. -/
def overload : Overload :=
  match call.dim, call.mask with
  | none, none => .array
  | some _, none => .arrayDim
  | none, some _ => .arrayMask
  | some _, some _ => .arrayDimMask

/-- What identifies the procedure that is generated for a call. -/
def key : HelperKey where
  intrinsic := call.intrinsic
  category := if call.intrinsic.isNumeric then .integer else .logical
  kind := call.kind
  rank := call.data.rank
  overload := call.overload

/-- The types of the arguments of a call. -/
def argTypes : List Ty :=
  call.data :: (call.dim.toList ++ call.mask.toList)

open Intrinsic

/-- The body of a generated reduction, by its dummy arguments. -/
theorem reductionBody_eq (frame : Frame) (array res : SymbolId)
    (hasDim : dim.isSome = call.dim.isSome) (hasMask : mask.isSome = call.mask.isSome) :
    reductionBody frame call.key (array :: (dim.toList ++ mask.toList)) res call.result = (do
      let vars ← frame.loopVariables call.data.rank
      if call.result.isScalar then
      scalarReduction frame call.intrinsic array res mask vars call.result.element else
        match dim with
        | none => broken .reductionWithoutDim
        | some dim =>
          match ← Edit.ask (·.variableType? dim) with
          | none => broken .untypedDim
          | some dimType =>
            dimBranches frame call.intrinsic array dim res dimType call.result.element mask vars
              call.data.rank []) := by
  have dimPresent : call.key.overload.hasDim = dim.isSome := by
    rw [hasDim]
    unfold key overload
    cases call.dim <;> cases call.mask <;> rfl
  have maskPresent : call.key.overload.hasMask = mask.isSome := by
    rw [hasMask]
    unfold key overload
    cases call.dim <;> cases call.mask <;> rfl
  unfold reductionBody
  rw [dimPresent, maskPresent]
  cases dim <;> cases mask <;> rfl

theorem length_helperDummies : (helperDummies call.key).length = call.argTypes.length := by
  have reduces := call.reduces
  unfold helperDummies key argTypes overload
  cases call.dim <;> cases call.mask <;> cases called : call.intrinsic <;>
    first | rfl | (rw [called] at reduces; cases reduces)

/-- The dummy arguments of a generated reduction: the array, and the dimension and the mask where
the call has them. -/
structure Dummies (call : ReductionCall) (arena : Arena) (array : SymbolId)
    (dim mask : Option SymbolId) : Prop where
  hasDim : dim.isSome = call.dim.isSome
  hasMask : mask.isSome = call.mask.isSome
  array : arena.Declared array (.assumedShape call.data.element call.data.rank)
  dim : ∀ symbol ∈ dim, ∃ type, arena.Declared symbol type
  mask : ∀ symbol ∈ mask, ∃ type, arena.Declared symbol type

theorem Dummies.more {call : ReductionCall} {count : Nat} (ds : call.Dummies before array dim mask)
    (more : before.DeclaresMore after count) : call.Dummies after array dim mask where
  hasDim := ds.hasDim
  hasMask := ds.hasMask
  array := more.declared _ _ ds.array
  dim sym mem := (ds.dim sym mem).imp fun _ h => more.declared _ _ h
  mask sym mem := (ds.mask sym mem).imp fun _ h => more.declared _ _ h

/-- Declared variables with the types of the arguments are the dummy arguments of a generated
reduction. -/
theorem exists_dummies {a : Arena} {symbols : List SymbolId} (each : List.Forall₂ (fun sym type =>
      a.Declared sym (.assumedShape type.element type.rank)) symbols call.argTypes) :
    ∃ array dim mask, symbols = array :: (Option.toList dim ++ Option.toList mask) ∧
      call.Dummies a array dim mask := by
  unfold argTypes at each
  obtain ⟨array, rest, here, there, rfl⟩ := forall₂_cons_right_iff.1 each
  obtain ⟨dim, rest, rfl, hasDim, dimDeclared, there⟩ := exists_option there
  rw [← append_nil call.mask.toList] at there
  obtain ⟨mask, rest, rfl, hasMask, maskDeclared, there⟩ := exists_option there
  cases there
  refine ⟨array, dim, mask, by rw [append_nil], hasDim, hasMask, here, ?_, ?_⟩
  · exact fun sym mem => (dimDeclared sym mem).imp' _ fun _ h => h
  · exact fun sym mem => (maskDeclared sym mem).imp' _ fun _ h => h

theorem element_declared : (if call.result.isScalar then
      call.result else .assumedShape call.result.element call.result.rank).element =
      call.intrinsic.valueType call.kind := by
  split
  · exact call.value
  · rw [call.value]
    exact Ty.IsElement.element_assumedShape (by cases call.intrinsic <;> trivial) _

/-- Whether running a body with the operands of a reduction in the dummy arguments leaves the
reduction in the result: over all elements where it is a scalar, and along the given dimension where
it is an array. -/
structure Computes (call : ReductionCall) (arena : Arena) (body : List Stmt) (array : SymbolId)
    (dim mask : Option SymbolId) (result : SymbolId) : Prop where
  scalar : call.result.isScalar = true → ∀ mem operands,
    Operands.Fit operands call.intrinsic call.kind → operands.data.extents.length = call.data.rank →
      Holding mem operands array mask → ∃ final, arena.runAll body mem = some final ∧
        final.scalar result = some
          (operands.reduce call.intrinsic call.kind (Grid.indices operands.data.extents))
  along : call.result.isScalar = false → ∀ mem operands number,
    Operands.Fit operands call.intrinsic call.kind → operands.data.extents.length = call.data.rank →
      Holding mem operands array mask → number < call.data.rank →
        (∀ symbol ∈ dim, mem.scalar symbol = some (.integer (number + 1))) →
          (∃ grid, mem.array result = some grid ∧ grid.extents = operands.data.extents.eraseIdx
            number) → ∃ final, arena.runAll body mem = some final ∧
              ReducedAlong final operands call.intrinsic call.kind result number

/-- The body of a generated reduction is built, and computes the reduction. -/
theorem exists_reductionBody (frame : Frame) (lt : frame.scope.index < before.scopes.size)
    {res : SymbolId} (ds : call.Dummies before array dim mask)
    (resultDeclared : before.Declared res type)
    (v : type.element = call.intrinsic.valueType call.kind)
    (older : res.index < before.symbols.size)
    (distinct : res ∉ array :: (dim.toList ++ mask.toList)) :
    ∃ body after, reductionBody frame call.key (array :: (dim.toList ++ mask.toList))
    res call.result
        before = .ok body after ∧ after.scopes.size = before.scopes.size ∧
      ∀ b, after.Prefixes b → call.Computes b body array dim mask res := by
  rw [call.reductionBody_eq frame array res ds.hasDim ds.hasMask]
  obtain ⟨counted, declared, more, integers⟩ := frame.exists_declareEach
    (fun i : Nat => "i" ++ toString (i + 1)) (fun _ => .integer 4) .localVar
    (range call.data.rank) lt
  rw [length_range] at declared more integers
  have ds := ds.more more
  have resultDeclared := more.declared _ _ resultDeclared
  have prepared : Prepared counted call.intrinsic call.kind array mask
      (row before.symbols.size call.data.rank) := {
    distinct := nodup_row ..
    array := ⟨_, ds.array, by
      rw [call.element]
      exact Ty.IsElement.element_assumedShape (by cases call.intrinsic <;> trivial) _⟩
    mask := ds.mask
    counters := ((forall₂_and_left _ _).1
      (integers.imp fun _ _ isInteger => ⟨isInteger, trivial⟩)).1 }
  have apart : res ∉ row before.symbols.size call.data.rank := by
    intro listed
    obtain ⟨i, range, rfl⟩ := mem_map.1 listed
    have low := (mem_range'_1.1 range).1
    exact absurd older (Nat.not_lt.2 low)
  by_cases scalar : call.result.isScalar = true
  · obtain ⟨body, after, ran, grown, computes⟩ := scalarReduction_builds frame call.reduces prepared
      ⟨type, resultDeclared, v⟩ apart
    refine ⟨body, after, run_bind_eq_ok.2 ⟨_, counted, declared, ?_⟩, ?_, fun b begins => ?_⟩
    · rwa [if_pos scalar, call.value]
    · rw [grown.others]
      exact more.scopes
    · refine ⟨fun _ mem xs fit rank holding => ?_, fun array => absurd scalar (by simp [array])⟩
      exact computes b begins mem xs fit holding (by simp [row, rank])
  · obtain ⟨sym, rfl⟩ : ∃ sym, dim = some sym := by
      rw [← Option.isSome_iff_exists, ds.hasDim]
      by_contra missing
      exact scalar (by simp [Ty.isScalar, call.shape, missing])
    obtain ⟨dimType, dimDeclared⟩ := ds.dim sym rfl
    obtain ⟨body, after, ran, grown, computes⟩ := dimBranches_builds frame call.reduces prepared
      ⟨type, resultDeclared, v⟩ dimDeclared (fun same => distinct (by simp [same]))
      (fun listed => distinct (by simp [Option.mem_toList.2 listed])) call.data.rank []
    refine ⟨body, after, run_bind_eq_ok.2 ⟨_, counted, declared, ?_⟩, ?_, fun b begins => ?_⟩
    · rw [if_neg scalar, call.value]
      exact run_bind_eq_ok.2 ⟨_, counted, Edit.ask_eq_ok.2 ⟨dimDeclared, rfl⟩, ran⟩
    · rw [grown.others]
      exact more.scopes
    · refine ⟨fun isScalar => absurd isScalar scalar,
        fun _ mem xs number fit rank holding lt given shaped => ?_⟩
      have branch := computes b begins mem xs number (given sym rfl)
      rw [if_pos lt] at branch
      exact branch fit holding (by simp [row, rank]) (rank ▸ lt) shaped

theorem helperBody_eq {key : HelperKey} (reduces : key.intrinsic.isReduction = true) (frame : Frame)
    (ds : List SymbolId) (res : SymbolId) (type : Ty) :
    helperBody frame key ds res type = reductionBody frame key ds res type := by
  unfold helperBody
  cases called : key.intrinsic with
  | merge | maxLoc | minLoc =>
    rw [called] at reduces
    cases reduces
  | _ => rfl

/-- For every call of a reduction over integers or truth values a procedure is generated whose body
leaves the reduction in the result, whatever the arguments are. -/
theorem generate_computes {arena : Arena} {parent : ScopeId}
    (inRange : parent.index < arena.scopes.size) (span : Span) :
    ∃ helper after info array dim mask result,
      generate call.key call.argTypes call.result parent span arena = .ok helper after ∧
      after.kind helper = .ok (.function info) ∧
      info.args ++ info.result.toList = array :: (Option.toList dim ++ Option.toList mask) ++
      [result] ∧ info.result.isSome = call.result.isScalar ∧
      (array :: (dim.toList ++ mask.toList) ++ [result]).Nodup ∧
      dim.isSome = call.dim.isSome ∧ mask.isSome = call.mask.isSome ∧
      call.Computes after info.body array dim mask result := by
  obtain ⟨helper, after, info, _, result, ran, named, args, scalar, distinct, array, dim, mask, rfl,
    hasDim, hasMask, computes⟩ := @exists_generate call.key call.argTypes call.result arena parent
      (fun arena body dummies result => ∃ array dim mask,
        dummies = array :: (Option.toList dim ++ Option.toList mask) ∧
        dim.isSome = call.dim.isSome ∧ mask.isSome = call.mask.isSome ∧ call.Computes arena body
        array dim mask result)
      call.length_helperDummies
      (fun {frame before _ result} ready => by
        obtain ⟨array, dim, mask, rfl, dummies⟩ := call.exists_dummies ready.typed
        have apart : result ∉ array :: (dim.toList ++ mask.toList) :=
          fun listed => List.disjoint_of_nodup_append ready.distinct listed List.mem_cons_self
        obtain ⟨body, after, built, sizes, computes⟩ :=
          call.exists_reductionBody frame ready.inRange dummies
          ready.resultTyped call.element_declared ready.older apart
        refine ⟨body, after, ?_, sizes, fun later more =>
          ⟨array, dim, mask, rfl, dummies.hasDim, dummies.hasMask, computes later more⟩⟩
        rwa [@helperBody_eq call.key call.reduces])
      inRange span
  exact ⟨helper, after, info, array, dim, mask, result, ran, named, args, scalar, distinct, hasDim,
    hasMask, computes⟩

/-! ## A reduction -/

/-- A sum along a dimension of a matrix of integers of one byte, under a mask. -/
def sampleSum : ReductionCall where
  intrinsic := .sum
  kind := 1
  data := .array (.integer 1) [default, default]
  dim := some (.integer 4)
  mask := some (.array (.logical 4) [default, default])
  result := .array (.integer 1) [default]
  reduces := rfl
  isArray := Eq.refl true
  element := Eq.refl (Ty.integer 1)
  dimScalar := fun type given => by cases given; decide
  maskShape := fun type given => show type.isLogical = true ∧ type.rank = 2 by
    cases given
    exact ⟨rfl, rfl⟩
  value := rfl
  shape := rfl

/-- A matrix of two rows and three columns, with a mask that leaves the second column out. -/
def sampleOperands : Operands where
  data := ⟨[2, 3], fun index => .integer (40 * index.headD 0 + index.getLastD 0)⟩
  mask := some ⟨[2, 3], fun index => .logical (index.getLastD 0 != 2)⟩

/-- The procedure that is generated for the sum leaves the sums of the rows, the second one wrapped.
-/
theorem generate_computes_rows : Arena.empty.root.index < Arena.empty.scopes.size ∧
    ∃ helper after info memory result final grid,
      generate sampleSum.key sampleSum.argTypes sampleSum.result Arena.empty.root default
      Arena.empty =
        .ok helper after ∧
      after.kind helper = .ok (.function info) ∧ after.runAll info.body memory = some final ∧
      result ∈ info.args ∧ final.array result = some grid ∧ grid.extents = [2] ∧
      grid.item [1] = .integer 84 ∧ grid.item [2] = .integer (-92) := by
  refine ⟨by decide, ?_⟩
  obtain ⟨helper, after, info, array, dim, mask, result, ran, named, args, scalar, distinct,
    hasDim, hasMask,
    computes⟩ := @generate_computes sampleSum Arena.empty Arena.empty.root (by decide) default
  obtain ⟨dim, rfl⟩ := Option.isSome_iff_exists.1 hasDim
  obtain ⟨mask, rfl⟩ := Option.isSome_iff_exists.1 hasMask
  simp only [Option.toList_some, List.cons_append, List.nil_append, List.nodup_cons, List.mem_cons,
    List.not_mem_nil, or_false, not_or] at distinct
  obtain ⟨⟨-, maskApart, resultApart⟩, -, maskResult, -⟩ := distinct
  let memory : Memory := {
    scalar := fun symbol => if symbol = dim then some (.integer 2) else none
    array := fun symbol =>
      if symbol = array then some sampleOperands.data
      else if symbol = mask then sampleOperands.mask
      else if symbol = result then some ⟨[2], fun _ => .integer 0⟩
      else none }
  have fit : sampleOperands.Fit .sum 1 := {
    data := fun _ _ => rfl
    shape := fun grid given => by cases given; rfl
    mask := fun grid given _ _ => by cases given; exact ⟨_, rfl⟩ }
  have holding : Holding memory sampleOperands array (some mask) := {
    present := rfl
    data := if_pos rfl
    mask := fun symbol given => by
      cases given
      exact (if_neg (Ne.symm maskApart)).trans (if_pos rfl) }
  have held : memory.array result = some ⟨[2], fun _ => .integer 0⟩ :=
    (if_neg (Ne.symm resultApart)).trans ((if_neg (Ne.symm maskResult)).trans (if_pos rfl))
  obtain ⟨final, finished, grid, found, extents, reduced⟩ :=
    computes.along rfl memory sampleOperands 1 fit
    rfl holding (by decide) (fun symbol given => by cases given; exact if_pos rfl) ⟨_, held, rfl⟩
  have isSubroutine : info.result = none := Option.not_isSome_iff_eq_none.1 (by rw [scalar]; decide)
  refine ⟨helper, after, info, memory, result, final, grid, ran, named, finished, ?_,
    found, extents, (reduced [1] ?_).trans rfl, (reduced [2] ?_).trans rfl⟩
  · rw [isSubroutine, Option.toList_none, List.append_nil] at args
    simp [args]
  all_goals
    rw [extents]
    decide

end ReductionCall

end FortranSemantics
