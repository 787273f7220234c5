import FortranSemantics.Proofs.ArrayCall
import FortranSemantics.Proofs.Intrinsic.Procedure
import FortranSemantics.Proofs.Intrinsic.Reduction

/-!
# Generated merges

A merge takes each element from one of two sources, as a mask says. Its generated procedure has
loops over the result, whatever mix of scalars and arrays the arguments are: arrays are read at the
index of the loops, scalars as they are.
-/

namespace FortranSemantics

open List Arena Intrinsic

variable {a b before : Arena} {mem state : Memory} {index : List Int} {counters : List SymbolId}
  {extents : List Nat}

/-! ## What merges compute -/

/-- A variable with its type. -/
structure TypedVariable where
  type : Ty
  symbol : SymbolId

namespace TypedVariable

variable (var : TypedVariable)

/-- The element of a variable at an index. A scalar is the element at every index. -/
def element? (mem : Memory) (index : List Int) : Option Constant :=
  if var.type.isArray then (mem.array var.symbol).bind (·.item? index) else mem.scalar var.symbol

/-- The place of the element at the index that some counters hold. -/
def place (counters : List SymbolId) : Place :=
  if var.type.isArray then .item var.symbol counters else .var var.symbol

theorem read_place (counted : mem.index? counters = some index) :
    (var.place counters).read mem = var.element? mem index := by
  unfold place element?
  split
  · simp [Place.read, counted]
  · rfl

end TypedVariable

/-- The arguments of a merge. -/
structure MergeArguments where
  tsource : TypedVariable
  fsource : TypedVariable
  mask : TypedVariable

namespace MergeArguments

variable (args : MergeArguments)

def symbols : List SymbolId :=
  [args.tsource.symbol, args.fsource.symbol, args.mask.symbol]

def types : List Ty :=
  [args.tsource.type, args.fsource.type, args.mask.type]

/-- What a merge selects at an index. -/
def selected? (mem : Memory) (index : List Int) : Option Constant := do
  if ← (args.mask.element? mem index).bind Constant.logical? then args.tsource.element? mem index
  else args.fsource.element? mem index

/-- Whether the sources have an element and the mask has a truth value at every index of an array.
-/
structure Cover (args : MergeArguments) (mem : Memory) (extents : List Nat) : Prop where
  tsource : ∀ index ∈ Grid.indices extents, ∃ value, args.tsource.element? mem index = some value
  fsource : ∀ index ∈ Grid.indices extents, ∃ value, args.fsource.element? mem index = some value
  mask : ∀ index ∈ Grid.indices extents, ∃ truth, args.mask.element? mem index = some
    (.logical truth)

theorem Cover.exists_selected {args : MergeArguments} (cover : args.Cover mem extents)
    (listed : index ∈ Grid.indices extents) : ∃ v, args.selected? mem index = some v := by
  obtain ⟨truth, isTruth⟩ := cover.mask index listed
  unfold selected?
  rw [isTruth]
  cases truth with
  | true => exact cover.tsource index listed
  | false => exact cover.fsource index listed

end MergeArguments

/-- Whether only a result and some counters differ between two memories. -/
structure Memory.Differs (mem final : Memory) (result : SymbolId)
    (counters : List SymbolId) : Prop where
  array : ∀ symbol ≠ result, final.array symbol = mem.array symbol
  scalar : ∀ symbol ≠ result, symbol ∉ counters → final.scalar symbol = mem.scalar symbol

section

variable {result : SymbolId}

theorem Memory.Differs.setScalar {counter : SymbolId} (differs : mem.Differs state result counters)
    (listed : counter ∈ counters) (v : Constant) :
    mem.Differs (state.setScalar counter v) result counters where
  array := differs.array
  scalar sym apart unlisted := by
    have different : sym ≠ counter := fun same => unlisted (same ▸ listed)
    exact (Memory.setScalar_of_ne state v different).trans (differs.scalar sym apart unlisted)

theorem Memory.Differs.setArray (differs : mem.Differs state result counters) (grid : Option Grid) :
    mem.Differs { state with array := Function.update state.array result grid } result
    counters where
  array sym apart := (Function.update_of_ne apart ..).trans (differs.array sym apart)
  scalar := differs.scalar

theorem TypedVariable.element?_differs {var : TypedVariable}
    (differs : mem.Differs state result counters)
    (apart : var.symbol ≠ result) (unlisted : var.symbol ∉ counters) :
    var.element? state index = var.element? mem index := by
  unfold element?
  rw [differs.array _ apart, differs.scalar _ apart unlisted]

/-- What a merge selects does not depend on its result and its counters. -/
theorem MergeArguments.selected?_differs {args : MergeArguments}
    (differs : mem.Differs state result counters)
    (apart : (args.symbols ++ result :: counters).Nodup) :
    args.selected? state index = args.selected? mem index := by
  have separate := disjoint_of_nodup_append apart
  have other (var : TypedVariable) (isArg : var.symbol ∈ args.symbols) :
      var.element? state index = var.element? mem index :=
    TypedVariable.element?_differs differs (fun same => separate isArg (same ▸ .head _))
      fun listed => separate isArg (.tail _ listed)
  unfold selected?
  rw [other args.tsource (by simp [symbols]), other args.fsource (by simp [symbols]),
    other args.mask (by simp [symbols])]

end

/-- Whether a run leaves in the result what a merge selects, and writes nothing else but its
counters. -/
structure Merged (args : MergeArguments) (result : TypedVariable) (counters : List SymbolId)
    (extents : List Nat) (mem final : Memory) : Prop where
  selected : ∀ index ∈ Grid.indices extents, result.element? final index = args.selected? mem index
  outside : ∀ grid, mem.array result.symbol = some grid → ∃ written,
    final.array result.symbol = some written ∧
    written.extents = grid.extents ∧ ∀ index ∉ Grid.indices extents,
    written.item index = grid.item index
  others : mem.Differs final result.symbol counters

/-! ## Running a merge -/

variable {args : MergeArguments} {result : TypedVariable} {step : Memory → Option Memory}

/-- A step that writes the selected element to the result, in loops over the result, merges. -/
theorem nest_merges (apart : (args.symbols ++ result.symbol :: counters).Nodup)
    (steps : ∀ mem index v, mem.index? counters = some index → args.selected? mem index = some v →
      step mem = (result.place counters).write v mem)
    (paired : counters.length = result.type.rank) (rank : extents.length = result.type.rank)
    (cover : args.Cover mem extents) (shaped : result.type.isArray = true →
      ∃ grid, mem.array result.symbol = some grid ∧ grid.extents = extents) :
    ∃ final, Memory.nest result.symbol 1 counters step mem = some final ∧
      Merged args result counters extents mem final := by
  by_cases isArray : result.type.isArray = true
  · obtain ⟨grid, isGrid, sized⟩ := shaped isArray
    have isItem : result.place counters = .item result.symbol counters := if_pos isArray
    -- the elements at the visited indices are the selected ones, and the others are as they were
    have nest := @Memory.nest_rule step result.symbol counters extents 1
      (fun done state => mem.Differs state result.symbol counters ∧ ∃ written,
        state.array result.symbol = some written ∧ written.extents = extents ∧
        (∀ index ∈ done, some (written.item index) = args.selected? mem index) ∧
        ∀ index ∉ done, written.item index = grid.item index)
      le_rfl apart.of_append_right.of_cons (paired.trans rank.symm)
      (fun _ state kept => kept.2.imp fun written h => ⟨h.1, h.2.1⟩)
      (fun done state kept counter listed v => ⟨kept.1.setScalar listed v, kept.2⟩) ?_ mem
      ⟨⟨fun _ _ => rfl, fun _ _ _ => rfl⟩, grid, isGrid, sized, nofun, fun _ _ => rfl⟩
    · obtain ⟨final, ran, differs, written, isWritten, same, selected, outside⟩ := nest
      refine ⟨final, ran, fun index listed => ?_, fun held isHeld => ?_, differs⟩
      · unfold TypedVariable.element?
        rw [if_pos isArray, isWritten, ← selected index listed]
        simp [Grid.item?, same, Grid.mem_indices.1 listed]
      · cases isGrid.symm.trans isHeld
        exact ⟨written, isWritten, same.trans sized.symm, outside⟩
    · rintro done index state listed counted ⟨differs, written, isWritten, same, selected, outside⟩
      obtain ⟨v, isSelected⟩ := cover.exists_selected listed
      have here := steps state index v counted
        ((args.selected?_differs differs apart).trans isSelected)
      rw [isItem, Place.write_item v counted isWritten (same ▸ listed)] at here
      refine ⟨_, here, fun _ _ => rfl, differs.setArray _, _, Function.update_self .., same,
        fun place visited => ?_, fun place unvisited => ?_⟩
      · by_cases last : place = index
        · rw [last, isSelected]
          exact congrArg some (Function.update_self ..)
        · have earlier := (mem_append.1 visited).resolve_right fun here =>
            last (mem_singleton.1 here)
          exact (congrArg some (Function.update_of_ne last ..)).trans (selected place earlier)
      · rw [mem_append, mem_singleton, not_or] at unvisited
        exact (Function.update_of_ne unvisited.2 ..).trans (outside place unvisited.1)
  · have scalar : result.type.rank = 0 := by simpa [Ty.isArray] using isArray
    obtain rfl := length_eq_zero_iff.1 (rank.trans scalar)
    obtain rfl := length_eq_zero_iff.1 (paired.trans scalar)
    obtain ⟨v, isSelected⟩ := cover.exists_selected (.head _)
    refine ⟨mem.setScalar result.symbol v, (steps mem [] v rfl isSelected).trans ?_, ?_,
      fun grid isGrid => ?_, ?_⟩
    · rw [TypedVariable.place, if_neg isArray]
      rfl
    · intro index listed
      cases mem_singleton.1 listed
      rw [TypedVariable.element?, if_neg isArray, isSelected]
      exact Memory.setScalar_self ..
    · exact ⟨grid, isGrid, rfl, fun _ _ => rfl⟩
    · exact ⟨fun _ _ => rfl, fun sym different _ => Memory.setScalar_of_ne mem v different⟩

/-! ## Building a merge -/

namespace Intrinsic

variable {frame : Frame}

/-- A dummy argument at the current element is built. -/
theorem operand_builds (frame : Frame) {var : TypedVariable} (single : var.type.element.IsElement)
    (declared : a.Declared var.symbol (.assumedShape var.type.element var.type.rank))
    (integers : ∀ counter ∈ counters, a.Declared counter (.integer 4)) :
    (operand frame counters var.symbol).Builds a fun id after =>
      after.Locates id (var.place counters) := by
  refine .bind (.ask declared) ?_
  rintro _ _ - ⟨rfl, rfl⟩
  have same : (Ty.assumedShape var.type.element var.type.rank).isArray = var.type.isArray := by
    simp only [Ty.isArray, single.rank_assumedShape]
  rw [Option.any_some, same]
  unfold TypedVariable.place
  split
  · exact (frame.item_builds declared integers).mono fun _ _ _ built => built.1
  · exact (frame.var_builds declared).mono fun _ _ _ built => built.1

/-- Whether the variables of a merge are declared. -/
structure PreparedMerge (a : Arena) (args : MergeArguments) (result : TypedVariable)
    (counters : List SymbolId) : Prop where
  single : ∀ type ∈ args.types, type.element.IsElement
  typed : List.Forall₂ (fun dummy type => a.Declared dummy (.assumedShape type.element type.rank))
    args.symbols args.types
  result : ∃ type, a.Declared result.symbol type ∧ type.element.IsElement
  counters : ∀ counter ∈ counters, a.Declared counter (.integer 4)

theorem PreparedMerge.grows {after : Arena} (prepared : PreparedMerge a args result counters)
    (grown : a.Grows after) : PreparedMerge after args result counters where
  single := prepared.single
  typed := prepared.typed.imp fun _ _ h => h.grows grown
  result := prepared.result.imp fun _ h => ⟨h.1.grows grown, h.2⟩
  counters counter listed := (prepared.counters counter listed).grows grown

theorem PreparedMerge.operand_builds (prepared : PreparedMerge a args result counters)
    (frame : Frame)
    {var : TypedVariable} (isArg : var = args.tsource ∨ var = args.fsource ∨ var = args.mask) :
    (operand frame counters var.symbol).Builds a fun id after =>
      after.Locates id (var.place counters) := by
  have typed := prepared.typed
  simp only [MergeArguments.symbols, MergeArguments.types, forall₂_cons, Forall₂.nil,
    and_true] at typed
  have single := prepared.single
  simp only [MergeArguments.types, forall_mem_cons] at single
  rcases isArg with rfl | rfl | rfl
  · exact Intrinsic.operand_builds frame single.1 typed.1 prepared.counters
  · exact Intrinsic.operand_builds frame single.2.1 typed.2.1 prepared.counters
  · exact Intrinsic.operand_builds frame single.2.2.1 typed.2.2 prepared.counters

theorem PreparedMerge.place_builds (prepared : PreparedMerge a args result counters)
    (frame : Frame) : (frame.content (result.place counters)).Builds a fun id after =>
      after.Locates id (result.place counters) := by
  obtain ⟨type, declared, single⟩ := prepared.result
  have placed : (result.place counters).Declared a type.element := by
    unfold TypedVariable.place
    split
    · exact ⟨⟨type, declared, rfl⟩, prepared.counters⟩
    · exact ⟨type, declared, rfl⟩
  exact (frame.content_builds placed single.element).mono fun _ _ _ built => built.1

/-- The body of a merge once its counters are declared. -/
def mergeLoops (frame : Frame) (args : MergeArguments) (result : TypedVariable)
    (counters : List SymbolId) : Edit (List Stmt) := do
  let cond ← operand frame counters args.mask.symbol
  let trueTarget ← frame.content (result.place counters)
  let trueValue ← operand frame counters args.tsource.symbol
  let falseTarget ← frame.content (result.place counters)
  let falseValue ← operand frame counters args.fsource.symbol
  let step := Stmt.branch cond [.assignment trueTarget trueValue]
    [.assignment falseTarget falseValue]
  if result.type.rank = 0 then return [step] else frame.loops counters result.symbol [step]

theorem mergeBody_eq (frame : Frame) (args : MergeArguments) (result : TypedVariable) :
    mergeBody frame args.symbols result.symbol result.type.rank = (do
      let counters ← frame.loopVariables result.type.rank
      mergeLoops frame args result counters) := by
  have isPlace (counters : List SymbolId) : (if result.type.rank = 0 then Place.var result.symbol
      else .item result.symbol counters) = result.place counters := by
    unfold TypedVariable.place Ty.isArray
    by_cases scalar : result.type.rank = 0
    · simp [scalar]
    · simp [scalar, Nat.pos_of_ne_zero scalar]
  unfold mergeBody
  simp only [isPlace]
  rfl

/-- The loops of a merge are built, and write the selected element to the result. -/
theorem mergeLoops_builds (prepared : PreparedMerge a args result counters) (frame : Frame)
    (paired : counters.length = result.type.rank) :
    (mergeLoops frame args result counters).Builds a fun stmts after => ∀ b, after.Prefixes b →
      ∃ step : Memory → Option Memory,
      (∀ mem, b.runAll stmts mem = Memory.nest result.symbol 1 counters step mem) ∧
        ∀ mem index v, mem.index? counters = some index → args.selected? mem index = some v →
          step mem = (result.place counters).write v mem := by
  refine .bind (prepared.operand_builds frame (.inr (.inr rfl))) fun cond first toFirst isCond => ?_
  have prepared := prepared.grows toFirst
  refine .bind (prepared.place_builds frame) fun trueTarget second toSecond isTrueTarget => ?_
  have prepared := prepared.grows toSecond
  refine .bind (prepared.operand_builds frame (.inl rfl))
    fun trueValue third toThird isTrueValue => ?_
  have prepared := prepared.grows toThird
  refine .bind (prepared.place_builds frame) fun falseTarget fourth toFourth isFalseTarget => ?_
  have prepared := prepared.grows toFourth
  refine .bind (prepared.operand_builds frame (.inr (.inl rfl)))
    fun falseValue fifth toFifth isFalseValue => ?_
  have prepared := prepared.grows toFifth
  have sinceTrue := toFourth.trans toFifth
  have sinceTarget := toThird.trans sinceTrue
  have isCond := isCond.grows (toSecond.trans sinceTarget)
  let step := Stmt.branch cond [.assignment trueTarget trueValue]
    [.assignment falseTarget falseValue]
  have selects (b : Arena) (more : fifth.Prefixes b) (mem : Memory) (index : List Int)
      (v : Constant)
      (counted : mem.index? counters = some index)
      (isSelected : args.selected? mem index = some v) :
      b.runAll [step] mem = (result.place counters).write v mem := by
    unfold MergeArguments.selected? at isSelected
    rw [← args.mask.read_place counted, ← args.tsource.read_place counted,
      ← args.fsource.read_place counted] at isSelected
    obtain ⟨truth, isTruth, chosen⟩ := Option.bind_eq_some_iff.1 isSelected
    obtain ⟨held, read, isLogical⟩ := Option.bind_eq_some_iff.1 isTruth
    cases held with
    | logical held =>
      cases isLogical
      rw [runAll_singleton, run_branch isCond.means more _ _ read]
      cases truth with
      | true =>
        rw [if_pos rfl, runAll_singleton, run_assignment (isTrueTarget.grows sinceTarget)
          (isTrueValue.grows sinceTrue).means more]
        exact (congrArg (Option.bind · _) chosen).trans rfl
      | false =>
        rw [if_neg (by decide), runAll_singleton,
          run_assignment (isFalseTarget.grows toFifth) isFalseValue.means more]
        exact (congrArg (Option.bind · _) chosen).trans rfl
    | _ => cases isLogical
  split
  · next scalar =>
    obtain rfl := length_eq_zero_iff.1 (paired.trans scalar)
    exact .pure fun b more => ⟨_, fun _ => rfl, selects b more⟩
  · obtain ⟨type, declared, -⟩ := prepared.result
    exact (frame.loopsFrom_builds 1 [step] declared prepared.counters).mono
      fun stmts after grown runs b more =>
      ⟨_, runs b more, selects b (grown.exprs.trans more)⟩

/-- Whether running a body merges the arguments into the result, whatever they hold. -/
def Merges (arena : Arena) (body : List Stmt) (args : MergeArguments) (result : TypedVariable)
    (counters : List SymbolId) : Prop :=
  ∀ mem extents, extents.length = result.type.rank → args.Cover mem extents →
    (result.type.isArray = true → ∃ grid, mem.array result.symbol = some grid ∧
      grid.extents = extents) →
      ∃ final, arena.runAll body mem = some final ∧ Merged args result counters extents mem final

/-- The body of a merge is built, and merges. -/
theorem exists_mergeBody (prepared : PreparedMerge before args result []) (frame : Frame)
    (lt : frame.scope.index < before.scopes.size) (apart : (args.symbols ++ [result.symbol]).Nodup)
    (older : ∀ symbol ∈ args.symbols ++ [result.symbol], symbol.index < before.symbols.size) :
    ∃ body after, mergeBody frame args.symbols result.symbol result.type.rank
    before = .ok body after ∧
      after.scopes.size = before.scopes.size ∧ ∀ b, after.Prefixes b → ∃ counters,
        (args.symbols ++ result.symbol :: counters).Nodup ∧ Merges b body args result counters := by
  obtain ⟨counted, declared, more, integers⟩ := frame.exists_declareEach
    (fun i : Nat => "i" ++ toString (i + 1)) (fun _ => .integer 4) .localVar
    (range result.type.rank) lt
  rw [length_range] at declared more integers
  let counters := row before.symbols.size result.type.rank
  have paired : counters.length = result.type.rank := by simp [counters, row]
  have prepared : PreparedMerge counted args result counters := {
    single := prepared.single
    typed := prepared.typed.imp fun _ _ h => more.declared _ _ h
    result := prepared.result.imp fun _ h => ⟨more.declared _ _ h.1, h.2⟩
    counters := ((forall₂_and_left _ _).1
      (integers.imp fun _ _ isInteger => ⟨isInteger, trivial⟩)).1 }
  -- the counters are newer than the other variables
  have distinct : (args.symbols ++ result.symbol :: counters).Nodup := by
    rw [← singleton_append, ← append_assoc]
    refine apart.append (nodup_row ..) fun sym old listed => ?_
    obtain ⟨i, range, rfl⟩ := mem_map.1 listed
    exact absurd (older _ old) (Nat.not_lt.2 (mem_range'_1.1 range).1)
  obtain ⟨body, after, ran, grown, runs⟩ := mergeLoops_builds prepared frame paired
  refine ⟨body, after, ?_, ?_, fun b begins =>
    ⟨counters, distinct, fun mem extents rank cover shaped => ?_⟩⟩
  · rw [mergeBody_eq]
    exact run_bind_eq_ok.2 ⟨_, counted, declared, ran⟩
  · rw [grown.others]
    exact more.scopes
  · obtain ⟨step, loops, steps⟩ := runs b begins
    rw [loops]
    exact nest_merges distinct steps paired rank cover shaped

/-! ## Accepted merges -/

variable {key : HelperKey} {types : List Ty} {resultType : Ty} {overload : Overload}
  {parent : ScopeId} {t : Terms} {id : ExprId} {span : Span} {actuals : List ActualArgument}

theorem declared_inRange {sym : SymbolId} {type : Ty} (declared : a.Declared sym type) :
    sym.index < a.symbols.size := by
  obtain ⟨_, isVariable, -⟩ := bind_eq_ok.1 declared
  obtain ⟨_, aimed, -⟩ := bind_eq_ok.1 isVariable
  obtain ⟨_, past, -⟩ := bind_eq_ok.1 aimed
  obtain ⟨_, isKind, -⟩ := bind_eq_ok.1 past
  obtain ⟨_, isSym, -⟩ := kind_eq_ok.1 isKind
  exact symbol_inRange isSym

/-- A procedure is generated for a merge of arguments that fit, and merges. -/
theorem exists_mergeHelper (fits : ArrayIntrinsic.Fits .merge overload types resultType)
    (isMerge : key.intrinsic = .merge) (lt : parent.index < a.scopes.size) (span : Span) :
    ∃ helper after info args result counters, generate key types resultType parent span a =
    .ok helper after ∧
      after.kind helper = .ok (.function info) ∧ MergeArguments.types args = types ∧
      TypedVariable.type result = resultType ∧ info.args ++ info.result.toList = args.symbols ++
      [result.symbol] ∧
      info.result.isSome = resultType.isScalar ∧ (args.symbols ++ result.symbol :: counters).Nodup ∧
      Merges after info.body args result counters := by
  obtain ⟨trueType, falseType, maskType, rfl⟩ := length_eq_three.1 fits.arity
  have single (type) (mem : type ∈ [trueType, falseType, maskType]) :=
    (fits.plain type mem).isElement
  have resultSingle := (isPlain_result fits).isElement
  obtain ⟨helper, after, info, ds, result, ran, named, dummies, scalar, -, args, rfl, same,
    counters, distinct, merges⟩ :=
    @exists_generate key [trueType, falseType, maskType] resultType a parent
      (fun b body ds result => ∃ args : MergeArguments, ds = args.symbols ∧
        args.types = [trueType, falseType, maskType] ∧ ∃ counters,
          (args.symbols ++ result :: counters).Nodup ∧ Merges b body args
          ⟨resultType, result⟩ counters)
      (by rw [length_helperDummies, isMerge]; rfl)
      (fun {frame before ds result} ready => by
        obtain ⟨tsource, _, isTrue, first, rfl⟩ := forall₂_cons_right_iff.1 ready.typed
        obtain ⟨fsource, _, isFalse, second, rfl⟩ := forall₂_cons_right_iff.1 first
        obtain ⟨mask, _, isMask, third, rfl⟩ := forall₂_cons_right_iff.1 second
        cases third
        let args : MergeArguments := ⟨⟨trueType, tsource⟩, ⟨falseType, fsource⟩, ⟨maskType, mask⟩⟩
        have prepared : PreparedMerge before args ⟨resultType, result⟩ [] := {
          single
          typed := ready.typed
          result := ⟨_, ready.resultTyped, by
            split
            · exact resultSingle
            · rwa [resultSingle.element_assumedShape]⟩
          counters := fun _ mem => absurd mem not_mem_nil }
        obtain ⟨body, after, built, sizes, merges⟩ := exists_mergeBody prepared frame ready.inRange
          ready.distinct (by
            simp only [mem_append, args, MergeArguments.symbols, mem_cons, not_mem_nil, or_false]
            rintro sym ((rfl | rfl | rfl) | rfl)
            · exact declared_inRange isTrue
            · exact declared_inRange isFalse
            · exact declared_inRange isMask
            · exact ready.older)
        refine ⟨body, after, ?_, sizes, fun b more => ⟨args, rfl, rfl, merges b more⟩⟩
        unfold helperBody
        rw [isMerge]
        exact built) lt span
  exact ⟨helper, after, info, args, ⟨resultType, result⟩, counters, ran, named, same, rfl, dummies,
    scalar, distinct, merges⟩

/-- The arguments of an accepted call of an array intrinsic fit. -/
theorem resolveArray_fits {op : ArrayIntrinsic} (ok : a.Lawful t)
    (within : ∀ arg ∈ actuals, arg.value.index < a.exprs.size) (notShape : op ≠ .shape)
    (ran : resolveArray op actuals span a = .ok id b) : ∃ expr overload operands types,
      b.expr id = .ok expr ∧ expr.kind = .arrayCall op overload operands ∧
      List.Forall₂ a.HasType operands types ∧ op.Fits overload types expr.type := by
  obtain ⟨slots, a, ranSlots, checks⟩ := run_bind_eq_ok.1 ran
  obtain ⟨rfl, placed, filled⟩ := (arraySlots_placed ok within).result ranSlots
  rw [if_neg notShape] at checks
  have isActual {value : ExprId} (mem : some value ∈ slots) : value.index < a.exprs.size := by
    obtain ⟨arg, isArg, rfl⟩ := mem_map.1 (placed.exact.mem_iff.1 (mem_filterMap.2 ⟨_, mem, rfl⟩))
    exact within arg isArg
  obtain ⟨data, isData⟩ := filled 0 (by cases op <;> decide)
  obtain ⟨type, -, has, -⟩ := ok.exists_type (isActual (mem_of_getElem? isData))
  have isOperand (value) (mem : value ∈ slots.filterMap fun slot => slot) :
      value.index < a.exprs.size := by
    obtain ⟨slot, isSlot, rfl⟩ := mem_filterMap.1 mem
    exact isActual isSlot
  obtain ⟨types, typed⟩ := exists_types ok isOperand
  obtain ⟨_, a, checked, rest⟩ := run_bind_eq_ok.1 checks
  obtain ⟨rfl, contract⟩ :=
    (checkContract_quiet ok (fun _ => isActual) placed.length filled notShape).result checked
  obtain ⟨ans, mid, ranType, rest⟩ := run_bind_eq_ok.1 rest
  obtain ⟨-, result⟩ := (resultType_works ok placed.length filled notShape (fun _ => isActual)
    isData has contract typed).result ranType
  obtain ⟨folded, _, -, rest⟩ := run_bind_eq_ok.1 rest
  obtain ⟨value, last, -, rest⟩ := run_bind_eq_ok.1 rest
  cases rest
  exact ⟨_, _, _, types, Arena.expr_addExpr.2 (.inr ⟨rfl, rfl⟩), rfl, typed,
    fits_of_contract placed.length filled notShape isData has contract result typed⟩

/-- The procedure that is generated for an accepted merge selects elementwise: whatever mix of
scalars and arrays its arguments are and whatever they hold, its body leaves in each element of the
result the element of the source that the mask selects, and writes nothing else but its counters. -/
theorem resolveArray_merges (ok : a.Lawful t)
    (within : ∀ arg ∈ actuals, arg.value.index < a.exprs.size)
    (ran : resolveArray .merge actuals span a = .ok id b) (isMerge : key.intrinsic = .merge)
    {arena : Arena} (inRange : parent.index < arena.scopes.size) :
    ∃ expr overload operands helper after info args result counters,
      b.expr id = .ok expr ∧ expr.kind = .arrayCall .merge overload operands ∧
      List.Forall₂ a.HasType operands (MergeArguments.types args) ∧
      TypedVariable.type result = expr.type ∧
      generate key args.types expr.type parent expr.span arena = .ok helper after ∧
      after.kind helper = .ok (.function info) ∧ info.args ++ info.result.toList = args.symbols ++
      [result.symbol] ∧
      info.result.isSome = expr.type.isScalar ∧ (args.symbols ++ result.symbol :: counters).Nodup ∧
      Merges after info.body args result counters := by
  obtain ⟨expr, overload, operands, types, isExpr, isCall, typed, fits⟩ :=
    resolveArray_fits ok within (by decide) ran
  obtain ⟨helper, after, info, args, result, counters, generated, named, rfl, same, dummies, scalar,
    distinct, merges⟩ :=
    exists_mergeHelper fits isMerge inRange expr.span
  exact ⟨expr, overload, operands, helper, after, info, args, result, counters, isExpr, isCall,
    typed, same, generated, named, dummies, scalar, distinct, merges⟩

/-! ## A merge of a matrix and a scalar -/

/-- The matrix and the number that a program prints, and the mask that it prints, by keyword. -/
def sampleMerge : List ActualArgument :=
  [⟨none, ⟨8⟩, default⟩, ⟨some "mask", ⟨9⟩, default⟩, ⟨some "fsource", ⟨10⟩, default⟩]

def sampleKey : HelperKey where
  intrinsic := .merge
  category := .integer
  kind := 4
  rank := 2
  overload := .array

/-- What a procedure is given for them: the mask selects the first column. -/
def sampleMemory (args : MergeArguments) (result : SymbolId) : Memory where
  scalar symbol := if symbol = args.fsource.symbol then some (.integer 7) else none
  array symbol :=
    if symbol = args.tsource.symbol then
      some ⟨[2, 3], fun index => .integer (10 * index.headD 0 + index.getLastD 0)⟩
    else
      if symbol = args.mask.symbol then some ⟨[2, 3], fun index => .logical (index.getLastD 0 == 1)⟩
    else if symbol = result then some ⟨[2, 3], fun _ => .integer 0⟩
    else none

/-- The generated procedure takes the first column from the matrix, and the others from the scalar.
-/
theorem resolveArray_merges_column :
    ∃ (analysed : Analysed) (id : ExprId) (b : Arena) (types : List Ty) (resultType : Ty)
      (span : Span) (helper : SymbolId) (after : Arena) (info : Function) (args : MergeArguments)
      (result : SymbolId) (final : Memory) (grid : Grid),
    samplePrint.analyse (Session.unlowered {}) = .ok analysed ∧ (∀ arg ∈ sampleMerge,
      arg.value.index < analysed.arena.exprs.size) ∧
    resolveArray .merge sampleMerge default analysed.arena = .ok id b ∧
    sampleKey.intrinsic = .merge ∧ Arena.empty.root.index < Arena.empty.scopes.size ∧
    generate sampleKey types resultType Arena.empty.root span Arena.empty = .ok helper after ∧
    after.kind helper = .ok (.function info) ∧ after.runAll info.body (sampleMemory args result) =
    some final ∧ final.array result = some grid ∧
    grid.item [2, 1] = .integer 21 ∧ grid.item [2, 3] = .integer 7 := by
  have facts : (samplePrint.analyse (Session.unlowered {})).toOption.any (fun analysed =>
      decide (∀ arg ∈ sampleMerge, arg.value.index < analysed.arena.exprs.size) &&
        match resolveArray .merge sampleMerge default analysed.arena with
        | .ok id b => (b.expr id).toOption.any fun expr =>
          expr.type.rank == 2 && expr.kind.children.map
            (fun arg => (analysed.arena.exprType arg).toOption.map Ty.rank) ==
            [some 2, some 0, some 2]
        | .error _ _ => false) = true := by decide +kernel
  cases ran : samplePrint.analyse (Session.unlowered {}) with
  | error failure =>
    rw [ran] at facts
    cases facts
  | ok analysed =>
    rw [ran] at facts
    obtain ⟨within, accepted⟩ := Bool.and_eq_true_iff.1 facts
    have ok := Arena.lawful_empty.extend
      (fun _ _ loaded => by cases loaded) Session.start.lawful ran
    cases made : resolveArray .merge sampleMerge default analysed.arena with
    | error failure b =>
      rw [made] at accepted
      cases accepted
    | ok id b =>
      obtain ⟨expr, overload, operands, helper, after, info, args, result, counters, isExpr,
        isCall, typed, same,
        generated, named, -, -, distinct, merges⟩ := @resolveArray_merges analysed.arena b sampleKey
        Arena.empty.root _ id
          default sampleMerge ok (of_decide_eq_true within) made rfl Arena.empty (by decide)
      simp only [made, isExpr, Except.toOption, Option.any_some, isCall, ExprKind.children,
        Bool.and_eq_true, beq_iff_eq] at accepted
      obtain ⟨rank, ranks⟩ := accepted
      obtain ⟨tsource, fsource, mask⟩ := args
      obtain ⟨first, _, isFirst, rest, rfl⟩ := forall₂_cons_right_iff.1 typed
      obtain ⟨second, _, isSecond, more, rfl⟩ := forall₂_cons_right_iff.1 rest
      obtain ⟨third, _, isThird, last, rfl⟩ := forall₂_cons_right_iff.1 more
      cases last
      simp only [map_cons, map_nil, Arena.exprType_eq_ok.2 isFirst, Arena.exprType_eq_ok.2 isSecond,
        Arena.exprType_eq_ok.2 isThird, Option.map_some, cons.injEq, Option.some.injEq,
        and_true] at ranks
      obtain ⟨matrix, scalar, logical⟩ := ranks
      simp only [MergeArguments.symbols, cons_append, nil_append, nodup_cons, mem_cons,
        not_or] at distinct
      obtain ⟨⟨-, maskApart, resultApart, -⟩, -, ⟨maskResult, -⟩, -⟩ := distinct
      let mem := sampleMemory ⟨tsource, fsource, mask⟩ result.symbol
      have atTrue (index) : tsource.element? mem index = Grid.item? ⟨[2, 3], _⟩ index :=
        (if_pos (by simp [Ty.isArray, matrix])).trans (congrArg (Option.bind · _) (if_pos rfl))
      have atMask (index) : mask.element? mem index = Grid.item? ⟨[2, 3], _⟩ index :=
        (if_pos (by simp [Ty.isArray, logical])).trans (congrArg (Option.bind · _)
          ((if_neg (Ne.symm maskApart)).trans (if_pos rfl)))
      have atFalse (index) : fsource.element? mem index = some (.integer 7) :=
        (if_neg (by simp [Ty.isArray, scalar])).trans (if_pos rfl)
      have held : mem.array result.symbol = some ⟨[2, 3], fun _ => .integer 0⟩ :=
        (if_neg (Ne.symm resultApart)).trans ((if_neg (Ne.symm maskResult)).trans (if_pos rfl))
      have inside {grid : Grid} {index : List Int} (sized : grid.extents = [2, 3])
          (listed : index ∈ Grid.indices [2, 3]) : grid.item? index = some (grid.item index) := by
        rw [Grid.item?, if_pos]
        rw [sized]
        exact Grid.mem_indices.1 listed
      obtain ⟨final, finished, merged⟩ := merges mem [2, 3] (by rw [same, rank]; rfl)
        ⟨fun index listed => ⟨_, (atTrue index).trans (inside rfl listed)⟩, fun index _ =>
          ⟨_, atFalse index⟩,
          fun index listed => ⟨_, (atMask index).trans (inside rfl listed)⟩⟩ fun _ => ⟨_, held, rfl⟩
      obtain ⟨grid, isGrid, sized, -⟩ := merged.outside _ held
      have isItem (index) (listed : index ∈ Grid.indices [2, 3]) :
          some (grid.item index) = MergeArguments.selected? ⟨tsource, fsource, mask⟩ mem index := by
        rw [← merged.selected index listed, TypedVariable.element?,
          if_pos (by simp [Ty.isArray, same, rank]), isGrid]
        exact (inside sized listed).symm
      simp only [MergeArguments.selected?, atTrue, atMask, atFalse] at isItem
      refine ⟨analysed, id, b, _, _, _, helper, after, info, _, _, final, grid, rfl,
        of_decide_eq_true within, made, rfl, by decide, generated, named, finished, isGrid, ?_, ?_⟩
      · exact Option.some.inj (isItem [2, 1] (by decide))
      · exact Option.some.inj (isItem [2, 3] (by decide))

end Intrinsic

end FortranSemantics
