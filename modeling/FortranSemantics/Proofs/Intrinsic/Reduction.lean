import FortranSemantics.Intrinsic.LoopProcedure
import FortranSemantics.Proofs.Folding
import FortranSemantics.Proofs.Intrinsic.Traversal

/-!
# Reductions

A generated reduction leaves in its result the fold of the combining operation over the selected
elements, starting from the value that no elements have: over all of them for a scalar result, and
along one dimension for each index of the others for an array result.
-/

namespace FortranSemantics

open List Arena Folding

variable {v : Constant} {mem : Memory} {res array : SymbolId} {k : Nat} {counters : List SymbolId}
  {index : List Int} {grid : Grid} {step : Memory → Option Memory}

/-! ## What reductions compute -/

/-- Whether a constant is an integer or a truth value, as a type says. -/
def Constant.hasType (value : Constant) : Ty → Bool
  | .integer _ => value.integer?.isSome
  | .logical _ => value.logical?.isSome
  | _ => false

theorem Constant.exists_integer (typed : v.hasType (.integer k) = true) : ∃ number,
    v = .integer number := by
  cases v <;> simp_all [Constant.hasType, Constant.integer?]

theorem Constant.exists_logical (typed : v.hasType (.logical k) = true) : ∃ truth,
    v = .logical truth := by
  cases v <;> simp_all [Constant.hasType, Constant.logical?]

namespace ArrayIntrinsic

/-- Whether an intrinsic combines the elements of an array into one value. -/
def isReduction : ArrayIntrinsic → Bool
  | .maxLoc | .minLoc | .merge | .shape => false
  | _ => true

/-- Whether a reduction is over numbers, and not over truth values. -/
def isNumeric : ArrayIntrinsic → Bool
  | .sum | .product | .maxVal | .minVal => true
  | _ => false

variable (intrinsic : ArrayIntrinsic) (kind : Nat)

/-- The type of the elements of the given kind that a reduction combines. -/
def elementType : Ty :=
  if intrinsic.isNumeric then .integer kind else .logical kind

/-- The type of the value that a reduction of elements of the given kind has. -/
def valueType : Ty :=
  if intrinsic = .count then .integer 4 else intrinsic.elementType kind

/-- The value of a reduction of no elements. -/
def identity : Constant :=
  match intrinsic with
  | .sum | .count => .integer 0
  | .product => .integer 1
  | .maxVal => .integer (Number.integerMin kind)
  | .minVal => .integer (Number.integerMax kind)
  | .all => .logical true
  | _ => .logical false

/-- The value of a reduction with one more element. -/
def combine : Constant → Constant → Constant
  | .integer held, .integer item =>
    match intrinsic with
    | .product => .integer (Number.wrapInteger kind (held * item))
    | .maxVal => .integer (max held item)
    | .minVal => .integer (min held item)
    | _ => .integer (Number.wrapInteger kind (held + item))
  | .logical held, .logical item =>
    match intrinsic with
    | .any => .logical (held || item)
    | .all => .logical (held && item)
    | _ => .logical (held != item)
  | .integer held, .logical item =>
    .integer (if item then Number.wrapInteger 4 (held + 1) else held)
  | held, _ => held

variable {op : ArrayIntrinsic} {k : Nat}

section

variable (reduction : op.isReduction = true)

include reduction

theorem hasType_identity : (op.identity k).hasType (op.valueType k) = true := by
  cases op with
  | maxLoc | minLoc | merge | shape => cases reduction
  | _ => rfl

/-- A reduction with one more element has the type of its values. -/
theorem hasType_combine (heldTyped : held.hasType (op.valueType k) = true)
    (itemTyped : item.hasType (op.elementType k) = true) :
    (op.combine k held item).hasType (op.valueType k) = true := by
  cases op with
  | sum | product | maxVal | minVal =>
    obtain ⟨_, rfl⟩ := Constant.exists_integer heldTyped
    obtain ⟨_, rfl⟩ := Constant.exists_integer itemTyped
    rfl
  | any | all | parity =>
    obtain ⟨_, rfl⟩ := Constant.exists_logical heldTyped
    obtain ⟨_, rfl⟩ := Constant.exists_logical itemTyped
    rfl
  | count =>
    obtain ⟨_, rfl⟩ := Constant.exists_integer heldTyped
    obtain ⟨_, rfl⟩ := Constant.exists_logical itemTyped
    rfl
  | maxLoc | minLoc | merge | shape => cases reduction

theorem startValue_eq_identity : Intrinsic.startValue op (op.valueType k) = op.identity k := by
  cases op with
  | maxLoc | minLoc | merge | shape => cases reduction
  | _ => rfl

end

theorem element_valueType (op : ArrayIntrinsic) (k : Nat) :
    (op.valueType k).element = op.valueType k := by
  cases op <;> rfl

end ArrayIntrinsic

/-- The elements that a reduction combines: an array, and a mask of the same shape that selects
some. -/
structure Operands where
  data : Grid
  mask : Option Grid

namespace Operands

/-- Whether an index is selected. -/
def selects (operands : Operands) (index : List Int) : Bool :=
  operands.mask.all fun mask => (mask.item index).logical? == some true

/-- The fold of the combining operation over the selected ones among some elements. -/
def reduce (operands : Operands) (intrinsic : ArrayIntrinsic) (kind : Nat)
    (indices : List (List Int)) : Constant :=
  ((indices.filter operands.selects).map operands.data.item).foldl (intrinsic.combine kind)
    (intrinsic.identity kind)

/-- Whether the elements have the type that a reduction takes, and the mask is one for the array. -/
structure Fit (operands : Operands) (intrinsic : ArrayIntrinsic) (kind : Nat) : Prop where
  data : ∀ index ∈ Grid.indices operands.data.extents,
    (operands.data.item index).hasType (intrinsic.elementType kind) = true
  shape : ∀ mask ∈ operands.mask, mask.extents = operands.data.extents
  mask : ∀ mask ∈ operands.mask, ∀ index ∈ Grid.indices mask.extents,
    ∃ truth, mask.item index = .logical truth

variable {xs : Operands} {op : ArrayIntrinsic} {k : Nat}

theorem reduce_append (done : List (List Int)) (index : List Int) :
    xs.reduce op k (done ++ [index]) =
      if xs.selects index then
      op.combine k (xs.reduce op k done) (xs.data.item index) else xs.reduce op k done := by
  by_cases selected : xs.selects index = true
  · simp [reduce, selected]
  · simp [reduce, selected]

theorem hasType_reduce (fit : xs.Fit op k) (reduction : op.isReduction = true)
    (inside : indices ⊆ Grid.indices xs.data.extents) :
    (xs.reduce op k indices).hasType (op.valueType k) = true := by
  induction indices using reverseRecOn with
  | nil => exact ArrayIntrinsic.hasType_identity reduction
  | append_singleton done index ih =>
    have earlier := ih fun o mem => inside (mem_append_left _ mem)
    rw [reduce_append]
    split
    · exact ArrayIntrinsic.hasType_combine reduction earlier
        (fit.data index (inside (mem_append_right _ (.head _))))
    · exact earlier

end Operands

/-! ## The accumulating step -/

namespace Intrinsic

variable (left right : Int)

theorem holds_gt : holds .gt (compare left right) = decide (right < left) := by
  rw [Bool.eq_iff_iff]
  simp [holds, compare_gt_iff_gt]

theorem holds_lt : holds .lt (compare left right) = decide (left < right) := by
  rw [Bool.eq_iff_iff]
  simp [holds, compare_lt_iff_lt]

theorem holds_eq : holds .eq (compare left right) = decide (left = right) := by
  rw [Bool.eq_iff_iff]
  simp [holds]

/-- Writing to a place what it holds changes nothing. -/
theorem Place.write_read {place : Place} (held : place.read mem = some v) :
    place.write v mem = some mem := by
  cases place with
  | var sym =>
    change mem.scalar sym = some v at held
    simp [write, Memory.setScalar, ← held]
  | item array counters =>
    simp only [read, Option.bind_eq_bind, Option.bind_eq_some_iff] at held
    obtain ⟨index, counted, grid, h, here⟩ := held
    unfold Grid.item? at here
    split at here
    · next within =>
      cases here
      simp only [write, counted, Option.bind_eq_bind, Option.bind_some, Memory.setItem?, h,
        Grid.setItem?, if_pos within, Function.update_eq_self, Option.pure_def]
      rw [← h, Function.update_eq_self]
    · cases here

variable {a : Arena} {op : ArrayIntrinsic} {k : Nat} {accumulator item : Place}

section

variable {target : ExprId} {type itemType : Ty} (located : a.Locates target accumulator)
  (accumulatorDeclared : accumulator.Declared a type) (plain : type.element = type)
  (itemDeclared : item.Declared a itemType) (plainItem : itemType.element = itemType)

include located accumulatorDeclared plain itemDeclared plainItem

/-- A step that replaces the accumulator by what an operation makes of it and an element. -/
theorem combiningStep_builds (frame : Frame) (build : ExprId → ExprId → Edit ExprId)
    (rule : Ty → Constant → Constant → Option Constant)
    (builds : ∀ {mid : Arena} {left right leftMeaning rightMeaning leftType},
      mid.Means left leftMeaning → mid.Means right rightMeaning → mid.exprType left = .ok leftType →
        (build left right).Builds mid fun id after => after.Means id (fun mem => do
          rule leftType.element (← leftMeaning mem) (← rightMeaning mem))) :
    Edit.Builds (do
      let left ← frame.content accumulator
      let right ← frame.content item
      return Stmt.assignment target (← build left right)) a fun stmt after =>
      ∀ b, after.Prefixes b → ∀ mem held v, accumulator.read mem = some held →
        item.read mem = some v → b.run stmt mem =
          (rule type held v).bind (accumulator.write · mem) := by
  refine .bind (frame.content_builds accumulatorDeclared plain) ?_
  rintro left first grownFirst ⟨leftLocates, leftType, typed, rfl⟩
  refine .bind (frame.content_builds (itemDeclared.grows grownFirst) plainItem) ?_
  rintro right second grownSecond ⟨rightLocates, -⟩
  refine .bind (builds (leftLocates.means.grows grownSecond) rightLocates.means
    (grownSecond.exprs.exprType typed)) fun res third grownThird means => ?_
  refine .pure fun b more mem held v heldHere valueHere => ?_
  have located := located.grows ((grownFirst.trans grownSecond).trans grownThird)
  rw [run_assignment located means more]
  simp only [heldHere, valueHere]
  rfl

/-- A step that replaces the accumulator by an element that compares with it. -/
theorem replacingStep_builds (frame : Frame) (op : Comparison) : Edit.Builds (do
      let left ← frame.content item
      let right ← frame.content accumulator
      let cond ← frame.compare left op right
      let v ← frame.content item
      return Stmt.branch cond [.assignment target v] []) a fun stmt after =>
      ∀ b, after.Prefixes b → ∀ mem held v replaces, accumulator.read mem = some held →
        item.read mem = some v → compare op v held = some (.logical replaces) →
          b.run stmt mem =
            if replaces then accumulator.write v mem else some mem := by
  refine .bind (frame.content_builds itemDeclared plainItem) ?_
  rintro left first grownFirst ⟨leftLocates, -⟩
  refine .bind (frame.content_builds (accumulatorDeclared.grows grownFirst) plain) ?_
  rintro right second grownSecond ⟨rightLocates, -⟩
  refine .bind (frame.compare_builds (leftLocates.means.grows grownSecond) rightLocates.means op)
    fun cond third grownThird condMeans => ?_
  have grown := (grownFirst.trans grownSecond).trans grownThird
  refine .bind (frame.content_builds (itemDeclared.grows grown) plainItem) ?_
  rintro replacement fourth grownFourth ⟨valueLocates, -⟩
  refine .pure fun b more mem held v replaces heldHere valueHere compared => ?_
  have decided : (do compare op (← item.read mem) (← accumulator.read mem)) =
      some (.logical replaces) := by
    rw [heldHere, valueHere]
    exact compared
  rw [run_branch (condMeans.grows grownFourth) more _ _ decided, runAll_singleton,
    run_assignment (located.grows (grown.trans grownFourth)) valueLocates.means more, valueHere]
  rfl

/-- A step that counts an element that is true. -/
theorem countingStep_builds (frame : Frame) : Edit.Builds (do
      let cond ← frame.content item
      let left ← frame.content accumulator
      let one ← frame.integer 1
      let v ← frame.arithmetic left .add one
      return Stmt.branch cond [.assignment target v] []) a fun stmt after =>
      ∀ b, after.Prefixes b → ∀ mem held truth, accumulator.read mem = some held →
        item.read mem = some (.logical truth) → b.run stmt mem =
          if truth then
          (elementwise (scalarArithmetic .add type) held (.integer 1)).bind
            (accumulator.write · mem) else some mem := by
  refine .bind (frame.content_builds itemDeclared plainItem) ?_
  rintro cond first grownFirst ⟨condLocates, -⟩
  refine .bind (frame.content_builds (accumulatorDeclared.grows grownFirst) plain) ?_
  rintro left second grownSecond ⟨leftLocates, leftType, typed, rfl⟩
  refine .bind (frame.integer_builds 1) fun one third grownThird oneMeans => ?_
  refine .bind (frame.arithmetic_builds (leftLocates.means.grows grownThird) oneMeans .add
    (grownThird.exprs.exprType typed)) fun sum fourth grownFourth means => ?_
  refine .pure fun b more mem held truth heldHere valueHere => ?_
  have grown := (grownSecond.trans grownThird).trans grownFourth
  rw [run_branch (condLocates.means.grows grown) more _ _ valueHere, runAll_singleton,
    run_assignment (located.grows (grownFirst.trans grown)) means more]
  simp only [heldHere]
  rfl

end

/-- The accumulating step of a reduction is built, and combines the accumulator with one element. -/
theorem accumulate_builds (frame : Frame) (reduction : op.isReduction = true)
    (accumulatorDeclared : accumulator.Declared a (op.valueType k))
    (itemDeclared : item.Declared a (op.elementType k)) :
    (accumulate frame op accumulator item).Builds a fun stmt after =>
      ∀ b, after.Prefixes b → ∀ mem held v, accumulator.read mem = some held →
        item.read mem = some v → held.hasType (op.valueType k) = true → v.hasType
        (op.elementType k) = true →
            b.run stmt mem = accumulator.write (op.combine k held v) mem := by
  have plainItem : (op.elementType k).element = op.elementType k := by
    cases op <;> rfl
  have plain := op.element_valueType k
  refine .bind (frame.content_builds accumulatorDeclared plain) ?_
  rintro target first grown ⟨located, -⟩
  have accumulatorDeclared := accumulatorDeclared.grows grown
  have itemDeclared := itemDeclared.grows grown
  -- what replaces the accumulator is the better one of two integers
  have chosen {mem : Memory} {best number o : Int} {replaces : Bool}
      (heldHere : accumulator.read mem = some (.integer best))
      (isBetter : o = if replaces then number else best) :
      (if replaces then accumulator.write (.integer number) mem else some mem) =
        accumulator.write (.integer o) mem := by
    cases replaces with
    | true => exact isBetter ▸ rfl
    | false => exact isBetter ▸ (Place.write_read heldHere).symm
  cases op with
  | sum | product =>
    refine (combiningStep_builds located accumulatorDeclared plain itemDeclared plainItem frame _
      (fun type => elementwise (scalarArithmetic _ type)) fun left right =>
        frame.arithmetic_builds left right _).mono
      fun stmt after _ runs b more mem held v heldHere valueHere heldTyped valueTyped => ?_
    obtain ⟨_, rfl⟩ := Constant.exists_integer heldTyped
    obtain ⟨_, rfl⟩ := Constant.exists_integer valueTyped
    refine (runs b more mem _ _ heldHere valueHere).trans ?_
    change (elementwise (scalarArithmetic _ (.integer k)) _ _).bind _ = _
    rw [elementwise_of_defined]
    · rfl
    · simp [Folding.Undefined]
  | any | all | parity =>
    refine (combiningStep_builds located accumulatorDeclared plain itemDeclared plainItem frame _
      (fun _ => logical _) fun left right => frame.logical_builds left right _).mono
      fun stmt after _ runs b more mem held v heldHere valueHere heldTyped valueTyped => ?_
    obtain ⟨_, rfl⟩ := Constant.exists_logical heldTyped
    obtain ⟨_, rfl⟩ := Constant.exists_logical valueTyped
    exact runs b more mem _ _ heldHere valueHere
  | maxVal | minVal =>
    refine (replacingStep_builds located accumulatorDeclared plain itemDeclared
      plainItem frame _).mono
      fun stmt after _ runs b more mem held v heldHere valueHere heldTyped valueTyped => ?_
    obtain ⟨best, rfl⟩ := Constant.exists_integer heldTyped
    obtain ⟨number, rfl⟩ := Constant.exists_integer valueTyped
    rw [runs b more mem _ _ _ heldHere valueHere rfl]
    refine chosen heldHere ?_
    simp only [holds_gt, holds_lt, decide_eq_true_eq]
    split <;> omega
  | count =>
    refine (countingStep_builds located accumulatorDeclared plain itemDeclared plainItem frame).mono
      fun stmt after _ runs b more mem held v heldHere valueHere heldTyped valueTyped => ?_
    obtain ⟨number, rfl⟩ := Constant.exists_integer heldTyped
    obtain ⟨truth, rfl⟩ := Constant.exists_logical valueTyped
    rw [runs b more mem _ _ heldHere valueHere]
    cases truth with
    | true =>
      rw [if_pos rfl]
      change (elementwise (scalarArithmetic _ (.integer 4)) _ _).bind _ = _
      rw [elementwise_of_defined]
      · rfl
      · simp [Folding.Undefined]
    | false => exact (Place.write_read heldHere).symm
  | maxLoc | minLoc | merge | shape => cases reduction

/-! ## Accumulating an array -/

theorem Place.read_item (counted : mem.index? counters = some index)
    (h : mem.array array = some grid) (listed : index ∈ Grid.indices grid.extents) :
    (Place.item array counters).read mem = some (grid.item index) := by
  simp [read, counted, h, Grid.item?, Grid.mem_indices.1 listed]

theorem Place.write_item (v : Constant) (counted : mem.index? counters = some index)
    (h : mem.array array = some grid) (listed : index ∈ Grid.indices grid.extents) :
    (Place.item array counters).write v mem = some { mem with
      array := Function.update mem.array array
        (some { grid with item := Function.update grid.item index v }) } := by
  simp [write, counted, Memory.setItem?, h, Grid.setItem?, Grid.mem_indices.1 listed]

/-- Whether the dummy arguments for the array and the mask hold the operands of a reduction. -/
structure Holding (mem : Memory) (operands : Operands) (array : SymbolId) (mask : Option SymbolId) :
    Prop where
  present : mask.isSome = operands.mask.isSome
  data : mem.array array = some operands.data
  mask : ∀ symbol ∈ mask, mem.array symbol = operands.mask

variable {array : SymbolId} {mask : Option SymbolId} {counters : List SymbolId}

/-- Whether the variables that a reduction reads are declared. -/
structure Prepared (a : Arena) (intrinsic : ArrayIntrinsic) (kind : Nat) (array : SymbolId)
    (mask : Option SymbolId) (counters : List SymbolId) : Prop where
  distinct : counters.Nodup
  array : ∃ type, a.Declared array type ∧ type.element = intrinsic.elementType kind
  mask : ∀ symbol ∈ mask, ∃ type, a.Declared symbol type
  counters : ∀ counter ∈ counters, a.Declared counter (.integer 4)

theorem Prepared.grows {after : Arena} (prepared : Prepared a op k array mask counters)
    (grown : a.Grows after) : Prepared after op k array mask counters where
  distinct := prepared.distinct
  array := prepared.array.imp fun _ h => ⟨h.1.grows grown, h.2⟩
  mask sym mem := (prepared.mask sym mem).imp fun _ h => h.grows grown
  counters counter mem := (prepared.counters counter mem).grows grown

/-- A statement under a mask is built, and runs where the mask selects. -/
theorem masked_builds (frame : Frame) (statement : Stmt)
    (prepared : Prepared a op k array mask counters) :
    (masked frame mask counters statement).Builds a fun guarded after =>
      ∀ b, after.Prefixes b → ∀ mem xs index, Operands.Fit xs op k →
        Holding mem xs array mask → mem.index? counters = some index →
          index ∈ Grid.indices xs.data.extents → b.run guarded mem =
            if xs.selects index then b.run statement mem else some mem := by
  cases mask with
  | none =>
    refine .pure fun b _ mem xs index _ holding _ _ => ?_
    have none : xs.mask = none := by simpa using holding.present.symm
    simp [Operands.selects, none]
  | some sym =>
    obtain ⟨type, declared⟩ := prepared.mask sym rfl
    refine .bind (frame.item_builds declared prepared.counters) ?_
    rintro cond after - ⟨locates, -⟩
    refine .pure fun b more mem xs index fit holding counted listed => ?_
    obtain ⟨grid, masked⟩ := Option.isSome_iff_exists.1 holding.present.symm
    have h : mem.array sym = some grid := (holding.mask sym rfl).trans masked
    rw [← fit.shape grid masked] at listed
    obtain ⟨truth, selected⟩ := fit.mask grid masked index listed
    have decided : (Place.item sym counters).read mem = some (.logical truth) :=
      (Place.read_item counted h listed).trans (congrArg some selected)
    rw [run_branch locates.means more _ _ decided, runAll_singleton]
    simp [Operands.selects, masked, selected, Constant.logical?, runAll]

/-- An accumulation over an array is built, and combines the accumulator with every selected
element. -/
theorem accumulation_builds (frame : Frame) (reduction : op.isReduction = true)
    (prepared : Prepared a op k array mask counters)
    (accumulatorDeclared : accumulator.Declared a (op.valueType k)) :
    (accumulation frame op accumulator array mask counters).Builds a fun statements after =>
      ∀ b, after.Prefixes b → ∃ step : Memory → Option Memory,
        (∀ mem, b.runAll statements mem = Memory.nest array 1 counters step mem) ∧
        ∀ mem xs index held, Operands.Fit xs op k → Holding mem xs array mask →
        mem.index? counters = some index →
            index ∈ Grid.indices xs.data.extents → accumulator.read mem = some held →
              held.hasType (op.valueType k) = true → step mem = if xs.selects index then
                  accumulator.write (op.combine k held (xs.data.item index)) mem else some mem := by
  refine .bind (accumulate_builds frame reduction accumulatorDeclared
    ⟨prepared.array, prepared.counters⟩) fun accumulating first grownFirst accumulates => ?_
  have prepared := prepared.grows grownFirst
  refine .bind (masked_builds frame accumulating prepared)
    fun guarded second grownSecond guards => ?_
  obtain ⟨arrayType, declared, -⟩ := (prepared.grows grownSecond).array
  refine (frame.loopsFrom_builds 1 [guarded] declared (prepared.grows grownSecond).counters).mono
    fun statements after grownLast loops b more => ?_
  refine ⟨b.runAll [guarded], loops b more, ?_⟩
  intro mem xs index held fit holding counted listed heldHere typed
  have moreSecond := grownLast.exprs.trans more
  rw [runAll_singleton, guards b moreSecond mem xs index fit holding counted listed]
  have v := Place.read_item counted holding.data listed
  rw [accumulates b (grownSecond.exprs.trans moreSecond) mem held _ heldHere v typed
    (fit.data index listed)]

theorem startStmt_builds (frame : Frame) (declared : accumulator.Declared a type)
    (plain : type.element = type) :
    (startStmt frame op accumulator type).Builds a fun stmt after => ∀ b, after.Prefixes b →
      ∀ mem, b.run stmt mem = accumulator.write (startValue op type) mem := by
  refine .bind (frame.content_builds declared plain) ?_
  rintro target first - ⟨locates, -⟩
  refine .bind (frame.constant_builds _ _) fun v second grown means => ?_
  exact .pure fun b more mem => run_assignment (locates.grows grown) means more mem

theorem Holding.setScalar (holding : Holding mem xs array mask) (sym : SymbolId) (v : Constant) :
    Holding (mem.setScalar sym v) xs array mask :=
  ⟨holding.present, holding.data, holding.mask⟩

theorem Holding.setArray (holding : Holding mem xs array mask) (o : array ≠ res)
    (unmasked : res ∉ mask) (grid : Option Grid) :
    Holding { mem with array := Function.update mem.array res grid } xs array mask where
  present := holding.present
  data := (Function.update_of_ne o ..).trans holding.data
  mask sym listed := by
    have different : sym ≠ res := fun same => unmasked (same ▸ listed)
    exact (Function.update_of_ne different ..).trans (holding.mask sym listed)

/-! ## Scalar results -/

/-- A reduction to a scalar is built, and leaves the fold over all selected elements. -/
theorem scalarReduction_builds (frame : Frame) (reduction : op.isReduction = true)
    (prepared : Prepared a op k array mask counters)
    (resultDeclared : (Place.var res).Declared a (op.valueType k)) (apart : res ∉ counters) :
    (scalarReduction frame op array res mask counters (op.valueType k)).Builds a
      fun statements after => ∀ b, after.Prefixes b → ∀ mem xs, Operands.Fit xs op k →
      Holding mem xs array mask →
          counters.length = xs.data.extents.length → ∃ final, b.runAll statements mem = some final ∧
          final.scalar res =
              some (xs.reduce op k (Grid.indices xs.data.extents)) := by
  refine .bind (startStmt_builds frame resultDeclared (op.element_valueType k))
    fun start first grownFirst starts => ?_
  rw [ArrayIntrinsic.startValue_eq_identity reduction] at starts
  refine .bind (accumulation_builds frame reduction (prepared.grows grownFirst)
    (resultDeclared.grows grownFirst)) fun loops second grownSecond accumulates => ?_
  refine .pure fun b more mem xs fit holding rank => ?_
  obtain ⟨step, loop, steps⟩ := accumulates b more
  have opening : b.run start mem = some (mem.setScalar res (op.identity k)) :=
    starts b (grownSecond.exprs.trans more) mem
  have o (counter : SymbolId) (listed : counter ∈ counters) : res ≠ counter :=
    fun same => apart (same ▸ listed)
  -- after some indices were visited, the result is the reduction of the elements there
  have nest := @Memory.nest_rule step array counters xs.data.extents 1
    (fun done state => Holding state xs array mask ∧ done ⊆ Grid.indices xs.data.extents ∧
      state.scalar res = some (xs.reduce op k done))
    le_rfl prepared.distinct rank (fun _ state kept => ⟨xs.data, kept.1.data, rfl⟩)
    (fun done state kept counter listed v => ⟨kept.1.setScalar counter v, kept.2.1,
      (Memory.setScalar_of_ne state v (o counter listed)).trans kept.2.2⟩)
    ?_ (mem.setScalar res (op.identity k))
    ⟨holding.setScalar _ _, nil_subset _, Memory.setScalar_self ..⟩
  · obtain ⟨final, ran, -, -, finished⟩ := nest
    refine ⟨final, ?_, finished⟩
    simp only [runAll, opening]
    exact (loop _).trans ran
  · rintro done index state listed counted ⟨holding, visited, held⟩
    have typed := Operands.hasType_reduce fit reduction visited
    have stepped := steps state xs index _ fit holding counted listed held typed
    have extended : done ++ [index] ⊆ Grid.indices xs.data.extents :=
      append_subset.2 ⟨visited, cons_subset.2 ⟨listed, nil_subset _⟩⟩
    rw [Operands.reduce_append]
    by_cases selected : xs.selects index = true
    · rw [if_pos selected] at stepped ⊢
      refine ⟨_, stepped, fun counter member => ?_, holding.setScalar _ _, extended,
        Memory.setScalar_self ..⟩
      exact Memory.setScalar_of_ne state _ (o counter member).symm
    · rw [if_neg selected] at stepped ⊢
      exact ⟨state, stepped, fun _ _ => rfl, holding, extended, held⟩

/-! ## Array results -/

/-- Whether an array holds, for each index of the dimensions other than one, the reduction along
that one. -/
def ReducedAlong (mem : Memory) (operands : Operands) (intrinsic : ArrayIntrinsic) (kind : Nat)
    (result : SymbolId) (dim : Nat) : Prop :=
  ∃ grid, mem.array result = some grid ∧ grid.extents = operands.data.extents.eraseIdx dim ∧
    ∀ others ∈ Grid.indices grid.extents,
      grid.item others = operands.reduce intrinsic kind
      (Grid.fibre operands.data.extents dim others)

section

variable {res : SymbolId} {xs : Operands} {mem : Memory} {dim : Nat}

/-- Loops that write the value of no elements to every element of the result fill it with that
value. -/
theorem nest_starts (distinct : counters.Nodup) (o : array ≠ res) (unmasked : res ∉ mask)
    (steps : ∀ mem, step mem = (Place.item res counters).write (op.identity k) mem)
    (holding : Holding mem xs array mask) (rank : counters.length = extents.length)
    (shaped : ∃ grid, mem.array res = some grid ∧ grid.extents = extents) :
    ∃ final, Memory.nest res 1 counters step mem = some final ∧
      Holding final xs array mask ∧ ∃ grid, final.array res = some grid ∧
        grid.extents = extents ∧ ∀ index ∈ Grid.indices extents,
        grid.item index = op.identity k := by
  have nest := @Memory.nest_rule step res counters extents 1
    (fun done state => Holding state xs array mask ∧ ∃ grid, state.array res = some grid ∧
      grid.extents = extents ∧ ∀ index ∈ done, grid.item index = op.identity k)
    le_rfl distinct rank (fun _ state kept => kept.2.imp fun grid h => ⟨h.1, h.2.1⟩)
    (fun done state kept counter listed v => ⟨kept.1.setScalar counter v, kept.2⟩) ?_ mem
    ⟨holding, shaped.imp fun grid h => ⟨h.1, h.2, nofun⟩⟩
  · exact nest
  · rintro done index state listed counted ⟨holding, grid, h, rfl, started⟩
    refine ⟨_, (steps state).trans (Place.write_item _ counted h listed), fun _ _ => rfl,
      holding.setArray o unmasked _, _, Function.update_self .., rfl, fun place visited => ?_⟩
    by_cases here : place = index
    · rw [here]
      exact Function.update_self ..
    · have earlier : place ∈ done :=
        (mem_append.1 visited).resolve_right fun last => here (mem_singleton.1 last)
      exact (Function.update_of_ne here ..).trans (started place earlier)

/-- Loops that combine every selected element with the result at the index without one dimension
leave the reductions along it. -/
theorem nest_accumulates (reduction : op.isReduction = true) (distinct : counters.Nodup)
    (o : array ≠ res) (unmasked : res ∉ mask) (fit : xs.Fit op k)
    (steps : ∀ mem index held, Holding mem xs array mask →
      mem.index? counters = some index → index ∈ Grid.indices xs.data.extents →
        (Place.item res (counters.eraseIdx dim)).read mem = some held →
          held.hasType (op.valueType k) = true → step mem =
            if xs.selects index then (Place.item res (counters.eraseIdx dim)).write
              (op.combine k held (xs.data.item index)) mem
            else some mem) (rank : counters.length = xs.data.extents.length)
    (lt : dim < xs.data.extents.length) (holding : Holding mem xs array mask)
    (started : ∃ grid, mem.array res = some grid ∧ grid.extents = xs.data.extents.eraseIdx dim ∧
        ∀ others ∈ Grid.indices (xs.data.extents.eraseIdx dim), grid.item others = op.identity k) :
    ∃ final, Memory.nest array 1 counters step mem = some final ∧
      ReducedAlong final xs op k res dim := by
  -- after some indices were visited, an element of the result is the reduction of those that lie
  -- along it
  have nest := @Memory.nest_rule step array counters xs.data.extents 1
    (fun done state => Holding state xs array mask ∧ done ⊆ Grid.indices xs.data.extents ∧
      ∃ grid, state.array res = some grid ∧ grid.extents = xs.data.extents.eraseIdx dim ∧
        ∀ others ∈ Grid.indices (xs.data.extents.eraseIdx dim), grid.item others =
          xs.reduce op k (done.filter fun index => index.eraseIdx dim = others))
    le_rfl distinct rank (fun _ state kept => ⟨xs.data, kept.1.data, rfl⟩)
    (fun done state kept counter listed v => ⟨kept.1.setScalar counter v, kept.2⟩) ?_ mem
    ⟨holding, nil_subset _, started⟩
  · obtain ⟨final, ran, -, -, grid, h, extents, reduced⟩ := nest
    refine ⟨final, ran, grid, h, extents, fun others listed => ?_⟩
    rw [extents] at listed
    rw [reduced others listed, Grid.filter_indices lt listed]
  · rintro done index state listed counted ⟨holding, visited, grid, h, extents, reduced⟩
    have place := Grid.eraseIdx_mem_indices dim listed
    have placeInGrid : index.eraseIdx dim ∈ Grid.indices grid.extents := extents ▸ place
    have countedPlace := Memory.index?_eraseIdx counted dim
    have held := (Place.read_item countedPlace h placeInGrid).trans
      (congrArg some (reduced _ place))
    have along : done.filter (fun visited => visited.eraseIdx dim = index.eraseIdx dim) ⊆
        Grid.indices xs.data.extents :=
      fun _ member => visited (mem_of_mem_filter member)
    have stepped := steps state index _ holding counted listed held
      (Operands.hasType_reduce fit reduction along)
    have extended : done ++ [index] ⊆ Grid.indices xs.data.extents :=
      append_subset.2 ⟨visited, cons_subset.2 ⟨listed, nil_subset _⟩⟩
    have here : (done ++ [index]).filter
        (fun visited => visited.eraseIdx dim = index.eraseIdx dim) =
        done.filter (fun visited => visited.eraseIdx dim = index.eraseIdx dim) ++ [index] := by
      simp
    have elsewhere (others : List Int) (different : others ≠ index.eraseIdx dim) :
        (done ++ [index]).filter (fun visited => visited.eraseIdx dim = others) =
          done.filter fun visited => visited.eraseIdx dim = others := by
      simp [different.symm]
    by_cases selected : xs.selects index = true
    · rw [if_pos selected, Place.write_item _ countedPlace h placeInGrid] at stepped
      refine ⟨_, stepped, fun _ _ => rfl, holding.setArray o unmasked _, extended, _,
        Function.update_self .., extents, fun others member => ?_⟩
      by_cases same : others = index.eraseIdx dim
      · rw [same, here, Operands.reduce_append, if_pos selected]
        exact Function.update_self ..
      · rw [elsewhere others same]
        exact (Function.update_of_ne same ..).trans (reduced others member)
    · rw [if_neg selected] at stepped
      refine ⟨state, stepped, fun _ _ => rfl, holding, extended, grid, h, extents,
        fun others member => ?_⟩
      by_cases same : others = index.eraseIdx dim
      · rw [same, here, Operands.reduce_append, if_neg selected]
        exact reduced _ place
      · rw [elsewhere others same]
        exact reduced others member

end

variable (frame : Frame) {dim : SymbolId} {dimType : Ty} (reduction : op.isReduction = true)
  (prepared : Prepared a op k array mask counters)
  (resultDeclared : ∃ type, a.Declared res type ∧ type.element = op.valueType k)
  (dimDeclared : a.Declared dim dimType) (o : array ≠ res) (unmasked : res ∉ mask)

include reduction prepared resultDeclared dimDeclared o unmasked

/-- The reduction along one dimension is built, and done when the dimension argument says so. -/
theorem dimBranch_builds (number : Nat) (otherwise : List Stmt) :
    (dimBranch frame op array dim res dimType (op.valueType k) mask counters (number + 1)
      otherwise).Builds a fun stmts after => ∀ b, after.Prefixes b → ∀ mem xs (chosen : Int),
        mem.scalar dim = some (.integer chosen) → if chosen = number + 1 then
            Operands.Fit xs op k → Holding mem xs array mask →
              counters.length = xs.data.extents.length → number < xs.data.extents.length →
                (∃ grid, mem.array res = some grid ∧ grid.extents = xs.data.extents.eraseIdx number)
                →
                  ∃ final, b.runAll stmts mem = some final ∧
                    ReducedAlong final xs op k res number else b.runAll stmts mem =
                    b.runAll otherwise mem := by
  have kept (counter : SymbolId) (listed : counter ∈ counters.eraseIdx number) :=
    prepared.counters counter (mem_of_mem_eraseIdx listed)
  have accumulatorDeclared : (Place.item res (counters.eraseIdx number)).Declared a
      (op.valueType k) := ⟨resultDeclared, kept⟩
  refine .bind (startStmt_builds frame accumulatorDeclared (op.element_valueType k))
    fun start first grownFirst starts => ?_
  rw [ArrayIntrinsic.startValue_eq_identity reduction] at starts
  obtain ⟨resultType, resultDeclared, -⟩ := resultDeclared
  refine .bind (frame.loopsFrom_builds 1 [start] (resultDeclared.grows grownFirst)
    fun counter listed => (kept counter listed).grows grownFirst)
    fun startLoops second grownSecond startRuns => ?_
  have grown := grownFirst.trans grownSecond
  refine .bind (accumulation_builds frame reduction (prepared.grows grown)
    (accumulatorDeclared.grows grown)) fun loops third grownThird accumulates => ?_
  refine .bind (frame.var_builds (dimDeclared.grows (grown.trans grownThird))) ?_
  rintro selector fourth grownFourth ⟨locates, -, -⟩
  refine .bind (frame.constant_builds _ _) fun literal fifth grownFifth literalMeans => ?_
  refine .bind (frame.compare_builds (locates.means.grows grownFifth) literalMeans .eq)
    fun cond sixth grownSixth condMeans => ?_
  refine .pure fun b more mem xs chosen given => ?_
  have decided : (do
      let held ← (Place.var dim).read mem
      let wanted ← some (Constant.integer (number + 1 : Nat))
      compare .eq held wanted) = some (.logical (decide (chosen = number + 1))) := by
    rw [show (Place.var dim).read mem = some (.integer chosen) from given]
    exact congrArg (some ∘ Constant.logical) (holds_eq chosen (number + 1 : Nat))
  rw [runAll_singleton, run_branch condMeans more _ _ decided]
  by_cases here : chosen = number + 1
  · rw [if_pos here, if_pos (decide_eq_true here)]
    intro fit holding rank lt shaped
    have moreThird := ((grownFourth.trans grownFifth).trans grownSixth).exprs.trans more
    have moreSecond := grownThird.exprs.trans moreThird
    obtain ⟨step, loop, steps⟩ := accumulates b moreThird
    have keptRank : (counters.eraseIdx number).length =
        (xs.data.extents.eraseIdx number).length := by
      rw [length_eraseIdx, length_eraseIdx, rank]
    obtain ⟨mid, started, holdingMiddle, filled⟩ := nest_starts
      (prepared.distinct.sublist (eraseIdx_sublist ..)) o unmasked
      (fun state => (runAll_singleton b start state).trans
        (starts b (grownSecond.exprs.trans moreSecond) state)) holding keptRank shaped
    obtain ⟨final, ran, reduced⟩ := nest_accumulates reduction prepared.distinct o unmasked fit
      (fun state index held holding counted listed => steps state xs index held fit holding counted
        listed) rank lt holdingMiddle filled
    refine ⟨final, ?_, reduced⟩
    rw [runAll_append, startRuns b moreSecond, started]
    exact (loop mid).trans ran
  · rw [if_neg here, if_neg (by simpa using here)]

/-- The reductions along the dimensions are built, and the one that the dimension argument names is
done. -/
theorem dimBranches_builds (number : Nat) (chain : List Stmt) :
    (dimBranches frame op array dim res dimType (op.valueType k) mask counters
        number chain).Builds a fun stmts after => ∀ b, after.Prefixes b → ∀ mem xs (chosen : Nat),
        mem.scalar dim = some (.integer (chosen + 1)) → if chosen < number then
            Operands.Fit xs op k → Holding mem xs array mask →
              counters.length = xs.data.extents.length → chosen < xs.data.extents.length →
                (∃ grid, mem.array res = some grid ∧ grid.extents = xs.data.extents.eraseIdx chosen)
                →
                  ∃ final, b.runAll stmts mem = some final ∧
                    ReducedAlong final xs op k res chosen else b.runAll stmts mem =
                    b.runAll chain mem := by
  induction number generalizing a chain with
  | zero => exact .pure fun b more mem xs chosen given => rfl
  | succ number ih =>
    refine .bind (dimBranch_builds frame reduction prepared resultDeclared dimDeclared o unmasked
      number chain) fun branch first grown branches => ?_
    refine (ih (prepared.grows grown) (resultDeclared.imp fun _ h => ⟨h.1.grows grown, h.2⟩)
      (dimDeclared.grows grown) branch).mono
      fun stmts after grownMore runs b more mem xs chosen given => ?_
    have earlier := runs b more mem xs chosen given
    have last := branches b (grownMore.exprs.trans more) mem xs (chosen + 1) given
    rcases Nat.lt_trichotomy chosen number with below | rfl | above
    · rw [if_pos below] at earlier
      rwa [if_pos (Nat.lt_succ_of_lt below)]
    · rw [if_neg (Nat.lt_irrefl _)] at earlier
      rw [if_pos rfl] at last
      rwa [if_pos (Nat.lt_succ_self _), earlier]
    · rw [if_neg (Nat.lt_asymm above)] at earlier
      rw [if_neg (by omega)] at last
      rw [if_neg (by omega), earlier, last]

end Intrinsic

end FortranSemantics
