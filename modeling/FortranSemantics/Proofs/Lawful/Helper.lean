import FortranSemantics.Proofs.Lawful.Sparing

/-!
# Helpers in lawful arenas

The helper of a lawful call of an array intrinsic is made without a breach. No array intrinsic is
called in it.
-/

namespace FortranSemantics

open List Arena Edit

variable {t : Terms} {a b : Arena} {helper dummy best : SymbolId} {s : ScopeId}
  {type el whole resultType : Ty} {index number : Nat} {sum : Place} {intrinsic : ArrayIntrinsic}
  {result array : SymbolId} {mask : Option SymbolId} {indices dummies : List SymbolId}
  {types : List Ty} {unit : ScopeId} {key : HelperKey}

theorem ArrayIntrinsic.resultElement_congr (intrinsic : ArrayIntrinsic)
    (same : data.element = other.element) :
    intrinsic.resultElement data = intrinsic.resultElement other := by
  cases intrinsic <;> first | rfl | exact same

namespace Intrinsic

variable {frame : Frame} (ok : a.Lawful t)

include ok

/-! ## Reductions -/

/-- The step of a reduction takes items into an accumulator that goes with them. -/
theorem accumulate_supplies {item : Place} {result data : Ty}
    (isAccumulator : accumulator.IsLocal a frame.scope result)
    (isItem : item.IsLocal a frame.scope data)
    (plain : data.element.IsPlain) (el : result.element = intrinsic.resultElement data)
    (scalar : result.rank = 0) (scalarToo : data.rank = 0) (reduces : ¬ intrinsic.IsLocation)
    (counted : intrinsic = .count → ∃ k, data = .logical k) :
    (accumulate frame intrinsic accumulator item).Supplies t frame.scope a fun step next =>
    next.Straight [step] := by
  refine .bind (Frame.content_supplies ok isAccumulator) fun target first toFirst isTarget => ?_
  have ok := toFirst.lawful
  have isAccumulator := isAccumulator.supplied toFirst
  have isItem := isItem.supplied toFirst
  -- both operands are read again, then the accumulator gets what is built from them
  have assigns (build : ExprId → ExprId → Edit ExprId)
      (builds : ∀ left right mid, mid.Lawful t → mid.Operand result left →
        mid.Operand data right → (build left right).Supplies t frame.scope mid fun id next =>
          next.Operand result id) :
      Edit.Supplies t frame.scope (do
        let left ← frame.content accumulator
        let right ← frame.content item
        return Stmt.assignment target (← build left right)) first fun step next =>
        next.Straight [step] := by
    refine .bind (Frame.content_supplies ok isAccumulator) fun left second toSecond isLeft => ?_
    refine .bind (Frame.content_supplies toSecond.lawful (isItem.supplied toSecond))
      fun right third toThird isRight => ?_
    refine .bind (builds left right third toThird.lawful (toThird.operand isLeft) isRight)
      fun v last toLast isValue => ?_
    have supplied := (toSecond.trans toThird).trans toLast
    exact .pure (toLast.lawful.supplies _)
      (.assignment (supplied.operand isTarget) isValue scalar rfl)
  have replaces (op : Comparison) (same : result.element = data.element) :
      Edit.Supplies t frame.scope (do
        let left ← frame.content item
        let right ← frame.content accumulator
        let cond ← frame.compare left op right
        let v ← frame.content item
        return Stmt.branch cond [.assignment target v] []) first fun step next =>
        next.Straight [step] := by
    refine .bind (Frame.content_supplies ok isItem) fun left second toSecond isLeft => ?_
    refine .bind (Frame.content_supplies toSecond.lawful (isAccumulator.supplied toSecond))
      fun right third toThird isRight => ?_
    refine .bind (Frame.compare_supplies toThird.lawful (toThird.operand isLeft) isRight plain same
      scalarToo scalar) fun cond fourth toFourth isCond => ?_
    have toHere := (toSecond.trans toThird).trans toFourth
    refine .bind (Frame.content_supplies toFourth.lawful (isItem.supplied toHere))
      fun v last toLast isValue => ?_
    have supplied := toHere.trans toLast
    exact .pure (toLast.lawful.supplies _) (.branch (toLast.operand isCond) rfl rfl
      (.assignment (supplied.operand isTarget) isValue scalarToo same.symm) .nil)
  have sums (op : ArithmeticOperator) (same : result.element = data.element) :=
    assigns (frame.arithmetic · op ·) fun _ _ _ ok isLeft isRight =>
      Frame.arithmetic_supplies ok isLeft isRight (same ▸ plain) same.symm
        scalar scalarToo
  have combines (op : LogicalOperator) (same : result.element = data.element) :=
    assigns (frame.logical · op ·) fun _ _ _ ok isLeft isRight =>
      Frame.logical_supplies ok isLeft isRight (same ▸ plain) same.symm
        scalar scalarToo
  cases intrinsic with
  | sum => exact sums .add el
  | product => exact sums .mul el
  | maxVal => exact replaces .gt el
  | minVal => exact replaces .lt el
  | any => exact combines .or el
  | all => exact combines .and el
  | parity | merge | shape => exact combines .neqv el
  | maxLoc => exact absurd (.inl rfl) reduces
  | minLoc => exact absurd (.inr rfl) reduces
  | count =>
    refine .bind (Frame.content_supplies ok isItem) fun cond second toSecond isCond => ?_
    refine .bind (Frame.content_supplies toSecond.lawful (isAccumulator.supplied toSecond))
      fun left third toThird isLeft => ?_
    refine .bind (Frame.integer_supplies toThird.lawful) fun one fourth toFourth isOne => ?_
    have isInteger : result.element = .integer 4 := el
    refine .bind (Frame.arithmetic_supplies toFourth.lawful (toFourth.operand isLeft) isOne
      (by rw [isInteger]; trivial) isInteger.symm scalar rfl) fun v last toLast isValue => ?_
    have toHere := toThird.trans (toFourth.trans toLast)
    have supplied := toSecond.trans toHere
    obtain ⟨k, rfl⟩ := counted rfl
    exact .pure (toLast.lawful.supplies _) (.branch (toHere.operand isCond) rfl rfl
      (.assignment (supplied.operand isTarget) isValue scalar rfl) .nil)

/-- Whether a symbol is a logical variable of a scope. -/
def IsMask (arena : Arena) (scope : ScopeId) (symbol : SymbolId) : Prop :=
  ∃ whole kind, arena.IsLocal scope whole symbol ∧ whole.element = .logical kind

omit ok in
theorem IsMask.supplied {mask : SymbolId} (isMask : IsMask a s mask) (given : a.Supplies t s b) :
    IsMask b s mask :=
  isMask.imp fun _ => Exists.imp fun _ => And.imp_left given.isLocal

theorem masked_supplies (isMask : ∀ sym ∈ mask, IsMask a frame.scope sym)
    (vars : ∀ index ∈ indices, a.IsLocal frame.scope (.integer 4) index)
    (straight : a.Straight [step]) :
    (masked frame mask indices step).Supplies t frame.scope a fun step next =>
    next.Straight [step] := by
  cases mask with
  | none => exact .pure (ok.supplies _) straight
  | some mask =>
    obtain ⟨whole, k, isLocal, isLogical⟩ := isMask mask rfl
    refine .bind (Frame.item_supplies ok isLocal vars) fun cond next given isCond => ?_
    rw [isLogical] at isCond
    exact .pure (given.lawful.supplies _) (.branch isCond rfl rfl (given.straight straight) .nil)

/-- The statement that gives an accumulator its start value. -/
theorem startStmt_supplies (isSum : sum.IsLocal a frame.scope type) (plain : el.IsPlain)
    (same : type.element = el) :
    (startStmt frame intrinsic sum el).Supplies t frame.scope a fun step next =>
    next.Straight [step] := by
  refine .bind (Frame.content_supplies ok isSum) fun target mid toMiddle isTarget => ?_
  have law : mid.LawfulType t el := same ▸ (toMiddle.lawful.lawfulType isTarget.2).element
  refine .bind (Frame.constant_supplies toMiddle.lawful law) fun v last toLast isValue => ?_
  exact .pure (toLast.lawful.supplies _)
    (.assignment (toLast.operand isTarget) isValue plain.isElement.rank
    (plain.isElement.element.trans same.symm))

/-- What a reduction works on: an array, loop variables and maybe a mask. -/
structure Reduces (arena : Arena) (scope : ScopeId) (intrinsic : ArrayIntrinsic) (array : SymbolId)
    (mask : Option SymbolId) (indices : List SymbolId) (element : Ty) : Prop where
  array : ∃ whole, arena.IsLocal scope whole array ∧ whole.element.IsPlain ∧
    element = intrinsic.resultElement whole ∧
    (intrinsic = .count → ∃ kind, whole.element = .logical kind)
  mask : ∀ symbol ∈ mask, IsMask arena scope symbol
  counters : ∀ index ∈ indices, arena.IsLocal scope (.integer 4) index
  reduces : ¬ intrinsic.IsLocation

omit ok in
theorem Reduces.supplied (holds : Reduces a s intrinsic array mask indices el)
    (supplied : a.Supplies t s b) : Reduces b s intrinsic array mask indices el where
  array := holds.array.imp fun _ => And.imp_left supplied.isLocal
  mask sym given := (holds.mask sym given).supplied supplied
  counters index mem := supplied.isLocal (holds.counters index mem)
  reduces := holds.reduces

section

variable {intrinsic : ArrayIntrinsic} {array : SymbolId} {mask : Option SymbolId}
  {indices : List SymbolId} {el : Ty}
  (holds : Reduces a frame.scope intrinsic array mask indices el)

include holds

omit ok in
theorem Reduces.plain : el.IsPlain := by
  obtain ⟨whole, -, plain, rfl, -⟩ := holds.array
  cases intrinsic <;> first | exact plain | trivial

theorem accumulation_supplies {result : Ty} (isSum : sum.IsLocal a frame.scope result)
    (same : result.element = el) (scalar : result.rank = 0) :
    (accumulation frame intrinsic sum array mask indices).Supplies t frame.scope a
      fun loops next => next.Straight loops := by
  obtain ⟨whole, isArray, plain, rfl, counted⟩ := holds.array
  have single := plain.isElement
  have elementSame := intrinsic.resultElement_congr single.element
  have isItem : (Place.item array indices).IsLocal a frame.scope whole.element :=
    ⟨⟨whole, isArray, rfl⟩, holds.counters⟩
  refine .bind (accumulate_supplies ok isSum isItem (single.element.symm ▸ plain)
    (same.trans elementSame.symm) scalar single.rank holds.reduces counted)
    fun step first toFirst straight => ?_
  have held := holds.supplied toFirst
  refine .bind (masked_supplies toFirst.lawful held.mask held.counters straight)
    fun guarded second toSecond straight => ?_
  have held := held.supplied toSecond
  exact Frame.loopsFrom_supplies toSecond.lawful (toSecond.isLocal (toFirst.isLocal isArray))
    held.counters straight

theorem scalarReduction_supplies (isResult : a.IsLocal frame.scope type result)
    (same : type.element = el) (scalar : type.rank = 0) :
    (scalarReduction frame intrinsic array result mask indices el).Supplies t frame.scope a
      fun body next => next.Straight body := by
  have isSum : (Place.var result).IsLocal a frame.scope type := isResult
  refine .bind (startStmt_supplies ok isSum holds.plain same) fun start first toFirst straight => ?_
  refine .bind (accumulation_supplies toFirst.lawful (holds.supplied toFirst)
    (isSum.supplied toFirst) same scalar) fun loops last toLast inner => ?_
  exact .pure (toLast.lawful.supplies _) ((toLast.straight straight).append inner)

variable {dim result : SymbolId} {dimType whole : Ty} (isDim : a.IsLocal frame.scope dimType dim)
  (dimPlain : dimType.element.IsPlain) (dimScalar : dimType.rank = 0)
  (isResult : a.IsLocal frame.scope whole result) (same : whole.element = el)

include isDim dimPlain dimScalar isResult same

theorem dimBranch_supplies (straight : a.Straight otherwise) :
    (dimBranch frame intrinsic array dim result dimType el mask indices number otherwise).Supplies t
      frame.scope a fun body next => next.Straight body := by
  have isSum : (Place.item result (indices.eraseIdx (number - 1))).IsLocal a frame.scope el :=
    ⟨⟨whole, isResult, same⟩, fun index mem => holds.counters index (eraseIdx_subset mem)⟩
  have single := holds.plain.isElement
  refine .bind (startStmt_supplies ok isSum holds.plain single.element)
    fun start first toFirst isStart => ?_
  refine .bind (Frame.loopsFrom_supplies toFirst.lawful (toFirst.isLocal isResult)
    (isSum.supplied toFirst).2 isStart) fun starts second toSecond isStarts => ?_
  have toHere := toFirst.trans toSecond
  refine .bind (accumulation_supplies toSecond.lawful (holds.supplied toHere)
    (isSum.supplied toHere) single.element single.rank) fun loops third toThird isLoops => ?_
  have toHere := toHere.trans toThird
  refine .bind (Frame.var_supplies toThird.lawful (toHere.isLocal isDim))
    fun chosen fourth toFourth isChosen => ?_
  have dimLaw := toFourth.lawful.lawfulType isChosen.2
  refine .bind (Frame.constant_supplies toFourth.lawful dimLaw)
    fun literal fifth toFifth isLiteral => ?_
  refine .bind (Frame.compare_supplies toFifth.lawful (toFifth.operand isChosen) isLiteral
    dimPlain rfl dimScalar dimScalar) fun cond last toLast isCond => ?_
  have afterLoops := toFourth.trans (toFifth.trans toLast)
  have afterStarts := toThird.trans afterLoops
  have supplied := (toFirst.trans toSecond).trans afterStarts
  exact .pure (toLast.lawful.supplies _) (.branch isCond rfl rfl
    ((afterStarts.straight isStarts).append (afterLoops.straight isLoops))
    (supplied.straight straight))

theorem dimBranches_supplies (straight : a.Straight chain) :
    (dimBranches frame intrinsic array dim result dimType el mask indices number chain).Supplies t
      frame.scope a fun body next => next.Straight body := by
  induction number generalizing a chain with
  | zero => exact .pure (ok.supplies _) straight
  | succ number ih =>
    refine .bind (dimBranch_supplies ok holds isDim dimPlain dimScalar isResult same straight)
      fun branch next given isBranch => ?_
    exact ih given.lawful (holds.supplied given) (given.isLocal isDim)
      (given.isLocal isResult) isBranch

end

/-! ## Bodies of helpers -/

/-- Whether some symbols are the dummy arguments of a helper for arguments of some types. -/
def AreDummies (arena : Arena) (scope : ScopeId) (types : List Ty)
    (dummies : List SymbolId) : Prop :=
  List.Forall₂ (fun type dummy => arena.IsLocal scope (.assumedShape type.element type.rank)
    dummy) types dummies

omit ok in
theorem AreDummies.supplied (are : AreDummies a s types dummies) (given : a.Supplies t s b) :
    AreDummies b s types dummies :=
  are.imp fun _ _ => given.isLocal

omit ok in
theorem AreDummies.exists_type (are : AreDummies a s types dummies)
    (isDummy : dummies[index]? = some dummy) : ∃ type, types[index]? = some type ∧
      a.IsLocal s (.assumedShape type.element type.rank) dummy := by
  obtain ⟨bound, rfl⟩ := List.getElem?_eq_some_iff.1 isDummy
  have typeBound : index < types.length := are.length_eq ▸ bound
  exact ⟨_, getElem?_eq_getElem typeBound, List.Forall₂.get are typeBound bound⟩

omit ok in
theorem dummyAt_quiet (bound : index < dummies.length) :
    Quiet .none (dummyAt dummies index) a fun dummy => dummies[index]? = some dummy := by
  unfold dummyAt
  rw [getElem?_eq_getElem bound]
  exact .pure rfl

omit ok in
/-- After a dummy argument that there may be was found by its position, the rest runs. -/
theorem dummyAt?_bind {β : Type} {present : Bool} {next : Option SymbolId → Edit β}
    {post : β → Arena → Prop} (bound : present = true → index < dummies.length)
    (rest : ∀ ans, (present = true → ans.isSome = true) →
      (∀ dummy ∈ ans, present = true ∧ dummies[index]? = some dummy) →
      Runs .none (next ans) a post) :
    Runs .none (if present then
      some <$> dummyAt dummies index >>= next else pure none >>= next) a post := by
  cases present with
  | false => exact rest none nofun nofun
  | true =>
    have h : Quiet .none (some <$> dummyAt dummies index) a fun ans =>
        ∃ dummy, ans = some dummy ∧ dummies[index]? = some dummy :=
      Runs.map ((dummyAt_quiet (bound rfl)).mono fun dummy _ ⟨same, isDummy⟩ =>
        ⟨same, dummy, rfl, isDummy⟩)
    refine h.bind fun ans ⟨dummy, isSome, isDummy⟩ => rest ans (fun _ => isSome ▸ rfl) ?_
    intro other held
    cases isSome.symm.trans held
    exact ⟨rfl, isDummy⟩

/-- Whether a variable of a scope takes a result of some type. -/
def TakesResult (arena : Arena) (scope : ScopeId) (type : Ty) (result : SymbolId) : Prop :=
  ∃ declared, arena.IsLocal scope declared result ∧ declared.element = type.element ∧
    declared.rank = type.rank

omit ok in
theorem TakesResult.supplied (takes : TakesResult a s type result) (given : a.Supplies t s b) :
    TakesResult b s type result :=
  takes.imp fun _ => And.imp_left given.isLocal

/-- What a helper is made for: a key, arguments and a result that fit it, and the variables for
them. -/
structure Assigned (terms : Terms) (arena : Arena) (unit : ScopeId) (frame : Frame)
    (key : HelperKey) (types : List Ty)
    (resultType : Ty) (dummies : List SymbolId) (result : SymbolId) : Prop where
  framed : arena.Framed terms unit frame.scope
  fits : key.intrinsic.Fits key.overload types resultType
  typeLaws : ∀ type ∈ types, arena.LawfulType terms type
  resultLaw : arena.LawfulType terms resultType
  areDummies : AreDummies arena frame.scope types dummies
  takesResult : TakesResult arena frame.scope resultType result

section

variable {unit : ScopeId} {key : HelperKey} {types : List Ty} {resultType : Ty}
  {dummies : List SymbolId} {result : SymbolId}

omit ok in
theorem Assigned.supplied (assigned : Assigned t a unit frame key types resultType dummies result)
    (given : a.Supplies t frame.scope b) :
    Assigned t b unit frame key types resultType dummies result where
  framed := given.framed assigned.framed
  fits := assigned.fits
  typeLaws type mem := given.before.lawfulType (assigned.typeLaws type mem)
  resultLaw := given.before.lawfulType assigned.resultLaw
  areDummies := assigned.areDummies.supplied given
  takesResult := assigned.takesResult.supplied given

variable (assigned : Assigned t a unit frame key types resultType dummies result)

include assigned

omit ok in
theorem Assigned.positive : 0 < dummies.length := by
  rw [← assigned.areDummies.length_eq, assigned.fits.arity]
  unfold ArrayIntrinsic.arity
  split <;> omega

omit ok in
/-- The data of a helper, given by its first dummy argument. -/
theorem Assigned.data (isArray : dummies[0]? = some array) : ∃ whole,
    a.IsLocal frame.scope whole array ∧ whole.element.IsPlain ∧
      resultType.element = key.intrinsic.resultElement whole ∧
      (key.intrinsic = .count → ∃ k, whole.element = .logical k) := by
  obtain ⟨data, isData, isLocal⟩ := assigned.areDummies.exists_type isArray
  have plain := assigned.fits.plain data (mem_of_getElem? isData)
  have same := plain.isElement.element_assumedShape data.rank
  have isHead : types.head? = some data := head?_eq_getElem?.trans isData
  refine ⟨_, isLocal, same.symm ▸ plain, ?_, fun counts => ?_⟩
  · rw [assigned.fits.data data isHead]
    exact key.intrinsic.resultElement_congr same.symm
  · rw [same]
    exact Ty.isLogical_iff.1 (assigned.fits.count counts data isHead)

omit ok in
theorem Assigned.isMask {mask : SymbolId} (isMask : dummies[dummies.length - 1]? = some mask)
    (given : key.overload.hasMask = true ∨ key.intrinsic = .merge) : IsMask a frame.scope mask := by
  obtain ⟨type, isType, isLocal⟩ := assigned.areDummies.exists_type isMask
  rw [← assigned.areDummies.length_eq, ← getLast?_eq_getElem?] at isType
  obtain ⟨k, isLogical⟩ := Ty.isLogical_iff.1 (assigned.fits.mask given type isType)
  have single : (Ty.logical k).IsElement := trivial
  rw [isLogical] at isLocal
  exact ⟨_, k, isLocal, single.element_assumedShape _⟩

theorem reductionBody_supplies (notMerge : key.intrinsic ≠ .merge)
    (reduces : ¬ key.intrinsic.IsLocation) :
    (reductionBody frame key dummies result resultType).Supplies t frame.scope a fun body next =>
      next.Straight body := by
  have count : dummies.length = 1 +
      (if key.overload.hasDim then 1 else 0) + if key.overload.hasMask then 1 else 0 := by
    rw [← assigned.areDummies.length_eq, assigned.fits.arity]
    unfold ArrayIntrinsic.arity
    rw [if_neg notMerge]
  refine (dummyAt_quiet assigned.positive).bind fun array isArray => ?_
  refine dummyAt?_bind (fun hasDim => ?_) fun dim dimGiven isDim => ?_
  · rw [count, if_pos hasDim]
    omega
  refine dummyAt?_bind (fun _ => by omega) fun mask _ isMask => ?_
  refine Yields.bind (Frame.loopVariables_supplies ok assigned.framed)
    fun indices next supplied vars => ?_
  have assigned := assigned.supplied supplied
  have ok := supplied.lawful
  have masks (sym : SymbolId) (held : sym ∈ mask) : IsMask next frame.scope sym :=
    assigned.isMask (isMask sym held).2 (.inl (isMask sym held).1)
  have holds : Reduces next frame.scope key.intrinsic array mask indices resultType.element :=
    ⟨assigned.data isArray, masks, vars, reduces⟩
  obtain ⟨declared, resultLocal, sameElement, sameRank⟩ := assigned.takesResult
  split
  · next scalar =>
    have zero : resultType.rank = 0 := by simpa [Ty.isScalar] using scalar
    exact scalarReduction_supplies ok holds resultLocal sameElement (sameRank.trans zero)
  · next notScalar =>
    have notZero : resultType.rank ≠ 0 := by simpa [Ty.isScalar] using notScalar
    have hasDim : key.overload.hasDim = true := by
      rcases assigned.fits.shape notZero with isMerge | isLocation | hasDim
      · exact absurd isMerge notMerge
      · exact absurd isLocation reduces
      · exact hasDim
    obtain ⟨dim, rfl⟩ := Option.isSome_iff_exists.1 (dimGiven hasDim)
    obtain ⟨type, isType, dimLocal⟩ := assigned.areDummies.exists_type (isDim dim rfl).2
    have plain := assigned.fits.plain type (mem_of_getElem? isType)
    refine ask_bind dimLocal.variableType? ?_
    refine dimBranches_supplies ok holds dimLocal ?_ ?_ resultLocal sameElement .nil
    · rw [plain.isElement.element_assumedShape]
      exact plain
    · rw [plain.isElement.rank_assumedShape]
      exact assigned.fits.dim hasDim type isType

omit assigned in
theorem assignments_supplies {α : Type} (items : List α) (target v : α → Edit ExprId)
    (targets : ∀ item ∈ items, ∀ mid, a.Supplies t frame.scope mid →
      (target item).Supplies t frame.scope mid fun id next => next.Operand (.integer 4) id)
    (values : ∀ item ∈ items, ∀ mid, a.Supplies t frame.scope mid →
      (v item).Supplies t frame.scope mid fun id next => next.Operand (.integer 4) id) :
    (items.mapM fun item => do
      let target ← target item
      let v ← v item
      return Stmt.assignment target v).Supplies t frame.scope a fun steps next =>
        next.Straight steps := by
  have each : (items.mapM fun item => do
      let target ← target item
      let v ← v item
      return Stmt.assignment target v).Supplies t frame.scope a fun steps next =>
        List.Forall₂ (fun _ step => next.Straight [step]) items steps := by
    refine Yields.mapM (ok.supplies _) (fun _ _ _ _ given => given.straight)
      fun item mem mid given => ?_
    refine .bind (targets item mem mid given) fun target first toFirst isTarget => ?_
    refine .bind (values item mem first (given.trans toFirst)) fun v last toLast isValue => ?_
    exact .pure (toLast.lawful.supplies _) (.assignment (toLast.operand isTarget) isValue rfl rfl)
  refine each.mono fun steps next _ straight => .ofEach fun step mem => ?_
  obtain ⟨_, -, isStraight⟩ := exists_of_mem_right straight mem
  exact isStraight

end

/-- What a location intrinsic works on: an array, the best item so far, the place of it, loop
variables and maybe a mask. -/
structure Locates (arena : Arena) (scope : ScopeId) (array best result : SymbolId)
    (mask : Option SymbolId) (indices : List SymbolId) (whole place : Ty) : Prop where
  array : arena.IsLocal scope whole array
  best : arena.IsLocal scope whole.element best
  result : arena.IsLocal scope place result
  mask : ∀ symbol ∈ mask, IsMask arena scope symbol
  counters : ∀ index ∈ indices, arena.IsLocal scope (.integer 4) index

omit ok in
theorem Locates.supplied {place : Ty}
    (locates : Locates a s array best result mask indices whole place)
    (supplied : a.Supplies t s b) : Locates b s array best result mask indices whole place where
  array := supplied.isLocal locates.array
  best := supplied.isLocal locates.best
  result := supplied.isLocal locates.result
  mask sym given := (locates.mask sym given).supplied supplied
  counters index mem := supplied.isLocal (locates.counters index mem)

theorem searchStep_supplies {place : Ty} (plain : whole.element.IsPlain)
    (isInteger : place.element = .integer 4)
    (locates : Locates a frame.scope array best result mask indices whole place) :
    (searchStep frame intrinsic array best result indices).Supplies t frame.scope a fun step next =>
      next.Straight [step] := by
  have single := plain.isElement
  have plainToo : whole.element.element.IsPlain := single.element.symm ▸ plain
  -- an item is better than the best one so far, or there is none so far
  refine .bind (Frame.item_supplies ok locates.array locates.counters)
    fun item one toOne isItem => ?_
  refine .bind (Frame.var_supplies toOne.lawful (toOne.isLocal locates.best))
    fun held two toTwo isHeld => ?_
  refine .bind (Frame.compare_supplies toTwo.lawful (toTwo.operand isItem) isHeld plainToo rfl
    single.rank single.rank) fun better three toThree isBetter => ?_
  have led := toOne.trans (toTwo.trans toThree)
  refine .bind (Frame.literalItem_supplies toThree.lawful (led.isLocal locates.result))
    fun current four toFour isCurrent => ?_
  rw [isInteger] at isCurrent
  refine .bind (Frame.integer_supplies toFour.lawful) fun zero five toFive isZero => ?_
  refine .bind (Frame.compare_supplies toFive.lawful (toFive.operand isCurrent) isZero trivial rfl
    rfl rfl) fun unset six toSix isUnset => ?_
  have sinceBetter := toFour.trans (toFive.trans toSix)
  refine .bind (Frame.logical_supplies toSix.lawful (sinceBetter.operand isBetter) isUnset
    trivial rfl rfl rfl) fun cond tested toTested isCond => ?_
  have locates := locates.supplied (led.trans (sinceBetter.trans toTested))
  -- then it and its place are taken
  refine .bind (Frame.var_supplies toTested.lawful locates.best) fun target one toOne isTarget => ?_
  refine .bind (Frame.item_supplies toOne.lawful (toOne.isLocal locates.array)
    fun index mem => toOne.isLocal (locates.counters index mem)) fun taken two toTwo isTaken => ?_
  have toTwo' := toOne.trans toTwo
  refine .bind (assignments_supplies toTwo.lawful (indices.zipIdx 1)
    (fun pair => frame.literalItem result pair.2) (fun pair => frame.var pair.1) (fun _ _ _ led =>
      isInteger ▸ Frame.literalItem_supplies led.lawful
        (led.isLocal (toTwo'.isLocal locates.result)))
    fun pair mem _ led => Frame.var_supplies led.lawful (led.isLocal (toTwo'.isLocal
      (locates.counters pair.1 (fst_mem_of_mem_zipIdx mem)))))
      fun places three toThree isPlaces => ?_
  exact .pure (toThree.lawful.supplies _) (.branch ((toTwo'.trans toThree).operand isCond) rfl rfl
    ((Arena.Straight.assignment (toThree.operand (toTwo.operand isTarget)) (toThree.operand isTaken)
      single.rank rfl).append isPlaces) .nil)

section

variable {unit : ScopeId} {key : HelperKey} {types : List Ty} {resultType : Ty}
  {dummies : List SymbolId} {result : SymbolId}
  (assigned : Assigned t a unit frame key types resultType dummies result)

include assigned

omit ok in
theorem Assigned.place (isLocation : key.intrinsic.IsLocation) : ∃ place,
    a.IsLocal frame.scope place result ∧ place.element = .integer 4 := by
  obtain ⟨array, isArray⟩ : ∃ array, dummies[0]? = some array :=
    ⟨_, getElem?_eq_getElem assigned.positive⟩
  obtain ⟨whole, -, -, el, -⟩ := assigned.data isArray
  obtain ⟨place, isLocal, same, -⟩ := assigned.takesResult
  refine ⟨place, isLocal, same.trans (el.trans ?_)⟩
  rcases isLocation with isMax | isMin
  · rw [isMax]; rfl
  · rw [isMin]; rfl

omit ok in
theorem Assigned.masked (isLocation : key.intrinsic.IsLocation)
    (hasMask : key.overload.hasMask = true) : dummies.length = 2 := by
  have notMerge : key.intrinsic ≠ .merge := by
    intro isMerge
    rcases isLocation with isMax | isMin
    · exact absurd (isMerge.symm.trans isMax) (by decide)
    · exact absurd (isMerge.symm.trans isMin) (by decide)
  rw [← assigned.areDummies.length_eq, assigned.fits.arity]
  unfold ArrayIntrinsic.arity
  rw [if_neg notMerge, if_pos hasMask, assigned.fits.location isLocation]
  rfl

theorem locationBody_supplies (isLocation : key.intrinsic.IsLocation) :
    (locationBody frame key dummies result).Supplies t frame.scope a fun body next =>
    next.Straight body := by
  refine (dummyAt_quiet assigned.positive).bind fun array isArray => ?_
  refine dummyAt?_bind (fun hasMask => by
    rw [assigned.masked isLocation hasMask]; decide) fun mask _ isMask => ?_
  obtain ⟨whole, arrayLocal, plain, -⟩ := assigned.data isArray
  obtain ⟨place, resultLocal, isInteger⟩ := assigned.place isLocation
  have masks (symbol : SymbolId) (held : symbol ∈ mask) : IsMask a frame.scope symbol := by
    obtain ⟨hasMask, stands⟩ := isMask symbol held
    exact assigned.isMask (by rwa [assigned.masked isLocation hasMask]) (.inl hasMask)
  have single := plain.isElement
  refine ask_bind arrayLocal.variableType? (Runs.bind_ok rfl ?_)
  have law := (arrayLocal.lawfulType ok).element
  refine Yields.bind (Frame.declare_supplies ok assigned.framed law plain.exprs)
    fun best first toFirst bestLocal => ?_
  refine Yields.bind (Frame.loopVariables_supplies toFirst.lawful (toFirst.framed assigned.framed))
    fun indices second toSecond vars => ?_
  have led := toFirst.trans toSecond
  have locates : Locates second frame.scope array best result mask indices whole place :=
    ⟨led.isLocal arrayLocal, toSecond.isLocal bestLocal, led.isLocal resultLocal,
      fun symbol held => (masks symbol held).supplied led, vars⟩
  -- the best item and its place start from fixed values
  have isBest : (Place.var best).IsLocal second frame.scope whole.element := locates.best
  refine .bind (startStmt_supplies toSecond.lawful isBest plain single.element)
    fun start third toThird isStart => ?_
  have locates := locates.supplied toThird
  refine .bind (assignments_supplies toThird.lawful _ _ _
    (fun _ _ _ led => isInteger ▸ Frame.literalItem_supplies led.lawful
      (led.isLocal locates.result))
    fun _ _ _ led => Frame.integer_supplies led.lawful) fun zeros base toBase isZeros => ?_
  have locates := locates.supplied toBase
  have isStart := (toBase.straight isStart).append isZeros
  refine .bind (searchStep_supplies toBase.lawful plain isInteger locates)
    fun taking one toOne straight => ?_
  have locates := locates.supplied toOne
  refine .bind (masked_supplies toOne.lawful locates.mask locates.counters straight)
    fun step two toTwo isStep => ?_
  have locates := locates.supplied toTwo
  refine .bind (Frame.loopsFrom_supplies toTwo.lawful locates.array locates.counters isStep)
    fun loops last toLast isLoops => ?_
  have led := toOne.trans (toTwo.trans toLast)
  exact .pure (toLast.lawful.supplies _) ((led.straight isStart).append isLoops)

omit assigned in
theorem operand_supplies (isLocal : a.IsLocal frame.scope type dummy)
    (single : type.element.IsElement)
    (vars : ∀ index ∈ indices, a.IsLocal frame.scope (.integer 4) index) :
    (operand frame indices dummy).Supplies t frame.scope a fun id next =>
      ∃ held, next.Operand held id ∧ held.element = type.element ∧ held.rank = 0 := by
  refine ask_bind isLocal.variableType? ?_
  split
  · exact (Frame.item_supplies ok isLocal vars).mono fun _ _ _ held =>
      ⟨_, held, single.element, single.rank⟩
  · next scalar =>
    have zero : type.rank = 0 := by simpa [Ty.isArray] using scalar
    exact (Frame.var_supplies ok isLocal).mono fun _ _ _ held => ⟨_, held, rfl, zero⟩

theorem mergeBody_supplies (isMerge : key.intrinsic = .merge) :
    (mergeBody frame dummies result rank).Supplies t frame.scope a fun body next =>
    next.Straight body := by
  have count : dummies.length = 3 := by
    rw [← assigned.areDummies.length_eq, assigned.fits.arity, ArrayIntrinsic.arity, if_pos isMerge]
  refine .bind (Frame.loopVariables_supplies ok assigned.framed) fun indices base toBase vars => ?_
  have assigned := assigned.supplied toBase
  have ok := toBase.lawful
  obtain ⟨whole, resultLocal, sameElement, -⟩ := assigned.takesResult
  have single : whole.element.IsElement := sameElement ▸ assigned.resultLaw.flat.element
  have isPlace : ∃ type, (if rank = 0 then
      Place.var result else .item result indices).IsLocal base frame.scope
      type ∧ type.element = whole.element := by
    split
    · exact ⟨whole, resultLocal, rfl⟩
    · exact ⟨whole.element, ⟨⟨whole, resultLocal, rfl⟩, vars⟩, single.element⟩
  obtain ⟨placeType, isPlace, placeElement⟩ := isPlace
  have reads {index : Nat} {dummy : SymbolId} (isDummy : dummies[index]? = some dummy) : ∃ type,
      types[index]? = some type ∧ ∀ mid, base.Supplies t frame.scope mid →
        (operand frame indices dummy).Supplies t frame.scope mid fun id next =>
          ∃ held, next.Operand held id ∧ held.element = type.element ∧ held.rank = 0 := by
    obtain ⟨type, isType, isLocal⟩ := assigned.areDummies.exists_type isDummy
    have single := (assigned.fits.plain type (mem_of_getElem? isType)).isElement
    have el := single.element_assumedShape type.rank
    refine ⟨type, isType, fun mid led => ?_⟩
    have read := operand_supplies led.lawful (led.isLocal isLocal) (by rwa [el]) fun index mem =>
      led.isLocal (vars index mem)
    rwa [el] at read
  -- the sources have the elements of the result
  have sameSource {index : Nat} {type : Ty} (src : index < 2) (isType : types[index]? = some type) :
      type.element = placeType.element := by
    obtain ⟨data, isData⟩ : ∃ data, types[0]? = some data :=
      ⟨_, getElem?_eq_getElem (by rw [assigned.areDummies.length_eq, count]; decide)⟩
    have isHead : types.head? = some data := head?_eq_getElem?.trans isData
    have given := assigned.fits.data data isHead
    rw [isMerge] at given
    rw [placeElement, sameElement, given]
    match index, src with
    | 0, _ => cases isData.symm.trans isType; rfl
    | 1, _ => exact assigned.fits.sources isMerge data isHead type isType
  refine (dummyAt_quiet (by omega)).bind fun mask isMask => ?_
  obtain ⟨maskType, isMaskType, readMask⟩ := reads isMask
  refine Yields.bind (readMask base (ok.supplies _)) fun cond one toOne ⟨condType, isCond,
    condElement, condRank⟩ => ?_
  have isLogical : condType.isLogical = true := by
    have isLast : types.getLast? = some maskType := by
      rw [getLast?_eq_getElem?, assigned.areDummies.length_eq, count]
      exact isMaskType
    have known := Ty.isLogical_iff.1 (assigned.fits.mask (.inr isMerge) maskType isLast)
    exact Ty.isLogical_iff.2 (condElement ▸ known)
  refine .bind (Frame.content_supplies toOne.lawful (isPlace.supplied toOne))
    fun trueTarget two toTwo isTrueTarget => ?_
  have led := toOne.trans toTwo
  refine (dummyAt_quiet (by omega)).bind fun trueSource isTrueSource => ?_
  obtain ⟨trueType, isTrueType, readTrue⟩ := reads isTrueSource
  refine Yields.bind (readTrue two led) fun trueValue three toThree ⟨_, isTrueValue, trueElement,
    trueRank⟩ => ?_
  have led := led.trans toThree
  refine Yields.bind (Frame.content_supplies toThree.lawful (isPlace.supplied led))
    fun falseTarget four toFour isFalseTarget => ?_
  have led := led.trans toFour
  refine (dummyAt_quiet (by omega)).bind fun falseSource isFalseSource => ?_
  obtain ⟨falseType, isFalseType, readFalse⟩ := reads isFalseSource
  refine Yields.bind (readFalse four led) fun falseValue five toFive ⟨_, isFalseValue, falseElement,
    falseRank⟩ => ?_
  have led := led.trans toFive
  have sinceTrue := toFour.trans toFive
  have sinceTarget := toThree.trans sinceTrue
  have straight : five.Straight
      [.branch cond [.assignment trueTarget trueValue] [.assignment falseTarget falseValue]] :=
    .branch ((toTwo.trans sinceTarget).operand isCond) isLogical condRank
      (.assignment (sinceTarget.operand isTrueTarget) (sinceTrue.operand isTrueValue) trueRank
        (trueElement.trans (sameSource (by decide) isTrueType)))
      (.assignment (toFive.operand isFalseTarget) isFalseValue falseRank
        (falseElement.trans (sameSource (by decide) isFalseType)))
  dsimp only
  split
  · exact .pure (toFive.lawful.supplies _) straight
  · exact Frame.loopsFrom_supplies toFive.lawful (led.isLocal resultLocal)
      (fun index mem => led.isLocal (vars index mem)) straight

theorem helperBody_supplies :
    (helperBody frame key dummies result resultType).Supplies t frame.scope a fun body next =>
      next.Straight body := by
  unfold helperBody
  split
  · next isMerge => exact mergeBody_supplies ok assigned isMerge
  · next isMax => exact locationBody_supplies ok assigned (.inl isMax)
  · next isMin => exact locationBody_supplies ok assigned (.inr isMin)
  · next notMerge notMax notMin =>
    exact reductionBody_supplies ok assigned notMerge fun isLocation =>
      isLocation.elim notMax notMin

end

/-! ## Declarations of helpers -/

omit ok in
theorem length_helperDummies (key : HelperKey) :
    (helperDummies key).length = key.intrinsic.arity key.overload := by
  obtain ⟨intrinsic, category, k, rank, overload⟩ := key
  cases intrinsic <;> cases overload <;> rfl

theorem declareDummies_supplies (framed : a.Framed t unit frame.scope)
    (count : types.length = key.intrinsic.arity key.overload)
    (plain : ∀ type ∈ types, type.element.IsPlain) (laws : ∀ type ∈ types, a.LawfulType t type) :
    (declareDummies frame key types).Supplies t frame.scope a fun dummies next =>
      AreDummies next frame.scope types dummies := by
  have each : (declareDummies frame key types).Supplies t frame.scope a fun dummies next =>
      List.Forall₂ (fun pair dummy => next.IsLocal frame.scope
        (.assumedShape pair.2.element pair.2.rank) dummy)
        ((helperDummies key).zip types) dummies := by
    refine Yields.mapM (ok.supplies _) (fun _ _ _ _ given => given.isLocal)
      fun pair mem mid given => ?_
    have isPlain := plain pair.2 (of_mem_zip mem).2
    have law := given.before.lawfulType (laws pair.2 (of_mem_zip mem).2)
    exact Frame.declare_supplies given.lawful (given.framed framed)
      (law.element.assumedShape isPlain.isElement _) (isPlain.exprs_assumedShape _)
  refine each.mono fun dummies next _ declared => ?_
  have types' : ((helperDummies key).zip types).map Prod.snd = types :=
    map_snd_zip (by rw [length_helperDummies, count])
  unfold AreDummies
  rw [← types', forall₂_map_left_iff]
  exact declared

omit ok in
theorem isPlain_result {result : Ty} (fits : intrinsic.Fits overload types result) :
    result.element.IsPlain := by
  have positive : 0 < types.length := by
    rw [fits.arity]
    unfold ArrayIntrinsic.arity
    split <;> omega
  obtain ⟨data, rest, rfl⟩ := exists_cons_of_length_pos positive
  have plain := fits.plain data (.head _)
  rw [fits.data data rfl]
  cases intrinsic <;> first | exact plain | trivial

/-- Declaring the variable that takes the result of a helper. -/
theorem declareResult_supplies (framed : a.Framed t unit frame.scope) (law : a.LawfulType t type)
    (plain : type.element.IsPlain) : (declareResult frame type).Supplies t frame.scope a
    fun result next =>
      TakesResult next frame.scope type result := by
  unfold declareResult
  split
  · next scalar =>
    have zero : type.rank = 0 := by simpa [Ty.isScalar] using scalar
    have closed : type.exprs = [] := (law.flat.exprs_scalar zero).trans plain.exprs
    exact (Frame.declare_supplies ok framed law closed).mono fun _ _ _ isLocal =>
      ⟨type, isLocal, rfl, rfl⟩
  · have shape : a.LawfulType t (type.element.assumedShape type.rank) :=
      law.element.assumedShape plain.isElement type.rank
    exact (Frame.declare_supplies ok framed shape (plain.exprs_assumedShape _)).mono
      fun _ _ _ isLocal =>
      ⟨_, isLocal, plain.isElement.element_assumedShape _, plain.isElement.rank_assumedShape _⟩

/-! ## Finding and generating helpers -/

omit ok in
theorem isVariableOf_of_isLocal {id : SymbolId} (isLocal : a.IsLocal s type id) :
    a.IsVariableOf s id := by
  obtain ⟨sym, info, h, owned, named, -⟩ := isLocal
  exact ⟨sym, h, owned, by rw [named]; rfl⟩

omit ok in
/-- A helper that was built may be entered in its unit. -/
theorem Assigned.lawfulEntry {name : String} {info : Function}
    (assigned : Assigned t a unit frame key types resultType dummies result)
    (free : a.Free unit name)
    (own : a.Own unit) (home : info.scope = frame.scope) (src : info.abi = .source)
    (mem : ∀ arg ∈ info.args ++ info.result.toList, arg ∈ dummies ++ [result])
    (straight : a.Straight info.body) : a.LawfulEntry t unit name (.function info) := by
  have isFree := free
  obtain ⟨table, h, st⟩ := free
  have taken {again : Scope} {old : SymbolId} (refound : a.scope unit = .ok again) :
      again.find? name ≠ some old := by
    cases h.symm.trans refound
    rw [st]
    exact nofun
  exact {
    inRange := scope_inRange h
    origin := nofun
    arguments := fun arg member => by
      refine ⟨frame.scope, congrArg some home, ?_⟩
      rcases mem_append.1 (mem arg member) with isDummy | isResult
      · obtain ⟨index, bound, rfl⟩ := getElem_of_mem isDummy
        obtain ⟨type, -, isLocal⟩ := assigned.areDummies.exists_type (getElem?_eq_getElem bound)
        exact isVariableOf_of_isLocal isLocal
      · obtain ⟨type, isLocal, -⟩ := assigned.takesResult
        rw [mem_singleton.1 isResult]
        exact isVariableOf_of_isLocal isLocal
    inner := fun inner opens => by
      cases opens
      rw [home]
      exact assigned.framed.unowned
    settled := by simp [SymbolKind.isStub, src]
    replaced := fun _ _ _ refound held _ => absurd held (taken refound)
    law := straight.lawfulBody own
    home := .inr own
    untyped := fun _ _ refound _ held => absurd held (taken refound)
    unit := fun _ => rfl
    free := fun _ => isFree
    vacant := nofun }

theorem framed_addScope (room : t.fixed ≤ a.scopes.size) (unit : ScopeId) :
    (a.addScope (some unit) none).2.Framed t unit ⟨a.scopes.size⟩ where
  late := room
  unowned := ⟨_, scope_addScope.2 (.inr ⟨rfl, rfl⟩), rfl, rfl⟩
  locals {id sym} h owned := by
    have old : a.symbol id = .ok sym := h
    obtain ⟨table, -, inside, -⟩ := ok.sound.entered old
    rw [owned] at inside
    exact absurd (scope_inRange inside) (Nat.lt_irrefl _)

theorem not_outer_addScope : ¬ (a.addScope (some unit) none).2.Outer ⟨a.scopes.size⟩ := by
  rintro (isRoot | alien)
  · have isRoot : ⟨a.scopes.size⟩ = a.root := isRoot
    exact absurd (isRoot ▸ ok.sound.root_inRange) (Nat.lt_irrefl _)
  · exact not_alien_of_unowned (scope_addScope.2 (.inr ⟨rfl, rfl⟩)) rfl alien

/-- Generating a helper in a unit that was analysed here. -/
theorem generate_lowers {span : Span} (room : t.fixed ≤ a.scopes.size) (own : a.Own unit)
    (inner : a.Inner unit) (fits : key.intrinsic.Fits key.overload types resultType)
    (typeLaws : ∀ type ∈ types, a.LawfulType t type) (resultLaw : a.LawfulType t resultType) :
    (generate key types resultType unit span).Lowers t (· = unit) a fun helper next =>
      helper.index < next.symbols.size ∧ ∀ id expr, a.expr id = .ok expr →
        next.expr id = .ok expr := by
  obtain ⟨name, chosen, table, h, st⟩ := exists_uniqueName inner.1
    (key.intrinsic.name ++ "_" ++ toString key.kind ++ "_" ++ toString key.rank ++ "_" ++ toString
      key.overload.number)
  refine ask_bind chosen (Runs.bind_ok rfl ?_)
  have toOpened : a.Lowers t (· = unit) (a.addScope (some unit) none).2 :=
    ok.lowers_addScope inner.1
  have framed := framed_addScope ok room unit
  have resultLaw := toOpened.before.lawfulType resultLaw
  have typeLaws := fun type mem => toOpened.before.lawfulType (typeLaws type mem)
  refine .bind (declareDummies_supplies toOpened.lawful framed fits.arity fits.plain typeLaws)
    fun dummies first ⟨toFirst, areDummies⟩ => ?_
  refine .bind (declareResult_supplies toFirst.lawful (toFirst.framed framed)
    (toFirst.before.lawfulType resultLaw) (isPlain_result fits))
    fun result second ⟨toSecond, takesResult⟩ => ?_
  have supplied := toFirst.trans toSecond
  have assigned : Assigned t second unit ⟨⟨a.scopes.size⟩, span⟩ key types resultType
      dummies result :=
    ⟨supplied.framed framed, fits, fun type mem => supplied.before.lawfulType (typeLaws type mem),
      supplied.before.lawfulType resultLaw, areDummies.supplied toSecond, takesResult⟩
  refine .bind (helperBody_supplies toSecond.lawful assigned)
    fun body third ⟨toThird, straight⟩ => ?_
  have supplied := supplied.trans toThird
  have assigned := assigned.supplied toThird
  have lowered : a.Lowers t (· = unit) third :=
    Progress.trans toOpened (supplied.lowers (not_outer_addScope ok))
  -- only the scope of the helper changed, so the name is still free in the unit
  have free : third.Free unit name := by
    obtain ⟨held, heldFound, -, same⟩ := supplied.table (scope_addScope.2 (.inl h))
    have apart : unit ≠ ⟨a.scopes.size⟩ := fun isNew => by
      have lt := inner.1
      rw [isNew] at lt
      exact absurd lt (Nat.lt_irrefl _)
    exact ⟨held, heldFound, by rw [same apart, st]⟩
  obtain ⟨opened, openedFound, -⟩ := assigned.framed.unowned
  have own := lowered.before.own own
  have inner := lowered.before.inner inner
  refine attach_runs rfl (scope_inRange openedFound) (Runs.bind_ok
    (overwrite_attach_eq inner.1) (.pure ⟨?_, ?_, fun id expr h => supplied.expr h⟩))
  · refine lowered.enter (assigned.lawfulEntry free own rfl rfl ?_ straight) rfl (Nat.le_refl _)
      (own.not_outer lowered.lawful.sound inner.2) straight.exprs
    cases resultType.isScalar <;> simp
  · exact symbol_inRange (symbol_enter.2 (.inr ⟨rfl, rfl⟩))

/-- Dummy arguments can be compared with the types of arguments. -/
theorem exists_dummiesAccept (lt : ∀ dummy ∈ dummies, dummy.index < a.symbols.size)
    (law : ∀ type ∈ types, a.LawfulType t type) : ∃ ans,
    dummiesAccept a dummies types = .ok ans := by
  induction types generalizing dummies with
  | nil =>
    cases dummies <;> exact ⟨_, rfl⟩
  | cons actual actuals ih =>
    cases dummies with
    | nil => exact ⟨_, rfl⟩
    | cons dummy dummies =>
      obtain ⟨formal, asked, formalLaw⟩ := ok.exists_variableType? (lt dummy (.head _))
      simp only [dummiesAccept, asked, bind, Except.bind]
      cases formal with
      | none => exact ⟨_, rfl⟩
      | some formal =>
        obtain ⟨fits, askedToo⟩ := ok.exists_argumentCompatible (formalLaw formal rfl)
          (law actual (.head _))
        obtain ⟨others, askedRest⟩ := ih (fun other mem => lt other (.tail _ mem))
          fun other mem => law other (.tail _ mem)
        simp only [askedToo]
        cases fits
        · exact ⟨_, rfl⟩
        · exact ⟨others, askedRest⟩

/-- Whether one of some helpers suits arguments can be asked, and one that does is among them. -/
theorem exists_suitable? (lt : ∀ helper ∈ helpers, helper.index < a.symbols.size)
    (law : ∀ type ∈ types, a.LawfulType t type) :
    ∃ ans, suitable? a types helpers = .ok ans ∧ ∀ helper ∈ ans, helper ∈ helpers := by
  induction helpers with
  | nil => exact ⟨none, rfl, nofun⟩
  | cons helper rest ih =>
    obtain ⟨b, askedRest, among⟩ := ih fun other mem => lt other (.tail _ mem)
    have more : ∀ other ∈ b, other ∈ helper :: rest := fun other held => .tail _ (among other held)
    obtain ⟨info, asked, known⟩ := ok.exists_asFunction? (lt helper (.head _))
    simp only [suitable?, asked, bind, Except.bind]
    cases info with
    | none => exact ⟨b, askedRest, more⟩
    | some info =>
      obtain ⟨past, sym, -, h, named⟩ := known info rfl
      obtain ⟨accepts, askedToo⟩ := exists_dummiesAccept ok
        (fun dummy mem => ok.dummy_inRange h named mem) law
      by_cases few : info.args.length < types.length
      · refine ⟨b, ?_, more⟩
        exact (if_pos few).trans askedRest
      · simp only [if_neg few, askedToo]
        cases accepts
        · exact ⟨b, askedRest, more⟩
        · exact ⟨some helper, rfl, fun _ held => by cases held; exact (.head _)⟩

omit ok in
theorem mem_helpersOf {table : Scope} (mem : helper ∈ table.helpersOf key) :
    ∃ entry ∈ table.helpers, helper ∈ entry.2 := by
  unfold Scope.helpersOf at mem
  cases known : table.helpers.lookup key with
  | none =>
    rw [known] at mem
    cases mem
  | some helpers =>
    rw [known] at mem
    obtain ⟨before, after, split, -⟩ := lookup_eq_some_iff.1 known
    exact ⟨(key, helpers), by rw [split]; simp, mem⟩

omit ok in
/-- A helper is added to those that were known. -/
theorem mem_addHelper (added : entry ∈ Scope.addHelper key helper helpers) (mem : other ∈ entry.2) :
    other = helper ∨ ∃ old ∈ helpers, other ∈ old.2 := by
  induction helpers with
  | nil =>
    rw [mem_singleton.1 added] at mem
    exact .inl (mem_singleton.1 mem)
  | cons first rest ih =>
    unfold Scope.addHelper at added
    split at added
    · rcases mem_cons.1 added with rfl | b
      · rcases mem_append.1 mem with old | new
        · exact .inr ⟨first, (.head _), old⟩
        · exact .inl (mem_singleton.1 new)
      · exact .inr ⟨entry, .tail _ b, mem⟩
    · rcases mem_cons.1 added with rfl | b
      · exact .inr ⟨first, (.head _), mem⟩
      · exact (ih b).imp_right fun ⟨old, among, held⟩ => ⟨old, .tail _ among, held⟩

/-- Remembering a helper in a unit that was analysed here. -/
theorem rememberHelper_lowers (apart : ¬ a.Outer unit) (lt : unit.index < a.scopes.size)
    (present : helper.index < a.symbols.size) : (modifyScope unit fun held =>
      { held with helpers := Scope.addHelper key helper held.helpers }).Lowers t (· = unit) a
      fun _ next => next.symbols = a.symbols ∧ next.exprs = a.exprs := by
  obtain ⟨table, h⟩ := exists_scope lt
  have known : ∀ entry ∈ Scope.addHelper key helper table.helpers, ∀ other ∈ entry.2,
      other.index < a.symbols.size := by
    intro entry added other mem
    rcases mem_addHelper added mem with rfl | ⟨old, among, held⟩
    · exact present
    · exact ok.helpers h old among other held
  have ran : modifyScope unit (fun held =>
      { held with helpers := Scope.addHelper key helper held.helpers }) a =
        .ok () (a.remember unit (Scope.addHelper key helper table.helpers)) :=
    modifyScope_eq_ok.2 ⟨lt, (modify_helpers h _).symm⟩
  exact Runs.of_ok ran ⟨ok.lowers_remember apart known, rfl, rfl⟩

/-- Finding or generating the helper of a call in a unit that was analysed here. -/
theorem helperFor_lowers {id : ExprId} {expr : Expr} (h : a.expr id = .ok expr)
    (isCall : expr.kind.isArrayCall = true) (room : t.fixed ≤ a.scopes.size) (own : a.Own unit)
    (inner : a.Inner unit) : (helperFor id unit).Lowers t (· = unit) a fun helper next =>
      helper.index < next.symbols.size ∧ ∀ id expr, a.expr id = .ok expr →
        next.expr id = .ok expr := by
  refine ask_bind h ?_
  obtain ⟨k, type, v, span⟩ := expr
  obtain ⟨intrinsic, overload, args, rfl⟩ := ExprKind.exists_of_isArrayCall isCall
  obtain ⟨types, typed, fits⟩ := (ok.expr h).form
  have asked : args.mapM a.exprType = .ok types :=
    mapM_eq_ok.2 (typed.imp fun _ _ => exprType_eq_ok.2)
  refine ask_bind asked ?_
  have laws : ∀ type ∈ types, a.LawfulType t type := by
    intro type mem
    obtain ⟨arg, -, has⟩ := exists_of_mem_right typed mem
    exact ok.lawfulType has
  have positive : 0 < types.length := by
    rw [fits.arity]
    unfold ArrayIntrinsic.arity
    split <;> omega
  obtain ⟨data, rest, rfl⟩ := exists_cons_of_length_pos positive
  obtain ⟨category, askedToo⟩ := (laws data (.head _)).flat.exists_category
  refine Runs.bind_ok (run_question_eq_ok.2 ⟨askedToo, rfl⟩) ?_
  obtain ⟨table, isTable⟩ := exists_scope inner.1
  refine ask_bind isTable ?_
  have present {key : HelperKey} {helper : SymbolId} (mem : helper ∈ table.helpersOf key) :
      helper.index < a.symbols.size := by
    obtain ⟨entry, held, known⟩ := mem_helpersOf mem
    exact ok.helpers isTable entry held helper known
  obtain ⟨ans, askedLast, among⟩ := exists_suitable? ok (fun _ => present) laws
  refine ask_bind askedLast ?_
  cases ans with
  | some helper => exact Yields.pure (ok.lowers _) ⟨present (among helper rfl), fun _ _ h => h⟩
  | none =>
    refine Yields.bind (generate_lowers ok room own inner fits laws (ok.expr h).type)
      fun helper next lowered ⟨present, kept⟩ => ?_
    have inner := lowered.before.inner inner
    refine Yields.bind (rememberHelper_lowers lowered.lawful
      ((lowered.before.own own).not_outer lowered.lawful.sound inner.2) inner.1 present)
      fun _ last toLast ⟨symbols, exprs⟩ => ?_
    refine .pure (toLast.lawful.lowers _) ⟨symbols ▸ present, fun id expr h => ?_⟩
    rw [expr_eq_ok, exprs, ← expr_eq_ok]
    exact kept id expr h

end Intrinsic

end FortranSemantics
