import FortranSemantics.Proofs.Lawful.Scalar

/-!
# Calls of array intrinsics in lawful arenas

A call that meets the contract of its array intrinsic has the arguments that its helper needs, and
its result has the elements and the shape that the helper gives.
-/

namespace FortranSemantics

open List Edit Ty

variable {α β : Type} {t : Terms} {a b : Arena} {start i number : Nat} {array data arg : ExprId}
  {type : Ty} {span : Span} {op : ArrayIntrinsic} {dim : Dimension} {slots : List (Option ExprId)}
  {args : List ExprId} {post : β → Arena → Prop}

namespace Ty

theorem isPlain_of_isNumeric (numbers : type.isNumeric = true) : type.element.IsPlain := by
  unfold isNumeric isInteger isReal isComplex at numbers
  revert numbers
  cases type.element <;> intro numbers <;> trivial

theorem isNumeric_of_isInteger (integers : type.isInteger = true) : type.isNumeric = true := by
  unfold isNumeric
  rw [integers, Bool.true_or, Bool.true_or]

theorem isPlain_of_isLogical (values : type.isLogical = true) : type.element.IsPlain := by
  unfold isLogical at values
  revert values
  cases type.element <;> intro values <;> trivial

theorem Flat.isPlain (flat : type.Flat) (notText : type.isCharacter = false)
    (notDerived : type.isDerived = false) : type.element.IsPlain := by
  have single := flat.element
  unfold isCharacter at notText
  unfold isDerived at notDerived
  revert single notText notDerived
  cases type.element <;> intro single notText notDerived <;> trivial

end Ty

theorem Arena.Precedes.lawfulDimension (pre : a.Precedes b) (law : a.LawfulDimension dim) :
    b.LawfulDimension dim :=
  fun id held => (law id held).trans_le pre.exprs_le

namespace Intrinsic

/-- Whether an expression may number a dimension of an array of some rank. -/
structure NumbersDim (arena : Arena) (rank : Nat) (dim : ExprId) : Prop where
  integer : ∃ type, arena.HasType dim type ∧ type.isInteger = true ∧ type.rank = 0
  within : ∀ value, arena.integer? dim = .ok (some value) → 1 ≤ value ∧ value ≤ rank
  known : 1 < rank → ∃ value, arena.integer? dim = .ok (some value)

/-- What a call of an array intrinsic keeps to after its arguments were checked. -/
structure Contract (arena : Arena) (op : ArrayIntrinsic) (slots : List (Option ExprId)) : Prop where
  plain : ∀ arg type, some arg ∈ slots → arena.HasType arg type → type.element.IsPlain
  dim : op ≠ .merge → ∀ arg, (slots[1]?).join = some arg → ¬ op.IsLocation ∧ ∀ data type,
    slots[0]? = some (some data) → arena.HasType data type → NumbersDim arena type.rank arg
  mask : op.takesMask = true ∨ op = .merge → ∀ arg type, (slots[2]?).join = some arg →
    arena.HasType arg type → type.isLogical = true
  count : op = .count → ∀ arg type, slots[0]? = some (some arg) → arena.HasType arg type →
    type.isLogical = true
  sources : op = .merge → ∀ arg other type otherType, slots[0]? = some (some arg) →
    slots[1]? = some (some other) → arena.HasType arg type → arena.HasType other otherType →
      otherType.element = type.element
  ranks : op = .merge → ∀ arg other type otherType, some arg ∈ slots → some other ∈ slots →
    arena.HasType arg type →
    arena.HasType other otherType → type.rank = 0 ∨ otherType.rank = 0 ∨ otherType.rank = type.rank

variable (ok : a.Lawful t)

include ok

omit ok in
theorem placed_bind {least : Nat} {next : ExprId → Edit β}
    (within : ∀ arg, some arg ∈ slots → arg.index < a.exprs.size)
    (filled : Filled slots least) (bound : i < least)
    (rest : ∀ arg, slots[i]? = some (some arg) → arg.index < a.exprs.size →
      Runs t.tolerated (next arg) a post) : Runs t.tolerated (placed slots i >>= next) a post := by
  obtain ⟨arg, isArg⟩ := filled i bound
  unfold placed
  rw [isArg]
  exact rest arg isArg (within arg (mem_of_getElem? isArg))

theorem arraySlots_quiet {args : List ActualArgument} (since : a.ArgsSince start args) :
    Quiet t.tolerated (arraySlots op args span) a fun slots =>
      slots.length = op.dummies.length ∧ a.SlotsSince start slots ∧
        Filled slots op.leastArguments := by
  refine placeAll_quiet ?_ since fun ordinal arg mem => ?_
  · cases op <;> decide
  · refine exprType_bind ok (since arg mem).2 fun type _ _ => ?_
    split <;> exact Quiet.pure trivial

/-! ## The contract -/

/-- It is known whether the lengths of lawful dimensions agree. -/
theorem exists_sameExtents (leftLaw : ∀ dim ∈ left, a.LawfulDimension dim)
    (rightLaw : ∀ dim ∈ right, a.LawfulDimension dim) : ∃ ans,
    sameExtents a left right = .ok ans := by
  have known {dim : Dimension} (law : a.LawfulDimension dim) :
      ∃ length, a.optionalInteger? dim.length = .ok length :=
    ok.exists_optionalInteger? fun id held =>
      law id (mem_append_right _ (Option.mem_toList.2 held))
  induction left generalizing right with
  | nil => exact ⟨true, rfl⟩
  | cons dim dims ih =>
    cases right with
    | nil => exact ⟨true, rfl⟩
    | cons o others =>
      obtain ⟨length, q⟩ := known (leftLaw dim (.head _))
      obtain ⟨otherLength, askedToo⟩ := known (rightLaw o (.head _))
      obtain ⟨rest, askedRest⟩ := ih (fun dim mem => leftLaw dim (.tail _ mem))
        fun dim mem => rightLaw dim (.tail _ mem)
      simp only [sameExtents, q, askedToo, askedRest, bind, Except.bind]
      split
      · split <;> exact ⟨_, rfl⟩
      · exact ⟨_, rfl⟩

/-- Data that pass the check are plain, and logical values if they are counted. -/
theorem checkData_bind {next : Unit → Edit β} (lt : array.index < a.exprs.size)
    (rest : type.element.IsPlain → (op = .count → type.isLogical = true) →
      Runs t.tolerated (next ()) a post) :
    Runs t.tolerated (checkData op array type >>= next) a post := by
  unfold checkData
  refine demand_bind ok lt fun holds => ?_
  have fits := (Bool.and_eq_true_iff.1 holds).1
  refine rest ?_ fun counts => ?_
  · have ordered (either : (type.isInteger || type.isReal) = true) : type.element.IsPlain := by
      refine isPlain_of_isNumeric ?_
      unfold isNumeric
      rw [either, Bool.true_or]
    cases op with
    | sum | product => exact isPlain_of_isNumeric fits
    | maxVal | minVal | maxLoc | minLoc => exact ordered fits
    | _ => exact isPlain_of_isLogical fits
  · subst counts
    exact fits

/-- A dimension argument that passes the check numbers a dimension, for an intrinsic that gives no
place. -/
theorem checkReductionDim_quiet {dim : ExprId} {rank : Nat} (lt : dim.index < a.exprs.size) :
    Quiet t.tolerated (checkReductionDim op dim rank) a fun _ => ¬ op.IsLocation ∧
    NumbersDim a rank dim := by
  obtain ⟨expr, h⟩ := Arena.exists_expr lt
  obtain ⟨v, q⟩ := ok.exists_integer? lt
  refine ask_bind h (.guard fun notLocation => ?_)
  refine exprType_bind ok lt fun type has _ => demand_bind ok lt fun holds => ?_
  have integer : ∃ type, a.HasType dim type ∧ type.isInteger = true ∧ type.rank = 0 :=
    ⟨type, has, by simpa [isArray] using holds⟩
  refine ask_bind q ?_
  cases v with
  | some v =>
    dsimp only
    split
    · exact Runs.reject _ _
    · refine Quiet.pure ⟨notLocation, integer, fun o again => ?_, fun _ => ⟨v, q⟩⟩
      cases q.symm.trans again
      omega
  | none =>
    dsimp only
    split
    · exact Runs.reject _ _
    · next few =>
      exact Quiet.pure ⟨notLocation, integer, fun _ again =>
        (by cases q.symm.trans again), (absurd · few)⟩

theorem checkMask_quiet (lt : mask.index < a.exprs.size) (law : a.LawfulType t type) :
    Quiet t.tolerated (checkMask op mask type) a fun _ => ∃ type, a.HasType mask type ∧
    type.isLogical = true := by
  obtain ⟨expr, h⟩ := Arena.exists_expr lt
  have maskLaw := (ok.expr h).type
  obtain ⟨same, compared⟩ := exists_sameExtents ok maskLaw.dims law.dims
  refine ask_bind h (demand_bind ok lt fun holds => ?_)
  have answered : ∃ ans, (if expr.type.rank = type.rank then sameExtents a expr.type.dims type.dims
      else return false : Except Breach Bool) = .ok ans := by
    split
    · exact ⟨same, compared⟩
    · exact ⟨false, rfl⟩
  obtain ⟨ans, q⟩ := answered
  refine ask_bind q ?_
  cases ans with
  | true => exact Quiet.pure ⟨_, ⟨expr, h, rfl⟩, holds⟩
  | false =>
    refine typeName_bind ok maskLaw fun _ => ?_
    exact typeName_bind ok law fun _ => .reject _ _

omit ok in
theorem isPlain_of_hasType (plain : ∃ type, a.HasType arg type ∧ type.element.IsPlain)
    (has : a.HasType arg type) : type.element.IsPlain := by
  obtain ⟨same, hasSame, isPlain⟩ := plain
  cases has.unique hasSame
  exact isPlain

/-- Arguments of a merge that pass the check are plain. -/
theorem checkMerge_quiet (within : ∀ arg, some arg ∈ slots → arg.index < a.exprs.size)
    (length : slots.length = 3) (filled : Filled slots 3) :
    Quiet t.tolerated (checkMerge slots span) a fun _ => Contract a .merge slots := by
  refine placed_bind within filled (by decide) fun tsource isTrue tsourceLt => ?_
  refine placed_bind within filled (by decide) fun fsource isFalse fsourceLt => ?_
  refine placed_bind within filled (by decide) fun mask isMask maskLt => ?_
  refine exprType_bind ok tsourceLt fun trueType hasTrue trueLaw => ?_
  refine exprType_bind ok fsourceLt fun falseType hasFalse falseLaw => ?_
  refine exprType_bind ok maskLt fun maskType hasMask _ => ?_
  refine demand_bind ok tsourceLt fun trueFits => demand_bind ok fsourceLt fun falseFits => ?_
  have source {type : Ty} (law : a.LawfulType t type)
      (fits : (!(type.isCharacter || type.isDerived)) = true) : type.element.IsPlain := by
    have neither : type.isCharacter = false ∧ type.isDerived = false := by simpa using fits
    exact law.flat.isPlain neither.1 neither.2
  have oneOf {arg : ExprId} {type : Ty} (mem : some arg ∈ slots) (has : a.HasType arg type) :
      type ∈ [trueType, falseType, maskType] := by
    obtain ⟨_, _, _, rfl⟩ := length_eq_three.1 length
    cases isTrue
    cases isFalse
    cases isMask
    simp only [mem_cons, Option.some.injEq, not_mem_nil, or_false] at mem ⊢
    rcases mem with rfl | rfl | rfl
    · exact .inl (has.unique hasTrue)
    · exact .inr (.inl (has.unique hasFalse))
    · exact .inr (.inr (has.unique hasMask))
  have contract (isLogical : maskType.isLogical = true)
      (equal : a.elementsEqual trueType.element falseType.element = .ok true)
      (agree : ∀ rank ∈ [trueType.rank, falseType.rank, maskType.rank].filter (0 < ·),
        ∀ o ∈ [trueType.rank, falseType.rank, maskType.rank].filter (0 < ·), o = rank) :
      Contract a .merge slots := by
    refine ⟨fun arg type mem has => ?_, fun notMerge => absurd rfl notMerge,
      fun _ arg type isArg has => ?_, fun isCount => (by cases isCount),
      fun _ arg o type otherType isArg isOther has hasOther => ?_,
      fun _ arg o type otherType isArg isOther has hasOther => ?_⟩
    · rcases oneOf mem has with _ | ⟨_, _ | ⟨_, _ | ⟨_, ⟨⟩⟩⟩⟩
      · exact source trueLaw trueFits
      · exact source falseLaw falseFits
      · exact isPlain_of_isLogical isLogical
    · rw [isMask] at isArg
      cases isArg
      cases hasMask.unique has
      exact isLogical
    · cases isTrue.symm.trans isArg
      cases isFalse.symm.trans isOther
      cases hasTrue.unique has
      cases hasFalse.unique hasOther
      exact (Conversion.elementsEqual_plain (source falseLaw falseFits) equal).symm
    · have kept {type : Ty} (mem : type ∈ [trueType, falseType, maskType]) (array : type.rank ≠ 0) :
          type.rank ∈ [trueType.rank, falseType.rank, maskType.rank].filter (0 < ·) :=
        mem_filter.2 ⟨mem_map_of_mem mem, decide_eq_true (Nat.pos_of_ne_zero array)⟩
      by_cases scalar : type.rank = 0
      · exact .inl scalar
      by_cases otherScalar : otherType.rank = 0
      · exact .inr (.inl otherScalar)
      · exact .inr (.inr (agree _ (kept (oneOf isArg has) scalar) _
          (kept (oneOf isOther hasOther) otherScalar)))
  obtain ⟨equal, compared⟩ := ok.exists_elementsEqual trueLaw.element falseLaw.element
  refine ask_bind compared ?_
  cases equal with
  | false =>
    refine typeName_bind ok trueLaw fun _ => ?_
    exact typeName_bind ok falseLaw fun _ => Runs.reject_bind
  | true =>
    refine demand_bind ok maskLt fun isLogical => ?_
    dsimp only
    split
    · next none =>
      rw [none] at contract
      exact Quiet.pure (contract isLogical compared fun _ mem => absurd mem not_mem_nil)
    · next first rest some =>
      rw [some] at contract
      split
      · exact Runs.reject _ _
      · next same =>
        have all : ∀ rank ∈ first :: rest, rank = first := by simpa using same
        exact Quiet.pure (contract isLogical compared fun rank isRank o isOther =>
          (all o isOther).trans (all rank isRank).symm)

omit ok in
theorem dummies_length (notMerge : op ≠ .merge) (notShape : op ≠ .shape) :
    op.dummies.length = if op.takesMask then 3 else 2 := by
  cases op <;> first | rfl | exact absurd rfl notMerge | exact absurd rfl notShape

omit ok in
theorem mem_slots (notMerge : op ≠ .merge) (notShape : op ≠ .shape)
    (length : slots.length = op.dummies.length) (mem : some arg ∈ slots) :
    slots[0]? = some (some arg) ∨ (slots[1]?).join = some arg ∨ op.takesMask = true ∧
    (slots[2]?).join = some arg := by
  rw [dummies_length notMerge notShape] at length
  cases masks : op.takesMask with
  | true =>
    rw [masks] at length
    match slots, length with
    | [first, dim, mask], _ => simpa [eq_comm] using mem
  | false =>
    rw [masks] at length
    match slots, length with
    | [first, dim], _ => simpa [eq_comm] using mem

theorem givenMask_quiet (within : ∀ arg, some arg ∈ slots → arg.index < a.exprs.size)
    (law : a.LawfulType t type) : Quiet t.tolerated (do
      if op.takesMask then
        if let some mask := (slots[2]?).join then checkMask op mask type) a
      fun _ => op.takesMask = true → ∀ arg, (slots[2]?).join = some arg →
        ∃ type, a.HasType arg type ∧ type.isLogical = true := by
  split
  · split
    · next mask isMask =>
      have maskLt := within mask (mem_of_getElem? (Option.join_eq_some_iff.1 isMask))
      refine (checkMask_quiet ok maskLt law).mono fun _ _ held => ⟨held.1, ?_⟩
      intro _ arg isArg
      cases isMask.symm.trans isArg
      exact held.2
    · next noMask => exact .pure fun _ arg isArg => absurd isArg (noMask arg)
  · next unmasked => exact .pure fun masks => absurd masks unmasked

/-- A call that passes the check keeps to its contract. -/
theorem checkContract_quiet (within : ∀ arg, some arg ∈ slots → arg.index < a.exprs.size)
    (length : slots.length = op.dummies.length) (filled : Filled slots op.leastArguments)
    (notShape : op ≠ .shape) :
    Quiet t.tolerated (checkContract op slots span) a fun _ => Contract a op slots := by
  unfold checkContract
  split
  · next isMerge =>
    subst isMerge
    exact checkMerge_quiet ok within length filled
  · next notMerge =>
    have one : op.leastArguments = 1 := by
      cases op <;> first | rfl | exact absurd rfl notMerge
    refine placed_bind within filled (one ▸ Nat.one_pos) fun array isArray arrayLt => ?_
    refine exprType_bind ok arrayLt fun type has law => ?_
    refine checkData_bind ok arrayLt fun plain counted => ?_
    -- what the check of the dimension says, should there be one
    let Dim : Prop := ∀ arg, (slots[1]?).join = some arg → ¬ op.IsLocation ∧
      NumbersDim a type.rank arg
    have contract (dims : Dim) (masks : op.takesMask = true → ∀ arg, (slots[2]?).join = some arg →
        ∃ type, a.HasType arg type ∧ type.isLogical = true) : Contract a op slots := by
      refine ⟨fun arg type mem hasArg => ?_, fun _ arg isArg => ?_,
        fun given arg type isArg hasArg => ?_,
        fun counts arg type isArg hasArg => ?_, fun isMerge => absurd isMerge notMerge,
        fun isMerge => absurd isMerge notMerge⟩
      · rcases mem_slots notMerge notShape length mem with isData | isDim | ⟨masked, isMask⟩
        · cases isArray.symm.trans isData
          exact isPlain_of_hasType ⟨_, has, plain⟩ hasArg
        · obtain ⟨dimType, hasDim, isInteger, -⟩ := (dims arg isDim).2.integer
          exact isPlain_of_hasType ⟨dimType, hasDim, isPlain_of_isNumeric
            (isNumeric_of_isInteger isInteger)⟩ hasArg
        · obtain ⟨maskType, hasMask, isLogical⟩ := masks masked arg isMask
          exact isPlain_of_hasType ⟨maskType, hasMask, isPlain_of_isLogical isLogical⟩ hasArg
      · refine ⟨(dims arg isArg).1, fun data again isData hasAgain => ?_⟩
        cases isArray.symm.trans isData
        cases has.unique hasAgain
        exact (dims arg isArg).2
      · obtain ⟨maskType, hasMask, isLogical⟩ := masks (given.resolve_right notMerge) arg isArg
        cases hasMask.unique hasArg
        exact isLogical
      · cases isArray.symm.trans isArg
        cases has.unique hasArg
        exact counted counts
    have masked (dims : Dim) : Quiet t.tolerated _ a fun _ => Contract a op slots :=
      (givenMask_quiet ok within law).mono fun _ _ held => ⟨held.1, contract dims held.2⟩
    dsimp only
    split
    · next dim isDim =>
      have dimLt := within dim (mem_of_getElem? (Option.join_eq_some_iff.1 isDim))
      refine (checkReductionDim_quiet ok dimLt).bind fun _ facts => masked fun arg isArg => ?_
      cases isDim.symm.trans isArg
      exact facts
    · next noDim => exact masked fun arg isArg => absurd isArg (noDim arg)

/-! ## Results -/

omit ok in
/-- The arguments of a call are those in its filled slots, as many as its intrinsic has in the
variant of the call. -/
theorem arguments_classified (length : slots.length = op.dummies.length)
    (filled : Filled slots op.leastArguments)
    (notShape : op ≠ .shape) (isData : slots[0]? = some (some data)) :
    (slots.filterMap fun slot => slot).length = op.arity (overloadOf op slots) ∧
      (slots.filterMap fun slot => slot).head? = some data ∧
      (op = .merge → (overloadOf op slots).hasDim = false) ∧
      (op ≠ .merge → (overloadOf op slots).hasDim = (slots[1]?).join.isSome ∧
        ((slots[1]?).join.isSome = true → (slots.filterMap fun slot => slot)[1]? =
          (slots[1]?).join)) ∧
      ((overloadOf op slots).hasMask = true ∨ op = .merge →
        (op.takesMask = true ∨ op = .merge) ∧ ∃ mask, (slots[2]?).join = some mask ∧
          (slots.filterMap fun slot => slot).getLast? = some mask) := by
  by_cases isMerge : op = .merge
  · subst isMerge
    obtain ⟨second, isSecond⟩ := filled 1 (by decide)
    obtain ⟨third, isThird⟩ := filled 2 (by decide)
    match slots, length with
    | [first, o, last], _ =>
      cases isData
      cases isSecond
      cases isThird
      exact ⟨rfl, rfl, fun _ => rfl, fun notMerge => absurd rfl notMerge, fun _ =>
        ⟨.inr rfl, third, rfl, rfl⟩⟩
  · rw [dummies_length isMerge notShape] at length
    cases masks : op.takesMask with
    | true =>
      rw [masks] at length
      match slots, length with
      | [first, dim, mask], _ =>
        cases isData
        cases dim <;> cases mask <;>
          simp [overloadOf, isMerge, notShape, masks, ArrayIntrinsic.arity, Overload.hasDim,
            Overload.hasMask]
    | false =>
      rw [masks] at length
      match slots, length with
      | [first, dim], _ =>
        cases isData
        cases dim <;>
          simp [overloadOf, isMerge, notShape, masks, ArrayIntrinsic.arity, Overload.hasDim,
            Overload.hasMask]

theorem literalDim_works {length : Nat} :
    (literalDim length span).Works t a fun dim next => next.LawfulDimension dim := by
  refine .bind (addInteger_works ok (Nat.zero_le _)) fun first mid led made => ?_
  refine .bind (addInteger_works led.lawful (Nat.zero_le _)) fun last next more madeToo => ?_
  refine .pure more.lawful.leads fun id held => ?_
  have either : id = first ∨ id = last := by simpa [dimensionExprs] using held
  rcases either with rfl | rfl
  · exact (more.before.since made.1).2
  · exact madeToo.1.2

/-- The dimension of a result that follows one of an array. -/
theorem resultDim_works (lt : array.index < a.exprs.size) (law : a.LawfulDimension dim) :
    (resultDim array dim number span).Works t a fun dim next => next.LawfulDimension dim := by
  obtain ⟨known, q⟩ := ok.exists_optionalInteger? fun id held =>
    law id (mem_append_left _ (Option.mem_toList.2 held))
  obtain ⟨length, askedToo⟩ := ok.exists_optionalInteger? fun id held =>
    law id (mem_append_right _ (Option.mem_toList.2 held))
  refine ask_bind q (ask_bind askedToo ?_)
  split
  · exact Yields.pure ok.leads law
  · refine Yields.bind (addInteger_works ok (Nat.zero_le _)) fun first one led made => ?_
    refine Yields.bind (copy_works led.lawful (Nat.zero_le _)
      (lt.trans_le led.before.exprs_le)) fun base two second copied => ?_
    refine Yields.bind (addInteger_works second.lawful (Nat.zero_le _))
      fun i three third madeToo => ?_
    have new : three.NewExpr t ⟨.arraySize base (some i), .integer 4, none, span⟩ :=
      ⟨forall_mem_pair (third.before.since copied.1).usable madeToo.1.usable, .integer,
        nofun, trivial⟩
    refine .bind (addExpr_makes third.lawful (Nat.zero_le _) new)
      fun last four fourth madeLast => ?_
    refine .pure fourth.lawful.leads fun id held => ?_
    have either : id = first ∨ id = last := by simpa [dimensionExprs] using held
    rcases either with rfl | rfl
    · exact (fourth.before.since (third.before.since (second.before.since made.1))).2
    · exact madeLast.2

omit ok in
theorem length_kept {dims : List Dimension} {skipped : Option Int} {first : Nat}
    (within : ∀ number ∈ skipped, first ≤ number ∧ number < first + dims.length) :
    ((dims.zipIdx first).filter fun e => some (e.2 : Int) != skipped).length =
      dims.length - skipped.toList.length := by
  cases skipped with
  | none => exact (congrArg length (filter_eq_self.2 fun _ _ => rfl)).trans length_zipIdx
  | some number =>
    obtain ⟨least, most⟩ := within number rfl
    obtain ⟨number, rfl⟩ := Int.eq_ofNat_of_zero_le (Int.le_trans (Int.natCast_nonneg first) least)
    -- the others are counted: one entry has the number
    have once : ((dims.zipIdx first).map Prod.snd).count number = 1 := by
      rw [zipIdx_map_snd]
      exact count_eq_one_of_mem (nodup_range' ..) (mem_range'_1.2 (by omega))
    rw [count, countP_map] at once
    have split := length_eq_countP_add_countP ((· == number) ∘ Prod.snd) (l := dims.zipIdx first)
    rw [once, length_zipIdx, countP_eq_length_filter] at split
    have same : (fun e : Dimension × Nat => some (e.2 : Int) != some ↑number) =
        fun e => decide ¬ ((· == number) ∘ Prod.snd) e = true := by
      funext e
      simp only [bne, Option.some_beq_some, Function.comp_apply, beq_iff_eq]
      by_cases same : e.2 = number <;> simp [same]
    rw [same, Option.toList_some, length_singleton]
    omega

/-- The dimensions of a result that follow those of an array, except one that may be skipped. -/
theorem resultDims_works {skipped : Option Int} (has : a.HasType array type)
    (within : ∀ number ∈ skipped, 1 ≤ number ∧ number ≤ type.rank) :
    (resultDims array skipped span).Works t a fun dims next =>
      (∀ dim ∈ dims, next.LawfulDimension dim) ∧
        dims.length = type.rank - skipped.toList.length := by
  have lt := has.inRange
  have law := ok.lawfulType has
  refine ask_bind (Arena.exprType_eq_ok.2 has) ?_
  let kept := (type.dims.zipIdx 1).filter fun e => some (e.2 : Int) != skipped
  have each : Yields t.tolerated (Arena.Leads t)
      (kept.mapM fun e => resultDim array e.1 e.2 span) a fun dims next =>
        List.Forall₂ (fun _ dim => next.LawfulDimension dim) kept dims := by
    refine Yields.mapM ok.leads ?_ fun e mem mid led => ?_
    · exact fun _ dim _ _ led held => led.before.lawfulDimension held
    · have isDim := fst_mem_of_mem_zipIdx (mem_of_mem_filter mem)
      exact resultDim_works led.lawful (lt.trans_le led.before.exprs_le)
        (led.before.lawfulDimension (law.dims e.1 isDim))
  refine each.mono fun dims next _ made => ⟨fun dim mem => ?_, ?_⟩
  · obtain ⟨_, _, held⟩ := exists_of_mem_right made mem
    exact held
  · refine made.length_eq.symm.trans (length_kept fun number held => ?_)
    have := within number held
    have : type.rank = type.dims.length := rfl
    omega

omit ok in
theorem exists_firstArray? (typed : List.Forall₂ a.HasType args types) :
    ∃ ans, firstArray? a args = .ok ans ∧ (ans = none → (types.map rank).find? (0 < ·) = none) ∧
      ∀ array ∈ ans, ∃ type, a.HasType array type ∧
      (types.map rank).find? (0 < ·) = some type.rank := by
  induction typed with
  | nil => exact ⟨none, rfl, fun _ => rfl, nofun⟩
  | @cons arg type rest types has typed ih =>
    simp only [firstArray?, Arena.exprType_eq_ok.2 has, bind, Except.bind, map_cons]
    split
    · next isArray =>
      refine ⟨some arg, rfl, nofun, fun array held => ?_⟩
      cases held
      exact ⟨type, has, find?_cons_of_pos isArray⟩
    · next notArray =>
      have later : (type.rank :: types.map rank).find? (0 < ·) = (types.map rank).find? (0 < ·) :=
        find?_cons_of_neg notArray
      rw [later]
      exact ih

omit ok in
theorem filled_since (since : a.SlotsSince start slots) :
    ∀ arg ∈ slots.filterMap fun slot => slot, a.Since start arg := by
  intro arg mem
  obtain ⟨slot, isSlot, isArg⟩ := mem_filterMap.1 mem
  exact since arg (isArg ▸ isSlot)

/-- What is known of the result of a call of an array intrinsic over data of the given type. -/
structure Result (terms : Terms) (arena : Arena) (op : ArrayIntrinsic) (rank : Nat)
    (data type : Ty) : Prop where
  law : arena.LawfulType terms type
  element : type.element = op.resultElement data
  rank : type.rank = rank

theorem resultType_works (length : slots.length = op.dummies.length)
    (filled : Filled slots op.leastArguments)
    (notShape : op ≠ .shape) (within : ∀ arg, some arg ∈ slots → arg.index < a.exprs.size)
    (isData : slots[0]? = some (some data)) (has : a.HasType data type)
    (contract : Contract a op slots)
    {types : List Ty} (typed : List.Forall₂ a.HasType (slots.filterMap fun slot => slot) types) :
    (resultType op slots span).Works t a fun ans next =>
      Result t next op (op.resultRank (overloadOf op slots) (types.map rank)) type ans := by
  obtain ⟨-, isHead, -, hasDim, -⟩ := arguments_classified length filled notShape isData
  have law := ok.lawfulType has
  have single := law.flat.element
  have least : 0 < op.leastArguments := by cases op <;> decide
  refine placed_bind within filled least fun again isAgain _ => ?_
  cases isData.symm.trans isAgain
  refine ask_bind (Arena.exprType_eq_ok.2 has) ?_
  have location (isInteger : op.resultElement type = .integer 4)
      (one : op.resultRank (overloadOf op slots) (types.map rank) = 1) : Edit.Works t (do
        return shaped (.integer 4) [← literalDim type.rank span]) a fun ans next =>
          Result t next op (op.resultRank (overloadOf op slots) (types.map rank)) type ans := by
    refine .bind (literalDim_works ok) fun dim next led dimLaw => ?_
    have integer : next.LawfulType t (.integer 4) := .integer
    exact .pure led.lawful.leads ⟨integer.shaped rfl (forall_mem_singleton.2 dimLaw),
      isInteger.symm, one.symm⟩
  split
  · exact location rfl rfl
  · exact location rfl rfl
  · obtain ⟨ans, q, isNone, isSome⟩ := exists_firstArray? typed
    have isRank : ArrayIntrinsic.resultRank .merge (overloadOf .merge slots) (types.map rank) =
        ((types.map rank).find? (0 < ·)).getD 0 := rfl
    refine ask_bind q ?_
    cases ans with
    | none =>
      rw [isNone rfl] at isRank
      exact Yields.pure ok.leads ⟨law.element, single.element, single.rank.trans isRank.symm⟩
    | some array =>
      obtain ⟨arrayType, hasArray, isFirst⟩ := isSome array rfl
      rw [isFirst] at isRank
      refine Yields.bind (resultDims_works ok hasArray nofun)
        fun dims next led ⟨dimsLaw, count⟩ => ?_
      refine Yields.pure led.lawful.leads ⟨?_, element_shaped single dims, ?_⟩
      · exact (led.before.lawfulType law.element).shaped single.rank dimsLaw
      · exact (rank_shaped single dims).trans (count.trans isRank.symm)
  · next notMaxLoc notMinLoc notMerge =>
    have isElement : (if op = .count then
        .integer 4 else type.element) = op.resultElement type := by
      cases op <;> first | rfl | exact absurd rfl notMaxLoc | exact absurd rfl notMinLoc
    have isRank : op.resultRank (overloadOf op slots) (types.map rank) =
        if (slots[1]?).join.isSome then type.rank - 1 else 0 := by
      obtain ⟨first, isFirst, hasFirst⟩ : ∃ first, types.head? = some first ∧
        a.HasType data first := by
        rw [head?_eq_getElem?] at isHead ⊢
        obtain ⟨bound, rfl⟩ := List.getElem?_eq_some_iff.1 isHead
        have o := typed.length_eq ▸ bound
        exact ⟨types[0], getElem?_eq_getElem o, typed.get bound o⟩
      cases has.unique hasFirst
      have isRank : (types.map rank).headD 0 = type.rank := by
        rw [headD_eq_head?_getD, head?_map, isFirst]; rfl
      rw [← (hasDim notMerge).1, ← isRank]
      cases op <;> first | rfl | exact absurd rfl notMaxLoc | exact absurd rfl notMinLoc |
        exact absurd rfl notMerge
    have resultSingle : (op.resultElement type).IsElement := by
      cases op <;> first | exact single | trivial
    have resultLaw : a.LawfulType t (op.resultElement type) := by
      cases op <;> first | exact law.element | exact .integer
    have scalar (zero : op.resultRank (overloadOf op slots) (types.map rank) = 0) :
        Edit.Works t (pure (op.resultElement type)) a fun ans next =>
          Result t next op (op.resultRank (overloadOf op slots) (types.map rank)) type ans :=
      Yields.pure ok.leads ⟨resultLaw, resultSingle.element, resultSingle.rank.trans zero.symm⟩
    dsimp only
    rw [isElement]
    split
    · next dim isDim =>
      rw [isDim] at isRank
      split
      · next many =>
        have numbers := (contract.dim notMerge dim isDim).2 data type isData has
        obtain ⟨number, q⟩ := numbers.known many
        have bounds : ∀ v ∈ some number, 1 ≤ v ∧ v ≤ type.rank := by
          rintro v ⟨⟩
          exact numbers.within number q
        refine ask_bind q (Yields.bind (resultDims_works ok has bounds)
          fun dims next led ⟨dimsLaw, count⟩ => ?_)
        refine Yields.pure led.lawful.leads ⟨?_, element_shaped resultSingle dims, ?_⟩
        · exact (led.before.lawfulType resultLaw).shaped resultSingle.rank dimsLaw
        · exact (rank_shaped resultSingle dims).trans (count.trans isRank.symm)
      · next few => exact scalar (isRank.trans (Nat.sub_eq_zero_of_le (Nat.not_lt.1 few)))
    · next noDim =>
      refine scalar (isRank.trans ?_)
      rw [noDim]
      rfl

/-! ## Calls -/

theorem exists_arrayValue? (isData : args.head? = some data) (lt : data.index < a.exprs.size) :
    ∃ ans, arrayValue? a op overload args = .ok ans := by
  obtain ⟨type, q, -⟩ := ok.exists_type lt
  obtain ⟨constant, valued⟩ := ok.exists_constant? lt
  cases args with
  | nil => cases isData
  | cons first rest =>
    cases isData
    unfold arrayValue?
    split
    · next isNil => cases isNil
    · next isCons =>
      cases isCons
      simp only [q, valued, bind, Except.bind]
      split <;> exact ⟨_, rfl⟩
    · exact ⟨_, rfl⟩

theorem extent_works (since : a.Since start array) (law : a.LawfulDimension dim) : Edit.Works t (do
      let i ← addInteger number span
      let length ← ask (·.optionalInteger? dim.length)
      let v ← addConstant? (length.map .integer) (.integer 4) span
      let item ← addExpr (.arraySize array (some i)) (.integer 4) v span
      return (item, length)) a fun item next => next.Since start item.1 := by
  refine .bind (addInteger_works ok since.le) fun i mid led made => ?_
  obtain ⟨length, q⟩ := led.lawful.exists_optionalInteger? fun id held =>
    led.before.lawfulDimension law id (mem_append_right _ (Option.mem_toList.2 held))
  refine ask_bind q ?_
  refine Yields.bind (addConstant?_works led.lawful .integer) fun v next more constants => ?_
  have arraySince := (led.before.trans more.before).since since
  have new : next.NewExpr t ⟨.arraySize array (some i), .integer 4, v, span⟩ :=
    ⟨forall_mem_pair arraySince.usable (more.before.since made.1).usable, .integer,
      constants, trivial⟩
  refine .bind (addExpr_makes more.lawful arraySince.le new) fun item last toLast isSince => ?_
  exact .pure toLast.lawful.leads isSince

theorem shapeInquiry_makes {source : ExprId} (since : a.Since start source) :
    (shapeInquiry source span).Makes t start a := by
  refine exprType_bind ok since.2 fun type has law => demand_bind ok since.2 fun _ => ?_
  have each : Yields t.tolerated (Arena.Leads t) ((type.dims.zipIdx 1).mapM fun e => do
      let array ← if e.2 = 1 then pure source else copy source
      let i ← addInteger e.2 span
      let length ← ask (·.optionalInteger? e.1.length)
      let v ← addConstant? (length.map .integer) (.integer 4) span
      let item ← addExpr (.arraySize array (some i)) (.integer 4) v span
      return (item, length)) a fun items next =>
        List.Forall₂ (fun _ item => next.Since start item.1) (type.dims.zipIdx 1) items := by
    refine Yields.mapM ok.leads ?_ fun e mem mid led => ?_
    · exact fun _ item _ _ led held => led.before.since held
    have dimLaw := led.before.lawfulDimension (law.dims e.1 (fst_mem_of_mem_zipIdx mem))
    have sourceSince := led.before.since since
    dsimp only
    split
    · exact extent_works led.lawful sourceSince dimLaw
    · refine .bind (copy_works led.lawful sourceSince.le sourceSince.2) ?_
      intro array next more copied
      exact extent_works more.lawful copied.1 (more.before.lawfulDimension dimLaw)
  refine Yields.bind each fun items mid led made => ?_
  refine Yields.bind (literalDim_works led.lawful) fun dim next more dimLaw => ?_
  have integer : next.LawfulType t (.integer 4) := .integer
  have resultLaw := integer.shaped rfl (forall_mem_singleton.2 dimLaw)
  refine .bind (addConstant?_works more.lawful resultLaw) fun v last toLast constants => ?_
  have pre := led.before.trans (more.before.trans toLast.before)
  refine addExpr_makes toLast.lawful (pre.since since).le
    ⟨fun child mem => ?_, toLast.before.lawfulType resultLaw, constants, trivial⟩
  obtain ⟨item, isItem, rfl⟩ := mem_map.1 mem
  obtain ⟨_, _, itemSince⟩ := exists_of_mem_right made isItem
  exact ((more.before.trans toLast.before).since itemSince).usable

theorem exists_types (lt : ∀ arg ∈ args, arg.index < a.exprs.size) : ∃ types,
    List.Forall₂ a.HasType args types := by
  induction args with
  | nil => exact ⟨[], .nil⟩
  | cons arg rest ih =>
    obtain ⟨type, -, has, -⟩ := ok.exists_type (lt arg (.head _))
    obtain ⟨types, typed⟩ := ih fun o mem => lt o (.tail _ mem)
    exact ⟨type :: types, .cons has typed⟩

omit ok in
theorem related_at (same : List.Forall₂ related first second) (isOne : first[i]? = some one)
    (isOther : second[i]? = some o) : related one o := by
  obtain ⟨bound, rfl⟩ := List.getElem?_eq_some_iff.1 isOne
  obtain ⟨otherBound, rfl⟩ := List.getElem?_eq_some_iff.1 isOther
  exact same.get bound otherBound

omit ok in
/-- The arguments of a call that keeps to its contract, and its result, fit its intrinsic. -/
theorem fits_of_contract (length : slots.length = op.dummies.length)
    (filled : Filled slots op.leastArguments) (notShape : op ≠ .shape)
    (isData : slots[0]? = some (some data)) (has : a.HasType data dataType)
    (contract : Contract a op slots)
    (res : Result t b op (op.resultRank (overloadOf op slots) (types.map rank)) dataType ans)
    (typed : List.Forall₂ a.HasType (slots.filterMap fun slot => slot) types) :
    op.Fits (overloadOf op slots) types ans := by
  obtain ⟨arity, isHead, mergeDim, dims, masks⟩ :=
    arguments_classified length filled notShape isData
  refine ⟨typed.length_eq ▸ arity, fun type mem => ?_, fun type isType => ?_,
    fun hasDim type isType => ?_, res.rank, fun isLocation => ?_, notShape,
    fun given type isType => ?_,
    fun counts type isType => ?_, fun isMerge type isType o isOther => ?_⟩
  · obtain ⟨i, bound, rfl⟩ := getElem_of_mem mem
    have argBound : i < (slots.filterMap fun slot => slot).length := typed.length_eq ▸ bound
    obtain ⟨slot, isSlot, same⟩ := mem_filterMap.1 (getElem_mem argBound)
    exact contract.plain _ _ (same ▸ isSlot) (typed.get argBound bound)
  · rw [head?_eq_getElem?] at isHead isType
    cases has.unique (related_at typed isHead isType)
    exact res.element
  · have notMerge : op ≠ .merge := fun isMerge => by
      cases (mergeDim isMerge).symm.trans hasDim
    obtain ⟨same, isSecond⟩ := dims notMerge
    have isSome := same ▸ hasDim
    obtain ⟨dim, isDim⟩ := Option.isSome_iff_exists.1 isSome
    obtain ⟨same, hasSame, -, scalar⟩ :=
      ((contract.dim notMerge dim isDim).2 data dataType isData has).integer
    cases hasSame.unique (related_at typed ((isSecond isSome).trans isDim) isType)
    exact scalar
  · have notMerge : op ≠ .merge := by
      rintro rfl
      rcases isLocation with isMax | isMin
      · cases isMax
      · cases isMin
    rw [(dims notMerge).1]
    cases isDim : (slots[1]?).join with
    | none => rfl
    | some dim => exact absurd isLocation (contract.dim notMerge dim isDim).1
  · obtain ⟨takes, mask, isMask, isLast⟩ := masks given
    rw [getLast?_eq_getElem?] at isLast isType
    rw [← typed.length_eq] at isType
    exact contract.mask takes mask type isMask (related_at typed isLast isType)
  · rw [head?_eq_getElem?] at isHead isType
    exact contract.count counts data type isData (related_at typed isHead isType)
  · subst isMerge
    obtain ⟨second, isSecond⟩ := filled 1 (by decide)
    obtain ⟨third, isThird⟩ := filled 2 (by decide)
    rw [head?_eq_getElem?] at isHead isType
    have isNext : (slots.filterMap fun slot => slot)[1]? = some second := by
      match slots, length with
      | [_, _, _], _ => cases isData; cases isSecond; cases isThird; rfl
    exact contract.sources rfl data second type o isData isSecond (related_at typed isHead isType)
      (related_at typed isNext isOther)

/-- The call of an array intrinsic becomes an expression. -/
theorem resolveArray_makes {args : List ActualArgument} (since : a.ArgsSince start args) :
    (resolveArray op args span).Makes t start a := by
  refine (arraySlots_quiet ok since).bind fun slots ⟨length, held, filled⟩ => ?_
  have one : 0 < op.leastArguments := by cases op <;> decide
  have within := fun arg isArg => (held arg isArg).2
  split
  · exact placed_bind within filled one fun source isSource _ =>
      shapeInquiry_makes ok (held source (mem_of_getElem? isSource))
  · next notShape =>
    refine (checkContract_quiet ok within length filled notShape).bind fun _ contract => ?_
    obtain ⟨data, isData⟩ := filled 0 one
    have dataSince := held data (mem_of_getElem? isData)
    obtain ⟨type, -, has, -⟩ := ok.exists_type dataSince.2
    obtain ⟨-, isHead, -⟩ := arguments_classified length filled notShape isData
    have lt := filled_since held
    obtain ⟨types, typed⟩ := exists_types ok fun arg mem => (lt arg mem).2
    refine Yields.bind (resultType_works ok length filled notShape within isData has contract typed)
      fun ans mid led res => ?_
    obtain ⟨folded, q⟩ := exists_arrayValue? led.lawful isHead (led.before.since dataSince).2
    refine ask_bind q ?_
    refine Yields.bind (addConstant?_works led.lawful res.law) fun v last further constants => ?_
    have pre := led.before.trans further.before
    have fits := fits_of_contract length filled notShape isData has contract res typed
    exact addExpr_makes further.lawful (pre.since dataSince).le
      ⟨fun child mem => (pre.since (lt child mem)).usable, further.before.lawfulType res.law,
        constants, ⟨types, typed.imp fun _ _ => pre.hasType, fits⟩⟩

end Intrinsic

end FortranSemantics
