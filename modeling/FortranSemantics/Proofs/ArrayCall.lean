import FortranSemantics.Proofs.Lawful.Session

/-!
# The shape of calls of array intrinsics

The arguments of an accepted call stand in the order of the dummy arguments, whatever mix of
positions and keywords they were given by. The variant of the call, the contract and the type of the
result are all read off the same slots.
-/

namespace FortranSemantics

open List Edit Ty

variable {a b : Arena} {t : Terms} {n : String} {ds : List String} {span : Span}
  {position : Nat → ExprId → Edit Nat} {meant : Nat → ExprId → Nat → Prop} {arg : ActualArgument}
  {args : List ActualArgument} {slots : List (Option ExprId)} {slot : Nat} {op : ArrayIntrinsic}
  {id : ExprId}

namespace Intrinsic

/-! ## Placing arguments -/

/-- The state of placing once some arguments stand in the slots. -/
def Slots.after (args : List ActualArgument) (slots : List (Option ExprId)) : Slots where
  filled := slots
  positional := args.countP (·.keyword.isNone)
  keyword := args.any (·.keyword.isSome)

/-- Whether the argument at some place is meant for a slot: a keyword names it, and `meant` tells it
otherwise. -/
def MeantFor (dummies : List String) (meant : Nat → ExprId → Nat → Prop) (place : Nat)
    (arg : ActualArgument) (slot : Nat) : Prop :=
  match arg.keyword with
  | some keyword => dummies[slot]? = some keyword
  | none => meant place arg.value slot

/-- Whether the arguments, and nothing else, stand in slots that they are meant for. -/
structure Placed (dummies : List String) (meant : Nat → ExprId → Nat → Prop)
    (args : List ActualArgument) (slots : List (Option ExprId)) : Prop where
  length : slots.length = dummies.length
  stands : ∀ ⦃place arg⦄, args[place]? = some arg →
    ∃ slot, MeantFor dummies meant place arg slot ∧ slots[slot]? = some (some arg.value)
  exact : (slots.filterMap fun slot => slot).Perm (args.map (·.value))

theorem perm_set {value : ExprId} (free : slots[slot]? = some none) :
    ((slots.set slot (some value)).filterMap fun slot => slot).Perm
    (value :: slots.filterMap fun slot => slot) := by
  induction slots generalizing slot with
  | nil => cases free
  | cons first rest ih =>
    cases slot with
    | zero =>
      cases free
      exact .refl _
    | succ slot =>
      cases first with
      | none => exact ih free
      | some o => exact ((ih free).cons o).trans (.swap ..)

theorem slotOf_after (position_meant : ∀ place,
      Quiet t.tolerated (position place arg.value) a (meant place arg.value)) :
    Quiet t.tolerated (slotOf n ds position (.after args slots) arg) a fun next =>
      MeantFor ds meant args.length arg next.1 ∧ next.2 = .after (args ++ [arg]) slots := by
  unfold slotOf MeantFor Slots.after
  cases keyword : arg.keyword with
  | some word =>
    dsimp only
    split
    · next slot found =>
      obtain ⟨bound, same, -⟩ := findIdx?_eq_some_iff_getElem.1 found
      exact .pure ⟨List.getElem?_eq_some_iff.2 ⟨bound, eq_of_beq same⟩, by simp [keyword]⟩
    · exact Runs.reject _ _
  | none =>
    refine Runs.guard fun keyed => ?_
    -- no keyword was given yet, so the count of positional arguments is the place of the next one
    have positional : ∀ earlier ∈ args, earlier.keyword = none := by simpa using keyed
    have counted : args.countP (·.keyword.isNone) = args.length :=
      countP_eq_length.2 (by simpa using positional)
    dsimp only
    rw [counted]
    refine (position_meant args.length).bind fun slot isMeant => Quiet.pure ⟨isMeant, ?_⟩
    simp [keyword, counted]

/-- One more argument goes to a free slot that it is meant for. -/
theorem place_after (placed : Placed ds meant args slots) (position_meant : ∀ place,
      Quiet t.tolerated (position place arg.value) a (meant place arg.value)) :
    Quiet t.tolerated (place n ds position (.after args slots) arg) a fun next =>
      ∃ slots, next = .after (args ++ [arg]) slots ∧ Placed ds meant (args ++ [arg]) slots := by
  refine (slotOf_after position_meant).bind fun ⟨slot, next⟩ ⟨isMeant, same⟩ => ?_
  dsimp only at isMeant same ⊢
  subst same
  split
  · exact .reject _ _
  · next isDummy =>
    split
    · next missing =>
      have inside := (List.getElem?_eq_some_iff.1 isDummy).1
      exact absurd (List.getElem?_eq_none_iff.1 missing) (by rw [Slots.after, placed.length]; omega)
    · exact Runs.reject _ _
    · next free =>
      refine Quiet.pure ⟨slots.set slot (some arg.value), rfl, ?_, fun place o isOther => ?_, ?_⟩
      · exact length_set.trans placed.length
      · by_cases earlier : place < args.length
        · rw [getElem?_append_left earlier] at isOther
          obtain ⟨held, heldMeant, st⟩ := placed.stands isOther
          have apart : slot ≠ held := by
            rintro rfl
            cases free.symm.trans st
          exact ⟨held, heldMeant, (getElem?_set_ne apart).trans st⟩
        · obtain rfl : place = args.length := by
            have := (List.getElem?_eq_some_iff.1 isOther).1
            simp at this
            omega
          cases getElem?_concat_length.symm.trans isOther
          exact ⟨slot, isMeant, getElem?_set_self (List.getElem?_eq_some_iff.1 free).1⟩
      · rw [map_append]
        exact (perm_set free).trans ((placed.exact.cons _).trans (perm_append_singleton _ _).symm)

/-- Placing all arguments puts each of them in a slot that it is meant for. -/
theorem foldlM_place (position_meant : ∀ arg ∈ args, ∀ place,
      Quiet t.tolerated (position place arg.value) a (meant place arg.value)) :
    Quiet t.tolerated (args.foldlM (place n ds position) (.after [] (replicate ds.length none))) a
      fun next => ∃ slots, next = .after args slots ∧ Placed ds meant args slots := by
  induction args using List.reverseRecOn with
  | nil =>
    refine Quiet.pure ⟨_, rfl, length_replicate, nofun, ?_⟩
    simp
  | append_singleton done arg ih =>
    rw [foldlM_append]
    refine (ih fun o mem => position_meant o (mem_append_left _ mem)).bind
      fun next ⟨slots, same, placed⟩ => ?_
    subst same
    rw [foldlM_cons]
    refine (place_after placed (position_meant arg (mem_append_right _ (.head _)))).bind
      fun next held => ?_
    exact Quiet.pure held

/-! ## Calls -/

/-- Whether an array intrinsic takes the argument at some place for a slot: a second one that is an
array is the mask and not the dimension. -/
def Takes (arena : Arena) (op : ArrayIntrinsic) (place : Nat) (value : ExprId)
    (slot : Nat) : Prop :=
  ∃ type, arena.HasType value type ∧ slot = if place = 1 ∧ op.takesMask ∧
    type.isArray then 2 else place

theorem arraySlots_placed (lawful : a.Lawful t)
    (within : ∀ arg ∈ args, arg.value.index < a.exprs.size) :
    Quiet t.tolerated (arraySlots op args span) a fun slots =>
      Placed op.dummies (Takes a op) args slots ∧ Filled slots op.leastArguments := by
  have takes (arg) (mem : arg ∈ args) (place : Nat) : Quiet t.tolerated (do
      if place = 1 ∧ op.takesMask ∧ (← ask (·.exprType arg.value)).isArray then return 2
      return place) a (Takes a op place arg.value) := by
    refine exprType_bind lawful (within arg mem) fun ty has _ => ?_
    split
    · next second => exact Quiet.pure ⟨ty, has, (if_pos second).symm⟩
    · next first => exact Quiet.pure ⟨ty, has, (if_neg first).symm⟩
  refine (foldlM_place takes).bind fun next ⟨slots, same, placed⟩ => ?_
  subst same
  split
  · exact Runs.reject _ _
  · next complete =>
      exact Quiet.pure ⟨placed, filled_of_find? placed.length (by cases op <;> decide) complete⟩

/-- Whether a call with some arguments has the shape of its variant: its operands are the arguments
in the order of the dummy arguments, and the rank of its result follows from theirs. -/
structure CallShape (arena : Arena) (op : ArrayIntrinsic) (args : List ActualArgument)
    (slots : List (Option ExprId))
    (overload : Overload) (operands : List ExprId) (result : Ty) : Prop where
  placed : Placed op.dummies (Takes arena op) args slots
  order : operands = slots.filterMap fun slot => slot
  count : operands.length = if op = .merge then 3 else
    1 + (if overload.hasDim then 1 else 0) + if overload.hasMask then 1 else 0
  hasDim : op ≠ .merge → overload.hasDim = (slots[1]?).join.isSome
  hasMask : op ≠ .merge → overload.hasMask = (op.takesMask && (slots[2]?).join.isSome)
  location : op.IsLocation → result.rank = 1 ∧ overload.hasDim = false
  reduction : op ≠ .merge → ∃ data type, slots[0]? = some (some data) ∧ arena.HasType data type ∧
    (¬ op.IsLocation → result.rank = if overload.hasDim then type.rank - 1 else 0) ∧
    ∀ dim, (slots[1]?).join = some dim → NumbersDim arena type.rank dim
  merge : op = .merge → (∀ arg ∈ operands, ∀ type, arena.HasType arg type → type.rank = 0 ∨
    type.rank = result.rank) ∧
    ∃ arg ∈ operands, ∃ type, arena.HasType arg type ∧ type.rank = result.rank

theorem hasMask_overloadOf (notMerge : op ≠ .merge) (notShape : op ≠ .shape) :
    (overloadOf op slots).hasMask = (op.takesMask && (slots[2]?).join.isSome) := by
  unfold overloadOf
  rw [if_neg (not_or.2 ⟨notMerge, notShape⟩)]
  cases (slots[1]?).join.isSome <;> cases op.takesMask && (slots[2]?).join.isSome <;> rfl

/-- The rank of a merge of arguments whose ranks agree is that of one of them, and of every array
among them. -/
theorem rank_merge {xs : List ExprId} {types : List Ty} {overload : Overload} (nonempty : xs ≠ [])
    (typed : List.Forall₂ a.HasType xs types) (agree : ∀ arg ∈ xs, ∀ o ∈ xs, ∀ type otherType,
      a.HasType arg type → a.HasType o otherType → type.rank = 0 ∨ otherType.rank = 0 ∨
      otherType.rank = type.rank) :
    (∀ arg ∈ xs, ∀ type, a.HasType arg type →
        type.rank = 0 ∨ type.rank = ArrayIntrinsic.resultRank .merge overload (types.map rank)) ∧
      ∃ arg ∈ xs, ∃ type, a.HasType arg type ∧
        type.rank = ArrayIntrinsic.resultRank .merge overload (types.map rank) := by
  have isRank : ArrayIntrinsic.resultRank .merge overload (types.map rank) =
      ((types.map rank).find? (0 < ·)).getD 0 := rfl
  have typeOf {arg : ExprId} {type : Ty} (mem : arg ∈ xs) (has : a.HasType arg type) :
      type ∈ types := by
    obtain ⟨index, bound, rfl⟩ := getElem_of_mem mem
    have o := typed.length_eq ▸ bound
    rw [has.unique (typed.get bound o)]
    exact getElem_mem o
  cases first : (types.map rank).find? (0 < ·) with
  | none =>
    rw [first] at isRank
    have scalar (arg) (mem : arg ∈ xs) (type) (has : a.HasType arg type) : type.rank = 0 := by
      simpa using find?_eq_none.1 first type.rank (mem_map_of_mem (typeOf mem has))
    obtain ⟨arg, mem⟩ := exists_mem_of_ne_nil _ nonempty
    obtain ⟨index, bound, rfl⟩ := getElem_of_mem mem
    have has := typed.get bound (typed.length_eq ▸ bound)
    exact ⟨fun arg mem type has => .inl (scalar arg mem type has),
      _, mem, _, has, (scalar _ mem _ has).trans isRank.symm⟩
  | some found =>
    rw [first] at isRank
    obtain ⟨type, isType, rfl⟩ := mem_map.1 (mem_of_find?_eq_some first)
    obtain ⟨arg, mem, has⟩ := exists_of_mem_right typed isType
    have array : type.rank ≠ 0 := Nat.pos_iff_ne_zero.1 (by simpa using find?_some first)
    rw [isRank]
    refine ⟨fun o isOther otherType hasOther => ?_, arg, mem, type, has, rfl⟩
    rcases agree arg mem o isOther type otherType has hasOther with scalar | scalar | same
    · exact absurd scalar array
    · exact .inl scalar
    · exact .inr same

/-- An accepted call of an array intrinsic has the shape of its variant. -/
theorem resolveArray_shape (lawful : a.Lawful t)
    (within : ∀ arg ∈ args, arg.value.index < a.exprs.size)
    (notShape : op ≠ .shape) (ran : resolveArray op args span a = .ok id b) :
    ∃ slots expr overload operands, b.expr id = .ok expr ∧
    expr.kind = .arrayCall op overload operands ∧
      CallShape a op args slots overload operands expr.type := by
  obtain ⟨slots, a, ranSlots, checks⟩ := run_bind_eq_ok.1 ran
  obtain ⟨rfl, placed, filled⟩ := (arraySlots_placed lawful within).result ranSlots
  rw [if_neg notShape] at checks
  have inside : ∀ arg, some arg ∈ slots → arg.index < a.exprs.size := by
    intro value mem
    obtain ⟨arg, isArg, rfl⟩ := mem_map.1 (placed.exact.mem_iff.1 (mem_filterMap.2 ⟨_, mem, rfl⟩))
    exact within arg isArg
  have least : 0 < op.leastArguments := by cases op <;> decide
  obtain ⟨data, isData⟩ := filled 0 least
  obtain ⟨type, -, has, -⟩ := lawful.exists_type (inside data (mem_of_getElem? isData))
  have operand {arg : ExprId} (mem : arg ∈ slots.filterMap fun slot => slot) :
      some arg ∈ slots := by
    obtain ⟨slot, isSlot, rfl⟩ := mem_filterMap.1 mem
    exact isSlot
  obtain ⟨types, typed⟩ := exists_types lawful fun arg mem => inside arg (operand mem)
  obtain ⟨_, a, checked, rest⟩ := run_bind_eq_ok.1 checks
  obtain ⟨rfl, contract⟩ :=
    (checkContract_quiet lawful inside placed.length filled notShape).result checked
  obtain ⟨ans, mid, ranType, rest⟩ := run_bind_eq_ok.1 rest
  obtain ⟨-, result⟩ :=
    (resultType_works lawful placed.length filled notShape inside isData has contract
      typed).result ranType
  obtain ⟨folded, _, -, rest⟩ := run_bind_eq_ok.1 rest
  obtain ⟨value, last, -, rest⟩ := run_bind_eq_ok.1 rest
  cases rest
  have fits := fits_of_contract placed.length filled notShape isData has contract result typed
  obtain ⟨-, isHead, -, dims, -⟩ := arguments_classified placed.length filled notShape isData
  refine ⟨slots, _, _, _, Arena.expr_addExpr.2 (.inr ⟨rfl, rfl⟩), rfl, placed, rfl,
    typed.length_eq.trans fits.arity, fun notMerge => (dims notMerge).1,
    (hasMask_overloadOf · notShape),
    fun isLocation => ⟨result.rank.trans ?_, fits.location isLocation⟩,
    fun notMerge => ⟨data, type, isData, has, fun notLocation => result.rank.trans ?_,
      fun dim isDim =>
      (contract.dim notMerge dim isDim).2 data type isData has⟩, fun isMerge => ?_⟩
  · rcases isLocation with rfl | rfl <;> rfl
  · have isFirst : (types.map rank).headD 0 = type.rank := by
      rw [head?_eq_getElem?] at isHead
      obtain ⟨bound, rfl⟩ := List.getElem?_eq_some_iff.1 isHead
      have other := typed.length_eq ▸ bound
      rw [headD_eq_head?_getD, head?_map, head?_eq_getElem?, getElem?_eq_getElem other,
        has.unique (typed.get bound other)]
      rfl
    have isRank : op.resultRank (overloadOf op slots) (types.map rank) =
        if (overloadOf op slots).hasDim then (types.map rank).headD 0 - 1 else 0 := by
      cases op <;> first | rfl | exact absurd rfl notMerge | exact absurd (.inl rfl) notLocation |
        exact absurd (.inr rfl) notLocation
    rw [isRank, isFirst]
  · subst isMerge
    rw [result.rank]
    refine rank_merge (ne_nil_of_mem (mem_of_mem_head? isHead)) typed
      fun arg mem other isOther type otherType => ?_
    exact contract.ranks rfl arg other type otherType (operand mem) (operand isOther)

/-! ## A call with a mask by position and a dimension by keyword -/

/-- A program that prints a matrix, another of logical values, and a number. -/
def samplePrint : Tree.CompilationUnit :=
  let dims : List Tree.DimSpec :=
    [⟨none, some ⟨.int "2", default⟩⟩, ⟨none, some ⟨.int "3", default⟩⟩]
  ⟨[.programUnit ⟨"p", [], [], [.var ⟨.integer none, [], [⟨"m", dims, none, default⟩], default⟩,
      .var ⟨.logical none, [], [⟨"k", dims, none, default⟩], default⟩],
    [.print [⟨.name "m", default⟩, ⟨.name "k", default⟩, ⟨.int "1", default⟩]], [], default⟩]⟩

/-- The matrix, the mask, and the number of a dimension. -/
def sampleArguments : List ActualArgument :=
  [⟨none, ⟨8⟩, default⟩, ⟨none, ⟨9⟩, default⟩, ⟨some "dim", ⟨10⟩, default⟩]

theorem resolveArray_shape_print : ∃ analysed id b slots expr overload operands,
    samplePrint.analyse (Session.unlowered {}) = .ok analysed ∧ (∀ arg ∈ sampleArguments,
      arg.value.index < analysed.arena.exprs.size) ∧ ArrayIntrinsic.sum ≠ .shape ∧
    resolveArray .sum sampleArguments default analysed.arena = .ok id b ∧ b.expr id = .ok expr ∧
    expr.kind = .arrayCall .sum overload operands ∧
    CallShape analysed.arena .sum sampleArguments slots overload operands expr.type := by
  have facts : (samplePrint.analyse (Session.unlowered {})).toOption.any (fun result =>
      decide (∀ arg ∈ sampleArguments, arg.value.index < result.arena.exprs.size) &&
        match resolveArray .sum sampleArguments default result.arena with
        | .ok _ _ => true
        | .error _ _ => false) = true := by decide +kernel
  cases ran : samplePrint.analyse (Session.unlowered {}) with
  | error failure =>
    rw [ran] at facts
    cases facts
  | ok analysed =>
    rw [ran] at facts
    obtain ⟨within, accepted⟩ := Bool.and_eq_true_iff.1 facts
    have lawful := Arena.lawful_empty.extend
      (fun _ _ loaded => by cases loaded) Session.start.lawful ran
    cases made : resolveArray .sum sampleArguments default analysed.arena with
    | error failure b =>
      rw [made] at accepted
      cases accepted
    | ok id b =>
      obtain ⟨slots, expr, overload, operands, shape⟩ :=
        resolveArray_shape lawful (of_decide_eq_true within) (by decide) made
      exact ⟨analysed, id, b, slots, expr, overload, operands, rfl,
        of_decide_eq_true within, by decide, made, shape⟩

end Intrinsic

end FortranSemantics
