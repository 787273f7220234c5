import FortranSemantics.Proofs.Lawful.Conversion

/-!
# Calls of scalar intrinsics in lawful arenas

The slots of a call hold expressions that are there, and as many of the first ones are filled as the
intrinsic needs. So no call of a scalar intrinsic misses an argument.
-/

namespace FortranSemantics

open List Edit

variable {α β : Type} {t : Terms} {a b : Arena} {start : Nat} {callee : SymbolId} {arg : ExprId}
  {ty : Ty} {op : String} {bound : BoundKind} {slots : List (Option ExprId)}
  {args : List ActualArgument} {ds : List String} {i least : Nat} {requirement : Requirement}
  {post : β → Arena → Prop} {next : Unit → Edit β} {position : Nat → ExprId → Edit Nat}
  {span : Span}

namespace Arena

/-- Whether the filled ones of some slots hold expressions that were made after the first `start`
ones. -/
def SlotsSince (arena : Arena) (start : Nat) (slots : List (Option ExprId)) : Prop :=
  ∀ arg, some arg ∈ slots → arena.Since start arg

theorem Precedes.slotsSince (pre : a.Precedes b) (since : a.SlotsSince start slots) :
    b.SlotsSince start slots :=
  fun arg mem => pre.since (since arg mem)

/-- Whether the arguments of a call are expressions that were made after the first `start` ones. -/
def ArgsSince (arena : Arena) (start : Nat) (args : List ActualArgument) : Prop :=
  ∀ arg ∈ args, arena.Since start arg.value

theorem Precedes.argsSince (pre : a.Precedes b) (since : a.ArgsSince start args) :
    b.ArgsSince start args :=
  fun arg mem => pre.since (since arg mem)

end Arena

namespace Intrinsic

/-- Whether the first slots are filled. -/
def Filled (slots : List (Option ExprId)) (least : Nat) : Prop :=
  ∀ i < least, ∃ arg, slots[i]? = some (some arg)

theorem Filled.weaken (filled : Filled slots least) (less : fewer ≤ least) : Filled slots fewer :=
  fun i bound => filled i (bound.trans_le less)

variable (ok : a.Lawful t)

include ok

/-! ## Demands -/

theorem wrongArgument_runs {post : α → Arena → Prop} (lt : arg.index < a.exprs.size) :
    Runs t.tolerated (wrongArgument op requirement arg : Edit α) a post := by
  obtain ⟨expr, h⟩ := Arena.exists_expr lt
  refine ask_bind h ?_
  exact typeName_bind ok (ok.expr h).type fun _ => .reject _ _

theorem demand_bind (lt : arg.index < a.exprs.size)
    (rest : holds = true → Runs t.tolerated (next ()) a post) :
    Runs t.tolerated (demand holds op requirement arg >>= next) a post := by
  unfold demand
  cases holds with
  | true => exact rest rfl
  | false => exact .bind (wrongArgument_runs ok lt) fun _ _ impossible => False.elim impossible

/-! ## Slots -/

/-- What holds of slots while arguments are placed. -/
structure Slots.Lawful (arena : Arena) (start count : Nat) (slots : Slots) : Prop where
  length : slots.filled.length = count
  since : arena.SlotsSince start slots.filled

omit ok in
theorem slotOf_quiet {slots : Slots} {arg : ActualArgument}
    (places : ∀ ordinal, Quiet t.tolerated (position ordinal arg.value) a fun _ => True) :
    Quiet t.tolerated (slotOf op ds position slots arg) a fun ans =>
    ans.2.filled = slots.filled := by
  unfold slotOf
  split
  · split
    · exact .pure rfl
    · exact .reject _ _
  · split
    · exact Runs.reject_bind
    · exact (places slots.positional).bind fun i _ => Quiet.pure rfl

omit ok in
theorem place_quiet {slots : Slots} {arg : ActualArgument} (law : slots.Lawful a start ds.length)
    (since : a.Since start arg.value)
    (places : ∀ ordinal, Quiet t.tolerated (position ordinal arg.value) a fun _ => True) :
    Quiet t.tolerated (place op ds position slots arg) a fun slots =>
    slots.Lawful a start ds.length := by
  refine (slotOf_quiet places).bind fun ⟨i, h⟩ same => ?_
  dsimp only at same ⊢
  have length : h.filled.length = ds.length := same ▸ law.length
  have held : a.SlotsSince start h.filled := same ▸ law.since
  split
  · exact .reject _ _
  · next dummy isDummy =>
    split
    · next missing =>
      have lt := (List.getElem?_eq_some_iff.1 isDummy).1
      have outside := List.getElem?_eq_none_iff.1 missing
      omega
    · exact Runs.reject _ _
    · refine Quiet.pure ⟨(length_set ..).trans length, fun o mem => ?_⟩
      rcases mem_or_eq_of_mem_set mem with old | new
      · exact held o old
      · cases new
        exact since

omit ok in
theorem filled_of_find? (length : slots.length = ds.length) (enough : least ≤ ds.length)
    (complete : ((ds.zip slots).take least).find? (fun slot => slot.2.isNone) = none) :
    Filled slots least := by
  intro i bound
  have inDummies : i < ds.length := bound.trans_le enough
  have inSlots : i < slots.length := length ▸ inDummies
  have mem : (ds[i], slots[i]) ∈ (ds.zip slots).take least := by
    refine mem_take_iff_getElem.2 ⟨i, ?_, ?_⟩
    · rw [length_zip, length]
      omega
    · exact getElem_zip
  have filled := find?_eq_none.1 complete _ mem
  rw [Bool.not_eq_true, Option.isNone_eq_false_iff, Option.isSome_iff_exists] at filled
  obtain ⟨arg, isArg⟩ := filled
  exact ⟨arg, List.getElem?_eq_some_iff.2 ⟨inSlots, isArg⟩⟩

omit ok in
/-- Placing all arguments fills the slots that must be filled. -/
theorem placeAll_quiet (enough : least ≤ ds.length) (since : a.ArgsSince start args)
    (places : ∀ ordinal, ∀ arg ∈ args, Quiet t.tolerated (position ordinal arg.value) a
      fun _ => True) :
    Quiet t.tolerated (placeAll op ds least position args span) a fun slots =>
      slots.length = ds.length ∧ a.SlotsSince start slots ∧ Filled slots least := by
  have empty : (⟨replicate ds.length none, 0, false⟩ : Slots).Lawful a start ds.length := by
    refine ⟨length_replicate, fun arg mem => ?_⟩
    cases (mem_replicate.1 mem).2
  have placed : Quiet t.tolerated (args.foldlM (place op ds position) _) a fun slots =>
      slots.Lawful a start ds.length :=
    Quiet.foldlM empty fun slots arg isArg law =>
      place_quiet law (since arg isArg) fun ordinal => places ordinal arg isArg
  refine placed.bind fun slots law => ?_
  split
  · exact Runs.reject _ _
  · next complete =>
      exact Quiet.pure ⟨law.length, law.since, filled_of_find? law.length enough complete⟩

omit ok in
theorem required_bind {next : ExprId → Edit β} (since : a.SlotsSince start slots)
    (filled : Filled slots least)
    (bound : i < least) (rest : ∀ arg, a.Since start arg → Runs t.tolerated (next arg) a post) :
    Runs t.tolerated (required slots i >>= next) a post := by
  obtain ⟨arg, isArg⟩ := filled i bound
  unfold required
  rw [isArg]
  exact rest arg (since arg (mem_of_getElem? isArg))

omit ok in
theorem slotAt_bind {next : Option ExprId → Edit β} (since : a.SlotsSince start slots)
    (bound : i < slots.length)
    (rest : ∀ slot, (∀ arg ∈ slot, a.Since start arg) → Runs t.tolerated (next slot) a post) :
    Runs t.tolerated (slotAt slots i >>= next) a post := by
  unfold slotAt
  rw [getElem?_eq_getElem bound]
  exact rest _ fun arg isArg => since arg (isArg ▸ getElem_mem bound)

omit ok in
theorem given_since (since : a.SlotsSince start slots) (isGiven : given slots i = some arg) :
    a.Since start arg :=
  since arg (mem_of_getElem? (Option.join_eq_some_iff.1 isGiven))

/-! ## Kinds -/

theorem kindArgument_quiet (since : a.SlotsSince start slots) :
    Quiet t.tolerated (kindArgument slots i op span) a fun _ => True := by
  unfold kindArgument
  split
  · exact .pure trivial
  · next arg isGiven =>
    have lt := (given_since since isGiven).2
    obtain ⟨v, q⟩ := ok.exists_integer? lt
    refine exprType_bind ok lt fun ty _ _ => Runs.guard fun _ => ask_bind q ?_
    split
    · exact Quiet.pure trivial
    · exact Runs.reject _ _

theorem chosenKind_quiet (since : a.SlotsSince start slots) :
    Quiet t.tolerated (chosenKind slots i op category absent span) a fun k => k ∈ category.kinds :=
  (kindArgument_quiet ok since).bind fun _ _ => checkKind_quiet

/-! ## Calls that become other expressions -/

section

variable {slots : List (Option ExprId)} {span : Span} (since : a.SlotsSince start slots)
  (filled : Filled slots 1)

include since filled

/-- The first argument, when its type is as it should be. -/
theorem demanded_bind {holds : Ty → Bool} {next : ExprId → Ty → Edit β}
    (rest : ∀ arg ty, a.Since start arg →
      a.LawfulType t ty → holds ty = true → Runs t.tolerated (next arg ty) a post) :
    Runs t.tolerated (do
      let arg ← required slots 0
      let ty ← ask (·.exprType arg)
      demand (holds ty) op requirement arg
      next arg ty) a post := by
  refine required_bind since filled Nat.one_pos fun arg isSince => ?_
  exact exprType_bind ok isSince.2 fun ty _ law => demand_bind ok isSince.2
    (rest arg ty isSince law)

theorem kindInquiry_makes : (kindInquiry slots span).Makes t start a := by
  refine required_bind since filled Nat.one_pos fun arg isSince => ?_
  refine exprType_bind ok isSince.2 fun ty _ _ => ?_
  split
  · exact addConstant_makes ok isSince.le (.ofPlain trivial (by decide))
  · exact wrongArgument_runs ok isSince.2

theorem tinyInquiry_makes : (tinyInquiry slots span).Makes t start a := by
  refine demanded_bind ok since filled fun arg ty isSince law isReal => ?_
  exact addConstant_makes ok isSince.le
    (.ofPlain trivial (law.element.supported.ofKind? (.inl isReal)))

theorem hugeInquiry_makes : (hugeInquiry slots span).Makes t start a := by
  refine required_bind since filled Nat.one_pos fun arg isSince => ?_
  refine exprType_bind ok isSince.2 fun ty _ law => ?_
  split
  · next isInteger => exact addConstant_makes ok isSince.le (isInteger ▸ law.element)
  · next isReal => exact addConstant_makes ok isSince.le (isReal ▸ law.element)
  · exact wrongArgument_runs ok isSince.2

/-- The conversion of a number to a type of the kind that was asked for. -/
theorem castTo_makes {absent : Ty → Nat} {build : Nat → Ty}
    (law : ∀ k ∈ category.kinds, a.LawfulType t (build k)) : Edit.Makes t start (do
      let arg ← required slots 0
      let ty ← ask (·.exprType arg)
      demand ty.isNumeric op .numericA arg
      let k ← chosenKind slots 1 op category (absent ty) span
      Conversion.insertCast arg (build k) span) a := by
  refine demanded_bind ok since filled fun arg ty isSince _ _ => ?_
  refine (chosenKind_quiet ok since).bind fun k isKind => ?_
  exact Conversion.insertCast_makes ok isSince (law k isKind)

theorem toReal_makes : (toReal slots span).Makes t start a :=
  castTo_makes ok since filled fun _ isKind => .ofPlain trivial isKind

theorem toInteger_makes : (toInteger slots span).Makes t start a :=
  castTo_makes ok since filled fun _ isKind => .ofPlain trivial isKind

theorem toDouble_makes : (toDouble slots span).Makes t start a := by
  refine demanded_bind ok since filled fun arg ty isSince _ _ => ?_
  exact Conversion.insertCast_makes ok isSince (.ofPlain trivial (by decide))

theorem arrayArgument_bind {next : ExprId × Ty → Edit β} (rest : ∀ array ty, a.Since start array →
      a.LawfulType t ty → Runs t.tolerated (next (array, ty)) a post) :
    Runs t.tolerated (arrayArgument op slots >>= next) a post := by
  have quiet : Quiet t.tolerated (arrayArgument op slots) a fun ans =>
      a.Since start ans.1 ∧ a.LawfulType t ans.2 := by
    exact demanded_bind ok since filled fun array ty isSince law _ => Quiet.pure ⟨isSince, law⟩
  exact quiet.bind fun ans ⟨isSince, law⟩ => rest ans.1 ans.2 isSince law

end

theorem addCall_makes (room : start ≤ a.exprs.size) (since : a.SlotsSince start slots)
    (law : a.LawfulType t ty) (constants : ∀ id ∈ v, a.IsConstant id) :
    (addCall callee slots ty v span).Makes t start a := by
  refine addExpr_makes ok room ⟨fun child mem => ?_, law, constants, trivial⟩
  have isSlot : some child ∈ slots := by simpa [ExprKind.children] using mem
  exact (since child isSlot).usable

theorem lengthInquiry_makes (since : a.SlotsSince start slots) (filled : Filled slots 1) :
    (lengthInquiry callee slots span).Makes t start a := by
  refine demanded_bind ok since filled fun arg ty isSince _ _ => ?_
  split
  · exact addConstant_makes ok isSince.le (.ofPlain trivial (by decide))
  · exact addCall_makes ok isSince.le since (.ofPlain trivial (by decide)) nofun

theorem checkDim_bind (since : ∀ arg ∈ dim, a.Since start arg)
    (rest : Runs t.tolerated (next ()) a post) :
    Runs t.tolerated (checkDim op dim rank >>= next) a post := by
  have quiet : Quiet t.tolerated (checkDim op dim rank) a fun _ => True := by
    cases dim with
    | none => exact .pure trivial
    | some dim =>
      have lt := (since dim rfl).2
      obtain ⟨v, q⟩ := ok.exists_integer? lt
      obtain ⟨expr, h⟩ := Arena.exists_expr lt
      refine exprType_bind ok lt fun ty _ _ => demand_bind ok lt fun _ => ?_
      refine ask_bind q ?_
      cases v with
      | none => exact Quiet.pure trivial
      | some v =>
        dsimp only
        split
        · exact ask_bind h (Runs.reject _ _)
        · exact Quiet.pure trivial
  exact quiet.bind fun _ _ => rest

theorem exists_lengths (law : a.LawfulType t ty) :
    ∃ lengths, ty.dims.mapM (fun dim => a.optionalInteger? dim.length) = .ok lengths := by
  refine exists_answers fun dim mem => ?_
  refine ok.exists_optionalInteger? fun id held => law.dims dim mem id ?_
  exact mem_append_right _ (Option.mem_toList.2 held)

theorem sizeInquiry_makes (since : a.SlotsSince start slots) (filled : Filled slots 1)
    (length : slots.length = 3) : (sizeInquiry slots span).Makes t start a := by
  refine arrayArgument_bind ok since filled fun array ty isSince law => ?_
  refine slotAt_bind since (by omega) fun dim dimSince => ?_
  refine checkDim_bind ok dimSince ?_
  refine (chosenKind_quiet ok since).bind fun k isKind => ?_
  obtain ⟨lengths, q⟩ := exists_lengths ok law
  refine ask_bind q ?_
  have kept : ∀ known : Option Int, Edit.Makes t start (do
      let v ← addConstant? ((known.filter (Number.fitsInteger k)).map .integer) (.integer k) span
      addExpr (.arraySize array dim) (.integer k) v span) a := by
    intro known
    refine .bind (addConstant?_works ok (.ofPlain trivial isKind)) fun v next led constants => ?_
    have pre := led.before
    refine addExpr_makes led.lawful (pre.since isSince).le
      ⟨fun child mem => ?_, .ofPlain trivial isKind, constants, trivial⟩
    rcases mem_cons.1 mem with rfl | mem
    · exact (pre.since isSince).usable
    · exact (pre.since (dimSince child (Option.mem_toList.1 mem))).usable
  cases dim with
  | none => exact kept _
  | some dim =>
    obtain ⟨chosen, askedDim⟩ := ok.exists_integer? (dimSince dim rfl).2
    exact ask_bind askedDim (kept _)

theorem exists_knownBound? (law : a.LawfulDimension dim) :
    ∃ ans, knownBound? a bound dim = .ok ans := by
  obtain ⟨start, q⟩ := ok.exists_optionalInteger? fun id held =>
    law id (mem_append_left _ (Option.mem_toList.2 held))
  obtain ⟨length, askedToo⟩ := ok.exists_optionalInteger? fun id held =>
    law id (mem_append_right _ (Option.mem_toList.2 held))
  unfold knownBound?
  simp only [q, askedToo, bind, Except.bind]
  cases start with
  | none => exact ⟨none, rfl⟩
  | some start =>
    cases bound with
    | lower => exact ⟨some start, rfl⟩
    | upper => cases length <;> exact ⟨_, rfl⟩

/-- A bound of an array in the dimension that is chosen. -/
theorem boundNode_makes (isSince : a.Since start array) (dimSince : a.Since start dim)
    (law : a.LawfulType t ty) : Edit.Makes t start (do
      let known ← ask fun a => do
        match ← a.integer? dim with
        | none => return none
        | some number =>
          match ty.dims[number.toNat - 1]? with
          | none => return none
          | some dimension => knownBound? a bound dimension
      let v ← addConstant? ((known.filter (Number.fitsInteger 4)).map .integer) (.integer 4) span
      addExpr (.arrayBound array dim bound) (.integer 4) v span) a := by
  have answered : ∃ known, (do
      match ← a.integer? dim with
      | none => return none
      | some number =>
        match ty.dims[number.toNat - 1]? with
        | none => return none
        | some dimension =>
          knownBound? a bound dimension : Except Breach (Option Int)) = .ok known := by
    obtain ⟨number, q⟩ := ok.exists_integer? dimSince.2
    simp only [q, bind, Except.bind]
    cases number with
    | none => exact ⟨none, rfl⟩
    | some number =>
      dsimp only
      split
      · exact ⟨none, rfl⟩
      · next dimension isDim =>
        exact exists_knownBound? ok (law.dims dimension (mem_of_getElem? isDim))
  obtain ⟨known, q⟩ := answered
  refine ask_bind q ?_
  refine Yields.bind (addConstant?_works ok .integer) fun v next led constants => ?_
  have pre := led.before
  exact addExpr_makes led.lawful (pre.since isSince).le
    ⟨forall_mem_pair (pre.since isSince).usable (pre.since dimSince).usable, .integer,
      constants, trivial⟩

theorem boundInquiry_makes (since : a.SlotsSince start slots) (filled : Filled slots 1)
    (length : slots.length = 2) : (boundInquiry bound op slots span).Makes t start a := by
  refine arrayArgument_bind ok since filled fun array ty isSince law => ?_
  refine slotAt_bind since (by omega) fun slot slotSince => ?_
  refine checkDim_bind ok slotSince ?_
  cases slot with
  | some dim => exact boundNode_makes ok isSince (slotSince dim rfl) law
  | none =>
    dsimp only
    split
    · refine Yields.bind (addInteger_works ok isSince.le) fun dim next led made => ?_
      have pre := led.before
      exact boundNode_makes led.lawful (pre.since isSince) made.1 (pre.lawfulType law)
    · exact Runs.reject_bind

/-! ## Calls that stay calls -/

/-- The type to which all arguments are converted. -/
theorem promotedType_quiet {args : List ExprId} {first : Ty} (lt : ∀ arg ∈ args, a.Since start arg)
    (single : first.IsElement) (law : a.LawfulType t first) :
    Quiet t.tolerated (args.foldlM (fun (common : Ty) arg => do
      let ty ← ask (·.exprType arg)
      demand (ty.isScalar && (ty.isInteger || ty.isReal)) op .orderedScalars arg
      let category : TypeCategory ← ty.category
      if category ≠ (← common.category) then violated op .mixedCategories span
      return ((Conversion.common? .arithmetic common ty).map (·.1)).getD common) first : Edit Ty) a
      fun common => common.IsElement ∧ a.LawfulType t common := by
  refine Quiet.foldlM ⟨single, law⟩ fun common arg mem ⟨isSingle, isLawful⟩ => ?_
  have argInRange := (lt arg mem).2
  refine exprType_bind ok argInRange fun ty _ typeLaw => demand_bind ok argInRange fun _ => ?_
  obtain ⟨category, q⟩ := typeLaw.flat.exists_category
  obtain ⟨o, askedToo⟩ := isSingle.flat.exists_category
  refine Runs.bind_ok (run_question_eq_ok.2 ⟨q, rfl⟩) ?_
  refine Runs.bind_ok (run_question_eq_ok.2 ⟨askedToo, rfl⟩) (Runs.guard fun _ => ?_)
  cases meet : Conversion.common? .arithmetic common ty with
  | none => exact Quiet.pure ⟨isSingle, isLawful⟩
  | some ans =>
    obtain ⟨meets, plain⟩ := Conversion.common?_meets isSingle.flat typeLaw.flat meet
    have plain := plain (.inl rfl)
    exact Quiet.pure ⟨plain.isElement,
      .ofPlain plain (meets.supported plain isLawful.supported typeLaw.supported)⟩

section

variable (since : a.SlotsSince start slots)

include since

theorem castAll_works (law : a.LawfulType t common) :
    Yields t.tolerated (Arena.Leads t) (slots.mapM fun
      | none => pure none
      | some arg => some <$> Conversion.insertCast arg common span) a fun promoted next =>
      List.Forall₂ (fun _ slot => ∀ arg ∈ slot, next.Since start arg) slots promoted := by
  refine Yields.mapM ok.leads ?_ fun slot isSlot mid led => ?_
  · exact fun _ slot pre after led held arg isArg => led.before.since (held arg isArg)
  · cases slot with
    | none => exact .pure led.lawful.leads (by simp)
    | some arg =>
      have made : (Conversion.insertCast arg common span).Makes t start mid :=
        Conversion.insertCast_makes led.lawful (led.before.since (since arg isSlot))
          (led.before.lawfulType law)
      refine .map (made.mono fun id next _ isSince o isOther => ?_)
      cases isOther
      exact isSince

theorem promoteAll_works (filled : Filled slots 1) : (promoteAll op slots span).Works t a
    fun ans next =>
      next.LawfulType t ans.1 ∧ next.SlotsSince start ans.2 := by
  refine required_bind since filled Nat.one_pos fun first firstSince => ?_
  refine exprType_bind ok firstSince.2 fun ty _ law => ?_
  have lt : ∀ arg ∈ slots.filterMap fun slot => slot, a.Since start arg := by
    intro arg mem
    obtain ⟨slot, isSlot, isArg⟩ := mem_filterMap.1 mem
    exact since arg (isArg ▸ isSlot)
  refine Quiet.bind (promotedType_quiet ok lt law.flat.element law.element)
    fun common ⟨_, commonLaw⟩ => ?_
  refine Yields.bind (castAll_works ok since commonLaw) fun promoted next led each => ?_
  refine Yields.pure led.lawful.leads ⟨led.before.lawfulType commonLaw, fun arg mem => ?_⟩
  obtain ⟨slot, -, held⟩ := exists_of_mem_right each mem
  exact held arg rfl

theorem callType_works {op : ScalarIntrinsic} (filled : Filled slots op.leastArguments) :
    (callType op slots span).Works t a fun ans next => next.LawfulType t ans.1 ∧
    next.SlotsSince start ans.2 := by
  have kept {ty : Ty} (law : a.LawfulType t ty) :
      (pure (ty, slots) : Edit (Ty × List (Option ExprId))).Works t a fun ans next =>
        next.LawfulType t ans.1 ∧ next.SlotsSince start ans.2 :=
    Yields.pure ok.leads ⟨law, since⟩
  have reals {ty : Ty} {k : Nat} (law : a.LawfulType t ty) (isKind : (Ty.real k).Supported) :
      a.LawfulType t (ty.withElement (.real k)) := law.withElement trivial (.ofPlain trivial isKind)
  unfold callType
  split
  · refine required_bind since filled (by decide) fun arg isSince => ?_
    refine exprType_bind ok isSince.2 fun ty _ _ => demand_bind ok isSince.2 fun _ => ?_
    exact kept .integer
  · refine Runs.guard fun _ => ?_
    refine Yields.bind (Yields.forIn ok.leads fun arg mem mid led => ?_) fun _ next led _ => ?_
    · obtain ⟨slot, isSlot, isArg⟩ := mem_filterMap.1 mem
      have isSince := led.before.since (since arg (isArg ▸ isSlot))
      refine exprType_bind led.lawful isSince.2 fun ty _ _ => ?_
      exact demand_bind led.lawful isSince.2 fun _ => Yields.pure led.lawful.leads rfl
    · exact Yields.pure led.lawful.leads ⟨.integer, led.before.slotsSince since⟩
  · refine required_bind since filled (by decide) fun arg isSince => ?_
    refine exprType_bind ok isSince.2 fun ty _ law => demand_bind ok isSince.2 fun _ => ?_
    split
    · next k isComplex =>
        exact kept (reals law (isComplex ▸ law.element.supported : (Ty.complex k).Supported))
    · exact kept law
  · refine required_bind since filled (by decide) fun arg isSince => ?_
    refine exprType_bind ok isSince.2 fun ty _ law => demand_bind ok isSince.2 fun isComplex => ?_
    exact kept (reals law (law.supported.ofKind? (.inr isComplex)))
  · exact promoteAll_works ok since (filled.weaken (by decide))
  · exact promoteAll_works ok since (filled.weaken (by decide))
  · exact promoteAll_works ok since (filled.weaken (by decide))
  · refine required_bind since filled (by decide) fun arg isSince => ?_
    refine exprType_bind ok isSince.2 fun ty _ law => demand_bind ok isSince.2 fun _ => ?_
    refine (chosenKind_quiet ok since).bind fun k isKind => ?_
    exact kept (law.withElement trivial (.ofPlain trivial isKind))
  · next _ notRealKind _ _ _ _ _ _ =>
    have bound : 0 < op.leastArguments := by
      cases op <;> first | decide | exact absurd rfl notRealKind
    refine required_bind since filled bound fun arg isSince => ?_
    refine exprType_bind ok isSince.2 fun ty _ law => demand_bind ok isSince.2 fun _ => ?_
    exact kept law

theorem exists_slotConstants? : ∃ ans, slotConstants? a slots = .ok ans := by
  induction slots with
  | nil => exact ⟨_, rfl⟩
  | cons slot rest ih =>
    obtain ⟨others, q⟩ := ih fun arg mem => since arg (.tail _ mem)
    cases slot with
    | none =>
      simp only [slotConstants?, q, bind, Except.bind, pure, Except.pure]
      exact ⟨_, rfl⟩
    | some arg =>
      obtain ⟨v, valued⟩ := ok.exists_constant? (since arg (.head _)).2
      simp only [slotConstants?, valued, q, bind, Except.bind, Functor.map, Except.map]
      cases v <;> exact ⟨_, rfl⟩

end

theorem keepCall_makes {op : ScalarIntrinsic} (room : start ≤ a.exprs.size)
    (since : a.SlotsSince start slots) (filled : Filled slots op.leastArguments) :
    (keepCall op callee slots span).Makes t start a := by
  refine .bind (callType_works ok since filled) fun ans mid led ⟨law, held⟩ => ?_
  obtain ⟨constants, q⟩ := exists_slotConstants? led.lawful held
  refine ask_bind q ?_
  refine Yields.bind (addConstant?_works led.lawful law) fun v next more constants => ?_
  have pre := more.before
  have enough := room.trans (led.before.exprs_le.trans pre.exprs_le)
  exact addCall_makes more.lawful enough (pre.slotsSince held) (pre.lawfulType law) constants

/-! ## Any scalar intrinsic -/

omit ok in
theorem scalarSlots_quiet {op : ScalarIntrinsic} (since : a.ArgsSince start args) :
    Quiet t.tolerated (scalarSlots op args span) a fun slots =>
      (op.isVariadic = false → slots.length = op.dummies.length) ∧
        a.SlotsSince start slots ∧ Filled slots op.leastArguments := by
  unfold scalarSlots
  split
  · next variadic =>
    have positional : Quiet t.tolerated (do
        if args.length < op.leastArguments then
          violated op.name (.tooFewArguments op.leastArguments) span
        return args.map fun arg => some arg.value) a fun slots =>
          (op.isVariadic = false → slots.length = op.dummies.length) ∧
            a.SlotsSince start slots ∧ Filled slots op.leastArguments := by
      refine Runs.guard fun enough =>
        Quiet.pure ⟨fun isNot => ?_, fun arg mem => ?_, fun i bound => ?_⟩
      · cases variadic.symm.trans isNot
      · obtain ⟨actual, isActual, same⟩ := mem_map.1 mem
        cases same
        exact since actual isActual
      · have lt : i < args.length := bound.trans_le (Nat.le_of_not_lt enough)
        exact ⟨args[i].value, by rw [getElem?_map, getElem?_eq_getElem lt]; rfl⟩
    dsimp only
    split
    · exact Runs.reject_bind
    · exact positional
  · refine (placeAll_quiet ?_ since fun _ _ _ => .pure trivial).mono fun slots _ ⟨same, held⟩ => ?_
    · next positional =>
      cases op <;> first | decide | exact absurd rfl positional
    · exact ⟨same, fun _ => held.1, held.2⟩

/-- The call of a scalar intrinsic becomes an expression. -/
theorem resolveScalar_makes (room : start ≤ a.exprs.size) (since : a.ArgsSince start args) :
    (resolveScalar n callee args span).Makes t start a := by
  unfold resolveScalar
  split
  · exact .reject _ _
  · next op _ =>
    refine (scalarSlots_quiet since).bind fun slots ⟨length, held, filled⟩ => ?_
    split
    · exact kindInquiry_makes ok held filled
    · exact tinyInquiry_makes ok held filled
    · exact hugeInquiry_makes ok held filled
    · exact toReal_makes ok held filled
    · exact toInteger_makes ok held filled
    · exact toDouble_makes ok held filled
    · exact lengthInquiry_makes ok held filled
    · exact sizeInquiry_makes ok held filled (length rfl)
    · exact boundInquiry_makes ok held filled (length rfl)
    · exact boundInquiry_makes ok held filled (length rfl)
    · exact keepCall_makes ok room held filled

end Intrinsic

end FortranSemantics
