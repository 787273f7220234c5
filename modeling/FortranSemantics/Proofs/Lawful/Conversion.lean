import FortranSemantics.Proofs.Lawful.Copy

/-!
# Conversions and intrinsic operations

A conversion gives an expression the wanted elements and keeps its rank. After the conversion of one
operand the operands of an operation have the same elements, and the operation has the elements and
the rank that they give.
-/

namespace FortranSemantics

open Edit

variable {t : Terms} {a : Arena} {start : Nat}
  {common left right source target type el leftType rightType : Ty} {span : Span}
  {side : ConversionSide} {priority : Nat × Nat} {expr : ExprId}
  {fold : Constant → Constant → Option Constant}

namespace Conversion

/-! ## Common elements -/

theorem castKind?_congr (same : target.element = o.element) :
    castKind? source target = castKind? source o := by
  unfold castKind?
  rw [same]

theorem isPlain_of_castKind? (converts : castKind? source target = some k) :
    target.element.IsPlain := by
  unfold castKind? at converts
  revert converts
  cases source.element <;> cases target.element <;> intro converts <;> trivial

theorem elementsEqual_plain (plain : right.IsPlain)
    (equal : a.elementsEqual left right = .ok true) : left = right := by
  cases right <;> cases plain
  all_goals
    cases left <;> first | cases equal | skip
    all_goals
      have same := of_decide_eq_true (Except.ok.inj equal)
      rw [same]

theorem isPlain_of_priority? (has : priority? type = some priority) : type.element.IsPlain := by
  unfold priority? at has
  revert has
  cases type.element <;> intro has <;> trivial

theorem element_eq_of_priority? (has : priority? left = some priority)
    (hasToo : priority? right = some priority) : left.element = right.element := by
  unfold priority? at has hasToo
  revert has hasToo
  cases left.element <;> intro has <;> cases has <;> cases right.element <;> intro hasToo <;>
    cases hasToo <;> rfl

theorem priority?_element (flat : type.Flat) : priority? type.element = priority? type := by
  unfold priority?
  rw [flat.element.element]

/-- Whether the elements of two types meet after one side was converted: they are plain and the
same, or strings of one kind. -/
def Meets (left right common : Ty) (side : ConversionSide) : Prop :=
  (common.IsPlain ∧ (side ≠ .left → left.element = common) ∧
    (side ≠ .right → right.element = common)) ∨ (side = .none ∧ left.Agree right ∧ ¬ common.IsPlain)

theorem Meets.supported (meets : Meets left right common side) (plain : common.IsPlain)
    (ofLeft : left.Supported) (ofRight : right.Supported) : common.Supported := by
  rcases meets with ⟨-, isLeft, isRight⟩ | ⟨-, -, notPlain⟩
  · by_cases isSide : side = .left
    · exact isRight (isSide ▸ by decide) ▸ right.supported_element.2 ofRight
    · exact isLeft isSide ▸ left.supported_element.2 ofLeft
  · exact absurd plain notPlain

/-- Numbers meet in the elements of higher priority. -/
theorem meets_numbers (hasFirst : priority? left = some first)
    (hasSecond : priority? right = some second)
    (h : (if first = second then some (left.element, ConversionSide.none)
      else
      if above first second then some (left.element, .right) else some (right.element, .left)) =
        some (common, side)) : Meets left right common side ∧ common.IsPlain := by
  have leftPlain := isPlain_of_priority? hasFirst
  have rightPlain := isPlain_of_priority? hasSecond
  split at h
  · next same =>
    cases h
    have equal := element_eq_of_priority? hasFirst (same ▸ hasSecond)
    exact ⟨.inl ⟨leftPlain, fun _ => rfl, fun _ => equal.symm⟩, leftPlain⟩
  · split at h
    · cases h
      exact ⟨.inl ⟨leftPlain, fun _ => rfl, fun o => absurd rfl o⟩, leftPlain⟩
    · cases h
      exact ⟨.inl ⟨rightPlain, fun o => absurd rfl o, fun _ => rfl⟩, rightPlain⟩

theorem meets_texts (isLeft : left.element = .character k leftLength leftExpr)
    (isRight : right.element = .character k rightLength rightExpr) :
    Meets left right left.element .none := by
  refine .inr ⟨rfl, .inr ⟨k, _, _, _, _, isLeft, isRight⟩, ?_⟩
  rw [isLeft]
  exact id

theorem meets_logicals (h : (match left.element, right.element with
      | .logical leftKind, .logical rightKind =>
        if leftKind = rightKind then some (left.element, ConversionSide.none)
        else
          if rightKind < leftKind then some (left.element, .right) else some (right.element, .left)
      | _, _ => none) = some (common, side)) : Meets left right common side ∧ common.IsPlain := by
  split at h
  · next leftKind rightKind isLeft isRight =>
    rw [isLeft, isRight] at h
    unfold Meets
    rw [isLeft, isRight]
    split at h
    · next same =>
      cases h
      exact ⟨.inl ⟨trivial, fun _ => rfl, fun _ => same ▸ rfl⟩, trivial⟩
    · split at h
      · cases h
        exact ⟨.inl ⟨trivial, fun _ => rfl, fun o => absurd rfl o⟩, trivial⟩
      · cases h
        exact ⟨.inl ⟨trivial, fun o => absurd rfl o, fun _ => rfl⟩, trivial⟩
  · cases h

/-- The common elements of two types meet, and are plain unless strings are compared or put
together. -/
theorem common?_meets (leftFlat : left.Flat) (rightFlat : right.Flat)
    (h : common? family left right = some (common, side)) : Meets left right common side ∧
      (family = .arithmetic ∨ family = .logical → common.IsPlain) := by
  unfold common? at h
  simp only [priority?_element leftFlat, priority?_element rightFlat] at h
  cases family with
  | logical => exact (meets_logicals h).imp_right fun plain _ => plain
  | concatenation =>
    simp only at h
    split at h
    · next isLeft isRight =>
      split at h
      · next same =>
        cases h
        exact ⟨meets_texts isLeft (same ▸ isRight), fun isOther => by simp at isOther⟩
      · cases h
    · cases h
  | arithmetic =>
    simp only at h
    split at h
    · next hasFirst hasSecond => exact (meets_numbers hasFirst hasSecond h).imp_right fun plain _ =>
        plain
    · split at h <;> simp at h
  | comparison =>
    simp only at h
    split at h
    · next hasFirst hasSecond => exact (meets_numbers hasFirst hasSecond h).imp_right fun plain _ =>
        plain
    · split at h
      · next isLeft isRight =>
        split at h
        · next same =>
          cases h
          exact ⟨meets_texts isLeft (same.2 ▸ isRight), fun isOther => by simp at isOther⟩
        · cases h
      · cases h

theorem isCharacter_of_common? (h : (common? .concatenation left right).isSome = true) :
    left.isCharacter = true := by
  simp only [common?] at h
  unfold Ty.isCharacter
  split at h
  · next isLeft _ => rw [isLeft]
  · cases h

/-! ## Conversions -/

section

variable (ok : a.Lawful t)

include ok

/-- Converting an expression keeps its rank and gives it the wanted elements. -/
theorem insertCast_works (since : a.Since start expr) (has : a.HasType expr source)
    (law : a.LawfulType t target) :
    (insertCast expr target span).Works t a fun id next => next.Since start id ∧
      ∃ type, next.HasType id type ∧ type.rank = source.rank ∧
        (target.element.IsPlain → type.element = target.element) := by
  have sourceLaw := ok.lawfulType has
  obtain ⟨equal, compared⟩ := ok.exists_elementsEqual sourceLaw.element law.element
  obtain ⟨constant, valued⟩ := ok.exists_constant? since.2
  unfold insertCast
  refine ask_bind (Arena.exprType_eq_ok.2 has) (ask_bind compared ?_)
  cases equal with
  | true =>
    refine Yields.pure ok.leads ⟨since, source, has, rfl, fun plain => ?_⟩
    exact elementsEqual_plain plain compared
  | false =>
    simp only [Bool.false_eq_true, if_false]
    cases converts : castKind? source target with
    | none =>
      refine typeName_bind ok sourceLaw.element fun _ => ?_
      exact typeName_bind ok law.element fun _ => .reject _ _
    | some cast =>
      have plain := isPlain_of_castKind? converts
      have single := law.flat.element
      have typeLaw := sourceLaw.withElement single law.element
      refine ask_bind valued ?_
      refine Yields.bind (addConstant?_works ok typeLaw) fun value mid led constants => ?_
      have el := Ty.element_withElement single source
      have rank := Ty.rank_withElement single source
      have new : mid.NewExpr t ⟨.cast expr cast, source.withElement target.element,
          value, span⟩ := {
        children := List.forall_mem_singleton.2 (led.before.since since).usable
        type := led.before.lawfulType typeLaw
        value := constants
        form := ⟨source, led.before.hasType has, (castKind?_congr el).trans converts, rank⟩ }
      refine (addExpr_works led.lawful (led.before.since since).le new).mono
        fun id next more ⟨made, h⟩ => ?_
      exact ⟨made, _, ⟨_, h, rfl⟩, rank, fun _ => el⟩

theorem insertCast_makes (since : a.Since start expr) (law : a.LawfulType t target) :
    (insertCast expr target span).Makes t start a := by
  obtain ⟨type, -, has, -⟩ := ok.exists_type since.2
  exact (insertCast_works ok since has law).mono fun _ _ _ made => made.1

/-- A value that is converted for an assignment has elements that the target takes, and a rank that
goes with it. -/
theorem forAssignment_works (since : a.Since start v) (law : a.LawfulType t target) :
    (forAssignment v target span).Works t a fun ans next => next.Since start ans.1 ∧
      ∃ type, next.HasType ans.1 type ∧ (type.rank = 0 ∨ type.rank = target.rank) ∧
        next.Takes target.element type.element := by
  unfold forAssignment
  refine exprType_bind ok since.2 fun type has typeLaw => .guard fun allowed => ?_
  have single := law.flat.element
  have ranks : type.rank = 0 ∨ type.rank = target.rank := by omega
  have converted {ans : Bool} (plain : target.element.IsPlain) : Edit.Works t
      (do return (← insertCast v target.element span, ans)) a
      fun ans next => next.Since start ans.1 ∧ ∃ type, next.HasType ans.1 type ∧
        (type.rank = 0 ∨ type.rank = target.rank) ∧ next.Takes target.element type.element := by
    refine .bind (insertCast_works ok since has law.element) fun _ _ led ⟨made, held, hasHeld, rank,
      same⟩ => ?_
    rw [single.element] at same
    exact .pure (Progress.arrive led) ⟨made, held, hasHeld, rank ▸ ranks, .inl (same plain)⟩
  have checked {compatible : Bool}
      (takes : compatible = true → a.Takes target.element type.element) : Edit.Works t (do
        if !compatible then
          let sourceName ← ask (·.typeName type.element)
          let targetName ← ask (·.typeName target.element)
          reject (.assignmentType sourceName targetName) span
        return (v, false)) a fun ans next => next.Since start ans.1 ∧
          ∃ type, next.HasType ans.1 type ∧ (type.rank = 0 ∨ type.rank = target.rank) ∧
            next.Takes target.element type.element := by
    cases compatible with
    | true => exact .pure ok.leads ⟨since, type, has, ranks, takes rfl⟩
    | false =>
      refine typeName_bind ok typeLaw.element fun _ => ?_
      exact typeName_bind ok law.element fun _ => Runs.reject_bind
  dsimp only
  split
  · next prior =>
    have plain := isPlain_of_priority? prior
    exact converted (single.element ▸ plain)
  · split
    · next isLogical => exact converted (isLogical ▸ trivial)
    · split
      · next isSource isTarget =>
        exact checked fun same =>
          Or.inr (.inl ⟨_, _, _, _, _, isTarget, by rw [isSource, beq_iff_eq.1 same]⟩)
      · have targetLaw := law.withElement single law.element
        have sourceLaw := law.withElement typeLaw.flat.element typeLaw.element
        obtain ⟨compatible, q⟩ := ok.exists_argumentCompatible targetLaw sourceLaw
        refine ask_bind q (checked fun accepted => Or.inr (.inr ?_))
        -- whether a value is accepted depends on the elements, the shapes being the same
        rw [accepted] at q
        unfold Arena.argumentCompatible at q ⊢
        rw [Ty.rank_withElement single, Ty.rank_withElement typeLaw.flat.element, if_pos rfl,
          Ty.element_withElement single, Ty.element_withElement typeLaw.flat.element] at q
        rwa [single.rank, typeLaw.flat.element.rank, if_pos rfl, single.element,
          typeLaw.flat.element.element]

end

end Conversion

/-! ## Intrinsic operations -/

namespace Expression

variable (ok : a.Lawful t)

include ok

omit ok in
/-- The type of an operation has the rank that the operands give. -/
theorem resultShape_quiet (leftLaw : a.LawfulType t left) (rightLaw : a.LawfulType t right)
    (plain : el.IsPlain) (supported : el.Supported) :
    Quiet t.tolerated (resultShape left right el span) a fun type =>
      a.LawfulType t type ∧ type.element = el ∧ left.Conforms right type := by
  have single := plain.isElement
  have shaped {type : Ty} (law : a.LawfulType t type) :
      a.LawfulType t (type.withElement el) := law.withElement single (.ofPlain plain supported)
  unfold resultShape
  split
  · next ranks =>
    refine .pure ⟨.ofPlain plain supported, single.element, fun notZero =>
      absurd ranks.1 notZero, ?_⟩
    rw [single.rank, ranks.1, ranks.2]
    rfl
  · split
    · next rank =>
      refine .pure ⟨shaped leftLaw, Ty.element_withElement single left, fun _ notZero =>
        absurd rank notZero, ?_⟩
      rw [Ty.rank_withElement single, rank, Nat.max_zero]
    · split
      · next rank =>
        refine .pure ⟨shaped rightLaw, Ty.element_withElement single right, fun notZero =>
          absurd rank notZero, ?_⟩
        rw [Ty.rank_withElement single, rank, Nat.zero_max]
      · split
        · next same =>
          refine .pure ⟨shaped leftLaw, Ty.element_withElement single left, fun _ _ => same, ?_⟩
          rw [Ty.rank_withElement single, same, Nat.max_self]
        · exact .reject _ _

/-- Converting one of the operands lets them agree and keeps their ranks. -/
theorem convertSide_works {left right : ExprId} (leftSince : a.Since start left)
    (rightSince : a.Since start right) (hasLeft : a.HasType left leftType)
    (hasRight : a.HasType right rightType)
    (meets : Conversion.Meets leftType rightType common side) :
    (convertSide left right common side span).Works t a fun pair next =>
      next.Since start pair.1 ∧ next.Since start pair.2 ∧ ∃ first second,
        next.HasType pair.1 first ∧
        next.HasType pair.2 second ∧ first.rank = leftType.rank ∧ second.rank = rightType.rank ∧
        first.Agree second ∧ (common.IsPlain → first.element = common ∧
          second.element = common) := by
  have supported (plain : common.IsPlain) := Conversion.Meets.supported meets plain
    (ok.lawfulType hasLeft).supported (ok.lawfulType hasRight).supported
  rcases meets with ⟨plain, isLeft, isRight⟩ | ⟨rfl, agree, notPlain⟩
  · have law : a.LawfulType t common := .ofPlain plain (supported plain)
    have isCommon := plain.isElement.element
    cases side with
    | none =>
      have leftElement := isLeft (by decide)
      have rightElement := isRight (by decide)
      refine .pure ok.leads ⟨leftSince, rightSince, leftType, rightType, hasLeft,
        hasRight, rfl, rfl,
        .inl ⟨leftElement ▸ plain, rightElement.trans leftElement.symm⟩, fun _ =>
        ⟨leftElement, rightElement⟩⟩
    | left =>
      have rightElement := isRight (by decide)
      refine .bind (Conversion.insertCast_works ok leftSince hasLeft law)
        fun id next led ⟨since, type, has, rank, elements⟩ => ?_
      have el := (elements (isCommon.symm ▸ plain)).trans isCommon
      refine .pure (Progress.arrive led) ⟨since, led.before.since rightSince, type, rightType, has,
        led.before.hasType hasRight, rank, rfl, .inl ⟨el ▸ plain, rightElement.trans el.symm⟩,
        fun _ => ⟨el, rightElement⟩⟩
    | right =>
      have leftElement := isLeft (by decide)
      refine .bind (Conversion.insertCast_works ok rightSince hasRight law)
        fun id next led ⟨since, type, has, rank, elements⟩ => ?_
      have el := (elements (isCommon.symm ▸ plain)).trans isCommon
      refine .pure (Progress.arrive led) ⟨led.before.since leftSince, since, leftType, type,
        led.before.hasType hasLeft, has, rfl, rank,
        .inl ⟨leftElement ▸ plain, el.trans leftElement.symm⟩, fun _ => ⟨leftElement, el⟩⟩
  · exact .pure ok.leads ⟨leftSince, rightSince, leftType, rightType, hasLeft, hasRight, rfl, rfl,
      agree, fun plain => absurd plain notPlain⟩

theorem foldBinary_works {left right : ExprId} (leftInRange : left.index < a.exprs.size)
    (rightInRange : right.index < a.exprs.size) (law : a.LawfulType t type) :
    (foldBinary left right fold type span).Works t a fun ans next => ∀ id ∈ ans,
    next.IsConstant id := by
  obtain ⟨leftValue, askedLeft⟩ := ok.exists_constant? leftInRange
  obtain ⟨rightValue, askedRight⟩ := ok.exists_constant? rightInRange
  exact ask_bind askedLeft (ask_bind askedRight (addConstant?_works ok law))

theorem intrinsicOperation_makes {left right : ExprId} {k : ExprId → ExprId → ExprKind}
    (leftSince : a.Since start left) (rightSince : a.Since start right)
    (hasLeft : a.HasType left leftType)
    (hasRight : a.HasType right rightType) (meets : Conversion.Meets leftType rightType common side)
    (plain : el.IsPlain) (supported : el.Supported)
    (ops : ∀ left right, (k left right).children = [left, right])
    (form : ∀ (next : Arena) (left right : ExprId) (first second type : Ty),
      next.HasType left first → next.HasType right second → first.Agree second →
      (common.IsPlain → first.element = common ∧ second.element = common) → type.element = el →
      first.Conforms second type → next.LawfulForm type (k left right)) :
    (intrinsicOperation left right leftType rightType common el side fold k span).Makes
    t start a := by
  have leftLaw := ok.lawfulType hasLeft
  have rightLaw := ok.lawfulType hasRight
  refine Quiet.bind (resultShape_quiet leftLaw rightLaw plain supported)
    fun type ⟨law, isElement, conforms⟩ => ?_
  refine Yields.bind (convertSide_works ok leftSince rightSince hasLeft hasRight meets)
    fun pair mid led ⟨firstSince, secondSince, first, second, hasFirst, hasSecond, firstRank,
      secondRank, agree, elements⟩ => ?_
  refine .bind (foldBinary_works led.lawful firstSince.2 secondSince.2 (led.before.lawfulType law))
    fun value last more constants => ?_
  have sameRanks : first.Conforms second type := by
    constructor
    · rw [firstRank, secondRank]
      exact conforms.ranks
    · rw [firstRank, secondRank]
      exact conforms.rank
  have new : last.NewExpr t ⟨k pair.1 pair.2, type, value, span⟩ := {
    children := by
      rw [ops]
      exact forall_mem_pair (more.before.since firstSince).usable
        (more.before.since secondSince).usable
    type := more.before.lawfulType (led.before.lawfulType law)
    value := constants
    form := form last _ _ _ _ _ (more.before.hasType hasFirst) (more.before.hasType hasSecond) agree
      elements isElement sameRanks }
  exact addExpr_makes more.lawful (more.before.since firstSince).le new

end Expression

end FortranSemantics
