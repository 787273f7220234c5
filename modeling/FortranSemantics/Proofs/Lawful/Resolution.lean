import FortranSemantics.Proofs.Lawful.Call

/-!
# Resolution in lawful arenas

Every expression of a syntax tree is resolved to an expression of the arena, or refused. What is
resolved in a lawful arena leaves it lawful, and is made anew.
-/

namespace FortranSemantics

open List Edit

variable {α β : Type} {t : Terms} {a b : Arena} {start : Nat} {el ty : Ty}
  {generic n text member : String} {xs items : List ExprId} {base : ExprId}
  {k : Option ExprId → ExprKind}

theorem exists_answers_with {step : α → Except Breach β} {items : List α} {post : β → Prop}
    (each : ∀ item ∈ items, ∃ ans, step item = .ok ans ∧ post ans) :
    ∃ answers, items.mapM step = .ok answers ∧ ∀ ans ∈ answers, post ans := by
  obtain ⟨answers, q⟩ := exists_answers fun item mem => (each item mem).imp fun _ => And.left
  refine ⟨answers, q, fun ans mem => ?_⟩
  obtain ⟨item, isItem, answered⟩ := exists_of_mem_right (mapM_eq_ok.1 q) mem
  obtain ⟨again, answeredAgain, held⟩ := each item isItem
  cases answered.symm.trans answeredAgain
  exact held

namespace Arena

/-- Whether the types that implicit typing gives are lawful. -/
def LawfulTypings (terms : Terms) (arena : Arena)
    (typings : List (ScopeId × ImplicitTyping)) : Prop :=
  ∀ entry ∈ typings, ∀ rule ∈ entry.2.rules, arena.LawfulType terms rule.type

theorem Precedes.lawfulTypings (pre : a.Precedes b) (law : a.LawfulTypings t typings) :
    b.LawfulTypings t typings :=
  fun e mem rule isRule => pre.lawfulType (law e mem rule isRule)

/-- What expressions are resolved in: a lawful arena, a scope analysed here other than the root, and
room for earlier expressions. -/
structure Ready (terms : Terms) (env : Environment) (scope : ScopeId) (start : Nat)
    (arena : Arena) : Prop where
  lawful : arena.Lawful terms
  typings : arena.LawfulTypings terms env.typings
  inner : arena.Inner scope
  own : arena.Own scope
  room : start ≤ arena.exprs.size

variable {env : Environment} {s : ScopeId}

theorem Ready.after (ready : a.Ready t env s start) (led : a.Leads t b) :
    b.Ready t env s start where
  lawful := led.lawful
  typings := led.before.lawfulTypings ready.typings
  inner := led.before.inner ready.inner
  own := led.before.own ready.own
  room := ready.room.trans led.before.exprs_le

theorem lawfulType_of_typeOf? {typing : ImplicitTyping}
    (law : ∀ rule ∈ typing.rules, a.LawfulType t rule.type)
    (found : typing.typeOf? n = some ty) : a.LawfulType t ty := by
  unfold ImplicitTyping.typeOf? at found
  split at found
  · cases found
  · split at found
    · cases found
    · dsimp only at found
      split at found
      · next rule isRule =>
        cases found
        exact law rule (mem_of_find?_eq_some isRule)
      · cases found
        unfold ImplicitTyping.defaultType
        split <;> exact .ofPlain trivial (by decide)

theorem exists_implicitType? (ok : a.Lawful t) (typings : a.LawfulTypings t env.typings)
    (lt : s.index < a.scopes.size) (n : String) :
    ∃ ans, env.implicitType? a s n = .ok ans ∧ ∀ ty ∈ ans, a.LawfulType t ty := by
  have given : ∀ fuel (s : ScopeId) ty,
      env.implicitTypeWithin a n fuel s = .ok (some ty) → a.LawfulType t ty := by
    intro fuel
    induction fuel with
    | zero => exact nofun
    | succ fuel ih =>
      intro s ty found
      unfold Environment.implicitTypeWithin at found
      split at found
      · next typing isTyping =>
        obtain ⟨pre, after, split, -⟩ := lookup_eq_some_iff.1 isTyping
        have mem : (s, typing) ∈ env.typings := by
          rw [split]
          exact mem_append_right _ (.head _)
        exact lawfulType_of_typeOf? (typings _ mem) (Except.ok.inj found)
      · obtain ⟨tb, -, rest⟩ := bind_eq_ok.1 found
        split at rest
        · exact ih _ _ rest
        · cases rest
  obtain ⟨ans, q⟩ :=
    ok.sound.exists_implicitTypeWithin env n lt (Nat.lt_succ_of_lt lt)
  refine ⟨ans, q, fun ty isType => ?_⟩
  cases isType
  exact given _ _ _ q

end Arena

namespace Expression

variable {env : Environment} {s : ScopeId} {span : Span}
  (ready : a.Ready t env s start)

include ready

/-! ## Names and components -/

theorem implicitVariable_makes : (implicitVariable env n span s).Makes t start a := by
  obtain ⟨ans, q, law⟩ := Arena.exists_implicitType? ready.lawful ready.typings ready.inner.1 n
  refine ask_bind q ?_
  cases ans with
  | none => exact .reject _ _
  | some ty =>
    have typeLaw := law ty rfl
    refine declare_new_works ready.lawful ready.inner rfl ?_ ?_ (.inr ready.own) ?_
      fun entered led found _ => ?_
    · exact nofun
    · exact .ofType typeLaw _
    · intro info isVariable
      cases isVariable
      exact nofun
    · refine (addVar_works led.lawful (ready.after led).room (Arena.symbol_inRange found)
        (led.before.lawfulType typeLaw)).mono fun _ _ _ made => ?_
      exact made.1

theorem nameValue_makes : (nameValue env n span s).Makes t start a := by
  have ok := ready.lawful
  obtain ⟨ans, q, lt⟩ := ok.exists_lookup ready.inner.1 (Text.lowercase n)
  refine ask_bind q ?_
  cases ans with
  | none => exact implicitVariable_makes ready
  | some sym =>
    obtain ⟨past, held, st, found, named⟩ := ok.exists_target (lt sym rfl)
    have law := ok.kind found
    refine ask_bind named ?_
    split
    · next info isVariable =>
      rw [isVariable] at law
      split
      · next designator _ isAlias =>
        have copied := copy_works ok ready.room (law.aliased designator isAlias)
        exact copied.mono fun _ _ _ copy => copy.1
      · next untyped unaliased =>
        have aliased := law.typed untyped
        rw [unaliased] at aliased
        cases aliased
      · next _ ty isType =>
        refine addExpr_makes ok ready.room ⟨nofun, law.type ty isType, fun id isValue => ?_,
          lt sym rfl⟩
        dsimp only at isValue
        split at isValue
        · exact law.value id isValue
        · cases isValue
    · exact .reject _ _
    · exact .reject _ _
    · exact .reject _ _

theorem component_makes (since : a.Since start base) (law : a.LawfulType t ty) :
    (component base ty member span).Makes t start a := by
  have ok := ready.lawful
  unfold component
  split
  · exact typeName_bind ok law fun _ => .reject _ _
  · next derived isDerived =>
    refine (resolveMember_quiet ok (law.derivedSymbol? isDerived)).bind fun sym lt => ?_
    obtain ⟨ans, q, answerLaw⟩ := ok.exists_variableType? lt
    refine ask_bind q ?_
    cases ans with
    | none => exact .reject _ _
    | some memberType =>
      have memberLaw := answerLaw memberType rfl
      refine addExpr_makes ok ready.room ⟨forall_mem_singleton.2 since.usable, ?_, nofun, trivial⟩
      dsimp only
      split
      · next shapes =>
        have scalar : memberType.rank = 0 := by
          simpa [Ty.isScalar] using (Bool.and_eq_true_iff.1 shapes).2
        exact memberLaw.shaped scalar law.dims
      · exact memberLaw

theorem memberValue_makes (since : a.Since start base) :
    (memberValue env span s base member).Makes t start a := by
  have ok := ready.lawful
  refine typeOf_bind ok since.2 fun ty _ law => ?_
  split
  · next q =>
    have isComplex := (Bool.and_eq_true_iff.1 q).1
    exact Conversion.insertCast_makes ok since
      (.ofPlain trivial (law.supported.ofKind? (.inr isComplex)))
  · split
    · exact callIntrinsic_makes ok ready.room ready.inner (forall_mem_singleton.2 since)
    · exact component_makes ready since law

theorem memberChain_makes {base : String} {members : List String} :
    (memberChain env base members span s).Makes t start a := by
  refine .bind (nameValue_makes ready) fun first mid led since => ?_
  exact Yields.foldlM led.lawful.leads since fun held member _ next more isSince =>
    memberValue_makes (ready.after (Progress.trans led more)) isSince

theorem designator_makes (some : parts ≠ []) : (designator env parts span s).Makes t start a := by
  cases parts with
  | nil => exact absurd rfl some
  | cons base members => exact memberChain_makes ready

/-! ## Literals -/

omit ready in
theorem lawfulType_text {k : Nat} {length : Option Int}
    (isKind : k ∈ TypeCategory.character.kinds) : a.LawfulType t (.character k length none) :=
  ⟨trivial, nofun, nofun, isKind⟩

/-- The value of a parameter that gives a kind. -/
theorem kindParameter_quiet : Quiet t.tolerated (kindParameter n s span) a fun _ => True := by
  have ok := ready.lawful
  obtain ⟨ans, q, lt⟩ := ok.exists_lookup ready.inner.1 n
  refine ask_bind q ?_
  cases ans with
  | none => exact .reject _ _
  | some sym =>
    obtain ⟨info, askedInfo, law⟩ := ok.exists_asVariable? (lt sym rfl)
    obtain ⟨v, askedValue⟩ : ∃ v, a.optionalInteger? (info.bind (·.value)) = .ok v := by
      refine ok.exists_optionalInteger? fun id held => ?_
      obtain ⟨variableInfo, isInfo, isValue⟩ := Option.bind_eq_some_iff.1 held
      exact ((law variableInfo isInfo).value id isValue).inRange
    refine ask_bind askedInfo (ask_bind askedValue ?_)
    cases v with
    | none => exact Runs.reject _ _
    | some k => exact Quiet.pure trivial

theorem splitKind_quiet : Quiet t.tolerated (splitKind text s span) a fun _ => True := by
  unfold splitKind
  split
  · exact .pure trivial
  · split
    · exact Quiet.pure trivial
    · exact (kindParameter_quiet ready).bind fun k _ => Quiet.pure trivial

theorem integerLiteral_makes : (integerLiteral text s span).Makes t start a := by
  refine (splitKind_quiet ready).bind fun ans _ => checkKind_quiet.bind fun k isKind => ?_
  split
  · exact .reject _ _
  · split
    · exact addConstant_makes ready.lawful ready.room (.ofPlain trivial isKind)
    · exact .reject _ _

theorem realLiteral_makes : (realLiteral text s span).Makes t start a := by
  refine (splitKind_quiet ready).bind fun ans _ => checkKind_quiet.bind fun k isKind => ?_
  dsimp only
  split
  · exact .reject _ _
  · exact addConstant_makes ready.lawful ready.room (.ofPlain trivial isKind)

omit ready in
theorem complexPartKind_quiet {k : Nat} {part : ExprId} (ok : a.Lawful t)
    (since : a.Since start part) (isKind : k ∈ TypeCategory.real.kinds) :
    Quiet t.tolerated (complexPartKind k part span) a fun k => k ∈ TypeCategory.real.kinds := by
  refine typeOf_bind ok since.2 fun ty _ law => ?_
  split
  · exact Quiet.pure isKind
  · next partKind isReal _ =>
    have supported : (Ty.real partKind).Supported := isReal ▸ law.element.supported
    refine Quiet.pure ?_
    rcases max_choice k partKind with isMax | isMax
    · rwa [isMax]
    · rwa [isMax]
  · exact typeName_bind ok law fun _ => Runs.reject _ _

omit ready in
theorem complexConstant_makes (ok : a.Lawful t) (reSince : a.Since start re)
    (imSince : a.Since start im) : (complexConstant re im span).Makes t start a := by
  refine (complexPartKind_quiet ok reSince (by decide)).bind fun k isKind => ?_
  refine (complexPartKind_quiet ok imSince isKind).bind fun k isKind => ?_
  refine Yields.bind (Conversion.insertCast_makes ok reSince (.ofPlain trivial isKind))
    fun re mid led reSince => ?_
  refine Yields.bind (Conversion.insertCast_makes led.lawful (led.before.since imSince)
    (.ofPlain trivial isKind)) fun im next more imSince => ?_
  have reSince := more.before.since reSince
  obtain ⟨reValue, askedRe⟩ := more.lawful.exists_constant? reSince.2
  obtain ⟨imValue, askedIm⟩ := more.lawful.exists_constant? imSince.2
  refine ask_bind askedRe (ask_bind askedIm ?_)
  split
  · exact addConstant_makes more.lawful imSince.le (.ofPlain trivial isKind)
  · exact addExpr_makes more.lawful imSince.le
      ⟨forall_mem_pair reSince.usable imSince.usable, .ofPlain trivial isKind, nofun, trivial⟩

/-! ## User-defined operators -/

/-- Whether operator generics and their candidates are there. -/
def LawfulGenerics (arena : Arena) (generics : List (SymbolId × List SymbolId)) : Prop :=
  ∀ generic ∈ generics, generic.1.index < arena.symbols.size ∧
    ∀ candidate ∈ generic.2, candidate.index < arena.symbols.size

theorem exists_operatorMember (since : a.Since start operand) : ∃ member, (do
    match (← a.exprType operand).derivedSymbol? with
    | some ty => a.member? ty generic
    | none => return none : Except Breach (Option SymbolId)) = .ok member ∧
      ∀ id ∈ member, id.index < a.symbols.size := by
  obtain ⟨ty, q, -, law⟩ := ready.lawful.exists_type since.2
  simp only [q, bind, Except.bind]
  cases isDerived : ty.derivedSymbol? with
  | none => exact ⟨none, rfl, by simp⟩
  | some derived => exact ready.lawful.exists_member? (law.derivedSymbol? isDerived) generic

section

variable (since : ∀ operand ∈ xs, a.Since start operand)

include since

/-- The symbols that an operator may be are known. -/
theorem exists_operatorSymbols : ∃ symbols, operatorSymbols a generic xs s = .ok symbols ∧
      ∀ sym ∈ symbols, sym.index < a.symbols.size := by
  have ok := ready.lawful
  obtain ⟨inScope, q, inScopeRange⟩ := ok.exists_lookup ready.inner.1 generic
  obtain ⟨members, askedMembers, membersRange⟩ := exists_answers_with fun operand mem =>
    exists_operatorMember ready (since operand mem)
  refine ⟨_, bind_eq_ok.2 ⟨inScope, q, bind_eq_ok.2 ⟨members, askedMembers, rfl⟩⟩, ?_⟩
  intro sym mem
  rcases mem_append.1 mem with here | member
  · exact inScopeRange sym (Option.mem_toList.1 here)
  · obtain ⟨ans, isAnswer, isSymbol⟩ := mem_filterMap.1 member
    exact membersRange ans isAnswer sym isSymbol

/-- The operator generics for some operands are known. -/
theorem exists_operatorGenerics : ∃ generics, operatorGenerics a generic xs s = .ok generics ∧
      LawfulGenerics a generics := by
  obtain ⟨symbols, q, lt⟩ := exists_operatorSymbols ready since
  have each : ∀ sym ∈ symbols.eraseDups, ∃ ans,
      (do return (← genericCandidates? a sym).map (sym, ·) :
        Except Breach (Option (SymbolId × List SymbolId))) = .ok ans ∧
        ∀ held ∈ ans, held.1.index < a.symbols.size ∧
          ∀ candidate ∈ held.2, candidate.index < a.symbols.size := by
    intro sym mem
    have symbolInRange := lt sym (mem_eraseDups.1 mem)
    obtain ⟨past, held, -, found, named⟩ := ready.lawful.exists_target symbolInRange
    have law := ready.lawful.kind found
    simp only [genericCandidates?, named, bind, Except.bind]
    split
    · next failed => split at failed <;> cases failed
    · next candidates isAnswer =>
      refine ⟨_, rfl, fun generic isGeneric => ?_⟩
      split at isAnswer
      · next info isInfo =>
        rw [isInfo] at law
        cases isAnswer
        cases isGeneric
        exact ⟨symbolInRange, fun candidate mem => (law candidate mem).1⟩
      · cases isAnswer
        cases isGeneric
  obtain ⟨generics, askedGenerics, law⟩ := exists_answers_with each
  refine ⟨_, bind_eq_ok.2 ⟨symbols, q, bind_eq_ok.2 ⟨generics, askedGenerics, rfl⟩⟩, ?_⟩
  intro held mem
  obtain ⟨ans, isAnswer, hh⟩ := mem_filterMap.1 mem
  exact law ans isAnswer held hh

theorem copies_works :
    (xs.mapM fun operand => some <$> copy operand : Edit (List (Option ExprId))).Works t a
      fun args next => next.SlotsSince start args := by
  have each : Yields t.tolerated (Arena.Leads t)
      (xs.mapM fun operand => some <$> copy operand) a fun args next =>
        List.Forall₂ (fun _ slot => ∀ arg ∈ slot, next.Since start arg) xs args := by
    refine Yields.mapM ready.lawful.leads ?_ fun operand mem mid led => ?_
    · exact fun _ slot _ _ led held arg isArg => led.before.since (held arg isArg)
    · have operandSince := led.before.since (since operand mem)
      refine .map ((copy_works led.lawful operandSince.le operandSince.2).mono ?_)
      intro copied next _ copy arg isArg
      cases isArg
      exact copy.1
  refine each.mono fun args next _ made arg mem => ?_
  obtain ⟨operand, -, held⟩ := exists_of_mem_right made mem
  exact held arg rfl

/-- The first generic with a candidate for the operands is called. -/
theorem callOperator_works (law : ∀ ty ∈ types, a.LawfulType t ty)
    (candidates : LawfulGenerics a generics) :
    (callOperator env xs types span s generics).Works t a fun ans next => ∀ id ∈ ans,
    next.Since start id := by
  have ok := ready.lawful
  have noReceiver : ∀ ty ∈ (none : Option Ty), a.LawfulType t ty := nofun
  induction generics with
  | nil => exact .pure ok.leads nofun
  | cons first rest ih =>
    obtain ⟨generic, procs⟩ := first
    obtain ⟨genericInRange, lt⟩ := candidates (generic, procs) (.head _)
    obtain ⟨selection, q, found, several⟩ := ok.exists_select env.policy lt law noReceiver
    refine ask_bind q ?_
    cases selection with
    | noMatch => exact ih fun o mem => candidates o (.tail _ mem)
    | ambiguous chosen =>
      exact ambiguous_runs ok genericInRange fun candidate mem =>
        lt candidate (several _ rfl mem)
    | found candidate =>
      obtain ⟨isCandidate, function, inner, implemented, sym, foundFunction, -⟩ :=
        found candidate rfl
      have functionInRange := Arena.symbol_inRange foundFunction
      obtain ⟨ans, askedType, answerLaw⟩ := ok.exists_returnType? functionInRange
      refine ask_bind implemented (ask_bind askedType ?_)
      cases ans with
      | none => exact name_bind functionInRange fun _ => .reject _ _
      | some ty =>
        refine Yields.bind (callableSymbol_works ok ready.inner genericInRange
          (lt candidate isCandidate)) fun n mid led _ => ?_
        refine Yields.bind (copies_works (ready.after led) fun operand mem =>
          led.before.since (since operand mem)) fun args next further made => ?_
        have pre := led.before.trans further.before
        have new : next.NewExpr t ⟨.call n (some generic) args none, ty, none, span⟩ := by
          refine ⟨fun child mem => ?_, pre.lawfulType (answerLaw ty rfl), nofun, trivial⟩
          have isSlot : some child ∈ args := by simpa [ExprKind.children] using mem
          exact (made child isSlot).usable
        have room := ready.room.trans pre.exprs_le
        refine .map ((addExpr_makes further.lawful room new).mono ?_)
        intro call last _ isSince id held
        cases held
        exact isSince

/-- A user-defined operator is called when it accepts the operands. -/
theorem userOperator_works : (userOperator env generic xs span s).Works t a fun ans next =>
      ∀ id ∈ ans, next.Since start id := by
  obtain ⟨generics, q, candidates⟩ := exists_operatorGenerics ready since
  refine ask_bind q ?_
  have typed : Quiet t.tolerated (xs.mapM typeOf) a fun types =>
      List.Forall₂ (fun operand ty => a.HasType operand ty) xs types :=
    types_quiet ready.lawful fun operand mem => (since operand mem).2
  refine typed.bind fun types each => callOperator_works ready since (fun ty mem => ?_) candidates
  obtain ⟨operand, -, has⟩ := exists_of_mem_right each mem
  exact ready.lawful.lawfulType has

end

omit ready in
theorem overloadedBy_makes (ok : a.Lawful t) (since : a.Since start call)
    (children : ∀ child ∈ (k (some call)).children, a.Usable child)
    (form : ∀ ty, a.LawfulForm ty (k (some call))) :
    (overloadedBy call k span).Makes t start a := by
  refine typeOf_bind ok since.2 fun ty _ law => ?_
  exact addExpr_makes ok since.le ⟨children, law, nofun, form ty⟩

/-! ## Operators -/

section

variable {left right : ExprId} (leftSince : a.Since start left) (rightSince : a.Since start right)

include leftSince rightSince

/-- A user-defined operator on two operands, or else a refusal. -/
theorem overloaded_makes (children : ∀ call, (k (some call)).children = [left, right, call])
    (form : ∀ (next : Arena) call ty, next.LawfulForm ty (k (some call)))
    (refused : ∀ next, a.Leads t next → refusal.Makes t start next) : Edit.Makes t start (do
      match ← userOperator env generic [left, right] span s with
      | some call => overloadedBy call k span
      | none => refusal) a := by
  refine .bind (userOperator_works ready (forall_mem_pair leftSince rightSince))
    fun ans next led made => ?_
  cases ans with
  | none => exact refused next led
  | some call =>
    refine overloadedBy_makes led.lawful (made call rfl) ?_ (form next call)
    rw [children]
    exact forall_mem_cons.2 ⟨(led.before.since leftSince).usable,
      forall_mem_pair (led.before.since rightSince).usable (made call rfl).usable⟩

omit ready leftSince rightSince in
theorem refuse_makes {leftType rightType : Ty} {next : Arena}
    {fault : String → String → Fault} (led : a.Leads t next)
    (leftLaw : a.LawfulType t leftType) (rightLaw : a.LawfulType t rightType) :
    Edit.Makes t start (do
      reject (fault (← typeName leftType) (← typeName rightType)) span) next := by
  refine typeName_bind led.lawful (led.before.lawfulType leftLaw) fun _ => ?_
  exact typeName_bind led.lawful (led.before.lawfulType rightLaw) fun _ => .reject _ _

/-- An operation on plain elements, with a value of their common type, or else a user-defined one.
-/
theorem plainOperator_makes {k : ExprId → ExprId → Option ExprId → ExprKind}
    {fault : String → String → Fault} {fold : Ty → Constant → Constant → Option Constant}
    (isPlain : family = .arithmetic ∨ family = .logical)
    (children : ∀ left right call, (k left right call).children = left :: right :: call.toList)
    (form : ∀ (next : Arena) left right ty, next.LawfulForm ty (.arithmetic left .add right none) →
      next.LawfulForm ty (k left right none))
    (overloaded : ∀ (next : Arena) call ty, next.LawfulForm ty (k left right (some call))) :
    Edit.Makes t start (do
      let leftType ← typeOf left
      let rightType ← typeOf right
      match Conversion.common? family leftType rightType with
      | some (common, side) =>
        intrinsicOperation left right leftType rightType common common side (fold common)
          (fun left right => k left right none) span
      | none =>
        match ← userOperator env generic [left, right] span s with
        | some call => overloadedBy call (k left right) span
        | none => reject (fault (← typeName leftType) (← typeName rightType)) span) a := by
  have ok := ready.lawful
  refine typeOf_bind ok leftSince.2 fun leftType hasLeft leftLaw => ?_
  refine typeOf_bind ok rightSince.2 fun rightType hasRight rightLaw => ?_
  split
  · next isCommon =>
    obtain ⟨meets, plain⟩ := Conversion.common?_meets leftLaw.flat rightLaw.flat isCommon
    have plain := plain isPlain
    refine intrinsicOperation_makes ok leftSince rightSince hasLeft hasRight meets plain
      (meets.supported plain leftLaw.supported rightLaw.supported) (children · · none)
      fun next left right first second ty hasFirst hasSecond _ elements isElement conforms =>
      form next left right ty ?_
    obtain ⟨isFirst, isSecond⟩ := elements plain
    exact ⟨first, second, hasFirst, hasSecond, isFirst ▸ plain, isSecond.trans isFirst.symm,
      isElement.trans isFirst.symm, conforms⟩
  · exact overloaded_makes ready leftSince rightSince (children _ _ <| some ·) overloaded
      fun next led => refuse_makes led leftLaw rightLaw

theorem arithmetic_makes : (arithmetic env op left right span s).Makes t start a :=
  plainOperator_makes ready leftSince rightSince (.inl rfl)
    (fun _ _ _ => rfl) (fun _ _ _ _ => id) fun _ _ _ => trivial

theorem logical_makes : (logical env op left right span s).Makes t start a :=
  plainOperator_makes ready leftSince rightSince (.inr rfl)
    (fun _ _ _ => rfl) (fun _ _ _ _ => id) fun _ _ _ => trivial

theorem comparison_makes : (comparison env op left right span s).Makes t start a := by
  have ok := ready.lawful
  refine typeOf_bind ok leftSince.2 fun leftType hasLeft leftLaw => ?_
  refine typeOf_bind ok rightSince.2 fun rightType hasRight rightLaw => ?_
  split
  · next common side isCommon =>
    obtain ⟨meets, -⟩ := Conversion.common?_meets leftLaw.flat rightLaw.flat isCommon
    refine .guard fun _ => ?_
    refine intrinsicOperation_makes ok leftSince rightSince hasLeft hasRight meets trivial
      (by decide) (fun _ _ => rfl)
      fun next left right first second ty hasFirst hasSecond agree _ isElement conforms => ?_
    exact ⟨first, second, hasFirst, hasSecond, agree, isElement, conforms⟩
  · exact overloaded_makes ready leftSince rightSince (fun _ => rfl) (fun _ _ _ => trivial)
      fun next led => .guard fun _ => refuse_makes led leftLaw rightLaw

theorem concatenation_makes : (concatenation env left right span s).Makes t start a := by
  have ok := ready.lawful
  refine typeOf_bind ok leftSince.2 fun leftType hasLeft leftLaw => ?_
  refine typeOf_bind ok rightSince.2 fun rightType hasRight rightLaw => ?_
  dsimp only
  split
  · exact overloaded_makes ready leftSince rightSince (fun _ => rfl) (fun _ _ _ => trivial)
      fun next led => refuse_makes led leftLaw rightLaw
  · next isCommon =>
    simp only [Bool.or_eq_true, not_or, Option.isNone_iff_eq_none] at isCommon
    have isText := Conversion.isCharacter_of_common? (Option.isSome_iff_ne_none.2 isCommon.1.1)
    have isKind := leftLaw.supported.text isText
    refine Yields.bind (foldBinary_works ok leftSince.2 rightSince.2 (lawfulType_text isKind))
      fun v next led constants => ?_
    have xs := forall_mem_pair (led.before.since leftSince).usable
      (led.before.since rightSince).usable
    exact addExpr_makes led.lawful (ready.after led).room
      ⟨xs, lawfulType_text isKind, constants, trivial⟩

theorem binary_makes : (binary env op left right span s).Makes t start a := by
  unfold binary
  split
  case h_16 => exact concatenation_makes ready leftSince rightSince
  all_goals first
    | exact arithmetic_makes ready leftSince rightSince
    | exact comparison_makes ready leftSince rightSince
    | exact logical_makes ready leftSince rightSince

end

theorem unary_makes (since : a.Since start operand) :
    (unary env op operand span s).Makes t start a := by
  have ok := ready.lawful
  refine typeOf_bind ok since.2 fun ty _ law => ?_
  have folded : Edit.Makes t start (do
      let constant ← ask (·.constant? operand)
      let v ← addConstant? (constant.bind (Folding.unary op ty)) ty span
      addExpr (.unary op operand none) ty v span) a := by
    obtain ⟨constant, valued⟩ := ok.exists_constant? since.2
    refine ask_bind valued ?_
    refine Yields.bind (addConstant?_works ok law) fun v next led constants => ?_
    exact addExpr_makes led.lawful (ready.after led).room
      ⟨forall_mem_singleton.2 (led.before.since since).usable, led.before.lawfulType law,
        constants, trivial⟩
  have called {wanted : String} : Edit.Makes t start (do
      match ← userOperator env op.genericName [operand] span s with
      | some call => overloadedBy call (.unary op operand) span
      | none => reject (.unaryOperand wanted (← typeName ty)) span) a := by
    refine .bind (userOperator_works ready (forall_mem_singleton.2 since))
      fun ans next led made => ?_
    cases ans with
    | none => exact typeName_bind led.lawful (led.before.lawfulType law) fun _ => .reject _ _
    | some call =>
      exact overloadedBy_makes led.lawful (made call rfl)
        (forall_mem_pair (led.before.since since).usable (made call rfl).usable) fun _ => trivial
  cases op with
  | minus | not =>
    dsimp only
    split
    · exact folded
    · exact called

/-- A call of an operator with a name of its own. -/
theorem definedOperator_makes (since : ∀ operand ∈ xs, a.Since start operand) :
    (definedOperator env op xs span s).Makes t start a := by
  refine .bind (userOperator_works ready since) fun ans next led made => ?_
  cases ans with
  | some call => exact .pure led.lawful.leads (made call rfl)
  | none =>
    have named : Quiet t.tolerated
        (xs.mapM fun operand => do typeName (← typeOf operand)) next fun names =>
          List.Forall₂ (fun _ _ => True) xs names := by
      refine Quiet.mapM fun operand mem => ?_
      refine typeOf_bind led.lawful (led.before.since (since operand mem)).2 fun ty _ law => ?_
      obtain ⟨text, q⟩ := led.lawful.exists_typeName law
      exact ask_quiet q trivial
    exact named.bind fun _ _ => .reject _ _

/-! ## Array constructors -/

/-- Whether an expression was made after the first `start` ones and is a scalar. -/
def IsScalar (arena : Arena) (start : Nat) (id : ExprId) : Prop :=
  arena.Since start id ∧ ∃ ty, arena.HasType id ty ∧ ty.rank = 0

omit ready in
theorem IsScalar.stays {id : ExprId} (scalar : IsScalar a start id) (pre : a.Precedes b) :
    IsScalar b start id := by
  obtain ⟨since, ty, has, rank⟩ := scalar
  exact ⟨pre.since since, ty, pre.hasType has, rank⟩

omit ready in
/-- The common type of items stays a scalar type. -/
theorem commonItemType_quiet (ok : a.Lawful t) (law : a.LawfulType t el ∧ el.rank = 0)
    (since : a.Since start item) :
    Quiet t.tolerated (commonItemType span el item) a fun common => a.LawfulType t common ∧
    common.rank = 0 := by
  refine typeOf_bind ok since.2 fun ty _ typeLaw => ?_
  split
  · next common side isCommon =>
    obtain ⟨meets, plain⟩ := Conversion.common?_meets law.1.flat typeLaw.flat isCommon
    have plain := plain (.inl rfl)
    have supported := meets.supported plain law.1.supported typeLaw.supported
    exact Quiet.pure ⟨.ofPlain plain supported, plain.isElement.rank⟩
  · obtain ⟨equal, compared⟩ := ok.exists_elementsEqual law.1 typeLaw
    refine ask_bind compared ?_
    cases equal with
    | true => exact Quiet.pure law
    | false =>
      simp only [Bool.false_eq_true, if_false]
      split
      · exact Quiet.pure law
      · refine typeName_bind ok law.1 fun _ => ?_
        exact typeName_bind ok typeLaw fun _ => Runs.reject _ _

omit ready in
theorem arrayOf_makes (ok : a.Lawful t) (room : start ≤ a.exprs.size)
    (since : ∀ v ∈ values, a.Since start v) (law : a.LawfulType t el ∧ el.rank = 0) :
    Edit.Makes t start (do
      let start ← addInteger 1 span
      let length ← addInteger values.length span
      let ty := Ty.shaped el [{ start := some start, length := some length }]
      let constants ← ask fun a => values.mapM a.constant?
      let folded := (constants.mapM fun constant => constant).map Constant.array
      let v ← addConstant? folded ty span
      addExpr (.arrayConstructor values) ty v span) a := by
  refine .bind (addInteger_works ok room) fun first mid led made => ?_
  refine .bind (addInteger_works led.lawful made.1.le) fun last next more madeLast => ?_
  have pre := led.before.trans more.before
  have dims : ∀ dim ∈ [(⟨some first, some last⟩ : Dimension)], next.LawfulDimension dim := by
    intro dim mem id held
    cases mem_singleton.1 mem
    have either : id = first ∨ id = last := by simpa [Ty.dimensionExprs] using held
    rcases either with rfl | rfl
    · exact (more.before.since made.1).2
    · exact madeLast.1.2
  have typeLaw := (pre.lawfulType law.1).shaped law.2 dims
  obtain ⟨constants, valued⟩ := exists_answers fun v mem =>
    more.lawful.exists_constant? (pre.since (since v mem)).2
  refine ask_bind valued ?_
  refine Yields.bind (addConstant?_works more.lawful typeLaw) fun v final toFinal isConstant => ?_
  refine addExpr_makes toFinal.lawful (toFinal.before.since madeLast.1).le
    ⟨fun child mem => ?_, toFinal.before.lawfulType typeLaw, isConstant, trivial⟩
  exact ((pre.trans toFinal.before).since (since child mem)).usable

omit ready in
theorem convertAll_works (ok : a.Lawful t) (since : ∀ item ∈ items, a.Since start item)
    (law : a.LawfulType t el) :
    (items.mapM fun item => Conversion.insertCast item el span : Edit (List ExprId)).Works t a
      fun values next => ∀ v ∈ values, next.Since start v := by
  have each : Yields t.tolerated (Arena.Leads t)
      (items.mapM fun item => Conversion.insertCast item el span) a fun values next =>
        List.Forall₂ (fun _ v => next.Since start v) items values := by
    refine Yields.mapM ok.leads ?_ fun item mem mid led => ?_
    · exact fun _ v _ _ led held => led.before.since held
    · exact Conversion.insertCast_makes led.lawful (led.before.since (since item mem))
        (led.before.lawfulType law)
  refine each.mono fun values next _ made v mem => ?_
  obtain ⟨_, _, held⟩ := exists_of_mem_right made mem
  exact held

omit ready in
theorem arrayConstructor_makes (ok : a.Lawful t) (scalars : ∀ item ∈ items, IsScalar a start item) :
    (arrayConstructor items span).Makes t start a := by
  cases items with
  | nil => exact .reject _ _
  | cons first rest =>
    obtain ⟨firstSince, ty, has, rank⟩ := scalars first (.head _)
    refine ask_bind (Arena.exprType_eq_ok.2 has) ?_
    have common : Quiet t.tolerated (rest.foldlM (commonItemType span) ty) a fun common =>
        a.LawfulType t common ∧ common.rank = 0 :=
      Quiet.foldlM ⟨ok.lawfulType has, rank⟩ fun el item mem law =>
        commonItemType_quiet ok law (scalars item (.tail _ mem)).1
    refine common.bind fun el law => ?_
    have since : ∀ item ∈ first :: rest, a.Since start item := fun item mem => (scalars item mem).1
    dsimp only
    split
    · exact arrayOf_makes ok firstSince.le since law
    · refine Yields.bind (convertAll_works ok since law.1) fun values next led made => ?_
      exact arrayOf_makes led.lawful (led.before.since firstSince).le made
        ⟨led.before.lawfulType law.1, law.2⟩

/-! ## Expressions -/

section

omit ready

mutual

theorem resolve_makes [t.Wary] : ∀ (tree : Tree.Expr) {a : Arena}, a.Ready t env s start →
    (resolve env s tree).Makes t start a
  | ⟨k, span⟩, a, ready => by
    rw [resolve]
    exact resolveKind_makes span k ready

/-- Every form of an expression is resolved or refused. -/
theorem resolveKind_makes [t.Wary] (span : Span) : ∀ (k : Tree.ExprKind) {a : Arena},
    a.Ready t env s start → (resolveKind env s span k).Makes t start a
  | .int text, a, ready => by
    rw [resolveKind]
    exact integerLiteral_makes ready
  | .real text, a, ready => by
    rw [resolveKind]
    exact realLiteral_makes ready
  | .complex re im, a, ready => by
    rw [resolveKind]
    refine .bind (resolve_makes re ready) fun first mid led firstSince => ?_
    refine .bind (resolve_makes im (ready.after led)) fun second next more secondSince => ?_
    exact complexConstant_makes more.lawful (more.before.since firstSince) secondSince
  | .text v, a, ready => by
    rw [resolveKind]
    exact addConstant_makes ready.lawful ready.room (lawfulType_text (by decide))
  | .logical v, a, ready => by
    rw [resolveKind]
    exact addConstant_makes ready.lawful ready.room (.ofPlain trivial (by decide))
  | .name n, a, ready => by
    rw [resolveKind]
    exact nameValue_makes ready
  | .member base members, a, ready => by
    rw [resolveKind]
    exact memberChain_makes ready
  | .call [] n args, a, ready => by
    rw [resolveKind]
    refine .bind (resolveArgs_works args ready) fun actual next led since => ?_
    exact callName_makes led.lawful (ready.after led).room (ready.after led).inner since
  | .call (first :: rest) n args, a, ready => by
    rw [resolveKind]
    · refine .bind (designator_makes ready (cons_ne_nil _ _)) fun base mid led baseSince => ?_
      refine .bind (resolveArgs_works args (ready.after led)) fun actual next more since => ?_
      refine (bindTypeBoundCall_quiet more.lawful (more.before.since baseSince) since).bind
        fun call law => ?_
      exact functionCall_makes more.lawful ((ready.after led).after more).room law
    · exact cons_ne_nil _ _
  | .binary op left right, a, ready => by
    rw [resolveKind]
    refine .bind (resolve_makes left ready) fun first mid led firstSince => ?_
    refine .bind (resolve_makes right (ready.after led)) fun second next more secondSince => ?_
    exact binary_makes ((ready.after led).after more) (more.before.since firstSince) secondSince
  | .unary op operand, a, ready => by
    rw [resolveKind]
    refine .bind (resolve_makes operand ready) fun v next led since => ?_
    cases op with
    | plus => exact .pure led.lawful.leads since
    | neg | not => exact unary_makes (ready.after led) since
  | .definedBinary op left right, a, ready => by
    rw [resolveKind]
    refine .bind (resolve_makes left ready) fun first mid led firstSince => ?_
    refine .bind (resolve_makes right (ready.after led)) fun second next more secondSince => ?_
    exact definedOperator_makes ((ready.after led).after more)
      (forall_mem_pair (more.before.since firstSince) secondSince)
  | .definedUnary op operand, a, ready => by
    rw [resolveKind]
    refine .bind (resolve_makes operand ready) fun v next led since => ?_
    refine definedOperator_makes (ready.after led) fun o mem => ?_
    cases mem_singleton.1 mem
    exact since
  | .paren inner, a, ready => by
    rw [resolveKind]
    exact resolve_makes inner ready
  | .array items, a, ready => by
    rw [resolveKind]
    refine .bind (resolveItems_works items ready) fun ids next led scalars => ?_
    exact arrayConstructor_makes led.lawful scalars

/-- The items of an array constructor are scalars. -/
theorem resolveItems_works [t.Wary] : ∀ (trees : List Tree.Expr) {a : Arena},
    a.Ready t env s start → (resolveItems env s trees).Works t a
      fun items next => ∀ item ∈ items, IsScalar next start item
  | [], a, ready => by
    rw [resolveItems]
    exact .pure ready.lawful.leads nofun
  | tree :: rest, a, ready => by
    rw [resolveItems]
    refine Yields.bind (resolve_makes tree ready) fun first mid led firstSince => ?_
    refine typeOf_bind led.lawful firstSince.2 fun ty has _ => Runs.guard fun notArray => ?_
    refine Yields.bind (resolveItems_works rest (ready.after led))
      fun others next more scalars => ?_
    refine Yields.pure more.lawful.leads fun item mem => ?_
    rcases mem_cons.1 mem with rfl | mem
    · have rank : ty.rank = 0 := by simpa [Ty.isArray] using notArray
      exact IsScalar.stays ⟨firstSince, ty, has, rank⟩ more.before
    · exact scalars item mem

theorem resolveArgs_works [t.Wary] : ∀ (trees : List Tree.Arg) {a : Arena},
    a.Ready t env s start → (resolveArgs env s trees).Works t a fun args next =>
    next.ArgsSince start args
  | [], a, ready => by
    rw [resolveArgs]
    exact .pure ready.lawful.leads nofun
  | tree :: rest, a, ready => by
    rw [resolveArgs]
    refine .bind (resolveArg_works tree ready) fun first mid led firstSince => ?_
    refine .bind (resolveArgs_works rest (ready.after led)) fun others next more since => ?_
    refine .pure more.lawful.leads fun arg mem => ?_
    rcases mem_cons.1 mem with rfl | mem
    · exact more.before.since firstSince
    · exact since arg mem

theorem resolveArg_works [t.Wary] : ∀ (tree : Tree.Arg) {a : Arena},
    a.Ready t env s start → (resolveArg env s tree).Works t a
      fun arg next => next.Since start arg.value
  | ⟨keyword, v⟩, a, ready => by
    rw [resolveArg]
    refine .bind (resolve_makes v ready) fun id next led since => ?_
    exact .pure led.lawful.leads since

end

end

variable [t.Wary]

/-! ## Declared types -/

theorem constantInteger_works : (constantInteger env tree what s).Works t a fun _ _ => True := by
  refine .bind (resolve_makes tree ready) fun id next led since => ?_
  obtain ⟨v, q⟩ := led.lawful.exists_integer? since.2
  refine ask_bind q ?_
  cases v with
  | none => exact Runs.reject _ _
  | some v => exact Yields.pure led.lawful.leads trivial

theorem selectedKind_works :
    (selectedKind env selector category absent span s).Works t a fun k _ => k ∈ category.kinds := by
  have checked {next : Arena} {k : Int} (ok : next.Lawful t) :
      Edit.Works t (checkKind category k span) next fun k _ => k ∈ category.kinds :=
    Yields.of_quiet ok.leads checkKind_quiet
  cases selector with
  | none => exact checked ready.lawful
  | some tree =>
    exact .bind (constantInteger_works ready) fun k next led _ => checked led.lawful

/-- A character length is known or given by an expression. -/
theorem declaredLength_works {length : Option Tree.CharLength} :
    (declaredLength env length span s).Works t a fun ans next => ∀ id ∈ ans.2,
    next.Since start id := by
  unfold declaredLength
  split
  · exact .pure ready.lawful.leads nofun
  · exact .pure ready.lawful.leads nofun
  · exact .pure ready.lawful.leads nofun
  · next tree =>
    refine .bind (resolve_makes tree ready) fun id next led since => ?_
    refine typeOf_bind led.lawful since.2 fun ty _ _ => .guard fun _ => ?_
    obtain ⟨v, q⟩ := led.lawful.exists_integer? since.2
    refine ask_bind q ?_
    cases v with
    | some v => exact Yields.pure led.lawful.leads nofun
    | none =>
      refine Yields.pure led.lawful.leads fun o held => ?_
      cases held
      exact since

omit [t.Wary] in
theorem derivedType_quiet : Quiet t.tolerated (derivedType n span s) a fun symbol =>
      symbol.index < a.symbols.size ∧ a.NamesType symbol := by
  obtain ⟨ans, q, lt⟩ := ready.lawful.exists_lookup ready.inner.1 (Text.lowercase n)
  refine ask_bind q ?_
  cases ans with
  | none => exact .reject _ _
  | some symbol =>
    obtain ⟨past, held, st, found, named⟩ := ready.lawful.exists_target (lt symbol rfl)
    refine ask_bind named ?_
    split
    · next info isType =>
      exact Quiet.pure ⟨lt symbol rfl, past, st, info.scope, info.parent, held,
        found, by rw [isType]; rfl⟩
    · exact Runs.reject _ _

/-- The type that a declaration gives is lawful, and that of a single value. -/
theorem declaredType_works {spec : Tree.TypeSpec} : (declaredType env spec span s).Works t a
    fun ty next =>
      next.LawfulType t ty ∧ ty.IsElement := by
  have kinds {selector : Option Tree.Expr} {category : TypeCategory} {absent : Int}
      {form : Nat → Ty}
      (plain : ∀ k, (form k).IsPlain) (supported : ∀ k ∈ category.kinds, (form k).Supported) :
      Edit.Works t (form <$> selectedKind env selector category absent span s) a
        fun ty next => next.LawfulType t ty ∧ ty.IsElement :=
    Yields.map ((selectedKind_works ready).mono fun k _ _ isKind =>
      ⟨.ofPlain (plain k) (supported k isKind), (plain k).isElement⟩)
  have named {n : String} {form : SymbolId → Ty} (single : ∀ sym, (form sym).IsElement)
      (exprs : ∀ sym, (form sym).exprs = []) (symbols : ∀ sym, (form sym).symbols = [sym])
      (supported : ∀ sym, (form sym).Supported) :
      Edit.Works t (form <$> derivedType n span s) a
        fun ty next => next.LawfulType t ty ∧ ty.IsElement := by
    refine .map ((derivedType_quiet ready).mono fun sym next ⟨same, lt, names⟩ => ?_)
    subst same
    refine ⟨ready.lawful.leads,
      ⟨(single sym).flat, fun id mem => ?_, fun id mem => ?_, supported sym⟩, single sym⟩
    · rw [exprs] at mem
      cases mem
    · rw [symbols] at mem
      cases mem_singleton.1 mem
      exact ⟨lt, .inr names⟩
  unfold declaredType
  split
  · exact kinds (fun _ => trivial) fun _ => id
  · exact kinds (fun _ => trivial) fun _ => id
  · exact .pure ready.lawful.leads ⟨.ofPlain trivial (by decide), trivial⟩
  · exact kinds (fun _ => trivial) fun _ => id
  · exact kinds (fun _ => trivial) fun _ => id
  · refine .bind (selectedKind_works ready) fun k mid led isKind => ?_
    refine .bind (declaredLength_works (ready.after led)) fun ans next further since => ?_
    refine .pure further.lawful.leads
      ⟨⟨trivial, fun id mem => ?_, fun id mem => ?_, isKind⟩, trivial⟩
    · exact (since id (Option.mem_toList.1 mem)).2
    · cases mem
  · exact named (fun _ => trivial) (fun _ => rfl) (fun _ => rfl) fun _ => trivial
  · exact .guard fun _ => named (fun _ => trivial) (fun _ => rfl) (fun _ => rfl) fun _ => trivial

end Expression

end FortranSemantics
