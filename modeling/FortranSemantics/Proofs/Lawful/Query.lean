import FortranSemantics.Proofs.Lawful.Move

/-!
# Questions about lawful arenas

Every question that an analysis asks about what is in a lawful arena has an answer, which is in the
arena too.
-/

namespace FortranSemantics.Arena

open List

variable {t : Terms} {a : Arena} {dummy id : SymbolId} {s : ScopeId} {type left right actual : Ty}
  {args : List Ty} {fuel : Nat} {sym : Symbol} {n : String} {receiver : Option Ty}

theorem LawfulType.element (law : a.LawfulType t type) : a.LawfulType t type.element where
  flat := law.flat.element.flat
  exprs id mem := law.exprs id (type.exprs_element mem)
  symbols id mem := law.symbols id (type.symbols_element ▸ mem)
  supported := type.supported_element.2 law.supported

theorem LawfulType.ofPlain (plain : type.IsPlain) (supported : type.Supported) :
    a.LawfulType t type where
  flat := plain.isElement.flat
  exprs id mem := by
    rw [plain.exprs] at mem
    cases mem
  symbols id mem := by
    rw [plain.symbols] at mem
    cases mem
  supported := supported

theorem LawfulType.integer : a.LawfulType t (.integer 4) :=
  .ofPlain trivial (by decide)

section

variable (law : a.LawfulType t type)

include law

theorem LawfulVariable.ofType (intent : Intent) :
    a.LawfulVariable t { Variable.ofType type with intent } where
  type o isType := by
    cases isType
    exact law
  typed untyped := nomatch untyped
  init id held := nomatch held
  value id held := nomatch held
  aliased id held := nomatch held

theorem LawfulType.pointer : a.LawfulType t (.pointer type) :=
  ⟨law.flat, law.exprs, law.symbols, law.supported⟩

theorem LawfulType.allocatable : a.LawfulType t (.allocatable type) :=
  ⟨law.flat, law.exprs, law.symbols, law.supported⟩

end

/-- Whether the bounds of a dimension are there. -/
def LawfulDimension (arena : Arena) (dim : Dimension) : Prop :=
  ∀ id ∈ Ty.dimensionExprs dim, id.index < arena.exprs.size

section

variable (law : a.LawfulType t type)

include law

theorem LawfulType.dims : ∀ dim ∈ type.dims, a.LawfulDimension dim := by
  intro dim mem id held
  exact law.exprs id (type.exprs_dims (mem_flatMap.2 ⟨dim, mem, held⟩))

theorem LawfulType.shaped (scalar : type.rank = 0) {dims : List Dimension}
    (bounds : ∀ dim ∈ dims, a.LawfulDimension dim) : a.LawfulType t (.shaped type dims) where
  flat := law.flat.shaped scalar dims
  exprs id mem := by
    rcases mem_append.1 (type.exprs_shaped dims mem) with inType | inDims
    · exact law.exprs id inType
    · obtain ⟨dim, isDim, held⟩ := mem_flatMap.1 inDims
      exact bounds dim isDim id held
  symbols id mem := law.symbols id (type.symbols_shaped dims ▸ mem)
  supported := (type.supported_shaped dims).2 law.supported

theorem LawfulType.withElement {el : Ty} (single : el.IsElement) (elementLaw : a.LawfulType t el) :
    a.LawfulType t (type.withElement el) :=
  elementLaw.shaped single.rank law.dims

end

theorem LawfulType.assumedShape {el : Ty} (law : a.LawfulType t el)
    (single : el.IsElement) (rank : Nat) : a.LawfulType t (.assumedShape el rank) := by
  refine law.shaped single.rank fun dim mem id held => ?_
  cases (mem_replicate.1 mem).2
  cases held

theorem LawfulType.derivedSymbol? (law : a.LawfulType t type) {sym : SymbolId}
    (h : type.derivedSymbol? = some sym) : sym.index < a.symbols.size :=
  (law.symbols sym (Ty.mem_symbols_of_derivedSymbol? h)).1

theorem exists_uniqueName (lt : s.index < a.scopes.size) (base : String) :
    ∃ n, a.uniqueName s base = .ok n ∧ a.Free s n := by
  obtain ⟨tb, h⟩ := exists_scope lt
  have chosen : a.uniqueName s base = .ok (tb.uniqueName base) :=
    bind_eq_ok.2 ⟨tb, h, rfl⟩
  exact ⟨_, chosen, free_uniqueName chosen⟩

/-- Choosing the items with a property succeeds when it is known of each of them. -/
theorem exists_filterM {α : Type} {asks : α → Except Breach Bool} {items : List α}
    (each : ∀ item ∈ items, ∃ ans, asks item = .ok ans) : ∃ chosen,
    items.filterM asks = .ok chosen ∧
      ∀ item ∈ chosen, item ∈ items ∧ asks item = .ok true := by
  have collected : ∀ (rest held : List α), (∀ item ∈ rest, item ∈ items) →
      (∀ item ∈ held, item ∈ items ∧ asks item = .ok true) →
        ∃ chosen, rest.filterAuxM asks held = .ok chosen ∧
          ∀ item ∈ chosen, item ∈ items ∧ asks item = .ok true := by
    intro rest
    induction rest with
    | nil => exact fun held _ kept => ⟨held, rfl, kept⟩
    | cons item rest ih =>
      intro held mem kept
      obtain ⟨ans, q⟩ := each item (mem item (.head _))
      have others : ∀ o ∈ rest, o ∈ items := fun o member =>
        mem o (.tail _ member)
      simp only [filterAuxM, q, bind, Except.bind]
      cases ans with
      | true =>
        exact ih (item :: held) others (forall_mem_cons.2 ⟨⟨mem item (.head _), q⟩, kept⟩)
      | false => exact ih held others kept
  obtain ⟨chosen, ran, kept⟩ := collected items [] (fun _ mem => mem) fun _ mem =>
    absurd mem not_mem_nil
  refine ⟨chosen.reverse, ?_, fun item mem => kept item (mem_reverse.1 mem)⟩
  unfold filterM
  simp only [ran, bind, Except.bind]
  rfl

namespace Lawful

variable (ok : a.Lawful t)

include ok

/-! ## Expressions -/

theorem exists_type {id : ExprId} (lt : id.index < a.exprs.size) :
    ∃ type, a.exprType id = .ok type ∧ a.HasType id type ∧ a.LawfulType t type := by
  obtain ⟨expr, h⟩ := exists_expr lt
  have has : a.HasType id expr.type := ⟨expr, h, rfl⟩
  exact ⟨expr.type, exprType_eq_ok.2 has, has, (ok.expr h).type⟩

theorem lawfulType {id : ExprId} (has : a.HasType id type) : a.LawfulType t type := by
  obtain ⟨expr, h, rfl⟩ := has
  exact (ok.expr h).type

theorem exists_constant? {id : ExprId} (lt : id.index < a.exprs.size) : ∃ ans,
    a.constant? id = .ok ans := by
  obtain ⟨expr, h⟩ := exists_expr lt
  obtain ⟨count, size⟩ : ∃ count, a.exprs.size = count + 1 := ⟨a.exprs.size - 1, by omega⟩
  unfold constant?
  rw [size]
  simp only [constantWithin, h, bind, Except.bind]
  split
  · exact ⟨_, rfl⟩
  · next v attached _ =>
    -- an attached value is a literal, so the search ends there
    obtain ⟨literal, constant, foundLiteral, isLiteral⟩ := (ok.expr h).value v attached
    simp only [foundLiteral, isLiteral]
    exact ⟨_, rfl⟩
  · exact ⟨_, rfl⟩

theorem exists_integer? {id : ExprId} (lt : id.index < a.exprs.size) : ∃ ans,
    a.integer? id = .ok ans := by
  obtain ⟨constant, h⟩ := ok.exists_constant? lt
  exact ⟨_, bind_eq_ok.2 ⟨constant, h, rfl⟩⟩

theorem exists_optionalInteger? {id : Option ExprId} (lt : ∀ expr ∈ id, expr.index < a.exprs.size) :
    ∃ ans, a.optionalInteger? id = .ok ans := by
  cases id with
  | none => exact ⟨none, rfl⟩
  | some expr => exact ok.exists_integer? (lt expr rfl)

/-! ## Symbols -/

section

variable (lt : id.index < a.symbols.size)

include lt

theorem exists_pastImport : ∃ past sym, a.pastImport id = .ok past ∧ a.symbol past = .ok sym := by
  obtain ⟨past, st, bound⟩ := ok.sound.exists_pastImport lt
  obtain ⟨sym, h⟩ := exists_symbol (bound.trans_lt lt)
  exact ⟨past, sym, st, h⟩

theorem exists_target : ∃ past sym, a.pastImport id = .ok past ∧ a.symbol past = .ok sym ∧
      a.target id = .ok sym.kind := by
  obtain ⟨past, sym, st, h⟩ := ok.exists_pastImport lt
  exact ⟨past, sym, st, h, bind_eq_ok.2 ⟨past, st, kind_eq_ok.2 ⟨sym, h, rfl⟩⟩⟩

theorem exists_asVariable? : ∃ ans, a.asVariable? id = .ok ans ∧ ∀ info ∈ ans,
    a.LawfulVariable t info := by
  obtain ⟨past, sym, st, h, named⟩ := ok.exists_target lt
  have law := ok.kind h
  unfold asVariable?
  simp only [named, bind, Except.bind]
  split
  · next info here =>
    refine ⟨some info, rfl, fun held mem => ?_⟩
    cases mem
    rw [here] at law
    exact law
  · exact ⟨none, rfl, nofun⟩

theorem exists_variableType? : ∃ ans, a.variableType? id = .ok ans ∧ ∀ type ∈ ans,
    a.LawfulType t type := by
  obtain ⟨ans, q, law⟩ := ok.exists_asVariable? lt
  refine ⟨ans.bind (·.type), bind_eq_ok.2 ⟨ans, q, rfl⟩, fun type mem => ?_⟩
  obtain ⟨info, isInfo, typed⟩ := Option.bind_eq_some_iff.1 mem
  exact (law info isInfo).type type typed

theorem exists_asFunction? : ∃ ans, a.asFunction? id = .ok ans ∧ ∀ info ∈ ans, ∃ past sym,
      a.pastImport id = .ok past ∧ a.symbol past = .ok sym ∧ sym.kind = .function info := by
  obtain ⟨past, sym, st, h, named⟩ := ok.exists_target lt
  unfold asFunction?
  simp only [named, bind, Except.bind]
  split
  · next info here =>
    refine ⟨some info, rfl, fun held mem => ?_⟩
    cases mem
    exact ⟨past, sym, st, h, here⟩
  · exact ⟨none, rfl, nofun⟩

end

theorem argument_inRange (h : a.symbol id = .ok sym) (mem : argument ∈ sym.kind.arguments) :
    argument.index < a.symbols.size := by
  obtain ⟨inner, -, held, foundHeld, -⟩ := ok.sound.arguments h argument mem
  exact symbol_inRange foundHeld

theorem dummy_inRange (h : a.symbol id = .ok sym) (named : sym.kind = .function info)
    (mem : dummy ∈ info.args) : dummy.index < a.symbols.size := by
  refine ok.argument_inRange h ?_
  rw [named]
  exact mem_append_left _ mem

section

variable (lt : id.index < a.symbols.size)

include lt

theorem exists_isIntrinsic : ∃ ans, a.isIntrinsic id = .ok ans := by
  obtain ⟨ans, q, -⟩ := ok.exists_asFunction? lt
  exact ⟨_, bind_eq_ok.2 ⟨ans, q, rfl⟩⟩

theorem exists_isInteractiveStub : ∃ ans, a.isInteractiveStub id = .ok ans := by
  obtain ⟨ans, q, -⟩ := ok.exists_asFunction? lt
  exact ⟨_, bind_eq_ok.2 ⟨ans, q, rfl⟩⟩

/-- The type of a procedure's result is known, and is lawful. -/
theorem exists_returnType? : ∃ ans, a.returnType? id = .ok ans ∧ ∀ type ∈ ans,
    a.LawfulType t type := by
  obtain ⟨ans, q, law⟩ := ok.exists_asFunction? lt
  unfold returnType?
  simp only [q, bind, Except.bind]
  cases res : ans.bind (·.result) with
  | none => exact ⟨none, rfl, nofun⟩
  | some variable' =>
    obtain ⟨info, isInfo, returned⟩ := Option.bind_eq_some_iff.1 res
    obtain ⟨past, sym, -, h, named⟩ := law info isInfo
    refine ok.exists_variableType? (ok.argument_inRange h ?_)
    rw [named]
    exact mem_append_right _ (Option.mem_toList.2 returned)

end

/-! ## Names -/

theorem exists_find? (lt : s.index < a.scopes.size) (n : String) : ∃ ans, a.find? s n = .ok ans ∧
    ∀ id ∈ ans, ∃ sym,
      a.symbol id = .ok sym ∧ sym.owner = s ∧ sym.name = n := by
  obtain ⟨tb, h⟩ := exists_scope lt
  refine ⟨tb.find? n, bind_eq_ok.2 ⟨tb, h, rfl⟩, fun id st => ?_⟩
  exact ok.sound.entry h (Scope.mem_of_find? st)

theorem lookupWithin_inRange (h : a.lookupWithin n fuel s = .ok (some id)) :
    id.index < a.symbols.size := by
  induction fuel generalizing s with
  | zero => cases h
  | succ fuel ih =>
    obtain ⟨tb, foundTable, rest⟩ := bind_eq_ok.1 h
    split at rest
    · next st =>
      cases rest
      obtain ⟨sym, foundSymbol, -⟩ := ok.sound.entry foundTable (Scope.mem_of_find? st)
      exact symbol_inRange foundSymbol
    · exact ih rest
    · cases rest

theorem exists_lookup (lt : s.index < a.scopes.size) (n : String) :
    ∃ ans, a.lookup s n = .ok ans ∧ ∀ id ∈ ans, id.index < a.symbols.size := by
  obtain ⟨ans, q⟩ := ok.sound.exists_lookupWithin n lt (Nat.lt_succ_of_lt lt)
  refine ⟨ans, q, fun id st => ?_⟩
  cases st
  exact ok.lookupWithin_inRange q

/-- The unit around a scope in range is known, and is in range. -/
theorem exists_enclosingUnit? (lt : s.index < a.scopes.size) :
    ∃ ans, a.enclosingUnit? s = .ok ans ∧ ∀ id ∈ ans, id.index < a.symbols.size := by
  have own : ∀ fuel (s : ScopeId) id, a.unitWithin fuel s = .ok (some id) →
      id.index < a.symbols.size := by
    intro fuel
    induction fuel with
    | zero => exact nofun
    | succ fuel ih =>
      intro s id h
      obtain ⟨tb, foundTable, rest⟩ := bind_eq_ok.1 h
      split at rest
      · cases rest
      · split at rest
        · obtain ⟨sym, foundSymbol, -⟩ := ok.sound.owner foundTable (Except.ok.inj rest)
          exact symbol_inRange foundSymbol
        · exact ih _ id rest
  obtain ⟨ans, q⟩ := ok.sound.exists_unitWithin lt (Nat.lt_succ_of_lt lt)
  refine ⟨ans, q, fun id isUnit => ?_⟩
  cases isUnit
  exact own _ _ _ q

/-! ## Derived types -/

theorem memberWithin_inRange {type : SymbolId} (h : a.memberWithin n fuel type = .ok (some id)) :
    id.index < a.symbols.size := by
  induction fuel generalizing type with
  | zero => cases h
  | succ fuel ih =>
    obtain ⟨k, foundKind, rest⟩ := bind_eq_ok.1 h
    split at rest
    · obtain ⟨own, foundOwn, rest⟩ := bind_eq_ok.1 rest
      split at rest
      · cases rest
        obtain ⟨tb, foundTable, st⟩ := bind_eq_ok.1 foundOwn
        obtain ⟨sym, foundSymbol, -⟩ :=
          ok.sound.entry foundTable (Scope.mem_of_find? (Except.ok.inj st))
        exact symbol_inRange foundSymbol
      · obtain ⟨parent, foundParent, rest⟩ := bind_eq_ok.1 rest
        split at rest
        · exact ih rest
        · cases rest
    · cases rest

theorem exists_member? {type : SymbolId} (lt : type.index < a.symbols.size) (n : String) :
    ∃ ans, a.member? type n = .ok ans ∧ ∀ id ∈ ans, id.index < a.symbols.size := by
  obtain ⟨past, st, bound⟩ := ok.sound.exists_pastImport lt
  have pastInRange : past.index < a.symbols.size := bound.trans_lt lt
  obtain ⟨ans, q⟩ :=
    ok.sound.exists_memberWithin n pastInRange (Nat.lt_succ_of_lt pastInRange)
  refine ⟨ans, bind_eq_ok.2 ⟨past, st, q⟩, fun id isMember => ?_⟩
  cases isMember
  exact ok.memberWithin_inRange q

/-- The components of a derived type are variables with types. -/
theorem componentsWithin_isTyped {type : SymbolId} {members : List SymbolId}
    (h : a.componentsWithin fuel type = .ok members) : ∀ id ∈ members, a.IsTyped id := by
  induction fuel generalizing type members with
  | zero => cases h
  | succ fuel ih =>
    obtain ⟨k, foundKind, rest⟩ := bind_eq_ok.1 h
    split at rest
    · next info =>
      obtain ⟨past, -, named⟩ := bind_eq_ok.1 foundKind
      obtain ⟨sym, foundSymbol, isType⟩ := kind_eq_ok.1 named
      have law := ok.kind foundSymbol
      rw [isType] at law
      have own : ∀ tb, a.scope info.scope = .ok tb →
          ∀ id ∈ info.members.filterMap tb.find?, a.IsTyped id := by
        intro tb foundTable id mem
        obtain ⟨n, isName, st⟩ := mem_filterMap.1 mem
        obtain ⟨held, member, foundHeld, -, standsFor, typed⟩ := law n isName
        cases foundTable.symm.trans foundHeld
        cases st.symm.trans standsFor
        exact typed
      split at rest
      · obtain ⟨inherited, collected, rest⟩ := bind_eq_ok.1 rest
        obtain ⟨tb, foundTable, rest⟩ := bind_eq_ok.1 rest
        cases rest
        intro id mem
        rcases mem_append.1 mem with above | here
        · exact ih collected id above
        · exact own tb foundTable id here
      · obtain ⟨_, none, rest⟩ := bind_eq_ok.1 rest
        obtain ⟨tb, foundTable, rest⟩ := bind_eq_ok.1 rest
        cases none
        cases rest
        exact own tb foundTable
    · cases rest
      exact nofun

theorem exists_components {type : SymbolId} (lt : type.index < a.symbols.size) :
    ∃ members, a.components type = .ok members ∧ ∀ id ∈ members, a.IsTyped id := by
  obtain ⟨members, collected⟩ :=
    ok.sound.exists_componentsWithin lt (Nat.lt_succ_of_lt lt)
  exact ⟨members, collected, ok.componentsWithin_isTyped collected⟩

theorem exists_isExtension (childInRange : child.index < a.symbols.size)
    (ancestorInRange : ancestor.index < a.symbols.size) : ∃ ans,
    a.isExtension child ancestor = .ok ans := by
  obtain ⟨last, foundLast, -⟩ := ok.sound.exists_pastImport ancestorInRange
  obtain ⟨past, h, bound⟩ := ok.sound.exists_pastImport childInRange
  have lt : past.index < a.symbols.size := bound.trans_lt childInRange
  obtain ⟨ans, searched⟩ :=
    ok.sound.exists_extendsWithin last lt (Nat.lt_succ_of_lt lt)
  exact ⟨ans, bind_eq_ok.2 ⟨last, foundLast, bind_eq_ok.2 ⟨past, h, searched⟩⟩⟩

/-! ## Relations between types -/

/-- It is known whether two element types agree. -/
theorem exists_elementsEqual (leftLaw : a.LawfulType t left) (rightLaw : a.LawfulType t right) :
    ∃ ans, a.elementsEqual left right = .ok ans := by
  have same {first second : SymbolId} (isFirst : first ∈ left.symbols)
      (isSecond : second ∈ right.symbols) : ∃ ans, a.sameDefinition first second = .ok ans := by
    obtain ⟨past, st, -⟩ := ok.sound.exists_pastImport (leftLaw.symbols first isFirst).1
    obtain ⟨o, standsToo, -⟩ := ok.sound.exists_pastImport (rightLaw.symbols second isSecond).1
    exact ⟨_, bind_eq_ok.2 ⟨past, st, bind_eq_ok.2 ⟨o, standsToo, rfl⟩⟩⟩
  unfold elementsEqual
  split
  all_goals first | exact ⟨_, rfl⟩ | exact same (mem_singleton_self _) (mem_singleton_self _)

theorem exists_typesEqual (leftLaw : a.LawfulType t left) (rightLaw : a.LawfulType t right) :
    ∃ ans, a.typesEqual left right = .ok ans := by
  unfold typesEqual
  split
  · exact ok.exists_elementsEqual leftLaw.element rightLaw.element
  · exact ⟨_, rfl⟩

/-- It is known whether a value may be passed to a dummy argument. -/
theorem exists_argumentCompatible (formalLaw : a.LawfulType t formal)
    (actualLaw : a.LawfulType t actual) : ∃ ans, a.argumentCompatible formal actual = .ok ans := by
  have inFormal := formalLaw.element
  have inActual := actualLaw.element
  unfold argumentCompatible
  split
  · split
    iterate 2
      · next formal actual isFormal isActual =>
        rw [isFormal] at inFormal
        rw [isActual] at inActual
        exact ok.exists_isExtension (inActual.symbols actual (mem_singleton_self _)).1
          (inFormal.symbols formal (mem_singleton_self _)).1
    · exact ok.exists_elementsEqual inFormal inActual
  · exact ⟨_, rfl⟩

theorem exists_dimensionText (law : a.LawfulDimension dim) : ∃ text,
    a.dimensionText dim = .ok text := by
  have inDim {id : ExprId} (held : id ∈ dim.start ∨ id ∈ dim.length) : id.index < a.exprs.size := by
    refine law id ?_
    simpa only [Ty.dimensionExprs, mem_append, Option.mem_toList, Option.mem_def] using held
  obtain ⟨start, q⟩ := ok.exists_optionalInteger? fun id held => inDim (.inl held)
  obtain ⟨length, askedToo⟩ := ok.exists_optionalInteger? fun id held => inDim (.inr held)
  unfold dimensionText
  simp only [q, askedToo, bind, Except.bind]
  split
  · split <;> exact ⟨_, rfl⟩
  · exact ⟨_, rfl⟩
  · exact ⟨_, rfl⟩

theorem exists_typeName (law : a.LawfulType t type) : ∃ text, a.typeName type = .ok text := by
  obtain ⟨-, inExprs, inSymbols, -⟩ := law
  have named {sym : SymbolId} (lt : sym.index < a.symbols.size) : ∃ n, a.name sym = .ok n := by
    obtain ⟨held, h⟩ := exists_symbol lt
    exact ⟨held.name, name_eq_ok.2 ⟨held, h, rfl⟩⟩
  induction type with
  | character k length lengthExpr => cases length <;> exact ⟨_, rfl⟩
  | array el dims ih =>
    obtain ⟨text, foundText⟩ := ih (fun id held => inExprs id (mem_append_left _ held)) inSymbols
    obtain ⟨texts, foundTexts⟩ : ∃ texts, dims.mapM a.dimensionText = .ok texts := by
      refine exists_answers fun dim mem => ok.exists_dimensionText fun id held => ?_
      exact inExprs id (mem_append_right _ (mem_flatMap.2 ⟨dim, mem, held⟩))
    exact ⟨_, bind_eq_ok.2 ⟨texts, foundTexts, bind_eq_ok.2 ⟨text, foundText, rfl⟩⟩⟩
  | derived sym | polymorphic sym =>
    obtain ⟨n, h⟩ := named (inSymbols sym (mem_singleton_self _)).1
    exact ⟨_, bind_eq_ok.2 ⟨n, h, rfl⟩⟩
  | pointer target ih | allocatable target ih =>
    obtain ⟨text, h⟩ := ih inExprs inSymbols
    exact ⟨_, bind_eq_ok.2 ⟨text, h, rfl⟩⟩
  | _ => exact ⟨_, rfl⟩

/-! ## Choice among the candidates of a generic -/

theorem exists_dummyEquals (lt : dummy.index < a.symbols.size) (law : a.LawfulType t actual) :
    ∃ ans, a.dummyEquals dummy actual = .ok ans := by
  obtain ⟨formal, q, formalLaw⟩ := ok.exists_variableType? lt
  unfold dummyEquals
  simp only [q, bind, Except.bind]
  cases formal with
  | none => exact ⟨_, rfl⟩
  | some type => exact ok.exists_typesEqual (formalLaw type rfl) law

/-- It is known whether dummy arguments have the types of actual ones. -/
theorem exists_signatureMatches
    (lt : ∀ dummy ∈ ds, dummy.index < a.symbols.size) (law : ∀ type ∈ args, a.LawfulType t type) :
    ∃ ans, a.signatureMatches ds args = .ok ans := by
  have each : ∃ ans, a.dummiesEqual ds args = .ok ans := by
    induction ds generalizing args with
    | nil => cases args <;> exact ⟨_, rfl⟩
    | cons dummy ds ih =>
      cases args with
      | nil => exact ⟨_, rfl⟩
      | cons actual actuals =>
        obtain ⟨equal, q⟩ :=
          ok.exists_dummyEquals (lt dummy (.head _)) (law actual (.head _))
        simp only [dummiesEqual, q, bind, Except.bind]
        split
        · exact ih (fun o mem => lt o (.tail _ mem)) fun type mem => law type (.tail _ mem)
        · exact ⟨_, rfl⟩
  unfold signatureMatches
  split
  · exact each
  · exact ⟨_, rfl⟩

theorem exists_dummyAccepts (lt : dummy.index < a.symbols.size) (law : a.LawfulType t object) :
    ∃ ans, a.dummyAccepts dummy object = .ok ans := by
  obtain ⟨formal, q, formalLaw⟩ := ok.exists_variableType? lt
  unfold dummyAccepts
  simp only [q, bind, Except.bind]
  cases formal with
  | none => exact ⟨_, rfl⟩
  | some type => exact ok.exists_argumentCompatible (formalLaw type rfl) law

/-- It is known whether a candidate fits, and one that fits is implemented by a procedure. -/
theorem exists_candidateMatches (lt : candidate.index < a.symbols.size)
    (law : ∀ type ∈ args, a.LawfulType t type)
    (receiverLaw : ∀ type ∈ receiver, a.LawfulType t type) :
    ∃ ans, a.candidateMatches candidate args receiver = .ok ans ∧
      (ans = true → a.IsCallable candidate) := by
  obtain ⟨past, sym, st, h⟩ := ok.exists_pastImport lt
  have kindFound : a.kind past = .ok sym.kind := kind_eq_ok.2 ⟨sym, h, rfl⟩
  have kindLaw := ok.kind h
  unfold candidateMatches IsCallable implementation
  simp only [st, kindFound, bind, Except.bind]
  cases named : sym.kind with
  | function info =>
    obtain ⟨ans, q⟩ :=
      ok.exists_signatureMatches (fun dummy => ok.dummy_inRange h named) law
    exact ⟨ans, q, fun _ => ⟨past, info.scope, rfl, sym, h, by rw [named]; rfl⟩⟩
  | binding info =>
    rw [named] at kindLaw
    obtain ⟨ans, q, isFunction⟩ := ok.exists_asFunction? kindLaw.1
    simp only [q]
    cases ans with
    | none => exact ⟨false, rfl, nofun⟩
    | some function =>
      obtain ⟨proc, held, procStands, hh, heldNamed⟩ := isFunction function rfl
      have callable : ∃ function s, a.pastImport info.proc = .ok function ∧
          a.HasForm function (.function s) :=
        ⟨proc, function.scope, procStands, held, hh, by rw [heldNamed]; rfl⟩
      have ds : ∀ dummy ∈ function.args, dummy.index < a.symbols.size := fun dummy =>
        ok.dummy_inRange hh heldNamed
      obtain ⟨ans, whole⟩ := ok.exists_signatureMatches ds law
      cases info.dispatch with
      | noPass => exact ⟨ans, whole, fun _ => callable⟩
      | pass =>
        cases receiver with
        | none => exact ⟨ans, whole, fun _ => callable⟩
        | some object =>
          revert ds
          simp only
          cases function.args with
          | nil => exact fun _ => ⟨false, rfl, nofun⟩
          | cons first rest =>
            intro ds
            obtain ⟨accepts, accepted⟩ := ok.exists_dummyAccepts (ds first (.head _))
              (receiverLaw object rfl)
            obtain ⟨ans, others⟩ := ok.exists_signatureMatches
              (fun dummy mem => ds dummy (.tail _ mem)) law
            simp only [accepted, others]
            cases accepts <;> exact ⟨_, rfl, fun _ => callable⟩
  | _ => exact ⟨false, rfl, nofun⟩

/-- A candidate of a generic is chosen among those that fit. -/
theorem exists_select (policy : OverloadPolicy) {candidates : List SymbolId}
    (lt : ∀ candidate ∈ candidates, candidate.index < a.symbols.size)
    (law : ∀ type ∈ args, a.LawfulType t type)
    (receiverLaw : ∀ type ∈ receiver, a.LawfulType t type) :
    ∃ ans, a.select policy candidates args receiver = .ok ans ∧
      (∀ candidate, ans = .found candidate → candidate ∈ candidates ∧ a.IsCallable candidate) ∧
      ∀ several, ans = .ambiguous several → several ⊆ candidates := by
  have each : ∀ candidate ∈ candidates, ∃ ans, a.candidateMatches candidate args
      receiver = .ok ans ∧
        (ans = true → a.IsCallable candidate) := fun candidate mem =>
    ok.exists_candidateMatches (lt candidate mem) law receiverLaw
  cases policy with
  | firstMatch =>
    unfold select
    induction candidates with
    | nil => exact ⟨.noMatch, rfl, nofun, nofun⟩
    | cons candidate rest ih =>
      obtain ⟨ans, q, callable⟩ := each candidate (.head _)
      simp only [firstMatch, q, bind, Except.bind]
      cases ans with
      | true =>
        refine ⟨.found candidate, rfl, fun o isFound => ?_, nofun⟩
        cases isFound
        exact ⟨(.head _), callable rfl⟩
      | false =>
        obtain ⟨ans, searched, h, ambiguous⟩ := ih (fun o mem => lt o (.tail _ mem))
          fun o mem => each o (.tail _ mem)
        refine ⟨ans, searched, fun o isFound => ?_, fun several isSeveral o mem => ?_⟩
        · exact ⟨mem_cons_of_mem _ (h o isFound).1, (h o isFound).2⟩
        · exact mem_cons_of_mem _ (ambiguous several isSeveral mem)
  | unique =>
    obtain ⟨chosen, filtered, mem⟩ :=
      exists_filterM fun candidate isCandidate => (each candidate isCandidate).imp
        fun _ held => held.1
    unfold select uniqueMatch
    simp only [filtered, bind, Except.bind]
    split
    · exact ⟨.noMatch, rfl, nofun, nofun⟩
    · next candidate =>
      refine ⟨.found candidate, rfl, fun o isFound => ?_, nofun⟩
      cases isFound
      obtain ⟨isCandidate, fits⟩ := mem candidate (mem_singleton_self _)
      obtain ⟨ans, q, callable⟩ := each candidate isCandidate
      cases fits.symm.trans q
      exact ⟨isCandidate, callable rfl⟩
    · refine ⟨.ambiguous chosen, rfl, nofun, fun o isSeveral => ?_⟩
      cases isSeveral
      exact fun candidate isChosen => (mem candidate isChosen).1

end Lawful

end FortranSemantics.Arena
