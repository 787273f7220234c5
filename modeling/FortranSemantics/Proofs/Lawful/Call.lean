import FortranSemantics.Proofs.Lawful.Array

/-!
# Calls in lawful arenas

A name with arguments becomes an expression whatever it stands for. Procedures are found behind
generics and type-bound names, every dummy argument has its slot, and every component of a
constructor has a type.
-/

namespace FortranSemantics

open List Arena Edit

variable {α β : Type} {t : Terms} {a b : Arena} {start : Nat} {generic id symbol target : SymbolId}
  {s : ScopeId} {name moduleName procedure : String} {span : Span} {arg : ActualArgument}
  {env : Environment} {args : List ActualArgument} {dummies candidates members : List SymbolId}
  {post : β → Arena → Prop} {binding : Binding} {type : Ty}

/-! ## Symbols with scopes of their own -/

namespace Edit

/-- A new symbol with a new scope is put under a free name. -/
theorem opening_overwrite_works {owner : ScopeId} {k : ScopeId → SymbolKind}
    {next : SymbolId → Edit β} (ok : a.Lawful t) (free : a.Free owner name)
    (opens : (k ⟨a.scopes.size⟩).scope? = some ⟨a.scopes.size⟩)
    (arguments : (k ⟨a.scopes.size⟩).arguments = []) (settled : (k ⟨a.scopes.size⟩).isStub = false)
    (origin : ∀ origin, (k ⟨a.scopes.size⟩).form.origin? = some origin →
      origin.index < a.symbols.size)
    (law : a.LawfulKind t owner (k ⟨a.scopes.size⟩))
    (empty : ∀ node, .expr node ∉ (k ⟨a.scopes.size⟩).references)
    (rest : ∀ opened, a.Opened t owner name (k ⟨a.scopes.size⟩) opened →
      (next ⟨a.symbols.size⟩).Works t opened post) :
    (addScope (some owner) >>= fun s => addSymbol name owner (k s) >>= fun symbol =>
      modifyScope s (fun held => { held with owner := some symbol }) >>= fun _ =>
        overwrite owner name symbol >>= fun _ => next symbol : Edit β).Works t a post := by
  have lt : owner.index < a.scopes.size := by
    obtain ⟨table, found, -⟩ := free
    exact scope_inRange found
  have opened := (Arena.LawfulEntry.opening ok free opens arguments settled origin law empty).opened
    ok lt opens
  refine opening_runs opens ?_
  have entered : (owner.index < (a.addScope (some owner) none).2.scopes.size) := by
    simp only [Arena.addScope, Array.size_push]
    omega
  exact Runs.bind_ok (overwrite_attach_eq entered) ((rest _ opened).after opened.leads)

end Edit

namespace Intrinsic

variable (ok : a.Lawful t)

include ok

/-- The symbol of an intrinsic module opens a scope. -/
theorem moduleSymbol_works : (moduleSymbol moduleName).Works t a fun id next =>
      ∃ symbol inner, next.symbol id = .ok symbol ∧ symbol.kind.scope? = some inner := by
  obtain ⟨ans, asked, stands⟩ := ok.exists_find? ok.sound.root_inRange moduleName
  refine Runs.bind_ok rfl (ask_bind asked ?_)
  cases ans with
  | some id =>
    obtain ⟨symbol, found, owned, -⟩ := stands id rfl
    obtain ⟨inner, opens⟩ := Option.isSome_iff_exists.1 (ok.units found owned)
    exact Yields.pure ok.leads ⟨symbol, inner, found, opens⟩
  | none =>
    have free : a.Free a.root moduleName := free_iff.1 asked
    refine opening_overwrite_works ok free rfl rfl rfl ?_ rfl ?_ fun opened entered => ?_
    · exact nofun
    · exact fun node => not_mem_nil
    · exact .pure entered.leads.lawful.leads ⟨_, _, entered.symbol, rfl⟩

theorem functionSymbol_works :
    (functionSymbol moduleName name).Works t a fun id next => id.index < next.symbols.size := by
  refine .bind (moduleSymbol_works ok) fun id mid led ⟨symbol, inner, found, opens⟩ => ?_
  have isInner := led.lawful.inner_opened found opens
  have opensInner : mid.symbolScope? id = .ok (some inner) :=
    bind_eq_ok.2 ⟨symbol.kind, kind_eq_ok.2 ⟨symbol, found, rfl⟩, congrArg Except.ok opens⟩
  obtain ⟨ans, asked, stands⟩ := led.lawful.exists_find? isInner.1 name
  refine ask_bind opensInner (ask_bind asked ?_)
  cases ans with
  | some function =>
    obtain ⟨held, foundHeld, -⟩ := stands function rfl
    exact Yields.pure led.lawful.leads (symbol_inRange foundHeld)
  | none =>
    refine opening_overwrite_works led.lawful (free_iff.1 asked) rfl rfl rfl ?_
      (lawfulBody_nil _ _) ?_ fun opened entered => ?_
    · exact nofun
    · exact fun node => not_mem_nil
    · exact .pure entered.leads.lawful.leads (symbol_inRange entered.symbol)

/-- Whether a name is an import of a symbol is known. -/
theorem exists_present (lt : s.index < a.scopes.size) : ∃ ans, (do
      match ← a.find? s name with
      | some existing => return if (← a.pastImport existing) = target then some existing else none
      | none => return none : Except Breach (Option SymbolId)) = .ok ans ∧
        ∀ id ∈ ans, id.index < a.symbols.size := by
  obtain ⟨ans, asked, stands⟩ := ok.exists_find? lt name
  simp only [asked, bind, Except.bind]
  cases ans with
  | none => exact ⟨none, rfl, nofun⟩
  | some existing =>
    obtain ⟨symbol, found, -⟩ := stands existing rfl
    have existingInRange := symbol_inRange found
    obtain ⟨past, symbol, isPast, -⟩ := ok.exists_pastImport existingInRange
    simp only [isPast]
    refine ⟨_, rfl, fun id held => ?_⟩
    split at held
    · cases held
      exact existingInRange
    · cases held

theorem importInto_works (inner : a.Inner s) : (importInto s name).Works t a fun ans next =>
      ∀ id ∈ ans, id.index < next.symbols.size := by
  unfold importInto
  split
  · exact .pure ok.leads nofun
  · next moduleName _ =>
    refine .bind (functionSymbol_works ok) fun target mid led targetInRange => ?_
    have isInner := led.before.inner inner
    obtain ⟨ans, asked, present⟩ := exists_present led.lawful isInner.1
    refine ask_bind asked ?_
    cases ans with
    | some existing =>
      refine Yields.pure led.lawful.leads fun id held => ?_
      cases held
      exact present existing rfl
    | none =>
      obtain ⟨visible, chosen, free⟩ := exists_uniqueName isInner.1 name
      refine ask_bind chosen ?_
      refine overwrite_new_works led.lawful isInner rfl ?_ trivial
        (.inl SymbolKind.expr_not_mem_imported) ?_ (fun entered more found _ => ?_) free
      · intro origin isOrigin
        cases isOrigin
        exact targetInRange
      · exact nofun
      · have scopeInRange := (more.before.inner isInner).1
        refine .bind (addDependency_works more.lawful scopeInRange) fun _ last toLast _ => ?_
        refine .pure toLast.lawful.leads fun id held => ?_
        cases held
        exact (symbol_inRange found).trans_le toLast.before.symbols_le

end Intrinsic

/-! ## Binding of arguments -/

/-- Whether a symbol is a procedure itself, unless breaches are tolerated. -/
def Arena.Binds (terms : Terms) (arena : Arena) (id : SymbolId) : Prop :=
  id.index < arena.symbols.size ∧ (terms.breach ∨ ∃ s, arena.HasForm id (.function s))

theorem Arena.Precedes.binds (before : a.Precedes b) (binds : a.Binds t id) : b.Binds t id :=
  ⟨binds.1.trans_le before.symbols_le, binds.2.imp_right fun ⟨s, has⟩ => ⟨s, before.hasForm has⟩⟩

theorem Arena.HasForm.exists_function (has : a.HasForm id (.function s)) :
    ∃ symbol info, a.symbol id = .ok symbol ∧ symbol.kind = .function info := by
  obtain ⟨symbol, found, form⟩ := has
  refine ⟨symbol, ?_⟩
  cases named : symbol.kind <;> rw [named] at form <;> cases form
  exact ⟨_, found, rfl⟩

theorem Arena.asFunction?_of_symbol {symbol : Symbol} (found : a.symbol id = .ok symbol)
    (named : symbol.kind = .function info) : a.asFunction? id = .ok (some info) := by
  have itself : a.pastImport id = .ok id :=
    pastImport_eq_ok.2 ⟨symbol, found, by rw [named]; rfl⟩
  have target : a.target id = .ok (.function info) :=
    bind_eq_ok.2 ⟨id, itself, kind_eq_ok.2 ⟨symbol, found, named⟩⟩
  exact bind_eq_ok.2 ⟨_, target, rfl⟩

theorem Arena.IsTyped.exists_type (typed : a.IsTyped id) :
    id.index < a.symbols.size ∧ ∃ type, a.variableType? id = .ok (some type) := by
  obtain ⟨symbol, info, found, named, some⟩ := typed
  obtain ⟨type, isType⟩ := Option.isSome_iff_exists.1 some
  have itself : a.pastImport id = .ok id :=
    pastImport_eq_ok.2 ⟨symbol, found, by rw [named]; rfl⟩
  have target : a.target id = .ok (.variable info) :=
    bind_eq_ok.2 ⟨id, itself, kind_eq_ok.2 ⟨symbol, found, named⟩⟩
  have asked : a.asVariable? id = .ok (Option.some info) := bind_eq_ok.2 ⟨_, target, rfl⟩
  exact ⟨symbol_inRange found, type, bind_eq_ok.2 ⟨_, asked, congrArg Except.ok isType⟩⟩

namespace Expression

variable (ok : a.Lawful t)

include ok

theorem typeOf_bind {id : ExprId} (lt : id.index < a.exprs.size) {next : Ty → Edit β}
    (rest : ∀ type, a.HasType id type → a.LawfulType t type → Runs t.tolerated (next type) a post) :
    Runs t.tolerated (typeOf id >>= next) a post :=
  exprType_bind ok lt rest

omit ok in
theorem exists_positionOf? {symbols : List SymbolId}
    (lt : ∀ symbol ∈ symbols, symbol.index < a.symbols.size) :
    ∃ ans, positionOf? a name symbols = .ok ans := by
  induction symbols with
  | nil => exact ⟨none, rfl⟩
  | cons symbol rest ih =>
    obtain ⟨held, found⟩ := exists_symbol (lt symbol (.head _))
    obtain ⟨ans, asked⟩ := ih fun other mem => lt other (.tail _ mem)
    have named : a.name symbol = .ok held.name := name_eq_ok.2 ⟨held, found, rfl⟩
    simp only [positionOf?, named, asked, bind, Except.bind]
    split <;> exact ⟨_, rfl⟩

/-- What holds of the slots while arguments are bound. -/
structure Binding.Lawful (arena : Arena) (start : Nat) (dummies : List SymbolId)
    (binding : Binding) : Prop where
  same : binding.dummies = dummies
  length : binding.filled.length = dummies.length
  since : arena.SlotsSince start binding.filled

theorem checkArgument_quiet {dummy : SymbolId} (dummyInRange : dummy.index < a.symbols.size)
    (since : a.Since start arg.value) : Quiet t.tolerated (checkArgument procedure dummy arg) a
    fun _ => True := by
  obtain ⟨formal, asked, formalLaw⟩ := ok.exists_variableType? dummyInRange
  refine ask_bind asked ?_
  cases formal with
  | none => exact Quiet.pure trivial
  | some formal =>
    have law := formalLaw formal rfl
    refine typeOf_bind ok since.2 fun actual _ actualLaw => ?_
    obtain ⟨compatible, compared⟩ := ok.exists_argumentCompatible law actualLaw
    refine ask_bind compared ?_
    cases compatible with
    | true => exact Quiet.pure trivial
    | false =>
      refine name_bind dummyInRange fun _ => ?_
      refine typeName_bind ok law fun _ => ?_
      exact typeName_bind ok actualLaw fun _ => .reject _ _

omit ok in
theorem Binding.slotOf_quiet (lt : ∀ dummy ∈ dummies, dummy.index < a.symbols.size)
    (law : binding.Lawful a start dummies) :
    Quiet t.tolerated (binding.slotOf arg) a fun ans => ans.2.Lawful a start dummies := by
  unfold Binding.slotOf
  split
  · next keyword _ =>
    obtain ⟨ans, asked⟩ := exists_positionOf? (law.same ▸ lt)
    refine ask_bind asked ?_
    cases ans with
    | none => exact Runs.reject _ _
    | some i => exact Quiet.pure ⟨law.same, law.length, law.since⟩
  · exact Runs.guard fun _ => Quiet.pure ⟨law.same, law.length, law.since⟩

section

variable (lt : ∀ dummy ∈ dummies, dummy.index < a.symbols.size)

include lt

theorem Binding.bind_quiet (law : binding.Lawful a start dummies)
    (since : a.Since start arg.value) :
    Quiet t.tolerated (binding.bind arg) a fun binding => binding.Lawful a start dummies := by
  refine (Binding.slotOf_quiet lt law).bind fun ⟨i, found⟩ held => ?_
  dsimp only at held ⊢
  split
  · exact .reject _ _
  · next dummy isDummy =>
    rw [held.same] at isDummy
    have dummyInRange := lt dummy (mem_of_getElem? isDummy)
    split
    · next missing =>
      have inside := (List.getElem?_eq_some_iff.1 isDummy).1
      have outside := List.getElem?_eq_none_iff.1 missing
      have length := held.length
      omega
    · exact name_bind dummyInRange fun _ => Runs.reject _ _
    · refine (checkArgument_quiet ok dummyInRange since).bind fun _ _ => ?_
      refine Quiet.pure ⟨held.same, (length_set ..).trans held.length, fun other mem => ?_⟩
      rcases mem_or_eq_of_mem_set mem with old | new
      · exact held.since other old
      · cases new
        exact since

/-- Demanding the arguments that are not optional. -/
theorem checkPresence_quiet :
    Quiet t.tolerated (checkPresence procedure span dummies slots) a fun _ => True := by
  induction dummies generalizing slots with
  | nil => exact .pure trivial
  | cons dummy rest ih =>
    cases slots with
    | nil => exact .pure trivial
    | cons slot others =>
      have dummyInRange := lt dummy (.head _)
      obtain ⟨info, asked, -⟩ := ok.exists_asVariable? dummyInRange
      refine ask_bind asked ?_
      dsimp only
      split
      · exact name_bind dummyInRange fun _ => Runs.reject_bind
      · exact ih fun other mem => lt other (.tail _ mem)

end

theorem bindArguments_quiet {function : SymbolId} {passed : Bool}
    (binds : a.Binds t function) (since : a.ArgsSince start args) :
    Quiet t.tolerated (bindArguments function passed args span) a fun slots =>
    a.SlotsSince start slots := by
  refine name_bind binds.1 fun procedure => ?_
  obtain ⟨ans, asked, law⟩ := ok.exists_asFunction? binds.1
  refine ask_bind asked ?_
  cases ans with
  | none =>
    rcases binds.2 with allowed | ⟨s, has⟩
    · exact allowed
    · obtain ⟨symbol, info, found, named⟩ := has.exists_function
      cases (asFunction?_of_symbol found named).symm.trans asked
  | some info =>
    obtain ⟨past, symbol, -, found, named⟩ := law info rfl
    have allInRange : ∀ dummy ∈ info.args, dummy.index < a.symbols.size :=
      fun dummy mem => ok.dummy_inRange found named mem
    have lt :
        ∀ dummy ∈ if passed then info.args.drop 1 else info.args, dummy.index < a.symbols.size := by
      intro dummy mem
      split at mem
      · exact allInRange dummy (mem_of_mem_drop mem)
      · exact allInRange dummy mem
    dsimp only
    generalize (if passed then info.args.drop 1 else info.args) = dummies at lt ⊢
    have empty : (⟨procedure, dummies, replicate dummies.length none, 0, false⟩ : Binding).Lawful
        a start dummies := by
      refine ⟨rfl, length_replicate, fun arg mem => ?_⟩
      cases (mem_replicate.1 mem).2
    have bound : Quiet t.tolerated (args.foldlM Binding.bind _) a fun binding =>
        binding.Lawful a start dummies :=
      Quiet.foldlM empty fun binding arg mem held =>
        Binding.bind_quiet ok lt held (since arg mem)
    refine bound.bind fun binding held => ?_
    exact (checkPresence_quiet ok lt).bind fun _ _ => Quiet.pure held.since

/-! ## Choice among the candidates of a generic -/

theorem exists_targetName (lt : id.index < a.symbols.size) :
    ∃ name, (do a.name (← a.pastImport id)) = .ok name := by
  obtain ⟨past, symbol, st, found⟩ := ok.exists_pastImport lt
  exact ⟨symbol.name, bind_eq_ok.2 ⟨past, st, name_eq_ok.2 ⟨symbol, found, rfl⟩⟩⟩

theorem ambiguous_runs {post : α → Arena → Prop} (genericInRange : generic.index < a.symbols.size)
    (lt : ∀ candidate ∈ candidates, candidate.index < a.symbols.size) :
    Runs t.tolerated (ambiguous generic candidates span : Edit α) a post := by
  obtain ⟨names, asked⟩ := exists_answers fun candidate mem =>
    exists_targetName ok (lt candidate mem)
  exact ask_bind asked (name_bind genericInRange fun _ => .reject _ _)

theorem types_quiet {args : List α} {v : α → ExprId}
    (lt : ∀ arg ∈ args, (v arg).index < a.exprs.size) :
    Quiet t.tolerated (args.mapM fun arg => typeOf (v arg)) a fun types =>
      Forall₂ (fun arg type => a.HasType (v arg) type) args types := by
  refine Quiet.mapM fun arg mem => ?_
  obtain ⟨type, asked, has, -⟩ := ok.exists_type (lt arg mem)
  exact ask_quiet asked has

theorem typeNames_bind {types : List Ty} {next : List String → Edit β}
    (law : ∀ type ∈ types, a.LawfulType t type)
    (rest : ∀ names, Runs t.tolerated (next names) a post) :
    Runs t.tolerated (types.mapM typeName >>= next) a post := by
  have named : Quiet t.tolerated (types.mapM typeName) a fun names =>
      Forall₂ (fun _ _ => True) types names := by
    refine Quiet.mapM fun type mem => ?_
    obtain ⟨text, asked⟩ := ok.exists_typeName (law type mem)
    exact ask_quiet asked trivial
  exact named.bind fun names _ => rest names

/-- The candidate that a call means can be called. -/
theorem chooseCandidate_quiet (genericInRange : generic.index < a.symbols.size)
    (lt : ∀ candidate ∈ candidates, candidate.index < a.symbols.size)
    (since : a.ArgsSince start args) (receiverLaw : ∀ type ∈ receiver, a.LawfulType t type) :
    Quiet t.tolerated (chooseCandidate env generic candidates args receiver span) a fun candidate =>
      candidate ∈ candidates ∧ a.IsCallable candidate := by
  refine (types_quiet ok fun arg mem => (since arg mem).2).bind fun types typed => ?_
  have law : ∀ type ∈ types, a.LawfulType t type := by
    intro type mem
    obtain ⟨arg, -, has⟩ := exists_of_mem_right typed mem
    exact ok.lawfulType has
  obtain ⟨selection, asked, found, several⟩ := ok.exists_select env.policy lt law receiverLaw
  refine ask_bind asked ?_
  cases selection with
  | found candidate => exact Quiet.pure (found candidate rfl)
  | ambiguous candidates =>
    exact ambiguous_runs ok genericInRange fun candidate mem => lt candidate (several _ rfl mem)
  | noMatch =>
    exact typeNames_bind ok law fun _ => name_bind genericInRange fun _ => .reject _ _

/-- It is known whether a symbol is entered around a scope. -/
theorem exists_isVisible (scopeInRange : s.index < a.scopes.size)
    (lt : id.index < a.symbols.size) : ∃ ans, isVisible a s id = .ok ans := by
  have within : ∀ (owner : ScopeId) (name : String) (fuel : Nat) (s : ScopeId),
      s.index < a.scopes.size → s.index < fuel →
        ∃ ans, visibleWithin a id owner name fuel s = .ok ans := by
    intro owner name fuel
    induction fuel with
    | zero => exact fun s _ bound => absurd bound (Nat.not_lt_zero _)
    | succ fuel ih =>
      intro s inside bound
      obtain ⟨table, found⟩ := exists_scope inside
      simp only [visibleWithin, found, bind, Except.bind]
      split
      · exact ⟨_, rfl⟩
      · cases outer : table.parent with
        | none => exact ⟨_, rfl⟩
        | some parent =>
          have above := ok.sound.parent found outer
          exact ih parent (above.trans inside) (by omega)
  obtain ⟨symbol, found⟩ := exists_symbol lt
  obtain ⟨ans, searched⟩ := within symbol.owner symbol.name (a.scopes.size + 1) s scopeInRange
    (Nat.lt_succ_of_lt scopeInRange)
  exact ⟨ans, bind_eq_ok.2 ⟨symbol, found, searched⟩⟩

/-- A procedure that is not visible is imported. -/
theorem importSpecific_works (inner : a.Inner s) (genericInRange : generic.index < a.symbols.size)
    (targetInRange : target.index < a.symbols.size) :
    (importSpecific s generic target span).Works t a fun id next =>
    id.index < next.symbols.size := by
  obtain ⟨symbol, found⟩ := exists_symbol targetInRange
  obtain ⟨genericName, named⟩ := exists_targetName ok genericInRange
  refine ask_bind found (ask_bind named ?_)
  obtain ⟨ans, asked, present⟩ := Intrinsic.exists_present ok inner.1
  refine ask_bind asked ?_
  cases ans with
  | some existing => exact Yields.pure ok.leads (present existing rfl)
  | none =>
    obtain ⟨name, chosen, -⟩ := exists_uniqueName inner.1 (genericName ++ "@" ++ symbol.name)
    obtain ⟨table, _, ownerFound, -⟩ := ok.sound.entered found
    obtain ⟨unit, askedUnit, isUnit⟩ := ok.exists_enclosingUnit? (scope_inRange ownerFound)
    have moduleKnown : ∃ moduleName, (do
        match ← a.enclosingUnit? symbol.owner with
        | some unit => a.name unit
        | none => return "" : Except Breach String) = .ok moduleName := by
      simp only [askedUnit, bind, Except.bind]
      cases unit with
      | none => exact ⟨_, rfl⟩
      | some unit =>
        obtain ⟨held, foundUnit⟩ := exists_symbol (isUnit unit rfl)
        exact ⟨held.name, name_eq_ok.2 ⟨held, foundUnit, rfl⟩⟩
    obtain ⟨moduleName, askedModule⟩ := moduleKnown
    refine ask_bind chosen (ask_bind askedModule ?_)
    refine declare_new_works ok inner rfl ?_ ?_ (.inl SymbolKind.expr_not_mem_imported) ?_
      fun entered led foundNew _ => ?_
    · intro origin isOrigin
      cases isOrigin
      exact targetInRange
    · trivial
    · exact nofun
    · refine .bind (addDependency_works led.lawful (led.before.inner inner).1)
        fun _ last toLast _ => ?_
      exact .pure toLast.lawful.leads ((symbol_inRange foundNew).trans_le toLast.before.symbols_le)

theorem callableSymbol_works (inner : a.Inner s)
    (genericInRange : generic.index < a.symbols.size) (lt : candidate.index < a.symbols.size) :
    (callableSymbol s generic candidate span).Works t a fun id next =>
    id.index < next.symbols.size := by
  obtain ⟨target, symbol, stands, found⟩ := ok.exists_pastImport lt
  obtain ⟨visible, seen⟩ := exists_isVisible ok inner.1 lt
  refine ask_bind stands (ask_bind (kind_eq_ok.2 ⟨symbol, found, rfl⟩) ?_)
  split
  · refine ask_bind seen ?_
    cases visible with
    | true => exact Yields.pure ok.leads lt
    | false => exact importSpecific_works ok inner genericInRange (symbol_inRange found)
  · exact Yields.pure ok.leads lt

/-! ## Procedure calls -/

omit ok in
/-- What holds of a bound call. -/
structure BoundCall.Lawful (arena : Arena) (start : Nat) (call : BoundCall) : Prop where
  function : call.function.index < arena.symbols.size
  args : arena.SlotsSince start call.args
  receiver : ∀ base ∈ call.receiver, arena.Since start base

theorem functionCall_makes (room : start ≤ a.exprs.size) (law : call.Lawful a start) :
    (functionCall call span).Makes t start a := by
  obtain ⟨ans, asked, typeLaw⟩ := ok.exists_returnType? law.function
  refine ask_bind asked ?_
  cases ans with
  | none => exact name_bind law.function fun _ => .reject _ _
  | some type =>
    refine addExpr_makes ok room ⟨fun child mem => ?_, typeLaw type rfl, nofun, trivial⟩
    rcases mem_append.1 mem with isArg | isReceiver
    · have isSlot : some child ∈ call.args := by simpa using isArg
      exact (law.args child isSlot).usable
    · exact (law.receiver child (Option.mem_toList.1 isReceiver)).usable

theorem bindProcedureCall_works (inner : a.Inner s) (lt : symbol.index < a.symbols.size)
    (since : a.ArgsSince start args) :
    (bindProcedureCall env symbol args span s).Works t a fun call next =>
    call.Lawful next start := by
  obtain ⟨target, held, stands, found⟩ := ok.exists_pastImport lt
  refine ask_bind stands (ask_bind (kind_eq_ok.2 ⟨held, found, rfl⟩) ?_)
  split
  · next info named =>
    have binds : a.Binds t target :=
      ⟨symbol_inRange found, .inr ⟨info.scope, held, found, by rw [named]; rfl⟩⟩
    refine (bindArguments_quiet ok binds since).bind fun slots slotsSince => ?_
    exact Yields.pure ok.leads ⟨symbol_inRange found, slotsSince, nofun⟩
  · next info named =>
    have candidates : ∀ proc ∈ info.procs, proc.index < a.symbols.size := by
      have law := ok.kind found
      rw [named] at law
      exact fun proc mem => (law proc mem).1
    have noReceiver : ∀ type ∈ (none : Option Ty), a.LawfulType t type := nofun
    refine (chooseCandidate_quiet ok lt candidates since noReceiver).bind
      fun candidate ⟨isCandidate, function, s, implemented, has⟩ => ?_
    have functionInRange : function.index < a.symbols.size := by
      obtain ⟨symbol, foundFunction, -⟩ := has
      exact symbol_inRange foundFunction
    refine ask_bind implemented ?_
    refine Yields.bind (callableSymbol_works ok inner lt (candidates candidate isCandidate))
      fun name next led _ => ?_
    have binds : next.Binds t function :=
      led.before.binds ⟨functionInRange, .inr ⟨s, has⟩⟩
    refine (bindArguments_quiet led.lawful binds (led.before.argsSince since)).bind
      fun slots slotsSince => ?_
    exact Yields.pure led.lawful.leads ⟨binds.1, slotsSince, nofun⟩
  · exact name_bind lt fun _ => Runs.reject _ _

theorem bindBinding_quiet [t.Wary] (isSince : a.Since start base) (since : a.ArgsSince start args)
    {binding : SymbolId} (lt : binding.index < a.symbols.size) : Quiet t.tolerated (do
      match ← ask (·.kind binding) with
      | .binding info =>
        let function ← ask (·.pastImport info.proc)
        let bound ← bindArguments function (info.dispatch = .pass) args span
        return { name := binding, via, function, args := bound, receiver := some base }
      | _ => reject (.notBinding (← ask (·.name binding))) span) a
      fun call : BoundCall => call.Lawful a start := by
  obtain ⟨symbol, found⟩ := exists_symbol lt
  have law := ok.kind found
  refine ask_bind (kind_eq_ok.2 ⟨symbol, found, rfl⟩) ?_
  split
  · next info named =>
    rw [named] at law
    obtain ⟨function, held, stands, foundFunction⟩ := ok.exists_pastImport law.1
    refine ask_bind stands ?_
    have binds : a.Binds t function := by
      refine ⟨symbol_inRange foundFunction, law.2.imp Terms.Wary.covered
        fun ⟨past, s, isPast, has⟩ => ?_⟩
      cases stands.symm.trans isPast
      exact ⟨s, has⟩
    refine (bindArguments_quiet ok binds since).bind fun slots slotsSince => ?_
    refine Quiet.pure ⟨binds.1, slotsSince, fun other isBase => ?_⟩
    cases isBase
    exact isSince
  · exact name_bind lt fun _ => Runs.reject _ _

theorem bindTypeBoundCall_quiet [t.Wary] {base : ExprId} (isSince : a.Since start base)
    (since : a.ArgsSince start args) :
    Quiet t.tolerated (bindTypeBoundCall env base name args span) a fun call =>
    call.Lawful a start := by
  refine typeOf_bind ok isSince.2 fun type _ typeLaw => ?_
  dsimp only
  split
  · exact typeName_bind ok typeLaw fun _ => .reject _ _
  · next derived isDerived =>
    refine (resolveMember_quiet ok (typeLaw.derivedSymbol? isDerived)).bind fun mem lt => ?_
    obtain ⟨symbol, found⟩ := exists_symbol lt
    have law := ok.kind found
    refine ask_bind (kind_eq_ok.2 ⟨symbol, found, rfl⟩) ?_
    split
    · exact bindBinding_quiet ok isSince since lt
    · next info named =>
      rw [named] at law
      have receiverLaw : ∀ held ∈ some type, a.LawfulType t held := by
        intro held isType
        cases isType
        exact typeLaw
      refine (chooseCandidate_quiet ok lt (fun proc listed => (law proc listed).1) since
        receiverLaw).bind fun chosen ⟨isCandidate, _⟩ => ?_
      exact bindBinding_quiet ok isSince since (law chosen isCandidate).1
    · exact Runs.reject_bind

/-! ## Array elements -/

theorem checkSubscript_quiet {arr : String} (since : a.Since start arg.value) :
    Quiet t.tolerated (checkSubscript arr arg) a fun i => a.Since start i := by
  refine typeOf_bind ok since.2 fun type _ _ => ?_
  exact Runs.guard fun _ => Runs.guard fun _ => Quiet.pure since

/-- It is known whether an element is a constant. -/
theorem exists_constantElement? (lt : symbol.index < a.symbols.size)
    (law : a.LawfulType t type) (since : ∀ i ∈ indices, a.Since start i)
    (ranked : indices.length = type.rank) :
    ∃ ans, constantElement? a symbol type indices = .ok ans := by
  obtain ⟨info, asked, infoLaw⟩ := ok.exists_asVariable? lt
  unfold constantElement?
  simp only [asked, bind, Except.bind]
  split
  · next _ i info =>
    split
    · exact ⟨_, rfl⟩
    · cases held : info.value with
      | none => exact ⟨_, rfl⟩
      | some v =>
        have valueInRange := ((infoLaw info rfl).value v held).inRange
        obtain ⟨constant, valued⟩ := ok.exists_constant? valueInRange
        obtain ⟨number, askedNumber⟩ := ok.exists_integer? (since i (.head _)).2
        simp only [valued, askedNumber]
        split
        · cases dims : type.dims with
          | nil =>
            -- one subscript means one dimension
            rw [Ty.rank, dims] at ranked
            cases ranked
          | cons dim rest =>
            obtain ⟨lower, askedLower⟩ : ∃ lower, a.optionalInteger? dim.start = .ok lower := by
              refine ok.exists_optionalInteger? fun id held => ?_
              exact law.dims dim (dims ▸ (.head _)) id
                (mem_append_left _ (Option.mem_toList.2 held))
            simp only [askedLower]
            cases number <;> exact ⟨_, rfl⟩
        · exact ⟨_, rfl⟩
  · exact ⟨_, rfl⟩

theorem arrayElement_makes (room : start ≤ a.exprs.size) (lt : symbol.index < a.symbols.size)
    (law : a.LawfulType t type) (since : a.ArgsSince start args) :
    (arrayElement symbol type args span).Makes t start a := by
  refine name_bind lt fun name => .guard fun counted => ?_
  have subscripts : Quiet t.tolerated (args.mapM (checkSubscript name)) a
      (Forall₂ (fun _ i => a.Since start i) args) :=
    Quiet.mapM fun arg mem => checkSubscript_quiet ok (since arg mem)
  refine subscripts.bind fun indices each => ?_
  have indicesSince : ∀ i ∈ indices, a.Since start i := by
    intro i mem
    obtain ⟨_, _, held⟩ := exists_of_mem_right each mem
    exact held
  obtain ⟨known, asked⟩ := exists_constantElement? ok lt law indicesSince
    (each.length_eq.symm.trans (not_not.1 counted))
  refine ask_bind asked ?_
  refine Yields.bind (addConstant?_works ok law.element) fun v mid led constants => ?_
  have middleRoom := room.trans led.before.exprs_le
  have middleRange := lt.trans_le led.before.symbols_le
  refine Yields.bind (addVar_works led.lawful middleRoom middleRange (led.before.lawfulType law))
    fun array next more ⟨arraySince, _, _⟩ => ?_
  have before := led.before.trans more.before
  refine addExpr_makes more.lawful arraySince.le
    ⟨fun child mem => ?_, before.lawfulType law.element,
    fun id held => more.before.isConstant (constants id held), trivial⟩
  rcases mem_cons.1 mem with rfl | mem
  · exact arraySince.usable
  · exact (before.since (indicesSince child mem)).usable

/-! ## Structure constructors -/

omit ok in
/-- What holds of the slots while components get values. -/
structure Components.Lawful (arena : Arena) (start : Nat) (members : List SymbolId)
    (components : Components) : Prop where
  same : components.members = members
  length : components.filled.length = members.length
  since : arena.SlotsSince start components.filled

omit ok in
theorem Components.slotOf_quiet {components : Components}
    (lt : ∀ mem ∈ members, mem.index < a.symbols.size) (law : components.Lawful a start members) :
    Quiet t.tolerated (components.slotOf arg) a fun ans => ans.2.Lawful a start members := by
  unfold Components.slotOf
  split
  · next keyword _ =>
    obtain ⟨ans, asked⟩ := exists_positionOf? (law.same ▸ lt)
    refine ask_bind asked ?_
    cases ans with
    | none => exact Runs.reject _ _
    | some i => exact Quiet.pure law
  · exact Quiet.pure ⟨law.same, law.length, law.since⟩

theorem Components.bind_works {components : Components} (typed : ∀ mem ∈ members, a.IsTyped mem)
    (law : components.Lawful a start members) (since : a.Since start arg.value) :
    (components.bind arg).Works t a fun components next =>
    components.Lawful next start members := by
  have lt : ∀ mem ∈ members, mem.index < a.symbols.size :=
    fun mem listed => (typed mem listed).exists_type.1
  refine (Components.slotOf_quiet lt law).bind fun ⟨i, found⟩ held => ?_
  dsimp only at held ⊢
  split
  · exact .reject _ _
  · next mem isMember =>
    rw [held.same] at isMember
    have inside := (List.getElem?_eq_some_iff.1 isMember).1
    obtain ⟨memberInRange, type, asked⟩ := (typed mem (List.mem_of_getElem? isMember)).exists_type
    have typeLaw : a.LawfulType t type := by
      obtain ⟨ans, askedAgain, answerLaw⟩ := ok.exists_variableType? memberInRange
      cases asked.symm.trans askedAgain
      exact answerLaw type rfl
    refine ask_bind asked ?_
    refine Yields.bind (Conversion.forAssignment_works ok since typeLaw)
      fun ans next led ⟨valueSince, _⟩ => ?_
    have bound : ¬ found.filled.length ≤ i := by
      have length := held.length
      omega
    rw [if_neg bound]
    refine .pure led.lawful.leads ⟨held.same, (length_set ..).trans held.length, ?_⟩
    intro other listed
    rcases mem_or_eq_of_mem_set listed with old | new
    · exact led.before.since (held.since other old)
    · cases new
      exact valueSince

theorem componentValue_makes {type : String} {mem : SymbolId} {slot : Option ExprId}
    (room : start ≤ a.exprs.size) (lt : mem.index < a.symbols.size)
    (since : ∀ v ∈ slot, a.Since start v) :
    (componentValue type span mem slot).Makes t start a := by
  cases slot with
  | some v => exact .pure ok.leads (since v rfl)
  | none =>
    obtain ⟨info, asked, infoLaw⟩ := ok.exists_asVariable? lt
    refine ask_bind asked ?_
    cases isInit : info.bind (·.init) with
    | none => exact name_bind lt fun _ => .reject _ _
    | some init =>
      obtain ⟨component, isComponent, held⟩ := Option.bind_eq_some_iff.1 isInit
      have initInRange := (infoLaw component isComponent).init init held
      exact (copy_works ok room initInRange).mono fun _ _ _ copied => copied.1

theorem structConstructor_makes (room : start ≤ a.exprs.size) (lt : symbol.index < a.symbols.size)
    (names : a.NamesType symbol) (since : a.ArgsSince start args) :
    (structConstructor symbol args span).Makes t start a := by
  obtain ⟨members, asked, typed⟩ := ok.exists_components lt
  obtain ⟨type, named⟩ := exists_targetName ok lt
  refine ask_bind asked (ask_bind named ?_)
  have empty : (⟨type, members, replicate members.length none, 0⟩ : Components).Lawful a
      start members := by
    refine ⟨rfl, length_replicate, fun arg listed => ?_⟩
    cases (mem_replicate.1 listed).2
  have bound : Yields t.tolerated (Arena.Leads t) (args.foldlM Components.bind _) a
      fun components next => components.Lawful next start members :=
    Yields.foldlM ok.leads empty fun components arg listed mid led held =>
      Components.bind_works led.lawful (fun mem isMember => led.before.isTyped (typed mem isMember))
        held (led.before.since (since arg listed))
  refine Yields.bind bound fun components mid led held => ?_
  have values : Yields t.tolerated (Arena.Leads t)
      ((members.zip components.filled).mapM fun entry => componentValue type span entry.1 entry.2)
      mid fun values next => Forall₂ (fun _ v => next.Since start v)
        (members.zip components.filled) values := by
    refine Yields.mapM led.lawful.leads ?_ fun entry listed next more => ?_
    · exact fun _ v _ _ led isSince => led.before.since isSince
    · have before := led.before.trans more.before
      have memberTyped := before.isTyped (typed entry.1 (of_mem_zip listed).1)
      refine componentValue_makes more.lawful (room.trans before.exprs_le)
        memberTyped.exists_type.1 ?_
      intro v isValue
      exact more.before.since (held.since v (isValue ▸ (of_mem_zip listed).2))
  refine .bind values fun values next more made => ?_
  have before := led.before.trans more.before
  have typeLaw : next.LawfulType t (.derived symbol) := by
    refine ⟨trivial, nofun, fun id listed => ?_, trivial⟩
    cases mem_singleton.1 listed
    exact ⟨lt.trans_le before.symbols_le, .inr (before.namesType names)⟩
  refine addExpr_makes more.lawful (room.trans before.exprs_le)
    ⟨fun child listed => ?_, typeLaw, nofun, trivial⟩
  obtain ⟨_, _, isSince⟩ := exists_of_mem_right made listed
  exact isSince.usable

/-! ## Calls by name -/

section

variable (room : start ≤ a.exprs.size)

include room

theorem resolveIntrinsic_makes (since : a.ArgsSince start args) : Edit.Makes t start
    (match ArrayIntrinsic.ofName? name with
      | some op => Intrinsic.resolveArray op args span
      | none => Intrinsic.resolveScalar name symbol args span) a := by
  split
  · exact Intrinsic.resolveArray_makes ok since
  · exact Intrinsic.resolveScalar_makes ok room since

theorem applySymbol_makes (inner : a.Inner s) (lt : symbol.index < a.symbols.size)
    (since : a.ArgsSince start args) : (applySymbol env symbol args span s).Makes t start a := by
  obtain ⟨target, held, stands, found⟩ := ok.exists_pastImport lt
  obtain ⟨op, known⟩ := ok.exists_isIntrinsic lt
  obtain ⟨itself, foundItself⟩ := exists_symbol lt
  refine ask_bind stands (ask_bind known ?_)
  cases op with
  | true =>
    refine ask_bind (kind_eq_ok.2 ⟨itself, foundItself, rfl⟩) ?_
    split
    · exact resolveIntrinsic_makes ok room since
    · exact name_bind (symbol_inRange found) fun _ => resolveIntrinsic_makes ok room since
  | false =>
    have called : Edit.Makes t start (do
        let call ← bindProcedureCall env symbol args span s
        functionCall call span) a :=
      Yields.bind (bindProcedureCall_works ok inner lt since) fun call next led law =>
        functionCall_makes led.lawful (room.trans led.before.exprs_le) law
    refine ask_bind (kind_eq_ok.2 ⟨held, found, rfl⟩) ?_
    split
    · exact called
    · exact called
    · next info named =>
      have law := ok.kind found
      rw [named] at law
      split
      · next type isType =>
        split
        · exact arrayElement_makes ok room lt (law.type type isType) since
        · exact name_bind lt fun _ => .reject _ _
      · exact name_bind lt fun _ => .reject _ _
    · next info isType =>
      have names : a.NamesType symbol :=
        ⟨target, stands, info.scope, info.parent, held, found, by rw [isType]; rfl⟩
      exact structConstructor_makes ok room lt names since
    · exact name_bind lt fun _ => .reject _ _

theorem callIntrinsic_makes (inner : a.Inner s) (since : a.ArgsSince start args) :
    (callIntrinsic env name args span s).Makes t start a := by
  have visible : ∃ ans, (do
      match ← a.lookup s name with
      | some symbol => return if ← a.isIntrinsic symbol then some symbol else none
      | none => return none : Except Breach (Option SymbolId)) = .ok ans ∧
        ∀ id ∈ ans, id.index < a.symbols.size := by
    obtain ⟨ans, asked, lt⟩ := ok.exists_lookup inner.1 name
    simp only [asked, bind, Except.bind]
    cases ans with
    | none => exact ⟨none, rfl, nofun⟩
    | some symbol =>
      obtain ⟨op, known⟩ := ok.exists_isIntrinsic (lt symbol rfl)
      simp only [known]
      refine ⟨_, rfl, fun id held => ?_⟩
      split at held
      · cases held
        exact lt symbol rfl
      · cases held
  obtain ⟨ans, asked, lt⟩ := visible
  refine ask_bind asked ?_
  cases ans with
  | some symbol => exact applySymbol_makes ok room inner (lt symbol rfl) since
  | none =>
    refine Yields.bind (Intrinsic.importInto_works ok inner) fun imported next led isImport => ?_
    cases imported with
    | none => exact Runs.reject _ _
    | some symbol =>
      exact applySymbol_makes led.lawful (room.trans led.before.exprs_le) (led.before.inner inner)
        (isImport symbol rfl) (led.before.argsSince since)

theorem callName_makes (inner : a.Inner s) (since : a.ArgsSince start args) :
    (callName env name args span s).Makes t start a := by
  obtain ⟨ans, asked, lt⟩ := ok.exists_lookup inner.1 name
  refine ask_bind asked ?_
  cases ans with
  | some symbol => exact applySymbol_makes ok room inner (lt symbol rfl) since
  | none =>
    dsimp only
    split
    · exact callIntrinsic_makes ok room inner since
    · exact .reject _ _

end

end Expression

end FortranSemantics
