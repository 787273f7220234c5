import FortranSemantics.Proofs.Lawful.Generic

/-!
# Declarations in lawful arenas

The first pass over a compilation unit goes from lawful arenas to lawful ones. After it every unit
and every procedure of the tree is found under its name, with the scope that was opened for it.
-/

namespace FortranSemantics

open List Arena Edit

variable {α β : Type} {t : Terms} {a b : Arena} {ctx : Context} {setup : Setup} {id : SymbolId}
  {decls : List Tree.Decl} {uses : List Tree.Use} {spec : Option Tree.TypeSpec}
  {scope owner : ScopeId} {name function result : String}

/-! ## New scopes -/

namespace Arena

/-- Whether a symbol may own the next scope: it has no arguments and no statements yet. -/
structure Openable (terms : Terms) (a : Arena) (owner : ScopeId) (kind : SymbolKind) : Prop where
  opens : kind.scope? = some ⟨a.scopes.size⟩
  arguments : kind.arguments = []
  settled : kind.isStub = false
  origin : ∀ origin, kind.form.origin? = some origin → origin.index < a.symbols.size
  law : a.LawfulKind terms owner kind
  empty : ∀ node, .expr node ∉ kind.references

theorem Precedes.isVariableOf (before : a.Precedes b) (isVariable : a.IsVariableOf scope id) :
    b.IsVariableOf scope id :=
  before.has isVariable

/-- What an analysis takes for a stub is one, or it opens no scope. -/
theorem stub_of_interactive (h : a.symbol id = .ok sym) (ans : a.isInteractiveStub id = .ok true) :
    sym.kind.scope? = none ∨ sym.kind.isStub = true := by
  have named : a.kind id = .ok sym.kind := kind_eq_ok.2 ⟨sym, h, rfl⟩
  cases isKind : sym.kind with
  | imported info => exact .inl rfl
  | function info =>
    simp only [isInteractiveStub, asFunction?, target, pastImport, named, isKind,
      bind, Except.bind, pure, Except.pure, Except.ok.injEq] at ans
    exact .inr ans
  | _ =>
    simp [isInteractiveStub, asFunction?, target, pastImport, named, isKind,
      bind, Except.bind, pure, Except.pure] at ans

end Arena

namespace Context

/-- What a scope is declared in: it is ready, and the scope is not fixed and has neither aliases nor
stubs. -/
structure Open (terms : Terms) (scope : ScopeId) (ctx : Context) : Prop extends ctx.Ready
    terms scope where
  ordinary : ctx.arena.Ordinary scope
  late : terms.fixed ≤ scope.index

theorem Open.after {next : Context} (opened : ctx.Open t scope)
    (led : ctx.Follows t (Arena.Leads t) next) : next.Open t scope where
  toReady := opened.toReady.after led
  ordinary := led.arena.grown.ordinaryScope opened.ordinary opened.inner.1
  late := opened.late

/-- What procedures are declared in: a scope analysed here that is not fixed, which is the root or
has neither aliases nor stubs. -/
structure Host (terms : Terms) (scope : ScopeId) (ctx : Context) : Prop extends
    ctx.Lawful terms where
  inRange : scope.index < ctx.arena.scopes.size
  own : ctx.arena.Own scope
  ordinary : scope = ctx.arena.root ∨ ctx.arena.Ordinary scope
  late : terms.fixed ≤ scope.index

theorem Host.room (host : ctx.Host t scope) : t.fixed ≤ ctx.arena.scopes.size :=
  host.late.trans (host.inRange.le)

theorem Open.host (opened : ctx.Open t scope) : ctx.Host t scope :=
  ⟨opened.toLawful, opened.inner.1, opened.own, .inr opened.ordinary, opened.late⟩

theorem Lawful.host (ok : ctx.Lawful t) (early : t.fixed = 0) : ctx.Host t ctx.arena.root :=
  ⟨ok, ok.lawful.sound.root_inRange, .inl rfl, .inl rfl, early ▸ Nat.zero_le _⟩

end Context

namespace Edit

variable {owner : ScopeId} {name : String} {k : SymbolKind} {span : Span}

theorem declare_opening (ok : a.Lawful t) (lt : owner.index < a.scopes.size)
    (openable : a.Openable t owner k) : Runs t.tolerated (declare owner name ⟨a.symbols.size⟩ span)
      ((a.addScope (some owner) none).2.attach ⟨name, owner, k⟩) fun _ next =>
      a.Opened t owner name k next := by
  have declared : Runs t.tolerated (declare owner name ⟨a.symbols.size⟩ span >>= pure)
      ((a.addScope (some owner) none).2.attach ⟨name, owner, k⟩) fun _ next =>
        a.Opened t owner name k next := by
    refine declare_attach_runs (by simp [Arena.addScope]; omega) fun free => .pure ?_
    have earlier := Arena.free_iff.1 ((Arena.find?_addScope lt).1 (Arena.free_iff.2 free))
    exact Arena.LawfulEntry.opened ok (.opening ok earlier openable.opens openable.arguments
      openable.settled openable.origin openable.law openable.empty) lt openable.opens
  rwa [bind_pure] at declared

end Edit

namespace Arena

/-- What an analysis takes for a stub goes on being taken for one when symbols are added. -/
theorem isInteractiveStub_of_added
    (kept : ∀ {id sym}, a.symbol id = .ok sym → b.symbol id = .ok sym)
    (answered : a.isInteractiveStub id = .ok ans) : b.isInteractiveStub id = .ok ans := by
  have kinds {id : SymbolId} {k : SymbolKind} (named : a.kind id = .ok k) : b.kind id = .ok k := by
    obtain ⟨sym, h, rfl⟩ := kind_eq_ok.1 named
    exact kind_eq_ok.2 ⟨sym, kept h, rfl⟩
  obtain ⟨function, asked, counted⟩ := bind_eq_ok.1 answered
  obtain ⟨k, isTarget, chosen⟩ := bind_eq_ok.1 asked
  obtain ⟨past, st, named⟩ := bind_eq_ok.1 isTarget
  obtain ⟨own, ownNamed, isPast⟩ := bind_eq_ok.1 st
  refine bind_eq_ok.2 ⟨function, bind_eq_ok.2 ⟨k, bind_eq_ok.2 ⟨past, ?_, kinds named⟩, chosen⟩,
    counted⟩
  exact bind_eq_ok.2 ⟨own, kinds ownNamed, isPast⟩

theorem not_isTyped_of_interactive (answered : a.isInteractiveStub id = .ok true) :
    ¬ a.IsTyped id := by
  rintro ⟨sym, info, h, named, -⟩
  have isKind : a.kind id = .ok (.variable info) := kind_eq_ok.2 ⟨sym, h, named⟩
  simp [isInteractiveStub, asFunction?, target, pastImport, isKind, bind, Except.bind, pure,
    Except.pure] at answered

/-- Whether a name stands for a stub can be told, also after symbols were added elsewhere. -/
theorem Lawful.exists_replaced (ok : a.Lawful t) (lt : owner.index < a.scopes.size)
    (kept : ∀ {id sym}, a.symbol id = .ok sym → b.symbol id = .ok sym)
    (same : ∀ {ans}, a.find? owner name = .ok ans → b.find? owner name = .ok ans) : ∃ replaces, (do
      match ← b.find? owner name with
      | some existing => b.isInteractiveStub existing
      | none => return false : Except Breach Bool) = .ok replaces ∧ (replaces = true →
        ∃ existing, a.find? owner name = .ok (some existing) ∧ a.isInteractiveStub
        existing = .ok true) := by
  obtain ⟨ans, asked, known⟩ := ok.exists_find? lt name
  cases ans with
  | none => exact ⟨false, bind_eq_ok.2 ⟨none, same asked, rfl⟩, nofun⟩
  | some existing =>
    obtain ⟨sym, h, -⟩ := known existing rfl
    obtain ⟨stub, answered⟩ := ok.exists_isInteractiveStub (symbol_inRange h)
    refine ⟨stub, bind_eq_ok.2
      ⟨some existing, same asked, isInteractiveStub_of_added kept answered⟩, ?_⟩
    rintro rfl
    exact ⟨existing, asked, answered⟩

/-- A procedure may replace a stub of the root, or an import of one. -/
theorem LawfulEntry.overStub (ok : a.Lawful t)
    (lt : owner.index < a.scopes.size) (late : t.fixed ≤ owner.index)
    (ordinary : owner = a.root ∨ a.Ordinary owner)
    (openable : a.Openable t owner k) (isFunction : k.form = .function s)
    (st : a.find? owner name = .ok (some existing))
    (stub : a.isInteractiveStub existing = .ok true) :
    (a.addScope (some owner) none).2.LawfulEntry t owner name k := by
  obtain ⟨table, h, isEntry⟩ := find?_eq_some.1 st
  have replaced {again : Scope} {old : SymbolId} (refound : a.scope owner = .ok again)
      (taken : again.find? name = some old) : old = existing := by
    cases h.symm.trans refound
    exact Option.some.inj (taken.symm.trans isEntry)
  refine ⟨.opening lt openable.opens openable.arguments openable.settled openable.origin
    fun again old sym refound taken foundSymbol => ?_,
    (ok.addScope lt).before.lawfulKind openable.law, .inl openable.empty,
    fun again old refound _ taken typed => ?_, fun _ => by rw [openable.opens]; rfl,
    fun early => ?_, fun inner isBlock => by cases isFunction.symm.trans isBlock⟩
  · cases replaced refound taken
    refine (stub_of_interactive foundSymbol stub).imp_right fun isStub => ⟨?_, isStub⟩
    rcases ordinary with isRoot | ordinary
    · exact isRoot
    · obtain ⟨held, isHeld, owned, -⟩ := ok.sound.entry h (Scope.mem_of_find? isEntry)
      cases foundSymbol.symm.trans isHeld
      have settled := (SymbolKind.isOrdinary_iff.1 (ordinary existing sym foundSymbol owned)).1
      cases isStub.symm.trans settled
  · rcases scope_addScope.1 refound with earlier | ⟨rfl, -⟩
    · cases replaced earlier taken
      obtain ⟨sym, info, foundSymbol, named, some⟩ := typed
      exact not_isTyped_of_interactive stub ⟨sym, info, foundSymbol, named, some⟩
    · exact absurd lt (Nat.lt_irrefl _)
  · rw [isFunction] at early
    exact early.elim (fun early => absurd early late.not_gt) False.elim

end Arena

namespace Analysis

variable {owner : ScopeId} {name : String} {k : SymbolKind} {span : Span}

/-- Entering a new procedure: it replaces nothing, or a stub in the root. -/
theorem enterProcedure_opening (host : ctx.Host t owner) (openable : ctx.arena.Openable t owner k)
    (isFunction : k.form = .function s) :
    Runs t.tolerated (enterProcedure owner name ⟨ctx.arena.symbols.size⟩ span)
      ((ctx.arena.addScope (some owner) none).2.attach ⟨name, owner, k⟩) fun _ next =>
        ctx.arena.Opened t owner name k next := by
  -- the question is asked after the new symbol was added, which does not change its answer
  have kept {id : SymbolId} {sym : Symbol} (h : ctx.arena.symbol id = .ok sym) :
      ((ctx.arena.addScope (some owner) none).2.attach ⟨name, owner, k⟩).symbol id = .ok sym :=
    symbol_addSymbol.2 (.inl h)
  obtain ⟨replaces, answered, st⟩ := host.lawful.exists_replaced host.inRange kept fun asked =>
    find?_attach.2 ((find?_addScope host.inRange).2 asked)
  refine Edit.ask_bind answered ?_
  cases replaces with
  | false => exact declare_opening host.lawful host.inRange openable
  | true =>
    obtain ⟨existing, asked, stub⟩ := st rfl
    have entry := Arena.LawfulEntry.overStub host.lawful host.inRange host.late
      host.ordinary openable isFunction asked stub
    have put : overwrite owner name ⟨ctx.arena.symbols.size⟩
        ((ctx.arena.addScope (some owner) none).2.attach ⟨name, owner, k⟩) =
          .ok () ((ctx.arena.addScope (some owner) none).2.enter owner name k) :=
      overwrite_attach_eq entry.inRange
    exact Runs.of_ok put (entry.opened host.lawful host.inRange openable.opens)

/-- A new scope with the symbol that opens it, before its name is entered. -/
theorem addScoped_eq {k : ScopeId → SymbolKind} (opens : ∀ scope, (k scope).scope? = some scope) :
    addScoped name owner k ctx = .ok (⟨ctx.arena.symbols.size⟩, ⟨ctx.arena.scopes.size⟩)
      ⟨(ctx.arena.addScope (some owner) none).2.attach ⟨name, owner, k ⟨ctx.arena.scopes.size⟩⟩,
        ctx.journal⟩ := by
  have claimed : modifyScope ⟨ctx.arena.scopes.size⟩
      (fun held => { held with owner := some ⟨ctx.arena.symbols.size⟩ })
      ((ctx.arena.addScope (some owner) none).2.addSymbol
        ⟨name, owner, k ⟨ctx.arena.scopes.size⟩⟩).2 =
        .ok () ((ctx.arena.addScope (some owner) none).2.attach
          ⟨name, owner, k ⟨ctx.arena.scopes.size⟩⟩) := by
    refine modifyScope_eq_ok.2 ⟨by simp [Arena.addScope, Arena.addSymbol], ?_⟩
    unfold Arena.attach Arena.claimed
    rw [opens]
    rfl
  simp only [addScoped, run_bind_eq_ok, run_lift_eq_ok, run_pure_eq_ok]
  exact ⟨_, _, ⟨_, rfl, rfl⟩, _, _, ⟨_, rfl, rfl⟩, _, _, ⟨_, claimed, rfl⟩, rfl, rfl⟩

/-- After a symbol with a new scope was entered, the scope is open for declarations. -/
theorem entered_works {enter : Edit Unit} {next : Unit → Analysis β} {post : β → Context → Prop}
    (ok : ctx.Lawful t) (room : t.fixed ≤ ctx.arena.scopes.size) (own : ctx.arena.Own owner)
    (openable : ctx.arena.Openable t owner k) (native : k.isForeign = false)
    (entered : Runs t.tolerated enter a fun _ next => ctx.arena.Opened t owner name k next)
    (rest : ∀ opened : Context, ctx.Follows t (Arena.Leads t) opened →
      opened.Open t ⟨ctx.arena.scopes.size⟩ →
      opened.arena.symbol ⟨ctx.arena.symbols.size⟩ = .ok ⟨name, owner, k⟩ →
      (next ()).Works t opened post) :
    Runs t.tolerated (liftM enter >>= next : Analysis β) ⟨a, ctx.journal⟩ fun result last =>
      ctx.Follows t (Arena.Leads t) last ∧ post result last := by
  refine lift_bind entered fun _ next opened => ?_
  have led : ctx.Follows t (Arena.Leads t) ⟨next, ctx.journal⟩ :=
    ⟨opened.leads, opened.leads.before.lawfulTypings ok.typings⟩
  have ownInner : next.Own ⟨ctx.arena.scopes.size⟩ :=
    Arena.Own.opened (opened.leads.before.own own) opened.leads.lawful.sound opened.symbol
      openable.opens fun _ => native
  have isOpen : Context.Open t ⟨ctx.arena.scopes.size⟩ ⟨next, ctx.journal⟩ :=
    ⟨⟨led.lawful, opened.inner, ownInner, room.trans opened.leads.before.scopes_le⟩,
      opened.ordinary, room⟩
  exact Yields.after led (rest _ led isOpen opened.symbol)

/-! ## Implicit typing -/

section

variable {scope : ScopeId}

theorem addImplicit_works [t.Wary]
    (ready : ctx.Ready t scope) (law : ∀ rule ∈ typing.rules, ctx.arena.LawfulType t rule.type) :
    (addImplicit setup scope typing stmt).Works t ctx fun typing next =>
      ∀ rule ∈ typing.rules, next.arena.LawfulType t rule.type := by
  cases stmt with
  | none => exact .pure ready.here law
  | rule spec ranges span =>
    refine .bind (declaredType_works ready) fun ty next led typeLaw => ?_
    refine .pure (Progress.arrive led) fun rule mem => ?_
    rcases mem_append.1 mem with old | new
    · exact led.arena.before.lawfulType (law rule old)
    · rw [mem_singleton.1 new]
      exact typeLaw.1

theorem declareImplicits_works [t.Wary] (ready : ctx.Ready t scope) :
    (declareImplicits setup scope topLevel stmts).Works t ctx fun _ _ => True := by
  have noted {typing : ImplicitTyping} {next : Context} (led : ctx.Follows t (Arena.Leads t) next)
      (law : ∀ rule ∈ typing.rules, next.arena.LawfulType t rule.type) :
      (note fun journal => { journal with typings := (scope, typing) :: journal.typings }).Works t
      next
        fun _ _ => True := by
    refine Runs.of_ok rfl ⟨⟨led.arena.lawful.leads, fun entry mem => ?_⟩, trivial⟩
    rcases mem_cons.1 mem with rfl | old
    · exact law
    · exact led.typings entry old
  unfold declareImplicits
  split
  · exact .pure ready.here trivial
  dsimp only
  split
  · refine noted ready.here fun rule mem => ?_
    unfold defaultTyping at mem
    split at mem <;> cases mem
  · refine .bind (Yields.foldlM ready.here nofun
      fun typing stmt _ mid led law => addImplicit_works (ready.after led) law)
      fun typing next led law => ?_
    exact noted led law

/-! ## Derived types -/

theorem exists_visibleType (ok : a.Lawful t) (lt : scope.index < a.scopes.size)
    (name : String) : ∃ ans, (do
      match ← a.lookup scope name with
      | none => return none
      | some sym =>
        let sym ← a.pastImport sym
        match ← a.kind sym with
        | .derivedType _ => return some sym
        | _ => return none : Except Breach (Option SymbolId)) = .ok ans ∧
      ∀ id ∈ ans, id.index < a.symbols.size := by
  obtain ⟨ans, asked, known⟩ := ok.exists_lookup lt name
  rw [asked]
  cases ans with
  | none => exact ⟨none, rfl, by simp⟩
  | some id =>
    obtain ⟨past, sym, st, foundPast⟩ := ok.exists_pastImport (known id rfl)
    have named : a.kind past = .ok sym.kind := kind_eq_ok.2 ⟨sym, foundPast, rfl⟩
    cases isKind : sym.kind with
    | derivedType info =>
      rw [isKind] at named
      refine ⟨some past, bind_eq_ok.2
        ⟨_, rfl, bind_eq_ok.2 ⟨past, st, bind_eq_ok.2 ⟨_, named, rfl⟩⟩⟩, fun id held => ?_⟩
      cases held
      exact symbol_inRange foundPast
    | _ =>
      rw [isKind] at named
      exact ⟨none, bind_eq_ok.2
        ⟨_, rfl, bind_eq_ok.2 ⟨past, st, bind_eq_ok.2 ⟨_, named, rfl⟩⟩⟩, by simp⟩

/-- The type that a derived type extends is there. -/
theorem parentOf?_quiet (ok : a.Lawful t) (lt : scope.index < a.scopes.size) :
    Quiet t.tolerated (parentOf? scope ty span parent) a fun parent => ∀ id ∈ parent,
    id.index < a.symbols.size := by
  cases parent with
  | none => exact .pure (by simp)
  | some parent =>
    refine .map ?_
    obtain ⟨ans, asked, lt⟩ := exists_visibleType ok lt (Text.lowercase parent)
    refine Edit.ask_bind asked ?_
    cases ans with
    | none => exact Runs.reject _ _
    | some id =>
      refine Quiet.pure fun other held => ?_
      cases held
      exact lt id rfl

/-- Declaring a derived type with its components. -/
theorem declareType_works [t.Wary] {decl : Tree.DerivedTypeDecl} (ready : ctx.Ready t scope) :
    (declareType setup scope decl).Works t ctx fun deferred next =>
    deferred.Lawful t next.arena := by
  refine (lift_quiet (parentOf?_quiet ready.lawful ready.inner.1)).bind fun parent known => ?_
  refine Runs.bind_ok (addScoped_eq fun _ => rfl) ?_
  have openable : ctx.arena.Openable t scope (.derivedType
      { scope := ⟨ctx.arena.scopes.size⟩, members := [], parent, access := .publicAccess }) :=
    ⟨rfl, rfl, rfl, known, by rintro _ ⟨⟩, fun node occurs => by
      simp [SymbolKind.references] at occurs⟩
  refine entered_works ready.toLawful ready.room ready.own openable rfl
    (declare_opening ready.lawful ready.inner.1 openable) fun opened _ inside entered => ?_
  refine .bind (Yields.mapM_all inside.here (fun _ _ _ led held name mem =>
    led.arena.before.hasComponent (held name mem)) fun decl _ mid led =>
      declareEntities_works (inside.toReady.after led)) fun members next led declared => ?_
  obtain ⟨symbol, found, kept⟩ := led.arena.before.symbol entered
  cases named : symbol.kind with
  | derivedType info =>
    have form := kept.form
    rw [named] at form
    have sameScope : info.scope = ⟨ctx.arena.scopes.size⟩ := (SymbolForm.derivedType.inj form).1
    have revision : next.arena.LawfulRevision t ⟨ctx.arena.symbols.size⟩
        (.derivedType { info with members := members.flatten }) symbol := {
      found := found
      form := by rw [named]; rfl
      arguments := by rintro _ ⟨⟩
      law := fun name mem => by
        obtain ⟨names, isGroup, mem⟩ := mem_flatten.1 mem
        have component := declared names isGroup name mem
        rw [← sameScope] at component
        exact component
      ordinary := by rw [named]; rfl
      foreign := by rw [named]; rfl
      binding := fun info bound => by
        cases named.symm.trans bound
      references := .inl fun node occurs => by simp [SymbolKind.references] at occurs }
    refine .bind (lift_works led.lawful
      (modifyKind_to_works led.arena.lawful (by rw [named]) revision)) fun _ last further _ => ?_
    have isType : last.arena.IsLateType t ⟨ctx.arena.symbols.size⟩ :=
      further.arena.before.isLateType ⟨info.scope, info.parent, sameScope ▸ ready.room, symbol,
        found, by rw [named]; rfl⟩
    refine .pure (Progress.arrive further) ⟨fun binding mem => ?_, fun generic mem type held => ?_⟩
    · obtain ⟨_, -, rfl⟩ := mem_map.1 mem
      exact isType
    · obtain ⟨_, -, rfl⟩ := mem_map.1 mem
      cases held
      exact isType
  | _ =>
    have form := kept.form
    rw [named] at form
    cases form

/-! ## Dummy arguments and results -/

theorem setIntent_works (ok : a.Lawful t) (lt : id.index < a.symbols.size) :
    (modifyVariable id fun info => { info with intent }).Works t a fun _ _ => True := by
  refine modifyKind_steady ok lt ?_ (fun _ k law => ?_) fun k => ?_
  · refine ⟨⟨?_, ?_, ?_⟩, ?_, ?_, fun _ => rfl⟩ <;> intro k <;> cases k <;> rfl
  · cases k with
    | «variable» info => exact ⟨law.type, law.typed, law.init, law.value, law.aliased⟩
    | _ => exact law
  · cases k <;> exact fun _ occurs => occurs

section

variable (ready : ctx.Ready t scope)

include ready

/-- A dummy argument is a variable of the procedure's scope. -/
theorem dummyArgument_works :
    (dummyArgument setup scope procedure span argument).Works t ctx fun id next =>
      next.arena.IsVariableOf scope id := by
  refine .bind (declaredOrImplicit_works ready) fun id first led ⟨sym, h, owned⟩ => ?_
  refine ask_bind (kind_eq_ok.2 ⟨sym, h, rfl⟩) ?_
  cases named : sym.kind with
  | «variable» info =>
    have isVariable : first.arena.IsVariableOf scope id := ⟨sym, h, owned, by rw [named]; rfl⟩
    dsimp only
    split
    · refine Yields.bind (lift_works led.lawful
        (setIntent_works led.arena.lawful (symbol_inRange h))) fun _ next more _ => ?_
      exact Yields.pure (Progress.arrive more) (more.arena.before.isVariableOf isVariable)
    · exact Yields.pure (Progress.arrive led) isVariable
  | _ => exact Runs.reject _ _

/-- The symbol of a function's result belongs to its scope. -/
theorem resultSymbol_works [t.Wary] :
    (resultSymbol setup scope function result spec span).Works t ctx fun id next =>
      ∃ sym, next.arena.symbol id = .ok sym ∧ sym.owner = scope := by
  have declared {ty : Ty} {next : Context} (led : ctx.Follows t (Arena.Leads t) next)
      (law : next.arena.LawfulType t ty) :
      (declareVariable scope result (.ofType ty) span).Works t next fun id next =>
        ∃ sym, next.arena.symbol id = .ok sym ∧ sym.owner = scope :=
    (declareVariable_works (ready.after led) (.ofType law .localVar) nofun).mono
      fun id next _ held => ⟨_, held.2, rfl⟩
  obtain ⟨ans, asked, known⟩ := ready.lawful.exists_find? ready.inner.1 result
  refine ask_bind asked ?_
  cases spec with
  | some spec =>
    cases ans with
    | some sym => exact Runs.reject _ _
    | none => exact Yields.bind (declaredType_works ready) fun ty next led law => declared led law.1
  | none =>
    cases ans with
    | some id =>
      obtain ⟨sym, h, owned, -⟩ := known id rfl
      exact Yields.pure ready.here ⟨sym, h, owned⟩
    | none =>
      refine (implicitType?_quiet ready).bind fun ty law => ?_
      cases ty with
      | none => exact .reject _ _
      | some ty => exact declared ready.here (law ty rfl)

/-- The result of a function is a variable of its scope. -/
theorem resultVariable_works [t.Wary] :
    (resultVariable setup scope function result spec span).Works t ctx fun id next =>
      next.arena.IsVariableOf scope id := by
  refine .bind (resultSymbol_works ready) fun id first led ⟨sym, h, owned⟩ => ?_
  refine ask_bind (kind_eq_ok.2 ⟨sym, h, rfl⟩) ?_
  cases named : sym.kind with
  | «variable» info =>
    have isVariable : first.arena.IsVariableOf scope id := ⟨sym, h, owned, by rw [named]; rfl⟩
    refine Runs.guard fun _ => ?_
    refine Yields.bind (lift_works led.lawful (setIntent_works led.arena.lawful (symbol_inRange h)))
      fun _ next more _ => ?_
    exact Yields.pure (Progress.arrive more) (more.arena.before.isVariableOf isVariable)
  | _ => exact Runs.reject _ _

theorem procedureResult_works [t.Wary] {k : Tree.SubprogramKind} {result : Option String} :
    (procedureResult setup scope name k result spec span).Works t ctx fun ans next =>
      ∀ id ∈ ans, next.arena.IsVariableOf scope id := by
  cases k with
  | subroutine => exact .pure ready.here nofun
  | function =>
    refine .map ((resultVariable_works ready).mono fun id next _ isVariable other held => ?_)
    cases held
    exact isVariable

/-- Declaring the dummy arguments and the result of a procedure. -/
theorem declareSignature_works [t.Wary] {k : Tree.SubprogramKind} {args : List String}
    {result : Option String} (has : ctx.arena.HasForm id (.function scope)) :
    (declareSignature setup id scope name k args result spec span).Works t ctx fun _ _ => True := by
  have dummies : (args.mapM (dummyArgument setup scope name span)).Works t ctx fun dummies next =>
      ∀ id ∈ dummies, next.arena.IsVariableOf scope id :=
    Yields.mapM_all ready.here (fun _ _ _ led => led.arena.before.isVariableOf) fun arg _ mid led =>
      dummyArgument_works (ready.after led)
  refine .bind dummies fun dummies first led isDummy => ?_
  refine .bind (procedureResult_works (ready.after led)) fun result second further isResult => ?_
  have led := Progress.trans led further
  obtain ⟨symbol, found, form⟩ := led.arena.before.hasForm has
  cases named : symbol.kind with
  | function info =>
    rw [named] at form
    have sameScope : info.scope = scope := SymbolForm.function.inj form
    have law := led.arena.lawful.kind found
    rw [named] at law
    have revision : second.arena.LawfulRevision t id
        (.function { info with args := dummies, result }) symbol := {
      found := found
      form := by rw [named]; rfl
      arguments := fun argument mem => .inr ⟨info.scope, rfl, by
        rw [sameScope]
        rcases mem_append.1 mem with dummy | chosen
        · exact further.arena.before.isVariableOf (isDummy argument dummy)
        · exact isResult argument (Option.mem_toList.1 chosen)⟩
      law := law
      ordinary := by rw [named]; rfl
      foreign := by rw [named]; rfl
      binding := fun info bound => by
        cases named.symm.trans bound
      references := .inl fun node occurs => by
        rw [named]
        simpa [SymbolKind.references] using occurs }
    exact lift_works led.lawful (modifyKind_to_works led.arena.lawful (by rw [named]) revision)
  | _ =>
    rw [named] at form
    cases form

end

end

end Analysis

/-! ## What a tree declares -/

namespace Arena

/-- Whether a scope has a symbol of the given name and form that is neither an alias nor a stub. -/
def Introduces (a : Arena) (owner : ScopeId) (name : String) (form : SymbolForm)
    (id : SymbolId) : Prop :=
  ∃ symbol, a.symbol id = .ok symbol ∧ symbol.owner = owner ∧ symbol.name = name ∧
    symbol.kind.form = form ∧ symbol.kind.isOrdinary = true ∧ symbol.kind.isForeign = false

mutual

/-- Whether a scope has the procedure of a tree, with all that it contains. -/
def HasProcedure (a : Arena) (parent : ScopeId) : Tree.Subprogram → Prop
  | ⟨_, name, _, _, _, _, _, _, _, contained, _⟩ => ∃ id scope,
      a.Introduces parent (Text.lowercase name) (.function scope) id ∧
      a.HasProcedures scope contained

/-- Whether a scope has the procedures of some trees, with all that they contain. -/
def HasProcedures (a : Arena) (parent : ScopeId) : List Tree.Subprogram → Prop
  | [] => True
  | first :: rest => a.HasProcedure parent first ∧ a.HasProcedures parent rest

end

/-- Whether the root has the unit of a tree, with all that it contains. -/
def HasUnit (a : Arena) : Tree.ProgramUnit → Prop
  | .moduleUnit unit =>
    ∃ id scope, a.Introduces a.root (Text.lowercase unit.name) (.moduleUnit scope false) id ∧
      a.HasProcedures scope unit.contained
  | .programUnit unit =>
    ∃ id scope, a.Introduces a.root (Text.lowercase unit.name) (.program scope) id ∧
      a.HasProcedures scope unit.contained
  | .subprogramUnit unit => a.HasProcedure a.root unit

theorem Precedes.introduces (before : a.Precedes b) (has : a.Introduces owner name form id) :
    b.Introduces owner name form id := by
  obtain ⟨sym, h, owned, named, formed, ordinary, native⟩ := has
  obtain ⟨held, foundLater, kept⟩ := before.symbol h
  exact ⟨held, foundLater, kept.owner.trans owned, kept.name.trans named, kept.form.trans formed,
    kept.ordinary ordinary, kept.foreign.trans native⟩

mutual

theorem Precedes.hasProcedure (before : a.Precedes b) :
    ∀ {parent : ScopeId} (tree : Tree.Subprogram),
    a.HasProcedure parent tree → b.HasProcedure parent tree
  | _, ⟨_, _, _, _, _, _, _, _, _, contained, _⟩, ⟨id, scope, has, inside⟩ =>
    ⟨id, scope, before.introduces has, before.hasProcedures contained inside⟩

theorem Precedes.hasProcedures (before : a.Precedes b) :
    ∀ {parent : ScopeId} (trees : List Tree.Subprogram),
    a.HasProcedures parent trees → b.HasProcedures parent trees
  | _, [], _ => trivial
  | _, first :: rest, ⟨here, there⟩ =>
    ⟨before.hasProcedure first here, before.hasProcedures rest there⟩

end

theorem Precedes.hasUnit (before : a.Precedes b) (has : a.HasUnit unit) : b.HasUnit unit := by
  cases unit with
  | moduleUnit unit | programUnit unit =>
    obtain ⟨id, scope, has, inside⟩ := has
    exact ⟨id, scope, before.root ▸ before.introduces has, before.hasProcedures _ inside⟩
  | subprogramUnit unit =>
    have stays := before.hasProcedure unit has
    unfold HasUnit
    rwa [before.root]

end Arena

/-! ## Procedures and interfaces -/

namespace Analysis

variable {scope parent : ScopeId}

/-- The attribute statements of a specification part. -/
theorem applyAttributes_works [t.Wary] (opened : ctx.Open t scope) :
    (applyAttributes setup scope decls).Works t ctx fun _ _ => True := by
  refine Yields.forM opened.here fun decl _ mid led => ?_
  have inside := opened.after led
  cases decl with
  | attributeStmt attrSpec names span =>
    have applied : (names.forM fun name => applyAttribute setup scope attrSpec span
        (Text.lowercase name)).Works t mid fun _ _ => True :=
      Yields.forM inside.here fun name _ last more =>
        applyAttribute_works (inside.after more).toReady (inside.after more).ordinary
    cases attrSpec <;> first | exact applied | exact .pure inside.here trivial
  | _ => exact .pure inside.here trivial

theorem uses_works (loads : setup.library.Loads t) (opened : ctx.Open t scope) :
    (uses.forM (useModule setup scope)).Works t ctx fun _ _ => True :=
  Yields.forM opened.here fun _ _ _ led => useModule_works loads
    (opened.toReady.after led) opened.late

theorem openable_function : ctx.arena.Openable t parent (.function
    { scope := ⟨ctx.arena.scopes.size⟩, args := [], result := none, body := [], abi := .source,
      deftype, access := .publicAccess, dependencies := [] }) :=
  ⟨rfl, rfl, rfl, nofun, lawfulBody_nil _ _, fun node occurs => by
    simp [SymbolKind.references, Stmt.referencesOf] at occurs⟩

mutual

/-- Declaring a procedure with its dummy arguments, its result and everything it contains. -/
theorem declareProcedure_works [t.Wary] (loads : setup.library.Loads t) :
    ∀ (tree : Tree.Subprogram) {parent : ScopeId} {deftype : DefType} {ctx : Context},
      ctx.Host t parent → (declareProcedure setup parent deftype tree).Works t ctx fun _ next =>
      next.arena.HasProcedure parent tree
  | ⟨k, name, args, resultType, resultName, uses, implicits, decls, body, contained, span⟩, parent,
      deftype, ctx, host => by
    rw [declareProcedure]
    refine Runs.bind_ok (addScoped_eq fun _ => rfl) ?_
    refine entered_works host.toLawful host.room host.own openable_function rfl
      (enterProcedure_opening host openable_function rfl) fun opened _ inside entered => ?_
    have introduced : opened.arena.Introduces parent (Text.lowercase name)
        (.function ⟨ctx.arena.scopes.size⟩)
        ⟨ctx.arena.symbols.size⟩ := ⟨_, entered, rfl, rfl, rfl, rfl, rfl⟩
    refine Yields.bind (uses_works loads inside) fun _ first led _ => ?_
    refine Runs.bind_ok rfl ?_
    refine Yields.bind (declareImplicits_works (inside.after led).toReady) fun _ second more _ => ?_
    have led := Progress.trans led more
    refine Yields.bind (declareEach_works loads decls (inside.after led))
      fun deferred third more work => ?_
    have led := Progress.trans led more
    refine .bind (applyAttributes_works (inside.after led)) fun _ fourth more _ => ?_
    have led := Progress.trans led more
    have work := more.arena.before.deferred work
    have procedure := led.arena.before.hasForm ⟨_, entered, rfl⟩
    refine .bind (declareSignature_works (inside.after led).toReady procedure)
      fun _ fifth more _ => ?_
    have led := Progress.trans led more
    have work := more.arena.before.deferred work
    refine .bind (declareContained_works loads contained (inside.after led))
      fun _ sixth more has => ?_
    have led := Progress.trans led more
    have work := more.arena.before.deferred work
    refine (lift_works led.lawful
      (finishScope_works led.arena.lawful (inside.after led).inner inside.late work)).mono
      fun _ last finished _ => ?_
    exact ⟨_, _, (Progress.trans led finished).arena.before.introduces introduced,
      finished.arena.before.hasProcedures contained has⟩

theorem declareContained_works [t.Wary] (loads : setup.library.Loads t) :
    ∀ (trees : List Tree.Subprogram) {parent : ScopeId} {ctx : Context}, ctx.Open t parent →
      (declareContained setup parent trees).Works t ctx fun _ next =>
      next.arena.HasProcedures parent trees
  | [], parent, ctx, opened => by
    rw [declareContained]
    exact .pure opened.here trivial
  | first :: rest, parent, ctx, opened => by
    rw [declareContained]
    refine .bind (declareProcedure_works loads first opened.host) fun _ mid led here => ?_
    refine (declareContained_works loads rest (opened.after led)).mono fun _ last more there => ?_
    exact ⟨more.arena.before.hasProcedure first here, there⟩

/-- Carrying out the declarations of a specification part. -/
theorem declareEach_works [t.Wary] (loads : setup.library.Loads t) :
    ∀ (trees : List Tree.Decl) {scope : ScopeId} {ctx : Context}, ctx.Open t scope →
      (declareEach setup scope trees).Works t ctx fun deferred next => deferred.Lawful t next.arena
  | [], scope, ctx, opened => by
    rw [declareEach]
    exact .pure opened.here (Deferred.lawful_of_nil rfl rfl)
  | first :: rest, scope, ctx, opened => by
    rw [declareEach]
    refine .bind (declareOne_works loads first opened) fun deferred mid led here => ?_
    refine .bind (declareEach_works loads rest (opened.after led)) fun others last more there => ?_
    exact .pure (Progress.arrive more) ((more.arena.before.deferred here).append there)

theorem declareOne_works [t.Wary] (loads : setup.library.Loads t) :
    ∀ (tree : Tree.Decl) {scope : ScopeId} {ctx : Context}, ctx.Open t scope →
      (declareOne setup scope tree).Works t ctx fun deferred next => deferred.Lawful t next.arena
  | .var decl, scope, ctx, opened => by
    rw [declareOne]
    have declared : (discard (declareEntities setup scope false decl)).Works t ctx
        fun _ _ => True :=
      Yields.map ((declareEntities_works opened.toReady).mono fun _ _ _ _ => trivial)
    refine .bind declared fun _ next led _ => ?_
    exact .pure (Progress.arrive led) (Deferred.lawful_of_nil rfl rfl)
  | .attributeStmt attrSpec names span, scope, ctx, opened => by
    cases attrSpec with
    | publicAccess | privateAccess =>
      rw [declareOne]
      exact .pure opened.here Deferred.lawful_ofAccess
    | _ =>
      simp only [declareOne]
      exact .pure opened.here (Deferred.lawful_of_nil rfl rfl)
  | .derivedType decl, scope, ctx, opened => by
    rw [declareOne]
    exact declareType_works opened.toReady
  | .interface header items span, scope, ctx, opened => by
    rw [declareOne]
    refine .bind (declareItems_works loads items opened) fun procs next led _ => ?_
    split
    · exact .pure (Progress.arrive led) (Deferred.lawful_of_nil rfl rfl)
    · refine .pure (Progress.arrive led) ⟨nofun, ?_⟩
      intro generic mem type held
      cases mem_singleton.1 mem
      cases held

/-- Declaring the procedures of an interface block. -/
theorem declareItems_works [t.Wary] (loads : setup.library.Loads t) :
    ∀ (trees : List Tree.InterfaceItem)
    {scope : ScopeId} {generic : Bool} {span : Span} {ctx : Context}, ctx.Open t scope →
      (declareItems setup scope generic span trees).Works t ctx fun _ _ => True
  | [], scope, generic, span, ctx, opened => by
    rw [declareItems]
    exact .pure opened.here trivial
  | .body procedure :: rest, scope, generic, span, ctx, opened => by
    rw [declareItems]
    refine .bind (declareProcedure_works loads procedure opened.host) fun _ mid led _ => ?_
    refine .bind (declareItems_works loads rest (opened.after led)) fun names last more _ => ?_
    exact .pure (Progress.arrive more) trivial
  | .moduleProcedure names :: rest, scope, generic, span, ctx, opened => by
    rw [declareItems]
    refine Runs.guard fun _ => ?_
    refine Yields.bind (declareItems_works loads rest opened) fun names last more _ => ?_
    exact Yields.pure (Progress.arrive more) trivial

end

theorem declareAll_works [t.Wary] (loads : setup.library.Loads t) (opened : ctx.Open t scope) :
    (declareAll setup scope decls).Works t ctx fun deferred next =>
    deferred.Lawful t next.arena := by
  refine .bind (declareEach_works loads decls opened) fun deferred mid led work => ?_
  refine .bind (applyAttributes_works (opened.after led)) fun _ next more _ => ?_
  exact .pure (Progress.arrive more) (more.arena.before.deferred work)

theorem declareBlock_works [t.Wary] (loads : setup.library.Loads t)
    (opened : ctx.Open t scope) : (declareBlock setup scope decls).Works t ctx fun _ _ => True := by
  refine .bind (declareAll_works loads opened) fun deferred next led work => ?_
  exact lift_works led.lawful
    (finishScope_works led.arena.lawful (opened.after led).inner opened.late work)

/-! ## Program units -/

section

variable (loads : setup.library.Loads t)

include loads

/-- Declaring everything in a module or main program. -/
theorem declareParts_works [t.Wary] {implicits : List Tree.ImplicitStmt}
    {contained : List Tree.Subprogram} (opened : ctx.Open t scope) :
    (declareParts setup scope uses implicits decls contained).Works t ctx fun _ next =>
      next.arena.HasProcedures scope contained := by
  refine .bind (uses_works loads opened) fun _ first led _ => ?_
  refine .bind (declareImplicits_works (opened.after led).toReady) fun _ second more _ => ?_
  have led := Progress.trans led more
  refine .bind (declareAll_works loads (opened.after led)) fun deferred third more work => ?_
  have led := Progress.trans led more
  refine .bind (declareContained_works loads contained (opened.after led))
    fun _ fourth more has => ?_
  have led := Progress.trans led more
  refine (lift_works led.lawful
    (finishScope_works led.arena.lawful (opened.after led).inner opened.late
    (more.arena.before.deferred work))).mono fun _ last finished _ => ?_
  exact finished.arena.before.hasProcedures contained has

/-- Declaring a unit of the root with everything in it. -/
theorem declareUnitParts_works [t.Wary] {k : ScopeId → SymbolKind} {span : Span}
    {implicits : List Tree.ImplicitStmt} {contained : List Tree.Subprogram}
    (host : ctx.Host t ctx.arena.root) (opens : ∀ scope, (k scope).scope? = some scope)
    (openable : ctx.arena.Openable t ctx.arena.root (k ⟨ctx.arena.scopes.size⟩))
    (native : ∀ scope, (k scope).isForeign = false)
    (ordinary : ∀ scope, (k scope).isOrdinary = true) :
    (do let root ← root
        let (sym, scope) ← addScoped name root k
        declare root name sym span
        declareParts setup scope uses implicits decls contained : Analysis Unit).Works t ctx
      fun _ next =>
      ∃ id scope, next.arena.Introduces next.arena.root name (k scope).form id ∧
        next.arena.HasProcedures scope contained := by
  refine Runs.bind_ok rfl (Runs.bind_ok (addScoped_eq opens) ?_)
  refine entered_works host.toLawful host.room host.own openable (native _)
    (declare_opening host.lawful host.inRange openable) fun opened led inside entered => ?_
  refine (declareParts_works loads inside).mono fun _ next more has => ?_
  have before := (Progress.trans led more).arena.before
  refine ⟨⟨ctx.arena.symbols.size⟩, ⟨ctx.arena.scopes.size⟩, ?_, has⟩
  rw [before.root]
  exact more.arena.before.introduces ⟨_, entered, rfl, rfl, rfl, ordinary _, native _⟩

/-- Declaring everything in a compilation unit. -/
theorem declareUnit_works [t.Wary] {unit : Tree.CompilationUnit} (ok : ctx.Lawful t)
    (early : t.fixed = 0) : (declareUnit setup unit).Works t ctx fun _ next => ∀ item ∈ unit.items,
    next.arena.HasUnit item := by
  refine Yields.forM_each ok.here (fun _ _ _ led => led.arena.before.hasUnit)
    fun item _ mid led => ?_
  have host := led.lawful.host early
  cases item with
  | moduleUnit unit =>
    refine declareUnitParts_works loads host (fun _ => rfl) ⟨rfl, rfl, rfl, by rintro _ ⟨⟩, rfl,
      fun node occurs => ?_⟩ (fun _ => rfl) fun _ => rfl
    simp [SymbolKind.references] at occurs
  | programUnit unit =>
    refine declareUnitParts_works loads host (fun _ => rfl) ⟨rfl, rfl, rfl, by rintro _ ⟨⟩,
      lawfulBody_nil _ _, fun node occurs => ?_⟩ (fun _ => rfl) fun _ => rfl
    simp [SymbolKind.references, Stmt.referencesOf] at occurs
  | subprogramUnit unit =>
    refine Runs.bind_ok rfl ((declareProcedure_works loads unit host).mono
      fun _ next more has => ?_)
    unfold Arena.HasUnit
    rwa [more.arena.before.root]

end

end Analysis

end FortranSemantics
