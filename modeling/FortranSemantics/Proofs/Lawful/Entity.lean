import FortranSemantics.Analysis.Entity
import FortranSemantics.Proofs.Lawful.Resolution

/-!
# Declarations of variables in lawful arenas

An analysis goes from lawful arenas to lawful ones, and the types of its implicit typing are lawful
all the time. Type declarations and attribute statements give every variable a lawful type, bounds
that are there, and values that are literals.
-/

namespace FortranSemantics

open Edit

variable {α β : Type} {t : Terms} {tolerated : Tolerance} {span : Span} {component : Bool}
  {attributes : DeclAttributes} {attrSpec : Tree.Attribute} {n : String} {info : Variable}
  {a : Arena} {edit : Edit α} {post : β → Context → Prop} {next : α → Analysis β}
  {tree init : Tree.Expr} {lower upper : ExprId} {entity : Tree.Entity} {ty : Ty}

/-! ## Steps of an analysis -/

theorem run_lift (ctx : Context) : (liftM edit : Analysis α) ctx = match edit ctx.arena with
    | .ok v a => .ok v ⟨a, ctx.journal⟩
    | .error failure a => .error failure ⟨a, ctx.journal⟩ := rfl

theorem run_lift_eq_ok : (liftM edit : Analysis α) pre = .ok res after ↔
      ∃ a, edit pre.arena = .ok res a ∧ after = ⟨a, pre.journal⟩ := by
  rw [run_lift]
  cases edit pre.arena with
  | ok v a => simp [eq_comm]
  | error failure a => simp

namespace Context

/-- Whether an analysis goes from a state to another: the arena does, and implicit types are lawful
in it. -/
structure Follows (terms : Terms) (leads : Arena → Arena → Prop) (ctx later : Context) : Prop where
  arena : leads ctx.arena later.arena
  typings : later.arena.LawfulTypings terms later.journal.typings

instance {leads : Arena → Arena → Prop} [Progress leads] : Progress (Follows t leads) where
  trans first second := ⟨Progress.trans first.arena second.arena, second.typings⟩
  arrive step := ⟨Progress.arrive step.arena, step.typings⟩

variable {ctx b : Context} {s : ScopeId} {start : Nat}

/-- What holds between any two steps of an analysis: the arena and the types of implicit typing are
lawful. -/
structure Lawful (terms : Terms) (ctx : Context) : Prop where
  lawful : ctx.arena.Lawful terms
  typings : ctx.arena.LawfulTypings terms ctx.journal.typings

/-- What a scope of what is analysed here is declared and resolved in: a lawful state, with a scope
that is not the root, in which new scopes are not fixed. -/
structure Ready (terms : Terms) (scope : ScopeId) (ctx : Context) : Prop extends
    ctx.Lawful terms where
  inner : ctx.arena.Inner scope
  own : ctx.arena.Own scope
  room : terms.fixed ≤ ctx.arena.scopes.size

theorem Lawful.here (ok : ctx.Lawful t) : ctx.Follows t (Arena.Leads t) ctx :=
  ⟨ok.lawful.leads, ok.typings⟩

theorem Follows.lawful (led : ctx.Follows t (Arena.Leads t) b) : b.Lawful t :=
  ⟨led.arena.lawful, led.typings⟩

section

variable (ready : ctx.Ready t s)

include ready

theorem Ready.kept (ok : b.Lawful t) (pre : ctx.arena.Precedes b.arena) : b.Ready t s where
  toLawful := ok
  inner := pre.inner ready.inner
  own := pre.own ready.own
  room := ready.room.trans pre.scopes_le

/-- A scope stays ready for declarations. -/
theorem Ready.after (led : ctx.Follows t (Arena.Leads t) b) : b.Ready t s :=
  ready.kept led.lawful led.arena.before

theorem Ready.resolving (same : env.typings = ctx.journal.typings)
    (room : start ≤ ctx.arena.exprs.size) : ctx.arena.Ready t env s start :=
  ⟨ready.lawful, same ▸ ready.typings, ready.inner, ready.own, room⟩

theorem Ready.exists_owner : ∃ tb, ctx.arena.scope s = .ok tb ∧ tb.owner ≠ none := by
  rcases ready.own with isRoot | belongs
  · exact absurd isRoot ready.inner.2
  · cases belongs with
    | unit h own _ _ _ | inner h own _ _ => exact ⟨_, h, by rw [own]; exact nofun⟩

end

end Context

namespace Arena

variable {a b : Arena} {s : ScopeId} {n : String}

/-- Whether a name stands for a variable with a type in a scope that has an owner. -/
def HasComponent (arena : Arena) (scope : ScopeId) (name : String) : Prop :=
  ∃ table member, arena.scope scope = .ok table ∧ table.owner ≠ none ∧
    table.find? name = some member ∧ arena.IsTyped member

theorem Precedes.hasComponent (pre : a.Precedes b) (has : a.HasComponent s n) :
    b.HasComponent s n := by
  obtain ⟨tb, mem, h, own, st, typed⟩ := has
  obtain ⟨held, foundLater, -, kept⟩ := pre.scope h
  obtain ⟨same, entries⟩ := kept own
  exact ⟨held, mem, foundLater, same ▸ own, entries n mem st typed, pre.isTyped typed⟩

end Arena

namespace Analysis

variable {ctx b : Context} {s : ScopeId} {start : Nat} {setup : Setup}

/-- Whether a step of an analysis leads from a state to a lawful one, with a result as described. -/
abbrev Works (terms : Terms) (step : Analysis α) (ctx : Context)
    (post : α → Context → Prop) : Prop :=
  Yields terms.tolerated (Context.Follows terms (Arena.Leads terms)) step ctx post

theorem lift_runs {post : α → Context → Prop}
    (runs : Runs tolerated edit ctx.arena fun res next => post res ⟨next, ctx.journal⟩) :
    Runs tolerated (liftM edit : Analysis α) ctx post := by
  unfold Runs at runs ⊢
  rw [run_lift]
  cases outcome : edit ctx.arena with
  | ok v next =>
    rw [outcome] at runs
    exact runs
  | error failure next =>
    rw [outcome] at runs
    cases failure <;> exact runs

theorem lift_bind {mid : α → Arena → Prop} (first : Runs tolerated edit ctx.arena mid)
    (rest : ∀ res a, mid res a → Runs tolerated (next res) ⟨a, ctx.journal⟩ post) :
    Runs tolerated (liftM edit >>= next : Analysis β) ctx post := by
  have lifted : Runs tolerated (liftM edit : Analysis α) ctx fun res after =>
      mid res after.arena ∧ after.journal = ctx.journal :=
    lift_runs (first.mono fun _ _ held => ⟨held, rfl⟩)
  refine lifted.bind fun res after ⟨held, same⟩ => ?_
  obtain ⟨a, journal⟩ := after
  cases same
  exact rest res a held

theorem lift_yields {leads : Arena → Arena → Prop} {post : α → Arena → Prop}
    (typings : ctx.arena.LawfulTypings t ctx.journal.typings)
    (b : ∀ next, leads ctx.arena next → ctx.arena.Precedes next)
    (yields : Yields tolerated leads edit ctx.arena post) :
    Yields tolerated (Context.Follows t leads) (liftM edit : Analysis α) ctx fun res next =>
    post res next.arena :=
  lift_runs (.mono yields fun _ next ⟨led, held⟩ =>
    ⟨⟨led, (b next led).lawfulTypings typings⟩, held⟩)

/-- An edit of the arena leaves the journal as it is. -/
theorem lift_works {post : α → Arena → Prop} (ok : ctx.Lawful t)
    (works : edit.Works t ctx.arena post) :
    (liftM edit : Analysis α).Works t ctx fun res next => post res next.arena :=
  lift_yields ok.typings (fun _ led => led.before) works

theorem lift_quiet {post : α → Prop} (quiet : Quiet tolerated edit ctx.arena post) :
    Quiet tolerated (liftM edit : Analysis α) ctx post :=
  lift_runs (.mono quiet fun _ next ⟨same, held⟩ => ⟨by rw [same], held⟩)

theorem ask_bind (answered : question ctx.arena = .ok ans)
    (rest : Runs tolerated (next ans) ctx post) :
    Runs tolerated (liftM (ask question) >>= next : Analysis β) ctx post := by
  have q : Quiet tolerated (ask question) ctx.arena fun h => h = ans :=
    ask_quiet answered rfl
  exact (lift_quiet q).bind fun h same => same ▸ rest

theorem typeOf_bind {id : ExprId} {next : Ty → Analysis β} (ok : ctx.arena.Lawful t)
    (lt : id.index < ctx.arena.exprs.size) (rest : ∀ ty, ctx.arena.HasType id ty →
      ctx.arena.LawfulType t ty → Runs t.tolerated (next ty) ctx post) :
    Runs t.tolerated (liftM (typeOf id) >>= next : Analysis β) ctx post := by
  obtain ⟨ty, q, has, law⟩ := ok.exists_type lt
  exact ask_bind q (rest ty has law)

theorem environment_bind {next : Environment → Analysis β} (rest : ∀ env : Environment,
      env.typings = ctx.journal.typings → Runs tolerated (next env) ctx post) :
    Runs tolerated (environment setup >>= next) ctx post :=
  Runs.bind_ok rfl (rest _ rfl)

section

variable (ready : ctx.Ready t s)

include ready

/-- An expression is resolved to a new one. -/
theorem expression_works [t.Wary] (room : start ≤ ctx.arena.exprs.size) :
    (expression setup s tree).Works t ctx fun id next => next.arena.Since start id :=
  environment_bind fun _ same => lift_works ready.toLawful
    (Expression.resolve_makes tree (ready.resolving same room))

theorem declaredType_works [t.Wary] : (declaredType setup spec span s).Works t ctx fun ty next =>
      next.arena.LawfulType t ty ∧ ty.IsElement :=
  environment_bind fun _ same =>
    lift_works ready.toLawful (Expression.declaredType_works (ready.resolving same (Nat.zero_le _)))

theorem implicitType?_quiet : Quiet t.tolerated (implicitType? setup s n) ctx fun ans =>
      ∀ ty ∈ ans, ctx.arena.LawfulType t ty := by
  refine environment_bind fun env same => lift_quiet ?_
  have typings : ctx.arena.LawfulTypings t env.typings := same ▸ ready.typings
  obtain ⟨ans, q, law⟩ := Arena.exists_implicitType? ready.lawful typings ready.inner.1 n
  exact ask_quiet q law

theorem declareVariable_runs {post : SymbolId → Context → Prop}
    (rest : ctx.arena.Free s n → ∀ journal : Journal, journal.typings = ctx.journal.typings →
      post ⟨ctx.arena.symbols.size⟩ ⟨ctx.arena.enter s n (.variable info), journal⟩) :
    Runs t.tolerated (declareVariable s n info span) ctx post := by
  refine Runs.bind_ok (run_lift_eq_ok.2 ⟨_, rfl, rfl⟩) ?_
  have declared : Runs t.tolerated (declare s n ⟨ctx.arena.symbols.size⟩ span >>= pure)
      (ctx.arena.attach ⟨n, s, .variable info⟩) fun _ next => ctx.arena.Free s n ∧
        next = ctx.arena.enter s n (.variable info) :=
    declare_attach_runs ready.inner.1 fun free => .pure ⟨free, rfl⟩
  rw [bind_pure] at declared
  refine lift_bind declared fun _ next ⟨free, entered⟩ => ?_
  rw [entered]
  exact Runs.bind_ok rfl (.pure (rest free _ rfl))

/-- A declared variable is found under its name. -/
theorem declareVariable_works (law : ctx.arena.LawfulVariable t info) (typed : info.type ≠ none) :
    (declareVariable s n info span).Works t ctx fun id next =>
      next.arena.find? s n = .ok (some id) ∧ next.arena.symbol id = .ok ⟨n, s, .variable info⟩ := by
  refine declareVariable_runs ready fun free journal same => ?_
  have e : ctx.arena.LawfulEntry t s n (.variable info) :=
    .ofFree free ready.inner rfl nofun law (.inr ready.own)
  have led := e.leads ready.lawful fun o named => by
    cases named
    exact typed
  have typings := led.before.lawfulTypings ready.typings
  exact ⟨⟨led, same ▸ typings⟩, Arena.find?_enter ready.inner.1, Arena.symbol_enter.2
    (.inr ⟨rfl, rfl⟩)⟩

theorem declareVariable_component (law : ctx.arena.LawfulVariable t info)
    (typed : info.type ≠ none) :
    (declareVariable s n info span).Works t ctx fun _ next => next.arena.HasComponent s n := by
  refine (declareVariable_works ready law typed).mono fun id next led ⟨st, h⟩ => ?_
  obtain ⟨tb, foundTable, isEntry⟩ := Arena.find?_eq_some.1 st
  obtain ⟨again, refound, own⟩ := (ready.after led).exists_owner
  cases foundTable.symm.trans refound
  exact ⟨tb, id, foundTable, own, isEntry, _, info, h, rfl, Option.isSome_iff_ne_none.2 typed⟩

/-! ## Bounds -/

theorem bound_works [t.Wary] : (bound setup s tree).Works t ctx fun id next =>
    next.arena.Since 0 id := by
  refine Yields.bind (expression_works ready (Nat.zero_le _)) fun id mid led since => ?_
  refine typeOf_bind led.arena.lawful since.2 fun ty _ _ => ?_
  exact Runs.guard fun _ => Yields.pure (Progress.arrive led) since

theorem extent_works [t.Wary] (lowerSince : ctx.arena.Since 0 lower)
    (upperSince : ctx.arena.Since 0 upper) :
    (extent setup s lower upper span).Works t ctx fun id next => next.arena.Since 0 id := by
  obtain ⟨ans, q⟩ := ready.lawful.exists_integer? lowerSince.2
  refine ask_bind q ?_
  split
  · exact Yields.pure ready.here upperSince
  refine environment_bind fun env same => ?_
  have resolving := ready.resolving same (Nat.zero_le _)
  refine Yields.bind (lift_works ready.toLawful
    (copy_works ready.lawful (Nat.zero_le _) lowerSince.2)) fun copy first led isCopy => ?_
  refine Yields.bind (lift_works led.lawful (Expression.arithmetic_makes (resolving.after led.arena)
    (led.arena.before.since upperSince) isCopy.1)) fun difference second more isDifference => ?_
  have led := Progress.trans led more
  refine .bind (lift_works led.lawful (addInteger_works led.arena.lawful (Nat.zero_le _)))
    fun one third more isOne => ?_
  have led := Progress.trans led more
  exact lift_works led.lawful (Expression.arithmetic_makes (resolving.after led.arena)
    (more.arena.before.since isDifference) isOne.1)

omit ready in
theorem lawfulDimension (lower : ∀ id ∈ dim.start, a.Since 0 id)
    (length : ∀ id ∈ dim.length, a.Since 0 id) : a.LawfulDimension dim := by
  intro id mem
  rcases List.mem_append.1 mem with isStart | isLength
  · exact (lower id (Option.mem_toList.1 isStart)).2
  · exact (length id (Option.mem_toList.1 isLength)).2

theorem bounds_works [t.Wary] (lowerSince : ctx.arena.Since 0 lower)
    (upperSince : ctx.arena.Since 0 upper) :
    (do return { start := some lower, length := some (← extent setup s lower upper span) } :
      Analysis Dimension).Works t ctx fun dim next => next.arena.LawfulDimension dim := by
  refine .bind (extent_works ready lowerSince upperSince) fun length next led since => ?_
  refine .pure (Progress.arrive led) (lawfulDimension (fun id isStart => ?_) fun id isLength => ?_)
  · cases isStart
    exact led.arena.before.since lowerSince
  · cases isLength
    exact since

/-- The bounds of a dimension are expressions that are there. -/
theorem dimension_works [t.Wary] :
    (dimension setup s spec).Works t ctx fun dim next => next.arena.LawfulDimension dim := by
  unfold dimension
  dsimp only
  split
  · exact .pure ready.here (lawfulDimension nofun nofun)
  · refine .bind (bound_works ready) fun lower next led since => ?_
    refine .pure (Progress.arrive led) (lawfulDimension (fun id held => ?_) nofun)
    cases held
    exact since
  · refine .bind (lift_works ready.toLawful (addInteger_works ready.lawful (Nat.zero_le _)))
      fun lower first led isLower => ?_
    refine .bind (bound_works (ready.after led)) fun upper second more isUpper => ?_
    exact bounds_works (ready.after (Progress.trans led more))
      (more.arena.before.since isLower.1) isUpper
  · refine .bind (bound_works ready) fun lower first led isLower => ?_
    refine .bind (bound_works (ready.after led)) fun upper second more isUpper => ?_
    exact bounds_works (ready.after (Progress.trans led more))
      (more.arena.before.since isLower) isUpper

theorem dimensions_works [t.Wary] :
    (dimensions setup s specs).Works t ctx fun dims next => ∀ dim ∈ dims,
    next.arena.LawfulDimension dim :=
  Yields.mapM_all ready.here
    (fun _ _ _ led law id mem => (law id mem).trans_le led.arena.before.exprs_le)
    fun _ _ _ led => dimension_works (ready.after led)

/-! ## Type declarations -/

omit ready in
theorem entityDims_quiet : Quiet t.tolerated (entityDims attributes entity) ctx fun _ => True := by
  unfold entityDims
  split
  · exact Quiet.pure trivial
  · exact Runs.guard fun _ => Quiet.pure trivial

omit ready in
theorem lawfulType_assumedLength (law : a.LawfulType t ty) (v : Ty) :
    a.LawfulType t (assumedLength ty v) := by
  unfold assumedLength
  split
  · exact Expression.lawfulType_text law.supported
  · exact law

section

variable {info : Variable} {ty : Ty} (law : ctx.arena.LawfulVariable t info)
  (typeLaw : ctx.arena.LawfulType t ty)

include law typeLaw

theorem initParameter_works [t.Wary] : (initParameter setup s n info ty init).Works t ctx
    fun info next =>
      next.arena.LawfulVariable t info ∧ info.type ≠ none := by
  refine .bind (expression_works ready (Nat.zero_le _)) fun v first led since => ?_
  refine typeOf_bind led.arena.lawful since.2 fun valueType _ _ => ?_
  have assumed := lawfulType_assumedLength (led.arena.before.lawfulType typeLaw) valueType
  refine Yields.bind (lift_works led.lawful
    (Conversion.forAssignment_works led.arena.lawful since assumed))
    fun ans second more ⟨converted, _⟩ => ?_
  obtain ⟨converted, _⟩ := ans
  have led := Progress.trans led more
  obtain ⟨constant, q⟩ := led.arena.lawful.exists_constant? converted.2
  refine ask_bind q ?_
  cases constant with
  | none => exact .reject _ _
  | some constant =>
    refine Yields.bind (lift_works led.lawful (addConstant_works led.arena.lawful (Nat.zero_le _)
      (more.arena.before.lawfulType assumed))) fun folded third last isFolded => ?_
    have kept := (Progress.trans led last).arena.before.lawfulVariable law
    refine Yields.pure (Progress.arrive last) ⟨⟨?_, nofun, ?_, ?_, kept.aliased⟩,
      nofun⟩
    · intro o held
      cases held
      exact (Progress.trans more last).arena.before.lawfulType assumed
    · intro id held
      cases held
      exact converted.2.trans_le last.arena.before.exprs_le
    · intro id held
      cases held
      exact isFolded.2.1

theorem initVariable_works [t.Wary] (typed : info.type ≠ none) :
    (initVariable setup s component n info ty init).Works t ctx fun info next =>
      next.arena.LawfulVariable t info ∧ info.type ≠ none := by
  refine .bind (expression_works ready (Nat.zero_le _)) fun v first led since => ?_
  refine .bind (lift_works led.lawful (Conversion.forAssignment_works led.arena.lawful since
    (led.arena.before.lawfulType typeLaw))) fun ans second more ⟨converted, _⟩ => ?_
  obtain ⟨converted, _⟩ := ans
  have led := Progress.trans led more
  obtain ⟨constant, q⟩ := led.arena.lawful.exists_constant? converted.2
  refine ask_bind q (Runs.guard fun _ => ?_)
  have kept := led.arena.before.lawfulVariable law
  refine Yields.pure (Progress.arrive led)
    ⟨⟨kept.type, kept.typed, fun id held => ?_, kept.value, kept.aliased⟩, typed⟩
  cases held
  exact converted.2

end

omit ready in
theorem lawfulType_wrap (law : a.LawfulType t ty) : a.LawfulType t (attributes.wrap ty) := by
  unfold DeclAttributes.wrap
  split
  · exact law.allocatable
  · split
    · exact law.pointer
    · exact law

/-- A declared entity is a component of its scope. -/
theorem declareEntity_works [t.Wary] (law : ctx.arena.LawfulType t base) (single : base.IsElement) :
    (declareEntity setup s component attributes base entity).Works t ctx fun n next =>
    next.arena.HasComponent s n := by
  refine entityDims_quiet.bind fun specs _ => ?_
  refine Yields.bind (dimensions_works ready) fun dims first led bounds => ?_
  dsimp only
  have ready := ready.after led
  have typeLaw : first.arena.LawfulType t (attributes.wrap (.shaped base dims)) :=
    lawfulType_wrap ((led.arena.before.lawfulType law).shaped single.rank bounds)
  have variableLaw : first.arena.LawfulVariable t
      (Variable.ofAttributes attributes (attributes.wrap (.shaped base dims))) :=
    ⟨fun ty held => by cases held; exact typeLaw, nofun,
      nofun, nofun, nofun⟩
  have rest {info : Variable} {second : Context} (more : first.Follows t (Arena.Leads t) second)
      (held : second.arena.LawfulVariable t info ∧ info.type ≠ none) :
      (do discard (declareVariable s (Text.lowercase entity.name) info entity.span)
          return Text.lowercase entity.name : Analysis String).Works t second fun n next =>
        next.arena.HasComponent s n := by
    have declared :
        (discard (declareVariable s (Text.lowercase entity.name) info entity.span)).Works t
        second fun _ next => next.arena.HasComponent s (Text.lowercase entity.name) :=
      Yields.map (declareVariable_component (ready.after more) held.1 held.2)
    exact declared.bind fun _ third last has => .pure (Progress.arrive last) has
  split
  · exact .bind (initParameter_works ready variableLaw typeLaw) fun _ _ => rest
  · exact .bind (initVariable_works ready variableLaw typeLaw nofun)
      fun _ _ => rest
  · exact Runs.reject_bind
  · exact rest ready.here ⟨variableLaw, nofun⟩

theorem declareEntities_works [t.Wary] :
    (declareEntities setup s component decl).Works t ctx fun names next =>
      ∀ n ∈ names, next.arena.HasComponent s n := by
  refine .bind (declaredType_works ready) fun base first led ⟨law, single⟩ => ?_
  refine .guard fun _ => ?_
  refine Yields.mapM_all (Progress.arrive led) (fun _ _ _ b has => b.arena.before.hasComponent has)
    fun entity _ mid more => ?_
  exact declareEntity_works (ready.after (Progress.trans led more))
    (more.arena.before.lawfulType law) single

/-! ## Attribute statements -/

/-- What a name stands for in a scope, which may be a new variable with its implicit type, belongs
to the scope. -/
theorem declaredOrImplicit_works : (do match ← ask (·.find? s n) with
        | some sym => return sym
        | none =>
          match ← implicitType? setup s n with
          | none => reject fault span
          | some ty => declareVariable s n (.ofType ty) span : Analysis SymbolId).Works t ctx
      fun id next => ∃ sym, next.arena.symbol id = .ok sym ∧ sym.owner = s := by
  obtain ⟨ans, q, h⟩ := ready.lawful.exists_find? ready.inner.1 n
  refine ask_bind q ?_
  cases ans with
  | some id =>
    obtain ⟨sym, foundSymbol, own, -⟩ := h id rfl
    exact Yields.pure ready.here ⟨sym, foundSymbol, own⟩
  | none =>
    refine (implicitType?_quiet ready).bind fun ty law => ?_
    cases ty with
    | none => exact .reject _ _
    | some ty =>
      exact (declareVariable_works ready (.ofType (law ty rfl) .localVar)
        nofun).mono fun id next _ held => ⟨_, held.2, rfl⟩

omit ready in
/-- A variable with a type and an attribute more. -/
theorem withAttribute_quiet (law : ctx.arena.LawfulVariable t info)
    (typed : info.type ≠ none) (bounds : ∀ dim ∈ dims, ctx.arena.LawfulDimension dim) :
    Quiet t.tolerated (withAttribute n info attrSpec dims span) ctx fun info =>
      ctx.arena.LawfulVariable t info ∧ info.type ≠ none := by
  obtain ⟨type, isType⟩ := Option.ne_none_iff_exists'.1 typed
  have typeLaw := law.type type isType
  have declared : Quiet t.tolerated (typeOfDeclared n info) ctx fun h => h = type := by
    unfold typeOfDeclared
    rw [isType]
    exact .pure rfl
  have withType {changed : Ty} (changedLaw : ctx.arena.LawfulType t changed) :
      ctx.arena.LawfulVariable t { info with type := some changed } :=
    ⟨fun o held => by cases held; exact changedLaw, nofun, law.init, law.value,
      law.aliased⟩
  have same {changed : Variable} (sameType : changed.type = info.type)
      (sameInit : changed.init = info.init)
      (sameValue : changed.value = info.value) (sameAlias : changed.aliasOf = info.aliasOf) :
      ctx.arena.LawfulVariable t changed ∧ changed.type ≠ none :=
    ⟨⟨sameType ▸ law.type, by rw [sameType, sameAlias]; exact law.typed, sameInit ▸ law.init,
      sameValue ▸ law.value, sameAlias ▸ law.aliased⟩, sameType ▸ typed⟩
  cases attrSpec with
  | allocatable =>
    refine declared.bind fun h isFound => Quiet.pure ⟨withType ?_, nofun⟩
    exact isFound ▸ typeLaw.allocatable
  | pointer =>
    refine declared.bind fun h isFound => Quiet.pure ⟨withType ?_, nofun⟩
    exact isFound ▸ typeLaw.pointer
  | dimension specs =>
    refine declared.bind fun h isFound => Runs.guard fun notArray => ?_
    have scalar : type.rank = 0 := by
      rw [isFound] at notArray
      simpa [Ty.isArray] using notArray
    exact Quiet.pure ⟨withType (isFound ▸ typeLaw.shaped scalar bounds), nofun⟩
  | parameter => exact Runs.reject _ _
  | _ => exact Quiet.pure (same rfl rfl rfl rfl)

theorem attributeDims_works [t.Wary] : (attributeDims setup s attrSpec).Works t ctx fun dims next =>
      ∀ dim ∈ dims, next.arena.LawfulDimension dim := by
  cases attrSpec with
  | dimension specs => exact dimensions_works ready
  | _ => exact .pure ready.here nofun

/-- An attribute statement about a name of a scope without aliases. -/
theorem applyAttribute_works [t.Wary] (ordinary : ctx.arena.Ordinary s) :
    (applyAttribute setup s attrSpec span n).Works t ctx fun _ _ => True := by
  refine .bind (declaredOrImplicit_works ready) fun id first led ⟨pre, foundBefore,
    ownedBefore⟩ => ?_
  refine .bind (attributeDims_works (ready.after led)) fun dims second further bounds => ?_
  have led := Progress.trans led further
  obtain ⟨sym, found, kept⟩ := further.arena.before.symbol foundBefore
  have own : sym.owner = s := kept.owner.trans ownedBefore
  refine ask_bind (Arena.kind_eq_ok.2 ⟨sym, found, rfl⟩) ?_
  cases named : sym.kind with
  | «variable» info =>
    have law : second.arena.LawfulVariable t info := by
      have law := led.arena.lawful.kind found
      rwa [named] at law
    have isOrdinary := led.arena.grown.ordinaryScope ordinary ready.inner.1 id sym found own
    rw [named] at isOrdinary
    have typed : info.type ≠ none := Option.isSome_iff_ne_none.1 isOrdinary
    refine (withAttribute_quiet law typed bounds).bind fun changed ⟨changedLaw, changedTyped⟩ => ?_
    have revision : second.arena.LawfulRevision t id (.variable changed) sym := {
      found := found
      form := by rw [named]; rfl
      arguments := nofun
      law := changedLaw
      ordinary := by
        rw [named]
        exact (Option.isSome_iff_ne_none.2 changedTyped).trans isOrdinary.symm
      foreign := by rw [named]; rfl
      binding := fun info bound => by
        cases named.symm.trans bound
      references := .inr (own ▸ (ready.after led).own) }
    exact (lift_works led.lawful (modifyKind_works led.arena.lawful revision)).mono
      fun _ _ _ _ => trivial
  | _ => exact .reject _ _

end

end Analysis

end FortranSemantics
