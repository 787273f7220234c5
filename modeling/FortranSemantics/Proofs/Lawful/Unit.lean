import FortranSemantics.Analysis.Unit
import FortranSemantics.Proofs.Lawful.Body
import FortranSemantics.Proofs.Lawful.LoweringWalk

/-!
# Compilation units in lawful arenas

All passes over a compilation unit lead from a lawful arena to a lawful one. With a library that has
no module to offer, every question they ask has an answer, so that a compilation unit is accepted or
rejected and no step breaks.
-/

namespace FortranSemantics

open List Arena

variable {α β : Type} {t : Terms} {a : Arena} {ctx : Context} {setup : Setup}

/-! ## Unused arguments -/

theorem exists_bind {question : Except Breach α} {next : α → Except Breach β} {ans : α}
    {post : β → Prop} (q : question = .ok ans) (rest : ∃ res, next ans = .ok res ∧ post res) :
    ∃ res, question >>= next = .ok res ∧ post res := by
  subst q
  exact rest

theorem exists_flattened {step : α → Except Breach (List β)} {items : List α} {post : β → Prop}
    (each : ∀ item ∈ items, ∃ ans, step item = .ok ans ∧ ∀ v ∈ ans, post v) :
    ∃ answers, (do return (← items.mapM step).flatten : Except Breach (List β)) = .ok answers ∧
      ∀ v ∈ answers, post v := by
  obtain ⟨answers, q, all⟩ := exists_answers_with each
  refine ⟨answers.flatten, bind_eq_ok.2 ⟨answers, q, rfl⟩, fun v mem => ?_⟩
  obtain ⟨ans, known, inside⟩ := mem_flatten.1 mem
  exact all ans known v inside

namespace Arena

theorem LawfulType.typeExprs (law : a.LawfulType t ty) : ∀ id ∈ typeExprs ty,
    id.index < a.exprs.size := by
  have bounds : ∀ id ∈ ty.dims.flatMap Ty.dimensionExprs, id.index < a.exprs.size :=
    fun id mem => law.exprs id (ty.exprs_dims mem)
  intro id mem
  unfold Arena.typeExprs at mem
  dsimp only at mem
  split at mem
  · next length form =>
    rcases mem_append.1 mem with inBounds | isLength
    · exact bounds id inBounds
    · refine law.element.exprs id ?_
      rw [form]
      exact isLength
  · exact bounds id mem

/-- The expressions that a variable is declared with are there. -/
theorem LawfulVariable.inRange (law : a.LawfulVariable t info) : ∀ id ∈
    ([info.init, info.value, info.aliasOf].filterMap fun expr => expr) ++
    (info.type.map typeExprs).getD [],
      id.index < a.exprs.size := by
  intro id mem
  rcases mem_append.1 mem with given | inType
  · obtain ⟨held, known, same⟩ := mem_filterMap.1 given
    simp only [mem_cons, not_mem_nil, or_false] at known
    rcases known with rfl | rfl | rfl
    · exact law.init id same
    · exact (law.value id same).inRange
    · exact law.aliased id same
  · cases isType : info.type with
    | none =>
      rw [isType] at inType
      cases inType
    | some ty =>
      rw [isType] at inType
      exact (law.type ty isType).typeExprs id inType

namespace Lawful

variable (lawful : a.Lawful t)
include lawful

/-- The variables that an expression refers to are known and there. -/
theorem exists_exprUsesWithin {fuel : Nat} {id : ExprId} (within : a.Within fuel id) :
    ∃ ans, a.exprUsesWithin fuel id = .ok ans ∧ ∀ sym ∈ ans, sym.index < a.symbols.size := by
  induction fuel generalizing id with
  | zero => exact within.elim
  | succ fuel ih =>
    obtain ⟨expr, h, deeper⟩ := within
    obtain ⟨answers, q, all⟩ := exists_answers_with fun child mem => ih (deeper child mem)
    refine exists_bind h ⟨_, bind_eq_ok.2 ⟨answers, q, rfl⟩, fun sym mem => ?_⟩
    rcases mem_append.1 mem with own | nested
    · have form := (lawful.expr h).form
      split at own
      · next refers =>
        rw [refers] at form
        exact mem_singleton.1 own ▸ form
      · cases own
    · obtain ⟨ans, known, inside⟩ := mem_flatten.1 nested
      exact all ans known sym inside

theorem exists_exprUses {ids : List ExprId} (lt : ∀ id ∈ ids, id.index < a.exprs.size) :
    ∃ ans, a.exprUses ids = .ok ans ∧ ∀ sym ∈ ans, sym.index < a.symbols.size :=
  exists_flattened fun id mem =>
    lawful.exists_exprUsesWithin ((lawful.depth (lt id mem)).mono (Nat.le_succ _))

theorem exists_listed {id : SymbolId} (h : a.scope s = .ok tb) (mem : id ∈ tb.symbols) :
    ∃ sym, a.symbol id = .ok sym ∧ sym.owner = s := by
  obtain ⟨⟨n, _⟩, e, rfl⟩ := mem_map.1 mem
  obtain ⟨sym, held, own, -⟩ := lawful.sound.entry h e
  exact ⟨sym, held, own⟩

theorem opened_deeper {id : SymbolId} {sym : Symbol} {inner : ScopeId} (h : a.symbol id = .ok sym)
    (opens : sym.kind.scope? = some inner) : sym.owner.index < inner.index ∧
    inner.index < a.scopes.size := by
  obtain ⟨tb, held, -, inside⟩ := lawful.sound.opened h opens
  exact ⟨lawful.sound.parent held inside, scope_inRange held⟩

/-- The variables that the declarations and nested bodies of a scope refer to are known and there.
-/
theorem exists_scopeUses {s : ScopeId} (lt : s.index < a.scopes.size)
    (enough : a.scopes.size < s.index + fuel) :
    ∃ ans, a.scopeUsesWithin fuel s = .ok ans ∧ ∀ sym ∈ ans, sym.index < a.symbols.size := by
  induction fuel generalizing s with
  | zero => omega
  | succ fuel ih =>
    obtain ⟨tb, h⟩ := exists_scope lt
    have nested {id : SymbolId} {sym : Symbol} {inner : ScopeId} {body : List Stmt}
        (held : a.symbol id = .ok sym) (own : sym.owner = s) (opens : sym.kind.scope? = some inner)
        (law : a.LawfulBody t sym.owner inner body) :
        ∃ ans, (do
          let body ← a.exprUses (Stmt.exprsOf body)
          return body ++ (← a.scopeUsesWithin fuel inner) : Except Breach (List SymbolId)) =
          .ok ans ∧
            ∀ sym ∈ ans, sym.index < a.symbols.size := by
      obtain ⟨deeper, known⟩ := lawful.opened_deeper held opens
      obtain ⟨first, q, here⟩ := lawful.exists_exprUses law.exprs
      obtain ⟨second, askedToo, there⟩ := ih known (by rw [own] at deeper; omega)
      exact ⟨_, bind_eq_ok.2 ⟨first, q, bind_eq_ok.2 ⟨second, askedToo, rfl⟩⟩,
        fun sym mem => (mem_append.1 mem).elim (here sym) (there sym)⟩
    refine exists_bind h (exists_flattened fun id mem => ?_)
    obtain ⟨sym, held, own⟩ := lawful.exists_listed h mem
    have law := lawful.kind held
    refine exists_bind (kind_eq_ok.2 ⟨sym, held, rfl⟩) ?_
    cases k : sym.kind with
    | «variable» info =>
      rw [k] at law
      exact lawful.exists_exprUses law.inRange
    | function info | block info =>
      rw [k] at law
      exact nested held own (by rw [k]; rfl) law
    | _ => exact ⟨[], rfl, by simp⟩

/-- The unused dummy arguments of a procedure are known and there. -/
theorem exists_unusedArguments {id : SymbolId} (h : a.symbol id = .ok sym)
    (isFunction : sym.kind = .function info) :
    ∃ ans, a.unusedArguments info = .ok ans ∧ ∀ arg ∈ ans, arg.index < a.symbols.size := by
  have law := lawful.kind h
  have arguments := lawful.sound.arguments h
  obtain ⟨-, known⟩ := lawful.opened_deeper h
    (by rw [isFunction]; rfl : sym.kind.scope? = some info.scope)
  rw [isFunction] at law arguments
  obtain ⟨body, q, -⟩ := lawful.exists_exprUses law.exprs
  obtain ⟨nested, askedToo, -⟩ :=
    lawful.exists_scopeUses known (by omega : _ < _ + (a.scopes.size + 1))
  refine ⟨_, bind_eq_ok.2 ⟨body, q, bind_eq_ok.2 ⟨nested, askedToo, rfl⟩⟩, fun arg mem => ?_⟩
  obtain ⟨_, _, held, hh, _⟩ := arguments arg (mem_append_left _ (mem_filter.1 mem).1)
  exact symbol_inRange hh

theorem exists_unusedBelow {fuel : Nat} {id : SymbolId} {sym : Symbol}
    {own : List (SymbolId × SymbolId)}
    {post : SymbolId × SymbolId → Prop} (h : a.symbol id = .ok sym)
    (known : ∀ pair ∈ own, post pair)
    (each : ∀ {child held}, a.symbol child = .ok held → sym.owner.index < held.owner.index →
      ∃ ans, a.unusedWithin fuel child = .ok ans ∧ ∀ pair ∈ ans, post pair) :
    ∃ ans, (match sym.kind.scope? with
      | none => return own
      | some s => do
        let inner ← (← a.scope s).symbols.mapM (a.unusedWithin fuel)
        return own ++ inner.flatten : Except Breach (List (SymbolId × SymbolId))) = .ok ans ∧
          ∀ pair ∈ ans, post pair := by
  cases opens : sym.kind.scope? with
  | none => exact ⟨own, rfl, known⟩
  | some inner =>
    obtain ⟨deeper, lt⟩ := lawful.opened_deeper h opens
    obtain ⟨tb, foundTable⟩ := exists_scope lt
    refine exists_bind foundTable ?_
    obtain ⟨answers, q, all⟩ := exists_answers_with fun child mem => by
      obtain ⟨held, hh, owned⟩ := lawful.exists_listed foundTable mem
      exact each hh (owned ▸ deeper)
    refine ⟨_, bind_eq_ok.2 ⟨answers, q, rfl⟩, fun pair mem => ?_⟩
    rcases mem_append.1 mem with isOwn | nested
    · exact known pair isOwn
    · obtain ⟨ans, isAnswer, inside⟩ := mem_flatten.1 nested
      exact all ans isAnswer pair inside

/-- The unused dummy arguments of a symbol and of those inside it are known, and there with their
procedures. -/
theorem exists_unusedWithin {id : SymbolId} (h : a.symbol id = .ok sym)
    (enough : a.scopes.size + 1 < sym.owner.index + fuel) :
    ∃ ans, a.unusedWithin fuel id = .ok ans ∧ ∀ pair ∈ ans,
      pair.1.index < a.symbols.size ∧ pair.2.index < a.symbols.size := by
  induction fuel generalizing id sym with
  | zero =>
    obtain ⟨tb, _, foundTable, _⟩ := lawful.sound.entered h
    have lt := scope_inRange foundTable
    omega
  | succ fuel ih =>
    have inner {own : List (SymbolId × SymbolId)} (known : ∀ pair ∈ own,
        pair.1.index < a.symbols.size ∧ pair.2.index < a.symbols.size) :=
      lawful.exists_unusedBelow h known fun hh deeper => ih hh (by omega)
    have without := @inner [] (by simp)
    refine exists_bind (kind_eq_ok.2 ⟨sym, h, rfl⟩) ?_
    dsimp only
    split
    · next info isFunction =>
      split
      · obtain ⟨args, q, known⟩ := lawful.exists_unusedArguments h isFunction
        refine exists_bind q (inner fun pair mem => ?_)
        obtain ⟨arg, isArg, rfl⟩ := mem_map.1 mem
        exact ⟨symbol_inRange h, known arg isArg⟩
      · exact without
    · exact without

theorem exists_unusedDummies : ∃ ans, a.unusedDummies = .ok ans ∧ ∀ pair ∈ ans,
    pair.1.index < a.symbols.size ∧ pair.2.index < a.symbols.size := by
  obtain ⟨tb, h, -⟩ := lawful.sound.root
  refine exists_bind h (exists_flattened fun id mem => ?_)
  obtain ⟨sym, held, own⟩ := lawful.exists_listed h mem
  refine exists_bind (Lowering.isForeignModule_eq held) ?_
  split
  · exact ⟨[], rfl, by simp⟩
  · exact lawful.exists_unusedWithin held (by omega)

end Lawful

end Arena

/-- The terms of an analysis in which nothing may break. -/
def Terms.strict : Terms :=
  ⟨False, False, 0⟩

instance : Terms.strict.Wary :=
  ⟨id⟩

/-! ## Libraries without modules -/

/-- Whether a library has no module to offer. -/
def Library.OffersNothing (library : Library) : Prop :=
  ∀ name image, library.load name ≠ .ok image

theorem Library.offersNothing_empty : Library.OffersNothing {} :=
  fun _ _ loaded => by cases loaded

/-- With a library that has no module to offer, only modules of the program are found. -/
theorem Library.OffersNothing.loads {lib : Library} (nothing : lib.OffersNothing) :
    lib.Loads t := by
  intro n span ctx lawful
  obtain ⟨ans, q, known⟩ := lawful.lawful.exists_find? lawful.lawful.sound.root_inRange n
  refine Analysis.ask_bind q ?_
  cases ans with
  | some id =>
    obtain ⟨sym, h, -⟩ := known id rfl
    refine Analysis.ask_bind (kind_eq_ok.2 ⟨sym, h, rfl⟩) ?_
    split
    · next info isModule =>
        exact Yields.pure lawful.here ⟨sym, info.scope, h, by rw [isModule]; rfl⟩
    · exact Runs.reject _ _
  | none =>
    have begins : Runs t.tolerated (Analysis.beginLoading n span) ctx fun _ _ => True :=
      Runs.bind_ok rfl (.guard fun _ => Runs.of_ok rfl trivial)
    refine .bind begins fun _ _ _ => ?_
    cases given : lib.load n with
    | ok image => exact absurd given (nothing n image)
    | error problem => exact .reject _ _

/-! ## All passes -/

namespace Analysis

theorem lintUnusedDummies_works (lawful : ctx.Lawful t) : lintUnusedDummies.Works t ctx
    fun _ _ => True := by
  obtain ⟨unused, q, known⟩ := lawful.lawful.exists_unusedDummies
  refine ask_bind q (Runs.bind_ok rfl (Yields.forM lawful.here fun pair mem mid led => ?_))
  obtain ⟨function, arg⟩ := pair
  obtain ⟨functionKnown, argKnown⟩ := known _ mem
  have pre := led.arena.before
  obtain ⟨held, hh⟩ := exists_symbol (argKnown.trans_le pre.symbols_le)
  obtain ⟨owner, foundOwner⟩ := exists_symbol (functionKnown.trans_le pre.symbols_le)
  dsimp only
  split
  · exact .pure led.lawful.here trivial
  · exact ask_bind (name_eq_ok.2 ⟨held, hh, rfl⟩) (ask_bind (name_eq_ok.2 ⟨owner, foundOwner, rfl⟩)
      (Runs.of_ok rfl ⟨⟨led.arena.lawful.leads, led.typings⟩, trivial⟩))

/-- What follows the body pass. -/
theorem finish_works (lawful : ctx.Lawful t) (room : t.fixed ≤ ctx.arena.scopes.size) :
    (if setup.settings.lowerArrays then do Lowering.arena; lintUnusedDummies
      else lintUnusedDummies).Works t ctx fun _ _ => True := by
  have lowers : (liftM Lowering.arena : Analysis Unit).Works t ctx fun _ _ => True :=
    lift_works lawful (Runs.mono (Lowering.arena_lowers lawful.lawful room).tolerate
      fun _ _ ⟨lowered, _⟩ =>
      ⟨lowered.leads, trivial⟩)
  split
  · exact Yields.bind lowers fun _ _ led _ => lintUnusedDummies_works led.lawful
  · exact lintUnusedDummies_works lawful

/-- All passes over a compilation unit lead to a lawful state. -/
theorem analyse_works [t.Wary] (loads : setup.library.Loads t) (lawful : ctx.Lawful t)
    (early : t.fixed = 0) : (analyse setup unit).Works t ctx fun _ _ => True := by
  have room (a : Arena) : t.fixed ≤ a.scopes.size := early ▸ Nat.zero_le _
  refine .bind (declareUnit_works loads lawful early) fun _ declared led has => ?_
  refine .bind (Yields.forM led.lawful.here fun item mem mid more =>
    unitBody_works loads more.lawful (room _) (more.arena.before.hasUnit (has item mem)))
      fun _ resolved led _ => ?_
  exact finish_works led.lawful (room _)

/-- With a library that has no module to offer, every compilation unit is accepted with a lawful
arena or rejected. -/
theorem analyse_lawful {unit : Tree.CompilationUnit} (nothing : setup.library.OffersNothing) :
    (∃ analysed, unit.analyse setup = .ok analysed ∧ analysed.arena.Lawful .strict) ∨
      ∃ error, unit.analyse setup = .error (.rejected error) := by
  have works : (analyse setup unit).Works .strict { arena := .empty, journal := {} }
    fun _ _ => True :=
    analyse_works nothing.loads ⟨lawful_empty, nofun⟩ rfl
  unfold Tree.CompilationUnit.analyse extend
  cases ran : analyse setup unit { arena := .empty, journal := {} } with
  | ok _ ctx => exact .inl ⟨_, rfl, (works.result ran).1.arena.lawful⟩
  | error failure _ =>
    cases failure with
    | rejected error => exact .inr ⟨error, rfl⟩
    | broken breach => exact absurd ran works.not_broken

end Analysis

end FortranSemantics
