import FortranSemantics.Proofs.Lawful.Loading
import FortranSemantics.Proofs.Lawful.Unit
import FortranSemantics.Proofs.Session

/-!
# Sessions in lawful arenas

The arenas of a session are lawful, with whatever modules of earlier arenas they load, where
type-bound procedures and candidates need not be procedures: what a path names in the arena that
loads a module may differ from what it named where the module was analysed. A breach of an analysis
is tolerated here; its result is lawful when it has one.
-/

namespace FortranSemantics

open SymbolKind

variable {α : Type} {t : Terms} {ctx : Context} {setup : Setup}

/-! ## Loading -/

/-- Whether an image was taken of a module in the root of a lawful arena. -/
def Image.OfLawful (terms : Terms) (image : Image) : Prop :=
  ∃ (source : Arena) (module : SymbolId), source.Lawful terms ∧ source.ModuleAt module ∧
    Nonempty (Extracted source module image)

/-- The terms of an analysis that may load modules. -/
def Terms.loose (fixed : Nat) : Terms :=
  ⟨True, True, fixed⟩

instance : (Terms.loose n).Wary :=
  ⟨id⟩

theorem Arena.LawfulType.reset {a : Arena} {type : Ty} (law : a.LawfulType (.loose n) type) :
    a.LawfulType (.loose fixed) type :=
  { law with }

/-- An arena that is lawful where modules may be loaded is so however many scopes are fixed. -/
theorem Arena.Lawful.reset {a : Arena} (ok : a.Lawful (.loose n)) : a.Lawful (.loose fixed) := by
  refine { ok with
    kind := fun {_ symbol} h => ?_,
    expr := fun h => { ok.expr h with type := (ok.expr h).type.reset } }
  have law := ok.kind h
  cases named : symbol.kind <;> rw [named] at law <;> first
    | exact law
    | exact { law with }
    | exact { law with type := fun type held => (law.type type held).reset }

theorem Runs.of_results {σ : Type} {edit : EStateM Failure σ α} {state : σ} {post : α → σ → Prop}
    (results : ∀ res next, edit state = .ok res next → post res next) :
    Runs ⟨True, fun _ => True⟩ edit state post := by
  unfold Runs
  split
  · next res next ran => exact results res next ran
  · trivial
  · trivial

namespace Analysis

/-- Making sure that the first part of an import path exists. -/
theorem prepareImport_works {load : String → Analysis SymbolId} {first : String}
    {rest : List String}
    (loads : ∀ {ctx : Context}, ctx.Lawful t → (load first).Works t ctx fun _ _ => True)
    (ok : ctx.Lawful t) : (prepareImport load first rest).Works t ctx fun _ _ => True := by
  obtain ⟨ans, asked, -⟩ := ok.lawful.exists_find? ok.lawful.sound.root_inRange first
  refine ask_bind asked ?_
  split
  · exact Yields.pure ok.here trivial
  split
  · split
    · exact Yields.map ((lift_works ok (Intrinsic.functionSymbol_works ok.lawful)).mono
        fun _ _ _ _ => trivial)
    · exact Yields.pure ok.here trivial
  · exact Yields.map (loads ok)

/-- The symbol that an import path names is there. -/
theorem resolveImport_works {load : String → Analysis SymbolId} {moduleName : String} {span : Span}
    (loads : ∀ (name : String) {ctx : Context}, ctx.Lawful (.loose n) →
      (load name).Works (.loose n) ctx fun _ _ => True) (path : List String)
      (ok : ctx.Lawful (.loose n)) :
    (resolveImport load moduleName span path).Works (.loose n) ctx fun id next =>
    id.index < next.arena.symbols.size := by
  cases path with
  | nil => trivial
  | cons first rest =>
    refine .bind (prepareImport_works (loads first) ok) fun _ mid led _ => ?_
    refine Runs.of_results fun id next ran => ?_
    simp only [run_bind_eq_ok, run_lift_eq_ok, Edit.ask_eq_ok] at ran
    obtain ⟨ans, _, ⟨_, ⟨h, rfl⟩, rfl⟩, ran⟩ := ran
    cases ans with
    | none => cases ran
    | some sym =>
      cases ran
      exact ⟨led.lawful.here, led.arena.lawful.sound.findPath_inRange h⟩

theorem beginLoading_works {name : String} {span : Span} (ok : ctx.Lawful t) :
    (beginLoading name span).Works t ctx fun _ _ => True :=
  Runs.bind_ok rfl (.guard fun _ => Runs.of_ok rfl ⟨⟨ok.lawful.leads, ok.typings⟩, trivial⟩)

/-- Loading a module, after those that it refers to, leads to a lawful state in which it is there.
-/
theorem loadWithin_works {lib : Library}
    (images : ∀ name image, lib.load name = .ok image → image.OfLawful (.loose 0))
    (span : Span) (fuel : Nat)
    (name : String) (lawful : ctx.Lawful (.loose n)) :
    (loadWithin lib span fuel name).Works (.loose n) ctx fun id next =>
      ∃ sym inner, next.arena.symbol id = .ok sym ∧ sym.kind.scope? = some inner := by
  induction fuel generalizing name ctx with
  | zero => trivial
  | succ fuel ih =>
    obtain ⟨ans, asked, known⟩ := lawful.lawful.exists_find? lawful.lawful.sound.root_inRange name
    refine ask_bind asked ?_
    cases ans with
    | some id =>
      obtain ⟨sym, h, -⟩ := known id rfl
      refine ask_bind (Arena.kind_eq_ok.2 ⟨sym, h, rfl⟩) ?_
      split
      · next info isModule =>
          exact Yields.pure lawful.here ⟨sym, info.scope, h, by rw [isModule]; rfl⟩
      · exact Runs.reject _ _
    | none =>
      refine Yields.bind (beginLoading_works lawful) fun _ begun led _ => ?_
      cases served : lib.load name with
      | error problem => exact Runs.reject _ _
      | ok image =>
        have resolves : (image.imports.mapM
            (resolveImport (loadWithin lib span fuel) name span)).Works (.loose n)
            begun fun imports next => List.Forall₂ (fun _ id => id.index < next.arena.symbols.size)
              image.imports imports :=
          Yields.mapM led.lawful.here
            (fun _ _ _ _ led lt => lt.trans_le led.arena.before.symbols_le)
            fun path _ mid led => resolveImport_works
              (fun name _ lawful => (ih name lawful).mono fun _ _ _ _ => trivial) path led.lawful
        refine .bind resolves fun imports resolved led all => Runs.of_results fun id next ran => ?_
        have known : ∀ id ∈ imports, id.index < resolved.arena.symbols.size := fun id mem => by
          obtain ⟨_, -, lt⟩ := exists_of_mem_right all mem
          exact lt
        obtain ⟨src, module, lawfulSource, home, ⟨drawn⟩⟩ := images name image served
        have lawfulSource : src.Lawful (.loose n) := lawfulSource.reset
        simp only [run_bind_eq_ok, run_lift_eq_ok, drawn.graft_eq_ok all.length_eq.symm] at ran
        obtain ⟨_, _, ⟨_, put, rfl⟩, _, _, isRoot, _, _, ⟨_, entered, rfl⟩, _, _, ended,
          finished⟩ := ran
        cases put
        cases isRoot
        cases ended
        cases finished
        rw [drawn.grafted_root] at entered ⊢
        obtain ⟨⟨table, isTable, none⟩, -, rfl⟩ := Edit.declare_eq_ok.1 entered
        have lawful := led.arena.lawful
        have free : resolved.arena.Free resolved.arena.root name := by
          obtain ⟨top, topFound, -⟩ := lawful.sound.root
          refine ⟨table, ?_, none⟩
          exact (drawn.copiedTo_result.keptScope _
            (Arena.scope_inRange topFound)).symm.trans isTable
        have installs := lawful.sound.installs lawfulSource.sound drawn home
          all.length_eq.symm known free
        have loaded := installs.leads trivial lawful lawfulSource home
        obtain ⟨held, isHeld, -, -, -, opens, -⟩ := installs.copy_module home
        obtain ⟨inner, opens⟩ := Option.isSome_iff_exists.1 opens
        rw [drawn.grafted_root] at isHeld
        exact ⟨⟨loaded, loaded.before.lawfulTypings led.typings⟩, held, inner, isHeld, opens⟩

end Analysis

theorem Library.ServedBy.loads {lib : Library} (served : lib.ServedBy arenas)
    (ok : ∀ a ∈ arenas, a.Lawful (.loose 0)) : lib.Loads (.loose n) := by
  refine fun name span _ => Analysis.loadWithin_works (fun name image given => ?_) span _ name
  obtain ⟨a, mem, published, key, made, given⟩ := served name image given
  obtain ⟨-, table, module, h, member, publishes, imaged⟩ := load_ofArena made given
  have sound := (ok a mem).sound
  exact ⟨a, module, ok a mem, sound.moduleAt h member publishes, Arena.extracted_of_imageOf imaged⟩

/-! ## Procedures left behind -/

namespace SymbolKind

variable (k : SymbolKind)

theorem form_left : k.left.form = k.form := by
  cases k <;> rfl

theorem references_left : k.left.references = k.references := by
  cases k <;> rfl

theorem isForeign_left : k.left.isForeign = k.isForeign := by
  cases k <;> rfl

end SymbolKind

namespace Arena

variable {a : Arena} {proc : SymbolId}

theorem symbol_leave {id : SymbolId} {sym : Symbol} : (a.leave procedure).symbol id = .ok sym ↔
    ∃ old, a.symbol id = .ok old ∧ sym = if id = procedure then
    { old with kind := old.kind.left } else old :=
  symbol_modify rfl

theorem exists_symbol_leave {id : SymbolId} {sym : Symbol} (h : a.symbol id = .ok sym) :
    ∃ held, (a.leave procedure).symbol id = .ok held ∧ held.name = sym.name ∧
    held.owner = sym.owner ∧
      (held.kind = sym.kind ∨ held.kind = sym.kind.left) := by
  refine ⟨_, symbol_leave.2 ⟨sym, h, rfl⟩, ?_⟩
  split
  · exact ⟨rfl, rfl, .inr rfl⟩
  · exact ⟨rfl, rfl, .inl rfl⟩

theorem exists_symbol_of_leave {id : SymbolId} {held : Symbol}
    (h : (a.leave procedure).symbol id = .ok held) :
    ∃ sym, a.symbol id = .ok sym ∧ held.name = sym.name ∧ held.owner = sym.owner ∧
      (held.kind = sym.kind ∨ held.kind = sym.kind.left) := by
  obtain ⟨sym, symbolFound, -⟩ := symbol_leave.1 h
  obtain ⟨again, refound, same⟩ := @exists_symbol_leave a procedure _ _ symbolFound
  cases h.symm.trans refound
  exact ⟨sym, symbolFound, same⟩

theorem Belongs.leave {foreign : Bool} {s : ScopeId} (belongs : a.Belongs foreign s) :
    (a.leave proc).Belongs foreign s := by
  induction belongs with
  | unit h owned held top same =>
    obtain ⟨sym, isSym, -, owner, k⟩ := exists_symbol_leave held
    refine .unit h owned isSym (owner.trans top) ?_
    rcases k with kept | left
    · rw [kept]
      exact same
    · rw [left, isForeign_left]
      exact same
  | inner h owned held _ ih =>
    obtain ⟨sym, isSym, -, owner, -⟩ := exists_symbol_leave held
    exact .inner h owned isSym (owner ▸ ih)

theorem Own.leave {s : ScopeId} (own : a.Own s) : (a.leave proc).Own s :=
  own.imp id Belongs.leave

theorem Native.leave {id : ExprId} (native : a.Native id) : (a.leave proc).Native id := by
  intro node nested borrowed
  rw [reaches_of_exprs_eq rfl] at nested
  refine native node nested (borrowed.earlier (fun h foreign node occurs => ?_) fun _ h => h)
  obtain ⟨old, oldFound, -, owner, k⟩ := exists_symbol_of_leave h
  refine .ofSymbol oldFound (fun own => foreign (owner ▸ own.leave)) ?_
  rcases k with kept | left
  · exact kept ▸ occurs
  · rw [← references_left, ← left]
    exact occurs

theorem LawfulType.leave {ty : Ty} (law : a.LawfulType (.loose n) ty) :
    (a.leave proc).LawfulType (.loose n) ty where
  flat := law.flat
  exprs := law.exprs
  symbols id mem := ⟨Array.size_modify.symm ▸ (law.symbols id mem).1, .inl trivial⟩
  supported := law.supported

theorem LawfulExpr.leave {expr : Expr} (law : a.LawfulExpr (.loose n) expr) :
    (a.leave proc).LawfulExpr (.loose n) expr where
  children := law.children
  type := law.type.leave
  value := law.value
  form := by
    have form := law.form
    revert form
    unfold LawfulForm
    split
    · exact fun lt => Array.size_modify.symm ▸ lt
    all_goals exact id

/-- Statements stay lawful when a procedure is left behind. -/
theorem LawfulBody.leave {owner s : ScopeId} {body : List Stmt}
    (law : a.LawfulBody (.loose n) owner s body) :
    (a.leave proc).LawfulBody (.loose n) owner s body where
  exprs := law.exprs
  separate target v mem expr h isCall nested := by
    rw [reaches_of_exprs_eq rfl] at nested
    exact law.separate target v mem expr h isCall nested
  typed _ _ := .inl trivial
  blocks block mem := by
    obtain ⟨inner, sym, h, owned, form⟩ := law.blocks block mem
    obtain ⟨held, isHeld, -, owner, k⟩ := exists_symbol_leave h
    refine ⟨inner, held, isHeld, owner.trans owned, ?_⟩
    rcases k with kept | left
    · rw [kept, form]
    · rw [left, form_left, form]
  side := law.side.imp_right (Or.imp Belongs.leave fun ⟨own, native⟩ =>
    ⟨own.leave, fun expr mem => (native expr mem).leave⟩)

/-- What a symbol names stays lawful when a procedure is left behind. -/
theorem LawfulKind.leave {owner : ScopeId} {k : SymbolKind}
    (law : a.LawfulKind (.loose n) owner k) :
    (a.leave procedure).LawfulKind (.loose n) owner k := by
  cases k with
  | «variable» info =>
    exact ⟨fun type isType => (law.type type isType).leave, law.typed, law.init,
      law.value, law.aliased⟩
  | function info | program info | block info => exact LawfulBody.leave law
  | generic info => exact fun proc listed =>
    ⟨Array.size_modify.symm ▸ (law proc listed).1, .inl trivial⟩
  | binding info => exact ⟨Array.size_modify.symm ▸ law.1, .inl trivial⟩
  | derivedType info =>
    intro name listed
    obtain ⟨table, mem, h, owned, stands, sym, info, isSym, named, typed⟩ := law name listed
    obtain ⟨held, isHeld, -, -, k⟩ := exists_symbol_leave isSym
    refine ⟨table, mem, h, owned, stands, held, info, isHeld, ?_, typed⟩
    rw [named] at k
    exact k.elim id id
  | moduleUnit info => exact law
  | imported info => trivial

/-- Leaving a procedure behind keeps an arena lawful. -/
theorem Lawful.leave (ok : a.Lawful (.loose n)) (lt : proc.index < a.symbols.size) :
    (a.leave proc).Lawful (.loose n) where
  sound := ok.sound.leave lt
  expr h := (ok.expr h).leave
  depth lt := (ok.depth lt).kept fun {_ expr} h => ⟨expr, h, List.Subset.refl _⟩
  kind h := by
    obtain ⟨old, oldFound, -, owner, kind⟩ := exists_symbol_of_leave h
    have law : (a.leave proc).LawfulKind (.loose n) old.owner old.kind := (ok.kind oldFound).leave
    rw [owner]
    rcases kind with kept | left
    · rw [kept]
      exact law
    · rw [left]
      cases named : old.kind <;> rw [named] at law <;> exact law
  helpers h entry mem helper isHelper :=
    Array.size_modify.symm ▸ ok.helpers h entry mem helper isHelper
  registered {_ held _} h opens settled := by
    obtain ⟨old, oldFound, name, owner, kind⟩ := exists_symbol_of_leave h
    -- a procedure that is left behind is a stub, so the symbol is what it was
    have same : held.kind = old.kind := by
      rcases kind with kept | left
      · exact kept
      · rw [left] at settled ⊢
        cases named : old.kind <;> rw [named] at settled <;> first | rfl | cases settled
    rw [name, owner]
    rw [same] at opens settled
    exact ok.registered oldFound opens settled
  units h top := by
    obtain ⟨old, oldFound, -, owner, kind⟩ := exists_symbol_of_leave h
    have opens := ok.units oldFound (owner.symm.trans top)
    rcases kind with kept | left
    · rw [kept]
      exact opens
    · rw [left, ← scope?_form, form_left, scope?_form]
      exact opens

end Arena

/-! ## Sessions -/

/-- An analysis with a library that lawful arenas serve leads from a lawful arena to a lawful one.
-/
theorem Arena.Lawful.extend {a : Arena} {unit : Tree.CompilationUnit} {result : Analysed}
    (lawful : a.Lawful (.loose 0)) (served : setup.library.ServedBy arenas)
    (all : ∀ a ∈ arenas, a.Lawful (.loose 0)) (ran : a.extend setup unit = .ok result) :
    result.arena.Lawful (.loose 0) := by
  have works : (Analysis.analyse setup unit).Works (.loose 0) ⟨a, {}⟩ fun _ _ => True :=
    Analysis.analyse_works (served.loads all) ⟨lawful, nofun⟩ rfl
  unfold Arena.extend at ran
  cases outcome : Analysis.analyse setup unit ⟨a, {}⟩ with
  | ok _ ctx =>
    rw [outcome] at ran
    cases ran
    exact (works.result outcome).1.arena.lawful
  | error failure _ =>
    rw [outcome] at ran
    cases ran

theorem Session.lawful (session : Session arenas) : ∀ a ∈ arenas, a.Lawful (.loose 0) := by
  induction session with
  | start =>
    intro a mem
    cases List.mem_singleton.1 mem
    exact Arena.lawful_empty
  | analyse _ known served ran ih =>
    exact List.forall_mem_cons.2 ⟨(ih _ known).extend served ih ran, ih⟩
  | leave _ known lt ih => exact List.forall_mem_cons.2 ⟨(ih _ known).leave lt, ih⟩

/-- An analysis that leaves calls of array intrinsics as they are. -/
def Session.unlowered (library : Library) : Setup :=
  ⟨{ lowerArrays := false }, library⟩

end FortranSemantics
