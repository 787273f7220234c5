import FortranSemantics.Proofs.Lawful.Session

/-!
# Loading of modules

Loading a module loads first what its import paths lead to, so that it follows a graph that may have
cycles. It ends from every arena: the modules that a library has and that are not being loaded
become fewer. Each image is put into the arena once, and a cycle is refused.
-/

namespace FortranSemantics

open Relation List Arena

variable {a after : Arena} {n other key : String} {kind : SymbolKind} {s : ScopeId} {id : SymbolId}
  {loading : List String} {fuel : Nat} {arenas : List Arena}

/-! ## Symbols that are made -/

namespace Arena

theorem Sound.exists_entered (sound : a.Sound) {s : ScopeId} {tb : Scope} {n : String}
    {next : SymbolId → Except Breach (Option SymbolId)} (h : a.scope s = .ok tb)
    (inner : ∀ id : SymbolId, id.index < a.symbols.size → ∃ ans, next id = .ok ans) :
    ∃ ans, (do match ← a.find? s n with
      | none => return none
      | some id => next id) = .ok ans := by
  have q : a.find? s n = .ok (tb.find? n) := bind_eq_ok.2 ⟨tb, h, rfl⟩
  rw [q]
  cases st : tb.find? n with
  | none => exact ⟨none, rfl⟩
  | some id => exact inner id (sound.find?_inRange (q.trans (congrArg Except.ok st)))

theorem Sound.exists_findPath (sound : a.Sound) (path : List String) : ∃ ans,
    a.findPath path = .ok ans := by
  have descends (rest : List String) : ∀ id : SymbolId, id.index < a.symbols.size →
      ∃ ans, a.descend id rest = .ok ans := by
    induction rest with
    | nil => exact fun id _ => ⟨some id, rfl⟩
    | cons n rest ih =>
      intro id lt
      obtain ⟨sym, h⟩ := exists_symbol lt
      unfold descend
      rw [symbolScope?_eq_ok.2 ⟨sym, h, rfl⟩]
      cases opens : sym.kind.scope? with
      | none => exact ⟨none, rfl⟩
      | some s =>
        obtain ⟨tb, ht, -⟩ := sound.opened h opens
        exact sound.exists_entered ht ih
  cases path with
  | nil => exact ⟨none, rfl⟩
  | cons first rest =>
    obtain ⟨tb, ht, -⟩ := sound.root
    exact sound.exists_entered ht (descends rest)

/-- The names that are free in a table that has one more entry, or the same ones. -/
theorem free_iff_of_find? {other : ScopeId} {old tb : Scope} {added : Prop} [Decidable added]
    (h : a.scope s = .ok old) (foundAfter : after.scope other = .ok tb)
    (finds : ∀ key, tb.find? key = if added ∧ key = n then some id else old.find? key) :
    after.Free other key ↔ a.Free s key ∧ ¬ (added ∧ key = n) := by
  constructor
  · rintro ⟨again, refound, st⟩
    cases foundAfter.symm.trans refound
    rw [finds] at st
    split at st
    · cases st
    · next apart => exact ⟨⟨old, h, st⟩, apart⟩
  · rintro ⟨⟨again, refound, st⟩, apart⟩
    cases h.symm.trans refound
    exact ⟨tb, foundAfter, by rw [finds, if_neg apart, st]⟩

theorem free_enter {other : ScopeId} (lt : other.index < a.scopes.size) :
    (a.enter s n kind).Free other key ↔ a.Free other key ∧ ¬ (other = s ∧ key = n) := by
  obtain ⟨old, h⟩ := exists_scope lt
  obtain ⟨tb, foundAfter, -, -, finds⟩ := @exists_scope_enter n s kind _ _ _ h
  exact free_iff_of_find? h foundAfter finds

/-- What is known of an arena after a symbol with a new scope was put under a free name. -/
theorem Sound.opening (sound : a.Sound) (free : a.Free s n)
    (opens : kind.scope? = some ⟨a.scopes.size⟩) (arguments : kind.arguments = [])
    (settled : kind.isStub = false)
    (alone : kind.form.origin? = none) : ((a.addScope (some s) none).2.enter s n kind).Sound ∧
      ∀ (other : ScopeId) (key : String), other.index < a.scopes.size →
        (((a.addScope (some s) none).2.enter s n kind).Free other key ↔
          a.Free other key ∧ ¬ (other = s ∧ key = n)) := by
  obtain ⟨tb, h, st⟩ := free
  have lt := scope_inRange h
  refine ⟨(sound.addScope lt).enter (.opening lt opens arguments settled ?_ ?_),
    fun other key bound => ?_⟩
  · intro origin isOrigin
    cases alone.symm.trans isOrigin
  · intro again old sym refound taken _
    cases h.symm.trans refound
    cases st.symm.trans taken
  · have grown : other.index < (a.addScope (some s) none).2.scopes.size := by
      simp only [Arena.addScope, Array.size_push]
      omega
    rw [free_enter grown, ← free_iff, ← free_iff, find?_addScope bound]

end Arena

/-- A new symbol with a new scope is put under a name. -/
theorem Edit.opening_overwrite_eq {kind : ScopeId → SymbolKind} (lt : s.index < a.scopes.size)
    (opens : (kind ⟨a.scopes.size⟩).scope? = some ⟨a.scopes.size⟩) :
    (do let inner ← addScope (some s)
        let sym ← addSymbol n s (kind inner)
        modifyScope inner fun held => { held with owner := some sym }
        overwrite s n sym
        return sym : Edit SymbolId) a =
      .ok ⟨a.symbols.size⟩ ((a.addScope (some s) none).2.enter s n (kind ⟨a.scopes.size⟩)) := by
  let opened := (a.addScope (some s) none).2
  have claimed : modifyScope ⟨a.scopes.size⟩
      (fun held => { held with owner := some ⟨a.symbols.size⟩ })
      (opened.addSymbol ⟨n, s, kind ⟨a.scopes.size⟩⟩).2 =
        .ok () (opened.attach ⟨n, s, kind ⟨a.scopes.size⟩⟩) := by
    refine modifyScope_eq_ok.2 ⟨by simp [opened, Arena.addScope, Arena.addSymbol], ?_⟩
    unfold Arena.attach Arena.claimed
    rw [opens]
    rfl
  have entered : overwrite s n ⟨a.symbols.size⟩ (opened.attach ⟨n, s, kind ⟨a.scopes.size⟩⟩) =
      .ok () (opened.enter s n (kind ⟨a.scopes.size⟩)) := by
    refine overwrite_attach_eq ?_
    simp only [opened, Arena.addScope, Array.size_push]
    omega
  exact run_bind_eq_ok.2 ⟨_, _, rfl, run_bind_eq_ok.2 ⟨_, _, rfl, run_bind_eq_ok.2 ⟨(), _, claimed,
    run_bind_eq_ok.2 ⟨(), _, entered, rfl⟩⟩⟩⟩

/-- The function of an intrinsic module that is not there yet is made, with the module. -/
theorem Intrinsic.exists_functionSymbol (sound : a.Sound) (free : a.Free a.root n)
    (function : String) :
    ∃ id after, functionSymbol n function a = .ok id after ∧ after.Sound ∧ after.root = a.root ∧
      a.symbols.size ≤ after.symbols.size ∧
      ∀ key, after.Free a.root key ↔ a.Free a.root key ∧ key ≠ n := by
  obtain ⟨tb, h, -⟩ := sound.root
  have lt := scope_inRange h
  let module : SymbolKind := .moduleUnit ⟨⟨a.scopes.size⟩, [], true, false⟩
  let first := (a.addScope (some a.root) none).2.enter a.root n module
  have made : moduleSymbol n a = .ok ⟨a.symbols.size⟩ first :=
    run_bind_eq_ok.2 ⟨_, _, rfl, run_bind_eq_ok.2 ⟨none, a, Edit.ask_eq_ok.2 ⟨free_iff.2 free, rfl⟩,
      Edit.opening_overwrite_eq lt rfl⟩⟩
  have sym : first.symbol ⟨a.symbols.size⟩ = .ok ⟨n, a.root, module⟩ :=
    symbol_enter.2 (.inr ⟨rfl, rfl⟩)
  obtain ⟨soundFirst, freeFirst⟩ := @Arena.Sound.opening _ _ module _ sound free rfl rfl rfl rfl
  have apart : (⟨a.scopes.size⟩ : ScopeId) ≠ a.root := fun same => by simp [← same] at lt
  obtain ⟨_, opened, -⟩ := soundFirst.opened sym rfl
  have grown : a.scopes.size < first.scopes.size := scope_inRange opened
  -- the scope of the new module is empty
  have empty : first.Free ⟨a.scopes.size⟩ function := by
    refine (free_enter (by simp [addScope])).2 ⟨⟨_, scope_addScope.2 (.inr ⟨rfl, rfl⟩), rfl⟩, ?_⟩
    exact fun both => apart both.1
  let procedure : SymbolKind :=
    .function ⟨⟨first.scopes.size⟩, [], none, [], .intrinsic, .interface, .publicAccess, []⟩
  obtain ⟨soundSecond, freeSecond⟩ := @Arena.Sound.opening _ _ procedure _ soundFirst empty
    rfl rfl rfl rfl
  refine ⟨_, _, run_bind_eq_ok.2 ⟨_, _, made, run_bind_eq_ok.2 ⟨_, _, Edit.ask_eq_ok.2
    ⟨symbolScope?_eq_ok.2 ⟨_, sym, rfl⟩, rfl⟩, run_bind_eq_ok.2 ⟨none, first, Edit.ask_eq_ok.2
    ⟨free_iff.2 empty, rfl⟩, Edit.opening_overwrite_eq grown rfl⟩⟩⟩, soundSecond, rfl, ?_,
    fun key => ?_⟩
  · simp [first, enter, addScope]
    omega
  · rw [freeSecond _ _ (lt.trans grown), freeFirst _ _ lt]
    simp [apart.symm]

/-! ## Runs that come to an end -/

/-- Whether an answer is not that a chain of references does not end. -/
abbrev Finite {α : Type} (answer : Except Breach α) : Prop :=
  answer ≠ .error .endless

theorem Finite.bind {α β : Type} {first : Except Breach α} {next : α → Except Breach β}
    (finite : Finite first) (rest : ∀ res, Finite (next res)) : Finite (first >>= next) := by
  cases first with
  | error breach => exact fun same => finite (congrArg _ (Except.error.inj same))
  | ok res => exact rest res

namespace Arena

theorem finite_symbol : Finite (a.symbol id) := by
  unfold symbol
  split <;> exact nofun

theorem finite_find? : Finite (a.find? s n) := by
  refine .bind ?_ fun _ => nofun
  unfold scope
  split <;> exact nofun

theorem finite_kind : Finite (a.kind id) :=
  .bind finite_symbol fun _ => nofun

theorem finite_symbolScope? : Finite (a.symbolScope? id) :=
  .bind finite_kind fun _ => nofun

theorem finite_descend (names : List String) : Finite (a.descend id names) := by
  induction names generalizing id with
  | nil => exact nofun
  | cons name names ih =>
    refine .bind finite_symbolScope? fun inner => ?_
    cases inner with
    | none => exact nofun
    | some inner =>
      refine .bind finite_find? fun held => ?_
      cases held with
      | none => exact nofun
      | some held => exact ih

theorem finite_findPath (a : Arena) (path : List String) : Finite (a.findPath path) := by
  cases path with
  | nil => exact nofun
  | cons first rest =>
    refine .bind finite_find? fun held => ?_
    cases held with
    | none => exact nofun
    | some held => exact finite_descend rest

end Arena

/-- Moving references that can all be moved, or are missing, comes to an end. -/
theorem Renumbering.meets_finite {map : Renumbering (Except Breach)}
    (symbols : ∀ id, Finite (map.symbol id))
    (exprs : ∀ id, Finite (map.expr id)) : map.Meets .identity fun _ part _ _ => Finite part where
  pure _ := nofun
  bind := .bind
  symbol := symbols
  expr := exprs

theorem Finite.mapM {α β : Type} {step : α → Except Breach β} (each : ∀ item, Finite (step item))
    (items : List α) : Finite (items.mapM step) := by
  induction items with
  | nil => exact nofun
  | cons item items ih =>
    rw [mapM_cons]
    exact .bind (each item) fun _ => .bind ih fun _ => nofun

theorem Image.finite_graftMap (image : Image) (imports : List SymbolId) (id : SymbolId) :
    Finite ((image.graftMap a imports).symbol id) := by
  simp only [Image.graftMap]
  split
  · exact nofun
  · split <;> exact nofun

theorem Image.finite_appendTo (image : Image) (imports : List SymbolId) :
    Finite (image.appendTo imports a) := by
  have meets := Renumbering.meets_finite (image.finite_graftMap (a := a) imports) fun _ => nofun
  refine .bind ?_ fun _ => .bind ?_ fun _ => .bind ?_ fun _ => nofun
  · rw [Array.mapM_eq_mapM_toList]
    refine .bind (.mapM (fun item => ?_) _) fun _ => nofun
    have := meets.symbolNode (fun _ => nofun) item
    rwa [Relocation.identity_symbolNode] at this
  · refine .mapM (fun item => ?_) _
    have := meets.scopeNode (fun _ => nofun) item
    rwa [Relocation.identity_scopeNode] at this
  · rw [Array.mapM_eq_mapM_toList]
    refine .bind (.mapM (fun item => ?_) _) fun _ => nofun
    have := meets.node item
    rwa [Relocation.identity_node] at this

/-- Whether a step from a state as described comes to an end, and with a result in a state as
described. -/
def Halts {σ α : Type} (held : σ → Prop) (step : EStateM Failure σ α) (later : σ → Prop) : Prop :=
  ∀ ⦃pre⦄, held pre → Runs ⟨True, (· ≠ .endless)⟩ step pre fun _ => later

namespace Halts

variable {σ α β : Type} {held mid later : σ → Prop} {step : EStateM Failure σ α}

theorem result {pre post : σ} {res : α} (halts : Halts held step later) (holds : held pre)
    (ran : step pre = .ok res post) : later post :=
  (halts holds).result ran

theorem pure (res : α) : Halts held (Pure.pure res) held :=
  fun _ holds => .pure holds

theorem reject {fault : Fault} {span : Span} :
    Halts held (FortranSemantics.reject (α := α) fault span) later :=
  fun _ _ => .reject _ _

theorem bind {next : α → EStateM Failure σ β} (first : Halts held step mid)
    (rest : ∀ res, Halts mid (next res) later) : Halts held (step >>= next) later :=
  fun _ holds => (first holds).bind fun res _ there => rest res there

theorem question {answer : Except Breach α} (finite : Finite answer) :
    Halts held (liftM answer) held := by
  intro pre holds
  cases answer with
  | ok res => exact holds
  | error breach => exact fun same => finite (congrArg _ same)

/-- What ends as an edit ends as a step of an analysis, and leaves the modules being loaded as they
were. -/
theorem lift {edit : Edit α} (halts : Halts (fun _ => True) edit fun _ => True)
    (loading : List String) :
    Halts (·.journal.loading = loading) (liftM edit : Analysis α) (·.journal.loading = loading) :=
  fun _ holds => Analysis.lift_runs (.mono (halts trivial) fun _ _ _ => holds)

end Halts

namespace Edit

/-- Whether an edit comes to an end, whatever the arena is. -/
abbrev Ends {α : Type} (edit : Edit α) : Prop :=
  Halts (fun _ => True) edit fun _ => True

theorem Ends.bind {α β : Type} {edit : Edit α} {next : α → Edit β} (first : edit.Ends)
    (rest : ∀ res, (next res).Ends) : (edit >>= next).Ends :=
  Halts.bind first rest

theorem ends_ask {α : Type} {question : Arena → Except Breach α}
    (finite : ∀ a, Finite (question a)) : (ask question).Ends :=
  .bind (fun _ _ => trivial) fun a => .question (finite a)

theorem ends_modifySymbol {change : Symbol → Symbol} : (modifySymbol id change).Ends := by
  refine .bind (fun _ _ => trivial) fun a => ?_
  split
  · exact fun _ _ => trivial
  · exact fun _ _ => nofun

theorem ends_modifyScope {change : Scope → Scope} : (modifyScope s change).Ends := by
  refine .bind (fun _ _ => trivial) fun a => ?_
  split
  · exact fun _ _ => trivial
  · exact fun _ _ => nofun

theorem ends_overwrite : (overwrite s n id).Ends :=
  .bind ends_modifyScope fun _ => ends_modifySymbol

theorem ends_declare {span : Span} : (declare s n id span).Ends := by
  refine .bind (ends_ask fun _ => finite_find?) fun held => ?_
  split
  · exact .bind .reject fun _ => .bind ends_modifyScope fun _ => ends_modifySymbol
  · exact .bind ends_modifyScope fun _ => ends_modifySymbol

/-- Making a symbol with a scope of its own comes to an end. -/
theorem ends_opening {kind : ScopeId → SymbolKind} : Edit.Ends (do
    let inner ← addScope (some s)
    let symbol ← addSymbol n s (kind inner)
    modifyScope inner fun held => { held with owner := some symbol }
    overwrite s n symbol
    return symbol) :=
  .bind (fun _ _ => trivial) fun _ => .bind (fun _ _ => trivial) fun _ =>
    .bind ends_modifyScope fun _ => .bind ends_overwrite fun _ => .pure _

end Edit

theorem Intrinsic.ends_functionSymbol (moduleName function : String) :
    (functionSymbol moduleName function).Ends := by
  refine .bind (.bind (fun _ _ => trivial) fun a => .bind (Edit.ends_ask fun _ => finite_find?)
    fun held => ?_) fun module => .bind (Edit.ends_ask fun _ => finite_symbolScope?) fun inner => ?_
  · cases held with
    | none => exact Edit.ends_opening
    | some held => exact .pure held
  · cases inner with
    | none => exact fun _ _ => nofun
    | some inner =>
      refine .bind (Edit.ends_ask fun _ => finite_find?) fun held => ?_
      cases held with
      | none => exact Edit.ends_opening
      | some held => exact .pure held

theorem Image.ends_graft (image : Image) (imports : List SymbolId) :
    (image.graft imports).Ends := by
  refine .bind (fun _ _ => trivial) fun a =>
    .bind (.question (image.finite_appendTo imports)) fun _ =>
    .bind (fun _ _ => trivial) fun _ => .bind (.question ?_) fun _ => .bind Edit.ends_modifySymbol
      fun _ => .pure _
  exact image.finite_graftMap imports _

/-! ## The graph of imports -/

/-- Whether an image was taken of a module in the root of a sound arena. -/
def Image.OfSound (image : Image) : Prop :=
  ∃ (source : Arena) (module : SymbolId), source.Sound ∧ source.ModuleAt module ∧
    Nonempty (Extracted source module image)

theorem Image.OfSound.paths {image : Image} (wellFormed : image.OfSound) : [] ∉ image.imports := by
  obtain ⟨source, module, -, -, ⟨drawn⟩⟩ := wellFormed
  intro mem
  obtain ⟨id, -, named⟩ := (mem_answers drawn.imports).1 mem
  obtain ⟨sym, -, named⟩ := bind_eq_ok.1 named
  obtain ⟨owners, -, named⟩ := bind_eq_ok.1 named
  exact append_ne_nil_of_right_ne_nil owners (cons_ne_nil _ _) (Except.ok.inj named)

namespace Library

variable {library : Library} {image : Image}

/-- Whether the images of a library were taken of modules in sound arenas. -/
def WellFormed (library : Library) : Prop :=
  ∀ n image, library.load n = .ok image → image.OfSound

/-- The modules at which the import paths in the image of a module start. -/
def importsOf (library : Library) (name : String) : List String :=
  match library.load name with
  | .ok image => image.imports.filterMap head?
  | .error _ => []

theorem mem_importsOf : other ∈ library.importsOf n ↔
    ∃ image rest, library.load n = .ok image ∧ other :: rest ∈ image.imports := by
  unfold importsOf
  split
  · next image served =>
    simp only [mem_filterMap, head?_eq_some_iff]
    exact ⟨fun ⟨path, mem, rest, same⟩ => ⟨image, rest, served, same ▸ mem⟩,
      fun ⟨again, rest, servedAgain, mem⟩ => by
      cases served.symm.trans servedAgain; exact ⟨_, mem, rest, rfl⟩⟩
  · next served => simp [served]

/-- Whether a module imports from another one that is not in an arena. -/
def Imports (library : Library) (arena : Arena) (other name : String) : Prop :=
  other ∈ library.importsOf name ∧ arena.Free arena.root other

/-- Whether the image of another module is opened for the imports of a module. None is opened for an
intrinsic module. -/
def Opens (library : Library) (arena : Arena) (other name : String) : Prop :=
  library.Imports arena other name ∧ Intrinsic.isModule other = false

/-- Whether an arena comes out of another when images of modules are put into it, the last one
first, names are declared, and intrinsic functions are made. -/
inductive Fills (library : Library) (arena : Arena) : List String → Arena → Prop
  | start : Fills library arena [] arena
  | function {names : List String} {mid after : Arena} {id : SymbolId}
      (filled : Fills library arena names mid) (module name : String)
      (made : Intrinsic.functionSymbol module name mid = .ok id after) :
      Fills library arena names after
  | image {names : List String} {mid after : Arena} {id : SymbolId}
      (filled : Fills library arena names mid) (name : String) (image : Image)
      (imports : List SymbolId) (served : library.load name = .ok image)
      (put : image.graft imports mid = .ok id after) : Fills library arena (name :: names) after
  | declare {names : List String} {mid after : Arena}
      (filled : Fills library arena names mid) (name : String)
      (id : SymbolId) (span : Span)
      (declared : Edit.declare mid.root name id span mid = .ok () after) :
      Fills library arena names after

/-- The modules that a library has and that are not being loaded. -/
def waiting (library : Library) (loading : List String) : Finset String :=
  (library.entries.map Prod.fst).toFinset \ loading.toFinset

theorem card_waiting_le (library : Library) (loading : List String) :
    (library.waiting loading).card ≤ library.entries.length := by
  refine (Finset.card_le_card Finset.sdiff_subset).trans ?_
  exact (toFinset_card_le _).trans_eq (length_map _)

theorem exists_entry (served : library.load n = .ok image) : ∃ e ∈ library.entries, e.1 = n := by
  unfold load at served
  cases looked : library.entries.lookup n with
  | none =>
    rw [looked] at served
    cases served
  | some held =>
    obtain ⟨first, rest, same, -⟩ := lookup_eq_some_iff.1 looked
    exact ⟨(n, held), by simp [same], rfl⟩

theorem card_waiting_cons (served : library.load n = .ok image) (fresh : n ∉ loading) :
    (library.waiting (n :: loading)).card < (library.waiting loading).card := by
  refine Finset.card_lt_card (Finset.ssubset_iff.2 ⟨n, ?_, fun other mem => ?_⟩)
  · simp [waiting]
  · simp only [waiting, Finset.mem_insert, Finset.mem_sdiff, mem_toFinset, mem_cons,
      not_or] at mem ⊢
    rcases mem with rfl | ⟨known, -, fresh⟩
    · exact ⟨mem_map.2 (exists_entry served), fresh⟩
    · exact ⟨known, fresh⟩

end Library

/-! ## What a loader keeps -/

variable {ctx later last : Context} {span : Span} {image : Image} {library : Library}
  {start : Arena}

/-- Whether a name stands for nothing in the root scope. -/
abbrev Arena.Lacks (arena : Arena) (name : String) : Prop :=
  arena.Free arena.root name

/-- Whether no way through the images opened for a module leads in a circle, and all they import
from is in the arena. -/
structure Library.Settled (library : Library) (start arena : Arena) (name : String) : Prop where
  acc : Acc (library.Opens start) name
  imports : ∀ opened, ReflTransGen (library.Opens start) opened name →
    ∀ other ∈ library.importsOf opened, ¬ arena.Lacks other

theorem Library.Settled.mono (settled : library.Settled start a n)
    (lacks : ∀ key, after.Lacks key → a.Lacks key) : library.Settled start after n :=
  ⟨settled.acc, fun opened path other imported free => settled.imports opened path other imported
    (lacks other free)⟩

/-- What holds while modules are loaded into an arena: it is sound, names do not become free, and
the loaded modules are settled, the image of each put into the arena once. -/
structure Library.Grown (library : Library) (start arena : Arena) : Prop where
  sound : arena.Sound
  lacks : ∀ key, arena.Lacks key → start.Lacks key
  settled : ∀ key, Intrinsic.isModule key = false → start.Lacks key → ¬ arena.Lacks key →
    library.Settled start arena key
  filled : ∃ names : List String, names.Nodup ∧
    (∀ key ∈ names, Intrinsic.isModule key = false ∧ ¬ arena.Lacks key) ∧
    library.Fills start names arena

theorem Library.Grown.settled_of_imports (grown : library.Grown start a)
    (imports : ∀ other ∈ library.importsOf n, ¬ a.Lacks other) : library.Settled start a n where
  acc := ⟨_, fun other opens =>
    (grown.settled other opens.2 opens.1.2 (imports other opens.1.1)).acc⟩
  imports opened path := by
    cases path with
    | refl => exact imports
    | tail path opens =>
      exact (grown.settled _ opens.2 opens.1.2 (imports _ opens.1.1)).imports opened path

theorem Library.Grown.enter (grown : library.Grown start a) (sound : after.Sound)
    (free : ∀ key, after.Lacks key ↔ a.Lacks key ∧ key ≠ n)
    (settled : Intrinsic.isModule n = false → library.Settled start a n)
    (filled : ∀ names : List String, library.Fills start names a → library.Fills start names after ∨
      Intrinsic.isModule n = false ∧ a.Lacks n ∧ library.Fills start (n :: names) after) :
    library.Grown start after where
  sound := sound
  lacks key lacks := grown.lacks key ((free key).1 lacks).1
  settled key proper absent entered := by
    have settled : library.Settled start a key := by
      by_cases isName : key = n
      · exact isName ▸ settled (isName ▸ proper)
      · exact grown.settled key proper absent fun lacks => entered ((free key).2 ⟨lacks, isName⟩)
    exact settled.mono fun other lacks => ((free other).1 lacks).1
  filled := by
    obtain ⟨names, distinct, entered, fills⟩ := grown.filled
    have stays (key : String) (mem : key ∈ names) : Intrinsic.isModule key = false ∧
        ¬ after.Lacks key :=
      ⟨(entered key mem).1, fun lacks => (entered key mem).2 ((free key).1 lacks).1⟩
    rcases filled names fills with fills | ⟨proper, lacks, fills⟩
    · exact ⟨names, distinct, stays, fills⟩
    · refine ⟨n :: names, nodup_cons.2 ⟨fun mem => (entered n mem).2 lacks, distinct⟩, ?_, fills⟩
      exact forall_mem_cons.2 ⟨⟨proper, fun lacks => ((free n).1 lacks).2 rfl⟩, stays⟩

/-- Whether a loader goes from one state to another with the same modules being loaded, none of
which it enters. -/
structure Context.Advances (ctx later : Context) : Prop where
  symbols : ctx.arena.symbols.size ≤ later.arena.symbols.size
  loading : later.journal.loading = ctx.journal.loading
  lacks : ∀ key, later.arena.Lacks key → ctx.arena.Lacks key
  held : ∀ key ∈ ctx.journal.loading, Intrinsic.isModule key = false → ctx.arena.Lacks key →
    later.arena.Lacks key

theorem Context.Advances.trans (first : ctx.Advances later) (second : later.Advances last) :
    ctx.Advances last where
  symbols := first.symbols.trans second.symbols
  loading := second.loading.trans first.loading
  lacks key lacks := first.lacks key (second.lacks key lacks)
  held key mem proper lacks := second.held key (first.loading ▸ mem) proper
    (first.held key mem proper lacks)

namespace Analysis

/-- Whether a step of a loader gives a result as described or is refused because a module cannot be
loaded. -/
def Ends {α : Type} (library : Library) (start : Arena) (step : Analysis α) (ctx : Context)
    (post : α → Context → Prop) : Prop :=
  (∃ result later, step ctx = .ok result later ∧ library.Grown start later.arena ∧
    ctx.Advances later ∧ post result later) ∨
  ∃ error later, step ctx = .error (.rejected error) later ∧ library.Grown start later.arena ∧
    error.fault.kind = .moduleLoad

section

variable {α β : Type} {step : Analysis α} {post : α → Context → Prop}

theorem Ends.pure {res : α} (grown : library.Grown start ctx.arena) (held : post res ctx) :
    Ends library start (Pure.pure res) ctx post :=
  .inl ⟨res, ctx, rfl, grown, ⟨Nat.le_refl _, rfl, fun _ => id, fun _ _ _ => id⟩, held⟩

theorem Ends.reject {fault : Fault} (grown : library.Grown start ctx.arena)
    (kind : fault.kind = .moduleLoad) :
    Ends library start (FortranSemantics.reject fault span) ctx post :=
  .inr ⟨⟨fault, span⟩, ctx, rfl, grown, kind⟩

theorem Ends.bind {next : α → Analysis β} {after : β → Context → Prop}
    (first : Ends library start step ctx post)
    (rest : ∀ res later, library.Grown start later.arena → ctx.Advances later → post res later →
      Ends library start (next res) later after) :
    Ends library start (step >>= next) ctx after := by
  unfold Ends
  rcases first with ⟨res, mid, ran, grown, advances, held⟩ | ⟨error, later, ran, grown, kind⟩
  · rw [run_bind_of_ok ran]
    refine (rest res mid grown advances held).imp_left ?_
    rintro ⟨ans, later, ranNext, grownNext, more, heldNext⟩
    exact ⟨ans, later, ranNext, grownNext, advances.trans more, heldNext⟩
  · exact .inr ⟨error, later, run_bind_of_error ran, grown, kind⟩

theorem run_ask {question : Arena → Except Breach α} {ans : α}
    (answered : question ctx.arena = .ok ans) :
    (liftM (Edit.ask question) : Analysis α) ctx = .ok ans ctx :=
  run_lift_eq_ok.2 ⟨_, Edit.ask_eq_ok.2 ⟨answered, rfl⟩, rfl⟩

theorem Ends.ask {question : Arena → Except Breach β} {ans : β} {next : β → Analysis α}
    (answered : question ctx.arena = .ok ans) (rest : Ends library start (next ans) ctx post) :
    Ends library start (liftM (Edit.ask question) >>= next) ctx post := by
  unfold Ends
  rw [run_bind_of_ok (run_ask answered)]
  exact rest

end

/-! ## Import paths -/

section

/-- What loading modules other than the intrinsic ones does while fewer of them wait. -/
def Loads (library : Library) (start : Arena) (span : Span) (fuel : Nat) : Prop :=
  ∀ (name : String) (ctx : Context), Intrinsic.isModule name = false → library.Grown start
    ctx.arena → (library.waiting ctx.journal.loading).card < fuel →
    Ends library start (loadWithin library span fuel name) ctx
      fun _ later => ¬ later.arena.Lacks name ∧
      (ctx.arena.Lacks name → library.Settled start later.arena name)

variable {fuel : Nat} (loads : Loads library start span fuel)
  (grown : library.Grown start ctx.arena)
  (enough : (library.waiting ctx.journal.loading).card < fuel)

include loads grown enough

/-- The first part of an import path is there, made or loaded. -/
theorem prepareImport_ends {first : String} {rest : List String} :
    Ends library start (prepareImport (loadWithin library span fuel) first rest) ctx
    fun _ _ => True := by
  obtain ⟨tb, h, -⟩ := grown.sound.root
  refine .ask (bind_eq_ok.2 ⟨tb, h, rfl⟩) ?_
  cases st : tb.find? first with
  | some id => exact .pure grown trivial
  | none =>
    cases isModule : Intrinsic.isModule first with
    | true =>
      cases rest with
      | nil => exact .pure grown trivial
      | cons function rest =>
        obtain ⟨id, after, ran, sound, root, more, free⟩ :=
          Intrinsic.exists_functionSymbol grown.sound ⟨tb, h, st⟩ function
        have free (key : String) : after.Lacks key ↔ ctx.arena.Lacks key ∧ key ≠ first := by
          unfold Arena.Lacks
          rw [root]
          exact free key
        refine .inl ⟨(), ⟨after, ctx.journal⟩,
          run_bind_eq_ok.2 ⟨id, _, run_lift_eq_ok.2 ⟨_, ran, rfl⟩, rfl⟩,
          grown.enter sound free (fun proper => ?_) fun names fills =>
          .inl (.function fills first function ran),
          ⟨more, rfl, fun key lacks => ((free key).1 lacks).1,
            fun key _ proper lacks => ?_⟩, trivial⟩
        · cases isModule.symm.trans proper
        · refine (free key).2 ⟨lacks, fun same => ?_⟩
          rw [same, isModule] at proper
          cases proper
    | false =>
      exact (loads first ctx isModule grown enough).bind fun _ _ grown _ _ => .pure grown trivial

/-- An import path is resolved after its first part was loaded. -/
theorem resolveImport_ends (first : String) (rest : List String) :
    Ends library start (resolveImport (loadWithin library span fuel) n span (first :: rest)) ctx
      fun id later => id.index < later.arena.symbols.size ∧ ¬ later.arena.Lacks first := by
  refine (prepareImport_ends loads grown enough).bind fun _ later grown _ _ => ?_
  obtain ⟨ans, answered⟩ := grown.sound.exists_findPath (first :: rest)
  refine .ask answered ?_
  cases ans with
  | none => exact .reject grown rfl
  | some id =>
    refine .pure grown ⟨grown.sound.findPath_inRange answered, fun lacks => ?_⟩
    obtain ⟨e, q, rest⟩ := bind_eq_ok.1 answered
    cases q.symm.trans (free_iff.2 lacks)
    cases rest

/-- Import paths are resolved one after another. -/
theorem resolveImports_ends (paths : List (List String)) (proper : [] ∉ paths) :
    Ends library start (paths.mapM (resolveImport (loadWithin library span fuel) n span)) ctx
      fun ids later => ids.length = paths.length ∧
      (∀ id ∈ ids, id.index < later.arena.symbols.size) ∧
        ∀ first rest, first :: rest ∈ paths → ¬ later.arena.Lacks first := by
  induction paths generalizing ctx with
  | nil => exact .pure grown ⟨rfl, nofun, nofun⟩
  | cons path paths ih =>
    cases path with
    | nil => exact absurd (.head _) proper
    | cons first rest =>
      rw [mapM_cons]
      refine (resolveImport_ends loads grown enough first rest).bind
        fun id later grown advances ⟨lt, entered⟩ => ?_
      rw [← advances.loading] at enough
      refine (ih grown enough fun mem => proper (.tail _ mem)).bind
        fun ids last grown more ⟨length, known, all⟩ => ?_
      refine .pure grown ⟨congrArg (· + 1) length, fun other mem => ?_, fun key tail mem => ?_⟩
      · rcases mem_cons.1 mem with rfl | mem
        · exact lt.trans_le more.symbols
        · exact known other mem
      · rcases mem_cons.1 mem with same | mem
        · cases same
          exact fun lacks => entered (more.lacks _ lacks)
        · exact all key tail mem

end

/-! ## Fuel -/

/-- The rest of loading a module after its import paths were resolved. -/
def install (image : Image) (name : String) (span : Span) (imports : List SymbolId) :
    Analysis SymbolId := do
  let symbol ← image.graft imports
  Edit.declare (← root) name symbol span
  endLoading name
  return symbol

/-- The state in which a module is being loaded. -/
def begun (name : String) (ctx : Context) : Context :=
  ⟨ctx.arena, { ctx.journal with loading := name :: ctx.journal.loading }⟩

theorem filter_begun (fresh : n ∉ loading) : (n :: loading).filter (· != n) = loading := by
  rw [filter_cons_of_neg (by simp), filter_eq_self]
  exact fun key mem => bne_iff_ne.2 fun isName => fresh (isName ▸ mem)

theorem beginLoading_eq : beginLoading n span ctx = if n ∈ ctx.journal.loading then
    .error (.rejected ⟨.circularModule n, span⟩) ctx else .ok () (begun n ctx) := by
  change (if ctx.journal.loading.contains n then _ else _ : Analysis Unit) ctx = _
  by_cases mem : n ∈ ctx.journal.loading
  · rw [if_pos mem, if_pos (contains_iff_mem.2 mem)]
    rfl
  · rw [if_neg mem, if_neg (mt contains_iff_mem.1 mem)]
    rfl

section

variable {load other : String → Analysis SymbolId}
  (halts : ∀ first, Halts (·.journal.loading = loading) (load first) (·.journal.loading = loading))

include halts

theorem resolveImport_halts (path : List String) :
    Halts (·.journal.loading = loading) (resolveImport load n span path)
    (·.journal.loading = loading) := by
  cases path with
  | nil => exact fun _ _ => nofun
  | cons first rest =>
    have looks := Halts.lift (Edit.ends_ask fun a => a.finite_findPath (first :: rest)) loading
    refine .bind (.bind (.lift (Edit.ends_ask fun _ => finite_find?) _) fun present => ?_) fun _ =>
      looks.bind fun ans => ?_
    · split
      · exact .pure _
      · split
        · cases rest with
          | nil => exact .pure _
          | cons function rest =>
            exact .bind (.lift (Intrinsic.ends_functionSymbol first function) _) fun _ => .pure _
        · exact .bind (halts first) fun _ => .pure _
    · cases ans with
      | none => exact .reject
      | some id => exact .pure id

theorem resolveImports_halts (paths : List (List String)) :
    Halts (·.journal.loading = loading) (paths.mapM (resolveImport load n span))
    (·.journal.loading = loading) := by
  induction paths with
  | nil => exact .pure _
  | cons path paths ih =>
    rw [mapM_cons]
    exact .bind (resolveImport_halts halts path) fun _ => .bind ih fun _ => .pure _

/-- Import paths are resolved in the same way by loaders that agree while the same modules are being
loaded. -/
theorem resolveImports_congr
    (same : ∀ first ctx, ctx.journal.loading = loading → load first ctx = other first ctx)
    (paths : List (List String)) (held : ctx.journal.loading = loading) :
    paths.mapM (resolveImport load n span) ctx = paths.mapM (resolveImport other n span) ctx := by
  induction paths generalizing ctx with
  | nil => rfl
  | cons path paths ih =>
    rw [mapM_cons, mapM_cons]
    refine run_bind_congr ?_ fun id later ran => run_bind_congr (ih ?_) fun _ _ _ => rfl
    · cases path with
      | nil => rfl
      | cons first rest =>
        refine run_bind_congr (run_bind_congr rfl fun present later q => ?_) fun _ _ _ => rfl
        have heldLater := (Halts.lift (Edit.ends_ask fun _ => finite_find?) _).result held q
        split
        · rfl
        · split
          · rfl
          · exact run_bind_congr (same first later heldLater) fun _ _ _ => rfl
    · exact (resolveImport_halts halts path).result held ran

end

theorem install_halts {imports : List SymbolId} (fresh : n ∉ loading) :
    Halts (·.journal.loading = n :: loading) (install image n span imports)
    (·.journal.loading = loading) := by
  refine .bind (.lift (image.ends_graft imports) _) fun id =>
    .bind (fun _ holds => holds) fun root =>
    .bind (.lift Edit.ends_declare _) fun _ => fun ctx holds => ?_
  change ctx.journal.loading.filter (· != n) = loading
  rw [holds, filter_begun fresh]

theorem beginLoading_halts : Halts (·.journal.loading = loading) (beginLoading n span)
    fun ctx => ctx.journal.loading = n :: loading ∧ n ∉ loading := by
  rintro ctx rfl
  unfold Runs
  rw [beginLoading_eq]
  by_cases mem : n ∈ ctx.journal.loading
  · rw [if_pos mem]
    trivial
  · rw [if_neg mem]
    exact ⟨rfl, mem⟩

/-- With more fuel than there are modules that wait, loading comes to an end, whatever the arena and
the images are. A module that was loaded is no longer being loaded. -/
theorem loadWithin_halts (enough : (library.waiting loading).card < fuel) (n : String) :
    Halts (·.journal.loading = loading) (loadWithin library span fuel n)
    (·.journal.loading = loading) := by
  induction fuel generalizing n loading with
  | zero => exact absurd enough (Nat.not_lt_zero _)
  | succ fuel ih =>
    refine .bind (.lift (Edit.ends_ask fun _ => finite_find?) _) fun present => ?_
    cases present with
    | some sym =>
      refine .bind (.lift (Edit.ends_ask fun _ => finite_kind) _) fun kind => ?_
      cases kind with
      | moduleUnit info => exact .pure sym
      | _ => exact .reject
    | none =>
      refine .bind beginLoading_halts fun _ => ?_
      cases served : library.load n with
      | error problem => exact .reject
      | ok image =>
        rintro ctx ⟨holds, fresh⟩
        have less := (library.card_waiting_cons served fresh).trans_le (Nat.le_of_lt_succ enough)
        exact Halts.bind (resolveImports_halts (ih less) image.imports)
          (fun _ => install_halts fresh) holds

/-- More fuel than there are modules that wait changes nothing, whatever the arena and the images
are. -/
theorem loadWithin_stable (enough : (library.waiting ctx.journal.loading).card < fuel) :
    loadWithin library span (fuel + 1) n ctx = loadWithin library span fuel n ctx := by
  induction fuel generalizing n ctx with
  | zero => exact absurd enough (Nat.not_lt_zero _)
  | succ fuel ih =>
    refine run_bind_congr rfl fun present mid q => ?_
    have held := (Halts.lift (Edit.ends_ask fun _ => finite_find?) _).result rfl q
    cases present with
    | some sym => rfl
    | none =>
      refine run_bind_congr rfl fun _ later begins => ?_
      rw [beginLoading_eq] at begins
      split at begins
      · cases begins
      · next fresh =>
        cases begins
        cases served : library.load n with
        | error problem => rfl
        | ok image =>
          have less := (library.card_waiting_cons served fresh).trans_le
            (Nat.le_of_lt_succ (held ▸ enough))
          refine run_bind_congr (resolveImports_congr ?_ (fun first ctx same => ih ?_) _ rfl)
            fun _ _ _ => rfl
          · exact loadWithin_halts (less.trans_le (Nat.le_succ _))
          · rwa [same]

theorem loadWithin_eq_loadModule (enough : library.entries.length < fuel) :
    loadWithin library span fuel n ctx = loadModule library n span ctx := by
  induction fuel, enough using Nat.le_induction with
  | base => rfl
  | succ fuel enough ih =>
    exact (loadWithin_stable ((library.card_waiting_le _).trans_lt enough)).trans ih

/-! ## Images -/

section

variable {imports : List SymbolId} (wellFormed : image.OfSound)
  (enough : imports.length = image.imports.length)

include wellFormed enough

/-- An image is put into a sound arena under a free name. -/
theorem exists_install (sound : ctx.arena.Sound) (lacks : ctx.arena.Lacks n)
    (known : ∀ id ∈ imports, id.index < ctx.arena.symbols.size) :
    ∃ id later grafted, install image n span imports ctx = .ok id later ∧
      image.graft imports ctx.arena = .ok id grafted ∧
      Edit.declare grafted.root n id span grafted = .ok () later.arena ∧ later.arena.Sound ∧
      ctx.arena.symbols.size ≤ later.arena.symbols.size ∧
      ∀ key, later.arena.Lacks key ↔ ctx.arena.Lacks key ∧ key ≠ n := by
  obtain ⟨source, module, soundSource, home, ⟨drawn⟩⟩ := wellFormed
  obtain ⟨tb, h, st⟩ := lacks
  let grafted := drawn.result ctx.arena imports
  have copied := @Extracted.copiedTo_result _ ctx.arena _ _ imports drawn
  have put : image.graft imports ctx.arena = .ok ⟨ctx.arena.symbols.size⟩ grafted :=
    drawn.grafted_root ▸ drawn.graft_eq_ok enough
  have loaded := sound.loadedAs soundSource drawn home enough known n
  have size : ctx.arena.symbols.size < grafted.symbols.size :=
    ((copied.newSymbol _).2 ⟨module, .inl rfl, drawn.grafted_root⟩).2
  have declared : Edit.declare grafted.root n ⟨ctx.arena.symbols.size⟩ span grafted = .ok () _ :=
    Edit.declare_eq_ok.2 ⟨⟨tb, (copied.keptScope _ (scope_inRange h)).trans h, st⟩, size, rfl⟩
  obtain ⟨held, hh, finds⟩ := loaded.find?_old h
  refine ⟨_, _, grafted, run_bind_eq_ok.2 ⟨_, _, run_lift_eq_ok.2 ⟨_, put, rfl⟩,
    run_bind_eq_ok.2 ⟨_, _, rfl,
    run_bind_eq_ok.2 ⟨(), _, run_lift_eq_ok.2 ⟨_, declared, rfl⟩, rfl⟩⟩⟩, put, declared,
    loaded.sound_after sound soundSource home, ?_, fun key => ?_⟩
  · exact (size.trans_eq Array.size_modify.symm).le
  · refine (free_iff_of_find? h hh finds).trans (and_congr_right fun _ => ?_)
    rw [eq_self, true_and]

/-- An image is refused under a name that is taken. -/
theorem exists_install_error (sound : ctx.arena.Sound) (entered : ¬ ctx.arena.Lacks n) :
    ∃ error later id, install image n span imports ctx = .error (.rejected error) later ∧
      image.graft imports ctx.arena = .ok id later.arena := by
  obtain ⟨source, module, -, -, ⟨drawn⟩⟩ := wellFormed
  have put := @Extracted.graft_eq_ok _ ctx.arena _ _ imports drawn enough
  have copied := @Extracted.copiedTo_result _ ctx.arena _ _ imports drawn
  obtain ⟨tb, h, -⟩ := sound.root
  obtain ⟨id, st⟩ : ∃ id, tb.find? n = some id :=
    Option.ne_none_iff_exists'.1 fun free => entered ⟨tb, h, free⟩
  have taken : (drawn.result ctx.arena imports).find? ctx.arena.root n = .ok (some id) :=
    bind_eq_ok.2 ⟨tb, (copied.keptScope _ (scope_inRange h)).trans h, congrArg _ st⟩
  let later : Context := ⟨drawn.result ctx.arena imports, ctx.journal⟩
  have refused (id : SymbolId) : Edit.declare ctx.arena.root n id span later.arena =
      .error (.rejected ⟨.duplicate n, span⟩) later.arena :=
    (run_bind_of_ok (Edit.ask_eq_ok.2 ⟨taken, rfl⟩)).trans (run_bind_of_error rfl)
  have fails (id : SymbolId) : (liftM (Edit.declare ctx.arena.root n id span) : Analysis Unit) later
      = .error (.rejected ⟨.duplicate n, span⟩) later := by
    change ofEdit (Edit.declare ctx.arena.root n id span) ⟨later.arena, later.journal⟩ = _
    simp only [ofEdit, refused]
  refine ⟨⟨.duplicate n, span⟩, later, _, ?_, put⟩
  exact (run_bind_of_ok (run_lift_eq_ok.2 ⟨_, put, rfl⟩)).trans
    ((run_bind_of_ok rfl).trans (run_bind_of_error (fails _)))

end

section

variable {fuel : Nat} (wellFormed : library.WellFormed) (loads : Loads library start span fuel)
  (grown : library.Grown start ctx.arena)
  (enough : (library.waiting ctx.journal.loading).card < fuel + 1)

include wellFormed loads grown enough

/-- Loading a module finds it, is refused, or comes to its image after all that the image imports
from was loaded. -/
theorem loadWithin_ends_or_installs (n : String) :
    Ends library start (loadWithin library span (fuel + 1) n) ctx
      (fun _ later => ¬ later.arena.Lacks n ∧
        (ctx.arena.Lacks n → library.Settled start later.arena n)) ∨
    ∃ image ids resolved, loadWithin library span (fuel + 1) n ctx =
    install image n span ids resolved ∧
      library.load n = .ok image ∧ image.OfSound ∧ ctx.arena.Lacks n ∧ n ∉ ctx.journal.loading ∧
      library.Grown start resolved.arena ∧ (begun n ctx).Advances resolved ∧
      ids.length = image.imports.length ∧ (∀ id ∈ ids, id.index < resolved.arena.symbols.size) ∧
      library.Settled start resolved.arena n := by
  obtain ⟨tb, h, -⟩ := grown.sound.root
  have q : ctx.arena.find? ctx.arena.root n = .ok (tb.find? n) :=
    bind_eq_ok.2 ⟨tb, h, rfl⟩
  cases st : tb.find? n with
  | some id =>
    rw [st] at q
    have entered : ¬ ctx.arena.Lacks n := fun free => by cases q.symm.trans (free_iff.2 free)
    obtain ⟨sym, symbolFound⟩ := exists_symbol (grown.sound.find?_inRange q)
    refine .inl (.ask q (.ask (kind_eq_ok.2 ⟨sym, symbolFound, rfl⟩) ?_))
    cases sym.kind with
    | moduleUnit info => exact .pure grown ⟨entered, fun lacks => absurd lacks entered⟩
    | _ => exact .reject grown rfl
  | none =>
    rw [st] at q
    have lacks : ctx.arena.Lacks n := ⟨tb, h, st⟩
    have begins := @beginLoading_eq n ctx span
    by_cases mem : n ∈ ctx.journal.loading
    · rw [if_pos mem] at begins
      exact .inl (.ask q (.inr ⟨_, _, run_bind_of_error begins, grown, rfl⟩))
    · rw [if_neg mem] at begins
      cases served : library.load n with
      | error problem =>
        refine .inl (.inr ⟨⟨.moduleUnavailable n problem, span⟩, begun n ctx, ?_, grown, rfl⟩)
        refine (run_bind_of_ok (run_ask q)).trans ((run_bind_of_ok begins).trans ?_)
        rw [served]
        rfl
      | ok image =>
        have less := (library.card_waiting_cons served mem).trans_le (Nat.le_of_lt_succ enough)
        have isImage := wellFormed n image served
        have ran : loadWithin library span (fuel + 1) n ctx =
            (image.imports.mapM (resolveImport (loadWithin library span fuel) n span) >>= install
              image n span) (begun n ctx) := by
          refine (run_bind_of_ok (run_ask q)).trans ((run_bind_of_ok begins).trans ?_)
          rw [served]
          rfl
        rcases @resolveImports_ends n (begun n ctx) span library start fuel loads grown less
          image.imports isImage.paths with
          ⟨ids, resolved, done, grown, advances, length, known, all⟩ |
          ⟨error, later, failed, grown, kind⟩
        · refine .inr ⟨image, ids, resolved, ran.trans (run_bind_of_ok done), rfl, isImage,
            lacks, mem, grown,
            advances, length, known, grown.settled_of_imports fun other imported => ?_⟩
          obtain ⟨again, rest, servedAgain, mem⟩ := Library.mem_importsOf.1 imported
          cases served.symm.trans servedAgain
          exact all other rest mem
        · exact .inl (.inr ⟨error, later, ran.trans (run_bind_of_error failed), grown, kind⟩)

end

/-- Loading with enough fuel succeeds or is refused, whatever the images import. -/
theorem loads (wellFormed : library.WellFormed) (fuel : Nat) : Loads library start span fuel := by
  induction fuel with
  | zero => exact fun _ _ _ _ enough => absurd enough (Nat.not_lt_zero _)
  | succ fuel ih =>
    intro n ctx proper grown enough
    rcases loadWithin_ends_or_installs wellFormed ih grown enough n with ends |
      ⟨image, ids, resolved, ran, served,
      isImage, lacks, fresh, grownThen, advances, length, known, settled⟩
    · exact ends
    · have free := advances.held n (.head _) proper lacks
      obtain ⟨id, later, grafted, installed, put, declared, sound, more, names⟩ :=
        exists_install isImage length grownThen.sound free known
      have grownLast := grownThen.enter sound names (fun _ => settled) fun put' fills =>
        .inr ⟨proper, free, .declare (.image fills n image ids served put) n id span declared⟩
      refine .inl ⟨id, later, ran.trans installed, grownLast,
        ⟨advances.symbols.trans more, (loadWithin_halts enough n).result rfl (ran.trans installed),
          fun key lacks => advances.lacks key ((names key).1 lacks).1,
          fun key mem proper lacks => ?_⟩,
        fun lacks => ((names n).1 lacks).2 rfl, fun _ => settled.mono fun key lacks =>
        ((names key).1 lacks).1⟩
      refine (names key).2 ⟨advances.held key (.tail _ mem) proper lacks, ?_⟩
      exact fun isName => fresh (isName ▸ mem)

end Analysis

/-! ## Loading a module -/

namespace Library

/-- Whether a module is another one or, when that is to be loaded, what an image opened for it
imports from. -/
def Reaches (library : Library) (arena : Arena) (name other : String) : Prop :=
  other = name ∨ arena.Lacks name ∧ ∃ opened, ReflTransGen (library.Opens arena) opened name ∧
    other ∈ library.importsOf opened

/-- Whether the images that are opened for a module import from one another in a circle. -/
def Cyclic (library : Library) (arena : Arena) (name : String) : Prop :=
  arena.Lacks name ∧ ∃ other, ReflTransGen (library.Opens arena) other name ∧ TransGen
    (library.Opens arena) other other

theorem Settled.not_cyclic (settled : library.Settled start a n) : ¬ library.Cyclic start n := by
  rintro ⟨-, other, path, cycle⟩
  have acc : Acc (TransGen (library.Opens start)) n := settled.acc.transGen
  replace acc : Acc (TransGen (library.Opens start)) other := by
    rcases reflTransGen_iff_eq_or_transGen.1 path with rfl | path
    · exact acc
    · exact acc.inv path
  induction acc with
  | intro other _ ih => exact ih other cycle (.trans cycle.to_reflTransGen path) cycle

/-- All that a module reaches is in the arena when it is there and, if it was not, settled. -/
theorem Reaches.exists_find? (reaches : library.Reaches start n other) (sound : a.Sound)
    (entered : ¬ a.Lacks n) (settled : start.Lacks n → library.Settled start a n) :
    ∃ id, a.find? a.root other = .ok (some id) := by
  have present : ¬ a.Lacks other := by
    rcases reaches with rfl | ⟨lacks, opened, path, imported⟩
    · exact entered
    · exact (settled lacks).imports opened path other imported
  obtain ⟨tb, h, -⟩ := sound.root
  have q : a.find? a.root other = .ok (tb.find? other) := bind_eq_ok.2 ⟨tb, h, rfl⟩
  cases st : tb.find? other with
  | none => exact absurd ⟨tb, h, st⟩ present
  | some id => exact ⟨id, q.trans (congrArg _ st)⟩

end Library

/-- Loading a module comes to an end, whatever the arena and the images are: it never runs out of
fuel, and more fuel changes nothing. When it succeeds the same modules are being loaded as before.
From a sound arena it puts each image into the arena at most once, and it succeeds, with all that it
reaches through modules that were absent in the root scope, or it is refused, with the report that a
module cannot be loaded when the images that it opens have a cycle. The report is another one only
where the image has the name of an intrinsic module that was made for an import meanwhile. -/
theorem Analysis.loadModule_ends (library : Library) (name : String) (span : Span)
    (context : Context) : (∀ fuel, library.entries.length < fuel →
      loadWithin library span fuel name context = loadModule library name span context) ∧
    (∀ later, loadModule library name span context ≠ .error (.broken .endless) later) ∧
    (∀ id later, loadModule library name span context = .ok id later →
      later.journal.loading = context.journal.loading) ∧
    (library.WellFormed → context.arena.Sound →
      ∃ (later : Context) (names : List String), names.Nodup ∧
      library.Fills context.arena names later.arena ∧
        ((∃ id, loadModule library name span context = .ok id later ∧
          later.journal.loading = context.journal.loading ∧ ¬ library.Cyclic context.arena name ∧
          ∀ other, library.Reaches context.arena name other →
            ∃ symbol, later.arena.find? later.arena.root other = .ok (some symbol)) ∨
        ∃ error, loadModule library name span context = .error (.rejected error) later ∧
          (error.fault.kind = .moduleLoad ∨
            Intrinsic.isModule name = true ∧ ¬ library.Cyclic context.arena name))) := by
  have enough := Nat.lt_succ_of_le (library.card_waiting_le context.journal.loading)
  have halts : Halts (·.journal.loading = context.journal.loading) (loadModule library name span)
      (·.journal.loading = context.journal.loading) := loadWithin_halts enough name
  refine ⟨fun fuel => loadWithin_eq_loadModule, fun later ran => ?_, fun id later ran =>
    halts.result rfl ran, fun wellFormed sound => ?_⟩
  · have ends := halts rfl
    unfold Runs at ends
    rw [ran] at ends
    exact ends rfl
  have grown : library.Grown context.arena context.arena :=
    ⟨sound, fun _ => id, fun key _ lacks entered => absurd lacks entered, [], .nil, nofun, .start⟩
  rcases loadWithin_ends_or_installs wellFormed (loads wellFormed _) grown enough name with
    (⟨id, later, ran, grown, advances, entered, settled⟩ | ⟨error, later, ran, grown, kind⟩) |
      ⟨image, ids, resolved, ran, served, isImage, lacks, fresh, grown, advances, length,
        known, settled⟩
  · obtain ⟨names, distinct, -, fills⟩ := grown.filled
    refine ⟨later, names, distinct, fills, .inl ⟨id, ran, advances.loading, ?_, fun other reaches =>
      reaches.exists_find? grown.sound entered settled⟩⟩
    exact fun cyclic => (settled cyclic.1).not_cyclic cyclic
  · obtain ⟨names, distinct, -, fills⟩ := grown.filled
    exact ⟨later, names, distinct, fills, .inr ⟨error, ran, .inl kind⟩⟩
  · obtain ⟨names, distinct, entered, fills⟩ := grown.filled
    by_cases free : resolved.arena.Lacks name
    · obtain ⟨id, later, grafted, installed, put, declared, sound, -, free⟩ :=
        exists_install isImage length grown.sound free known
      refine ⟨later, name :: names,
        List.nodup_cons.2 ⟨fun listed => (entered name listed).2 ‹_›, distinct⟩,
        .declare (.image fills name image ids served put) name id span declared,
        .inl ⟨id, ran.trans installed,
          halts.result rfl (ran.trans installed), settled.not_cyclic,
          fun other reaches => reaches.exists_find? sound ?_ ?_⟩⟩
      · exact fun lacks => ((free name).1 lacks).2 rfl
      · exact fun _ => settled.mono fun key lacks => ((free key).1 lacks).1
    · have isModule : Intrinsic.isModule name = true := by
        by_contra proper
        exact free (advances.held name (.head _) (Bool.not_eq_true _ ▸ proper) lacks)
      obtain ⟨error, later, id, refused, put⟩ :=
        exists_install_error isImage length grown.sound free
      refine ⟨later, name :: names, List.nodup_cons.2 ⟨fun listed => ?_, distinct⟩,
        .image fills name image ids served put,
        .inr ⟨error, ran.trans refused, .inr ⟨isModule, settled.not_cyclic⟩⟩⟩
      cases isModule.symm.trans (entered name listed).1

theorem Library.ServedBy.ofSound (served : library.ServedBy arenas) (session : Session arenas)
    (given : library.load n = .ok image) : image.OfSound := by
  obtain ⟨a, mem, published, key, made, given⟩ := served n image given
  obtain ⟨-, tb, module, h, member, publishes, imaged⟩ := load_ofArena made given
  have sound := (session.lawful a mem).sound
  exact ⟨a, module, sound, sound.moduleAt h member publishes, extracted_of_imageOf imaged⟩

/-- A module `a` with a variable and a module that uses it. -/
def Tree.sampleUser (name : String) : Tree.CompilationUnit :=
  ⟨[.moduleUnit ⟨"a", [], [],
    [.var ⟨.real none, [], [⟨"x", [], none, default⟩], default⟩], [], default⟩,
    .moduleUnit ⟨name, [⟨"a", none, default⟩], [], [], [], default⟩]⟩

/-- A module `a` with a subroutine that calls an intrinsic function. -/
def Tree.sampleSine : Tree.CompilationUnit :=
  ⟨[.moduleUnit ⟨"a", [], [], [.var ⟨.real none, [], [⟨"x", [], none, default⟩], default⟩],
    [⟨.subroutine, "s", [], none, none, [], [], [],
      [.print [⟨.call [] "sin" [⟨none, ⟨.name "x", default⟩⟩], default⟩]], [], default⟩], default⟩]⟩

namespace Session

/-- The two modules on their own. -/
def sampleUser (name : String) : Arena :=
  empty.after ⟨{}, {}⟩ (Tree.sampleUser name)

/-- The module with the subroutine. -/
def sampleSine : Arena :=
  empty.after ⟨{}, {}⟩ Tree.sampleSine

end Session

/-- Whether a step has a result. -/
def Analysis.succeeds {α : Type} (step : Analysis α) (ctx : Context) : Bool :=
  match step ctx with
  | .ok _ _ => true
  | .error _ _ => false

theorem Analysis.exists_of_succeeds {α : Type} {step : Analysis α}
    (fine : step.succeeds ctx = true) : ∃ res later, step ctx = .ok res later := by
  unfold succeeds at fine
  split at fine
  · exact ⟨_, _, ‹_›⟩
  · cases fine

theorem Library.ServedBy.append {other : Library} (served : library.ServedBy arenas)
    (otherServed : other.ServedBy arenas) :
    Library.ServedBy ⟨library.entries ++ other.entries⟩ arenas := by
  intro n image given
  rw [Library.load, lookup_append] at given
  cases looked : library.entries.lookup n with
  | some held =>
    rw [looked] at given
    exact served n image (by rwa [Library.load, looked])
  | none =>
    rw [looked] at given
    exact otherServed n image given

/-- Loading the module that uses the other one puts both into an empty arena. -/
theorem Analysis.loadModule_ends_user : ∃ id later,
      loadModule (Session.sampleUser "b").setup.library "b" default ⟨.empty, {}⟩ = .ok id later ∧
      (∃ symbol, later.arena.find? later.arena.root "a" = .ok (some symbol)) ∧
      ∃ names : List String, names.Nodup ∧
      (Session.sampleUser "b").setup.library.Fills .empty names later.arena := by
  have session : Session [Session.sampleUser "b", Arena.empty] :=
    .after .start (.head _) (fun _ _ loaded => by cases loaded) (by decide +kernel)
  have wellFormed : (Session.sampleUser "b").setup.library.WellFormed :=
    fun _ _ => (Arena.servedBy_setup (.head _)).ofSound session
  have imports : "a" ∈ (Session.sampleUser "b").setup.library.importsOf "b" := by decide +kernel
  have empty : Arena.empty.Lacks "b" := ⟨_, rfl, rfl⟩
  obtain ⟨later, names, distinct, fills, ⟨id, ran, -, -, all⟩ | ⟨error, ran, -⟩⟩ :=
    (loadModule_ends _ "b" default ⟨.empty, {}⟩).2.2.2 wellFormed Arena.sound_empty
  · exact ⟨id, later, ran, all "a" (.inr ⟨empty, "b", .refl, imports⟩), names, distinct, fills⟩
  · have fine : (loadModule (Session.sampleUser "b").setup.library "b" default).succeeds
        ⟨.empty, {}⟩ = true := by
      decide +kernel
    obtain ⟨id, last, fine⟩ := exists_of_succeeds fine
    cases ran.symm.trans fine

/-- What `a` and a module with the name of an intrinsic one publish. -/
def Library.sampleCircular : Library :=
  ⟨Session.sampleSine.setup.library.entries ++
    (Session.sampleUser "lfortran_intrinsic_math").setup.library.entries⟩

/-- The two modules import from one another, and still the first one is loaded: its import path
leads to an intrinsic function, for which no image is opened. -/
theorem Analysis.loadModule_of_cyclic :
    Library.sampleCircular.WellFormed ∧ TransGen (Library.sampleCircular.Imports .empty) "a" "a" ∧
      ∃ id later, loadModule Library.sampleCircular "a" default ⟨.empty, {}⟩ = .ok id later := by
  have user : Session [Session.sampleUser "lfortran_intrinsic_math", Arena.empty] :=
    .after .start (.head _) (fun _ _ loaded => by cases loaded) (by decide +kernel)
  have session : Session [Session.sampleSine, Session.sampleUser "lfortran_intrinsic_math",
      Arena.empty] :=
    .after user (.tail _ (.head _)) (fun _ _ loaded => by cases loaded) (by decide +kernel)
  have served : Library.sampleCircular.ServedBy
      [Session.sampleSine, Session.sampleUser "lfortran_intrinsic_math", Arena.empty] :=
    (Arena.servedBy_setup (.head _)).append (Arena.servedBy_setup (.tail _ (.head _)))
  have first : "lfortran_intrinsic_math" ∈ Library.sampleCircular.importsOf "a" := by decide +kernel
  have second : "a" ∈ Library.sampleCircular.importsOf "lfortran_intrinsic_math" := by
    decide +kernel
  have empty (name : String) : Arena.empty.Lacks name := ⟨_, rfl, rfl⟩
  have fine : (loadModule Library.sampleCircular "a" default).succeeds ⟨.empty, {}⟩ = true := by
    decide +kernel
  refine ⟨fun name image => served.ofSound session, .tail (.single ⟨second, empty _⟩)
    ⟨first, empty _⟩, exists_of_succeeds fine⟩

end FortranSemantics
