import FortranSemantics.Expression.Environment
import FortranSemantics.Proofs.Arena.Query

/-!
# Nesting of scopes

In a nested arena the symbols in the table of a scope belong to it, a symbol that opens a scope owns
it, and scopes lie inside scopes with smaller identifiers. Types extend types with smaller
identifiers. Every search along parents of scopes or types then ends.
-/

namespace FortranSemantics

variable {id ty : SymbolId} {scope : ScopeId} {fuel : Nat} {sym : Symbol}

/-- What stays the same about a symbol: its sort, the scope it opens, and the symbol it extends or
stands for. -/
inductive SymbolForm where
  | variable
  | function (scope : ScopeId)
  | moduleUnit (scope : ScopeId) (intrinsic : Bool)
  | program (scope : ScopeId)
  | generic
  | binding
  | derivedType (scope : ScopeId) (parent : Option SymbolId)
  | imported (target : SymbolId)
  | block (scope : ScopeId)
deriving DecidableEq

namespace SymbolForm

/-- The scope that a symbol of this form opens. -/
def scope? : SymbolForm → Option ScopeId
  | .function scope | .moduleUnit scope _ | .program scope | .derivedType scope _ | .block scope =>
    some scope
  | .variable | .generic | .binding | .imported _ => none

/-- The symbol that a symbol of this form extends or stands for. -/
def origin? : SymbolForm → Option SymbolId
  | .derivedType _ parent => parent
  | .imported target => some target
  | _ => none

end SymbolForm

namespace SymbolKind

/-- The form of a symbol. -/
def form : SymbolKind → SymbolForm
  | .variable _ => .variable
  | .function info => .function info.scope
  | .moduleUnit info => .moduleUnit info.scope info.intrinsic
  | .program info => .program info.scope
  | .generic _ => .generic
  | .binding _ => .binding
  | .derivedType info => .derivedType info.scope info.parent
  | .imported info => .imported info.target
  | .block info => .block info.scope

/-- The dummy arguments and the result of a procedure. -/
def arguments : SymbolKind → List SymbolId
  | .function info => info.args ++ info.result.toList
  | _ => []

/-- Whether a symbol is a procedure that was left behind by an interactive session. -/
def isStub : SymbolKind → Bool
  | .function info => info.abi = .interactive
  | _ => false

theorem scope?_form (k : SymbolKind) : k.form.scope? = k.scope? := by
  cases k <;> rfl

theorem form_eq_variable {k : SymbolKind} (same : k.form = .variable) : ∃ info,
    k = .variable info := by
  cases k
  case «variable» info => exact ⟨info, rfl⟩
  all_goals cases same

end SymbolKind

namespace Arena

/-- Whether a symbol is a variable that belongs to a scope. -/
def IsVariableOf (arena : Arena) (scope : ScopeId) (id : SymbolId) : Prop :=
  ∃ sym, arena.symbol id = .ok sym ∧ sym.owner = scope ∧ sym.kind.form = .variable

/-- Whether the tables, scopes, procedures and types of an arena are nested properly. -/
structure Nested (arena : Arena) : Prop where
  /-- The entries of a scope belong to it and bear the names they are entered under. -/
  entry : ∀ scope table name id, arena.scope scope = .ok table → (name, id) ∈ table.entries →
    ∃ sym, arena.symbol id = .ok sym ∧ sym.owner = scope ∧ sym.name = name
  /-- A symbol owns the scope it opens, which lies in the scope the symbol belongs to. -/
  opened : ∀ id sym inner, arena.symbol id = .ok sym → sym.kind.scope? = some inner →
    ∃ table, arena.scope inner = .ok table ∧ table.owner = some id ∧
      table.parent = some sym.owner
  /-- The dummy arguments and the result of a procedure are variables of its scope. -/
  arguments : ∀ id sym info, arena.symbol id = .ok sym → sym.kind = .function info →
    ∀ argument, argument ∈ info.args ∨ argument ∈ info.result →
      ∃ held declared, arena.symbol argument = .ok held ∧ held.owner = info.scope ∧
        held.kind = .variable declared
  /-- A scope lies inside a scope with a smaller identifier. -/
  parent : ∀ scope table outer, arena.scope scope = .ok table → table.parent = some outer →
    outer.index < scope.index
  /-- A type extends a type with a smaller identifier. -/
  extension : ∀ id sym info parent, arena.symbol id = .ok sym →
    sym.kind = .derivedType info → info.parent = some parent → parent.index < id.index

/-- What holds between any two steps of an analysis: the nesting of an arena, and what is needed to
keep it. -/
structure Sound (arena : Arena) : Prop where
  entry : ∀ {scope table name id}, arena.scope scope = .ok table → (name, id) ∈ table.entries →
    ∃ sym, arena.symbol id = .ok sym ∧ sym.owner = scope ∧ sym.name = name
  opened : ∀ {id sym inner}, arena.symbol id = .ok sym → sym.kind.scope? = some inner →
    ∃ table, arena.scope inner = .ok table ∧ table.owner = some id ∧
      table.parent = some sym.owner
  arguments : ∀ {id sym}, arena.symbol id = .ok sym → ∀ argument ∈ sym.kind.arguments,
    ∃ inner, sym.kind.scope? = some inner ∧ arena.IsVariableOf inner argument
  parent : ∀ {scope table outer}, arena.scope scope = .ok table → table.parent = some outer →
    outer.index < scope.index
  /-- What a symbol extends or stands for was there before it. -/
  origin : ∀ {id sym origin}, arena.symbol id = .ok sym →
    sym.kind.form.origin? = some origin → origin.index < id.index
  /-- The root lies in no scope and is owned by no symbol. -/
  root : ∃ table, arena.scope arena.root = .ok table ∧ table.parent = none ∧ table.owner = none
  /-- A symbol that owns a scope opens it. -/
  owner : ∀ {scope table id}, arena.scope scope = .ok table → table.owner = some id →
    ∃ sym, arena.symbol id = .ok sym ∧ sym.kind.scope? = some scope
  /-- The name of a symbol stands for something in the scope the symbol belongs to. -/
  entered : ∀ {id sym}, arena.symbol id = .ok sym →
    ∃ table held, arena.scope sym.owner = .ok table ∧ table.find? sym.name = some held
  /-- Outside the root, the name of a symbol that opens a scope stands for that symbol. -/
  registered : ∀ {id sym inner}, arena.symbol id = .ok sym →
    sym.kind.scope? = some inner → sym.owner ≠ arena.root →
      ∃ table, arena.scope sym.owner = .ok table ∧ table.find? sym.name = some id

theorem Sound.nested {a : Arena} (sound : a.Sound) : a.Nested where
  entry _ _ _ _ := sound.entry
  opened _ _ _ := sound.opened
  arguments id sym info h isFunction argument listed := by
    have mem : argument ∈ sym.kind.arguments := by
      rw [isFunction]
      simpa only [SymbolKind.arguments, List.mem_append, Option.mem_toList,
        Option.mem_def] using listed
    obtain ⟨inner, opened, held, heldFound, own, form⟩ := sound.arguments h argument mem
    obtain ⟨declared, isVariable⟩ := SymbolKind.form_eq_variable form
    rw [isFunction] at opened
    cases opened
    exact ⟨held, declared, heldFound, own, isVariable⟩
  parent _ _ _ := sound.parent
  extension id sym info parent h isType extends' := by
    apply sound.origin h
    rw [isType]
    exact extends'

/-- The arena with an empty root scope is sound. -/
theorem sound_empty : Arena.empty.Sound := by
  have noSymbol (id : SymbolId) (sym : Symbol) : Arena.empty.symbol id ≠ .ok sym := by
    rw [Ne, symbol_eq_ok]
    simp [Arena.empty]
  have onlyRoot {id : ScopeId} {tb : Scope} (h : Arena.empty.scope id = .ok tb) : tb = default := by
    rw [scope_eq_ok, Arena.empty, List.getElem?_toArray, List.getElem?_singleton] at h
    split at h
    · exact (Option.some.inj h).symm
    · cases h
  exact {
    entry := fun h mem => by
      rw [onlyRoot h] at mem
      cases mem
    opened := fun h => absurd h (noSymbol _ _)
    arguments := fun h => absurd h (noSymbol _ _)
    parent := fun h inside => by
      rw [onlyRoot h] at inside
      cases inside
    origin := fun h => absurd h (noSymbol _ _)
    root := ⟨default, rfl, rfl, rfl⟩
    owner := fun h own => by
      rw [onlyRoot h] at own
      cases own
    entered := fun h => absurd h (noSymbol _ _)
    registered := fun h => absurd h (noSymbol _ _) }

/-! ## Searches end -/

variable {a : Arena}

section

variable (sound : a.Sound)

include sound

theorem Sound.opened_ne_root (h : a.symbol id = .ok sym) (opens : sym.kind.scope? = some body) :
    body ≠ a.root := by
  rintro rfl
  obtain ⟨tb, ht, owner, -⟩ := sound.opened h opens
  obtain ⟨again, refound, -, free⟩ := sound.root
  cases ht.symm.trans refound
  cases owner.symm.trans free

theorem Sound.parent_inRange (h : a.scope scope = .ok tb) (inside : tb.parent = some outer) :
    outer.index < a.scopes.size :=
  Nat.lt_trans (sound.parent h inside) (scope_inRange h)

theorem Sound.exists_pastImport (lt : id.index < a.symbols.size) :
    ∃ past, a.pastImport id = .ok past ∧ past.index ≤ id.index := by
  obtain ⟨sym, h⟩ := exists_symbol lt
  unfold pastImport
  rw [kind_eq_ok.2 ⟨sym, h, rfl⟩]
  cases named : sym.kind with
  | imported info =>
    have earlier := sound.origin h
      (show sym.kind.form.origin? = some info.target by rw [named]; rfl)
    exact ⟨info.target, rfl, Nat.le_of_lt earlier⟩
  | _ => exact ⟨id, rfl, Nat.le_refl _⟩

theorem Sound.exists_lookupWithin (n : String) (lt : scope.index < a.scopes.size)
    (enough : scope.index < fuel) : ∃ ans, a.lookupWithin n fuel scope = .ok ans := by
  induction fuel generalizing scope with
  | zero => omega
  | succ fuel ih =>
    obtain ⟨tb, h⟩ := exists_scope lt
    simp only [lookupWithin, h, bind, Except.bind]
    split
    · exact ⟨_, rfl⟩
    · next outer _ inside =>
      have smaller := sound.parent h inside
      exact ih (sound.parent_inRange h inside) (by omega)
    · exact ⟨_, rfl⟩

theorem Sound.exists_unitWithin (lt : scope.index < a.scopes.size) (enough : scope.index < fuel) :
    ∃ ans, a.unitWithin fuel scope = .ok ans := by
  induction fuel generalizing scope with
  | zero => omega
  | succ fuel ih =>
    obtain ⟨tb, h⟩ := exists_scope lt
    simp only [unitWithin, h, bind, Except.bind]
    split
    · exact ⟨_, rfl⟩
    · next outer inside =>
      have smaller := sound.parent h inside
      split
      · exact ⟨_, rfl⟩
      · exact ih (sound.parent_inRange h inside) (by omega)

theorem Sound.exists_implicitTypeWithin (env : Environment) (n : String)
    (lt : scope.index < a.scopes.size)
    (enough : scope.index < fuel) : ∃ ans, env.implicitTypeWithin a n fuel scope = .ok ans := by
  induction fuel generalizing scope with
  | zero => omega
  | succ fuel ih =>
    obtain ⟨tb, h⟩ := exists_scope lt
    unfold Environment.implicitTypeWithin
    split
    · exact ⟨_, rfl⟩
    · simp only [h, bind, Except.bind]
      split
      · next outer inside =>
        have smaller := sound.parent h inside
        exact ih (sound.parent_inRange h inside) (by omega)
      · exact ⟨_, rfl⟩

/-- The parent of a derived type is found and comes before it. -/
theorem Sound.exists_parentType? (h : a.symbol id = .ok sym)
    (isType : sym.kind = .derivedType info) : ∃ ans, a.parentType? info = .ok ans ∧
      ∀ parent ∈ ans, parent.index < id.index := by
  unfold parentType?
  split
  · exact ⟨none, rfl, fun parent mem => by cases mem⟩
  · next extended chosen =>
    have smaller : extended.index < id.index := sound.origin h (by rw [isType]; exact chosen)
    have lt := symbol_inRange h
    obtain ⟨past, named, bound⟩ := sound.exists_pastImport (Nat.lt_trans smaller lt)
    refine ⟨some past, by rw [named]; rfl, fun parent mem => ?_⟩
    cases mem
    omega

/-- Looking for a member along a chain of extensions ends. -/
theorem Sound.exists_memberWithin (n : String) (lt : ty.index < a.symbols.size)
    (enough : ty.index < fuel) : ∃ ans, a.memberWithin n fuel ty = .ok ans := by
  induction fuel generalizing ty with
  | zero => omega
  | succ fuel ih =>
    obtain ⟨sym, h⟩ := exists_symbol lt
    simp only [memberWithin, kind_eq_ok.2 ⟨sym, h, rfl⟩, bind, Except.bind]
    split
    · next info isType =>
      have opens : sym.kind.scope? = some info.scope := by rw [isType]; rfl
      obtain ⟨tb, inner, -⟩ := sound.opened h opens
      obtain ⟨extended, parents, smaller⟩ := sound.exists_parentType? h isType
      simp only [find?, inner, parents, bind, Except.bind, pure, Except.pure]
      split
      · exact ⟨_, rfl⟩
      · cases extended with
        | none => exact ⟨_, rfl⟩
        | some parent =>
          have bound := smaller parent rfl
          exact ih (by omega) (by omega)
    · exact ⟨_, rfl⟩

/-- Collecting the components along a chain of extensions ends. -/
theorem Sound.exists_componentsWithin (lt : ty.index < a.symbols.size) (enough : ty.index < fuel) :
    ∃ ans, a.componentsWithin fuel ty = .ok ans := by
  induction fuel generalizing ty with
  | zero => omega
  | succ fuel ih =>
    obtain ⟨past, named, bound⟩ := sound.exists_pastImport lt
    obtain ⟨sym, h⟩ := exists_symbol (Nat.lt_of_le_of_lt bound lt)
    simp only [componentsWithin, target, named, kind_eq_ok.2 ⟨sym, h, rfl⟩, bind, Except.bind]
    split
    · next info isType =>
      have opens : sym.kind.scope? = some info.scope := by rw [isType]; rfl
      obtain ⟨tb, inner, -⟩ := sound.opened h opens
      cases extended : info.parent with
      | none =>
        simp only [inner, pure, Except.pure]
        exact ⟨_, rfl⟩
      | some parent =>
        have smaller : parent.index < past.index :=
          sound.origin h (by rw [isType]; exact extended)
        have shorter : parent.index < fuel := by omega
        obtain ⟨inherited, collected⟩ := ih (by omega) shorter
        simp only [collected, inner]
        exact ⟨_, rfl⟩
    · exact ⟨_, rfl⟩

/-- Looking for an ancestor along a chain of extensions ends. -/
theorem Sound.exists_extendsWithin (ancestor : SymbolId) (lt : ty.index < a.symbols.size)
    (enough : ty.index < fuel) : ∃ ans, a.extendsWithin ancestor fuel ty = .ok ans := by
  induction fuel generalizing ty with
  | zero => omega
  | succ fuel ih =>
    unfold extendsWithin
    split
    · exact ⟨_, rfl⟩
    · obtain ⟨sym, h⟩ := exists_symbol lt
      simp only [kind_eq_ok.2 ⟨sym, h, rfl⟩, bind, Except.bind]
      split
      · next info isType =>
        obtain ⟨extended, parents, smaller⟩ := sound.exists_parentType? h isType
        simp only [parents]
        cases extended with
        | none => exact ⟨_, rfl⟩
        | some parent =>
          have bound := smaller parent rfl
          exact ih (by omega) (by omega)
      · exact ⟨_, rfl⟩

end

end Arena

end FortranSemantics
