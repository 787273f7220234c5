import FortranSemantics.Image.Grafting
import FortranSemantics.Image.Library
import FortranSemantics.Proofs.Arena.Nesting

/-!
# Steps of an analysis

All that an analysis does to an arena is a sequence of a few kinds of steps: it adds or changes
expressions, opens scopes, enters symbols, revises what a symbol names without changing its form,
remembers helpers, and loads modules. Every step keeps an arena sound.
-/

namespace FortranSemantics

variable {name : String} {id other : SymbolId} {s inner : ScopeId} {table : Scope}
  {sym after : Symbol} {kind : SymbolKind}

namespace Scope

theorem lookup_cons_ite (key held : String) (id : SymbolId) (rest : List (String × SymbolId)) :
    ((held, id) :: rest).lookup key = if key = held then some id else rest.lookup key := by
  rw [List.lookup_cons]
  by_cases here : key = held
  · rw [if_pos here, beq_iff_eq.2 here]
  · rw [if_neg here, beq_eq_false_iff_ne.2 here]

/-- After a name was entered, it stands for its symbol and all other names for what they stood for.
-/
theorem find?_put (s : Scope) (name key : String) (id : SymbolId) :
    (s.put name id).find? key = if key = name then some id else s.find? key := by
  change (putEntry name id s.entries).lookup key = if key = name then some id else
    s.entries.lookup key
  induction s.entries with
  | nil => exact lookup_cons_ite key name id []
  | cons e rest ih =>
    obtain ⟨held, old⟩ := e
    unfold putEntry
    by_cases replaced : held = name
    · rw [if_pos replaced, lookup_cons_ite, lookup_cons_ite, ← replaced]
      by_cases here : key = held
      · rw [if_pos here, if_pos here]
      · rw [if_neg here, if_neg here, if_neg here]
    · rw [if_neg replaced, lookup_cons_ite, lookup_cons_ite, ih]
      by_cases here : key = held
      · rw [if_pos here, if_pos here, if_neg (here ▸ replaced)]
      · rw [if_neg here, if_neg here]

theorem mem_put {s : Scope} (mem : entry ∈ (s.put name id).entries) : entry = (name, id) ∨
    entry ∈ s.entries := by
  change entry ∈ putEntry name id s.entries at mem
  revert mem
  induction s.entries with
  | nil => exact fun mem => .inl (List.mem_singleton.1 mem)
  | cons first rest ih =>
    obtain ⟨held, old⟩ := first
    unfold putEntry
    split
    · next replaced =>
      intro mem
      rcases List.mem_cons.1 mem with here | within
      · exact .inl (replaced ▸ here)
      · exact .inr (.tail _ within)
    · intro mem
      rcases List.mem_cons.1 mem with here | within
      · exact .inr (here ▸ (.head _))
      · exact (ih within).imp_right (List.mem_cons_of_mem _)

theorem mem_of_find? {s : Scope} (h : s.find? name = some id) : (name, id) ∈ s.entries := by
  change s.entries.lookup name = some id at h
  revert h
  induction s.entries with
  | nil => exact nofun
  | cons first rest ih =>
    obtain ⟨held, old⟩ := first
    intro h
    rw [lookup_cons_ite] at h
    split at h
    · next here =>
      cases h
      exact here ▸ (.head _)
    · exact List.mem_cons_of_mem _ (ih h)

end Scope

namespace Arena

variable {a : Arena}

/-! ## The arenas after a step -/

variable (arena : Arena)

/-- The scopes of an arena, with a symbol as the owner of the scope it opens. -/
def claimed (opened : Option ScopeId) (id : SymbolId) : Array Scope :=
  match opened with
  | none => arena.scopes
  | some inner => arena.scopes.modify inner.index fun held => { held with owner := some id }

variable (scope : ScopeId)

/-- The arena with a new symbol under a name; it owns the scope it opens. -/
def enter (name : String) (kind : SymbolKind) : Arena :=
  let id : SymbolId := ⟨arena.symbols.size⟩
  { arena with
    symbols := arena.symbols.push { name, owner := scope, kind }
    scopes := (arena.claimed kind.scope? id).modify scope.index (·.put name id) }

/-- The arena in which a name stands for a symbol, which belongs to the scope under that name. -/
def declare (name : String) (id : SymbolId) : Arena :=
  { arena with
    symbols := arena.symbols.modify id.index fun held => { held with owner := scope, name }
    scopes := arena.scopes.modify scope.index (·.put name id) }

/-- The arena in which a symbol names something else. -/
def revise (id : SymbolId) (kind : SymbolKind) : Arena :=
  { arena with symbols := arena.symbols.modify id.index fun held => { held with kind } }

/-- The arena in which a scope has other helpers. -/
def remember (helpers : List (HelperKey × List SymbolId)) : Arena :=
  { arena with scopes := arena.scopes.modify scope.index fun held => { held with helpers } }

theorem modify_helpers (h : a.scope s = .ok table)
    (change : List (HelperKey × List SymbolId) → List (HelperKey × List SymbolId)) :
    { a with scopes := a.scopes.modify s.index fun held =>
        { held with helpers := change held.helpers } } = a.remember s (change table.helpers) := by
  have here : a.scopes[s.index]? = some table := scope_eq_ok.1 h
  unfold remember
  congr 1
  apply Array.ext_getElem?
  intro i
  rw [Array.getElem?_modify, Array.getElem?_modify]
  by_cases same : s.index = i
  · rw [if_pos same, if_pos same, ← same, here]
    rfl
  · rw [if_neg same, if_neg same]

theorem scope_modify {after : Arena} {id : ScopeId}
    (changed : after.scopes = a.scopes.modify id.index change) {other : ScopeId} :
    after.scope other = .ok table ↔
      ∃ old, a.scope other = .ok old ∧ table = if other = id then change old else old := by
  have same : id.index = other.index ↔ other = id := by
    cases id
    cases other
    simp [eq_comm]
  simp only [scope_eq_ok, changed, Array.getElem?_modify, same]
  by_cases here : other = id
  · simp only [here, if_true, Option.map_eq_some_iff, eq_comm (b := table)]
  · simp [here]

theorem symbol_modify {after : Arena} (changed : after.symbols = a.symbols.modify id.index change) :
    after.symbol other = .ok sym ↔
      ∃ old, a.symbol other = .ok old ∧ sym = if other = id then change old else old := by
  have same : id.index = other.index ↔ other = id := by
    cases id
    cases other
    simp [eq_comm]
  simp only [symbol_eq_ok, changed, Array.getElem?_modify, same]
  by_cases here : other = id
  · simp only [here, if_true, Option.map_eq_some_iff, eq_comm (b := sym)]
  · simp [here]

theorem symbol_declare : (a.declare s name id).symbol other = .ok sym ↔ ∃ old,
    a.symbol other = .ok old ∧
      sym = if other = id then { old with owner := s, name } else old := by
  have changed : (a.declare s name id).symbols =
      a.symbols.modify id.index fun held => { held with owner := s, name } := rfl
  exact symbol_modify changed

theorem scope_declare {other : ScopeId} : (a.declare s name id).scope other = .ok table ↔ ∃ old,
    a.scope other = .ok old ∧
      table = if other = s then old.put name id else old := by
  have changed : (a.declare s name id).scopes = a.scopes.modify s.index (·.put name id) := rfl
  exact scope_modify changed

theorem symbol_addSymbol : (a.addSymbol new).2.symbol id = .ok sym ↔
      a.symbol id = .ok sym ∨ id = ⟨a.symbols.size⟩ ∧ sym = new := by
  have same : id = ⟨a.symbols.size⟩ ↔ id.index = a.symbols.size := by
    cases id
    simp
  simp only [symbol_eq_ok, addSymbol, Array.getElem?_push, same]
  by_cases added : id.index = a.symbols.size
  · simp [added, eq_comm]
  · simp [added]

theorem scope_addScope {id : ScopeId} : (a.addScope parent owner).2.scope id = .ok table ↔
    a.scope id = .ok table ∨
      id = ⟨a.scopes.size⟩ ∧ table = { parent, owner, entries := [], helpers := [] } := by
  have same : id = ⟨a.scopes.size⟩ ↔ id.index = a.scopes.size := by
    cases id
    simp
  simp only [scope_eq_ok, addScope, Array.getElem?_push, same]
  by_cases added : id.index = a.scopes.size
  · simp [added, eq_comm]
  · simp [added]

theorem ne_size_of_found (h : a.symbol id = .ok sym) : id ≠ ⟨a.symbols.size⟩ := by
  rintro rfl
  exact absurd (symbol_inRange h) (Nat.lt_irrefl _)

/-- Entering a symbol adds it after those that are there. -/
theorem symbol_enter : (a.enter s name kind).symbol id = .ok sym ↔ a.symbol id = .ok sym ∨
      id = ⟨a.symbols.size⟩ ∧ sym = { name, owner := s, kind } :=
  symbol_addSymbol

theorem scope_claimed {id : ScopeId} : { a with scopes := a.claimed opened owner }.scope
    id = .ok table ↔
      ∃ old, a.scope id = .ok old ∧
        table = if opened = some id then { old with owner := some owner } else old := by
  cases opened with
  | none => simp [claimed, Arena.scope]
  | some inner =>
    have changed : (a.claimed (some inner) owner) =
        a.scopes.modify inner.index fun held => { held with owner := some owner } := rfl
    refine (scope_modify changed).trans (exists_congr fun old => and_congr_right fun _ => ?_)
    simp only [Option.some.injEq, eq_comm]

/-- Entering a symbol changes a scope only in the new name and in its owner. -/
theorem scope_enter {id : ScopeId} : (a.enter s name kind).scope id = .ok table ↔ ∃ old,
    a.scope id = .ok old ∧
      table.parent = old.parent ∧ table.helpers = old.helpers ∧
      table.owner = (if kind.scope? = some id then
        some ⟨a.symbols.size⟩ else old.owner) ∧ table.entries =
        if id = s then (old.put name ⟨a.symbols.size⟩).entries else old.entries := by
  let claiming : Arena := { a with scopes := a.claimed kind.scope? ⟨a.symbols.size⟩ }
  have modified : (a.enter s name kind).scope id = .ok table ↔ ∃ old, claiming.scope id = .ok old ∧
        table = if id = s then old.put name ⟨a.symbols.size⟩ else old :=
    scope_modify rfl
  rw [modified]
  constructor
  · rintro ⟨mid, h, rfl⟩
    obtain ⟨old, isOld, rfl⟩ := scope_claimed.1 h
    refine ⟨old, isOld, ?_⟩
    split <;> split <;> simp [Scope.put]
  · rintro ⟨old, isOld, parent, helpers, owner, entries⟩
    refine ⟨_, scope_claimed.2 ⟨old, isOld, rfl⟩, ?_⟩
    obtain ⟨_, _, _, _⟩ := table
    subst parent helpers owner entries
    split <;> split <;> simp [Scope.put]

/-- A scope is still found after a symbol was entered. -/
theorem exists_scope_enter {id : ScopeId} (h : a.scope id = .ok old) :
    ∃ table, (a.enter s name kind).scope id = .ok table ∧ table.parent = old.parent ∧
      table.owner = (if kind.scope? = some id then
        some ⟨a.symbols.size⟩ else old.owner) ∧ ∀ key, table.find? key =
        if id = s ∧ key = name then some ⟨a.symbols.size⟩ else old.find? key := by
  refine ⟨⟨old.parent, if kind.scope? = some id then some ⟨a.symbols.size⟩ else old.owner,
    if id = s then (old.put name ⟨a.symbols.size⟩).entries else old.entries, old.helpers⟩,
    scope_enter.2 ⟨old, h, rfl, rfl, rfl, rfl⟩, rfl, rfl, fun key => ?_⟩
  by_cases here : id = s
  · simp only [Scope.find?, here, if_true, true_and]
    exact old.find?_put name key _
  · simp only [Scope.find?, here, if_false, false_and]

/-! ## What a step may do -/

/-- What must hold for a symbol to be entered: it refers to symbols that are there, opens a scope
that nobody owns, and replaces none that opens a scope, but for a stub in the root. -/
structure Entering (arena : Arena) (scope : ScopeId) (name : String)
    (kind : SymbolKind) : Prop where
  inRange : scope.index < arena.scopes.size
  origin : ∀ origin, kind.form.origin? = some origin → origin.index < arena.symbols.size
  arguments : ∀ argument ∈ kind.arguments,
    ∃ inner, kind.scope? = some inner ∧ arena.IsVariableOf inner argument
  inner : ∀ inner, kind.scope? = some inner →
    ∃ table, arena.scope inner = .ok table ∧ table.owner = none ∧ table.parent = some scope
  settled : kind.isStub = false
  replaced : ∀ table old sym, arena.scope scope = .ok table → table.find? name = some old →
    arena.symbol old = .ok sym →
      sym.kind.scope? = none ∨ (scope = arena.root ∧ sym.kind.isStub = true)

/-- What must hold for a symbol to name something else: its form stays, and new arguments are
variables of its scope. -/
structure Revising (arena : Arena) (id : SymbolId) (kind : SymbolKind) (sym : Symbol) : Prop where
  found : arena.symbol id = .ok sym
  form : kind.form = sym.kind.form
  arguments : ∀ argument ∈ kind.arguments, argument ∈ sym.kind.arguments ∨
    ∃ inner, kind.scope? = some inner ∧ arena.IsVariableOf inner argument

/-! ## Steps keep an arena sound -/

theorem Sound.withExprs (sound : a.Sound) (exprs : Array Expr) : { a with exprs }.Sound :=
  ⟨sound.entry, sound.opened, sound.arguments, sound.parent, sound.origin, sound.root, sound.owner,
    sound.entered, sound.registered⟩

/-- A new scope in one that is there keeps an arena sound. -/
theorem Sound.addScope (sound : a.Sound) (lt : outer.index < a.scopes.size) :
    (a.addScope (some outer) none).2.Sound := by
  have kept {id : ScopeId} {table : Scope} (h : a.scope id = .ok table) :
      (a.addScope (some outer) none).2.scope id = .ok table := scope_addScope.2 (.inl h)
  exact {
    entry := fun h mem => by
      rcases scope_addScope.1 h with old | ⟨-, rfl⟩
      · exact sound.entry old mem
      · cases mem
    opened := fun h opens => by
      obtain ⟨table, ht, own, inside⟩ := sound.opened h opens
      exact ⟨table, kept ht, own, inside⟩
    arguments := sound.arguments
    parent := fun h inside => by
      rcases scope_addScope.1 h with old | ⟨rfl, rfl⟩
      · exact sound.parent old inside
      · cases inside
        exact lt
    origin := sound.origin
    root := by
      obtain ⟨table, h, alone, free⟩ := sound.root
      exact ⟨table, kept h, alone, free⟩
    owner := fun h own => by
      rcases scope_addScope.1 h with old | ⟨-, rfl⟩
      · exact sound.owner old own
      · cases own
    entered := fun h => by
      obtain ⟨table, held, ht, stored⟩ := sound.entered h
      exact ⟨table, held, kept ht, stored⟩
    registered := fun h opens inside => by
      obtain ⟨table, ht, stored⟩ := sound.registered h opens inside
      exact ⟨table, kept ht, stored⟩ }

theorem IsVariableOf.enter (isVariable : a.IsVariableOf inner id) :
    (a.enter s name kind).IsVariableOf inner id := by
  obtain ⟨sym, h, own, form⟩ := isVariable
  exact ⟨sym, symbol_enter.2 (.inl h), own, form⟩

/-- Entering a symbol keeps an arena sound. -/
theorem Sound.enter (sound : a.Sound) {s : ScopeId} {name : String} {kind : SymbolKind}
    (entering : a.Entering s name kind) : (a.enter s name kind).Sound where
  entry {id table key listed} h mem := by
    obtain ⟨old, isOld, -, -, -, entries⟩ := scope_enter.1 h
    rw [entries] at mem
    have stays (earlier : (key, listed) ∈ old.entries) : ∃ symbol,
        (a.enter s name kind).symbol listed = .ok symbol ∧ symbol.owner = id ∧
          symbol.name = key := by
      obtain ⟨symbol, isSym, own, named⟩ := sound.entry isOld earlier
      exact ⟨symbol, symbol_enter.2 (.inl isSym), own, named⟩
    by_cases here : id = s
    · rw [if_pos here] at mem
      rcases Scope.mem_put mem with new | earlier
      · cases new
        exact ⟨_, symbol_enter.2 (.inr ⟨rfl, rfl⟩), here.symm, rfl⟩
      · exact stays earlier
    · rw [if_neg here] at mem
      exact stays mem
  opened {id symbol inner} h opens := by
    rcases symbol_enter.1 h with old | ⟨rfl, rfl⟩
    · obtain ⟨table, tableFound, own, inside⟩ := sound.opened old opens
      obtain ⟨after, afterFound, parent, owner, -⟩ := exists_scope_enter tableFound
      have differs : kind.scope? ≠ some inner := by
        intro same
        obtain ⟨again, foundAgain, free, -⟩ := entering.inner inner same
        cases tableFound.symm.trans foundAgain
        cases own.symm.trans free
      rw [if_neg differs] at owner
      exact ⟨after, afterFound, owner.trans own, parent.trans inside⟩
    · obtain ⟨table, tableFound, -, inside⟩ := entering.inner inner opens
      obtain ⟨after, afterFound, parent, owner, -⟩ := exists_scope_enter tableFound
      rw [if_pos opens] at owner
      exact ⟨after, afterFound, owner, parent.trans inside⟩
  arguments {id symbol} h argument mem := by
    rcases symbol_enter.1 h with old | ⟨-, rfl⟩
    · obtain ⟨inner, opens, isVariable⟩ := sound.arguments old argument mem
      exact ⟨inner, opens, isVariable.enter⟩
    · obtain ⟨inner, opens, isVariable⟩ := entering.arguments argument mem
      exact ⟨inner, opens, isVariable.enter⟩
  parent {id table outer} h inside := by
    obtain ⟨old, isOld, parent, -⟩ := scope_enter.1 h
    exact sound.parent isOld (parent ▸ inside)
  origin {id symbol origin} h refers := by
    rcases symbol_enter.1 h with old | ⟨rfl, rfl⟩
    · exact sound.origin old refers
    · exact entering.origin origin refers
  root := by
    obtain ⟨table, h, alone, free⟩ := sound.root
    obtain ⟨after, afterFound, parent, owner, -⟩ := exists_scope_enter h
    have differs : kind.scope? ≠ some a.root := by
      intro same
      obtain ⟨again, foundAgain, -, inside⟩ := entering.inner a.root same
      cases h.symm.trans foundAgain
      cases alone.symm.trans inside
    rw [if_neg differs] at owner
    exact ⟨after, afterFound, parent.trans alone, owner.trans free⟩
  owner {id table holder} h own := by
    obtain ⟨old, isOld, -, -, owner, -⟩ := scope_enter.1 h
    rw [owner] at own
    by_cases opens : kind.scope? = some id
    · cases (if_pos opens).symm.trans own
      exact ⟨_, symbol_enter.2 (.inr ⟨rfl, rfl⟩), opens⟩
    · rw [if_neg opens] at own
      obtain ⟨symbol, isSym, opensOld⟩ := sound.owner isOld own
      exact ⟨symbol, symbol_enter.2 (.inl isSym), opensOld⟩
  entered {id symbol} h := by
    rcases symbol_enter.1 h with old | ⟨-, rfl⟩
    · obtain ⟨table, held, tableFound, stored⟩ := sound.entered old
      obtain ⟨after, afterFound, -, -, finds⟩ := exists_scope_enter tableFound
      by_cases same : symbol.owner = s ∧ symbol.name = name
      · exact ⟨after, _, afterFound, (finds _).trans (if_pos same)⟩
      · exact ⟨after, held, afterFound, ((finds _).trans (if_neg same)).trans stored⟩
    · obtain ⟨table, tableFound⟩ := exists_scope entering.inRange
      obtain ⟨after, afterFound, -, -, finds⟩ := exists_scope_enter tableFound
      exact ⟨after, _, afterFound, (finds name).trans (if_pos ⟨rfl, rfl⟩)⟩
  registered {id symbol inner} h opens inside := by
    rcases symbol_enter.1 h with old | ⟨rfl, rfl⟩
    · obtain ⟨table, tableFound, stored⟩ := sound.registered old opens inside
      obtain ⟨after, afterFound, -, -, finds⟩ := exists_scope_enter tableFound
      have kept : ¬ (symbol.owner = s ∧ symbol.name = name) := by
        rintro ⟨rfl, rfl⟩
        rcases entering.replaced table id symbol tableFound stored old with opensNone | ⟨isRoot, -⟩
        · cases opens.symm.trans opensNone
        · exact inside isRoot
      exact ⟨after, afterFound, ((finds _).trans (if_neg kept)).trans stored⟩
    · obtain ⟨table, tableFound⟩ := exists_scope entering.inRange
      obtain ⟨after, afterFound, -, -, finds⟩ := exists_scope_enter tableFound
      exact ⟨after, afterFound, (finds name).trans (if_pos ⟨rfl, rfl⟩)⟩

section

variable (revising : a.Revising id kind sym)

include revising

theorem symbol_revise : (a.revise id kind).symbol other = .ok after ↔
      (other = id ∧ after = { sym with kind }) ∨ (other ≠ id ∧ a.symbol other = .ok after) := by
  have changed : (a.revise id kind).symbols = a.symbols.modify id.index fun held =>
      { held with kind } := rfl
  rw [symbol_modify changed]
  constructor
  · rintro ⟨old, h, rfl⟩
    by_cases here : other = id
    · subst here
      cases revising.found.symm.trans h
      exact .inl ⟨rfl, if_pos rfl⟩
    · exact .inr ⟨here, by rw [if_neg here]; exact h⟩
  · rintro (⟨rfl, rfl⟩ | ⟨here, h⟩)
    · exact ⟨sym, revising.found, (if_pos rfl).symm⟩
    · exact ⟨after, h, (if_neg here).symm⟩

theorem exists_symbol_revise (h : a.symbol other = .ok old) :
    ∃ after, (a.revise id kind).symbol other = .ok after ∧ after.name = old.name ∧
      after.owner = old.owner ∧ after.kind.form = old.kind.form := by
  by_cases here : other = id
  · subst here
    cases revising.found.symm.trans h
    exact ⟨_, (symbol_revise revising).2 (.inl ⟨rfl, rfl⟩), rfl, rfl, revising.form⟩
  · exact ⟨old, (symbol_revise revising).2 (.inr ⟨here, h⟩), rfl, rfl, rfl⟩

theorem symbol_before_revise (h : (a.revise id kind).symbol other = .ok after) :
    ∃ old, a.symbol other = .ok old ∧ after.name = old.name ∧ after.owner = old.owner ∧
      after.kind.form = old.kind.form := by
  rcases (symbol_revise revising).1 h with ⟨rfl, rfl⟩ | ⟨-, old⟩
  · exact ⟨sym, revising.found, rfl, rfl, revising.form⟩
  · exact ⟨after, old, rfl, rfl, rfl⟩

theorem IsVariableOf.revise (isVariable : a.IsVariableOf inner other) :
    (a.revise id kind).IsVariableOf inner other := by
  obtain ⟨old, h, own, form⟩ := isVariable
  obtain ⟨after, afterFound, -, sameOwner, sameForm⟩ := exists_symbol_revise revising h
  exact ⟨after, afterFound, sameOwner.trans own, sameForm.trans form⟩

end

theorem scope?_eq_of_form {left right : SymbolKind} (same : left.form = right.form) :
    left.scope? = right.scope? := by
  rw [← left.scope?_form, ← right.scope?_form, same]

/-- A symbol may change within its form. -/
theorem Sound.revise (sound : a.Sound) (revising : a.Revising id kind sym) :
    (a.revise id kind).Sound where
  entry h mem := by
    obtain ⟨old, isSym, own, named⟩ := sound.entry h mem
    obtain ⟨after, afterFound, sameName, sameOwner, -⟩ := exists_symbol_revise revising isSym
    exact ⟨after, afterFound, sameOwner.trans own, sameName.trans named⟩
  opened h opens := by
    obtain ⟨old, isSym, -, sameOwner, sameForm⟩ := symbol_before_revise revising h
    rw [sameOwner]
    exact sound.opened isSym ((scope?_eq_of_form sameForm).symm.trans opens)
  arguments {other after} h argument mem := by
    rcases (symbol_revise revising).1 h with ⟨rfl, rfl⟩ | ⟨-, old⟩
    · rcases revising.arguments argument mem with kept | ⟨inner, opens, isVariable⟩
      · obtain ⟨inner, opens, isVariable⟩ := sound.arguments revising.found argument kept
        exact ⟨inner, (scope?_eq_of_form revising.form).trans opens, isVariable.revise revising⟩
      · exact ⟨inner, opens, isVariable.revise revising⟩
    · obtain ⟨inner, opens, isVariable⟩ := sound.arguments old argument mem
      exact ⟨inner, opens, isVariable.revise revising⟩
  parent := sound.parent
  origin h refers := by
    obtain ⟨old, isSym, -, -, sameForm⟩ := symbol_before_revise revising h
    exact sound.origin isSym (sameForm ▸ refers)
  root := sound.root
  owner h own := by
    obtain ⟨old, isSym, opens⟩ := sound.owner h own
    obtain ⟨after, afterFound, -, -, sameForm⟩ := exists_symbol_revise revising isSym
    exact ⟨after, afterFound, (scope?_eq_of_form sameForm).trans opens⟩
  entered h := by
    obtain ⟨old, isSym, sameName, sameOwner, -⟩ := symbol_before_revise revising h
    rw [sameName, sameOwner]
    exact sound.entered isSym
  registered h opens inside := by
    obtain ⟨old, isSym, sameName, sameOwner, sameForm⟩ := symbol_before_revise revising h
    rw [sameName, sameOwner]
    rw [sameOwner] at inside
    exact sound.registered isSym ((scope?_eq_of_form sameForm).symm.trans opens) inside

theorem Sound.remember (sound : a.Sound) (s : ScopeId)
    (helpers : List (HelperKey × List SymbolId)) : (a.remember s helpers).Sound := by
  have changed : (a.remember s helpers).scopes =
      a.scopes.modify s.index fun held => { held with helpers } := rfl
  have pre {id : ScopeId} {table : Scope} (h : (a.remember s helpers).scope id = .ok table) :
      ∃ old, a.scope id = .ok old ∧ table.parent = old.parent ∧ table.owner = old.owner ∧
        table.entries = old.entries := by
    obtain ⟨old, isOld, rfl⟩ := (scope_modify changed).1 h
    refine ⟨old, isOld, ?_⟩
    split <;> exact ⟨rfl, rfl, rfl⟩
  have kept {id : ScopeId} {old : Scope} (h : a.scope id = .ok old) :
      ∃ table, (a.remember s helpers).scope id = .ok table ∧ table.parent = old.parent ∧
        table.owner = old.owner ∧ ∀ key, table.find? key = old.find? key := by
    refine ⟨_, (scope_modify changed).2 ⟨old, h, rfl⟩, ?_⟩
    split <;> exact ⟨rfl, rfl, fun _ => rfl⟩
  exact {
    entry := fun h mem => by
      obtain ⟨old, isOld, -, -, entries⟩ := pre h
      exact sound.entry isOld (entries ▸ mem)
    opened := fun h opens => by
      obtain ⟨table, ht, own, inside⟩ := sound.opened h opens
      obtain ⟨after, afterFound, parent, owner, -⟩ := kept ht
      exact ⟨after, afterFound, owner.trans own, parent.trans inside⟩
    arguments := sound.arguments
    parent := fun h inside => by
      obtain ⟨old, isOld, parent, -⟩ := pre h
      exact sound.parent isOld (parent ▸ inside)
    origin := sound.origin
    root := by
      obtain ⟨table, h, alone, free⟩ := sound.root
      obtain ⟨after, afterFound, parent, owner, -⟩ := kept h
      exact ⟨after, afterFound, parent.trans alone, owner.trans free⟩
    owner := fun h own => by
      obtain ⟨old, isOld, -, owner, -⟩ := pre h
      exact sound.owner isOld (owner ▸ own)
    entered := fun h => by
      obtain ⟨table, held, ht, stored⟩ := sound.entered h
      obtain ⟨after, afterFound, -, -, finds⟩ := kept ht
      exact ⟨after, held, afterFound, (finds _).trans stored⟩
    registered := fun h opens inside => by
      obtain ⟨table, ht, stored⟩ := sound.registered h opens inside
      obtain ⟨after, afterFound, -, -, finds⟩ := kept ht
      exact ⟨after, afterFound, (finds _).trans stored⟩ }

end Arena

end FortranSemantics
