import FortranSemantics.Proofs.Arena.Step
import FortranSemantics.Proofs.Image.Grafting

/-!
# Loading keeps an arena sound

A module that was published from a sound arena and is put into another one under a free name leaves
that arena sound: the copy is nested as the original was, and what it takes from outside was there
before.
-/

namespace FortranSemantics

open List SymbolKind

variable {id first second : SymbolId} {inner outer scope : ScopeId} {sym : Symbol} {table : Scope}
  {image : Image}

/-- The form with other identifiers. -/
def Relocation.form (move : Relocation) : SymbolForm → SymbolForm
  | .variable => .variable
  | .function scope => .function (move.scope scope)
  | .moduleUnit scope intrinsic => .moduleUnit (move.scope scope) intrinsic
  | .program scope => .program (move.scope scope)
  | .generic => .generic
  | .binding => .binding
  | .derivedType scope parent =>
    .derivedType (move.scope scope) (parent.map move.symbol)
  | .imported target => .imported (move.symbol target)
  | .block scope => .block (move.scope scope)

namespace Relocation

variable (move : Relocation)

theorem form_symbolKind (k : SymbolKind) : (move.symbolKind k).form = move.form k.form := by
  cases k <;> rfl

theorem scope?_form (form : SymbolForm) : (move.form form).scope? = form.scope?.map move.scope := by
  cases form <;> rfl

theorem origin?_form (form : SymbolForm) :
    (move.form form).origin? = form.origin?.map move.symbol := by
  cases form <;> rfl

theorem arguments_symbolKind (k : SymbolKind) :
    (move.symbolKind k).arguments = k.arguments.map move.symbol := by
  cases k with
  | function info =>
    simp only [symbolKind, arguments, map_append]
    cases info.result <;> rfl
  | _ => rfl

theorem find?_scopeNode (table : Scope) (n : String) :
    (move.scopeNode table).find? n = (table.find? n).map move.symbol := by
  change (table.entries.map fun e => (e.1, move.symbol e.2)).lookup n =
    (table.entries.lookup n).map move.symbol
  induction table.entries with
  | nil => rfl
  | cons e rest ih =>
    rw [map_cons, Scope.lookup_cons_ite, Scope.lookup_cons_ite, ih]
    split <;> rfl

end Relocation

theorem SymbolKind.form_asLoaded (k : SymbolKind) : k.asLoaded.form = k.form := by
  cases k <;> rfl

theorem SymbolKind.arguments_asLoaded (k : SymbolKind) : k.asLoaded.arguments = k.arguments := by
  cases k <;> rfl

theorem SymbolKind.origin?_mem_references {k : SymbolKind} (refers : k.form.origin? = some origin) :
    Reference.symbol origin ∈ k.references := by
  cases k with
  | derivedType info =>
    have extends' : info.parent = some origin := refers
    simp [references, extends']
  | imported info =>
    have st : some info.target = some origin := refers
    cases st
    simp [references]
  | _ => cases refers

namespace Arena

variable {source : Arena} {module : SymbolId}

/-- The owner of a scope inside a module belongs to the module. -/
theorem Sound.owner_of_ownsScope (sound : source.Sound) (owned : source.OwnsScope module scope) :
    ∃ id sym table, source.OwnsSymbol module id ∧ source.symbol id = .ok sym ∧
      sym.kind.scope? = some scope ∧ source.scope scope = .ok table ∧ table.owner = some id ∧
      table.parent = some sym.owner := by
  cases owned with
  | own h opens _ =>
    obtain ⟨table, ht, owner, parent⟩ := sound.opened h opens
    exact ⟨module, _, table, .inl rfl, h, opens, ht, owner, parent⟩
  | nested outer opened _ =>
    obtain ⟨_, e, sym, _, _, h, belongs, opens⟩ := opened
    obtain ⟨table, ht, owner, parent⟩ := sound.opened h opens
    exact ⟨e.2, sym, table, .inr ⟨sym, h, belongs ▸ outer⟩, h, opens, ht, owner, parent⟩

theorem Sound.ownsScope_of_opened (sound : source.Sound) (own : source.OwnsSymbol module id)
    (h : source.symbol id = .ok sym) (opens : sym.kind.scope? = some inner) :
    source.OwnsScope module inner := by
  have proper := sound.opened_ne_root h opens
  rcases own with rfl | ⟨same, refound, outer⟩
  · exact .own h opens proper
  · cases h.symm.trans refound
    obtain ⟨table, ht, st⟩ := sound.registered h opens outer.ne_root
    exact .nested outer ⟨table, _, sym, ht, Scope.mem_of_find? st, h, rfl, opens⟩ proper

/-- Whether a symbol is a module that belongs to the root. -/
structure ModuleAt (source : Arena) (module : SymbolId) : Prop where
  found : ∃ sym info, source.symbol module = .ok sym ∧ sym.owner = source.root ∧
    sym.kind = .moduleUnit info

section

variable (home : source.ModuleAt module)

include home

theorem ModuleAt.owner (h : source.symbol module = .ok sym) : sym.owner = source.root := by
  obtain ⟨again, _, refound, owner, -⟩ := home.found
  cases h.symm.trans refound
  exact owner

theorem ModuleAt.origin? (h : source.symbol module = .ok sym) : sym.kind.form.origin? = none := by
  obtain ⟨again, info, refound, -, k⟩ := home.found
  cases h.symm.trans refound
  rw [k]
  rfl

theorem ModuleAt.exists_symbol (own : source.OwnsSymbol module id) : ∃ sym,
    source.symbol id = .ok sym := by
  rcases own with rfl | ⟨sym, h, -⟩
  · obtain ⟨sym, _, h, -⟩ := home.found
    exact ⟨sym, h⟩
  · exact ⟨sym, h⟩

theorem ModuleAt.ne_of_owner (h : source.symbol id = .ok sym)
    (own : source.OwnsScope module sym.owner) : id ≠ module := by
  rintro rfl
  exact own.ne_root (home.owner h)

end

theorem ownsScope_owner (own : source.OwnsSymbol module id) (h : source.symbol id = .ok sym)
    (proper : id ≠ module) : source.OwnsScope module sym.owner := by
  rcases own with isRoot | ⟨again, refound, inside⟩
  · exact absurd isRoot proper
  · cases h.symm.trans refound
    exact inside

end Arena

namespace Extracted

variable {a target : Arena} {root : SymbolId} {image : Image} {imports : List SymbolId}

/-- In a list that is sorted by identifiers, a smaller one stands before a larger one. -/
theorem idxOf_lt_of_sorted {ids : List SymbolId}
    (sorted : ids.Pairwise fun left right => left.index < right.index)
    (memberFirst : first ∈ ids) (memberSecond : second ∈ ids)
    (ordered : first.index < second.index) : ids.idxOf first < ids.idxOf second := by
  have boundFirst := idxOf_lt_length_of_mem memberFirst
  have boundSecond := idxOf_lt_length_of_mem memberSecond
  rcases Nat.lt_trichotomy (ids.idxOf first) (ids.idxOf second) with before | same | after
  · exact before
  · rw [(idxOf_inj memberFirst).1 same] at ordered
    omega
  · have wrong := pairwise_iff_getElem.1 sorted _ _ boundSecond boundFirst after
    rw [getElem_idxOf, getElem_idxOf] at wrong
    omega

section

variable (drawn : Extracted a root image)

include drawn

/-- Symbols of a module keep their order; the module itself comes first. -/
theorem grafted_symbol_lt (ownsFirst : a.OwnsSymbol root first)
    (ownsSecond : a.OwnsSymbol root second)
    (b : second ≠ root) (ordered : first.index < second.index) :
    ((drawn.grafted target imports).symbol first).index <
    ((drawn.grafted target imports).symbol second).index := by
  rw [drawn.grafted_symbol ownsFirst, drawn.grafted_symbol ownsSecond]
  suffices pre : drawn.members.idxOf first < drawn.members.idxOf second by
    change target.symbols.size + _ < target.symbols.size + _
    omega
  have memberFirst := drawn.mem_members.2 ownsFirst
  have memberSecond := drawn.mem_members.2 ownsSecond
  have sorted : ((a.symbolsOf drawn.scopes).filter (· != root)).Pairwise
      fun left right => left.index < right.index :=
    (Arena.symbolsOf_sorted drawn.scopes).filter _
  simp only [members, Arena.ownedBy] at memberFirst memberSecond ⊢
  rw [idxOf_cons_ne _ (Ne.symm b)]
  have restSecond := (mem_cons.1 memberSecond).resolve_left b
  rcases mem_cons.1 memberFirst with isRoot | restFirst
  · rw [isRoot, idxOf_cons_self]
    omega
  · have proper : first ≠ root := by simpa using (mem_filter.1 restFirst).2
    rw [idxOf_cons_ne _ (Ne.symm proper)]
    have pre := idxOf_lt_of_sorted sorted restFirst restSecond ordered
    omega

/-- Scopes of a module are put in the order in which they were listed. -/
theorem grafted_scope_lt (ownsOuter : a.OwnsScope root outer) (ownsInner : a.OwnsScope root inner)
    (ordered : drawn.scopes.idxOf outer < drawn.scopes.idxOf inner) :
    ((drawn.grafted target imports).scope outer).index <
    ((drawn.grafted target imports).scope inner).index := by
  rw [drawn.grafted_scope ownsOuter, drawn.grafted_scope ownsInner]
  obtain ⟨rest, same⟩ := drawn.listed.head
  rw [same, idxOf_cons_ne _ (Ne.symm ownsOuter.ne_root),
    idxOf_cons_ne _ (Ne.symm ownsInner.ne_root)] at ordered
  rw [same, drop_one, tail_cons]
  change target.scopes.size + _ < target.scopes.size + _
  omega

/-- The scope around a scope of a module is the root or a scope of the module that is put before it.
-/
theorem parent_of_ownsScope (sound : a.Sound) (home : a.ModuleAt root)
    (own : a.OwnsScope root scope)
    (h : a.scope scope = .ok table) (inside : table.parent = some outer) :
    outer = a.root ∨ a.OwnsScope root outer ∧ ((drawn.grafted target imports).scope outer).index <
        ((drawn.grafted target imports).scope scope).index := by
  have parentOf {id : SymbolId} {sym : Symbol} (isSym : a.symbol id = .ok sym)
      (opens : sym.kind.scope? = some scope) : sym.owner = outer := by
    obtain ⟨again, refound, -, parent⟩ := sound.opened isSym opens
    cases h.symm.trans refound
    rw [inside] at parent
    exact (Option.some.inj parent).symm
  rcases drawn.listed.origin scope own with first | ⟨o, ownsOther, opened, pre⟩
  · obtain ⟨sym, isSym, opens⟩ := Arena.symbolScope?_eq_ok.1 drawn.opened
    exact .inl ((parentOf isSym (first ▸ opens)).symm.trans (home.owner isSym))
  · obtain ⟨_, _, sym, _, _, isSym, belongs, opens⟩ := opened
    have same : o = outer := belongs.symm.trans (parentOf isSym opens)
    subst same
    exact .inr ⟨ownsOther, drawn.grafted_scope_lt ownsOther own pre⟩

end

end Extracted

namespace Arena

variable {a source : Arena} {module : SymbolId}

/-- What is known of an arena into which a module was put and entered under a name. -/
structure EnteredAs (source : Arena) (module : SymbolId) (a after : Arena) (name : String)
    (move : Relocation) : Prop where
  root : after.root = a.root
  oldSymbol : ∀ {id sym}, a.symbol id = .ok sym → after.symbol id = .ok sym
  oldScope : ∀ {id table}, a.scope id = .ok table →
    ∃ held, after.scope id = .ok held ∧ held.parent = table.parent ∧ held.owner = table.owner ∧
      (id ≠ a.root → held = table) ∧
      (id = a.root → held = table.put name (move.symbol module))
  newSymbol : ∀ {id sym}, source.OwnsSymbol module id → source.symbol id = .ok sym →
    ∃ held, after.symbol (move.symbol id) = .ok held ∧
      held.owner = move.scope sym.owner ∧
      held.name = (if id = module then name else sym.name) ∧
      held.kind = if id = module then (move.symbolKind sym.kind).asLoaded
        else move.symbolKind sym.kind
  newScope : ∀ {id table}, source.OwnsScope module id → source.scope id = .ok table →
    after.scope (move.scope id) = .ok (move.scopeNode table)
  symbolCases : ∀ {id sym}, after.symbol id = .ok sym → a.symbol id = .ok sym ∨
    ∃ original, source.OwnsSymbol module original ∧ move.symbol original = id
  scopeCases : ∀ {id table}, after.scope id = .ok table →
    (∃ held, a.scope id = .ok held) ∨
      ∃ original, source.OwnsScope module original ∧ move.scope original = id
  outerScope : move.scope source.root = a.root
  laterSymbol : ∀ {id}, source.OwnsSymbol module id →
    a.symbols.size ≤ (move.symbol id).index
  laterScope : ∀ {id}, source.OwnsScope module id → a.scopes.size ≤ (move.scope id).index

/-- What is known besides when the arenas are sound. -/
structure LoadedAs (source : Arena) (module : SymbolId) (a after : Arena) (name : String)
    (move : Relocation) : Prop extends source.EnteredAs module a after name move where
  earlierSymbol : ∀ {first second}, source.OwnsSymbol module second → second ≠ module →
    first.index < second.index → source.Holds module (.symbol first) →
      (move.symbol first).index < (move.symbol second).index
  outer : ∀ {scope outer table}, source.OwnsScope module scope → source.scope scope = .ok table →
    table.parent = some outer → outer = source.root ∨ source.OwnsScope module outer ∧
      (move.scope outer).index < (move.scope scope).index

/-- A module that does not lie inside itself is entered in the root under the name it is declared
with. -/
theorem EnteredAs.of_extracted (drawn : Extracted source module image)
    (outside : ∀ sym, source.symbol module = .ok sym → ¬ source.OwnsScope module sym.owner)
    (lt : a.root.index < a.scopes.size) (imports : List SymbolId) (n : String) :
    source.EnteredAs module a ((drawn.result a imports).declare a.root n ⟨a.symbols.size⟩) n
      (drawn.grafted a imports) := by
  have copied : source.CopiedTo module a (drawn.result a imports)
      (drawn.grafted a imports) := drawn.copiedTo_result
  have first : (drawn.grafted a imports).symbol module = ⟨a.symbols.size⟩ :=
    drawn.grafted_root
  have laterSymbol {id : SymbolId} (own : source.OwnsSymbol module id) :
      a.symbols.size ≤ ((drawn.grafted a imports).symbol id).index :=
    ((copied.newSymbol _).2 ⟨id, own, rfl⟩).1
  have laterScope {id : ScopeId} (own : source.OwnsScope module id) :
      a.scopes.size ≤ ((drawn.grafted a imports).scope id).index :=
    ((copied.newScope _).2 ⟨id, own, rfl⟩).1
  exact {
    root := rfl
    oldSymbol := fun {id sym} h => by
      refine symbol_declare.2 ⟨sym, ?_, (if_neg (ne_size_of_found h)).symm⟩
      exact (copied.keptSymbol id (symbol_inRange h)).trans h
    oldScope := fun {id table} h => by
      have kept := (copied.keptScope id (scope_inRange h)).trans h
      refine ⟨_, scope_declare.2 ⟨table, kept, rfl⟩, ?_⟩
      rw [first]
      by_cases isRoot : id = a.root
      · rw [if_pos isRoot]
        exact ⟨rfl, rfl, fun o => absurd isRoot o, fun _ => rfl⟩
      · rw [if_neg isRoot]
        exact ⟨rfl, rfl, fun _ => rfl, fun same => absurd same isRoot⟩
    newSymbol := fun {id sym} own h => by
      have copy := copied.symbol id sym own h
      refine ⟨_, symbol_declare.2 ⟨_, copy, rfl⟩, ?_⟩
      have renamed : (drawn.grafted a imports).symbol id = ⟨a.symbols.size⟩ ↔ id = module := by
        rw [← first]
        exact ⟨copied.injectiveSymbol id module own (.inl rfl), congrArg _⟩
      by_cases same : id = module
      · subst same
        simp only [if_pos (renamed.2 rfl)]
        exact ⟨(copied.outerScope _ (outside sym h)).symm, rfl, rfl⟩
      · simp only [if_neg (mt renamed.1 same), if_neg same]
        exact ⟨rfl, rfl, rfl⟩
    newScope := fun {id table} own h => by
      have o : (drawn.grafted a imports).scope id ≠ a.root := by
        intro same
        have late := laterScope own
        rw [same] at late
        omega
      exact scope_declare.2 ⟨_, copied.scope id table own h, (if_neg o).symm⟩
    symbolCases := fun {id sym} h => by
      obtain ⟨old, isOld, rfl⟩ := symbol_declare.1 h
      by_cases earlier : id.index < a.symbols.size
      · have kept := (copied.keptSymbol id earlier).symm.trans isOld
        rw [if_neg (ne_size_of_found kept)]
        exact .inl kept
      · exact .inr ((copied.newSymbol id).1 ⟨by omega, symbol_inRange isOld⟩)
    scopeCases := fun {id table} h => by
      obtain ⟨old, isOld, -⟩ := scope_declare.1 h
      by_cases earlier : id.index < a.scopes.size
      · exact .inl ⟨old, (copied.keptScope id earlier).symm.trans isOld⟩
      · exact .inr ((copied.newScope id).1 ⟨by omega, scope_inRange isOld⟩)
    outerScope := copied.outerScope _ fun own => own.ne_root rfl
    laterSymbol
    laterScope }

/-- A module that belongs to the root is loaded under the name it is declared with. -/
theorem Sound.loadedAs (sound : a.Sound) (soundSource : source.Sound)
    (drawn : Extracted source module image)
    (home : source.ModuleAt module) (enough : imports.length = image.imports.length)
    (known : ∀ id ∈ imports, id.index < a.symbols.size) (n : String) :
    source.LoadedAs module a ((drawn.result a imports).declare a.root n ⟨a.symbols.size⟩) n
      (drawn.grafted a imports) := by
  obtain ⟨table, rootFound, -⟩ := sound.root
  have entered := EnteredAs.of_extracted drawn
    (fun sym h own => own.ne_root (home.owner h)) (scope_inRange rootFound) imports n
  exact {entered with
    earlierSymbol := fun {earlier b} own proper ordered held => by
      by_cases inside : source.OwnsSymbol module earlier
      · exact drawn.grafted_symbol_lt inside own proper ordered
      · exact Nat.lt_of_lt_of_le (known _ (drawn.grafted_mem_imports enough ⟨held, inside⟩))
          (entered.laterSymbol own)
    outer := fun own h inside =>
      drawn.parent_of_ownsScope soundSource home own h inside }

variable {after : Arena} {n : String} {move : Relocation}

/-- The copy of a symbol has its form and its arguments. -/
theorem EnteredAs.formed (entered : source.EnteredAs module a after n move)
    (own : source.OwnsSymbol module id) (h : source.symbol id = .ok sym) :
    ∃ held, after.symbol (move.symbol id) = .ok held ∧ held.owner = move.scope sym.owner ∧
      held.name = (if id = module then n else sym.name) ∧ held.kind.form = move.form sym.kind.form ∧
      held.kind.arguments = sym.kind.arguments.map move.symbol := by
  obtain ⟨held, hh, owner, named, k⟩ := entered.newSymbol own h
  refine ⟨held, hh, owner, named, ?_⟩
  rw [k, ← Relocation.form_symbolKind, ← Relocation.arguments_symbolKind]
  split
  · exact ⟨form_asLoaded _, arguments_asLoaded _⟩
  · exact ⟨rfl, rfl⟩

namespace LoadedAs

variable (loaded : source.LoadedAs module a after n move)

include loaded

/-- The original of a loaded symbol, with what the two have in common. -/
theorem original (home : source.ModuleAt module)
    (own : source.OwnsSymbol module id) (h : after.symbol (move.symbol id) = .ok held) :
    ∃ sym, source.symbol id = .ok sym ∧ held.owner = move.scope sym.owner ∧
      held.name = (if id = module then n else sym.name) ∧ held.kind.form = move.form sym.kind.form ∧
      held.kind.scope? = sym.kind.scope?.map move.scope ∧
      held.kind.arguments = sym.kind.arguments.map move.symbol := by
  obtain ⟨sym, isSym⟩ := home.exists_symbol own
  obtain ⟨copy, copyFound, owner, named, form, arguments⟩ := loaded.formed own isSym
  cases h.symm.trans copyFound
  refine ⟨sym, isSym, owner, named, form, ?_, arguments⟩
  rw [← scope?_form, form, Relocation.scope?_form, scope?_form]

theorem originalScope (soundSource : source.Sound) {id : ScopeId} (own : source.OwnsScope module id)
    (h : after.scope (move.scope id) = .ok held) :
    ∃ table, source.scope id = .ok table ∧ held = move.scopeNode table := by
  obtain ⟨_, _, table, _, _, _, ht, _⟩ := soundSource.owner_of_ownsScope own
  have copy := loaded.newScope own ht
  cases h.symm.trans copy
  exact ⟨table, ht, rfl⟩

theorem find?_old {id : ScopeId} (h : a.scope id = .ok table) :
    ∃ held, after.scope id = .ok held ∧ ∀ key, held.find? key =
      if id = a.root ∧ key = n then some (move.symbol module) else table.find? key := by
  obtain ⟨held, hh, -, -, o, isRoot⟩ := loaded.oldScope h
  refine ⟨held, hh, fun key => ?_⟩
  by_cases same : id = a.root
  · rw [isRoot same, Scope.find?_put]
    simp only [same, true_and]
  · rw [o same, if_neg fun both => same both.1]

variable (sound : a.Sound) (soundSource : source.Sound) (home : source.ModuleAt module)

include sound soundSource home

/-- The entries of loaded and other scopes belong to them. -/
theorem entry (h : after.scope scope = .ok table) (member : (key, id) ∈ table.entries) :
    ∃ symbol, after.symbol id = .ok symbol ∧ symbol.owner = scope ∧ symbol.name = key := by
  rcases loaded.scopeCases h with ⟨old, isOld⟩ | ⟨original, own, rfl⟩
  · obtain ⟨held, hh, -, -, o, isRoot⟩ := loaded.oldScope isOld
    cases h.symm.trans hh
    have stays (earlier : (key, id) ∈ old.entries) : ∃ symbol, after.symbol id = .ok symbol ∧
        symbol.owner = scope ∧ symbol.name = key := by
      obtain ⟨symbol, isSym, belongs, named⟩ := sound.entry isOld earlier
      exact ⟨symbol, loaded.oldSymbol isSym, belongs, named⟩
    by_cases same : scope = a.root
    · rw [isRoot same] at member
      rcases Scope.mem_put member with new | earlier
      · cases new
        obtain ⟨symbol, isSym⟩ := home.exists_symbol (.inl rfl)
        obtain ⟨copy, copyFound, owner, named, -⟩ := loaded.newSymbol (.inl rfl) isSym
        refine ⟨copy, copyFound, ?_, by rw [named, if_pos rfl]⟩
        rw [owner, home.owner isSym, loaded.outerScope, same]
      · exact stays earlier
    · rw [o same] at member
      exact stays member
  · obtain ⟨old, isOld, rfl⟩ := loaded.originalScope soundSource own h
    obtain ⟨e, mem, same⟩ := mem_map.1 member
    cases same
    obtain ⟨symbol, isSym, belongs, named⟩ := soundSource.entry isOld mem
    have inside : source.OwnsScope module symbol.owner := belongs ▸ own
    obtain ⟨copy, copyFound, owner, copyName, -⟩ :=
      loaded.newSymbol (.inr ⟨symbol, isSym, inside⟩) isSym
    refine ⟨copy, copyFound, by rw [owner, belongs], ?_⟩
    rw [copyName, if_neg (home.ne_of_owner isSym inside), named]

/-- Loaded and other symbols own the scopes they open. -/
theorem opened (h : after.symbol id = .ok sym) (opens : sym.kind.scope? = some inner) : ∃ table,
      after.scope inner = .ok table ∧ table.owner = some id ∧ table.parent = some sym.owner := by
  rcases loaded.symbolCases h with old | ⟨original, own, rfl⟩
  · obtain ⟨table, ht, owner, parent⟩ := sound.opened old opens
    obtain ⟨held, hh, sameParent, sameOwner, -⟩ := loaded.oldScope ht
    exact ⟨held, hh, sameOwner.trans owner, sameParent.trans parent⟩
  · obtain ⟨pre, beforeFound, copyOwner, -, -, scope, -⟩ := loaded.original home own h
    rw [scope] at opens
    obtain ⟨inside, opensInside, rfl⟩ := Option.map_eq_some_iff.1 opens
    obtain ⟨table, ht, owner, parent⟩ := soundSource.opened beforeFound opensInside
    have insideOwned := soundSource.ownsScope_of_opened own beforeFound opensInside
    refine ⟨_, loaded.newScope insideOwned ht, ?_, ?_⟩
    · change table.owner.map move.symbol = _
      rw [owner]
      rfl
    · change table.parent.map move.scope = _
      rw [parent, copyOwner]
      rfl

/-- The arguments of loaded and other procedures are variables of their scopes. -/
theorem arguments (h : after.symbol id = .ok sym) (member : argument ∈ sym.kind.arguments) :
    ∃ inner, sym.kind.scope? = some inner ∧ after.IsVariableOf inner argument := by
  rcases loaded.symbolCases h with old | ⟨original, own, rfl⟩
  · obtain ⟨inner, opens, held, hh, belongs, form⟩ := sound.arguments old argument member
    exact ⟨inner, opens, held, loaded.oldSymbol hh, belongs, form⟩
  · obtain ⟨pre, beforeFound, -, -, -, scope, arguments⟩ := loaded.original home own h
    rw [arguments] at member
    obtain ⟨earlier, mem, rfl⟩ := mem_map.1 member
    obtain ⟨inner, opens, held, hh, belongs, isVariable⟩ :=
      soundSource.arguments beforeFound earlier mem
    have innerOwned := soundSource.ownsScope_of_opened own beforeFound opens
    obtain ⟨copy, copyFound, owner, -, form, -⟩ :=
      loaded.formed (.inr ⟨held, hh, belongs ▸ innerOwned⟩) hh
    refine ⟨move.scope inner, by rw [scope, opens]; rfl, copy, copyFound, ?_, ?_⟩
    · rw [owner, belongs]
    · rw [form, isVariable]
      rfl

omit home in
/-- Loaded and other scopes lie inside scopes with smaller identifiers. -/
theorem parent (h : after.scope scope = .ok table) (inside : table.parent = some outer) :
    outer.index < scope.index := by
  rcases loaded.scopeCases h with ⟨old, isOld⟩ | ⟨original, own, rfl⟩
  · obtain ⟨held, hh, sameParent, -⟩ := loaded.oldScope isOld
    cases h.symm.trans hh
    exact sound.parent isOld (sameParent ▸ inside)
  · obtain ⟨old, isOld, rfl⟩ := loaded.originalScope soundSource own h
    obtain ⟨pre, parent, rfl⟩ := Option.map_eq_some_iff.1 inside
    rcases loaded.outer own isOld parent with isRoot | ⟨-, smaller⟩
    · rw [isRoot, loaded.outerScope]
      obtain ⟨table, rootFound, -⟩ := sound.root
      exact Nat.lt_of_lt_of_le (scope_inRange rootFound) (loaded.laterScope own)
    · exact smaller

/-- What a loaded or other symbol extends or stands for was there before it. -/
theorem origin {origin : SymbolId} (h : after.symbol id = .ok sym)
    (refers : sym.kind.form.origin? = some origin) : origin.index < id.index := by
  rcases loaded.symbolCases h with old | ⟨original, own, rfl⟩
  · exact sound.origin old refers
  · obtain ⟨pre, beforeFound, -, -, form, -⟩ := loaded.original home own h
    rw [form, Relocation.origin?_form] at refers
    obtain ⟨earlier, refersEarlier, rfl⟩ := Option.map_eq_some_iff.1 refers
    have held : source.Holds module (.symbol earlier) :=
      .ofSymbol own beforeFound (origin?_mem_references refersEarlier)
    have proper : original ≠ module := by
      rintro rfl
      cases (home.origin? beforeFound).symm.trans refersEarlier
    exact loaded.earlierSymbol own proper (soundSource.origin beforeFound refersEarlier) held

omit home in
/-- The symbols that own loaded or other scopes open them. -/
theorem owner (h : after.scope scope = .ok table) (own : table.owner = some id) :
    ∃ sym, after.symbol id = .ok sym ∧ sym.kind.scope? = some scope := by
  rcases loaded.scopeCases h with ⟨old, isOld⟩ | ⟨original, ownedScope, rfl⟩
  · obtain ⟨held, hh, -, sameOwner, -⟩ := loaded.oldScope isOld
    cases h.symm.trans hh
    obtain ⟨sym, isSym, opens⟩ := sound.owner isOld (sameOwner ▸ own)
    exact ⟨sym, loaded.oldSymbol isSym, opens⟩
  · obtain ⟨holder, sym, old, holderOwned, holderFound, opens, isOld, owner, -⟩ :=
      soundSource.owner_of_ownsScope ownedScope
    cases (loaded.newScope ownedScope isOld).symm.trans h
    change old.owner.map move.symbol = some id at own
    rw [owner] at own
    cases own
    obtain ⟨copy, copyFound, -, -, form, -⟩ := loaded.formed holderOwned holderFound
    refine ⟨copy, copyFound, ?_⟩
    rw [← scope?_form, form, Relocation.scope?_form, scope?_form, opens]
    rfl

/-- The names of loaded and other symbols stand for something where the symbols belong. -/
theorem entered (h : after.symbol id = .ok sym) :
    ∃ table held, after.scope sym.owner = .ok table ∧ table.find? sym.name = some held := by
  rcases loaded.symbolCases h with old | ⟨original, own, rfl⟩
  · obtain ⟨table, st, ht, finds⟩ := sound.entered old
    obtain ⟨held, hh, findsHeld⟩ := loaded.find?_old ht
    by_cases replaced : sym.owner = a.root ∧ sym.name = n
    · exact ⟨held, _, hh, (findsHeld _).trans (if_pos replaced)⟩
    · exact ⟨held, st, hh, ((findsHeld _).trans (if_neg replaced)).trans finds⟩
  · obtain ⟨pre, beforeFound, owner, named, -⟩ := loaded.original home own h
    rw [owner, named]
    by_cases same : original = module
    · subst same
      obtain ⟨table, rootFound, -⟩ := sound.root
      obtain ⟨held, hh, findsHeld⟩ := loaded.find?_old rootFound
      rw [home.owner beforeFound, loaded.outerScope, if_pos rfl]
      exact ⟨held, _, hh, (findsHeld n).trans (if_pos ⟨rfl, rfl⟩)⟩
    · obtain ⟨table, st, ht, finds⟩ := soundSource.entered beforeFound
      have scopeOwned := ownsScope_owner own beforeFound same
      refine ⟨_, move.symbol st, loaded.newScope scopeOwned ht, ?_⟩
      rw [Relocation.find?_scopeNode, if_neg same, finds]
      rfl

/-- Outside the root, the names of loaded and other symbols that open scopes stand for them. -/
theorem registered (h : after.symbol id = .ok sym)
    (opens : sym.kind.scope? = some inner) (inside : sym.owner ≠ a.root) :
    ∃ table, after.scope sym.owner = .ok table ∧ table.find? sym.name = some id := by
  rcases loaded.symbolCases h with old | ⟨original, own, rfl⟩
  · obtain ⟨table, ht, finds⟩ := sound.registered old opens inside
    obtain ⟨held, hh, findsHeld⟩ := loaded.find?_old ht
    exact ⟨held, hh, ((findsHeld _).trans (if_neg fun both => inside both.1)).trans finds⟩
  · obtain ⟨pre, beforeFound, owner, named, -, scope, -⟩ := loaded.original home own h
    have proper : original ≠ module := by
      rintro rfl
      exact inside (by rw [owner, home.owner beforeFound, loaded.outerScope])
    have scopeOwned := ownsScope_owner own beforeFound proper
    rw [scope] at opens
    obtain ⟨within, opensWithin, -⟩ := Option.map_eq_some_iff.1 opens
    obtain ⟨table, ht, finds⟩ :=
      soundSource.registered beforeFound opensWithin scopeOwned.ne_root
    rw [owner, named]
    refine ⟨_, loaded.newScope scopeOwned ht, ?_⟩
    rw [Relocation.find?_scopeNode, if_neg proper, finds]
    rfl

/-- Loading a module that belongs to the root of a sound arena keeps an arena sound. -/
theorem sound_after : after.Sound where
  entry := loaded.entry sound soundSource home
  opened := loaded.opened sound soundSource home
  arguments h _ := loaded.arguments sound soundSource home h
  parent := loaded.parent sound soundSource
  origin := loaded.origin sound soundSource home
  root := by
    obtain ⟨table, rootFound, alone, free⟩ := sound.root
    obtain ⟨held, hh, parent, owner, -⟩ := loaded.oldScope rootFound
    rw [loaded.root]
    exact ⟨held, hh, parent.trans alone, owner.trans free⟩
  owner := loaded.owner sound soundSource
  entered := loaded.entered sound soundSource home
  registered h opens inside :=
    loaded.registered sound soundSource home h opens (loaded.root ▸ inside)

end LoadedAs

end Arena

theorem Arena.Sound.moduleAt (sound : source.Sound)
    (rootFound : source.scope source.root = .ok table) (mem : module ∈ table.symbols)
    (publishes : Library.publishes source module = .ok true) : source.ModuleAt module := by
  obtain ⟨e, member, rfl⟩ := mem_map.1 mem
  obtain ⟨sym, h, belongs, -⟩ := sound.entry rootFound member
  refine ⟨sym, ?_⟩
  unfold Library.publishes at publishes
  rw [Arena.kind_eq_ok.2 ⟨sym, h, rfl⟩] at publishes
  cases k : sym.kind with
  | moduleUnit info => exact ⟨info, h, belongs, rfl⟩
  | _ =>
    rw [k] at publishes
    cases publishes

end FortranSemantics
