import FortranSemantics.Proofs.Lawful.Relocation

/-!
# Loading keeps an arena lawful

A module that was taken out of a lawful arena and is put into another one under a free name leaves
that arena lawful. The copy belongs to what was not analysed here, with every expression that it
refers to, and nothing that was there comes to belong to it. What the module's imports stand for in
the new arena need not be procedures where they were.
-/

namespace FortranSemantics

open List Relocation

variable {id original : SymbolId} {sym held : Symbol} {scope : ScopeId} {node : ExprId}

namespace Arena

variable {t : Terms} {source a after : Arena} {module : SymbolId} {n : String} {move : Relocation}

/-! ## Loaded modules -/

/-- What is known of an arena into which a module was loaded under a free name, with every
expression that the module refers to. -/
structure Installs (source : Arena) (module : SymbolId) (arena after : Arena) (name : String)
    (move : Relocation) : Prop
    extends source.LoadedAs module arena after name move, source.Copies after move
    (source.Met module) where
  oldExpr : ∀ {id expr}, arena.expr id = .ok expr → after.expr id = .ok expr
  exprCases : ∀ {id expr}, after.expr id = .ok expr → arena.expr id = .ok expr ∨
    ∃ original, source.Met module (.expr original) ∧ move.expr original = id
  laterExpr : ∀ {id}, source.Met module (.expr id) → arena.exprs.size ≤ (move.expr id).index
  free : arena.Free arena.root name

theorem Met.holds {id : ExprId} (met : source.Met module (.expr id)) :
    source.Holds module (.expr id) := by
  rcases met with ⟨_, same, -⟩ | holds
  · cases same
  · exact holds

theorem Met.inRange {id : ExprId} (met : source.Met module (.expr id)) (ok : source.Lawful t) :
    id.index < source.exprs.size := by
  cases met.holds with
  | ofSymbol _ h occurs => exact ok.symbol_references h occurs
  | ofScope _ _ occurs => simp [Scope.references] at occurs
  | ofExpr _ h occurs => exact ok.expr_references h occurs

/-- A module that belongs to the root is loaded with all that it refers to. -/
theorem Sound.installs (sound : a.Sound) (soundSource : source.Sound)
    (drawn : Extracted source module image) (home : source.ModuleAt module)
    (enough : imports.length = image.imports.length)
    (known : ∀ id ∈ imports, id.index < a.symbols.size)
    (free : a.Free a.root n) : source.Installs module a
    ((drawn.result a imports).declare a.root n ⟨a.symbols.size⟩) n
      (drawn.grafted a imports) := by
  have copied : source.CopiedTo module a (drawn.result a imports)
      (drawn.grafted a imports) := drawn.copiedTo_result
  have loaded := sound.loadedAs soundSource drawn home enough known n
  have size : ((drawn.result a imports).declare a.root n ⟨a.symbols.size⟩).symbols.size =
      (drawn.result a imports).symbols.size := Array.size_modify
  exact {loaded with
    closed := fun met h => met.expr h
    expr := fun met h => copied.expr _ _ met.holds h
    symbol := fun {id} met => by
      rw [size]
      by_cases inside : source.OwnsSymbol module id
      · exact ((copied.newSymbol _).2 ⟨id, inside, rfl⟩).2
      · have holds : source.Holds module (.symbol id) := by
          rcases met with ⟨_, same, owned⟩ | holds
          · cases same
            exact absurd owned inside
          · exact holds
        have grown : a.symbols.size < (drawn.result a imports).symbols.size := by
          have first := (copied.newSymbol _).2 ⟨module, .inl rfl, drawn.grafted_root⟩
          exact first.2
        exact (known _ (drawn.grafted_mem_imports enough ⟨holds, inside⟩)).trans grown
    injective := fun left right => copied.injectiveExpr _ _ left.holds right.holds
    oldExpr := fun {id expr} h => (copied.keptExpr id (expr_inRange h)).trans h
    exprCases := fun {id expr} h => by
      change (drawn.result a imports).expr id = .ok expr at h
      by_cases earlier : id.index < a.exprs.size
      · exact .inl ((copied.keptExpr id earlier).symm.trans h)
      · obtain ⟨original, holds, same⟩ := (copied.newExpr id).1 ⟨by omega, expr_inRange h⟩
        exact .inr ⟨original, .inr holds, same⟩
    laterExpr := fun met => ((copied.newExpr _).2 ⟨_, met.holds, rfl⟩).1
    free }

namespace Installs

variable (installs : source.Installs module a after n move)

include installs

theorem copy (owned : source.OwnsSymbol module id) (h : source.symbol id = .ok sym)
    (proper : id ≠ module) :
    ∃ held, after.symbol (move.symbol id) = .ok held ∧ held.owner = move.scope sym.owner ∧
      held.kind = move.symbolKind sym.kind := by
  obtain ⟨held, isHeld, owner, -, named⟩ := installs.newSymbol owned h
  rw [if_neg proper] at named
  exact ⟨held, isHeld, owner, named⟩

theorem copy_module (home : source.ModuleAt module) : ∃ held,
    after.symbol (move.symbol module) = .ok held ∧
    held.owner = a.root ∧ held.kind.isForeign = true ∧ held.kind.isOrdinary = true ∧
      held.kind.scope?.isSome = true ∧ ∀ node, .expr node ∉ held.kind.references := by
  obtain ⟨sym, info, h, top, named⟩ := home.found
  obtain ⟨held, isHeld, owner, -, k⟩ := installs.newSymbol (.inl rfl) h
  rw [if_pos rfl, named] at k
  refine ⟨held, isHeld, by rw [owner, top, installs.outerScope], ?_⟩
  rw [k]
  refine ⟨?_, rfl, rfl, nofun⟩
  change (info.intrinsic || true) = true
  exact Bool.or_true _

/-- The scopes of a loaded module belong to what was not analysed here. -/
theorem alien (soundSource : source.Sound) (home : source.ModuleAt module)
    (owned : source.OwnsScope module scope) : after.Alien (move.scope scope) := by
  induction owned with
  | own h opens proper =>
    obtain ⟨table, isTable, owner, -⟩ := soundSource.opened h opens
    obtain ⟨held, isHeld, top, foreign, -⟩ := installs.copy_module home
    refine .unit (installs.newScope (.own h opens proper) isTable) ?_ isHeld
      (top.trans installs.root.symm) foreign
    change table.owner.map move.symbol = _
    rw [owner]
    rfl
  | nested outer opened proper ih =>
    have owned := OwnsScope.nested outer opened proper
    obtain ⟨_, entry, sym, _, _, h, belongs, opens⟩ := opened
    obtain ⟨table, isTable, owner, -⟩ := soundSource.opened h opens
    have inside : source.OwnsScope module sym.owner := belongs ▸ outer
    obtain ⟨held, isHeld, heldOwner, -⟩ :=
      installs.copy (.inr ⟨sym, h, inside⟩) h (home.ne_of_owner h inside)
    refine .inner (installs.newScope owned isTable) ?_ isHeld (by rw [heldOwner, belongs]; exact ih)
    change table.owner.map move.symbol = _
    rw [owner]
    rfl

/-! ## What was there before -/

theorem own (own : a.Own scope) : after.Own scope := by
  refine own.kept installs.root (fun {_ sym} h => ⟨sym, installs.oldSymbol h, .refl sym⟩)
    fun {_ table _} h owned => ?_
  obtain ⟨held, isHeld, -, same, -⟩ := installs.oldScope h
  exact ⟨held, isHeld, same.trans owned⟩

/-- The expressions that a loaded symbol refers to are loaded ones. -/
theorem references (home : source.ModuleAt module) (owned : source.OwnsSymbol module original)
    (h : after.symbol (move.symbol original) = .ok held)
    (occurs : .expr node ∈ held.kind.references) :
    ∃ old, source.Met module (.expr old) ∧ move.expr old = node := by
  obtain ⟨sym, isSym⟩ := home.exists_symbol owned
  by_cases proper : original = module
  · subst proper
    obtain ⟨again, refound, -, -, -, -, none⟩ := installs.copy_module home
    cases h.symm.trans refound
    exact absurd occurs (none node)
  · obtain ⟨again, refound, -, k⟩ := installs.copy owned isSym proper
    cases h.symm.trans refound
    rw [k] at occurs
    obtain ⟨old, mem, same⟩ := exists_expr_of_mem (move.references_symbolKind _ ▸ occurs)
    exact ⟨old, .inr (.ofSymbol owned isSym mem), same⟩

section

variable (ok : a.Lawful t)

include ok

/-- What belongs to what was not analysed here belonged to it before or was loaded. -/
theorem borrowed (lawfulSource : source.Lawful t) (home : source.ModuleAt module)
    (borrowed : after.Borrowed node) :
    a.Borrowed node ∨ ∃ old, source.Met module (.expr old) ∧ move.expr old = node := by
  induction borrowed with
  | ofSymbol h foreign occurs =>
    rcases installs.symbolCases h with old | ⟨original, owned, rfl⟩
    · exact .inl (.ofSymbol old (fun own => foreign (installs.own own)) occurs)
    · exact .inr (installs.references home owned h occurs)
  | ofExpr _ h occurs ih =>
    rcases ih with earlier | ⟨original, met, rfl⟩
    · obtain ⟨expr, foundBefore⟩ := exists_expr (earlier.inRange ok)
      cases (installs.oldExpr foundBefore).symm.trans h
      exact .inl (.ofExpr earlier foundBefore occurs)
    · obtain ⟨expr, foundBefore⟩ := exists_expr (Met.inRange met lawfulSource)
      cases (installs.expr met foundBefore).symm.trans h
      obtain ⟨old, mem, same⟩ := exists_expr_of_mem (move.references_node _ ▸ occurs)
      exact .inr ⟨old, installs.closed met foundBefore _ mem, same⟩

theorem reaches_old (lt : first.index < a.exprs.size) (nested : after.Reaches first last) :
    a.Reaches first last := by
  induction nested with
  | refl => exact .refl
  | tail _ step ih =>
    obtain ⟨expr, h, mem⟩ := step
    obtain ⟨old, isOld⟩ := exists_expr (ok.reaches_inRange lt ih)
    cases (installs.oldExpr isOld).symm.trans h
    exact ih.tail ⟨expr, isOld, mem⟩

/-- An arena comes before the one into which a module was loaded. -/
theorem precedes (lawfulSource : source.Lawful t) (home : source.ModuleAt module) :
    a.Precedes after where
  root := installs.root
  expr {_ expr} h := ⟨expr, installs.oldExpr h, .refl expr⟩
  reaches lt nested := .inl (installs.reaches_old ok lt nested)
  within nested := nested.kept fun {_ expr} h => ⟨expr, installs.oldExpr h, List.Subset.refl _⟩
  native {id} lt native node nested isBorrowed := by
    have reached := installs.reaches_old ok lt nested
    rcases installs.borrowed ok lawfulSource home isBorrowed with earlier | ⟨old, met, rfl⟩
    · exact native node reached earlier
    · -- nothing that was there has a loaded operand
      exact absurd (ok.reaches_inRange lt reached) ((installs.laterExpr met).not_gt)
  symbol {_ sym} h := ⟨sym, installs.oldSymbol h, .refl sym⟩
  scope {id table} h := by
    obtain ⟨held, isHeld, parent, owner, other, -⟩ := installs.oldScope h
    refine ⟨held, isHeld, parent, fun owned => ?_⟩
    have inside : id ≠ a.root := by
      rintro rfl
      obtain ⟨top, topFound, -, unowned⟩ := ok.sound.root
      cases h.symm.trans topFound
      exact owned unowned
    rw [other inside]
    exact ⟨rfl, fun _ _ stands _ => stands⟩

end

theorem later_owner (home : source.ModuleAt module) (owned : source.OwnsSymbol module original)
    (proper : original ≠ module) (h : after.symbol (move.symbol original) = .ok held) :
    a.scopes.size ≤ held.owner.index := by
  obtain ⟨sym, isSym⟩ := home.exists_symbol owned
  obtain ⟨again, refound, owner, -⟩ := installs.copy owned isSym proper
  cases h.symm.trans refound
  rw [owner]
  exact installs.laterScope (ownsScope_owner owned isSym proper)

theorem grown (ok : a.Lawful t) (lawfulSource : source.Lawful t) (home : source.ModuleAt module) :
    a.Grown after where
  toPrecedes := installs.precedes ok lawfulSource home
  ordinary {_ sym} h special := by
    rcases installs.symbolCases h with old | ⟨original, owned, rfl⟩
    · exact .inr ⟨sym, old, special⟩
    by_cases proper : original = module
    · subst proper
      obtain ⟨again, refound, -, -, ordinary, -⟩ := installs.copy_module home
      cases h.symm.trans refound
      cases ordinary.symm.trans special
    · exact .inl (installs.later_owner home owned proper h)

/-! ## What was loaded -/

theorem isTyped (home : source.ModuleAt module) (owned : source.OwnsSymbol module id)
    (typed : source.IsTyped id) : after.IsTyped (move.symbol id) := by
  obtain ⟨sym, info, h, named, some⟩ := typed
  have proper : id ≠ module := by
    rintro rfl
    obtain ⟨again, unit, refound, -, isModule⟩ := home.found
    cases h.symm.trans refound
    cases named.symm.trans isModule
  obtain ⟨held, isHeld, -, k⟩ := installs.copy owned h proper
  rw [named] at k
  exact ⟨held, _, isHeld, k, (Option.isSome_map ..).trans some⟩

theorem lawfulVariable (lenient : t.lenient)
    (areMet : ∀ r ∈ (SymbolKind.variable info).references, source.Met module r)
    (law : source.LawfulVariable t info) :
    ∀ copy, move.symbolKind (.variable info) = .variable copy → after.LawfulVariable t copy := by
  rintro _ ⟨⟩
  have met {id : ExprId} (occurs : .expr id ∈ (SymbolKind.variable info).references) :=
    areMet _ occurs
  exact {
    type := fun type isType => by
      obtain ⟨old, isOld, rfl⟩ := Option.map_eq_some_iff.1 isType
      refine installs.lawfulType lenient (fun r mem => areMet r ?_) (law.type old isOld)
      refine mem_append_left _ (mem_append_left _ (mem_append_left _ ?_))
      exact mem_flatMap.2 ⟨old, Option.mem_toList.2 isOld, mem⟩
    typed := fun none => by
      rw [Option.isSome_map]
      exact law.typed (Option.map_eq_none_iff.1 none)
    init := fun id isInit => by
      obtain ⟨old, isOld, rfl⟩ := Option.map_eq_some_iff.1 isInit
      refine installs.inRange (met ?_) (law.init old isOld)
      exact mem_append_left _ (mem_append_left _ (mem_append_right _ (expr_mem_map_toList.2 isOld)))
    value := fun id isValue => by
      obtain ⟨old, isOld, rfl⟩ := Option.map_eq_some_iff.1 isValue
      refine installs.isConstant (met ?_) (law.value old isOld)
      exact mem_append_left _ (mem_append_right _ (expr_mem_map_toList.2 isOld))
    aliased := fun id isAlias => by
      obtain ⟨old, isOld, rfl⟩ := Option.map_eq_some_iff.1 isAlias
      exact installs.inRange (met (mem_append_right _ (expr_mem_map_toList.2 isOld)))
        (law.aliased old isOld) }

section

variable (lawfulSource : source.Lawful t) (home : source.ModuleAt module)

include lawfulSource home

theorem lawfulBody (lenient : t.lenient)
    (ownsOwner : source.OwnsScope module owner) (ownsScope : source.OwnsScope module scope)
    (areMet : ∀ r ∈ Stmt.referencesOf body, source.Met module r)
    (law : source.LawfulBody t owner scope body) :
    after.LawfulBody t (move.scope owner) (move.scope scope) (move.stmts body) := by
  have met {id : ExprId} (mem : id ∈ Stmt.exprsOf body) : source.Met module (.expr id) :=
    areMet _ ((Stmt.expr_mem_referencesOf body).2 mem)
  exact {
    exprs := fun id mem => by
      obtain ⟨old, member, rfl⟩ := move.mem_exprsOf_stmts mem
      exact installs.inRange (met member) (law.exprs old member)
    separate := fun target v mem => by
      rw [demandsOf_stmts] at mem
      obtain ⟨demand, member, same⟩ := mem_map.1 mem
      cases demand <;> cases same
      have both := Stmt.mem_exprsOf_of_assigned body member
      exact installs.separate lawfulSource (met both.1) (met both.2) (law.exprs _ both.1)
        (law.exprs _ both.2) (law.separate _ _ member)
    typed := fun _ _ => .inl lenient
    blocks := fun block mem => by
      rw [blocksOf_stmts] at mem
      obtain ⟨old, member, rfl⟩ := mem_map.1 mem
      obtain ⟨inner, sym, h, belongs, form⟩ := law.blocks old member
      have inside : source.OwnsScope module sym.owner := belongs ▸ ownsScope
      obtain ⟨held, isHeld, heldOwner, k⟩ :=
        installs.copy (.inr ⟨sym, h, inside⟩) h (home.ne_of_owner h inside)
      refine ⟨move.scope inner, held, isHeld, by rw [heldOwner, belongs], ?_⟩
      rw [k, move.form_symbolKind, form]
      rfl
    side := .inr (.inl (installs.alien lawfulSource.sound home ownsOwner)) }

/-- What a loaded symbol names is lawful, where type-bound procedures and candidates need not be
procedures. -/
theorem lawfulKind (lenient : t.lenient) (owned : source.OwnsSymbol module id)
    (h : source.symbol id = .ok sym) (proper : id ≠ module) :
    after.LawfulKind t (move.scope sym.owner) (move.symbolKind sym.kind) := by
  have areMet : ∀ r ∈ sym.kind.references, source.Met module r :=
    fun r mem => .inr (.ofSymbol owned h mem)
  have law := lawfulSource.kind h
  have ownsOwner := ownsScope_owner owned h proper
  have ownsInner {inner : ScopeId} (opens : sym.kind.scope? = some inner) :
      source.OwnsScope module inner :=
    lawfulSource.sound.ownsScope_of_opened owned h opens
  cases named : sym.kind with
  | «variable» info =>
    rw [named] at law areMet
    exact installs.lawfulVariable lenient areMet law _ rfl
  | function info =>
    rw [named] at law areMet ownsInner
    exact installs.lawfulBody lawfulSource home lenient ownsOwner (ownsInner rfl)
      (fun r mem => areMet r (mem_append_right _ mem)) law
  | program info | block info =>
    rw [named] at law areMet ownsInner
    exact installs.lawfulBody lawfulSource home lenient ownsOwner (ownsInner rfl) areMet law
  | generic info =>
    rw [named] at areMet
    intro proc mem
    obtain ⟨old, member, rfl⟩ := mem_map.1 mem
    exact ⟨installs.symbol (areMet _ (mem_map_of_mem member)), .inl lenient⟩
  | binding info =>
    rw [named] at areMet
    exact ⟨installs.symbol (areMet _ (mem_singleton_self _)), .inl lenient⟩
  | derivedType info =>
    rw [named] at law ownsInner
    intro n mem
    obtain ⟨table, member, isTable, tableOwned, stands, typed⟩ := law n mem
    obtain ⟨held, isHeld, belongs, -⟩ := lawfulSource.sound.entry isTable
      (Scope.mem_of_find? stands)
    have ownsScope : source.OwnsScope module info.scope := ownsInner rfl
    refine ⟨_, move.symbol member, installs.newScope ownsScope isTable, ?_, ?_, ?_⟩
    · exact fun none => tableOwned (Option.map_eq_none_iff.1 none)
    · rw [find?_scopeNode, stands]
      rfl
    · exact installs.isTyped home (.inr ⟨held, isHeld, belongs ▸ ownsScope⟩) typed
  | moduleUnit info =>
    rw [named] at law
    exact (congrArg move.scope law).trans (installs.outerScope.trans installs.root.symm)
  | imported info => trivial

end

/-! ## The whole arena -/

/-- Names stand for what they stood for: that of the module was free. -/
theorem stands {id : ScopeId} {name : String} {member : SymbolId}
    (stands : a.find? id name = .ok (some member)) : after.find? id name = .ok (some member) := by
  obtain ⟨table, isTable, stands⟩ := find?_eq_some.1 stands
  obtain ⟨held, isHeld, finds⟩ := installs.find?_old isTable
  refine find?_eq_some.2 ⟨held, isHeld, ?_⟩
  rw [finds, if_neg, stands]
  rintro ⟨top, same⟩
  obtain ⟨again, refound, free⟩ := installs.free
  rw [top] at isTable
  cases isTable.symm.trans refound
  rw [← same, stands] at free
  cases free

theorem stands_module (ok : a.Sound) (home : source.ModuleAt module)
    (owned : source.OwnsSymbol module module) (h : after.symbol (move.symbol module) = .ok sym) :
    after.find? sym.owner sym.name = .ok (some (move.symbol module)) := by
  obtain ⟨table, rootFound, -⟩ := ok.root
  obtain ⟨held, isHeld, finds⟩ := installs.find?_old rootFound
  obtain ⟨pre, beforeFound, owner, called, -⟩ := installs.original home owned h
  rw [owner, home.owner beforeFound, installs.outerScope, called, if_pos rfl]
  exact find?_eq_some.2 ⟨held, isHeld, (finds n).trans (if_pos ⟨rfl, rfl⟩)⟩

/-- Loading a module of a lawful arena leads to a lawful one, where bindings and candidates need not
be procedures. -/
theorem leads (lenient : t.lenient) (ok : a.Lawful t) (lawfulSource : source.Lawful t)
    (home : source.ModuleAt module) : a.Leads t after := by
  have pre := installs.precedes ok lawfulSource home
  have lawful : after.Lawful t := {
    sound := installs.toLoadedAs.sound_after ok.sound lawfulSource.sound home
    expr := fun h => by
      rcases installs.exprCases h with old | ⟨original, met, rfl⟩
      · exact pre.lawfulExpr (ok.expr old)
      · obtain ⟨expr, foundBefore⟩ := exists_expr (Met.inRange met lawfulSource)
        cases (installs.expr met foundBefore).symm.trans h
        exact installs.lawfulExpr lenient met foundBefore (lawfulSource.expr foundBefore)
    depth := fun lt => by
      obtain ⟨expr, h⟩ := exists_expr lt
      rcases installs.exprCases h with old | ⟨original, met, rfl⟩
      · exact (pre.within (ok.depth (expr_inRange old))).bounded
      · exact (installs.within met (lawfulSource.depth (Met.inRange met lawfulSource))).bounded
    kind := fun {id sym} h => by
      rcases installs.symbolCases h with old | ⟨original, owned, rfl⟩
      · exact pre.lawfulKind (ok.kind old)
      obtain ⟨held, isHeld⟩ := home.exists_symbol owned
      by_cases proper : original = module
      · subst proper
        obtain ⟨again, info, refound, top, isModule⟩ := home.found
        obtain ⟨copy, copyFound, owner, -, kind⟩ := installs.newSymbol owned refound
        cases h.symm.trans copyFound
        rw [kind, if_pos rfl, isModule, owner, top]
        exact installs.outerScope.trans installs.root.symm
      · obtain ⟨copy, copyFound, owner, kind⟩ := installs.copy owned isHeld proper
        cases h.symm.trans copyFound
        rw [owner, kind]
        exact installs.lawfulKind lawfulSource home lenient owned isHeld proper
    helpers := fun {scope table} h entry mem helper isHelper => by
      rcases installs.scopeCases h with ⟨old, isOld⟩ | ⟨original, owned, rfl⟩
      · obtain ⟨held, isHeld, -, -, other, isRoot⟩ := installs.oldScope isOld
        cases isHeld.symm.trans h
        have same : table.helpers = old.helpers := by
          by_cases top : scope = a.root
          · rw [isRoot top]
            rfl
          · rw [other top]
        rw [same] at mem
        exact (ok.helpers isOld entry mem helper isHelper).trans_le pre.symbols_le
      · -- helpers are not loaded
        obtain ⟨table, -, rfl⟩ := installs.originalScope lawfulSource.sound owned h
        cases mem
    registered := fun {id sym inner} h opens settled => by
      rcases installs.symbolCases h with old | ⟨original, owned, rfl⟩
      · exact find?_eq_some.1 (installs.stands (find?_eq_some.2 (ok.registered old opens settled)))
      by_cases proper : original = module
      · subst proper
        exact find?_eq_some.1 (installs.stands_module ok.sound home owned h)
      · refine installs.toLoadedAs.registered ok.sound lawfulSource.sound home h opens fun top => ?_
        have late := installs.later_owner home owned proper h
        rw [top] at late
        exact absurd ok.sound.root_inRange late.not_gt
    units := fun {id sym} h top => by
      rcases installs.symbolCases h with old | ⟨original, owned, rfl⟩
      · exact ok.units old (top.trans installs.root)
      by_cases proper : original = module
      · subst proper
        obtain ⟨again, refound, -, -, -, opens, -⟩ := installs.copy_module home
        cases h.symm.trans refound
        exact opens
      · have late := installs.later_owner home owned proper h
        rw [top, installs.root] at late
        exact absurd ok.sound.root_inRange late.not_gt }
  refine ⟨lawful, installs.grown ok lawfulSource home, fun _ => installs.stands,
    fun {id sym} h isNew _ inRange => ?_,
    pre.fresh (fun {block scope id sym} has isNew h same => ?_)
    fun {id sym other held} h isNew native guarded => ?_⟩
  · rcases installs.symbolCases h with old | ⟨original, owned, rfl⟩
    · exact absurd (symbol_inRange old) isNew.not_gt
    by_cases proper : original = module
    · subst proper
      exact installs.stands_module ok.sound home owned h
    · exact absurd inRange ((installs.later_owner home owned proper h).not_gt)
  · -- a scope that was there has the owner it had
    obtain ⟨tb, ht, owner⟩ := lawful.sound.block_owns has
    obtain ⟨old, _, isOld, -⟩ := ok.sound.entered h
    obtain ⟨held, isHeld, -, kept, -⟩ := installs.oldScope isOld
    rw [same] at isHeld
    cases ht.symm.trans isHeld
    obtain ⟨_, refound, -⟩ := ok.sound.owner isOld (kept.symm.trans owner)
    exact absurd (symbol_inRange refound) isNew.not_gt
  · rcases installs.symbolCases h with old | ⟨original, owned, rfl⟩
    · exact absurd (symbol_inRange old) isNew.not_gt
    obtain ⟨before, isBefore⟩ := home.exists_symbol owned
    by_cases proper : original = module
    · subst proper
      obtain ⟨again, info, refound, -, isModule⟩ := home.found
      obtain ⟨copy, copyFound, -, -, kind⟩ := installs.newSymbol owned refound
      cases h.symm.trans copyFound
      rw [kind, if_pos rfl, isModule] at guarded
      exact guarded.elim
    · obtain ⟨copy, copyFound, owner, -⟩ := installs.copy owned isBefore proper
      cases h.symm.trans copyFound
      rw [owner] at native
      exact absurd (installs.alien lawfulSource.sound home
        (ownsScope_owner owned isBefore proper)) native

end Installs

end Arena

end FortranSemantics
