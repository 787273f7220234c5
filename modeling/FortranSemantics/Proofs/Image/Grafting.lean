import FortranSemantics.Image.Grafting
import FortranSemantics.Proofs.Arena.Edit
import FortranSemantics.Proofs.Image.Extraction

/-!
# Putting the image of a module into another arena

An image that was taken out of one arena and put into another leaves a copy of the module there: the
module's symbols, scopes and expressions, with every identifier replaced, and with a symbol of the
new arena in the place of each symbol that does not belong to the module. What the arena held before
stays as it was. The copy is marked as loaded; nothing else differs.
-/

namespace FortranSemantics

open List Arena

namespace Extracted

variable {a target : Arena} {root : SymbolId} {image : Image} {imports : List SymbolId}
  (drawn : Extracted a root image)

/-- The symbols of the module, in the order of their numbers. -/
def members (drawn : Extracted a root image) : List SymbolId :=
  a.ownedBy root drawn.scopes

/-- The symbols that the module refers to without owning them, in the order of their numbers. -/
def foreign (drawn : Extracted a root image) : List SymbolId :=
  drawn.numbering.symbols.drop drawn.members.length

/-- What becomes of the identifiers of a module that is put into an arena. -/
def grafted (drawn : Extracted a root image) (target : Arena) (imports : List SymbolId) :
    Relocation where
  symbol id :=
    let number := drawn.numbering.symbols.idxOf id
    if number < drawn.members.length then ⟨target.symbols.size + number⟩
    else imports.getD (number - drawn.members.length) default
  scope id :=
    let number := (drawn.numbering.scopes.idxOf? id).getD 0
    if number = 0 then target.root else ⟨target.scopes.size + (number - 1)⟩
  expr id := ⟨target.exprs.size + drawn.numbering.exprs.idxOf id⟩

theorem members_append_foreign : drawn.members ++ drawn.foreign = drawn.numbering.symbols := by
  obtain ⟨rest, appended⟩ := drawn.owned
  have same : drawn.foreign = rest := by
    rw [foreign, ← appended]
    exact drop_left
  rw [same]
  exact appended

theorem size_symbols : image.arena.symbols.size = drawn.members.length := by
  rw [drawn.imageSymbols, size_toArray, length_map]
  exact (mapM_eq_ok.1 drawn.symbolsFound).length_eq.symm

theorem length_foreign : drawn.foreign.length = image.imports.length :=
  (mapM_eq_ok.1 drawn.imports).length_eq

theorem mem_members {id : SymbolId} : id ∈ drawn.members ↔ a.OwnsSymbol root id :=
  mem_ownedBy drawn.listed

/-- The foreign symbols are those that occur in the module without belonging to it. -/
theorem mem_foreign {id : SymbolId} : id ∈ drawn.foreign ↔ a.Foreign root id := by
  have distinct := drawn.distinctSymbols
  have known := drawn.knows_iff (.symbol id)
  change id ∈ drawn.numbering.symbols ↔ _ at known
  rw [← drawn.members_append_foreign] at distinct known
  constructor
  · intro member
    have notOwned : ¬ a.OwnsSymbol root id := fun own =>
      disjoint_of_nodup_append distinct (drawn.mem_members.2 own) member
    rcases known.1 (mem_append_right _ member) with ⟨_, same, own⟩ | holds
    · cases same
      exact absurd own notOwned
    · exact ⟨holds, notOwned⟩
  · rintro ⟨holds, notOwned⟩
    rcases mem_append.1 (known.2 (.inr holds)) with member | member
    · exact absurd (drawn.mem_members.1 member) notOwned
    · exact member

theorem holds_expr {id : ExprId} : id ∈ drawn.numbering.exprs ↔ a.Holds root (.expr id) := by
  refine (drawn.knows_iff (.expr id)).trans ⟨?_, .inr⟩
  rintro (⟨_, same, -⟩ | holds)
  · cases same
  · exact holds

/-- Everything that occurs in the module is carried from its number to its place in the new arena.
-/
theorem carries (enough : imports.length = image.imports.length) (met : a.Met root r) :
    (image.graftMap target imports).Carries drawn.numbering.relocation
    (drawn.grafted target imports) r := by
  have known := (drawn.knows_iff r).2 met
  cases r with
  | expr id => rfl
  | symbol id =>
    have bound : drawn.numbering.symbols.idxOf id < drawn.members.length +
        drawn.foreign.length := by
      rw [← length_append, drawn.members_append_foreign]
      exact idxOf_lt_length_of_mem known
    rw [drawn.length_foreign] at bound
    simp only [Renumbering.Carries, Image.graftMap, Numbering.relocation, grafted,
      drawn.size_symbols]
    by_cases own : drawn.numbering.symbols.idxOf id < drawn.members.length
    · rw [if_pos own, if_pos own]
      rfl
    · have lt : drawn.numbering.symbols.idxOf id - drawn.members.length < imports.length := by omega
      rw [if_neg own, if_neg own, getD_eq_getElem?_getD, getElem?_eq_getElem lt]
      rfl

/-- The arena after the module's nodes were appended. -/
def appended (drawn : Extracted a root image) (target : Arena) (imports : List SymbolId) :
    Arena where
  symbols := target.symbols ++
    (drawn.symbols.map (drawn.grafted target imports).symbolNode).toArray
  scopes := target.scopes ++
    (drawn.tables.map (drawn.grafted target imports).scopeNode).toArray
  exprs := target.exprs ++ (drawn.exprs.map (drawn.grafted target imports).node).toArray
  root := target.root

/-- Appending an image succeeds when there is a symbol for every import, and appends the module's
nodes. -/
theorem appendTo_eq_ok (enough : imports.length = image.imports.length) :
    image.appendTo imports target = .ok (drawn.appended target imports) := by
  have carried := (image.graftMap target imports).meets_carried drawn.numbering.relocation
    (drawn.grafted target imports)
  have carriesScope (id : ScopeId) : (image.graftMap target imports).Carried
      drawn.numbering.relocation
      (drawn.grafted target imports) ScopeId _ [] fun relocation =>
      relocation.scope id := fun _ => rfl
  have symbols : image.arena.symbols.mapM (image.graftMap target imports).symbolNode =
      .ok (drawn.symbols.map (drawn.grafted target imports).symbolNode).toArray := by
    rw [Array.mapM_eq_mapM_toList, drawn.imageSymbols, toList_toArray]
    refine congrArg _ (carried.mapM drawn.symbols (carried.symbolNode carriesScope)
      fun r occurs => ?_)
    obtain ⟨sym, mem, occurs⟩ := mem_flatMap.1 occurs
    obtain ⟨id, own, h⟩ := (mem_answers drawn.symbolsFound).1 mem
    exact drawn.carries enough (.inr (.ofSymbol (drawn.mem_members.1 own) h occurs))
  have scopes : (image.arena.scopes.toList.drop 1).mapM (image.graftMap target imports).scopeNode =
      .ok (drawn.tables.map (drawn.grafted target imports).scopeNode) := by
    rw [drawn.imageScopes, toList_toArray, drop_one, tail_cons]
    refine carried.mapM drawn.tables (carried.scopeNode carriesScope) fun r occurs => ?_
    obtain ⟨tb, mem, occurs⟩ := mem_flatMap.1 occurs
    obtain ⟨id, own, h⟩ := (mem_answers drawn.tablesFound).1 mem
    exact drawn.carries enough (.inr (.ofScope (drawn.listed.mem_tail.1 own) h occurs))
  have exprs : image.arena.exprs.mapM (image.graftMap target imports).node =
      .ok (drawn.exprs.map (drawn.grafted target imports).node).toArray := by
    rw [Array.mapM_eq_mapM_toList, drawn.imageExprs, toList_toArray]
    refine congrArg _ (carried.mapM drawn.exprs carried.node fun r occurs => ?_)
    obtain ⟨expr, mem, occurs⟩ := mem_flatMap.1 occurs
    obtain ⟨id, numbered, h⟩ := (mem_answers drawn.exprsFound).1 mem
    exact drawn.carries enough (((drawn.knows_iff (.expr id)).1 numbered).expr h r occurs)
  have asArray (items : List Scope) : target.scopes ++ items = target.scopes ++ items.toArray :=
    Array.ext' (by simp)
  unfold Image.appendTo
  simp only [symbols, scopes, exprs, appended, ← asArray]
  rfl

theorem grafted_root : (drawn.grafted target imports).symbol root = ⟨target.symbols.size⟩ := by
  have first : drawn.numbering.symbols.idxOf root = 0 := by
    rw [← drawn.members_append_foreign]
    exact idxOf_cons_self
  simp only [grafted, first]
  rw [if_pos (by simp [members, ownedBy])]
  rfl

theorem grafted_symbol {id : SymbolId} (own : a.OwnsSymbol root id) :
    (drawn.grafted target imports).symbol id =
      ⟨target.symbols.size + drawn.members.idxOf id⟩ := by
  have mem := drawn.mem_members.2 own
  have number : drawn.numbering.symbols.idxOf id = drawn.members.idxOf id := by
    rw [← drawn.members_append_foreign]
    exact idxOf_append_of_mem mem
  simp only [grafted, number]
  rw [if_pos (idxOf_lt_length_of_mem mem)]

end Extracted

/-- What a symbol names, marked as loaded if it is a module. -/
def SymbolKind.asLoaded : SymbolKind → SymbolKind
  | .moduleUnit info => .moduleUnit { info with loaded := true }
  | kind => kind

/-- The symbol marked as loaded, if it is a module. -/
def Symbol.asLoaded (symbol : Symbol) : Symbol :=
  { symbol with kind := symbol.kind.asLoaded }

namespace Extracted

variable {a target : Arena} {root : SymbolId} {image : Image} {imports : List SymbolId}
  (drawn : Extracted a root image)

/-- The arena after the module was put into it. -/
def result (drawn : Extracted a root image) (target : Arena) (imports : List SymbolId) : Arena :=
  let appended := drawn.appended target imports
  { appended with symbols := appended.symbols.modify target.symbols.size Symbol.asLoaded }

theorem size_appended : (drawn.appended target imports).symbols.size = target.symbols.size +
    drawn.members.length := by
  have counted := (mapM_eq_ok.1 drawn.symbolsFound).length_eq
  change _ = target.symbols.size + (a.ownedBy root drawn.scopes).length
  simp [appended, counted]

/-- Putting an image into an arena succeeds when there is a symbol for every import. -/
theorem graft_eq_ok (enough : imports.length = image.imports.length) : image.graft imports target =
      .ok ((drawn.grafted target imports).symbol root) (drawn.result target imports) := by
  have nonempty : 0 < drawn.members.length := by simp [members, ownedBy]
  have lt : target.symbols.size < (drawn.appended target imports).symbols.size := by
    rw [drawn.size_appended]
    omega
  have first : (image.graftMap target imports).symbol image.root = .ok ⟨target.symbols.size⟩ := by
    simp only [Image.graftMap, drawn.imageRoot, drawn.size_symbols]
    rw [if_pos nonempty]
    rfl
  unfold Image.graft
  simp only [run_bind_eq_ok, run_question_eq_ok]
  refine ⟨target, target, rfl, _, target, ⟨drawn.appendTo_eq_ok enough, rfl⟩, (), _, rfl, _, _,
    ⟨first, rfl⟩, (), _, Edit.modifySymbol_eq_ok.2 ⟨lt, rfl⟩, ?_⟩
  rw [drawn.grafted_root]
  rfl

end Extracted

/-- Whether an arena came out of another one by appending a copy of a module of a third: nothing
else changed, the new nodes are the module's own under a renaming that is injective on them, every
node of the module was copied with identifiers replaced, and the module is marked as loaded. -/
structure Arena.CopiedTo (arena : Arena) (root : SymbolId) (before after : Arena)
    (relocation : Relocation) : Prop where
  keptRoot : after.root = before.root
  keptSymbol : ∀ id : SymbolId, id.index < before.symbols.size → after.symbol id = before.symbol id
  keptScope : ∀ id : ScopeId, id.index < before.scopes.size → after.scope id = before.scope id
  keptExpr : ∀ id : ExprId, id.index < before.exprs.size → after.expr id = before.expr id
  newSymbol : ∀ new : SymbolId,
    (before.symbols.size ≤ new.index ∧ new.index < after.symbols.size) ↔
      ∃ id, arena.OwnsSymbol root id ∧ relocation.symbol id = new
  newScope : ∀ new : ScopeId,
    (before.scopes.size ≤ new.index ∧ new.index < after.scopes.size) ↔
      ∃ id, arena.OwnsScope root id ∧ relocation.scope id = new
  newExpr : ∀ new : ExprId,
    (before.exprs.size ≤ new.index ∧ new.index < after.exprs.size) ↔
      ∃ id, arena.Holds root (.expr id) ∧ relocation.expr id = new
  injectiveSymbol : ∀ left right, arena.OwnsSymbol root left → arena.OwnsSymbol root right →
    relocation.symbol left = relocation.symbol right → left = right
  injectiveScope : ∀ left right, arena.OwnsScope root left → arena.OwnsScope root right →
    relocation.scope left = relocation.scope right → left = right
  injectiveExpr : ∀ left right, arena.Holds root (.expr left) → arena.Holds root (.expr right) →
    relocation.expr left = relocation.expr right → left = right
  outerScope : ∀ id, ¬ arena.OwnsScope root id → relocation.scope id = before.root
  symbol : ∀ id symbol, arena.OwnsSymbol root id → arena.symbol id = .ok symbol →
    after.symbol (relocation.symbol id) =
      .ok
      (if id = root then (relocation.symbolNode symbol).asLoaded else relocation.symbolNode symbol)
  scope : ∀ id scope, arena.OwnsScope root id → arena.scope id = .ok scope →
    after.scope (relocation.scope id) = .ok (relocation.scopeNode scope)
  expr : ∀ id expr, arena.Holds root (.expr id) → arena.expr id = .ok expr →
    after.expr (relocation.expr id) = .ok (relocation.node expr)

namespace Extracted

variable {a target : Arena} {root : SymbolId} {image : Image} {imports : List SymbolId}
  (drawn : Extracted a root image)

theorem number_scope {id : ScopeId} (own : a.OwnsScope root id) :
    (drawn.numbering.scopes.idxOf? id).getD 0 = (drawn.scopes.drop 1).idxOf id + 1 := by
  have mem : id ∈ drawn.scopes := (drawn.listed.mem_iff id).2 (.inr own)
  obtain ⟨rest, same⟩ := drawn.listed.head
  rw [drawn.scopesNumbered, Extraction.idxOf?_of_mem mem, Option.getD_some, same,
    drop_one, tail_cons, idxOf_cons_ne _ (Ne.symm own.ne_root)]

theorem grafted_scope {id : ScopeId} (own : a.OwnsScope root id) :
    (drawn.grafted target imports).scope id =
      ⟨target.scopes.size + (drawn.scopes.drop 1).idxOf id⟩ := by
  simp only [grafted, drawn.number_scope own]
  rw [if_neg (by omega), Nat.add_sub_cancel]

theorem grafted_outer {id : ScopeId} (outer : ¬ a.OwnsScope root id) :
    (drawn.grafted target imports).scope id = target.root := by
  obtain ⟨rest, same⟩ := drawn.listed.head
  have number : (drawn.numbering.scopes.idxOf? id).getD 0 = 0 := by
    rw [drawn.scopesNumbered]
    by_cases isRoot : id = a.root
    · rw [isRoot, same, idxOf?_cons]
      simp
    · have absent : id ∉ drawn.scopes := fun mem =>
        ((drawn.listed.mem_iff id).1 mem).elim isRoot outer
      rw [idxOf?_eq_none_iff.2 absent]
      rfl
  simp only [grafted, number]
  rw [if_pos trivial]

/-- What the result holds in place of a symbol. -/
theorem result_symbol (i : Nat) :
    (drawn.result target imports).symbols[i]? = if i < target.symbols.size then target.symbols[i]?
      else
      (drawn.symbols[i - target.symbols.size]?.map (drawn.grafted target imports).symbolNode).map
          (if i = target.symbols.size then Symbol.asLoaded else id) := by
  simp only [result, appended, Array.getElem?_modify, Array.getElem?_append, getElem?_toArray,
    getElem?_map]
  by_cases old : i < target.symbols.size
  · have o : target.symbols.size ≠ i := by omega
    rw [if_neg o, if_pos old, if_pos old]
  · by_cases first : i = target.symbols.size
    · rw [if_pos first.symm, if_neg old, if_neg old, if_pos first]
    · rw [if_neg (Ne.symm first), if_neg old, if_neg old, if_neg first, Option.map_id]
      rfl

/-- The result holds the module's symbols at their places. -/
theorem result_symbol_of_owned {id : SymbolId}
    {symbol : Symbol} (own : a.OwnsSymbol root id) (h : a.symbol id = .ok symbol) :
    (drawn.result target imports).symbol ((drawn.grafted target imports).symbol id) =
      .ok (if id = root then ((drawn.grafted target imports).symbolNode symbol).asLoaded
        else (drawn.grafted target imports).symbolNode symbol) := by
  have mem := drawn.mem_members.2 own
  have place : drawn.symbols[drawn.members.idxOf id]? = some symbol :=
    getElem?_answers drawn.symbolsFound mem h
  have first : drawn.members.idxOf id = 0 ↔ id = root := by
    constructor
    · intro zero
      have rootFirst : drawn.members.idxOf root = 0 := idxOf_cons_self
      exact (idxOf_inj mem).1 (zero.trans rootFirst.symm)
    · rintro rfl
      exact idxOf_cons_self
  rw [symbol_eq_ok, drawn.grafted_symbol own]
  change (drawn.result target imports).symbols[target.symbols.size + _]? = _
  rw [drawn.result_symbol, if_neg (by omega), Nat.add_sub_cancel_left, place]
  by_cases isRoot : id = root
  · rw [if_pos (by rw [first.2 isRoot]; rfl), if_pos isRoot]
    rfl
  · have b : drawn.members.idxOf id ≠ 0 := mt first.1 isRoot
    rw [if_neg (by omega), if_neg isRoot]
    rfl

theorem result_scope_of_owned {id : ScopeId} (own : a.OwnsScope root id) (h : a.scope id = .ok s) :
    (drawn.result target imports).scope ((drawn.grafted target imports).scope id) =
      .ok ((drawn.grafted target imports).scopeNode s) := by
  have place : drawn.tables[(drawn.scopes.drop 1).idxOf id]? = some s :=
    getElem?_answers drawn.tablesFound (drawn.listed.mem_tail.2 own) h
  rw [scope_eq_ok, drawn.grafted_scope own]
  simp only [result, appended]
  rw [Array.getElem?_append,
    if_neg (by omega), Nat.add_sub_cancel_left, getElem?_toArray, getElem?_map, place]
  rfl

/-- The result holds the expressions that the module refers to at their places. -/
theorem result_expr_of_held {id : ExprId} {expr : Expr} (held : a.Holds root (.expr id))
    (h : a.expr id = .ok expr) :
    (drawn.result target imports).expr ((drawn.grafted target imports).expr id) =
      .ok ((drawn.grafted target imports).node expr) := by
  have numbered : id ∈ drawn.numbering.exprs :=
    (drawn.knows_iff (.expr id)).2 (.inr held)
  have place : drawn.exprs[drawn.numbering.exprs.idxOf id]? = some expr :=
    getElem?_answers drawn.exprsFound numbered h
  rw [expr_eq_ok]
  simp only [result, appended, grafted]
  rw [Array.getElem?_append,
    if_neg (by omega), Nat.add_sub_cancel_left, getElem?_toArray, getElem?_map, place]
  rfl

/-- Each foreign symbol becomes the import that stands for it. -/
theorem map_foreign (enough : imports.length = image.imports.length) :
    drawn.foreign.map (drawn.grafted target imports).symbol = imports := by
  have sameLength : drawn.foreign.length = imports.length :=
    drawn.length_foreign.trans enough.symm
  apply ext_getElem
  · rw [length_map, sameLength]
  · intro i inForeign inImports
    rw [length_map] at inForeign
    have distinct := drawn.distinctSymbols
    rw [← drawn.members_append_foreign] at distinct
    have number : drawn.numbering.symbols.idxOf drawn.foreign[i] = drawn.members.length + i := by
      have mem : drawn.foreign[i] ∈ drawn.foreign := getElem_mem _
      have notOwned : drawn.foreign[i] ∉ drawn.members := fun own =>
        disjoint_of_nodup_append distinct own mem
      have alone : drawn.foreign.Nodup := (nodup_append'.1 distinct).2.1
      rw [← drawn.members_append_foreign, idxOf_append_of_notMem notOwned, alone.idxOf_getElem]
    rw [getElem_map]
    simp only [grafted, number]
    rw [if_neg (by omega), Nat.add_sub_cancel_left, getD_eq_getElem?_getD,
      getElem?_eq_getElem inImports]
    rfl

theorem grafted_mem_imports (enough : imports.length = image.imports.length) {id : SymbolId}
    (foreign : a.Foreign root id) : (drawn.grafted target imports).symbol id ∈ imports := by
  have mapped := mem_map_of_mem (f := (drawn.grafted target imports).symbol)
    (drawn.mem_foreign.2 foreign)
  rwa [drawn.map_foreign enough] at mapped

theorem length_tables : drawn.tables.length = (drawn.scopes.drop 1).length :=
  (mapM_eq_ok.1 drawn.tablesFound).length_eq.symm

theorem numbered_iff {α : Type} [DecidableEq α] {items : List α} (distinct : items.Nodup) :
    (base ≤ i ∧ i < base + items.length) ↔ ∃ item ∈ items, base + items.idxOf item = i := by
  constructor
  · rintro ⟨low, high⟩
    have lt : i - base < items.length := by omega
    refine ⟨items[i - base], getElem_mem _, ?_⟩
    rw [distinct.idxOf_getElem]
    omega
  · rintro ⟨item, mem, rfl⟩
    have bound := idxOf_lt_length_of_mem mem
    omega

theorem copiedTo_result :
    a.CopiedTo root target (drawn.result target imports) (drawn.grafted target imports) where
  keptRoot := rfl
  keptSymbol id old := by
    unfold symbol
    rw [drawn.result_symbol, if_pos old]
  keptScope id old := by
    unfold scope
    simp only [result, appended, Array.getElem?_append, if_pos old]
  keptExpr id old := by
    unfold expr
    simp only [result, appended, Array.getElem?_append, if_pos old]
  newSymbol new := by
    have size : (drawn.result target imports).symbols.size = target.symbols.size +
        drawn.members.length := by
      simp only [result, Array.size_modify]
      exact drawn.size_appended
    have distinct : drawn.members.Nodup := nodup_ownedBy root drawn.scopes
    rw [size, numbered_iff distinct]
    constructor
    · rintro ⟨id, mem, place⟩
      have own := drawn.mem_members.1 mem
      refine ⟨id, own, ?_⟩
      rw [drawn.grafted_symbol own]
      exact congrArg SymbolId.mk place
    · rintro ⟨id, own, rfl⟩
      refine ⟨id, drawn.mem_members.2 own, ?_⟩
      rw [drawn.grafted_symbol own]
  newScope new := by
    have size : (drawn.result target imports).scopes.size = target.scopes.size +
        (drawn.scopes.drop 1).length := by
      rw [← drawn.length_tables]
      simp [result, appended]
    have distinct : (drawn.scopes.drop 1).Nodup :=
      drawn.listed.nodup.sublist (drop_sublist _ _)
    rw [size, numbered_iff distinct]
    constructor
    · rintro ⟨id, mem, place⟩
      have own := drawn.listed.mem_tail.1 mem
      refine ⟨id, own, ?_⟩
      rw [drawn.grafted_scope own]
      exact congrArg ScopeId.mk place
    · rintro ⟨id, own, rfl⟩
      refine ⟨id, drawn.listed.mem_tail.2 own, ?_⟩
      rw [drawn.grafted_scope own]
  newExpr new := by
    have size : (drawn.result target imports).exprs.size = target.exprs.size +
        drawn.numbering.exprs.length := by
      rw [(mapM_eq_ok.1 drawn.exprsFound).length_eq]
      simp [result, appended]
    rw [size, numbered_iff drawn.distinctExprs]
    constructor
    · rintro ⟨id, mem, place⟩
      refine ⟨id, drawn.holds_expr.1 mem, congrArg ExprId.mk place⟩
    · rintro ⟨id, held, rfl⟩
      exact ⟨id, drawn.holds_expr.2 held, rfl⟩
  injectiveSymbol left right ownsLeft ownsRight same := by
    rw [drawn.grafted_symbol ownsLeft, drawn.grafted_symbol ownsRight] at same
    have places : drawn.members.idxOf left = drawn.members.idxOf right := by simpa using same
    exact (idxOf_inj (drawn.mem_members.2 ownsLeft)).1 places
  injectiveScope left right ownsLeft ownsRight same := by
    rw [drawn.grafted_scope ownsLeft, drawn.grafted_scope ownsRight] at same
    have places : (drawn.scopes.drop 1).idxOf left = (drawn.scopes.drop 1).idxOf right := by
      simpa using same
    exact (idxOf_inj (drawn.listed.mem_tail.2 ownsLeft)).1 places
  injectiveExpr left right holdsLeft holdsRight same := by
    have places : drawn.numbering.exprs.idxOf left = drawn.numbering.exprs.idxOf right := by
      simpa [grafted] using same
    exact (idxOf_inj (drawn.holds_expr.2 holdsLeft)).1 places
  outerScope id outer := drawn.grafted_outer outer
  symbol id symbol own h := drawn.result_symbol_of_owned own h
  scope id scope own h := drawn.result_scope_of_owned own h
  expr id expr held h := drawn.result_expr_of_held held h

end Extracted

/-- Whether every symbol that opens a scope stands under its name in the scope it belongs to. -/
def Arena.Registered (arena : Arena) : Prop :=
  ∀ id symbol inner, arena.symbol id = .ok symbol → symbol.kind.scope? = some inner →
    ∃ table, arena.scope symbol.owner = .ok table ∧ (symbol.name, id) ∈ table.entries

instance (a : Arena) : Decidable a.Registered :=
  decidable_of_iff (∀ i : Fin a.symbols.size, a.symbols[i].kind.scope?.isSome →
      (a.scopes[a.symbols[i].owner.index]?.any fun tb =>
        (a.symbols[i].name, (⟨i⟩ : SymbolId)) ∈ tb.entries)) <| by
    unfold Arena.Registered
    simp only [Option.any_eq_true, decide_eq_true_eq]
    constructor
    · intro each id symbol inner h opened
      have lt := symbol_inRange h
      have same : a.symbols[(⟨id.index, lt⟩ : Fin a.symbols.size)] = symbol :=
        Array.getElem_eq_iff.2 (symbol_eq_ok.1 h)
      have st := each ⟨id.index, lt⟩
      rw [same, opened] at st
      obtain ⟨tb, held, e⟩ := st rfl
      exact ⟨tb, scope_eq_ok.2 held, e⟩
    · intro registered i opens
      obtain ⟨inner, opened⟩ := Option.isSome_iff_exists.1 opens
      obtain ⟨tb, held, e⟩ := registered ⟨i⟩ a.symbols[i] inner
        (symbol_eq_ok.2 (Array.getElem?_eq_getElem i.isLt)) opened
      exact ⟨tb, scope_eq_ok.1 held, e⟩

theorem Arena.Registered.ownsScope {a : Arena} (registered : a.Registered) {root id : SymbolId}
    {sym : Symbol} (own : a.OwnsSymbol root id) (h : a.symbol id = .ok sym)
    (opened : sym.kind.scope? = some body) (proper : body ≠ a.root) : a.OwnsScope root body := by
  rcases own with rfl | ⟨same, refound, outer⟩
  · exact .own h opened proper
  · cases h.symm.trans refound
    obtain ⟨tb, ht, e⟩ := registered id sym body h opened
    exact .nested outer ⟨tb, _, sym, ht, e, h, rfl, opened⟩ proper

/-- A module that is taken out of an arena and put into another one is reproduced there. It can be
taken out exactly when the symbols it refers to have paths. Putting it into an arena with a symbol
for each of them then always succeeds: it appends a copy of the module and of everything the module
owns, in which those symbols stand for the foreign ones, one by one. -/
theorem Image.graft_reproduces_module (arena : Arena) (closed : arena.Closed)
    (registered : arena.Registered) (root : SymbolId) (info : Module)
    (isModule : arena.kind root = .ok (.moduleUnit info)) :
    ((∃ image, arena.imageOf root = .ok image) ↔
      ∀ id, arena.Foreign root id → ∃ path, arena.path id = .ok path) ∧
    (∀ id symbol inner, arena.OwnsSymbol root id → arena.symbol id = .ok symbol →
      symbol.kind.scope? = some inner → inner ≠ arena.root → arena.OwnsScope root inner) ∧
    ∀ image, arena.imageOf root = .ok image →
      ∀ (target : Arena) (imports : List SymbolId), imports.length = image.imports.length →
        ∃ (relocation : Relocation) (foreign : List SymbolId) (after : Arena),
          image.graft imports target = .ok (relocation.symbol root) after ∧
          arena.CopiedTo root target after relocation ∧
          foreign.Nodup ∧ (∀ id, id ∈ foreign ↔ arena.Foreign root id) ∧
          foreign.mapM arena.path = .ok image.imports ∧
          foreign.map relocation.symbol = imports := by
  refine ⟨⟨?_, arena.exists_imageOf closed isModule⟩,
    fun id symbol inner => registered.ownsScope, ?_⟩
  · rintro ⟨image, taken⟩ id occurs
    obtain ⟨extracted⟩ := Arena.extracted_of_imageOf taken
    obtain ⟨path, -, named⟩ := exists_answer extracted.imports (extracted.mem_foreign.2 occurs)
    exact ⟨path, named⟩
  · intro image taken target imports enough
    obtain ⟨extracted⟩ := Arena.extracted_of_imageOf taken
    refine ⟨extracted.grafted target imports, extracted.foreign, extracted.result target imports,
      extracted.graft_eq_ok enough, extracted.copiedTo_result, ?_, fun id => extracted.mem_foreign,
      extracted.imports, extracted.map_foreign enough⟩
    exact extracted.distinctSymbols.sublist (List.drop_sublist _ _)

/-- A module `m` with a procedure `s` that refers to the variable `y` of a module `a`. -/
def Arena.sample : Arena where
  symbols := #[⟨"a", ⟨0⟩, .moduleUnit ⟨⟨1⟩, [], false, false⟩⟩,
    ⟨"y", ⟨1⟩, .variable (.ofType (.integer 4))⟩,
    ⟨"m", ⟨0⟩, .moduleUnit ⟨⟨2⟩, ["a"], false, false⟩⟩,
    ⟨"y", ⟨2⟩, .imported ⟨⟨1⟩, "a", "y", .publicAccess⟩⟩,
    ⟨"s", ⟨2⟩, .function ⟨⟨3⟩, [⟨5⟩], none, [.assignment ⟨0⟩ ⟨1⟩], .source, .implementation,
      .publicAccess, []⟩⟩,
    ⟨"x", ⟨3⟩, .variable (.ofType (.integer 4))⟩]
  scopes := #[⟨none, none, [("a", ⟨0⟩), ("m", ⟨2⟩)], []⟩, ⟨some ⟨0⟩, some ⟨0⟩, [("y", ⟨1⟩)], []⟩,
    ⟨some ⟨0⟩, some ⟨2⟩, [("y", ⟨3⟩), ("s", ⟨4⟩)], []⟩, ⟨some ⟨2⟩, some ⟨4⟩, [("x", ⟨5⟩)], []⟩]
  exprs := #[⟨.var ⟨5⟩, .integer 4, none, default⟩, ⟨.var ⟨3⟩, .integer 4, none, default⟩]
  root := ⟨0⟩

/-- The module `m` is taken out with one import, the path of `y`, and put back beside the original.
-/
theorem Image.graft_reproduces_sample :
    ∃ image relocation after, Arena.sample.imageOf ⟨2⟩ = .ok image ∧
      image.imports = [["a", "y"]] ∧
      image.graft [⟨1⟩] Arena.sample = .ok (relocation.symbol ⟨2⟩) after ∧
      Arena.sample.CopiedTo ⟨2⟩ Arena.sample after relocation := by
  obtain ⟨-, -, reproduces⟩ := Image.graft_reproduces_module Arena.sample
    (by decide) (by decide) ⟨2⟩ ⟨⟨2⟩, ["a"], false, false⟩ rfl
  obtain ⟨image, taken, named⟩ : ∃ image, Arena.sample.imageOf ⟨2⟩ = .ok image ∧
      image.imports = [["a", "y"]] := ⟨_, rfl, rfl⟩
  obtain ⟨relocation, -, after, grafted, copied, -⟩ :=
    reproduces image taken Arena.sample [⟨1⟩] (by rw [named]; rfl)
  exact ⟨image, relocation, after, taken, named, grafted, copied⟩

end FortranSemantics
