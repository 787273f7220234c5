import FortranSemantics.Proofs.Image.Renaming
import FortranSemantics.Proofs.Lawful.Session

/-!
# The image of a loaded module

A module that is taken out of an arena, put into another one and taken out there again gives the
same image, but for the mark that it was loaded. The search for scopes, the order of the symbols and
the visit of expressions run over the copy as they ran over the original.
-/

namespace FortranSemantics

open List Arena SymbolKind

variable {α β ε : Type} {items : List α} {answers : List β} {fuel steps : Nat} {id : SymbolId}
  {expr : Expr} {visited : List (ExprId × Expr)}

theorem mapM_moved {γ δ : Type} {ask : α → Except ε β} {askMoved : γ → Except ε δ} {move : α → γ}
    {moveAnswer : β → δ} (answered : items.mapM ask = .ok answers) (each : ∀ item ∈ items, ∀ ans,
      ask item = .ok ans → askMoved (move item) = .ok (moveAnswer ans)) :
    (items.map move).mapM askMoved = .ok (answers.map moveAnswer) := by
  rw [mapM_eq_ok] at answered ⊢
  induction answered with
  | nil => exact .nil
  | cons here _ ih =>
    obtain ⟨first, rest⟩ := forall_mem_cons.1 each
    exact .cons (first _ here) (ih rest)

theorem exists_of_view {ans : Except ε α} (looked : ans.toOption.map view = some seen) :
    ∃ v, ans = .ok v ∧ view v = seen := by
  cases ans with
  | error failure => cases looked
  | ok v => exact ⟨v, rfl, Option.some.inj looked⟩

theorem nodup_of_answers {step : α → Except ε β} (answered : items.mapM step = .ok answers)
    (distinct : answers.Nodup) : items.Nodup := by
  induction mapM_eq_ok.1 answered with
  | nil => exact nodup_nil
  | @cons item ans rest tail here there ih =>
    obtain ⟨fresh, distinct⟩ := nodup_cons.1 distinct
    refine nodup_cons.2 ⟨fun again => fresh ?_, ih (mapM_eq_ok.2 there) distinct⟩
    obtain ⟨other, mem, asked⟩ := exists_answer (mapM_eq_ok.2 there) again
    cases here.symm.trans asked
    exact mem

namespace Arena

variable {before after : Arena}

/-- The names of the owners of a scope stay when symbols keep their names and owners, and scopes
their owners. -/
theorem ownersWithin_kept (symbols : ∀ {id symbol}, before.symbol id = .ok symbol →
      after.symbol id = .ok symbol)
    (scopes : ∀ {id table}, before.scope id = .ok table →
      ∃ held, after.scope id = .ok held ∧ held.owner = table.owner) (enough : fuel ≤ steps)
      {id : ScopeId}
    (climbed : before.ownersWithin fuel id = .ok names) :
    after.ownersWithin steps id = .ok names := by
  induction fuel generalizing steps id names with
  | zero => cases climbed
  | succ fuel ih =>
    obtain ⟨steps, rfl⟩ := Nat.exists_eq_add_of_le' enough
    obtain ⟨table, h, rest⟩ := bind_eq_ok.1 climbed
    obtain ⟨held, isHeld, owner⟩ := scopes h
    change after.ownersWithin (steps + fuel + 1) id = _
    refine bind_eq_ok.2 ⟨held, isHeld, ?_⟩
    rw [owner]
    cases owned : table.owner with
    | none =>
      rw [owned] at rest
      exact rest
    | some owner =>
      rw [owned] at rest
      obtain ⟨symbol, symbolFound, rest⟩ := bind_eq_ok.1 rest
      obtain ⟨outer, climbed, rest⟩ := bind_eq_ok.1 rest
      exact bind_eq_ok.2 ⟨symbol, symbols symbolFound,
        bind_eq_ok.2 ⟨outer, ih (by omega) climbed, rest⟩⟩

theorem exists_symbol_of_path {path : List String} (named : before.path id = .ok path) :
    ∃ symbol, before.symbol id = .ok symbol :=
  (bind_eq_ok.1 named).imp fun _ => And.left

end Arena

/-- The image with its module marked as loaded. -/
def Image.asLoaded (image : Image) : Image :=
  { image with arena := { image.arena with
      symbols := image.arena.symbols.modify image.root.index Symbol.asLoaded } }

namespace Symbol

theorem symbolNode_asLoaded (relocation : Relocation) (symbol : Symbol) :
    relocation.symbolNode symbol.asLoaded = (relocation.symbolNode symbol).asLoaded := by
  obtain ⟨name, owner, k⟩ := symbol
  cases k <;> rfl

theorem references_asLoaded (symbol : Symbol) :
    symbol.asLoaded.kind.references = symbol.kind.references := by
  obtain ⟨name, owner, k⟩ := symbol
  cases k <;> rfl

end Symbol

namespace Extracted

variable {a target : Arena} {root : SymbolId} {image : Image} {imports : List SymbolId}

/-- Whether a module that does not lie inside itself may be put into an arena, which has symbols
with the different paths that the image names. -/
structure Admitted (drawn : Extracted a root image) (target : Arena)
    (imports : List SymbolId) : Prop where
  outside : ∀ symbol, a.symbol root = .ok symbol → ¬ a.OwnsScope root symbol.owner
  root : target.root.index < target.scopes.size
  owner : ∀ {id symbol}, target.symbol id = .ok symbol → symbol.owner.index < target.scopes.size
  paths : imports.mapM target.path = .ok image.imports
  distinct : image.imports.Nodup

/-- What was met when the visit of expressions began. -/
abbrev start (drawn : Extracted a root image) : Numbering :=
  (numberingAt (a.ownedBy root drawn.scopes) drawn.scopes).meetAll
    (nodeReferences drawn.symbols drawn.tables)

theorem inner_inside (drawn : Extracted a root image) : drawn.inner = a.root ∨
    a.OwnsScope root drawn.inner := by
  obtain ⟨symbol, h, opens⟩ := symbolScope?_eq_ok.1 drawn.opened
  by_cases isRoot : drawn.inner = a.root
  · exact .inl isRoot
  · exact .inr (.own h opens isRoot)

theorem mem_others (drawn : Extracted a root image) :
    id ∈ (a.symbolsOf drawn.scopes).filter (· != root) ↔ a.OwnsSymbol root id ∧ id ≠ root := by
  have all := @mem_members _ _ _ drawn id
  simp only [members, ownedBy, mem_cons] at all
  constructor
  · intro mem
    exact ⟨all.1 (.inr mem), by simpa using (mem_filter.1 mem).2⟩
  · rintro ⟨owned, proper⟩
    exact (all.2 owned).resolve_left proper

variable {drawn : Extracted a root image}

namespace Admitted

/-- What becomes of the identifiers of the module. -/
abbrev move (_ : drawn.Admitted target imports) : Relocation :=
  drawn.grafted target imports

/-- The arena after the module was put into it and entered under its name. -/
abbrev after (_ : drawn.Admitted target imports) : Arena :=
  (drawn.result target imports).declare target.root image.name ⟨target.symbols.size⟩

variable (fits : drawn.Admitted target imports) {id : SymbolId} {symbol : Symbol} {s : ScopeId}
  {table : Scope}
include fits

theorem copied : a.CopiedTo root target (drawn.result target imports) fits.move :=
  drawn.copiedTo_result

theorem entered : a.EnteredAs root target fits.after image.name fits.move :=
  .of_extracted drawn fits.outside fits.root imports image.name

theorem length_imports : imports.length = image.imports.length :=
  (mapM_eq_ok.1 fits.paths).length_eq

theorem exists_import (mem : id ∈ imports) : ∃ symbol, target.symbol id = .ok symbol := by
  obtain ⟨path, -, named⟩ := exists_answer fits.paths mem
  exact exists_symbol_of_path named

theorem move_mem_imports (foreign : a.Foreign root id) : fits.move.symbol id ∈ imports :=
  drawn.grafted_mem_imports fits.length_imports foreign

theorem move_scope_ne (owned : a.OwnsScope root s) (early : outer.index < target.scopes.size) :
    fits.move.scope s ≠ outer := by
  rw [drawn.grafted_scope owned]
  rintro rfl
  exact absurd early (Nat.not_lt.2 (Nat.le_add_right _ _))

/-- The module's own symbols and those it takes from outside are kept apart, and so are its
expressions. -/
theorem separates : fits.move.Separates (a.Met root) := by
  have apart {own other : SymbolId} (owned : a.OwnsSymbol root own)
      (foreign : a.Foreign root other) : fits.move.symbol own ≠ fits.move.symbol other := by
    intro same
    have late : target.symbols.size ≤ (fits.move.symbol own).index := fits.entered.laterSymbol owned
    obtain ⟨symbol, h⟩ := fits.exists_import (fits.move_mem_imports foreign)
    have early := symbol_inRange h
    rw [same] at late
    omega
  have cases {id : SymbolId} (met : a.Met root (.symbol id)) :
      a.OwnsSymbol root id ∨ a.Foreign root id := by
    by_cases owned : a.OwnsSymbol root id
    · exact .inl owned
    · refine .inr ⟨met.resolve_left ?_, owned⟩
      rintro ⟨_, same, again⟩
      cases same
      exact owned again
  intro left right metLeft metRight same
  match left, right with
  | .symbol left, .symbol right =>
    have same := Reference.symbol.inj same
    rcases cases metLeft with ownsLeft | foreignLeft <;> rcases cases metRight with
      ownsRight | foreignRight
    · exact congrArg _ (fits.copied.injectiveSymbol left right ownsLeft ownsRight same)
    · exact absurd same (apart ownsLeft foreignRight)
    · exact absurd same.symm (apart ownsRight foreignLeft)
    · have distinct := nodup_of_answers fits.paths fits.distinct
      rw [← drawn.map_foreign fits.length_imports] at distinct
      exact congrArg _ (inj_on_of_nodup_map distinct (drawn.mem_foreign.2 foreignLeft)
        (drawn.mem_foreign.2 foreignRight) same)
  | .expr left, .expr right =>
    have holds {id : ExprId} (met : a.Met root (.expr id)) : a.Holds root (.expr id) :=
      met.resolve_left fun ⟨_, wrong, _⟩ => nomatch wrong
    exact congrArg _ (fits.copied.injectiveExpr left right (holds metLeft) (holds metRight)
      (Reference.expr.inj same))
  | .symbol _, .expr _ => cases same
  | .expr _, .symbol _ => cases same

/-! ## What the arena holds afterwards -/

/-- The symbols of the module are there with other identifiers, the module marked as loaded.
Entering it changes nothing about it. -/
theorem after_symbol (owned : a.OwnsSymbol root id) (h : a.symbol id = .ok symbol) :
    fits.after.symbol (fits.move.symbol id) =
      .ok
      (if id = root then
        (fits.move.symbolNode symbol).asLoaded else fits.move.symbolNode symbol) := by
  obtain ⟨⟨_, _, _⟩, isHeld, rfl, rfl, rfl⟩ := fits.entered.newSymbol owned h
  refine isHeld.trans (congrArg _ ?_)
  by_cases isRoot : id = root
  · subst isRoot
    obtain ⟨again, refound, named⟩ := name_eq_ok.1 drawn.name
    cases h.symm.trans refound
    simp only [if_pos, ← named]
    rfl
  · simp only [if_neg isRoot]
    rfl

/-- A symbol of the module opens the scope that the original opens, and lies where the original
lies. -/
theorem after_symbol_fields (owned : a.OwnsSymbol root id) (h : a.symbol id = .ok symbol) :
    ∃ held, fits.after.symbol (fits.move.symbol id) = .ok held ∧
      held.name = symbol.name ∧ held.owner = fits.move.scope symbol.owner ∧
      held.kind.scope? = symbol.kind.scope?.map fits.move.scope := by
  have opens : (fits.move.symbolKind symbol.kind).scope? = symbol.kind.scope?.map
      fits.move.scope := by
    rw [← scope?_form, Relocation.form_symbolKind, Relocation.scope?_form, scope?_form]
  refine ⟨_, fits.after_symbol owned h, ?_⟩
  by_cases isRoot : id = root
  · rw [if_pos isRoot]
    refine ⟨rfl, rfl, Eq.trans ?_ opens⟩
    change (fits.move.symbolKind symbol.kind).asLoaded.scope? = _
    rw [← scope?_form, form_asLoaded, scope?_form]
  · rw [if_neg isRoot]
    exact ⟨rfl, rfl, opens⟩

theorem after_expr {id : ExprId} (numbered : id ∈ drawn.numbering.exprs)
    (h : a.expr id = .ok expr) : fits.after.expr (fits.move.expr id) = .ok (fits.move.node expr) :=
  drawn.result_expr_of_held (drawn.holds_expr.1 numbered) h

/-! ## The search for scopes -/

theorem move_scope_iff {id other : ScopeId} (owned : a.OwnsScope root id) :
    fits.move.scope other = fits.move.scope id ↔ other = id := by
  refine ⟨fun same => ?_, congrArg _⟩
  by_cases ownsOther : a.OwnsScope root other
  · exact fits.copied.injectiveScope other id ownsOther owned same
  · exact absurd (same.symm.trans (drawn.grafted_outer ownsOther))
      (fits.move_scope_ne owned fits.root)

/-- The symbols of a scope of the module open the scopes that the originals open. -/
theorem innerScopes_after {id : ScopeId} {inner : List ScopeId}
    (owned : a.OwnsScope root id) (mem : a.innerScopes id = .ok inner) :
    fits.after.innerScopes (fits.move.scope id) = .ok (inner.map fits.move.scope) ∧ inner.length ≤
        fits.after.entryCount (fits.move.scope id).index := by
  unfold innerScopes at mem
  obtain ⟨table, h, asked⟩ := bind_eq_ok.1 mem
  obtain ⟨answers, answered, kept⟩ := bind_eq_ok.1 asked
  cases kept
  have tableFound := fits.entered.newScope owned h
  have symbols : (fits.move.scopeNode table).symbols = table.symbols.map fits.move.symbol := by
    simp only [Relocation.scopeNode, Scope.symbols, map_map]
    rfl
  have copied : (table.symbols.map fits.move.symbol).mapM (fun symbol => do
      if ((← fits.after.symbol symbol).owner = fits.move.scope id)
      then fits.after.symbolScope? symbol else return none) =
      .ok (answers.map (Option.map fits.move.scope)) := by
    refine mapM_moved answered fun entry member ans chosen => ?_
    obtain ⟨symbol, symbolFound, chosen⟩ := bind_eq_ok.1 chosen
    by_cases owns : a.OwnsSymbol root entry
    · obtain ⟨held, heldFound, -, owner, opens⟩ := fits.after_symbol_fields owns symbolFound
      refine bind_eq_ok.2 ⟨held, heldFound, ?_⟩
      rw [owner]
      by_cases belongs : symbol.owner = id
      · rw [if_pos belongs] at chosen
        obtain ⟨again, foundAgain, opensAgain⟩ := symbolScope?_eq_ok.1 chosen
        cases symbolFound.symm.trans foundAgain
        rw [if_pos (congrArg _ belongs)]
        exact symbolScope?_eq_ok.2 ⟨held, heldFound, opens.trans (congrArg _ opensAgain)⟩
      · cases (if_neg belongs).symm.trans chosen
        rw [if_neg (mt (fits.move_scope_iff owned).1 belongs)]
        rfl
    · -- A symbol from outside belongs to no scope of the module, neither here nor there.
      have belongs : symbol.owner ≠ id :=
        fun same => owns (.inr ⟨symbol, symbolFound, same ▸ owned⟩)
      cases (if_neg belongs).symm.trans chosen
      obtain ⟨pair, isEntry, rfl⟩ := mem_map.1 member
      have occurs : Reference.symbol pair.2 ∈ table.references :=
        mem_append_right _ (mem_map_of_mem (f := fun entry => Reference.symbol entry.2) isEntry)
      have foreign : a.Foreign root pair.2 := ⟨.ofScope owned h occurs, owns⟩
      obtain ⟨held, heldFound⟩ := fits.exists_import (fits.move_mem_imports foreign)
      refine bind_eq_ok.2 ⟨held, fits.entered.oldSymbol heldFound, ?_⟩
      rw [if_neg (fits.move_scope_ne owned (fits.owner heldFound)).symm]
      rfl
  constructor
  · refine bind_eq_ok.2 ⟨_, tableFound, bind_eq_ok.2 ⟨_, symbols ▸ copied, ?_⟩⟩
    rw [filterMap_map, map_filterMap]
    rfl
  · have counted : fits.after.entryCount (fits.move.scope id).index = table.entries.length := by
      simp [entryCount, scope_eq_ok.1 tableFound, Relocation.scopeNode]
    have sameLength := (mapM_eq_ok.1 answered).length_eq
    rw [Scope.symbols, length_map] at sameLength
    rw [counted, sameLength]
    exact length_filterMap_le _ _

/-- The search for scopes runs over the copy as it runs over the module. -/
theorem scopesWithin_after {numbered stack h : List ScopeId}
    (ran : a.scopesWithin fuel numbered stack = .ok h) (rootNumbered : a.root ∈ numbered)
    (inside : ∀ s ∈ stack, s = a.root ∨ a.OwnsScope root s)
    (enough : stack.length + fits.after.entriesBeyond (numbered.map fits.move.scope) ≤ steps) :
    fits.after.scopesWithin steps (numbered.map fits.move.scope) (stack.map fits.move.scope) =
        .ok (h.map fits.move.scope) := by
  induction fuel generalizing steps numbered stack with
  | zero =>
    cases stack with
    | nil =>
      cases ran
      cases steps <;> rfl
    | cons id stack => cases ran
  | succ fuel ih =>
    cases stack with
    | nil =>
      cases ran
      cases steps <;> rfl
    | cons id stack =>
      obtain ⟨here, b⟩ := forall_mem_cons.1 inside
      rw [length_cons] at enough
      obtain ⟨steps, rfl⟩ : ∃ left, steps = left + 1 := ⟨steps - 1, by omega⟩
      unfold scopesWithin at ran
      rw [map_cons]
      unfold scopesWithin
      by_cases known : id ∈ numbered
      · rw [if_pos (contains_iff_mem.2 known)] at ran
        rw [if_pos (contains_iff_mem.2 (mem_map_of_mem known))]
        exact ih ran rootNumbered b (by omega)
      · have owned : a.OwnsScope root id := here.resolve_left fun isRoot =>
          known (isRoot ▸ rootNumbered)
        have fresh : fits.move.scope id ∉ numbered.map fits.move.scope := by
          intro mem
          obtain ⟨other, member, same⟩ := mem_map.1 mem
          exact known ((fits.move_scope_iff owned).1 same ▸ member)
        rw [if_neg (mt contains_iff_mem.1 known)] at ran
        rw [if_neg (mt contains_iff_mem.1 fresh)]
        obtain ⟨inner, mem, rest⟩ := bind_eq_ok.1 ran
        obtain ⟨listedThere, few⟩ := fits.innerScopes_after owned mem
        obtain ⟨table, isTable, -⟩ := bind_eq_ok.1 mem
        have counted := entriesBeyond_concat fresh
          (scope_inRange (fits.entered.newScope owned isTable))
        rw [listedThere]
        have deeper : ∀ s ∈ inner.reverse ++ stack, s = a.root ∨ a.OwnsScope root s := by
          intro s member
          rcases mem_append.1 member with pushed | waiting
          · have opened := (mem_innerScopes mem).1 (mem_reverse.1 pushed)
            by_cases isRoot : s = a.root
            · exact .inl isRoot
            · exact .inr (.nested owned opened isRoot)
          · exact b s waiting
        have ranThere := @ih steps (numbered ++ [id]) (inner.reverse ++ stack) rest
          (mem_append_left _ rootNumbered) deeper (by
            rw [length_append, length_reverse, map_append, map_cons, map_nil]
            omega)
        rw [map_append, map_append, map_reverse] at ranThere
        exact ranThere

/-- The copy has the scopes of the module, in the same order. -/
theorem scopesBelow_after (searched : a.scopesBelow drawn.inner = .ok drawn.scopes) :
    fits.after.scopesBelow (fits.move.scope drawn.inner) =
      .ok (drawn.scopes.map fits.move.scope) := by
  have bound := fits.after.entriesBeyond_le ([a.root].map fits.move.scope)
  have enough : [drawn.inner].length + fits.after.entriesBeyond ([a.root].map fits.move.scope) ≤
        (fits.after.scopes.toList.map (·.entries.length)).foldr (· + ·) 0 + 2 := by
    rw [length_singleton]
    omega
  have ran := fits.scopesWithin_after searched (.head _)
    (fun s mem => mem_singleton.1 mem ▸ drawn.inner_inside) enough
  rw [map_cons, map_cons, map_nil, fits.entered.outerScope] at ran
  exact ran

/-! ## The symbols -/

/-- The symbols of the copy other than the module are those of the module, in the same order. -/
theorem symbolsOf_after :
    (fits.after.symbolsOf (drawn.scopes.map fits.move.scope)).filter (· != fits.move.symbol root) =
      ((a.symbolsOf drawn.scopes).filter (· != root)).map fits.move.symbol := by
  have sorted : ((a.symbolsOf drawn.scopes).filter (· != root)).Pairwise
      fun left right => left.index < right.index := (symbolsOf_sorted drawn.scopes).filter _
  have sortedCopy : (((a.symbolsOf drawn.scopes).filter (· != root)).map
      fits.move.symbol).Pairwise fun left right => left.index < right.index := by
    refine pairwise_map.2 (sorted.imp_of_mem fun {first second} isFirst isSecond ordered => ?_)
    obtain ⟨ownsFirst, -⟩ := drawn.mem_others.1 isFirst
    obtain ⟨ownsSecond, b⟩ := drawn.mem_others.1 isSecond
    exact drawn.grafted_symbol_lt ownsFirst ownsSecond b ordered
  have sortedThere := (@Arena.symbolsOf_sorted fits.after
    (drawn.scopes.map fits.move.scope)).filter (· != fits.move.symbol root)
  have ofSorted {ids : List SymbolId}
      (sorted : ids.Pairwise fun left right => left.index < right.index) : ids.Nodup :=
    sorted.imp fun before same => by simp [same] at before
  refine List.Perm.eq_of_pairwise
    (fun left right _ _ before after => absurd before (Nat.lt_asymm after))
    sortedThere sortedCopy ((perm_ext_iff_of_nodup (ofSorted sortedThere) (ofSorted sortedCopy)).2
      fun id => ?_)
  rw [mem_filter, mem_symbolsOf, mem_map]
  constructor
  · rintro ⟨⟨held, isHeld, proper, mem⟩, notRoot⟩
    obtain ⟨s, isScope, same⟩ := mem_map.1 mem
    have owned : a.OwnsScope root s := by
      refine ((drawn.listed.mem_iff s).1 isScope).resolve_left fun isRoot => proper ?_
      rw [← same, isRoot, fits.entered.outerScope]
      rfl
    rcases fits.entered.symbolCases isHeld with old | ⟨original, owns, rfl⟩
    · exact absurd same (fits.move_scope_ne owned (fits.owner old))
    · exact ⟨original, drawn.mem_others.2 ⟨owns, fun isRoot => by simp [isRoot] at notRoot⟩, rfl⟩
  · rintro ⟨original, member, rfl⟩
    obtain ⟨owns, notRoot⟩ := drawn.mem_others.1 member
    obtain ⟨symbol, h, inside⟩ := owns.resolve_left notRoot
    obtain ⟨held, isHeld, -, owner, -⟩ := fits.after_symbol_fields owns h
    refine ⟨⟨held, isHeld, ?_, ?_⟩, ?_⟩
    · rw [owner]
      change fits.move.scope symbol.owner ≠ target.root
      rw [← fits.entered.outerScope]
      exact fun same => inside.ne_root ((fits.move_scope_iff inside).1 same.symm).symm
    · rw [owner]
      exact mem_map_of_mem ((drawn.listed.mem_iff _).2 (.inr inside))
    · simpa using fun same =>
        notRoot (fits.copied.injectiveSymbol original root owns (.inl rfl) same)

theorem ownedBy_after :
    fits.after.ownedBy (fits.move.symbol root) (drawn.scopes.map fits.move.scope) =
      (a.ownedBy root drawn.scopes).map fits.move.symbol :=
  congrArg _ fits.symbolsOf_after

/-! ## The image -/

/-- The symbols that stand for the imports keep their paths. -/
theorem paths_after : imports.mapM fits.after.path = .ok image.imports := by
  rw [mapM_eq_ok]
  refine (mapM_eq_ok.1 fits.paths).imp fun {id path} named => ?_
  obtain ⟨symbol, h, rest⟩ := bind_eq_ok.1 named
  obtain ⟨owners, climbed, made⟩ := bind_eq_ok.1 rest
  refine bind_eq_ok.2 ⟨symbol, fits.entered.oldSymbol h, bind_eq_ok.2 ⟨owners, ?_, made⟩⟩
  have scopesKept {id : ScopeId} {table : Scope} (h : target.scope id = .ok table) :
      ∃ held, fits.after.scope id = .ok held ∧ held.owner = table.owner := by
    obtain ⟨held, isHeld, -, owner, -⟩ := fits.entered.oldScope h
    exact ⟨held, isHeld, owner⟩
  refine ownersWithin_kept fits.entered.oldSymbol scopesKept ?_ climbed
  have symbols : target.symbols.size ≤ fits.after.symbols.size := by
    simp only [declare, result, appended, Array.size_modify, Array.size_append]
    omega
  have scopes : target.scopes.size ≤ fits.after.scopes.size := by
    simp only [declare, result, appended, Array.size_modify, Array.size_append]
    omega
  omega

/-- Scopes get the numbers that the originals have. -/
theorem scope_numbering (id : ScopeId) :
    (fits.move.numbering drawn.numbering).relocation.scope (fits.move.scope id) =
      drawn.numbering.relocation.scope id := by
  obtain ⟨rest, first⟩ := drawn.listed.head
  refine congrArg ScopeId.mk ?_
  change ((drawn.numbering.scopes.map fits.move.scope).idxOf? _).getD 0 = _
  rw [drawn.scopesNumbered]
  by_cases owned : a.OwnsScope root id
  · have mem : id ∈ drawn.scopes := (drawn.listed.mem_iff id).2 (.inr owned)
    rw [Extraction.idxOf?_of_mem mem, Extraction.idxOf?_of_mem (mem_map_of_mem mem),
      idxOf_map fun other _ => (fits.move_scope_iff owned).1]
  · have zero : (drawn.scopes.idxOf? id).getD 0 = 0 := by
      by_cases isRoot : id = a.root
      · rw [isRoot, first, idxOf?_cons]
        simp
      · have absent : id ∉ drawn.scopes := fun mem =>
          ((drawn.listed.mem_iff id).1 mem).elim isRoot owned
        rw [idxOf?_eq_none_iff.2 absent]
        rfl
    rw [zero, drawn.grafted_outer owned, first, map_cons, fits.entered.outerScope, idxOf?_cons]
    simp

/-- The visit of the copy numbers the copied references in the same order. -/
theorem visit_after (visit : Extraction.visitWithin a (a.exprs.size + 1) [] drawn.start =
      .ok (visited, drawn.numbering)) :
    ∃ copies, Extraction.visitWithin fits.after (fits.after.exprs.size + 1) []
      (fits.move.numbering drawn.start) = .ok (copies, fits.move.numbering drawn.numbering) := by
  have start := a.progress_start (a.ownedBy root drawn.scopes) drawn.scopes
    (nodeReferences drawn.symbols drawn.tables)
  obtain ⟨-, -, extended⟩ := Extraction.visitWithin_progress visit start
  refine Extraction.visitWithin_relocated fits.separates (fun id expr met h => met.expr h)
    (fun id expr met => fits.after_expr ((drawn.knows_iff _).2 met)) visit start
    (fun r known => (drawn.knows_iff r).1 (extended.knows known)) ?_
  have counted := (mapM_eq_ok.1 drawn.exprsFound).length_eq
  simp only [declare, result, appended, Array.size_append, size_toArray, length_map]
  omega

/-- The symbols that are found for the copy: the module, marked as loaded, and the other symbols. -/
theorem symbols_after : ∃ first rest, drawn.symbols = first :: rest ∧
      ((a.ownedBy root drawn.scopes).map fits.move.symbol).mapM fits.after.symbol =
        .ok ((fits.move.symbolNode first).asLoaded :: rest.map fits.move.symbolNode) := by
  obtain ⟨first, rest, h, others, same⟩ := forall₂_cons_left_iff.1 (mapM_eq_ok.1 drawn.symbolsFound)
  refine ⟨first, rest, same, ?_⟩
  have here := fits.after_symbol (.inl rfl) h
  rw [if_pos rfl] at here
  have there : (((a.symbolsOf drawn.scopes).filter (· != root)).map fits.move.symbol).mapM
      fits.after.symbol = .ok (rest.map fits.move.symbolNode) := by
    refine mapM_moved (mapM_eq_ok.2 others) fun id mem symbol held => ?_
    obtain ⟨owned, notRoot⟩ := drawn.mem_others.1 mem
    have copied := fits.after_symbol owned held
    rwa [if_neg notRoot] at copied
  rw [ownedBy, map_cons, mapM_cons, here, there]
  rfl

theorem tables_after : ((drawn.scopes.map fits.move.scope).drop 1).mapM fits.after.scope =
      .ok (drawn.tables.map fits.move.scopeNode) := by
  rw [← map_drop]
  exact mapM_moved drawn.tablesFound fun id mem table h =>
    fits.entered.newScope (drawn.listed.mem_tail.1 mem) h

theorem reference_numbering (met : a.Met root r) :
    (fits.move.numbering drawn.numbering).relocation.reference (fits.move.reference r) =
      drawn.numbering.relocation.reference r :=
  fits.separates.relocation_numbering (fun r => (drawn.knows_iff r).1) met

/-- Before the visit of expressions, the references of the copy have been met in the order of the
originals. -/
theorem start_after (symbols : drawn.symbols = first :: rest) :
    (numberingAt ((a.ownedBy root drawn.scopes).map fits.move.symbol)
      (drawn.scopes.map fits.move.scope)).meetAll
      (nodeReferences ((fits.move.symbolNode first).asLoaded :: rest.map fits.move.symbolNode)
        (drawn.tables.map fits.move.scopeNode)) = fits.move.numbering drawn.start := by
  have references : nodeReferences
      ((fits.move.symbolNode first).asLoaded :: rest.map fits.move.symbolNode)
      (drawn.tables.map fits.move.scopeNode) =
      (nodeReferences drawn.symbols drawn.tables).map fits.move.reference := by
    have each (symbol : Symbol) : (fits.move.symbolNode symbol).kind.references =
        symbol.kind.references.map fits.move.reference :=
      fits.move.references_symbolKind symbol.kind
    have others := @Relocation.flatMap_references fits.move _ _
      (fun symbol : Symbol => symbol.kind.references) each rest
    have tables := Relocation.flatMap_references _ fits.move.references_scopeNode drawn.tables
    simp only [nodeReferences, symbols, flatMap_cons, Symbol.references_asLoaded, each, others,
      tables, map_append]
  have known : ∀ r, (numberingAt (a.ownedBy root drawn.scopes) drawn.scopes).Knows r →
      a.Met root r := by
    intro r mem
    cases r with
    | symbol id => exact .inl ⟨id, rfl, drawn.mem_members.1 mem⟩
    | expr => cases mem
  rw [references]
  exact fits.separates.meetAll known fun r occurs =>
    .inr (met_of_mem_nodeReferences drawn.listed drawn.symbolsFound drawn.tablesFound r occurs)

theorem symbolNode_numbering (mem : symbol ∈ drawn.symbols) :
    (fits.move.numbering drawn.numbering).relocation.symbolNode (fits.move.symbolNode symbol) =
      drawn.numbering.relocation.symbolNode symbol := by
  obtain ⟨id, owned, h⟩ := (mem_answers drawn.symbolsFound).1 mem
  exact Relocation.symbolNode_symbolNode fits.scope_numbering fun r occurs =>
    fits.reference_numbering (.inr (.ofSymbol (drawn.mem_members.1 owned) h occurs))

theorem scopeNode_numbering (mem : table ∈ drawn.tables) :
    (fits.move.numbering drawn.numbering).relocation.scopeNode (fits.move.scopeNode table) =
      drawn.numbering.relocation.scopeNode table := by
  obtain ⟨id, owned, h⟩ := (mem_answers drawn.tablesFound).1 mem
  exact Relocation.scopeNode_scopeNode fits.scope_numbering fun r occurs =>
    fits.reference_numbering (.inr (.ofScope (drawn.listed.mem_tail.1 owned) h occurs))

theorem node_numbering (mem : expr ∈ drawn.exprs) :
    (fits.move.numbering drawn.numbering).relocation.node (fits.move.node expr) =
      drawn.numbering.relocation.node expr := by
  obtain ⟨id, numbered, h⟩ := (mem_answers drawn.exprsFound).1 mem
  exact Relocation.node_node fun r occurs =>
    fits.reference_numbering (((drawn.knows_iff (.expr id)).1 numbered).expr h r occurs)

/-- The module taken out of the arena it was put into gives the image again, marked as loaded. -/
theorem imageOf_after (searched : a.scopesBelow drawn.inner = .ok drawn.scopes)
    (visit : Extraction.visitWithin a (a.exprs.size + 1) [] drawn.start =
      .ok (visited, drawn.numbering)) (imageRoot : image.arena.root = ⟨0⟩) :
    fits.after.imageOf (fits.move.symbol root) = .ok image.asLoaded := by
  obtain ⟨symbol, h, named⟩ := name_eq_ok.1 drawn.name
  obtain ⟨again, refound, opens⟩ := symbolScope?_eq_ok.1 drawn.opened
  cases h.symm.trans refound
  obtain ⟨held, isHeld, heldName, -, heldOpens⟩ := fits.after_symbol_fields (.inl rfl) h
  obtain ⟨first, rest, symbols, symbolsThere⟩ := fits.symbols_after
  obtain ⟨copies, visitThere⟩ := fits.visit_after visit
  rw [← fits.start_after symbols] at visitThere
  -- The expressions that came out are the copies with numbers for identifiers.
  obtain ⟨progress, done, -⟩ := Extraction.visitWithin_progress visitThere (progress_start _ _ _)
  obtain ⟨exprs, exprsThere, exprsNumbered⟩ := Extraction.filterMap_lookup_visited progress done
  have exprsCopied : (drawn.numbering.exprs.map fits.move.expr).mapM fits.after.expr =
      .ok (drawn.exprs.map fits.move.node) :=
    mapM_moved drawn.exprsFound fun id mem expr => fits.after_expr mem
  cases exprsThere.symm.trans exprsCopied
  have foreignThere : ((fits.move.numbering drawn.numbering).symbols.drop
      ((a.ownedBy root drawn.scopes).map fits.move.symbol).length) = imports := by
    rw [length_map]
    exact map_drop.symm.trans (drawn.map_foreign fits.length_imports)
  have symbolsSame : (((fits.move.symbolNode first).asLoaded :: rest.map fits.move.symbolNode).map
      (fits.move.numbering drawn.numbering).relocation.symbolNode).toArray =
        image.arena.symbols.modify 0 Symbol.asLoaded := by
    have all := fun symbol mem => @symbolNode_numbering _ _ _ _ _ _ fits symbol (symbols ▸ mem)
    obtain ⟨here, others⟩ := forall_mem_cons.1 all
    rw [drawn.imageSymbols, symbols, map_cons, map_cons, Symbol.symbolNode_asLoaded, here, map_map,
      modify_toArray, modify_zero_cons]
    exact congrArg (fun others => (_ :: others : List Symbol).toArray) (map_congr_left others)
  have tablesSame : (drawn.tables.map fits.move.scopeNode).map
      (fits.move.numbering drawn.numbering).relocation.scopeNode =
        drawn.tables.map drawn.numbering.relocation.scopeNode := by
    rw [map_map]
    exact map_congr_left fun table => fits.scopeNode_numbering
  have exprsSame : (drawn.exprs.map fits.move.node).map
      (fits.move.numbering drawn.numbering).relocation.node =
        drawn.exprs.map drawn.numbering.relocation.node := by
    rw [map_map]
    exact map_congr_left fun expr => fits.node_numbering
  have arenaSame : image.asLoaded.arena = {
      symbols := image.arena.symbols.modify 0 Symbol.asLoaded
      scopes := image.arena.scopes
      exprs := image.arena.exprs
      root := ⟨0⟩ } := by
    simp only [Image.asLoaded, drawn.imageRoot, imageRoot]
  have made : fits.after.extraction image.name ((a.ownedBy root drawn.scopes).map fits.move.symbol)
      (drawn.scopes.map fits.move.scope)
      (numberingAt ((a.ownedBy root drawn.scopes).map fits.move.symbol)
        (drawn.scopes.map fits.move.scope)) =
      .ok (image.asLoaded.arena, fits.move.numbering drawn.numbering) := by
    refine extraction_eq_ok.2 ⟨_, _, copies, symbolsThere, fits.tables_after, visitThere, ?_⟩
    rw [symbolsSame, tablesSame, exprsNumbered, exprsSame, ← drawn.imageScopes,
      ← drawn.imageExprs, arenaSame]
  rw [← fits.ownedBy_after] at made foreignThere
  refine imageOf_eq_ok.2 ⟨image.name, _, _, image.asLoaded.arena, _, image.imports,
    name_eq_ok.2 ⟨held, isHeld, heldName.trans named⟩,
    symbolScope?_eq_ok.2 ⟨held, isHeld, heldOpens.trans (congrArg _ opens)⟩,
    fits.scopesBelow_after searched, made, ?_, ?_⟩
  · rw [foreignThere]
    exact fits.paths_after
  · rw [← drawn.imageRoot]
    rfl

end Admitted

end Extracted

/-- A module of a session that is taken out, put into any arena and entered there is taken out once
more as the same image: the same symbols, scopes and expressions in the same order, with the same
numbers and spans, and the same imports. Only the module is marked as loaded. The arena needs a free
name for the module and, at the paths of the imports, symbols that have these paths. -/
theorem Session.image_fixed_by_loading {arenas : List Arena} (session : Session arenas)
    {arena : Arena} (listed : arena ∈ arenas) {module : SymbolId} {info : Module}
    (isModule : arena.kind module = .ok (.moduleUnit info))
    {image : Image} (taken : arena.imageOf module = .ok image) (distinct : image.imports.Nodup)
    {target : Arena}
    (owners : ∀ id symbol, target.symbol id = .ok symbol → symbol.owner.index < target.scopes.size)
    {imports : List SymbolId}
    (resolved : List.Forall₂ (fun path id => target.findPath path = .ok (some id) ∧
      target.path id = .ok path) image.imports imports)
    (free : target.find? target.root image.name = .ok none) (span : Span) :
    ∃ copy grafted after, image.graft imports target = .ok copy grafted ∧
      Edit.declare target.root image.name copy span grafted = .ok () after ∧
      after.imageOf copy = .ok image.asLoaded := by
  obtain ⟨extracted, visited, searched, visit, imageRoot⟩ := Arena.exists_extracted taken
  obtain ⟨table, rootFound, unused⟩ := Arena.free_iff.1 free
  have admitted : extracted.Admitted target imports := {
    outside := fun symbol found owned => by
      obtain ⟨again, foundAgain, kind⟩ := Arena.kind_eq_ok.1 isModule
      cases found.symm.trans foundAgain
      have law := (session.lawful arena listed).kind found
      rw [kind] at law
      exact owned.ne_root law
    root := Arena.scope_inRange rootFound
    owner := owners _ _
    paths := mapM_eq_ok.2 (resolved.flip.imp fun {_ _} both => both.2)
    distinct }
  have stillUnused : (extracted.result target imports).Free target.root image.name :=
    ⟨table, (admitted.copied.keptScope _ (Arena.scope_inRange rootFound)).trans rootFound, unused⟩
  obtain ⟨-, inRange⟩ := (admitted.copied.newSymbol (admitted.move.symbol module)).2
    ⟨module, .inl rfl, rfl⟩
  refine ⟨_, _, _, extracted.graft_eq_ok admitted.length_imports,
    Edit.declare_eq_ok.2 ⟨stillUnused, inRange, rfl⟩, ?_⟩
  have first : admitted.move.symbol module = ⟨target.symbols.size⟩ := extracted.grafted_root
  have again := admitted.imageOf_after searched visit imageRoot
  rwa [Extracted.Admitted.after, ← first] at again

/-- A module `b` that refers to a variable of a module `a`. -/
def Tree.sampleReference : Tree.CompilationUnit :=
  ⟨[.moduleUnit ⟨"a", [], [],
    [.var ⟨.integer none, [], [⟨"y", [], none, default⟩], default⟩], [], default⟩,
    .moduleUnit ⟨"b", [⟨"a", none, default⟩], [], [],
      [⟨.subroutine, "s", [], none, none, [], [], [],
        [.print [⟨.binary .add ⟨.name "y", default⟩ ⟨.int "1", default⟩, default⟩]], [], default⟩],
        default⟩]⟩

/-- The module `a` behind another module. -/
def Tree.sampleOther : Tree.CompilationUnit :=
  ⟨[.moduleUnit ⟨"c", [], [],
    [.var ⟨.real none, [], [⟨"x", [], none, default⟩], default⟩], [], default⟩,
    .moduleUnit ⟨"a", [], [], [.var ⟨.integer none, [], [⟨"y", [], none, default⟩], default⟩],
      [], default⟩]⟩

namespace Session

/-- The modules `a` and `b`. -/
def sampleReference : Arena :=
  empty.after ⟨{}, {}⟩ Tree.sampleReference

/-- The modules `c` and `a`. -/
def sampleOther : Arena :=
  empty.after ⟨{}, {}⟩ Tree.sampleOther

/-- The module `b` is loaded beside another copy of `a` and taken out again. -/
theorem image_fixed_by_loading_reference :
    Session [sampleReference, Arena.empty] ∧ ∃ image copy grafted after,
      sampleReference.imageOf ⟨2⟩ = .ok image ∧ image.imports = [["a", "y"]] ∧
      image.graft [⟨3⟩] sampleOther = .ok copy grafted ∧
      Edit.declare sampleOther.root "b" copy default grafted = .ok () after ∧
      after.imageOf copy = .ok image.asLoaded := by
  have session : Session [sampleReference, Arena.empty] :=
    .after .start (.head _) (fun _ _ loaded => by cases loaded) (by decide +kernel)
  have other : Session [sampleOther, Arena.empty] :=
    .after .start (.head _) (fun _ _ loaded => by cases loaded) (by decide +kernel)
  obtain ⟨kind, kindFound, form⟩ : ∃ kind, sampleReference.kind ⟨2⟩ = .ok kind ∧
    kind.form = .moduleUnit ⟨2⟩ false :=
    exists_of_view (by decide +kernel)
  obtain ⟨info, rfl⟩ : ∃ info, kind = .moduleUnit info := by
    cases kind <;> first | exact ⟨_, rfl⟩ | cases form
  obtain ⟨image, taken, seen⟩ : ∃ image, sampleReference.imageOf ⟨2⟩ = .ok image ∧
      (image.name, image.imports) = ("b", [["a", "y"]]) := exists_of_view (by decide +kernel)
  obtain ⟨name, imports⟩ := Prod.mk.inj seen
  have owners : ∀ id symbol, sampleOther.symbol id = .ok symbol →
      symbol.owner.index < sampleOther.scopes.size := by
    intro id symbol found
    obtain ⟨table, _, tableFound, -⟩ := (other.lawful _ (.head _)).sound.entered found
    exact Arena.scope_inRange tableFound
  have resolved : List.Forall₂ (fun path id => sampleOther.findPath path = .ok (some id) ∧
      sampleOther.path id = .ok path) image.imports [⟨3⟩] := by
    rw [imports]
    exact .cons ⟨by decide +kernel, by decide +kernel⟩ .nil
  have free : sampleOther.find? sampleOther.root image.name = .ok none := by
    rw [name]
    decide +kernel
  obtain ⟨copy, grafted, after, grafts, declares, again⟩ := image_fixed_by_loading session (.head _)
    kindFound taken (by rw [imports]; decide) owners resolved free default
  exact ⟨session, image, copy, grafted, after, taken, imports, grafts, name ▸ declares, again⟩

end Session

end FortranSemantics
