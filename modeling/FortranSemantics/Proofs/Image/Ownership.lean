import FortranSemantics.Image.Extraction
import FortranSemantics.Proofs.Arena.Query
import FortranSemantics.Proofs.Arena.Relocation
import Mathlib.Algebra.BigOperators.Fin
import Mathlib.Algebra.Order.BigOperators.Group.Finset
import Mathlib.Tactic.Tauto

/-!
# What a module owns

A symbol that belongs to a scope and stands in its table opens a scope inside it. A module owns its
scope, the scopes inside it, and the symbols that belong to them. The search that lists the scopes
of a module finds exactly these, lists each of them once, and lists an outer scope before an inner
one.
-/

namespace FortranSemantics.Arena

open List

variable {a : Arena} {root : SymbolId} {id inner scope : ScopeId}
  {h numbered scopes stack : List ScopeId} {fuel : Nat}

/-- Whether a symbol in the table of a scope that belongs to the scope opens another one. -/
def Opens (a : Arena) (outer inner : ScopeId) : Prop :=
  ∃ table entry symbol, a.scope outer = .ok table ∧ entry ∈ table.entries ∧
    a.symbol entry.2 = .ok symbol ∧ symbol.owner = outer ∧ symbol.kind.scope? = some inner

/-- The scopes inside a symbol: the one it opens and those inside it, all but the root. -/
inductive OwnsScope (a : Arena) (root : SymbolId) : ScopeId → Prop
  | own {symbol : Symbol} {inner : ScopeId} (found : a.symbol root = .ok symbol)
      (opened : symbol.kind.scope? = some inner) (proper : inner ≠ a.root) :
      OwnsScope a root inner
  | nested {outer inner : ScopeId} (owned : OwnsScope a root outer)
      (opened : a.Opens outer inner) (proper : inner ≠ a.root) :
      OwnsScope a root inner

/-- The symbols inside a symbol: itself and those that belong to the scopes inside it. -/
def OwnsSymbol (a : Arena) (root id : SymbolId) : Prop :=
  id = root ∨ ∃ symbol, a.symbol id = .ok symbol ∧ a.OwnsScope root symbol.owner

theorem OwnsScope.ne_root (owned : a.OwnsScope root scope) : scope ≠ a.root := by
  cases owned with
  | own _ _ proper | nested _ _ proper => exact proper

/-- The scopes listed for a scope are those that its symbols open. -/
theorem mem_innerScopes (mem : a.innerScopes outer = .ok scopes) : inner ∈ scopes ↔
    a.Opens outer inner := by
  unfold innerScopes at mem
  obtain ⟨tb, h, q⟩ := bind_eq_ok.1 mem
  obtain ⟨answers, answered, kept⟩ := bind_eq_ok.1 q
  cases kept
  rw [mem_filterMap]
  constructor
  · rintro ⟨ans, member, rfl⟩
    obtain ⟨id, inTable, ans⟩ := (mem_answers answered).1 member
    obtain ⟨e, inEntries, rfl⟩ := mem_map.1 inTable
    obtain ⟨sym, held, chosen⟩ := bind_eq_ok.1 ans
    split at chosen
    · next belongs =>
      obtain ⟨same, heldAgain, opened⟩ := symbolScope?_eq_ok.1 chosen
      cases held.symm.trans heldAgain
      exact ⟨tb, e, sym, h, inEntries, held, belongs, opened⟩
    · cases chosen
  · rintro ⟨again, e, sym, refound, inEntries, held, belongs, opened⟩
    cases h.symm.trans refound
    refine ⟨some inner, (mem_answers answered).2 ⟨e.2, mem_map_of_mem inEntries, ?_⟩, rfl⟩
    rw [held]
    change (if sym.owner = outer then a.symbolScope? e.2 else pure none) = _
    rw [if_pos belongs]
    exact symbolScope?_eq_ok.2 ⟨sym, held, opened⟩

/-- What is known of the outcome of the search for scopes: it keeps what was numbered, lists nothing
twice, and finds exactly what stood on the stack and what the found scopes open. -/
structure Listed (a : Arena) (numbered stack found : List ScopeId) : Prop where
  kept : numbered <+: found
  nodup : numbered.Nodup → found.Nodup
  covers : ∀ scope ∈ stack, scope ∈ found
  closed : ∀ outer ∈ found, outer ∉ numbered → ∀ inner, a.Opens outer inner → inner ∈ found
  origin : ∀ inner ∈ found, inner ∈ numbered ∨ inner ∈ stack ∨
    ∃ outer ∈ found, outer ∉ numbered ∧ a.Opens outer inner ∧
      found.idxOf outer < found.idxOf inner

theorem Listed.skip (known : id ∈ numbered) (rest : a.Listed numbered stack h) :
    a.Listed numbered (id :: stack) h where
  kept := rest.kept
  nodup := rest.nodup
  covers scope mem := by
    rcases mem_cons.1 mem with rfl | b
    · exact rest.kept.subset known
    · exact rest.covers scope b
  closed := rest.closed
  origin inner mem := by
    rcases rest.origin inner mem with old | waiting | opened
    · exact .inl old
    · exact .inr (.inl (.tail _ waiting))
    · exact .inr (.inr opened)

/-- Numbering a scope and putting the scopes it opens on the stack loses nothing. -/
theorem Listed.expand {inner : List ScopeId}
    (unknown : id ∉ numbered) (opens : ∀ scope, scope ∈ inner ↔ a.Opens id scope)
    (rest : a.Listed (numbered ++ [id]) (inner.reverse ++ stack) h) :
    a.Listed numbered (id :: stack) h where
  kept := (prefix_append _ _).trans rest.kept
  nodup distinct := rest.nodup <| by
    rw [nodup_append_comm]
    exact nodup_cons.2 ⟨unknown, distinct⟩
  covers scope mem := by
    rcases mem_cons.1 mem with rfl | b
    · exact rest.kept.subset (by simp)
    · exact rest.covers scope (by simp [b])
  closed outer mem fresh scope opened := by
    by_cases same : outer = id
    · subst same
      exact rest.covers scope (by simp [(opens scope).2 opened])
    · exact rest.closed outer mem (by simp [fresh, same]) scope opened
  origin scope mem := by
    by_cases same : scope = id
    · exact .inr (.inl (by simp [same]))
    by_cases old : scope ∈ numbered
    · exact .inl old
    have fresh : scope ∉ numbered ++ [id] := by simp [old, same]
    rcases rest.origin scope mem with known | waiting | ⟨outer, outerFound, outerFresh, opened, pre⟩
    · exact absurd known fresh
    · rcases mem_append.1 waiting with pushed | waited
      · have opened := (opens scope).1 (mem_reverse.1 pushed)
        refine .inr (.inr ⟨id, rest.kept.subset (by simp), unknown, opened, ?_⟩)
        -- The opening scope is numbered already, the opened one comes later.
        obtain ⟨b, appended⟩ := rest.kept
        rw [← appended, idxOf_append_of_mem (by simp), idxOf_append_of_notMem fresh]
        have bound : (numbered ++ [id]).idxOf id < (numbered ++ [id]).length :=
          idxOf_lt_length_of_mem (by simp)
        omega
      · exact .inr (.inl (.tail _ waited))
    · exact .inr (.inr ⟨outer, outerFound, fun known => outerFresh (by simp [known]), opened, pre⟩)

theorem scopesWithin_listed (searched : a.scopesWithin fuel numbered stack = .ok h) :
    a.Listed numbered stack h := by
  induction fuel generalizing numbered stack with
  | zero =>
    cases stack with
    | nil =>
      cases searched
      exact ⟨prefix_refl _, id, by simp, fun _ known fresh => absurd known fresh, fun _ => .inl⟩
    | cons id stack => cases searched
  | succ fuel ih =>
    cases stack with
    | nil =>
      cases searched
      exact ⟨prefix_refl _, id, by simp, fun _ known fresh => absurd known fresh, fun _ => .inl⟩
    | cons id stack =>
      unfold scopesWithin at searched
      by_cases known : id ∈ numbered
      · rw [if_pos (contains_iff_mem.2 known)] at searched
        exact (ih searched).skip known
      · rw [if_neg (mt contains_iff_mem.1 known)] at searched
        obtain ⟨inner, mem, rest⟩ := bind_eq_ok.1 searched
        exact (ih rest).expand known fun scope => mem_innerScopes mem

/-- Whether the identifier of a reference is in range. -/
def InRange (a : Arena) : Reference → Prop
  | .symbol id => id.index < a.symbols.size
  | .expr id => id.index < a.exprs.size

/-- An arena in which all identifiers are in range. -/
structure Closed (a : Arena) : Prop where
  root : a.root.index < a.scopes.size
  owner : ∀ {id symbol}, a.symbol id = .ok symbol → symbol.owner.index < a.scopes.size
  opened : ∀ {id symbol inner}, a.symbol id = .ok symbol → symbol.kind.scope? = some inner →
    inner.index < a.scopes.size
  symbol : ∀ {id symbol}, a.symbol id = .ok symbol →
    ∀ r ∈ symbol.kind.references, a.InRange r
  parent : ∀ {id scope outer}, a.scope id = .ok scope → scope.parent = some outer →
    outer.index < a.scopes.size
  scope : ∀ {id scope}, a.scope id = .ok scope → ∀ r ∈ scope.references, a.InRange r
  expr : ∀ {id expr}, a.expr id = .ok expr → ∀ r ∈ expr.references, a.InRange r

instance (r : Reference) : Decidable (a.InRange r) :=
  match r with
  | .symbol id => inferInstanceAs (Decidable (id.index < a.symbols.size))
  | .expr id => inferInstanceAs (Decidable (id.index < a.exprs.size))

theorem mem_symbols : sym ∈ a.symbols ↔ ∃ id, a.symbol id = .ok sym := by
  simp only [symbol_eq_ok, Array.mem_iff_getElem?]
  exact ⟨fun ⟨i, h⟩ => ⟨⟨i⟩, h⟩, fun ⟨id, h⟩ => ⟨id.index, h⟩⟩

theorem mem_scopes {scope : Scope} : scope ∈ a.scopes ↔ ∃ id, a.scope id = .ok scope := by
  simp only [scope_eq_ok, Array.mem_iff_getElem?]
  exact ⟨fun ⟨i, h⟩ => ⟨⟨i⟩, h⟩, fun ⟨id, h⟩ => ⟨id.index, h⟩⟩

theorem mem_exprs {expr : Expr} : expr ∈ a.exprs ↔ ∃ id, a.expr id = .ok expr := by
  simp only [expr_eq_ok, Array.mem_iff_getElem?]
  exact ⟨fun ⟨i, h⟩ => ⟨⟨i⟩, h⟩, fun ⟨id, h⟩ => ⟨id.index, h⟩⟩

/-- All identifiers are in range when those in each of the arena's nodes are. -/
theorem closed_iff : a.Closed ↔ a.root.index < a.scopes.size ∧
    (∀ sym ∈ a.symbols, sym.owner.index < a.scopes.size ∧
      (∀ inner ∈ sym.kind.scope?, inner.index < a.scopes.size) ∧ ∀ r ∈ sym.kind.references,
      a.InRange r) ∧
    (∀ scope ∈ a.scopes, (∀ outer ∈ scope.parent, outer.index < a.scopes.size) ∧
      ∀ r ∈ scope.references, a.InRange r) ∧ ∀ expr ∈ a.exprs, ∀ r ∈ expr.references,
      a.InRange r := by
  constructor
  · intro closed
    refine ⟨closed.root, fun sym mem => ?_, fun scope mem => ?_, fun expr mem => ?_⟩
    · obtain ⟨id, h⟩ := mem_symbols.1 mem
      exact ⟨closed.owner h, fun inner opened => closed.opened h opened, closed.symbol h⟩
    · obtain ⟨id, h⟩ := mem_scopes.1 mem
      exact ⟨fun outer inside => closed.parent h inside, closed.scope h⟩
    · obtain ⟨id, h⟩ := mem_exprs.1 mem
      exact closed.expr h
  · rintro ⟨root, symbols, scopes, exprs⟩
    exact {
      root
      owner := fun h => (symbols _ (mem_symbols.2 ⟨_, h⟩)).1
      opened := fun h opened => (symbols _ (mem_symbols.2 ⟨_, h⟩)).2.1 _ opened
      symbol := fun h => (symbols _ (mem_symbols.2 ⟨_, h⟩)).2.2
      parent := fun h inside => (scopes _ (mem_scopes.2 ⟨_, h⟩)).1 _ inside
      scope := fun h => (scopes _ (mem_scopes.2 ⟨_, h⟩)).2
      expr := fun h => exprs _ (mem_exprs.2 ⟨_, h⟩) }

instance : Decidable a.Closed := decidable_of_iff _ closed_iff.symm

/-- The number of entries of a scope. -/
def entryCount (a : Arena) (index : Nat) : Nat :=
  (a.scopes[index]?.map (·.entries.length)).getD 0

/-- The number of entries of the scopes that have no number yet. -/
def entriesBeyond (a : Arena) (numbered : List ScopeId) : Nat :=
  ∑ index ∈ (Finset.range a.scopes.size).filter (⟨·⟩ ∉ numbered), a.entryCount index

theorem entriesBeyond_concat (unknown : id ∉ numbered) (lt : id.index < a.scopes.size) :
    a.entriesBeyond (numbered ++ [id]) + a.entryCount id.index = a.entriesBeyond numbered := by
  unfold entriesBeyond
  have mem : id.index ∈ (Finset.range a.scopes.size).filter (⟨·⟩ ∉ numbered) := by
    simpa using ⟨lt, unknown⟩
  rw [← Finset.sum_erase_add _ _ mem]
  congr 2
  ext i
  have same : (⟨i⟩ : ScopeId) = id ↔ i = id.index := by
    cases id
    simp
  simp only [Finset.mem_filter, Finset.mem_range, mem_append, mem_singleton, not_or,
    Finset.mem_erase, same]
  tauto

theorem entriesBeyond_le (numbered : List ScopeId) :
    a.entriesBeyond numbered ≤ (a.scopes.toList.map (·.entries.length)).foldr (· + ·) 0 := by
  have all : (a.scopes.toList.map (·.entries.length)).foldr (· + ·) 0 =
      ∑ i ∈ Finset.range a.scopes.size, a.entryCount i := by
    rw [← sum_eq_foldr, Finset.sum_range, ← sum_ofFn]
    congr 1
    apply ext_getElem
    · simp
    · intro i _ _
      simp [entryCount]
  rw [all]
  exact Finset.sum_le_sum_of_subset (Finset.filter_subset _ _)

/-- The scopes inside a scope are found when all identifiers are in range. -/
theorem exists_innerScopes (closed : a.Closed) (lt : id.index < a.scopes.size) :
    ∃ inner, a.innerScopes id = .ok inner ∧ inner.length ≤ a.entryCount id.index ∧
      ∀ scope ∈ inner, scope.index < a.scopes.size := by
  obtain ⟨tb, h⟩ := exists_scope lt
  have each : ∀ sym ∈ tb.symbols, ∃ ans, (do
      if (← a.symbol sym).owner = id then a.symbolScope? sym else return none)
      = Except.ok ans := by
    intro sym member
    obtain ⟨e, inEntries, rfl⟩ := mem_map.1 member
    have reference : Reference.symbol e.2 ∈ tb.references := by
      simp only [Scope.references, mem_append, mem_map]
      exact .inr ⟨e, inEntries, rfl⟩
    obtain ⟨sym, held⟩ := exists_symbol (closed.scope h _ reference)
    by_cases belongs : sym.owner = id
    · refine ⟨sym.kind.scope?, bind_eq_ok.2 ⟨sym, held, ?_⟩⟩
      rw [if_pos belongs]
      exact symbolScope?_eq_ok.2 ⟨sym, held, rfl⟩
    · refine ⟨none, bind_eq_ok.2 ⟨sym, held, ?_⟩⟩
      rw [if_neg belongs]
      rfl
  obtain ⟨answers, answered⟩ := exists_answers each
  have mem : a.innerScopes id = .ok (answers.filterMap fun scope => scope) := by
    unfold innerScopes
    exact bind_eq_ok.2 ⟨tb, h, bind_eq_ok.2 ⟨answers, answered, rfl⟩⟩
  refine ⟨_, mem, ?_, fun scope member => ?_⟩
  · have sameLength : answers.length = tb.entries.length := by
      rw [← (mapM_eq_ok.1 answered).length_eq, Scope.symbols, length_map]
    have counted : a.entryCount id.index = tb.entries.length := by
      simp [entryCount, scope_eq_ok.1 h]
    rw [counted, ← sameLength]
    exact length_filterMap_le _ _
  · obtain ⟨_, _, sym, _, _, held, _, opened⟩ := (mem_innerScopes mem).1 member
    exact closed.opened held opened

/-- The search has an outcome with as many steps as there are scopes on the stack and entries to be
seen. -/
theorem exists_scopesWithin (closed : a.Closed) (lt : ∀ scope ∈ stack, scope.index < a.scopes.size)
    (enough : stack.length + a.entriesBeyond numbered ≤ fuel) :
    ∃ h, a.scopesWithin fuel numbered stack = .ok h := by
  induction fuel generalizing numbered stack with
  | zero =>
    cases stack with
    | nil => exact ⟨numbered, rfl⟩
    | cons id stack => simp at enough
  | succ fuel ih =>
    cases stack with
    | nil => exact ⟨numbered, rfl⟩
    | cons id stack =>
      rw [length_cons] at enough
      have idInRange := lt id (.head _)
      have restInRange : ∀ scope ∈ stack, scope.index < a.scopes.size :=
        fun scope member => lt scope (.tail _ member)
      unfold scopesWithin
      by_cases known : id ∈ numbered
      · rw [if_pos (contains_iff_mem.2 known)]
        exact ih restInRange (by omega)
      · rw [if_neg (mt contains_iff_mem.1 known)]
        obtain ⟨inner, mem, few, innerInRange⟩ := exists_innerScopes closed idInRange
        have counted := entriesBeyond_concat known idInRange
        rw [mem]
        apply ih
        · intro scope member
          rcases mem_append.1 member with pushed | waiting
          · exact innerInRange scope (mem_reverse.1 pushed)
          · exact restInRange scope waiting
        · rw [length_append, length_reverse]
          omega

theorem exists_scopesBelow (closed : a.Closed)
    (lt : id.index < a.scopes.size) : ∃ scopes, a.scopesBelow id = .ok scopes := by
  apply exists_scopesWithin closed
  · intro scope mem
    rw [mem_singleton.1 mem]
    exact lt
  · have bound := a.entriesBeyond_le [a.root]
    rw [length_singleton]
    omega

/-- The list of a module's scopes: the root, then those the module owns, each once, outer ones
before inner ones. -/
structure ScopesOf (a : Arena) (root : SymbolId) (inner : ScopeId) (scopes : List ScopeId) :
    Prop where
  head : ∃ rest, scopes = a.root :: rest
  nodup : scopes.Nodup
  mem_iff : ∀ scope, scope ∈ scopes ↔ scope = a.root ∨ a.OwnsScope root scope
  origin : ∀ scope, a.OwnsScope root scope → scope = inner ∨
    ∃ outer, a.OwnsScope root outer ∧ a.Opens outer scope ∧
      scopes.idxOf outer < scopes.idxOf scope

theorem ScopesOf.mem_tail (mem : a.ScopesOf root inner scopes) : scope ∈ scopes.drop 1 ↔
    a.OwnsScope root scope := by
  obtain ⟨rest, same⟩ := mem.head
  have distinct := mem.nodup
  have members := mem.mem_iff scope
  rw [same] at distinct members ⊢
  rw [drop_one, tail_cons]
  constructor
  · intro b
    rcases members.1 (.tail _ b) with isRoot | own
    · exact absurd (isRoot ▸ b) (nodup_cons.1 distinct).1
    · exact own
  · intro own
    rcases mem_cons.1 (members.2 (.inr own)) with isRoot | b
    · exact absurd isRoot own.ne_root
    · exact b

/-- The search below the scope of a module lists the module's scopes. -/
theorem scopesBelow_eq_ok (opened : a.symbolScope? root = .ok (some inner))
    (searched : a.scopesBelow inner = .ok scopes) : a.ScopesOf root inner scopes := by
  obtain ⟨sym, h, opens⟩ := symbolScope?_eq_ok.1 opened
  have mem : a.Listed [a.root] [inner] scopes := scopesWithin_listed searched
  have distinct : scopes.Nodup := mem.nodup (nodup_singleton _)
  obtain ⟨rest, appended⟩ := mem.kept
  have rootListed : a.root ∈ scopes := mem.kept.subset (.head _)
  have sound : ∀ position scope, scope ∈ scopes → scopes.idxOf scope ≤ position →
      scope = a.root ∨ a.OwnsScope root scope := by
    intro position
    induction position with
    | zero =>
      intro scope member first
      have same : scopes.idxOf a.root = 0 := by simp [← appended]
      exact .inl ((idxOf_inj member).1 (by omega))
    | succ position ih =>
      intro scope member bound
      by_cases isRoot : scope = a.root
      · exact .inl isRoot
      rcases mem.origin scope member with old | waiting | ⟨outer, outerListed, fresh, opened, pre⟩
      · exact .inl (by simpa using old)
      · have same : scope = inner := by simpa using waiting
        exact .inr (same ▸ .own h opens (same ▸ isRoot))
      · rcases ih outer outerListed (by omega) with rootAgain | owned
        · exact absurd (by simp [rootAgain]) fresh
        · exact .inr (.nested owned opened isRoot)
  have complete : ∀ scope, a.OwnsScope root scope → scope ∈ scopes := by
    intro scope owned
    induction owned with
    | own refound opensAgain proper =>
      cases h.symm.trans refound
      cases opens.symm.trans opensAgain
      exact mem.covers _ (.head _)
    | nested owned opened proper ih =>
      exact mem.closed _ ih (by simpa using owned.ne_root) _ opened
  refine ⟨⟨rest, appended.symm⟩, distinct, fun scope => ?_, fun scope owned => ?_⟩
  · constructor
    · exact fun member => sound _ scope member le_rfl
    · rintro (rfl | owned)
      · exact rootListed
      · exact complete scope owned
  · rcases mem.origin scope (complete scope owned) with
      old | waiting | ⟨outer, outerListed, fresh, opened, pre⟩
    · exact absurd (by simpa using old) owned.ne_root
    · exact .inl (by simpa using waiting)
    · rcases sound _ outer outerListed le_rfl with isRoot | outerOwned
      · exact absurd (by simp [isRoot]) fresh
      · exact .inr ⟨outer, outerOwned, opened, pre⟩

theorem mem_symbolsOf {id : SymbolId} : id ∈ a.symbolsOf scopes ↔ ∃ sym, a.symbol id = .ok sym ∧
      sym.owner ≠ a.root ∧ sym.owner ∈ scopes := by
  unfold symbolsOf
  simp only [mem_filter, mem_map, mem_range, Option.any_eq_true, Bool.and_eq_true, bne_iff_ne,
    contains_iff_mem]
  constructor
  · rintro ⟨-, sym, held, proper, mem⟩
    exact ⟨sym, symbol_eq_ok.2 held, proper, mem⟩
  · rintro ⟨sym, held, proper, mem⟩
    exact ⟨⟨id.index, symbol_inRange held, rfl⟩, sym, symbol_eq_ok.1 held, proper, mem⟩

theorem symbolsOf_sorted (scopes : List ScopeId) :
    (a.symbolsOf scopes).Pairwise fun left right => left.index < right.index := by
  apply List.Pairwise.filter
  rw [pairwise_map]
  exact pairwise_lt_range

/-- The symbols of a module: the module, then the symbols of its scopes. -/
def ownedBy (a : Arena) (root : SymbolId) (scopes : List ScopeId) : List SymbolId :=
  root :: (a.symbolsOf scopes).filter (· != root)

theorem mem_ownedBy {id : SymbolId} (mem : a.ScopesOf root inner scopes) :
    id ∈ a.ownedBy root scopes ↔ a.OwnsSymbol root id := by
  unfold ownedBy OwnsSymbol
  rw [mem_cons, mem_filter, mem_symbolsOf]
  by_cases same : id = root
  · simp [same]
  · constructor
    · rintro (isRoot | ⟨⟨sym, held, proper, member⟩, -⟩)
      · exact .inl isRoot
      · rcases (mem.mem_iff _).1 member with isRoot | own
        · exact absurd isRoot proper
        · exact .inr ⟨sym, held, own⟩
    · rintro (isRoot | ⟨sym, held, own⟩)
      · exact .inl isRoot
      · exact .inr ⟨⟨sym, held, own.ne_root, (mem.mem_iff _).2 (.inr own)⟩, by simpa using same⟩

theorem nodup_ownedBy (root : SymbolId) (scopes : List ScopeId) :
    (a.ownedBy root scopes).Nodup := by
  unfold ownedBy
  have distinct : (a.symbolsOf scopes).Nodup :=
    (symbolsOf_sorted scopes).imp fun pre same => by simp [same] at pre
  exact nodup_cons.2 ⟨by simp, distinct.filter _⟩

end FortranSemantics.Arena
