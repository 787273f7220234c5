import FortranSemantics.Arena.Audit
import FortranSemantics.Proofs.Arena.Entry

/-!
# Paths of symbols

The path of a sym climbs from scope to scope through their owners; a search for a path descends
through the tables of names. In an arena without problems the two are inverse to each other, because
the audit has looked at every scope that a search can enter: there each entry belongs to the scope
and bears its name, and the scope that it opens is owned by it.
-/

namespace FortranSemantics.Arena

open List

variable {arena : Arena} {scope : ScopeId} {id last : SymbolId} {name : String}

/-- Whether a scope is the root, or is opened by what a name stands for in such a scope. -/
inductive Enterable (arena : Arena) : ScopeId → Prop
  | root : Enterable arena arena.root
  | inner {scope inner : ScopeId} {name : String} {id : SymbolId} (outer : Enterable arena scope)
      (stands : arena.find? scope name = .ok (some id))
      (opens : arena.symbolScope? id = .ok (some inner)) : Enterable arena inner

/-! ## What an audit without problems says -/

theorem unlessSound_eq_nil : unlessSound sound problem = [] ↔ sound = true := by
  cases sound <;> simp [unlessSound]

theorem owner_of_auditOwner (clean : arena.auditOwner scope id name = .ok []) :
    ∃ tb, arena.scope scope = .ok tb ∧ tb.owner = some id := by
  obtain ⟨tb, h, made⟩ := bind_eq_ok.1 clean
  exact ⟨tb, h, eq_of_beq (unlessSound_eq_nil.1 (Except.ok.inj made))⟩

/-- A symbol without problems owns the scope it opens, and there are none in that scope. -/
theorem opened_of_auditKind {inner : ScopeId → Except Breach (List Problem)} {k : SymbolKind}
    (clean : arena.auditKind inner name id k = .ok []) (opens : k.scope? = some scope) :
    arena.auditOwner scope id name = .ok [] ∧ inner scope = .ok [] := by
  cases k with
  | function info =>
    cases opens
    obtain ⟨owner, own, rest⟩ := bind_eq_ok.1 clean
    obtain ⟨args, -, rest⟩ := bind_eq_ok.1 rest
    obtain ⟨within, audited, rest⟩ := bind_eq_ok.1 rest
    obtain ⟨body, -, made⟩ := bind_eq_ok.1 rest
    have none := Except.ok.inj made
    simp only [append_eq_nil_iff] at none
    exact ⟨none.1.1.1 ▸ own, none.1.2 ▸ audited⟩
  | moduleUnit info | derivedType info =>
    cases opens
    obtain ⟨owner, own, rest⟩ := bind_eq_ok.1 clean
    obtain ⟨within, audited, made⟩ := bind_eq_ok.1 rest
    have none := append_eq_nil_iff.1 (Except.ok.inj made)
    exact ⟨none.1 ▸ own, none.2 ▸ audited⟩
  | program info | block info =>
    cases opens
    obtain ⟨owner, own, rest⟩ := bind_eq_ok.1 clean
    obtain ⟨within, audited, rest⟩ := bind_eq_ok.1 rest
    obtain ⟨body, -, made⟩ := bind_eq_ok.1 rest
    have none := Except.ok.inj made
    simp only [append_eq_nil_iff] at none
    exact ⟨none.1.1 ▸ own, none.1.2 ▸ audited⟩
  | _ => cases opens

/-- In a scope without problems a name stands for a symbol of that name that belongs to the scope.
-/
theorem entry_of_auditScopeWithin (clean : arena.auditScopeWithin (fuel + 1) scope = .ok [])
    (stands : arena.find? scope name = .ok (some id)) :
    ∃ sym, arena.symbol id = .ok sym ∧ sym.owner = scope ∧ sym.name = name ∧
      arena.auditKind (arena.auditScopeWithin fuel) name id sym.kind = .ok [] := by
  obtain ⟨tb, h, rest⟩ := bind_eq_ok.1 clean
  obtain ⟨problems, audited, made⟩ := bind_eq_ok.1 rest
  obtain ⟨again, refound, looked⟩ := find?_eq_some.1 stands
  cases h.symm.trans refound
  obtain ⟨here, mem, e⟩ := exists_answer audited (Scope.mem_of_find? looked)
  have none : here = [] := flatten_eq_nil_iff.1 (Except.ok.inj made) here mem
  subst none
  obtain ⟨sym, held, rest⟩ := bind_eq_ok.1 e
  obtain ⟨k, auditedKind, made⟩ := bind_eq_ok.1 rest
  have none := Except.ok.inj made
  simp only [append_eq_nil_iff] at none
  exact ⟨sym, held, eq_of_beq (unlessSound_eq_nil.1 none.1.1),
    eq_of_beq (unlessSound_eq_nil.1 none.1.2), none.2 ▸ auditedKind⟩

/-! ## Searches for paths -/

theorem descend_append (rest : List String) (h : arena.descend id front = .ok (some last)) :
    arena.descend id (front ++ rest) = arena.descend last rest := by
  induction front generalizing id with
  | nil =>
    cases h
    rfl
  | cons name front ih =>
    obtain ⟨scope, opens, h⟩ := bind_eq_ok.1 h
    cases scope with
    | none => cases h
    | some scope =>
      obtain ⟨inner, stands, h⟩ := bind_eq_ok.1 h
      cases inner with
      | none => cases h
      | some inner =>
        simp only [cons_append, descend, opens, stands, bind, Except.bind]
        exact ih h

theorem findPath_append {path : List String} (rest : List String)
    (h : arena.findPath path = .ok (some id)) :
    arena.findPath (path ++ rest) = arena.descend id rest := by
  cases path with
  | nil => cases h
  | cons first path =>
    obtain ⟨sym, stands, h⟩ := bind_eq_ok.1 h
    cases sym with
    | none => cases h
    | some sym =>
      simp only [cons_append, findPath, stands, bind, Except.bind]
      exact descend_append rest h

theorem descend_singleton (name : String) (opens : arena.symbolScope? id = .ok (some scope)) :
    arena.descend id [name] = arena.find? scope name := by
  simp only [descend, opens, bind, Except.bind]
  cases arena.find? scope name with
  | error breach => rfl
  | ok h => cases h <;> rfl

/-- Whether a scope that was audited without problems lies at the end of some names, for a search
from the root and for the climb through the owners of scopes, with enough steps left of the audit.
-/
structure Lies (arena : Arena) (names : List String) (scope : ScopeId) : Prop where
  depth : names.length ≤ arena.scopes.size
  clean : arena.auditScopeWithin (arena.scopes.size - names.length + 1) scope = .ok []
  owners : ∀ fuel, names.length < fuel → arena.ownersWithin fuel scope = .ok names
  search : ∀ name, arena.findPath (names ++ [name]) = arena.find? scope name

theorem lies_root (h : arena.scope arena.root = .ok tb) (unowned : tb.owner = none)
    (clean : arena.audit = .ok []) : arena.Lies [] arena.root where
  depth := Nat.zero_le _
  clean := clean
  owners fuel positive := by
    cases fuel with
    | zero => cases positive
    | succ fuel =>
      simp only [ownersWithin, h, bind, Except.bind, unowned]
      rfl
  search name := by
    simp only [nil_append, findPath]
    cases arena.find? arena.root name with
    | error breach => rfl
    | ok h => cases h <;> rfl

namespace Lies

variable {names : List String} {scope : ScopeId} (lies : arena.Lies names scope) {name : String}
  {id : SymbolId} (stands : arena.find? scope name = .ok (some id))

include lies stands

theorem path : arena.path id = .ok (names ++ [name]) := by
  obtain ⟨sym, h, own, named, -⟩ := entry_of_auditScopeWithin lies.clean stands
  have climbed := lies.owners (arena.scopes.size + arena.symbols.size + 1)
    (by have := lies.depth; omega)
  unfold Arena.path
  rw [h]
  change (do return (← arena.ownersWithin _ sym.owner) ++ [sym.name]) = _
  rw [own, named, climbed]
  rfl

/-- The scope that an entry opens lies at the end of the entry's path. -/
theorem inner {opened : ScopeId} (opens : arena.symbolScope? id = .ok (some opened)) :
    arena.Lies (names ++ [name]) opened := by
  obtain ⟨sym, h, own, named, audited⟩ := entry_of_auditScopeWithin lies.clean stands
  obtain ⟨again, refound, opensAgain⟩ := symbolScope?_eq_ok.1 opens
  cases h.symm.trans refound
  obtain ⟨auditedOwner, auditedScope⟩ := opened_of_auditKind audited opensAgain
  obtain ⟨tb, ht, tableOwned⟩ := owner_of_auditOwner auditedOwner
  -- an audit that may take no step has no answer, so there is room for one more name
  have room : names.length < arena.scopes.size := by
    by_contra full
    rw [show arena.scopes.size - names.length = 0 by omega] at auditedScope
    cases auditedScope
  refine ⟨by simpa using room, ?_, fun fuel enough => ?_, fun next => ?_⟩
  · rw [length_append, length_singleton,
      show arena.scopes.size - (names.length + 1) + 1 = arena.scopes.size - names.length by omega]
    exact auditedScope
  · rw [length_append, length_singleton] at enough
    obtain ⟨rest, rfl⟩ : ∃ rest, fuel = rest + 1 := ⟨fuel - 1, by omega⟩
    simp only [ownersWithin, ht, bind, Except.bind, tableOwned, h, own, named,
      lies.owners rest (by omega)]
    rfl
  · rw [findPath_append [next] ((lies.search name).trans stands)]
    exact descend_singleton next opens

theorem path_of_descend (h : arena.descend id rest = .ok (some last)) :
    arena.path last = .ok (names ++ name :: rest) := by
  induction rest generalizing names scope name id with
  | nil =>
    cases h
    exact lies.path stands
  | cons next rest ih =>
    obtain ⟨opened, opens, h⟩ := bind_eq_ok.1 h
    cases opened with
    | none => cases h
    | some opened =>
      obtain ⟨sym, standsNext, h⟩ := bind_eq_ok.1 h
      cases sym with
      | none => cases h
      | some sym =>
        rw [ih (lies.inner stands opens) standsNext h, append_assoc, singleton_append]

end Lies

theorem Enterable.lies (enterable : arena.Enterable scope) (root : arena.Lies [] arena.root) :
    ∃ names, arena.Lies names scope := by
  induction enterable with
  | root => exact ⟨[], root⟩
  | inner _ stands opens ih =>
    obtain ⟨names, lies⟩ := ih
    exact ⟨_, lies.inner stands opens⟩

/-- In an arena without problems whose root has no owner, paths identify symbols: every symbol that
stands in the root or in a scope below it is found at its path, and what is found at a path has that
path. -/
theorem paths_identify_symbols {table : Scope} (found : arena.scope arena.root = .ok table)
    (unowned : table.owner = none) (clean : arena.audit = .ok []) :
    (∀ scope name id, arena.Enterable scope → arena.find? scope name = .ok (some id) →
      ∃ path, arena.path id = .ok path ∧ arena.findPath path = .ok (some id)) ∧
    ∀ path id, arena.findPath path = .ok (some id) → arena.path id = .ok path := by
  have root := lies_root found unowned clean
  constructor
  · intro scope name id enterable stands
    obtain ⟨names, lies⟩ := enterable.lies root
    exact ⟨names ++ [name], lies.path stands, (lies.search name).trans stands⟩
  · intro path id searched
    cases path with
    | nil => cases searched
    | cons first rest =>
      obtain ⟨symbol, stands, descended⟩ := bind_eq_ok.1 searched
      cases symbol with
      | none => cases descended
      | some symbol => exact root.path_of_descend stands descended

/-- A module `m` with a procedure `m` that has a variable `m`. -/
def sampleNested : Arena where
  symbols := #[⟨"m", ⟨0⟩, .moduleUnit ⟨⟨1⟩, [], false, false⟩⟩,
    ⟨"m", ⟨1⟩, .function ⟨⟨2⟩, [], none, [], .source, .implementation, .publicAccess, []⟩⟩,
    ⟨"m", ⟨2⟩, .variable (.ofType (.integer 4))⟩]
  scopes := #[⟨none, none, [("m", ⟨0⟩)], []⟩, ⟨some ⟨0⟩, some ⟨0⟩, [("m", ⟨1⟩)], []⟩,
    ⟨some ⟨1⟩, some ⟨1⟩, [("m", ⟨2⟩)], []⟩]
  exprs := #[]
  root := ⟨0⟩

/-- The three symbols have one name and three paths. -/
theorem paths_identify_nested : sampleNested.audit = .ok [] ∧
    (∃ path, sampleNested.path ⟨2⟩ = .ok path ∧ sampleNested.findPath path = .ok (some ⟨2⟩)) ∧
    sampleNested.path ⟨1⟩ = .ok ["m", "m"] := by
  have clean : sampleNested.audit = .ok [] := by rfl
  have first : sampleNested.find? ⟨0⟩ "m" = .ok (some ⟨0⟩) := rfl
  have second : sampleNested.find? ⟨1⟩ "m" = .ok (some ⟨1⟩) := rfl
  have inner : sampleNested.Enterable ⟨2⟩ := .inner (.inner .root first rfl) second rfl
  obtain ⟨found, named⟩ := @paths_identify_symbols sampleNested _ rfl rfl clean
  exact ⟨clean, found ⟨2⟩ "m" ⟨2⟩ inner rfl, named ["m", "m"] ⟨1⟩ rfl⟩

end FortranSemantics.Arena
