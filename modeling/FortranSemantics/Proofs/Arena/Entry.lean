import FortranSemantics.Analysis.Basic
import FortranSemantics.Proofs.Image.Nesting
import Mathlib

/-!
# Entering and revising symbols

A symbol is added, is given the scope it opens, and is then declared under its name; the edits that
do so make up one step. The same holds of edits that change what a symbol names, as long as its form
stays.
-/

namespace FortranSemantics

open Arena

variable {kind : SymbolKind} {id : SymbolId} {path : List String} {sym : Symbol}
  {h : Option SymbolId} {inner : ScopeId}

/-! ## Free names -/

theorem numbered_injective (base : String) :
    Function.Injective fun step : Nat => base ++ "_" ++ toString (step + 1) := by
  intro left right same
  have numbers : (left + 1).repr = (right + 1).repr := (String.append_right_inj _).1 same
  exact Nat.succ.inj (Nat.repr_injective numbers)

/-- The name that is chosen as free is free: there are more numbered names than entries. -/
theorem Scope.find?_uniqueName (scope : Scope) (base : String) :
    scope.find? (scope.uniqueName base) = none := by
  unfold uniqueName
  split
  · next free => exact Option.isNone_iff_eq_none.1 free
  · dsimp only
    set candidates := (List.range (scope.entries.length + 1)).map fun step =>
      base ++ "_" ++ toString (step + 1)
    cases chosen : candidates.find? fun n => (scope.find? n).isNone with
    | some n =>
      have free := List.find?_some chosen
      exact Option.isNone_iff_eq_none.1 free
    | none =>
      have taken : candidates ⊆ scope.entries.map Prod.fst := by
        intro n mem
        have held : scope.find? n ≠ none := by
          simpa using List.find?_eq_none.1 chosen n mem
        obtain ⟨id, st⟩ := Option.ne_none_iff_exists'.1 held
        exact List.mem_map_of_mem (f := Prod.fst) (Scope.mem_of_find? st)
      have different : candidates.Nodup := List.nodup_range.map (numbered_injective base)
      have bound := (different.subperm taken).length_le
      simp only [candidates, List.length_map, List.length_range] at bound
      omega

namespace SymbolKind

theorem arguments_eq_nil (plain : kind.scope? = none) : kind.arguments = [] := by
  cases kind with
  | function info => cases plain
  | _ => rfl

theorem isStub_eq_false (plain : kind.scope? = none) : kind.isStub = false := by
  cases kind with
  | function info => cases plain
  | _ => rfl

end SymbolKind

namespace Arena

variable {a : Arena} {scope : ScopeId} {n : String} {kind : SymbolKind}

/-- Whether a scope is there in which a name stands for nothing. -/
def Free (a : Arena) (scope : ScopeId) (name : String) : Prop :=
  ∃ table, a.scope scope = .ok table ∧ table.find? name = none

theorem free_uniqueName (chosen : a.uniqueName scope base = .ok n) : a.Free scope n := by
  obtain ⟨tb, h, named⟩ := bind_eq_ok.1 chosen
  cases named
  exact ⟨tb, h, tb.find?_uniqueName base⟩

theorem free_iff : a.find? scope n = .ok none ↔ a.Free scope n := by
  unfold find? Free
  rw [bind_eq_ok]
  exact exists_congr fun tb => and_congr_right fun _ => Except.ok.injEq .. |>.to_iff

theorem find?_eq_some : a.find? scope n = .ok (some id) ↔
    ∃ tb, a.scope scope = .ok tb ∧ tb.find? n = some id := by
  unfold find?
  rw [bind_eq_ok]
  exact exists_congr fun tb => and_congr_right fun _ => Except.ok.injEq .. |>.to_iff

theorem Sound.find?_inRange (sound : a.Sound) (h : a.find? scope n = .ok (some id)) :
    id.index < a.symbols.size := by
  obtain ⟨tb, ht, st⟩ := find?_eq_some.1 h
  obtain ⟨sym, symbolFound, -⟩ := sound.entry ht (Scope.mem_of_find? st)
  exact symbol_inRange symbolFound

theorem Sound.descend_inRange (sound : a.Sound) {target : SymbolId} (lt : id.index < a.symbols.size)
    (h : a.descend id path = .ok (some target)) : target.index < a.symbols.size := by
  induction path generalizing id with
  | nil =>
    cases h
    exact lt
  | cons n rest ih =>
    obtain ⟨opened, -, h⟩ := bind_eq_ok.1 h
    cases opened with
    | none => cases h
    | some scope =>
      obtain ⟨e, entered, h⟩ := bind_eq_ok.1 h
      cases e with
      | none => cases h
      | some inner => exact ih (sound.find?_inRange entered) h

theorem Sound.findPath_inRange (sound : a.Sound) (h : a.findPath path = .ok (some id)) :
    id.index < a.symbols.size := by
  cases path with
  | nil => cases h
  | cons first rest =>
    obtain ⟨e, entered, h⟩ := bind_eq_ok.1 h
    cases e with
    | none => cases h
    | some sym => exact sound.descend_inRange (sound.find?_inRange entered) h

/-- Whether a symbol has a form and belongs to a scope. -/
def Has (a : Arena) (id : SymbolId) (owner : ScopeId) (form : SymbolForm) : Prop :=
  ∃ sym, a.symbol id = .ok sym ∧ sym.owner = owner ∧ sym.kind.form = form

/-! ## Entering -/

/-- The arena with a new symbol, which owns the scope it opens; no name stands for it yet. -/
def attach (a : Arena) (sym : Symbol) : Arena :=
  { a with
    symbols := a.symbols.push sym
    scopes := a.claimed sym.kind.scope? ⟨a.symbols.size⟩ }

theorem modify_push_size (symbols : Array Symbol) (sym : Symbol) (change : Symbol → Symbol) :
    (symbols.push sym).modify symbols.size change = symbols.push (change sym) := by
  apply Array.ext_getElem?
  intro i
  rw [Array.getElem?_modify, Array.getElem?_push, Array.getElem?_push]
  by_cases last : i = symbols.size
  · simp [last]
  · simp [last, Ne.symm last]

theorem declare_attach :
    (a.attach ⟨n, scope, kind⟩).declare scope n ⟨a.symbols.size⟩ = a.enter scope n kind := by
  unfold declare attach enter
  rw [modify_push_size]

/-- What a name stands for does not change when a symbol is added. -/
theorem find?_attach : (a.attach sym).find? scope n = .ok h ↔ a.find? scope n = .ok h := by
  have claimed (tb : Scope) : (a.attach sym).scope scope = .ok tb ↔ ∃ old,
      a.scope scope = .ok old ∧ tb =
        if sym.kind.scope? = some scope then { old with owner := some ⟨a.symbols.size⟩ }
        else old := scope_claimed
  simp only [find?, bind_eq_ok]
  constructor
  · rintro ⟨tb, ht, st⟩
    obtain ⟨old, oldFound, rfl⟩ := (claimed tb).1 ht
    refine ⟨old, oldFound, ?_⟩
    split at st <;> exact st
  · rintro ⟨old, oldFound, st⟩
    refine ⟨_, (claimed _).2 ⟨old, oldFound, rfl⟩, ?_⟩
    split <;> exact st

theorem free_attach : (a.attach sym).Free scope n ↔ a.Free scope n :=
  free_iff.symm.trans (find?_attach.trans free_iff)

theorem find?_addScope (lt : scope.index < a.scopes.size) :
    (a.addScope parent owner).2.find? scope n = .ok h ↔ a.find? scope n = .ok h := by
  have here (tb : Scope) : (a.addScope parent owner).2.scope scope = .ok tb ↔
      a.scope scope = .ok tb := by
    refine scope_addScope.trans (or_iff_left ?_)
    rintro ⟨rfl, -⟩
    exact absurd lt (Nat.lt_irrefl _)
  simp only [find?, bind_eq_ok, here]

/-- A symbol that opens no scope may be entered in place of one that opens none. -/
theorem Entering.over (h : a.scope scope = .ok tb) (opens : kind.scope? = none)
    (origin : ∀ origin, kind.form.origin? = some origin → origin.index < a.symbols.size)
    (replaced : ∀ old symbol, tb.find? n = some old → a.symbol old = .ok symbol →
      symbol.kind.scope? = none) :
    a.Entering scope n kind where
  inRange := scope_inRange h
  origin := origin
  arguments := by simp [SymbolKind.arguments_eq_nil opens]
  inner := by simp [opens]
  settled := SymbolKind.isStub_eq_false opens
  replaced again old symbol foundAgain taken symbolFound := by
    cases h.symm.trans foundAgain
    exact .inl (replaced old symbol taken symbolFound)

theorem Entering.ofFree (free : a.Free scope n) (opens : kind.scope? = none)
    (origin : ∀ origin, kind.form.origin? = some origin → origin.index < a.symbols.size) :
    a.Entering scope n kind := by
  obtain ⟨tb, h, st⟩ := free
  refine .over h opens origin fun old sym taken _ => ?_
  cases st.symm.trans taken

/-- A symbol with a new scope may be entered where it replaces no other symbol with a scope. -/
theorem Entering.opening (lt : scope.index < a.scopes.size)
    (opens : kind.scope? = some ⟨a.scopes.size⟩)
    (arguments : kind.arguments = []) (settled : kind.isStub = false)
    (origin : ∀ origin, kind.form.origin? = some origin → origin.index < a.symbols.size)
    (replaced : ∀ tb old sym, a.scope scope = .ok tb → tb.find? n = some old →
      a.symbol old = .ok sym → sym.kind.scope? = none ∨ (scope = a.root ∧ sym.kind.isStub = true)) :
    (a.addScope (some scope) none).2.Entering scope n kind where
  inRange := by
    simp only [addScope, Array.size_push]
    omega
  origin := origin
  arguments := by simp [arguments]
  inner inner same := by
    cases opens.symm.trans same
    exact ⟨_, scope_addScope.2 (.inr ⟨rfl, rfl⟩), rfl, rfl⟩
  settled := settled
  replaced tb old sym h := by
    rcases scope_addScope.1 h with earlier | ⟨rfl, -⟩
    · exact replaced tb old sym earlier
    · exact absurd lt (Nat.lt_irrefl _)

end Arena

namespace Edit

variable {a after : Arena} {scope : ScopeId} {n : String} {kind : SymbolKind} {id : SymbolId}
  {res : Unit} {span : Span}

theorem declare_eq_ok : declare scope n id span a = .ok res after ↔
    a.Free scope n ∧ id.index < a.symbols.size ∧ after = a.declare scope n id := by
  unfold declare
  simp only [run_bind_eq_ok, ask_eq_ok]
  constructor
  · rintro ⟨h, _, ⟨q, rfl⟩, ran⟩
    cases h with
    | some taken => cases ran
    | none =>
      obtain ⟨_, _, entered, ran⟩ := run_bind_eq_ok.1 ran
      obtain ⟨-, rfl⟩ := modifyScope_eq_ok.1 entered
      obtain ⟨lt, rfl⟩ := modifySymbol_eq_ok.1 ran
      exact ⟨free_iff.1 q, lt, rfl⟩
  · rintro ⟨free, lt, rfl⟩
    refine ⟨none, a, ⟨free_iff.2 free, rfl⟩, ?_⟩
    obtain ⟨tb, h, -⟩ := free
    refine run_bind_eq_ok.2 ⟨(), _, modifyScope_eq_ok.2 ⟨scope_inRange h, rfl⟩, ?_⟩
    exact modifySymbol_eq_ok.2 ⟨lt, rfl⟩

theorem addSymbol_eq (opens : kind.scope? = none) :
    addSymbol n scope kind a = .ok ⟨a.symbols.size⟩ (a.attach ⟨n, scope, kind⟩) := by
  unfold attach claimed
  rw [opens]
  rfl

theorem claim_eq (opens : kind.scope? = some inner) (lt : inner.index < a.scopes.size) :
    modifyScope inner (fun held => { held with owner := some ⟨a.symbols.size⟩ })
      (a.addSymbol ⟨n, scope, kind⟩).2 = .ok () (a.attach ⟨n, scope, kind⟩) := by
  refine modifyScope_eq_ok.2 ⟨lt, ?_⟩
  unfold attach claimed
  rw [opens]
  rfl

/-- A new symbol is put under a name in a scope in range. -/
theorem overwrite_attach_eq (lt : scope.index < a.scopes.size) :
    overwrite scope n ⟨a.symbols.size⟩ (a.attach ⟨n, scope, kind⟩) =
      .ok () (a.enter scope n kind) := by
  have entered : modifyScope scope (·.put n ⟨a.symbols.size⟩) (a.attach ⟨n, scope, kind⟩) =
      .ok () { a.attach ⟨n, scope, kind⟩ with
        scopes := (a.attach ⟨n, scope, kind⟩).scopes.modify scope.index
          (·.put n ⟨a.symbols.size⟩) } := by
    refine modifyScope_eq_ok.2 ⟨?_, rfl⟩
    unfold attach claimed
    split <;> simpa using lt
  refine run_bind_eq_ok.2 ⟨(), _, entered, modifySymbol_eq_ok.2 ⟨by simp [attach], ?_⟩⟩
  unfold attach enter
  rw [modify_push_size]

theorem enter_eq (opens : kind.scope? = some inner) (innerInRange : inner.index < a.scopes.size)
    (lt : scope.index < a.scopes.size) :
    (do let sym ← addSymbol n scope kind
        modifyScope inner fun held => { held with owner := some sym }
        overwrite scope n sym
        return sym : Edit SymbolId) a = .ok ⟨a.symbols.size⟩ (a.enter scope n kind) :=
  run_bind_eq_ok.2 ⟨_, _, rfl, run_bind_eq_ok.2 ⟨(), _, claim_eq opens innerInRange,
    run_bind_eq_ok.2 ⟨(), _, overwrite_attach_eq lt, rfl⟩⟩⟩

/-! ## Revising -/

theorem exists_revise (ran : modifyKind id change a = .ok res after) :
    ∃ sym, a.symbol id = .ok sym ∧ after = a.revise id (change sym.kind) := by
  obtain ⟨lt, rfl⟩ := modifySymbol_eq_ok.1 ran
  obtain ⟨sym, h⟩ := exists_symbol lt
  refine ⟨sym, h, ?_⟩
  have here : a.symbols[id.index]? = some sym := symbol_eq_ok.1 h
  unfold revise
  congr 1
  apply Array.ext_getElem?
  intro i
  rw [Array.getElem?_modify, Array.getElem?_modify]
  by_cases same : id.index = i
  · rw [if_pos same, if_pos same, ← same, here]
    rfl
  · rw [if_neg same, if_neg same]

end Edit

/-- Whether a change of what a symbol names keeps its form and its arguments, and makes no stub of
it. -/
structure SymbolKind.Steady (change : SymbolKind → SymbolKind) : Prop where
  form : ∀ kind, (change kind).form = kind.form
  arguments : ∀ kind, (change kind).arguments = kind.arguments
  stub : ∀ kind, (change kind).isStub = kind.isStub

end FortranSemantics
