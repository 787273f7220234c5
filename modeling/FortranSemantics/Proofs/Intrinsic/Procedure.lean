import FortranSemantics.Intrinsic.LoopProcedure
import FortranSemantics.Proofs.Arena.Entry
import FortranSemantics.Proofs.Intrinsic.Meaning

/-!
# Generated procedures

The dummy arguments and the result of a generated procedure are new variables. The procedure is
there when its body can be built from them.
-/

namespace FortranSemantics

open List Arena

variable {type : Ty} {after before : Arena} {α : Type} {key : HelperKey} {argTypes : List Ty}

/-! ## Variables of a procedure that is being generated -/

namespace Arena

variable {a : Arena} {s : ScopeId} {n : String} {k : SymbolKind}

theorem kind_enter {id : SymbolId} (h : a.kind id = .ok held) :
    (a.enter s n k).kind id = .ok held := by
  obtain ⟨sym, isSym, same⟩ := kind_eq_ok.1 h
  exact kind_eq_ok.2 ⟨sym, symbol_enter.2 (.inl isSym), same⟩

theorem Declared.enter (declared : a.Declared sym type) : (a.enter s n k).Declared sym type := by
  obtain ⟨held, isVariable, typed⟩ := bind_eq_ok.1 declared
  obtain ⟨named, aimed, isSome⟩ := bind_eq_ok.1 isVariable
  obtain ⟨past, h, named'⟩ := bind_eq_ok.1 aimed
  obtain ⟨first, foundFirst, imported⟩ := bind_eq_ok.1 h
  have target : (a.enter s n k).target sym = .ok named :=
    bind_eq_ok.2 ⟨past, bind_eq_ok.2 ⟨first, kind_enter foundFirst, imported⟩, kind_enter named'⟩
  exact bind_eq_ok.2 ⟨held, bind_eq_ok.2 ⟨named, target, isSome⟩, typed⟩

theorem declared_enter (typed : info.type = some type) :
    (a.enter s n (.variable info)).Declared ⟨a.symbols.size⟩ type := by
  have named : (a.enter s n (.variable info)).kind ⟨a.symbols.size⟩ =
      .ok (.variable info) := kind_eq_ok.2 ⟨_, symbol_enter.2 (.inr ⟨rfl, rfl⟩), rfl⟩
  have past : (a.enter s n (.variable info)).pastImport ⟨a.symbols.size⟩ =
      .ok ⟨a.symbols.size⟩ := bind_eq_ok.2 ⟨_, named, rfl⟩
  have target : (a.enter s n (.variable info)).target ⟨a.symbols.size⟩ =
      .ok (.variable info) := bind_eq_ok.2 ⟨_, past, named⟩
  exact bind_eq_ok.2 ⟨some info, bind_eq_ok.2 ⟨_, target, rfl⟩, congrArg _ typed⟩

/-- Whether an arena has so many more symbols than an earlier one, and otherwise what that one had.
-/
structure DeclaresMore (before after : Arena) (count : Nat) : Prop where
  symbols : after.symbols.size = before.symbols.size + count
  scopes : after.scopes.size = before.scopes.size
  exprs : after.exprs = before.exprs
  declared : ∀ symbol type, before.Declared symbol type → after.Declared symbol type

theorem DeclaresMore.trans (head : before.DeclaresMore mid first)
    (tail : mid.DeclaresMore after second) : before.DeclaresMore after (first + second) where
  symbols := by rw [tail.symbols, head.symbols, Nat.add_assoc]
  scopes := tail.scopes.trans head.scopes
  exprs := tail.exprs.trans head.exprs
  declared sym type h := tail.declared sym type (head.declared sym type h)

end Arena

namespace Intrinsic

/-- The identifiers of some symbols in a row. -/
def row (first count : Nat) : List SymbolId :=
  (range' first count).map SymbolId.mk

theorem nodup_row (first count : Nat) : (row first count).Nodup :=
  List.Nodup.map (fun _ _ same => SymbolId.mk.inj same) (nodup_range' ..)

theorem Frame.exists_declare (frame : Frame)
    (lt : frame.scope.index < before.scopes.size) (n : String) (type : Ty) (intent : Intent) :
    ∃ after, frame.declare n type intent before = .ok ⟨before.symbols.size⟩ after ∧
      before.DeclaresMore after 1 ∧ after.Declared ⟨before.symbols.size⟩ type := by
  refine ⟨_, run_bind_eq_ok.2 ⟨_, _, Edit.addSymbol_eq rfl, run_bind_eq_ok.2 ⟨(), _,
    Edit.overwrite_attach_eq lt, rfl⟩⟩, ⟨?_, ?_, rfl, fun _ _ => Arena.Declared.enter⟩,
    declared_enter rfl⟩
  · simp [enter]
  · simp [enter, claimed, SymbolKind.scope?]

/-- Some variables of a procedure are declared where its scope is there. -/
theorem Frame.exists_declareEach (frame : Frame) (n : α → String) (type : α → Ty) (intent : Intent)
    (items : List α) (lt : frame.scope.index < before.scopes.size) :
    ∃ after, items.mapM (fun item => frame.declare (n item) (type item) intent) before =
        .ok (row before.symbols.size items.length) after ∧ before.DeclaresMore after items.length ∧
      List.Forall₂ (fun sym item => after.Declared sym (type item))
      (row before.symbols.size items.length) items := by
  induction items generalizing before with
  | nil => exact ⟨before, rfl, ⟨rfl, rfl, rfl, fun _ _ h => h⟩, .nil⟩
  | cons item rest ih =>
    obtain ⟨mid, declared, more, here⟩ :=
      frame.exists_declare lt (n item) (type item) intent
    obtain ⟨after, ran, moreRest, there⟩ := ih (more.scopes ▸ lt)
    rw [more.symbols] at ran there
    refine ⟨after, run_mapM_cons.2 ⟨_, mid, _, declared, ran, rfl⟩, ?_, ?_⟩
    · rw [length_cons, Nat.add_comm]
      exact more.trans moreRest
    · exact .cons (moreRest.declared _ _ here) there

/-- Whether the dummy arguments and the result of a procedure are declared, before its body is
built. -/
structure Ready (a : Arena) (frame : Frame) (argTypes : List Ty) (resultType : Ty)
    (dummies : List SymbolId) (result : SymbolId) : Prop where
  inRange : frame.scope.index < a.scopes.size
  typed : List.Forall₂ (fun dummy type => a.Declared dummy (.assumedShape type.element type.rank))
    dummies argTypes
  resultTyped : a.Declared result
    (if resultType.isScalar then resultType else .assumedShape resultType.element resultType.rank)
  distinct : (dummies ++ [result]).Nodup
  older : result.index < a.symbols.size

/-- The dummy arguments of a procedure are declared. -/
theorem exists_declareDummies (paired : (helperDummies key).length = argTypes.length)
    (frame : Frame) (lt : frame.scope.index < before.scopes.size) :
    ∃ after, declareDummies frame key argTypes before = .ok
    (row before.symbols.size argTypes.length) after ∧
      before.DeclaresMore after argTypes.length ∧
      List.Forall₂ (fun dummy type => after.Declared dummy (.assumedShape type.element type.rank))
        (row before.symbols.size argTypes.length) argTypes := by
  have count : ((helperDummies key).zip argTypes).length = argTypes.length := by
    rw [length_zip, paired, Nat.min_self]
  obtain ⟨after, ran, more, declared⟩ := frame.exists_declareEach (fun item : String × Ty => item.1)
    (fun item => .assumedShape item.2.element item.2.rank) .into
    ((helperDummies key).zip argTypes) lt
  rw [count] at ran more declared
  have mapped : List.Forall₂
      (fun dummy type => after.Declared dummy (.assumedShape type.element type.rank))
      (row before.symbols.size argTypes.length) (((helperDummies key).zip argTypes).map Prod.snd) :=
    forall₂_map_right_iff.2 declared
  rw [map_snd_zip paired.ge] at mapped
  exact ⟨after, ran, more, mapped⟩

theorem exists_declareResult (frame : Frame)
    (lt : frame.scope.index < before.scopes.size) (type : Ty) :
    ∃ after, declareResult frame type before = .ok ⟨before.symbols.size⟩ after ∧
    before.DeclaresMore after 1 ∧
      after.Declared ⟨before.symbols.size⟩
      (if type.isScalar then type else .assumedShape type.element type.rank) := by
  unfold declareResult
  split
  · exact frame.exists_declare lt "result" _ .result
  · exact frame.exists_declare lt "result" _ .out

/-- A procedure is generated when its body can be built, and has that body. -/
theorem exists_generate {resultType : Ty} {a : Arena} {parent : ScopeId}
    {does : Arena → List Stmt → List SymbolId → SymbolId → Prop}
    (paired : (helperDummies key).length = argTypes.length)
    (builds : ∀ {frame : Frame} {before : Arena} {ds : List SymbolId} {result : SymbolId},
      Ready before frame argTypes resultType ds result →
        ∃ body after, helperBody frame key ds result resultType before = .ok body after ∧
          after.scopes.size = before.scopes.size ∧
          ∀ b, after.Prefixes b → does b body ds result) (lt : parent.index < a.scopes.size)
          (span : Span) :
    ∃ helper after info ds result, generate key argTypes resultType parent span a =
    .ok helper after ∧
      after.kind helper = .ok (.function info) ∧ info.args ++ info.result.toList = ds ++ [result] ∧
      info.result.isSome = resultType.isScalar ∧ (ds ++ [result]).Nodup ∧
      does after info.body ds result := by
  obtain ⟨tb, h⟩ := exists_scope lt
  let opened := (a.addScope (some parent) none).2
  let frame : Frame := ⟨⟨a.scopes.size⟩, span⟩
  have frameInRange : frame.scope.index < opened.scopes.size := by
    simp [opened, frame, addScope]
  obtain ⟨first, dummiesDeclared, more, each⟩ := exists_declareDummies paired frame frameInRange
  rw [← more.scopes] at frameInRange
  obtain ⟨second, resultDeclared, moreResult, declared⟩ :=
    exists_declareResult frame frameInRange resultType
  rw [← moreResult.scopes] at frameInRange
  -- the result comes after the dummy arguments in the row of new symbols
  have inRow : row opened.symbols.size argTypes.length ++ [⟨first.symbols.size⟩] =
      row opened.symbols.size (argTypes.length + 1) := by
    rw [more.symbols]
    simp [row, range'_concat]
  have distinct := nodup_row opened.symbols.size (argTypes.length + 1)
  rw [← inRow] at distinct
  obtain ⟨body, third, built, sizes, computes⟩ := builds ⟨frameInRange,
    each.imp fun _ _ h => moreResult.declared _ _ h, declared,
    distinct, by simp [moreResult.symbols]⟩
  let n := tb.uniqueName (key.intrinsic.name ++ "_" ++ toString key.kind ++ "_" ++ toString
    key.rank ++ "_" ++ toString key.overload.number)
  let info : Function :=
    { scope := frame.scope
      args := if resultType.isScalar then row opened.symbols.size argTypes.length
        else row opened.symbols.size argTypes.length ++ [⟨first.symbols.size⟩]
      result := if resultType.isScalar then some ⟨first.symbols.size⟩ else none
      body, abi := .source,
      deftype := .implementation, access := .privateAccess, dependencies := [] }
  have outer : parent.index < third.scopes.size := by
    rw [sizes, moreResult.scopes, more.scopes]
    simp only [opened, addScope, Array.size_push]
    omega
  refine ⟨⟨third.symbols.size⟩, third.enter parent n (.function info), info, _, _, ?_, ?_, ?_, ?_,
    distinct, computes _ (.refl third)⟩
  · refine run_bind_eq_ok.2 ⟨_, a, Edit.ask_eq_ok.2 ⟨bind_eq_ok.2 ⟨tb, h, rfl⟩, rfl⟩, ?_⟩
    refine run_bind_eq_ok.2 ⟨_, opened, rfl, ?_⟩
    refine run_bind_eq_ok.2 ⟨_, first, dummiesDeclared, ?_⟩
    refine run_bind_eq_ok.2 ⟨_, second, resultDeclared, ?_⟩
    refine run_bind_eq_ok.2 ⟨body, third, built, ?_⟩
    exact Edit.enter_eq rfl (sizes ▸ frameInRange) outer
  · exact kind_eq_ok.2 ⟨_, symbol_enter.2 (.inr ⟨rfl, rfl⟩), rfl⟩
  · cases isScalar : resultType.isScalar <;> simp [info, isScalar]
  · cases isScalar : resultType.isScalar <;> simp [info, isScalar]

/-- What stands in front of a list for an optional item is optional. -/
theorem exists_option {β : Type} {relation : α → β → Prop} {items : List α} {optional : Option β}
    {others : List β} (each : List.Forall₂ relation items (optional.toList ++ others)) :
    ∃ (item : Option α) (rest : List α), items = item.toList ++ rest ∧
      item.isSome = optional.isSome ∧ (∀ h ∈ item, ∃ v, relation h v) ∧
        List.Forall₂ relation rest others := by
  cases optional with
  | none => exact ⟨none, items, rfl, rfl, nofun, each⟩
  | some v =>
    obtain ⟨item, rest, here, there, rfl⟩ := forall₂_cons_right_iff.1 each
    refine ⟨some item, rest, rfl, rfl, fun h mem => ?_, there⟩
    cases mem
    exact ⟨v, here⟩

end Intrinsic

end FortranSemantics
