import FortranSemantics.Proofs.Agreement.Expression
import FortranSemantics.Proofs.Lawful.Call
import FortranSemantics.Proofs.Matching

/-!
# Chosen candidates are bound

A candidate of a generic is chosen when it has as many dummy arguments as there are arguments, of
the same types. Binding then goes through the arguments once more, by rules of its own: it lets
extensions of a type pass, misses arguments that are not optional, and sees the arena in which the
candidate has been imported. With positional arguments it always succeeds, so that a call is not
refused for its arguments once a candidate is chosen.
-/

namespace FortranSemantics

open List Arena Edit

variable {arena b : Arena} {candidate dummy id : SymbolId} {arg : ActualArgument}
  {args : List ActualArgument} {types : List Ty} {receiver : Option Ty} {span : Span}
  {candidates : List SymbolId} {info : Function}

namespace Arena

/-! ## What a chosen candidate has -/

theorem isExtension_of_sameDefinition {child ancestor : SymbolId}
    (same : arena.sameDefinition ancestor child = .ok true) :
    arena.isExtension child ancestor = .ok true := by
  obtain ⟨past, st, rest⟩ := bind_eq_ok.1 same
  obtain ⟨other, otherStands, equal⟩ := bind_eq_ok.1 rest
  have here : other = past := (of_decide_eq_true (Except.ok.inj equal)).symm
  refine bind_eq_ok.2 ⟨past, st, bind_eq_ok.2 ⟨other, otherStands, ?_⟩⟩
  rw [extendsWithin, if_pos here]
  rfl

/-- A value of exactly the type of a dummy argument may be passed for it. -/
theorem argumentCompatible_of_typesEqual {formal actual : Ty}
    (equal : arena.typesEqual formal actual = .ok true) :
    arena.argumentCompatible formal actual = .ok true := by
  unfold typesEqual at equal
  unfold argumentCompatible
  split at equal
  · next ranks =>
    rw [if_pos ranks]
    split
    · next isFormal isActual =>
      rw [isFormal, isActual] at equal
      exact isExtension_of_sameDefinition equal
    · next isFormal isActual =>
      rw [isFormal, isActual] at equal
      exact isExtension_of_sameDefinition equal
    · exact equal
  · cases equal

/-- Whether a dummy argument has exactly the type of an argument. -/
def Suits (arena : Arena) (dummy : SymbolId) (arg : ActualArgument) : Prop :=
  ∃ info formal actual, arena.asVariable? dummy = .ok (some info) ∧ info.type = some formal ∧
    arena.exprType arg.value = .ok actual ∧ arena.typesEqual formal actual = .ok true

theorem suits_of_dummyEquals {ty : Ty} (typed : arena.exprType arg.value = .ok ty)
    (equal : arena.dummyEquals dummy ty = .ok true) : arena.Suits dummy arg := by
  obtain ⟨formal, asked, rest⟩ := bind_eq_ok.1 equal
  obtain ⟨info, h, isFormal⟩ := bind_eq_ok.1 asked
  cases formal with
  | none => cases rest
  | some formal =>
    obtain ⟨info, rfl, declared⟩ := Option.bind_eq_some_iff.1 (Except.ok.inj isFormal)
    exact ⟨info, formal, ty, h, declared, typed, rest⟩

theorem suits_of_signatureMatches {dummies : List SymbolId}
    (typed : List.Forall₂ (fun arg ty => arena.exprType arg.value = .ok ty) args types)
    (fits : arena.signatureMatches dummies types = .ok true) :
    List.Forall₂ arena.Suits dummies args := by
  have equal : arena.dummiesEqual dummies types = .ok true := by
    unfold signatureMatches at fits
    split at fits
    · exact fits
    · cases fits
  clear fits
  induction typed generalizing dummies with
  | nil =>
    cases dummies with
    | nil => exact .nil
    | cons => cases equal
  | cons here _ ih =>
    cases dummies with
    | nil => cases equal
    | cons dummy dummies =>
      obtain ⟨matched, asked, rest⟩ := bind_eq_ok.1 equal
      cases matched with
      | true => exact .cons (suits_of_dummyEquals here asked) (ih rest)
      | false => cases rest

/-- Whether the first dummy argument of a candidate takes the object of a call. -/
def takesObject (arena : Arena) (candidate : SymbolId) (receiver : Option Ty) :
    Except Breach Bool := do
  match ← arena.target candidate with
  | .binding info => return info.dispatch = .pass && receiver.isSome
  | _ => return false

theorem candidateMatches_of_select {policy : OverloadPolicy}
    (selected : arena.select policy candidates types receiver = .ok (.found candidate)) :
    arena.candidateMatches candidate types receiver = .ok true := by
  have first : arena.firstMatch types receiver candidates = .ok (.found candidate) := by
    cases policy with
    | firstMatch => exact selected
    | unique => exact (firstMatch_of_uniqueMatch selected).2 nofun
  clear selected
  induction candidates with
  | nil => cases first
  | cons other rest ih =>
    obtain ⟨matched, asked, b⟩ := bind_eq_ok.1 first
    cases matched with
    | true =>
      cases b
      exact asked
    | false => exact ih b

/-- A candidate that fits is implemented by a procedure with dummy arguments of the types of the
arguments. -/
theorem exists_signature (fits : arena.candidateMatches candidate types receiver = .ok true) :
    ∃ function info passed, arena.implementation candidate = .ok function ∧
      arena.kind function = .ok (.function info) ∧
      arena.takesObject candidate receiver = .ok passed ∧
      arena.signatureMatches (if passed then info.args.drop 1 else info.args) types = .ok true := by
  obtain ⟨past, stands, rest⟩ := bind_eq_ok.1 fits
  obtain ⟨k, named, rest⟩ := bind_eq_ok.1 rest
  have target : arena.target candidate = .ok k := bind_eq_ok.2 ⟨past, stands, named⟩
  cases k with
  | function info =>
    exact ⟨past, info, false, bind_eq_ok.2 ⟨past, stands, bind_eq_ok.2 ⟨_, named, rfl⟩⟩, named,
      bind_eq_ok.2 ⟨_, target, rfl⟩, rest⟩
  | binding info =>
    obtain ⟨proc, procName, dispatch⟩ := info
    obtain ⟨ans, asked, rest⟩ := bind_eq_ok.1 rest
    obtain ⟨k, procTarget, isFunction⟩ := bind_eq_ok.1 asked
    obtain ⟨function, procStands, procNamed⟩ := bind_eq_ok.1 procTarget
    have implemented : arena.implementation candidate = .ok function :=
      bind_eq_ok.2 ⟨past, stands, bind_eq_ok.2 ⟨_, named, procStands⟩⟩
    cases k with
    | function info =>
      cases isFunction
      refine ⟨function, info, _, implemented, procNamed, bind_eq_ok.2 ⟨_, target, rfl⟩, ?_⟩
      cases dispatch with
      | noPass => exact rest
      | pass =>
        cases receiver with
        | none => exact rest
        | some object =>
          obtain ⟨s, dummies, _⟩ := info
          cases dummies with
          | nil => cases rest
          | cons first others =>
            obtain ⟨accepts, -, rest⟩ := bind_eq_ok.1 rest
            cases accepts with
            | true => exact rest
            | false => cases rest
    | _ =>
      cases isFunction
      cases rest
  | _ => cases rest

end Arena

namespace Expression

/-! ## Binding of arguments that suit -/

/-- Arguments that suit the dummy arguments one by one are matched with them so. -/
theorem matching_of_suits {dummies : List SymbolId} (positional : ∀ arg ∈ args, arg.keyword = none)
    (suits : List.Forall₂ arena.Suits dummies args) :
    Matching arena dummies args (fun i => i) (args.map (some ·.value)) where
  length := by simp [suits.length_eq]
  injective _ _ _ _ same := same
  placed i arg isArg := by
    have before := (List.getElem?_eq_some_iff.1 isArg).1
    have inside : i < dummies.length := suits.length_eq ▸ before
    obtain ⟨info, formal, actual, h, typed, valued, equal⟩ := suits.get inside before
    have declares : arena.variableType? dummies[i] = .ok (some formal) :=
      bind_eq_ok.2 ⟨_, h, congrArg _ typed⟩
    have isValue : args[i].value = arg.value :=
      congrArg (·.value) (List.getElem?_eq_some_iff.1 isArg).2
    refine ⟨dummies[i], getElem?_eq_getElem inside, by simp [isArg], ⟨_, declares, ?_⟩, ?_⟩
    · rintro _ ⟨⟩
      exact ⟨actual, isValue ▸ valued, argumentCompatible_of_typesEqual equal⟩
    · rw [positional arg (mem_of_getElem? isArg)]
  vacant j inside unused := absurd rfl (unused j (suits.length_eq ▸ inside))
  optional j _ _ empty := by simp at empty

/-- Positional arguments that suit the dummy arguments are bound to them one by one. -/
theorem bindArguments_of_suits {fn : SymbolId} {passed : Bool}
    (named : arena.kind fn = .ok (.function info)) (positional : ∀ arg ∈ args, arg.keyword = none)
    (suits : List.Forall₂ arena.Suits (if passed then info.args.drop 1 else info.args) args) :
    bindArguments fn passed args span arena = .ok (args.map (some ·.value)) arena := by
  obtain ⟨sym, h, isFunction⟩ := kind_eq_ok.1 named
  have ordered : PositionalFirst args := pairwise_of_forall_mem_list fun earlier mem _ _ _ =>
    positional earlier mem
  refine bindArguments_of_matching (asFunction?_of_symbol h isFunction) ordered
    (matching_of_suits positional suits) fun i arg keyword isArg isKeyword => ?_
  cases (positional arg (mem_of_getElem? isArg)).symm.trans isKeyword

end Expression

/-! ## Importing a candidate -/

/-- What a symbol names, but for the modules that a unit depends on. -/
def SymbolKind.withoutDependencies : SymbolKind → SymbolKind
  | .function info => .function { info with dependencies := [] }
  | .moduleUnit info => .moduleUnit { info with dependencies := [] }
  | .program info => .program { info with dependencies := [] }
  | kind => kind

/-- Whether expressions stay, and symbols but for the modules that units depend on. -/
structure Arena.Retains (arena later : Arena) : Prop where
  exprs : later.exprs = arena.exprs
  symbol : ∀ {id symbol}, arena.symbol id = .ok symbol → ∃ held, later.symbol id = .ok held ∧
    held.kind.withoutDependencies = symbol.kind.withoutDependencies

namespace Arena.Retains

theorem refl (arena : Arena) : arena.Retains arena :=
  ⟨rfl, fun h => ⟨_, h, rfl⟩⟩

theorem trans {latest : Arena} (first : arena.Retains b) (second : b.Retains latest) :
    arena.Retains latest := by
  refine ⟨second.exprs.trans first.exprs, fun h => ?_⟩
  obtain ⟨mid, foundMiddle, same⟩ := first.symbol h
  obtain ⟨held, isHeld, sameToo⟩ := second.symbol foundMiddle
  exact ⟨held, isHeld, sameToo.trans same⟩

theorem modify {change : Symbol → Symbol} {scopes : Array Scope}
    (kept : ∀ sym, (change sym).kind.withoutDependencies = sym.kind.withoutDependencies) :
    arena.Retains { arena with symbols := arena.symbols.modify id.index change, scopes } := by
  refine ⟨rfl, fun {_ sym} h => ⟨_, (symbol_modify rfl).2 ⟨sym, h, rfl⟩, ?_⟩⟩
  split
  · exact kept sym
  · rfl

variable (retains : arena.Retains b)

include retains

theorem pastImport {past : SymbolId} (st : arena.pastImport id = .ok past) :
    b.pastImport id = .ok past := by
  obtain ⟨sym, h, rfl⟩ := pastImport_eq_ok.1 st
  obtain ⟨held, isHeld, same⟩ := retains.symbol h
  refine pastImport_eq_ok.2 ⟨held, isHeld, ?_⟩
  have form (k : SymbolKind) : k.form = k.withoutDependencies.form := by cases k <;> rfl
  rw [form, form held.kind, same]

theorem asVariable? {info : Variable} (asked : arena.asVariable? dummy = .ok (some info)) :
    b.asVariable? dummy = .ok (some info) := by
  obtain ⟨k, target, isVariable⟩ := bind_eq_ok.1 asked
  obtain ⟨past, stands, named⟩ := bind_eq_ok.1 target
  obtain ⟨sym, h, rfl⟩ := kind_eq_ok.1 named
  obtain ⟨held, isHeld, same⟩ := retains.symbol h
  have kept : held.kind = .variable info := by
    cases here : sym.kind <;> rw [here] at isVariable same <;> cases isVariable
    cases there : held.kind <;> rw [there] at same <;> cases same
    rfl
  have targetLater : b.target dummy = .ok (.variable info) :=
    bind_eq_ok.2 ⟨past, retains.pastImport stands, kind_eq_ok.2 ⟨held, isHeld, kept⟩⟩
  exact bind_eq_ok.2 ⟨_, targetLater, rfl⟩

theorem elementsEqual {left right : Ty} (equal : arena.elementsEqual left right = .ok true) :
    b.elementsEqual left right = .ok true := by
  have kept {one other : SymbolId} (same : arena.sameDefinition one other = .ok true) :
      b.sameDefinition one other = .ok true := by
    obtain ⟨past, st, rest⟩ := bind_eq_ok.1 same
    obtain ⟨another, otherStands, equal⟩ := bind_eq_ok.1 rest
    exact bind_eq_ok.2 ⟨past, retains.pastImport st,
      bind_eq_ok.2 ⟨another, retains.pastImport otherStands, equal⟩⟩
  unfold Arena.elementsEqual at equal
  split at equal <;> first
    | exact equal
    | exact kept equal
    | cases equal

theorem suits (suits : arena.Suits dummy arg) : b.Suits dummy arg := by
  obtain ⟨info, formal, actual, asked, declared, typed, equal⟩ := suits
  refine ⟨info, formal, actual, retains.asVariable? asked, declared, ?_, ?_⟩
  · simpa only [exprType, expr, retains.exprs] using typed
  · unfold typesEqual at equal ⊢
    split at equal
    · next ranks =>
      rw [if_pos ranks]
      exact retains.elementsEqual equal
    · cases equal

theorem function (named : arena.kind id = .ok (.function info)) :
    ∃ held, b.kind id = .ok (.function held) ∧ held.args = info.args := by
  obtain ⟨sym, h, isFunction⟩ := kind_eq_ok.1 named
  obtain ⟨held, isHeld, same⟩ := retains.symbol h
  rw [isFunction] at same
  cases there : held.kind with
  | function info =>
    rw [there] at same
    exact ⟨info, kind_eq_ok.2 ⟨held, isHeld, there⟩,
      (Function.mk.inj (SymbolKind.function.inj same)).2.1⟩
  | _ =>
    rw [there] at same
    cases same

end Arena.Retains

/-- Whether every run with a result leads to an arena that retains what was there. -/
def Edit.Retaining {α : Type} (edit : Edit α) : Prop :=
  ∀ ⦃arena result b⦄, edit arena = .ok result b → arena.Retains b

namespace Edit.Retaining

variable {α β : Type}

theorem pure (v : α) : Retaining (Pure.pure v) := by
  intro arena _ _ ran
  cases ran
  exact .refl arena

theorem ask (question : Arena → Except Breach α) : Retaining (ask question) := by
  intro _ _ _ ran
  obtain ⟨-, rfl⟩ := ask_eq_ok.1 ran
  exact .refl _

theorem bind {edit : Edit α} {next : α → Edit β} (first : Retaining edit)
    (rest : ∀ v, Retaining (next v)) : Retaining (edit >>= next) := by
  intro _ _ _ ran
  obtain ⟨_, _, ranFirst, ranRest⟩ := run_bind_eq_ok.1 ran
  exact (first ranFirst).trans (rest _ ranRest)

theorem addDependency (s : ScopeId) (name : String) : Retaining (addDependency s name) := by
  refine .bind (.ask _) fun unit => ?_
  cases unit with
  | none => exact .pure ()
  | some unit =>
    intro _ _ _ ran
    obtain ⟨-, rfl⟩ := modifySymbol_eq_ok.1 ran
    exact .modify fun sym => by cases sym.kind <;> rfl

end Edit.Retaining

namespace Expression

theorem importSpecific_retains (s : ScopeId) (generic target : SymbolId) :
    Edit.Retaining (importSpecific s generic target span) := by
  refine .bind (.ask _) fun sym => .bind (.ask _) fun name => .bind (.ask _) fun present => ?_
  cases present with
  | some existing => exact .pure _
  | none =>
    refine .bind (.ask _) fun name => .bind (.ask _) fun moduleName => .bind ?_ fun imported =>
      .bind ?_ fun _ =>
      .bind (.addDependency _ _) fun _ => .pure _
    · intro arena _ _ ran
      cases ran
      exact ⟨rfl, fun h => ⟨_, symbol_addSymbol.2 (.inl h), rfl⟩⟩
    · intro arena _ _ ran
      obtain ⟨-, -, rfl⟩ := declare_eq_ok.1 ran
      exact .modify fun _ => rfl

theorem callableSymbol_retains (s : ScopeId) (generic : SymbolId) :
    Edit.Retaining (callableSymbol s generic candidate span) := by
  refine .bind (.ask _) fun target => .bind (.ask _) fun k => ?_
  split
  · refine .bind (.ask _) fun visible => ?_
    split
    · exact .pure _
    · exact importSpecific_retains s generic target
  · exact .pure _

/-! ## Calls of generics -/

theorem chooseCandidate_of_selected {env : Environment} {generic : SymbolId}
    (typed : List.Forall₂ (fun arg ty => arena.exprType arg.value = .ok ty) args types)
    (selected : arena.select env.policy candidates types receiver = .ok (.found candidate)) :
    chooseCandidate env generic candidates args receiver span arena = .ok candidate arena := by
  have asked : args.mapM (fun arg => typeOf arg.value) arena = .ok types arena := by
    clear selected
    induction typed with
    | nil => rfl
    | cons here _ ih => exact run_mapM_cons.2 ⟨_, _, _, ask_eq_ok.2 ⟨here, rfl⟩, ih, rfl⟩
  refine run_bind_eq_ok.2 ⟨_, _, asked, ?_⟩
  exact run_bind_eq_ok.2 ⟨_, _, ask_eq_ok.2 ⟨selected, rfl⟩, rfl⟩

/-- What is left to do of a call of a generic once a candidate is chosen. Its arguments are bound to
the dummy arguments one by one, so that a plain call has only to make the candidate callable, and
one of a type-bound generic to ask whether it is a binding itself. An operator needs a result, and
is called with copies of its operands. -/
structure Serves (arena : Arena) (env : Environment) (candidates : List SymbolId)
    (args : List ActualArgument)
    (types : List Ty) (receiver : Option Ty) (candidate function : SymbolId)
    (passed : Bool) : Prop where
  binds : ∀ span, bindArguments function passed args span arena = .ok
    (args.map (some ·.value)) arena
  plain : ∀ generic info scope span, receiver = none → arena.target generic = .ok (.generic info) →
    info.procs = candidates → bindProcedureCall env generic args span scope arena = (do
      let name ← callableSymbol scope generic candidate span
      return ⟨name, some generic, function, args.map (some ·.value), none⟩ : Edit BoundCall) arena
  typeBound : ∀ base type derived name member info span, receiver = some type →
    arena.exprType base = .ok type →
    type.derivedSymbol? = some derived → arena.member? derived (Text.lowercase name) = .ok
    (some member) → arena.kind member = .ok (.generic info) → info.procs = candidates →
    bindTypeBoundCall env base name args span arena = (do
      match ← ask (·.kind candidate) with
      | .binding _ => return ⟨candidate, some member, function, args.map (some ·.value), some base⟩
      | _ => reject (.notBinding (← ask (·.name candidate))) span : Edit BoundCall) arena
  operator : ∀ generic others scope span, receiver = none →
    callOperator env (args.map (·.value)) types span scope ((generic, candidates) :: others)
    arena = (do
      match ← ask (·.returnType? function) with
      | none => reject (.operatorSubroutine (← ask (·.name function))) span
      | some type =>
        let name ← callableSymbol scope generic candidate span
        let operands ← (args.map (·.value)).mapM fun operand => some <$> copy operand
        some <$> addExpr (.call name (some generic) operands none) type none span :
          Edit (Option ExprId)) arena

/-- Selection and binding agree. Whatever the policy and the candidates, a candidate that is chosen
for positional arguments, and for the object of a call if there is one, is implemented by a
procedure to whose dummy arguments the arguments are bound one by one; the first dummy argument is
left to the object where the candidate takes it. -/
theorem selected_binds {env : Environment} (positional : ∀ arg ∈ args, arg.keyword = none)
    (typed : List.Forall₂ (fun arg type => arena.exprType arg.value = .ok type) args types)
    (selected : arena.select env.policy candidates types receiver = .ok (.found candidate)) :
    ∃ function passed, arena.implementation candidate = .ok function ∧
      arena.takesObject candidate receiver = .ok passed ∧
      Serves arena env candidates args types receiver candidate function passed := by
  obtain ⟨function, info, passed, implemented, named, takes, fits⟩ :=
    exists_signature (candidateMatches_of_select selected)
  have suits := suits_of_signatureMatches typed fits
  refine ⟨function, passed, implemented, takes, fun span => bindArguments_of_suits named positional
    suits, ?_, ?_, ?_⟩
  · rintro generic held scope span rfl target rfl
    obtain ⟨past, stands, isGeneric⟩ := bind_eq_ok.1 target
    have notPassed : passed = false := by
      obtain ⟨kind, -, answered⟩ := bind_eq_ok.1 takes
      cases kind <;> simpa [pure, Except.pure, eq_comm] using answered
    refine (run_bind_of_ok (ask_eq_ok.2 ⟨stands, rfl⟩)).trans ?_
    refine (run_bind_of_ok (ask_eq_ok.2 ⟨isGeneric, rfl⟩)).trans ?_
    refine (run_bind_of_ok (chooseCandidate_of_selected typed selected)).trans ?_
    refine (run_bind_of_ok (ask_eq_ok.2 ⟨implemented, rfl⟩)).trans ?_
    refine run_bind_congr rfl fun name mid ran => ?_
    -- the arguments are bound in the arena in which the candidate may have been imported
    have retains := callableSymbol_retains scope generic ran
    obtain ⟨kept, namedLater, same⟩ := retains.function named
    rw [notPassed, ← same] at suits
    exact run_bind_of_ok (bindArguments_of_suits namedLater positional
      (suits.imp fun _ _ => retains.suits))
  · rintro base type derived name member held span rfl valued isDerived isMember isGeneric rfl
    refine (run_bind_of_ok (ask_eq_ok.2 ⟨valued, rfl⟩)).trans ?_
    dsimp only
    rw [isDerived]
    have resolved : resolveMember derived (Text.lowercase name) span arena = .ok member arena :=
      run_bind_eq_ok.2 ⟨_, _, ask_eq_ok.2 ⟨isMember, rfl⟩, rfl⟩
    refine (run_bind_of_ok resolved).trans ?_
    refine (run_bind_of_ok (ask_eq_ok.2 ⟨isGeneric, rfl⟩)).trans ?_
    refine (run_bind_of_ok (chooseCandidate_of_selected typed selected)).trans ?_
    refine (run_bind_of_ok rfl).trans (run_bind_congr rfl fun kind after asked => ?_)
    obtain ⟨isKind, same⟩ := ask_eq_ok.1 asked
    subst after
    cases kind with
    | binding binding =>
      have itself : arena.pastImport candidate = .ok candidate := bind_eq_ok.2 ⟨_, isKind, rfl⟩
      obtain ⟨past, stands, rest⟩ := bind_eq_ok.1 implemented
      cases itself.symm.trans stands
      obtain ⟨_, again, procStands⟩ := bind_eq_ok.1 rest
      cases isKind.symm.trans again
      obtain ⟨_, target, answered⟩ := bind_eq_ok.1 takes
      cases (bind_eq_ok.2 ⟨_, itself, isKind⟩ : arena.target candidate = _).symm.trans target
      have isPassed : passed = decide (binding.dispatch = .pass) := by
        simpa [pure, Except.pure, eq_comm] using answered
      rw [isPassed] at suits
      refine (run_bind_of_ok (ask_eq_ok.2 ⟨procStands, rfl⟩)).trans ?_
      exact run_bind_of_ok (bindArguments_of_suits named positional suits)
    | _ => rfl
  · rintro generic others scope span rfl
    refine (run_bind_of_ok (ask_eq_ok.2 ⟨selected, rfl⟩)).trans ?_
    exact run_bind_of_ok (ask_eq_ok.2 ⟨implemented, rfl⟩)

/-- The binding of `f` is chosen for an object of the extension, which is passed, and the rest is
bound one by one. -/
theorem selected_binds_passed :
    sampleBound.select .unique [⟨6⟩] [.integer 4, .real 4, .integer 4] (some (.derived ⟨7⟩)) = .ok
    (.found ⟨6⟩) ∧
      bindArguments ⟨1⟩ true [⟨none, ⟨0⟩, default⟩, ⟨none, ⟨1⟩, default⟩, ⟨none, ⟨0⟩, default⟩]
      default sampleBound =
        .ok [some ⟨0⟩, some ⟨1⟩, some ⟨0⟩] sampleBound := by
  let env : Environment := ⟨.unique, []⟩
  let args : List ActualArgument :=
    [⟨none, ⟨0⟩, default⟩, ⟨none, ⟨1⟩, default⟩, ⟨none, ⟨0⟩, default⟩]
  have positional : ∀ arg ∈ args, arg.keyword = none := by decide
  have selected : sampleBound.select env.policy [⟨6⟩] [.integer 4, .real 4, .integer 4]
      (some (.derived ⟨7⟩)) = .ok (.found ⟨6⟩) := rfl
  obtain ⟨function, passed, implemented, takes, serves⟩ :=
    selected_binds positional (.cons rfl (.cons rfl (.cons rfl .nil))) selected
  have isFunction : (⟨1⟩ : SymbolId) = function := Except.ok.inj implemented
  have isPassed : true = passed := Except.ok.inj takes
  subst function passed
  exact ⟨selected, serves.binds default⟩

end Expression

end FortranSemantics
