import FortranSemantics.Expression.Call
import FortranSemantics.Proofs.Arena.Edit
import Mathlib.Data.List.Induction

/-!
# Arguments and dummy arguments

Binding goes through the arguments of a call once, counts the positional ones and searches the dummy
arguments for each keyword. What it gives is a matching: every argument gets a slot of its own, by
position or by name, its type fits there, and the slots that stay empty belong to optional dummy
arguments. Every such matching is found.
-/

namespace FortranSemantics

open List Arena Edit

variable {arena b : Arena} {dummy : SymbolId} {dummies : List SymbolId} {arg : ActualArgument}
  {args : List ActualArgument} {slots : List (Option ExprId)} {place : Nat → Nat} {slot : Nat}
  {name procedure : String} {span : Span}

namespace Arena

/-- Whether a value may be passed for a dummy argument. One without a type takes every value. -/
def Admits (arena : Arena) (dummy : SymbolId) (value : ExprId) : Prop :=
  ∃ declared, arena.variableType? dummy = .ok declared ∧ ∀ formal, declared = some formal →
    ∃ actual, arena.exprType value = .ok actual ∧ arena.argumentCompatible formal actual = .ok true

/-- Whether a dummy argument needs no argument. -/
def MayLack (arena : Arena) (dummy : SymbolId) : Prop :=
  ∃ info, arena.asVariable? dummy = .ok (some info) ∧ info.presence = .optional

end Arena

namespace Expression

/-- Whether no positional argument stands after one with a keyword. -/
def PositionalFirst (args : List ActualArgument) : Prop :=
  args.Pairwise fun earlier b => b.keyword = none → earlier.keyword = none

/-- Whether the arguments, and nothing else, stand in the slots of dummy arguments that `place`
gives for them. -/
structure Placement (arena : Arena) (dummies : List SymbolId) (args : List ActualArgument)
    (place : Nat → Nat) (slots : List (Option ExprId)) : Prop where
  length : slots.length = dummies.length
  injective : ∀ i < args.length, ∀ j < args.length, place i = place j → i = j
  placed : ∀ ⦃i arg⦄, args[i]? = some arg → ∃ dummy, dummies[place i]? = some dummy ∧
    slots[place i]? = some (some arg.value) ∧ arena.Admits dummy arg.value ∧
    match arg.keyword with
    | none => place i = i
    | some keyword => arena.name dummy = .ok keyword
  vacant : ∀ j : Nat, j < dummies.length → (∀ i < args.length, place i ≠ j) → slots[j]? = some none

/-- Whether the arguments are matched with dummy arguments, all of which have got one or are
optional. -/
structure Matching (arena : Arena) (dummies : List SymbolId) (args : List ActualArgument)
    (place : Nat → Nat)
    (slots : List (Option ExprId)) : Prop extends Placement arena dummies args place slots where
  optional : ∀ ⦃j : Nat⦄ ⦃dummy⦄, dummies[j]? = some dummy → slots[j]? = some none →
    arena.MayLack dummy

/-! ## One argument -/

theorem run_reject_eq_ok {σ α : Type} {fault : Fault} {before after : σ} {res : α} :
    (reject fault span : EStateM Failure σ α) before = .ok res after ↔ False :=
  ⟨nofun, nofun⟩

theorem getElem?_of_positionOf? (h : positionOf? arena name dummies = .ok (some slot)) :
    ∃ dummy, dummies[slot]? = some dummy ∧ arena.name dummy = .ok name := by
  induction dummies generalizing slot with
  | nil => cases h
  | cons dummy rest ih =>
    obtain ⟨held, named, next⟩ := bind_eq_ok.1 h
    split at next
    · next same =>
      cases next
      exact ⟨dummy, rfl, same ▸ named⟩
    · obtain ⟨ans, asked, shifted⟩ := bind_eq_ok.1 next
      obtain ⟨slot, rfl, rfl⟩ := Option.map_eq_some_iff.1 (Except.ok.inj shifted)
      exact ih asked

/-- Among dummy arguments of different names the search for a keyword finds the one of that name. -/
theorem positionOf?_of_getElem? {names : List String} (named : dummies.mapM arena.name = .ok names)
    (distinct : names.Nodup) (isDummy : dummies[slot]? = some dummy)
    (isName : arena.name dummy = .ok name) : positionOf? arena name dummies = .ok (some slot) := by
  induction mapM_eq_ok.1 named generalizing slot with
  | nil => cases isDummy
  | @cons first head rest tail here there ih =>
    obtain ⟨apart, distinct⟩ := nodup_cons.1 distinct
    refine bind_eq_ok.2 ⟨head, here, ?_⟩
    cases slot with
    | zero =>
      cases isDummy
      rw [if_pos (Except.ok.inj (here.symm.trans isName))]
      rfl
    | succ slot =>
      have mem : name ∈ tail :=
        (mem_answers (mapM_eq_ok.2 there)).2 ⟨dummy, mem_of_getElem? isDummy, isName⟩
      rw [if_neg fun same : head = name => apart (same ▸ mem)]
      exact bind_eq_ok.2 ⟨some slot, ih (mapM_eq_ok.2 there) distinct isDummy, rfl⟩

theorem checkArgument_eq_ok {done : Unit} :
    checkArgument procedure dummy arg arena = .ok done b ↔ arena.Admits dummy arg.value ∧
    b = arena := by
  simp only [checkArgument, Admits, typeOf, run_bind_eq_ok, ask_eq_ok]
  cases arena.variableType? dummy with
  | error breach => simp
  | ok declared =>
    cases declared <;> simp [run_bind_eq_ok, ask_eq_ok, run_pure_eq_ok, run_reject_eq_ok]
    grind

/-- The state of binding once some arguments stand in the slots. -/
def Binding.after (procedure : String) (dummies : List SymbolId) (args : List ActualArgument)
    (slots : List (Option ExprId)) : Binding where
  procedure := procedure
  dummies := dummies
  filled := slots
  positional := args.countP (·.keyword.isNone)
  keyword := args.any (·.keyword.isSome)

/-- Whether an argument after others is meant for a slot. -/
def MeantFor (arena : Arena) (dummies : List SymbolId) (args : List ActualArgument)
    (arg : ActualArgument) (slot : Nat) : Prop :=
  match arg.keyword with
  | none => slot = args.length ∧ ∀ earlier ∈ args, earlier.keyword = none
  | some keyword => positionOf? arena keyword dummies = .ok (some slot)

theorem Binding.slotOf_eq_ok {next : Binding} :
    (after procedure dummies args slots).slotOf arg arena = .ok (slot, next) b ↔
      MeantFor arena dummies args arg slot ∧ next = after procedure dummies (args ++ [arg]) slots ∧
      b = arena := by
  unfold slotOf MeantFor after
  cases keyword : arg.keyword with
  | some name =>
    simp only [run_bind_eq_ok, ask_eq_ok]
    cases positionOf? arena name dummies with
    | error breach => simp
    | ok ans =>
      cases ans <;> simp [run_pure_eq_ok, run_reject_eq_ok, keyword, and_assoc, @eq_comm _ slot]
  | none =>
    cases keyed : args.any (·.keyword.isSome) with
    | true =>
      have unordered : ¬ ∀ earlier ∈ args,
          earlier.keyword = none := by simpa [Option.ne_none_iff_isSome] using keyed
      simp [-bind_pure_comp, run_bind_eq_ok, run_reject_eq_ok, unordered]
    | false =>
      have positional : ∀ earlier ∈ args, earlier.keyword = none := by simpa using keyed
      have counted : args.countP (·.keyword.isNone) = args.length :=
        countP_eq_length.2 (by simpa using positional)
      simp [run_pure_eq_ok, keyword, keyed, counted, and_assoc]
      grind

/-- An argument is bound by putting it in a free slot that it is meant for and where its type fits.
-/
theorem Binding.bind_eq_ok {bound : Binding} :
    (after procedure dummies args slots).bind arg arena = .ok bound b ↔
      ∃ slot dummy, MeantFor arena dummies args arg slot ∧ dummies[slot]? = some dummy ∧
      slots[slot]? = some none ∧
        arena.Admits dummy arg.value ∧
        bound = after procedure dummies (args ++ [arg]) (slots.set slot (some arg.value)) ∧
        b = arena := by
  simp only [bind, run_bind_eq_ok, Prod.exists, slotOf_eq_ok]
  constructor
  · rintro ⟨slot, _, _, ⟨meant, rfl, rfl⟩, rest⟩
    dsimp only [after] at rest
    refine ⟨slot, ?_⟩
    cases isDummy : dummies[slot]? with
    | none => simp [isDummy, run_reject_eq_ok] at rest
    | some dummy =>
      rcases free : slots[slot]? with _ | _ | v
      · rw [isDummy] at rest
        dsimp only at rest
        rw [free] at rest
        cases rest
      · simpa [-bind_pure_comp, isDummy, free, run_bind_eq_ok, checkArgument_eq_ok, run_pure_eq_ok,
          after, meant, and_assoc, and_comm] using rest
      · simp [-bind_pure_comp, isDummy, free, run_bind_eq_ok, run_reject_eq_ok] at rest
  · rintro ⟨slot, dummy, meant, isDummy, free, admits, rfl, rfl⟩
    refine ⟨slot, _, _, ⟨meant, rfl, rfl⟩, ?_⟩
    simp [-bind_pure_comp, after, isDummy, free, run_bind_eq_ok, checkArgument_eq_ok, admits,
      run_pure_eq_ok]

/-! ## All arguments -/

namespace Placement

theorem nil : Placement arena dummies [] place (replicate dummies.length none) where
  length := length_replicate
  injective := nofun
  placed := nofun
  vacant j inside _ := by simp [inside]

/-- One more argument goes to a free slot. -/
theorem snoc (placement : Placement arena dummies args place slots)
    (isDummy : dummies[slot]? = some dummy)
    (free : slots[slot]? = some none) (admits : arena.Admits dummy arg.value)
    (meant : match arg.keyword with
      | none => slot = args.length
      | some keyword => arena.name dummy = .ok keyword) :
    Placement arena dummies (args ++ [arg]) (fun i => if i = args.length then slot else place i)
      (slots.set slot (some arg.value)) := by
  obtain ⟨length, injective, placed, vacant⟩ := placement
  have apart {i : Nat} (inside : i < args.length) : place i ≠ slot := by
    rintro rfl
    obtain ⟨_, -, filled, -⟩ := placed (getElem?_eq_getElem inside)
    cases free.symm.trans filled
  refine ⟨by simp [length], by grind, by grind, fun j inside unused => ?_⟩
  have other := unused args.length
  grind

/-- The last argument is taken out of its slot. -/
theorem init (placement : Placement arena dummies (args ++ [arg]) place slots) :
    Placement arena dummies args place (slots.set (place args.length) none) := by
  obtain ⟨length, injective, placed, vacant⟩ := placement
  refine ⟨by simp [length], by grind, fun i other isArg => ?_, by grind⟩
  have before := (List.getElem?_eq_some_iff.1 isArg).1
  have apart : place args.length ≠ place i := by grind
  have held := placed (getElem?_append_left before ▸ isArg)
  rwa [getElem?_set_ne apart]

end Placement

/-- What binding has done after all arguments is to place them. -/
theorem placement_of_foldlM {bound : Binding} (ran : args.foldlM Binding.bind
      (.after procedure dummies [] (replicate dummies.length none)) arena = .ok bound b) :
    PositionalFirst args ∧ b = arena ∧ ∃ place slots, Placement arena dummies args place slots ∧
      bound = .after procedure dummies args slots := by
  induction args using List.reverseRecOn generalizing bound b with
  | nil =>
    cases ran
    exact ⟨.nil, rfl, id, _, .nil, rfl⟩
  | append_singleton done arg ih =>
    rw [foldlM_append] at ran
    obtain ⟨held, _, first, rest⟩ := run_bind_eq_ok.1 ran
    obtain ⟨ordered, rfl, place, slots, placement, rfl⟩ := ih first
    obtain ⟨_, _, step, last⟩ := run_bind_eq_ok.1 rest
    cases last
    obtain ⟨slot, dummy, meant, isDummy, free, admits, rfl, rfl⟩ := Binding.bind_eq_ok.1 step
    unfold MeantFor at meant
    refine ⟨pairwise_append.2 ⟨ordered, pairwise_singleton _ _, ?_⟩, rfl, _, _,
      placement.snoc isDummy free admits ?_, rfl⟩
    · intro earlier mem other isArg positional
      rw [mem_singleton.1 isArg] at positional
      rw [positional] at meant
      exact meant.2 earlier mem
    · cases keyword : arg.keyword <;> rw [keyword] at meant
      · exact meant.1
      · obtain ⟨_, isAlso, named⟩ := getElem?_of_positionOf? meant
        cases isDummy.symm.trans isAlso
        exact named

/-- Arguments that can be placed are bound so. -/
theorem foldlM_of_placement (ordered : PositionalFirst args)
    (placement : Placement arena dummies args place slots)
    (h : ∀ i arg keyword, args[i]? = some arg → arg.keyword = some keyword →
      positionOf? arena keyword dummies = .ok (some (place i))) :
    args.foldlM Binding.bind (.after procedure dummies [] (replicate dummies.length none)) arena =
      .ok (.after procedure dummies args slots) arena := by
  induction args using List.reverseRecOn generalizing slots with
  | nil =>
    have empty : slots = replicate dummies.length none := by
      refine ext_getElem? fun j => ?_
      by_cases inside : j < dummies.length
      · rw [placement.vacant j inside nofun]
        simp [inside]
      · rw [getElem?_eq_none (by have := placement.length; omega)]
        simp [inside]
    rw [empty]
    rfl
  | append_singleton done arg ih =>
    obtain ⟨earlier, -, first⟩ := pairwise_append.1 ordered
    have before {i : Nat} {other : ActualArgument} (isArg : done[i]? = some other) :
        (done ++ [arg])[i]? = some other := by
      rw [getElem?_append_left (List.getElem?_eq_some_iff.1 isArg).1, isArg]
    have isLast : (done ++ [arg])[done.length]? = some arg := getElem?_concat_length
    obtain ⟨dummy, isDummy, filled, admits, meant⟩ := placement.placed isLast
    have inside := (List.getElem?_eq_some_iff.1 filled).1
    rw [foldlM_append]
    refine run_bind_eq_ok.2 ⟨_, _, ih earlier placement.init fun i other keyword isArg =>
      h i other keyword (before isArg), ?_⟩
    refine run_bind_eq_ok.2 ⟨_, _, Binding.bind_eq_ok.2 ⟨place done.length, dummy, ?_, isDummy,
      getElem?_set_self inside, admits, rfl, rfl⟩, ?_⟩
    · unfold MeantFor
      cases keyword : arg.keyword <;> rw [keyword] at meant
      · exact ⟨meant, fun other mem => first other mem arg (.head _) keyword⟩
      · exact h _ _ _ isLast keyword
    · have restored : (slots.set (place done.length) none).set (place done.length)
          (some arg.value) = slots := by
        rw [set_set]
        exact ext_getElem? fun j => by grind
      rw [restored]
      rfl

/-! ## Missing arguments -/

/-- Nothing is missing when the dummy arguments of empty slots are optional. -/
theorem checkPresence_eq_ok (length : slots.length = dummies.length) :
    checkPresence procedure span dummies slots arena = .ok () b ↔
      (∀ j : Nat, ∀ dummy, dummies[j]? = some dummy → (∃ ans, arena.asVariable? dummy = .ok ans) ∧
        (slots[j]? = some none → arena.MayLack dummy)) ∧ b = arena := by
  induction dummies generalizing slots with
  | nil => simp [checkPresence, run_pure_eq_ok]
  | cons dummy rest ih =>
    cases slots with
    | nil => cases length
    | cons slot others =>
      rw [← Nat.and_forall_add_one]
      simp only [checkPresence, run_bind_eq_ok, ask_eq_ok]
      cases answered : arena.asVariable? dummy with
      | error breach => simp [answered]
      | ok ans =>
        have lacks : arena.MayLack dummy ↔ ans.any (·.presence = .optional) = true := by
          cases ans <;> simp [MayLack, answered]
        cases slot <;> cases optional : ans.any (·.presence = .optional) <;>
          simp [-bind_pure_comp, run_bind_eq_ok, ask_eq_ok, run_reject_eq_ok,
            ih (Nat.succ.inj length), answered, lacks, optional]

/-! ## Calls -/

section

variable {function : SymbolId} {info : Function} {passed : Bool}
  (isFunction : arena.asFunction? function = .ok (some info))

include isFunction

theorem exists_name_of_asFunction? : ∃ name, arena.name function = .ok name := by
  obtain ⟨_, target, -⟩ := bind_eq_ok.1 isFunction
  obtain ⟨_, stands, -⟩ := bind_eq_ok.1 target
  obtain ⟨_, h, -⟩ := bind_eq_ok.1 stands
  obtain ⟨symbol, held, -⟩ := kind_eq_ok.1 h
  exact ⟨symbol.name, name_eq_ok.2 ⟨symbol, held, rfl⟩⟩

theorem matching_of_bindArguments
    (ran : bindArguments function passed args span arena = .ok slots b) :
    b = arena ∧ PositionalFirst args ∧
      ∃ place, Matching arena (if passed then
        info.args.drop 1 else info.args) args place slots := by
  obtain ⟨procedure, _, asked, rest⟩ := run_bind_eq_ok.1 ran
  obtain ⟨-, rfl⟩ := ask_eq_ok.1 asked
  obtain ⟨ans, _, asked, binds⟩ := run_bind_eq_ok.1 rest
  obtain ⟨answered, rfl⟩ := ask_eq_ok.1 asked
  cases isFunction.symm.trans answered
  obtain ⟨bound, _, folded, checks⟩ := run_bind_eq_ok.1 binds
  obtain ⟨ordered, rfl, place, filled, placement, rfl⟩ := placement_of_foldlM folded
  obtain ⟨_, _, checked, last⟩ := run_bind_eq_ok.1 checks
  obtain ⟨present, rfl⟩ := (checkPresence_eq_ok placement.length).1 checked
  cases last
  exact ⟨rfl, ordered, place, placement, fun j dummy isDummy => (present j dummy isDummy).2⟩

/-- A matching is found, provided that the search for each keyword leads where it says. -/
theorem bindArguments_of_matching (ordered : PositionalFirst args)
    (matching : Matching arena (if passed then info.args.drop 1 else info.args) args place slots)
    (h : ∀ i arg keyword, args[i]? = some arg → arg.keyword = some keyword →
      positionOf? arena keyword
      (if passed then info.args.drop 1 else info.args) = .ok (some (place i))) :
    bindArguments function passed args span arena = .ok slots arena := by
  obtain ⟨procedure, named⟩ := exists_name_of_asFunction? isFunction
  refine run_bind_eq_ok.2 ⟨_, _, ask_eq_ok.2 ⟨named, rfl⟩, ?_⟩
  refine run_bind_eq_ok.2 ⟨_, _, ask_eq_ok.2 ⟨isFunction, rfl⟩, ?_⟩
  dsimp only
  generalize (if passed then info.args.drop 1 else info.args) = dummies at matching h ⊢
  refine run_bind_eq_ok.2 ⟨_, _, foldlM_of_placement ordered matching.toPlacement h, ?_⟩
  refine run_bind_eq_ok.2 ⟨_, _, (checkPresence_eq_ok matching.length).2
    ⟨fun j dummy isDummy => ?_, rfl⟩, rfl⟩
  refine ⟨?_, matching.optional isDummy⟩
  by_cases used : ∃ i < args.length, place i = j
  · obtain ⟨i, before, rfl⟩ := used
    obtain ⟨_, isAlso, -, ⟨_, declares, -⟩, -⟩ := matching.placed (getElem?_eq_getElem before)
    cases isDummy.symm.trans isAlso
    obtain ⟨ans, answered, -⟩ := bind_eq_ok.1 declares
    exact ⟨ans, answered⟩
  · have inside := (List.getElem?_eq_some_iff.1 isDummy).1
    have empty := matching.vacant j inside fun i before same => used ⟨i, before, same⟩
    obtain ⟨info, answered, -⟩ := matching.optional isDummy empty
    exact ⟨some info, answered⟩

/-- Binding is faithful. For a procedure whose dummy arguments have different names, binding
succeeds with some slots exactly when these are a matching of the arguments, none of them positional
after a keyword. -/
theorem bindArguments_iff_matching {names : List String}
    (named : info.args.mapM arena.name = .ok names)
    (distinct : names.Nodup) (passed : Bool) (args : List ActualArgument) (span : Span)
    (slots : List (Option ExprId)) (later : Arena) :
    bindArguments function passed args span arena = .ok slots later ↔ later = arena ∧
    PositionalFirst args ∧
      ∃ place, Matching arena (if passed then
        info.args.drop 1 else info.args) args place slots := by
  refine ⟨matching_of_bindArguments isFunction, ?_⟩
  rintro ⟨rfl, ordered, place, matching⟩
  refine bindArguments_of_matching isFunction ordered matching
    fun i arg keyword isArg isKeyword => ?_
  obtain ⟨dummy, isDummy, -, -, meant⟩ := matching.placed isArg
  rw [isKeyword] at meant
  have split : ∃ names : List String,
      (if passed then info.args.drop 1 else info.args).mapM later.name = .ok names ∧
      names.Nodup := by
    cases passed with
    | false => exact ⟨names, named, distinct⟩
    | true =>
      exact ⟨names.drop 1, mapM_eq_ok.2 (forall₂_drop 1 (mapM_eq_ok.1 named)), distinct.drop⟩
  obtain ⟨names, named, distinct⟩ := split
  exact positionOf?_of_getElem? named distinct isDummy meant

end

end Expression

/-- A type `t` with a binding of `f(x, a, b, c)`, where `b` is optional, and an extension `e` of it.
-/
def Arena.sampleBound : Arena where
  symbols := #[⟨"t", ⟨0⟩, .derivedType ⟨⟨1⟩, [], none, .publicAccess⟩⟩,
    ⟨"f", ⟨0⟩, .function ⟨⟨2⟩, [⟨2⟩, ⟨3⟩, ⟨4⟩, ⟨5⟩], none, [], .source, .implementation,
      .publicAccess, []⟩⟩,
    ⟨"x", ⟨2⟩, .variable (.ofType (.polymorphic ⟨0⟩))⟩,
    ⟨"a", ⟨2⟩, .variable (.ofType (.integer 4))⟩,
    ⟨"b", ⟨2⟩, .variable { Variable.ofType (.real 4) with presence := .optional }⟩,
    ⟨"c", ⟨2⟩, .variable (.ofType (.integer 4))⟩, ⟨"f", ⟨1⟩, .binding ⟨⟨1⟩, "f", .pass⟩⟩,
    ⟨"e", ⟨0⟩, .derivedType ⟨⟨3⟩, [], some ⟨0⟩, .publicAccess⟩⟩]
  scopes := #[⟨none, none, [("t", ⟨0⟩), ("f", ⟨1⟩), ("e", ⟨7⟩)], []⟩,
    ⟨some ⟨0⟩, some ⟨0⟩, [("f", ⟨6⟩)], []⟩,
    ⟨some ⟨0⟩, some ⟨1⟩, [("x", ⟨2⟩), ("a", ⟨3⟩), ("b", ⟨4⟩), ("c", ⟨5⟩)], []⟩,
    ⟨some ⟨0⟩, some ⟨7⟩, [], []⟩]
  exprs := #[⟨.constant (.integer 1), .integer 4, none, default⟩,
    ⟨.var ⟨4⟩, .real 4, none, default⟩]
  root := ⟨0⟩

/-- With the object passed, a positional argument and one for `c` leave the slot of `b` empty. -/
theorem Expression.bindArguments_iff_matching_optional :
    ["x", "a", "b", "c"].Nodup ∧ ∃ place, Expression.Matching sampleBound [⟨3⟩, ⟨4⟩, ⟨5⟩]
      [⟨none, ⟨0⟩, default⟩, ⟨some "c", ⟨0⟩, default⟩] place [some ⟨0⟩, none, some ⟨0⟩] := by
  have ran : Expression.bindArguments ⟨1⟩ true [⟨none, ⟨0⟩, default⟩, ⟨some "c", ⟨0⟩, default⟩]
      default sampleBound = .ok [some ⟨0⟩, none, some ⟨0⟩] sampleBound := rfl
  have isFunction : sampleBound.asFunction? ⟨1⟩ =
      .ok (some ⟨⟨2⟩, [⟨2⟩, ⟨3⟩, ⟨4⟩, ⟨5⟩], none, [], .source, .implementation,
        .publicAccess, []⟩) := rfl
  have distinct : ["x", "a", "b", "c"].Nodup := by decide
  exact ⟨distinct,
    ((Expression.bindArguments_iff_matching isFunction rfl distinct true _ _ _ _).1 ran).2.2⟩

end FortranSemantics
