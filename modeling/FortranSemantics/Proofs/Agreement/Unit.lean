import FortranSemantics.Analysis.Unit
import FortranSemantics.Proofs.Agreement.Declaration

/-!
# Units of two analyses

The statements of a unit and of the same one in lower case are resolved alike, and so is the whole
unit. The case of a program does not matter, and the policy that refuses ambiguous calls accepts
nothing that is not accepted with the same result when the first candidate is taken.
-/

namespace FortranSemantics

open Arena Text

variable {policy : OverloadPolicy} {outcome : Except Failure Analysed}

namespace Analysis

variable {vary : Variation} {setup other : Setup} {s : ScopeId} {span : Span}

/-! ## Statements -/

instance {target : ExprId} :
    vary.Agrees (checkAssignable target span) (checkAssignable target span) := by
  unfold checkAssignable
  refine .andThen fun base => ?_
  cases base with
  | var sym => exact .andThen fun name => .andThen fun info => by cases info <;> infer_instance
  | _ => infer_instance

instance {source target : Ty} :
    vary.Agrees (lintNarrowing source target span) (lintNarrowing source target span) := by
  unfold lintNarrowing
  infer_instance

instance {name : String} {selector : ExprId} :
    vary.Agrees (associateName s name selector span) (associateName s name selector span) := by
  unfold associateName
  infer_instance

instance {associations : List Tree.Association} {selectors : List ExprId} :
    vary.Agrees (associateNames s associations selectors)
      (associateNames s (associations.map (·.lowercase)) selectors) := by
  unfold associateNames
  rw [List.zip_map_left, List.mapM_map]
  simp only [Function.comp_def, Prod.map, Tree.Association.lowercase, lowercase_lowercase,
    Tree.Expr.lowercase_span, id_eq]
  infer_instance

instance openBlock_tracks {wanted : String} :
    vary.Agrees (openBlock wanted s span) (openBlock wanted s span) := by
  unfold openBlock
  infer_instance

instance : vary.Agrees (openBlockConstruct s span) (openBlockConstruct s span) :=
  Tracks.bind (note_tracks fun _ => rfl) fun _ => Follows.bind journal_follows fun _ _ same =>
    same ▸ openBlock_tracks

instance : vary.Agrees (openAssociateConstruct s span) (openAssociateConstruct s span) :=
  Tracks.bind (note_tracks fun _ => rfl) fun _ => Follows.bind journal_follows fun _ _ same =>
    same ▸ openBlock_tracks

section

variable [vary.Setups setup other] {target v tree : Tree.Expr} {name : String}
  {receiver : List String} {args : List Tree.Arg}

instance : vary.Agrees (assignment setup s target v span)
    (assignment other s target.lowercase v.lowercase span) := by
  unfold assignment
  infer_instance

instance : vary.Agrees (condition setup s tree) (condition other s tree.lowercase) := by
  unfold condition
  rw [Tree.Expr.lowercase_span]
  infer_instance

instance {counterType : Ty} : vary.Agrees (loopBound setup s counterType tree)
    (loopBound other s counterType tree.lowercase) := by
  unfold loopBound
  rw [Tree.Expr.lowercase_span]
  infer_instance

instance :
    vary.Agrees (loopCounter setup s name span) (loopCounter other s (lowercase name) span) := by
  unfold loopCounter
  refine environmentThen fun _ _ _ => .andThen fun id => .andThen fun expr => ?_
  cases expr.kind <;> infer_instance

instance : vary.Agrees (stopCode setup s span tree) (stopCode other s span tree.lowercase) := by
  unfold stopCode
  infer_instance

instance : vary.Agrees (bindCall setup s receiver (lowercase name) args span)
    (bindCall other s (receiver.map lowercase) (lowercase name)
      (Tree.Arg.lowercaseAll args) span) := by
  unfold bindCall
  refine environmentThen fun env another environments => ?_
  rw [List.isEmpty_map]
  refine .ite (Tracks.andThen fun h => by cases h <;> infer_instance) ?_
  refine Tracks.andThen fun base => .andThen fun args => ?_
  have tracks : Tracks vary id
      (Expression.bindTypeBoundCall env base (lowercase name) args span)
      (Expression.bindTypeBoundCall another base (lowercase (lowercase name)) args
        span) := inferInstance
  rw [lowercase_lowercase] at tracks
  infer_instance

instance : vary.Agrees (callStmt setup s receiver name args span)
    (callStmt other s (receiver.map lowercase) (lowercase name)
      (Tree.Arg.lowercaseAll args) span) := by
  unfold callStmt
  rw [lowercase_lowercase]
  infer_instance

end

mutual

theorem statement_tracks [vary.Setups setup other] {inLoop : Bool} {s : ScopeId} :
    ∀ (tree : Tree.Stmt),
    vary.Agrees (statement setup inLoop s tree) (statement other inLoop s tree.lowercase)
  | .branch cond thenBody none => Tracks.andThen fun _ =>
    .bind (statements_tracks thenBody) fun _ => .pure _
  | .branch cond thenBody (some elseBody) =>
    Tracks.andThen fun _ => .bind (statements_tracks thenBody) fun _ =>
      Tracks.bind (statements_tracks elseBody) fun _ => .pure _
  | .loop counter start final step body span =>
    Tracks.andThen fun _ => .andThen fun _ => .andThen fun _ => .andThen fun _ =>
      Tracks.bind (statements_tracks body) fun _ => .pure _
  | .loopWhile cond body => Tracks.andThen fun _ => .bind (statements_tracks body) fun _ => .pure _
  | .block decls body span =>
    Tracks.andThen fun _ => .andThen fun _ => .bind (statements_tracks body) fun _ => inferInstance
  | .associate associations body span => by
    have selectors (association : Tree.Association) : vary.Agrees
        (expression setup s association.expr) (expression other s association.lowercase.expr) :=
      inferInstanceAs (vary.Agrees _ (expression other s association.expr.lowercase))
    unfold statement Tree.Stmt.lowercase
    exact .andThen fun _ => .andThen fun _ => .andThen fun _ => .bind (statements_tracks body)
      fun _ => inferInstance
  | .assign .. | .call .. | .print _ | .returnStmt | .exit _ | .cycle _ | .stop .. => by
    unfold statement Tree.Stmt.lowercase
    infer_instance

theorem statements_tracks [vary.Setups setup other] {inLoop : Bool} {s : ScopeId} :
    ∀ (trees : List Tree.Stmt), vary.Agrees (statements setup inLoop s trees)
      (statements other inLoop s (Tree.Stmt.lowercaseAll trees))
  | [] => .pure _
  | first :: rest => .bind (statement_tracks first) fun _ =>
    .bind (statements_tracks rest) fun _ => .pure _

end

attribute [instance] statements_tracks

/-! ## Program units -/

mutual

theorem procedureBody_tracks [vary.Setups setup other] {parent : ScopeId} :
    ∀ (tree : Tree.Subprogram),
      vary.Agrees (procedureBody setup parent tree) (procedureBody other parent tree.lowercase)
  | ⟨k, name, args, resultType, resultName, uses, implicits, decls, body, contained, span⟩ => by
    unfold procedureBody Tree.Subprogram.lowercase
    dsimp only
    rw [lowercase_lowercase]
    refine .andThen fun h => ?_
    cases h with
    | none => infer_instance
    | some sym =>
      exact .andThen fun _ => .andThen fun _ => .andThen fun _ => containedBodies_tracks contained

theorem containedBodies_tracks [vary.Setups setup other] {parent : ScopeId} :
    ∀ (trees : List Tree.Subprogram), vary.Agrees (containedBodies setup parent trees)
      (containedBodies other parent (Tree.Subprogram.lowercaseAll trees))
  | [] => .pure _
  | first :: rest => .bind (procedureBody_tracks first) fun _ => containedBodies_tracks rest

end

attribute [instance] procedureBody_tracks containedBodies_tracks

variable [between : vary.Setups setup other]

instance {unit : Tree.Program} :
    vary.Agrees (programBody setup unit) (programBody other unit.lowercase) := by
  unfold programBody Tree.Program.lowercase
  dsimp only
  rw [lowercase_lowercase]
  exact .andThen fun root => .andThen fun h => by cases h <;> infer_instance

instance {unit : Tree.ProgramUnit} :
    vary.Agrees (unitBody setup unit) (unitBody other unit.lowercase) := by
  cases unit <;> simp only [unitBody, Tree.ProgramUnit.lowercase, Tree.Module.lowercase,
    lowercase_lowercase] <;> infer_instance

omit between in
instance : vary.Agrees lintUnusedDummies lintUnusedDummies := by
  refine Tracks.andThen fun unused => Follows.bind journal_follows fun journal lower same => ?_
  subst same
  refine @Tracks.forM_same _ _ _ _ _ _ unused fun pair => ?_
  have spans : journal.lowercase.declSpans = journal.declSpans := rfl
  dsimp only
  rw [spans]
  cases journal.declSpans.lookup pair.2 <;> infer_instance

instance {unit : Tree.CompilationUnit} :
    vary.Agrees (analyse setup unit) (analyse other unit.lowercase) := by
  have lowers : other.settings.lowerArrays = setup.settings.lowerArrays := by rw [between.settings]
  unfold analyse
  rw [lowers]
  exact Tracks.andThen fun _ => .bind (.forM unit.items) fun _ => inferInstance

end Analysis

/-! ## Outcomes -/

/-- Whether the outcome of a second analysis follows that of a first one. -/
def Variation.Ends (vary : Variation) : Except Failure Analysed → Except Failure Analysed → Prop
  | .ok first, .ok second => first = second
  | .ok _, .error _ => False
  | .error failure, .ok _ => vary.admits failure none
  | .error failure, .error other => vary.admits failure (some other)

/-- The analysis of a unit in lower case follows that of the unit. -/
theorem Arena.extend_ends {vary : Variation} {setup other : Setup}
    (between : vary.Setups setup other) (a : Arena) (unit : Tree.CompilationUnit) :
    vary.Ends (a.extend setup unit) (a.extend other unit.lowercase) := by
  have agrees : vary.Agrees (Analysis.analyse setup unit) (Analysis.analyse other unit.lowercase) :=
    inferInstance
  have met := agrees.meets ⟨a, {}⟩
  have start : Context.lowercase ⟨a, {}⟩ = ⟨a, {}⟩ := rfl
  rw [start] at met
  unfold extend
  cases ran : Analysis.analyse setup unit ⟨a, {}⟩ <;>
    cases ranToo : Analysis.analyse other unit.lowercase ⟨a, {}⟩ <;>
    rw [ran, ranToo] at met
  · obtain ⟨-, rfl⟩ := met
    rfl
  · exact met
  · exact met
  · exact met

/-! ## Case -/

/-- Whether failures are of one class and at one place, or the same breach. -/
def Failure.Alike : Failure → Failure → Prop
  | .rejected error, .rejected other =>
    error.fault.kind = other.fault.kind ∧ error.span = other.span
  | .broken breach, .broken other => breach = other
  | _, _ => False

theorem Failure.Alike.trans {first second third : Failure} (one : first.Alike second)
    (two : third.Alike second) : first.Alike third := by
  cases first <;> cases second <;> cases third <;> try exact one.elim
  · exact ⟨one.1.trans two.1.symm, one.2.trans two.2.symm⟩
  · exact two.elim
  · exact two.elim
  · exact Eq.trans one (Eq.symm two)

/-- The variation of two analyses that fail alike, under one policy. -/
def Variation.alikeUnder (policy : OverloadPolicy) : Variation where
  admits failure outcome := ∃ other, outcome = some other ∧ failure.Alike other
  onwards := fun ⟨_, absurdity, _⟩ => by cases absurdity
  same failure := ⟨failure, rfl, by cases failure <;> simp [Failure.Alike]⟩
  alike class_eq span := ⟨_, rfl, class_eq, rfl⟩
  policy := policy
  otherPolicy := policy
  choice := .inl rfl

theorem Variation.alikeUnder_setups (setup : Setup) :
    (alikeUnder setup.settings.policy).Setups setup setup :=
  ⟨rfl, rfl, rfl⟩

theorem Variation.eq_ok_of_ends {analysed : Analysed}
    (ends : (alikeUnder policy).Ends outcome (.ok analysed)) : outcome = .ok analysed := by
  cases outcome with
  | ok first => exact congrArg Except.ok ends
  | error failure =>
    obtain ⟨_, absurdity, -⟩ := ends
    cases absurdity

theorem Variation.exists_error_of_ends {failure : Failure}
    (ends : (alikeUnder policy).Ends outcome (.error failure)) :
    ∃ first : Failure, outcome = .error first ∧ first.Alike failure := by
  cases outcome with
  | ok first => exact ends.elim
  | error first =>
    obtain ⟨_, same, alike⟩ := ends
    cases same
    exact ⟨first, rfl, alike⟩

/-- Whether two analyses end alike: with the same arena and the same lints, or with failures that
are alike. -/
inductive SameOutcome : Except Failure Analysed → Except Failure Analysed → Prop
  | accepted {first second : Analysed} (arena : first.arena = second.arena)
    (lints : first.lints = second.lints) :
      SameOutcome (.ok first) (.ok second)
  | failed {failure other : Failure} (alike : failure.Alike other) :
      SameOutcome (.error failure) (.error other)

/-- Units that are the same in lower case are analysed alike, on top of any arena and with any
library: both are accepted with the same arena and the same lints, or both fail with a fault of one
class at one place. -/
theorem Arena.extend_caseInsensitive (arena : Arena) (setup : Setup)
    {unit other : Tree.CompilationUnit} (same : unit.lowercase = other.lowercase) :
    SameOutcome (arena.extend setup unit) (arena.extend setup other) := by
  have first := arena.extend_ends (Variation.alikeUnder_setups setup) unit
  have second := arena.extend_ends (Variation.alikeUnder_setups setup) other
  rw [same] at first
  cases lower : arena.extend setup other.lowercase with
  | ok analysed =>
    rw [lower] at first second
    rw [Variation.eq_ok_of_ends first, Variation.eq_ok_of_ends second]
    exact .accepted rfl rfl
  | error failure =>
    rw [lower] at first second
    obtain ⟨one, ended, alike⟩ := Variation.exists_error_of_ends first
    obtain ⟨two, endedToo, alikeToo⟩ := Variation.exists_error_of_ends second
    rw [ended, endedToo]
    exact .failed (alike.trans alikeToo)

/-- A program that prints a real number of a named kind times a value that is typed by its first
letter. -/
def Tree.sampleQuiet : Tree.CompilationUnit :=
  ⟨[.programUnit ⟨"p", [], [.rule (.real none) [⟨'a', some 'c'⟩] default],
    [.var ⟨.integer none, [.parameter], [⟨"wp", [], some ⟨.int "8", default⟩, default⟩], default⟩],
    [.print [⟨.binary .mul ⟨.int "2_wp", default⟩ ⟨.name "b", default⟩, default⟩]], [], default⟩]⟩

/-- The same program in capitals. -/
def Tree.sampleLoud : Tree.CompilationUnit :=
  ⟨[.programUnit ⟨"P", [], [.rule (.real none) [⟨'A', some 'C'⟩] default],
    [.var ⟨.integer none, [.parameter], [⟨"WP", [], some ⟨.int "8", default⟩, default⟩], default⟩],
    [.print [⟨.binary .mul ⟨.int "2_WP", default⟩ ⟨.name "B", default⟩, default⟩]], [], default⟩]⟩

/-- The program is accepted in both spellings, with the same arena and the same lints. -/
theorem Arena.extend_caseInsensitive_capitals :
    (Arena.empty.extend ⟨{}, {}⟩ Tree.sampleLoud).isOk = true ∧
    Tree.sampleLoud.lowercase = Tree.sampleQuiet.lowercase ∧
      SameOutcome (Arena.empty.extend ⟨{}, {}⟩ Tree.sampleLoud)
      (Arena.empty.extend ⟨{}, {}⟩ Tree.sampleQuiet) := by
  have program : lowercase "P" = lowercase "p" := by decide +kernel
  have kind : lowercase "WP" = lowercase "wp" := by decide +kernel
  have number : lowercase "2_WP" = lowercase "2_wp" := by decide +kernel
  have factor : lowercase "B" = lowercase "b" := by decide +kernel
  have range : Tree.LetterRange.lowercase ⟨'A', some 'C'⟩ = Tree.LetterRange.lowercase
      ⟨'a', some 'c'⟩ := by decide +kernel
  have same : Tree.sampleLoud.lowercase = Tree.sampleQuiet.lowercase := by
    simp only [Tree.CompilationUnit.lowercase, Tree.sampleLoud, Tree.sampleQuiet,
      List.map_cons, List.map_nil,
      Tree.ProgramUnit.lowercase, Tree.Program.lowercase, Tree.ImplicitStmt.lowercase,
      Tree.Decl.lowercaseAll,
      Tree.Decl.lowercase, Tree.VarDecl.lowercase, Tree.Entity.lowercase, Tree.Stmt.lowercaseAll,
      Tree.Stmt.lowercase,
      Tree.Expr.lowercase, Tree.ExprKind.lowercase, program, kind, number, factor, range]
  exact ⟨by decide +kernel, same, Arena.extend_caseInsensitive _ _ same⟩

/-! ## Policies for generics -/

/-- The variation of an analysis that refuses ambiguous calls from one that takes the first
candidate. -/
def Variation.stricter : Variation where
  admits _ _ := True
  onwards _ _ := trivial
  same _ := trivial
  alike _ _ := trivial
  policy := .unique
  otherPolicy := .firstMatch
  choice := .inr ⟨rfl, rfl, fun _ _ => trivial⟩

/-- The setup with a policy for generics. -/
def Setup.withPolicy (setup : Setup) (policy : OverloadPolicy) : Setup :=
  { setup with settings := { setup.settings with policy } }

/-- What is accepted when ambiguous calls are refused is accepted with the same arena and the same
lints when the first candidate is taken; and where a choice is ambiguous there are at least two
candidates, of which the first is taken then. -/
theorem Arena.unique_only_rejects :
    (∀ (arena : Arena) (setup : Setup) (unit : Tree.CompilationUnit) (analysed : Analysed),
      arena.extend (setup.withPolicy .unique) unit = .ok analysed →
        arena.extend (setup.withPolicy .firstMatch) unit = .ok analysed) ∧
    ∀ (arena : Arena) (candidates : List SymbolId) (args : List Ty) (receiver : Option Ty)
      (several : List SymbolId),
      arena.select .unique candidates args receiver = .ok (.ambiguous several) →
        ∃ first second rest, several = first :: second :: rest ∧
          arena.select .firstMatch candidates args receiver = .ok (.found first) := by
  constructor
  · intro arena setup unit analysed accepted
    have between : Variation.stricter.Setups (setup.withPolicy .unique)
      (setup.withPolicy .firstMatch) := ⟨rfl, rfl, rfl⟩
    have strict := arena.extend_ends between unit
    have spelled := arena.extend_ends (Variation.alikeUnder_setups (setup.withPolicy .firstMatch))
      unit
    rw [accepted] at strict
    cases lower : arena.extend (setup.withPolicy .firstMatch) unit.lowercase with
    | ok second =>
      rw [lower] at strict spelled
      have same : analysed = second := strict
      rw [same]
      exact Variation.eq_ok_of_ends spelled
    | error failure =>
      rw [lower] at strict
      exact strict.elim
  · intro arena candidates args receiver several chosen
    obtain ⟨ambiguous, -⟩ := Arena.firstMatch_of_uniqueMatch chosen
    obtain ⟨two, taken⟩ := ambiguous several rfl
    match several, two, taken with
    | first :: second :: rest, _, taken => exact ⟨first, second, rest, rfl, taken⟩

/-- A subroutine with one argument `x` of the given type. -/
def Tree.sampleSubroutine (name : String) (type : TypeSpec) (body : List Stmt) : Subprogram :=
  ⟨.subroutine, name, ["x"], none, none, [], [],
    [.var ⟨type, [], [⟨"x", [], none, default⟩], default⟩], body, [], default⟩

/-- A module with a generic `g` for the subroutines `f` and `k`, which `h` calls. -/
def Tree.sampleGeneric : Tree.CompilationUnit :=
  ⟨[.moduleUnit ⟨"m", [], [], [.interface (.generic "g") [.moduleProcedure ["f", "k"]] default],
    [sampleSubroutine "f" (.integer none) [], sampleSubroutine "k" (.real none) [],
      sampleSubroutine "h" (.integer none) [.call [] "g" [⟨none, ⟨.name "x", default⟩⟩] default]],
      default⟩]⟩

/-- The module with the generic is accepted under both policies with the same arena, in which a
choice between `f` and `h` for an integer is ambiguous and `f` is taken. -/
theorem Arena.unique_only_rejects_generic : ∃ analysed,
    Arena.empty.extend (Setup.withPolicy ⟨{}, {}⟩ .unique) Tree.sampleGeneric = .ok analysed ∧
      Arena.empty.extend (Setup.withPolicy ⟨{}, {}⟩ .firstMatch) Tree.sampleGeneric = .ok analysed ∧
        ∃ several, analysed.arena.select .unique [⟨1⟩, ⟨5⟩] [.integer 4] none = .ok
        (.ambiguous several) ∧
          ∃ first, analysed.arena.select .firstMatch [⟨1⟩, ⟨5⟩] [.integer 4] none = .ok
          (.found first) := by
  have ambiguous : (Arena.empty.extend (Setup.withPolicy ⟨{}, {}⟩ .unique)
      Tree.sampleGeneric).toOption.any
      (fun analysed => (analysed.arena.select .unique [⟨1⟩, ⟨5⟩] [.integer 4] none).toOption =
        some (.ambiguous [⟨1⟩, ⟨5⟩])) = true := by decide +kernel
  cases ran : Arena.empty.extend (Setup.withPolicy ⟨{}, {}⟩ .unique) Tree.sampleGeneric with
  | error failure =>
    rw [ran] at ambiguous
    cases ambiguous
  | ok analysed =>
    rw [ran] at ambiguous
    have chosen : analysed.arena.select .unique [⟨1⟩, ⟨5⟩] [.integer 4] none = .ok
        (.ambiguous [⟨1⟩, ⟨5⟩]) := by
      have found := of_decide_eq_true ambiguous
      cases asked : analysed.arena.select .unique [⟨1⟩, ⟨5⟩] [.integer 4] none with
      | ok selection =>
        rw [asked] at found
        exact congrArg Except.ok (Option.some.inj found)
      | error breach =>
        rw [asked] at found
        cases found
    obtain ⟨first, _, _, _, taken⟩ := unique_only_rejects.2 _ _ _ _ _ chosen
    exact ⟨analysed, rfl, unique_only_rejects.1 _ _ _ _ ran, _, chosen, first, taken⟩

end FortranSemantics
