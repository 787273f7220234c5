import FortranSemantics.Expression.Resolution
import FortranSemantics.Proofs.Agreement.Basic
import FortranSemantics.Proofs.Agreement.Spelling

/-!
# Expressions of two analyses

An expression and the same one in lower case are resolved to the same nodes, step by step. The
policies for generics may differ only where the stricter one refuses: where several candidates
match, the other policy takes the first.
-/

namespace FortranSemantics

open Edit Text

variable {vary : Variation} {env other : Environment} {a : Arena} {s : ScopeId} {span : Span}
  {α : Type} {cands : List SymbolId}

/-! ## Choice among candidates -/

/-- The choice of the first of the candidates that match. -/
def Selection.firstOf : List SymbolId → Selection
  | [] => .noMatch
  | candidate :: _ => .found candidate

namespace Arena

variable {args : List Ty} {receiver : Option Ty}

/-- The first candidate that matches is the first of all that do. -/
theorem firstMatch_of_filterAuxM (all : List.filterAuxM (fun cand =>
      a.candidateMatches cand args receiver) cands earlier = .ok matching) :
    ∃ h, matching.reverse = earlier.reverse ++ h ∧
      a.firstMatch args receiver cands = .ok (.firstOf h) := by
  induction cands generalizing earlier with
  | nil =>
    cases all
    exact ⟨[], (List.append_nil _).symm, rfl⟩
  | cons cand rest ih =>
    obtain ⟨matched, asked, b⟩ := bind_eq_ok.1 all
    obtain ⟨h, shape, first⟩ := ih b
    cases matched with
    | true =>
      refine ⟨cand :: h, ?_, bind_eq_ok.2 ⟨true, asked, rfl⟩⟩
      rw [shape, cond_true, List.reverse_cons, List.append_assoc]
      rfl
    | false => exact ⟨h, shape, bind_eq_ok.2 ⟨false, asked, first⟩⟩

/-- The candidates that match, as the choice of the only one sees them. -/
theorem firstMatch_of_uniqueMatch (unique : a.uniqueMatch args receiver cands = .ok selection) :
    (∀ several, selection = .ambiguous several → 2 ≤ several.length ∧
      a.firstMatch args receiver cands = .ok (.firstOf several)) ∧
      ((∀ several, selection ≠ .ambiguous several) →
      a.firstMatch args receiver cands = .ok selection) := by
  obtain ⟨matching, filtered, chosen⟩ := bind_eq_ok.1 unique
  obtain ⟨raw, walked, ordered⟩ := bind_eq_ok.1 filtered
  obtain ⟨h, shape, first⟩ := firstMatch_of_filterAuxM walked
  cases ordered
  rw [List.reverse_nil, List.nil_append] at shape
  rw [shape] at chosen
  match h, first, chosen with
  | [], first, chosen | [cand], first, chosen =>
    cases chosen
    exact ⟨fun _ differs => (by cases differs), fun _ => first⟩
  | cand :: another :: rest, first, chosen =>
    cases chosen
    refine ⟨fun several same => ?_, fun differs => absurd rfl (differs _)⟩
    cases same
    exact ⟨by simp, first⟩

end Arena

/-- The environments of two analyses: each has its policy, and the second the typings of the first
in lower case. -/
class Variation.Environments (vary : Variation) (env other : Environment) : Prop where
  policy : env.policy = vary.policy
  otherPolicy : other.policy = vary.otherPolicy
  typings : other.typings = Environment.lowercaseTypings env.typings

theorem Edit.run_ask_bind {β : Type} (question : Arena → Except Breach α) (next : α → Edit β)
    (a : Arena) : (ask question >>= next) a = match question a with
      | .ok ans => next ans a
      | .error breach => .error (.broken breach) a := by
  change EStateM.bind (ask question) next a = _
  have asked : ask question a = (liftM (question a) : Edit α) a := rfl
  unfold EStateM.bind
  rw [asked]
  cases question a <;> rfl

namespace Expression

theorem ambiguous_fails (generic : SymbolId) (several : List SymbolId) (span : Span) (a : Arena) :
    ∃ failure last, (ambiguous generic several span : Edit α) a = .error failure last := by
  cases ran : (ambiguous generic several span : Edit α) a with
  | error failure last => exact ⟨failure, last, rfl⟩
  | ok v last =>
    obtain ⟨_, _, _, rest⟩ := run_bind_eq_ok.1 ran
    obtain ⟨_, _, _, refused⟩ := run_bind_eq_ok.1 rest
    cases refused

section

variable [between : vary.Environments env other] {sym generic : SymbolId} {cands : List SymbolId}
  {args : List ActualArgument} {receiver : Option Ty} {name mem : String}
  {base left right operand : ExprId} {ops : List ExprId} {types : List Ty}

/-- A choice among candidates, with what is done with it. What several candidates match is refused
under the first policy. -/
theorem select_tracks {next more : Selection → Edit α}
    (rest : ∀ selection, Tracks vary id (next selection) (more selection))
    (refuses : ∀ several a, ∃ failure last, next (.ambiguous several) a = .error failure last) :
    Tracks vary id (ask (·.select env.policy cands types receiver) >>= next)
      (ask (·.select other.policy cands types receiver) >>= more) := by
  rw [between.policy, between.otherPolicy]
  rcases vary.choice with same | ⟨unique, first, anything⟩
  · rw [same]
    infer_instance
  · rw [unique, first]
    refine ⟨fun a => ?_⟩
    -- once the first run has failed the second one may do anything
    have failed (failure : Failure) (last : Arena) (res : EStateM.Result Failure Arena α) :
        vary.Meets id Eq (.error failure last) res := by
      cases res <;> exact anything _ _
    rw [run_ask_bind]
    cases chosen : a.uniqueMatch types receiver cands with
    | error breach =>
      have refused : a.select .unique cands types receiver = .error breach := chosen
      rw [refused]
      exact failed _ _ _
    | ok selection =>
      have taken : a.select .unique cands types receiver = .ok selection := chosen
      rw [taken]
      obtain ⟨-, only⟩ := Arena.firstMatch_of_uniqueMatch chosen
      by_cases several : ∃ several, selection = .ambiguous several
      · obtain ⟨several, rfl⟩ := several
        obtain ⟨failure, last, refused⟩ := refuses several a
        dsimp only
        rw [refused]
        exact failed _ _ _
      · have takenToo : a.select .firstMatch cands types receiver = .ok selection :=
          only fun _ same => several ⟨_, same⟩
        change vary.Meets id Eq (next selection a)
          ((ask (·.select .firstMatch cands types receiver) >>= more) a)
        rw [run_ask_bind, takenToo]
        exact (rest selection).meets a

instance nameValue_tracks :
    Tracks vary id (nameValue env name span s) (nameValue other (lowercase name) span s) := by
  unfold nameValue implicitVariable
  rw [lowercase_lowercase, Environment.implicitType?_lowercase between.typings]
  infer_instance

/-! ## Calls -/

instance : Tracks vary id (chooseCandidate env generic cands args receiver span)
    (chooseCandidate other generic cands args receiver span) := by
  unfold chooseCandidate
  refine .andThen fun types => select_tracks inferInstance ?_
  exact fun several a => ambiguous_fails generic several span a

instance : Tracks vary id (bindProcedureCall env sym args span s)
    (bindProcedureCall other sym args span s) := by
  unfold bindProcedureCall
  exact .andThen fun target => .andThen fun k => by cases k <;> infer_instance

instance bindTypeBoundCall_tracks : Tracks vary id (bindTypeBoundCall env base name args span)
    (bindTypeBoundCall other base (lowercase name) args span) := by
  unfold bindTypeBoundCall
  rw [lowercase_lowercase]
  refine .andThen fun ty => ?_
  cases ty.derivedSymbol? with
  | none => infer_instance
  | some derived => exact .andThen fun mem => .andThen fun k => by cases k <;> infer_instance

instance :
    Tracks vary id (applySymbol env sym args span s) (applySymbol other sym args span s) := by
  unfold applySymbol
  refine .andThen fun target => .andThen fun op => .ite (Tracks.refl _) (Tracks.andThen fun k => ?_)
  cases k <;> infer_instance

instance :
    Tracks vary id (callIntrinsic env name args span s) (callIntrinsic other name args span s) := by
  unfold callIntrinsic
  refine .andThen fun visible => ?_
  cases visible with
  | some sym => infer_instance
  | none => exact .andThen fun imported => by cases imported <;> infer_instance

instance : Tracks vary id (callName env name args span s) (callName other name args span s) := by
  unfold callName
  exact .andThen fun h => by cases h <;> infer_instance

/-! ## Members -/

instance : Tracks vary id (memberValue env span s base mem)
    (memberValue other span s base (lowercase mem)) := by
  unfold memberValue
  rw [lowercase_lowercase]
  infer_instance

instance memberChain_tracks {base : String} {members : List String} :
    Tracks vary id (memberChain env base members span s)
      (memberChain other (lowercase base) (members.map lowercase) span s) := by
  unfold memberChain
  infer_instance

instance designator_tracks {parts : List String} : Tracks vary id (designator env parts span s)
    (designator other (parts.map lowercase) span s) := by
  cases parts with
  | nil => exact .refl _
  | cons base members => exact memberChain_tracks

/-! ## Operators -/

instance {generics : List (SymbolId × List SymbolId)} :
    Tracks vary id (callOperator env ops types span s generics)
      (callOperator other ops types span s generics) := by
  induction generics with
  | nil => exact .refl _
  | cons first rest ih =>
    obtain ⟨generic, cands⟩ := first
    unfold callOperator
    refine select_tracks (fun selection => ?_) fun several a => ambiguous_fails generic
      several span a
    cases selection <;> infer_instance

instance {generic : String} : Tracks vary id (userOperator env generic ops span s)
    (userOperator other generic ops span s) := by
  unfold userOperator
  infer_instance

instance {op : ArithmeticOperator} : Tracks vary id (arithmetic env op left right span s)
    (arithmetic other op left right span s) := by
  unfold arithmetic
  refine .andThen fun leftType => .andThen fun rightType => ?_
  cases Conversion.common? .arithmetic leftType rightType <;> infer_instance

instance {op : Comparison} : Tracks vary id (comparison env op left right span s)
    (comparison other op left right span s) := by
  unfold comparison
  refine .andThen fun leftType => .andThen fun rightType => ?_
  cases Conversion.common? .comparison leftType rightType <;> infer_instance

instance {op : LogicalOperator} :
    Tracks vary id (logical env op left right span s) (logical other op left right span s) := by
  unfold logical
  refine .andThen fun leftType => .andThen fun rightType => ?_
  cases Conversion.common? .logical leftType rightType <;> infer_instance

instance : Tracks vary id (concatenation env left right span s)
    (concatenation other left right span s) := by
  unfold concatenation
  infer_instance

instance {op : Tree.BinaryOperator} :
    Tracks vary id (binary env op left right span s) (binary other op left right span s) := by
  cases op <;> (unfold binary; infer_instance)

instance {op : UnaryOperator} :
    Tracks vary id (unary env op operand span s) (unary other op operand span s) := by
  unfold unary
  exact .andThen fun ty => by cases op <;> infer_instance

instance {op : String} : Tracks vary id (definedOperator env op ops span s)
    (definedOperator other (lowercase op) ops span s) := by
  unfold definedOperator
  dsimp only
  rw [operatorGenericName_dotted]
  refine .andThen fun call => ?_
  cases call with
  | some call => infer_instance
  | none => exact .andThen fun _ => .reject (by simp only [Fault.kind]) span

/-! ## Literals -/

theorem splitKind_follows (text : String) :
    Follows vary id (fun v lower => lower = (lowercase v.1, v.2)) (splitKind text s span)
      (splitKind (lowercase text) s span) := by
  unfold splitKind
  rw [splitLast?_lowercase]
  cases splitLast? '_' text with
  | none => exact .pure rfl
  | some parts =>
    obtain ⟨body, suffix⟩ := parts
    dsimp only [Option.map_some]
    rw [Number.readInteger?_lowercase, lowercase_lowercase]
    cases Number.readInteger? suffix with
    | some k => exact Follows.pure rfl
    | none => exact Follows.bind (Tracks.refl _) fun k _ same => same ▸ Follows.pure rfl

theorem integerLiteral_tracks (text : String) :
    Tracks vary id (integerLiteral text s span) (integerLiteral (lowercase text) s span) := by
  unfold integerLiteral
  refine Follows.bind (splitKind_follows text) fun v lower split => ?_
  obtain ⟨digits, k⟩ := v
  subst split
  refine Tracks.andThen fun k => ?_
  rw [Number.readInteger?_lowercase]
  cases Number.readInteger? digits with
  | none => exact Follows.reject (by simp only [Fault.kind]) span
  | some v => infer_instance

theorem realLiteral_tracks (text : String) :
    Tracks vary id (realLiteral text s span) (realLiteral (lowercase text) s span) := by
  unfold realLiteral
  refine Follows.bind (splitKind_follows text) fun v lower split => ?_
  obtain ⟨mantissa, k⟩ := v
  subst split
  dsimp only
  rw [lowercase_lowercase]
  refine Tracks.andThen fun k => ?_
  split
  · exact Follows.reject (by simp only [Fault.kind]) span
  · infer_instance

/-! ## Resolution -/

end

mutual

theorem resolve_tracks [vary.Environments env other] : ∀ (tree : Tree.Expr),
    Tracks vary id (resolve env s tree) (resolve other s tree.lowercase)
  | ⟨k, span⟩ => resolveKind_tracks span k

/-- The form of an expression is resolved alike in lower case. -/
theorem resolveKind_tracks [vary.Environments env other] (span : Span) : ∀ (k : Tree.ExprKind),
    Tracks vary id (resolveKind env s span k) (resolveKind other s span k.lowercase)
  | .int text => integerLiteral_tracks text
  | .real text => realLiteral_tracks text
  | .complex re im => .bind (resolve_tracks re) fun _ => .bind (resolve_tracks im) fun _ => .refl _
  | .text v | .logical v => .refl _
  | .name name => nameValue_tracks
  | .member base members => memberChain_tracks
  | .call [] name args => by
    refine .bind (resolveArgs_tracks args) fun args => ?_
    rw [lowercase_lowercase]
    infer_instance
  | .call (first :: rest) name args =>
    Tracks.bind designator_tracks fun _ => .bind (resolveArgs_tracks args) fun _ => inferInstance
  | .binary op left right => .bind (resolve_tracks left) fun _ =>
    .bind (resolve_tracks right) fun _ => inferInstance
  | .unary op operand => .bind (resolve_tracks operand) fun _ => by cases op <;> infer_instance
  | .definedBinary op left right =>
    Tracks.bind (resolve_tracks left) fun _ => .bind (resolve_tracks right) fun _ => inferInstance
  | .definedUnary op operand => .bind (resolve_tracks operand) fun _ => inferInstance
  | .paren inner => resolve_tracks inner
  | .array items => .bind (resolveItems_tracks items) fun _ => .refl _

theorem resolveItems_tracks [vary.Environments env other] : ∀ (items : List Tree.Expr),
    Tracks vary id (resolveItems env s items) (resolveItems other s (Tree.Expr.lowercaseAll items))
  | [] => .refl _
  | item :: rest => by
    refine .bind (resolve_tracks item) fun id => .andThen fun ty => ?_
    rw [Tree.Expr.lowercase_span]
    exact Follows.guard rfl (Tracks.bind (resolveItems_tracks rest) fun _ => .refl _)

theorem resolveArgs_tracks [vary.Environments env other] : ∀ (args : List Tree.Arg),
    Tracks vary id (resolveArgs env s args) (resolveArgs other s (Tree.Arg.lowercaseAll args))
  | [] => .refl _
  | arg :: rest => .bind (resolveArg_tracks arg) fun _ =>
    .bind (resolveArgs_tracks rest) fun _ => .refl _

theorem resolveArg_tracks [vary.Environments env other] : ∀ (arg : Tree.Arg),
    Tracks vary id (resolveArg env s arg) (resolveArg other s arg.lowercase)
  | ⟨keyword, v⟩ => by
    have keywordOnce : (keyword.map lowercase).map lowercase = keyword.map
        lowercase := by
      cases keyword <;> simp
    refine .bind (resolve_tracks v) fun id => ?_
    rw [keywordOnce, Tree.Expr.lowercase_span]
    infer_instance

end

attribute [instance] resolve_tracks resolveArgs_tracks

/-! ## Declared types -/

variable [vary.Environments env other] {name : String}

instance {tree : Tree.Expr} {what : String} : Tracks vary id
    (constantInteger env tree what s) (constantInteger other tree.lowercase what s) := by
  unfold constantInteger
  rw [Tree.Expr.lowercase_span]
  infer_instance

instance selectedKind_tracks {selector : Option Tree.Expr} {category : TypeCategory}
    {absent : Int} : Tracks vary id (selectedKind env selector category absent span s)
      (selectedKind other (selector.map (·.lowercase)) category absent span s) := by
  cases selector with
  | none => exact .refl _
  | some tree => exact Tracks.andThen fun _ => .refl _

instance {length : Option Tree.CharLength} : Tracks vary id (declaredLength env length span s)
    (declaredLength other (length.map (·.lowercase)) span s) := by
  rcases length with _ | length | _ | _
  · exact .refl _
  · exact Tracks.andThen fun _ => .refl _
  · exact .refl _
  · exact .refl _

theorem derivedType_lowercase : derivedType (lowercase name) span s = derivedType name span s := by
  unfold derivedType
  rw [lowercase_lowercase]

instance declaredType_tracks {spec : Tree.TypeSpec} :
    Tracks vary id (declaredType env spec span s) (declaredType other spec.lowercase span s) := by
  cases spec <;> unfold declaredType Tree.TypeSpec.lowercase <;>
    simp only [derivedType_lowercase, lowercase_eq_star] <;> infer_instance

end Expression

end FortranSemantics
