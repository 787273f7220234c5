import FortranSemantics.Arena.Edit
import FortranSemantics.Proofs.Arena.Query

/-!
# Runs of edits

An edit succeeds when all its steps do, one after another. The lemmas here take a run apart and say
what the elementary edits do to an arena.
-/

namespace FortranSemantics

variable {σ α β : Type} {res ans : α} {pre after : σ} {results : List β}

section

variable {step : EStateM Failure σ α} {pre mid : σ} {next : α → EStateM Failure σ β}

theorem run_bind_of_ok (ran : step pre = .ok res mid) : (step >>= next) pre = next res mid := by
  change EStateM.bind step next pre = _
  unfold EStateM.bind
  rw [ran]

theorem run_bind_of_error {failure : Failure} (ran : step pre = .error failure mid) :
    (step >>= next) pre = .error failure mid := by
  change EStateM.bind step next pre = _
  unfold EStateM.bind
  rw [ran]

theorem run_bind_congr {o : EStateM Failure σ α} {last : α → EStateM Failure σ β}
    (same : step pre = o pre)
    (rest : ∀ res mid, step pre = .ok res mid → next res mid = last res mid) :
    (step >>= next) pre = (o >>= last) pre := by
  cases ran : step pre with
  | ok res mid => rw [run_bind_of_ok ran, run_bind_of_ok (same.symm.trans ran), rest res mid ran]
  | error failure mid => rw [run_bind_of_error ran, run_bind_of_error (same.symm.trans ran)]

end

/-- Two steps succeed when both do, one after the other. -/
theorem run_bind_eq_ok {first : EStateM Failure σ α} {next : α → EStateM Failure σ β} {res : β} :
    (first >>= next) pre = .ok res after ↔
      ∃ v mid, first pre = .ok v mid ∧ next v mid = .ok res after := by
  change EStateM.bind first next pre = _ ↔ _
  unfold EStateM.bind
  cases first pre with
  | ok v mid => simp
  | error failure mid => simp

theorem run_pure_eq_ok : (pure v : EStateM Failure σ α) pre = .ok res after ↔ res = v ∧
    after = pre := by
  change EStateM.Result.ok v pre = _ ↔ _
  simp only [EStateM.Result.ok.injEq, eq_comm]

theorem run_question_eq_ok {question : Except Breach α} :
    (liftM question : EStateM Failure σ α) pre = .ok ans after ↔ question = .ok ans ∧
    after = pre := by
  cases question with
  | ok h =>
    change EStateM.Result.ok h pre = _ ↔ _
    simp only [EStateM.Result.ok.injEq, Except.ok.injEq, eq_comm]
  | error problem =>
    change EStateM.Result.error _ pre = _ ↔ _
    simp

theorem run_mapM_nil {step : α → EStateM Failure σ β} :
    [].mapM step pre = .ok results after ↔ results = [] ∧ after = pre := by
  change EStateM.Result.ok [] pre = _ ↔ _
  simp only [EStateM.Result.ok.injEq, eq_comm]

/-- Going through a list succeeds when every step does. -/
theorem run_mapM_cons {step : α → EStateM Failure σ β} {item : α} {rest : List α} :
    (item :: rest).mapM step pre = .ok results after ↔ ∃ first mid others,
    step item pre = .ok first mid ∧
        rest.mapM step mid = .ok others after ∧ results = first :: others := by
  rw [List.mapM_cons, run_bind_eq_ok]
  refine exists_congr fun first => exists_congr fun mid => ?_
  simp only [run_bind_eq_ok]
  constructor
  · rintro ⟨ran, others, _, ranRest, finished⟩
    cases finished
    exact ⟨others, ran, ranRest, rfl⟩
  · rintro ⟨others, ran, ranRest, rfl⟩
    exact ⟨ran, others, after, ranRest, rfl⟩

namespace Edit

variable {a after : Arena}

/-- A question leaves the arena as it is. -/
theorem ask_eq_ok {question : Arena → Except Breach α} :
    ask question a = .ok ans after ↔ question a = .ok ans ∧ after = a := by
  unfold ask
  rw [run_bind_eq_ok]
  constructor
  · rintro ⟨_, _, got, q⟩
    cases got
    exact run_question_eq_ok.1 q
  · intro q
    exact ⟨a, a, rfl, run_question_eq_ok.2 q⟩

/-- Only a symbol that is there is changed. -/
theorem modifySymbol_eq_ok {id : SymbolId} {change : Symbol → Symbol} {res : Unit} :
    modifySymbol id change a = .ok res after ↔ id.index < a.symbols.size ∧
      after = { a with symbols := a.symbols.modify id.index change } := by
  unfold modifySymbol
  rw [run_bind_eq_ok]
  constructor
  · rintro ⟨_, _, got, changed⟩
    cases got
    split at changed
    · next lt =>
      cases changed
      exact ⟨lt, rfl⟩
    · cases changed
  · rintro ⟨lt, rfl⟩
    refine ⟨a, a, rfl, ?_⟩
    rw [if_pos lt]
    rfl

theorem modifyScope_eq_ok {id : ScopeId} {change : Scope → Scope} {res : Unit} :
    modifyScope id change a = .ok res after ↔ id.index < a.scopes.size ∧
      after = { a with scopes := a.scopes.modify id.index change } := by
  unfold modifyScope
  rw [run_bind_eq_ok]
  constructor
  · rintro ⟨_, _, got, changed⟩
    cases got
    split at changed
    · next lt =>
      cases changed
      exact ⟨lt, rfl⟩
    · cases changed
  · rintro ⟨lt, rfl⟩
    refine ⟨a, a, rfl, ?_⟩
    rw [if_pos lt]
    rfl

end Edit

end FortranSemantics
