import FortranSemantics.Proofs.Arena.Edit
import FortranSemantics.Settings

/-!
# Runs that follow each other

Two analyses of what is the same program go through the same states, step by step. `Tracks` says
that of two runs: where the first one gives a value, the second one gives the same value and a state
that corresponds; where the first one fails, the second one does what the variation admits.
-/

namespace FortranSemantics

open List

variable {o fault : Fault} {cond : Prop}

/-- How a second analysis may vary from a first one: what it does where the first fails, and the
policy of each. -/
structure Variation where
  /-- Whether the second run may fail in this way, or go on, where the first one fails. -/
  admits : Failure → Option Failure → Prop
  onwards : ∀ {failure}, admits failure none → ∀ outcome, admits failure outcome
  same : ∀ failure, admits failure (some failure)
  alike : ∀ {fault other : Fault}, fault.kind = other.kind → ∀ span,
    admits (.rejected ⟨fault, span⟩) (some (.rejected ⟨other, span⟩))
  policy : OverloadPolicy
  otherPolicy : OverloadPolicy
  choice : policy = otherPolicy ∨
    (policy = .unique ∧ otherPolicy = .firstMatch ∧ ∀ failure outcome, admits failure outcome)

variable {σ α β γ δ : Type} {vary : Variation} {view : σ → σ}

/-- Whether a result follows another one: values are related and states correspond, or the failure
is admitted. -/
def Variation.Meets (vary : Variation) (view : σ → σ) (related : α → β → Prop) :
    EStateM.Result Failure σ α → EStateM.Result Failure σ β → Prop
  | .ok value next, .ok o last => related value o ∧ last = view next
  | .ok _ _, .error _ _ => False
  | .error failure _, .ok _ _ => vary.admits failure none
  | .error failure _, .error o _ => vary.admits failure (some o)

/-- Whether a second run follows a first one from corresponding states, with related values. It is a
class, so that a procedure without choices follows another by what both are made of. -/
class Follows (vary : Variation) (view : σ → σ) (related : α → β → Prop)
    (first : EStateM Failure σ α) (second : EStateM Failure σ β) : Prop where
  meets : ∀ state, vary.Meets view related (first state) (second (view state))

/-- Whether a second run follows a first one from corresponding states, with the same values. -/
abbrev Tracks (vary : Variation) (view : σ → σ) (first second : EStateM Failure σ α) : Prop :=
  Follows vary view Eq first second

namespace Follows

variable {related : α → β → Prop} {first : EStateM Failure σ α} {second : EStateM Failure σ β}

theorem pure {v : α} {o : β} (held : related v o) :
    Follows vary view related (Pure.pure v) (Pure.pure o) :=
  ⟨fun _ => ⟨held, rfl⟩⟩

theorem bind (head : Follows vary view related first second)
    (rest : ∀ v o, related v o → Follows vary view b (cont v) (more o)) :
    Follows vary view b (first >>= cont) (second >>= more) := by
  refine ⟨fun state => ?_⟩
  have met := head.meets state
  change vary.Meets view b (EStateM.bind first cont state) (EStateM.bind second more (view state))
  unfold EStateM.bind
  cases ran : first state with
  | ok v mid =>
    rw [ran] at met
    cases ranToo : second (view state) with
    | ok o last =>
      rw [ranToo] at met
      obtain ⟨held, rfl⟩ := met
      exact (rest v o held).meets mid
    | error failure last =>
      rw [ranToo] at met
      exact met.elim
  | error failure mid =>
    rw [ran] at met
    cases ranToo : second (view state) with
    | ok o last =>
      -- the first run has failed, so that the rest of the second one is admitted whatever it does
      rw [ranToo] at met
      have admitted := vary.onwards met
      dsimp only
      cases more o last with
      | ok => exact met
      | error => exact admitted _
    | error o last =>
      rw [ranToo] at met
      exact met

/-- Refusals agree when their faults are of one class. -/
theorem reject (class_eq : fault.kind = o.kind) (span : Span) :
    Follows vary view related (FortranSemantics.reject fault span)
    (FortranSemantics.reject o span) :=
  ⟨fun _ => vary.alike class_eq span⟩

instance (fault : Fault) (span : Span) :
    Follows vary view related (FortranSemantics.reject fault span)
    (FortranSemantics.reject fault span) :=
  reject rfl span

theorem ite [Decidable cond] {o : EStateM Failure σ α} {another : EStateM Failure σ β}
    (holds : Follows vary view related first second) (fails : Follows vary view related o another) :
    Follows vary view related (if cond then first else o) (if cond then second else another) := by
  split <;> assumption

instance {cond : Prop} [Decidable cond] {o : EStateM Failure σ α} {another : EStateM Failure σ β}
    [holds : Follows vary view related first second] [fails : Follows vary view related o another] :
    Follows vary view related (if cond then first else o) (if cond then second else another) :=
  ite holds fails

/-- A check that both analyses make in the same way. -/
theorem guard [Decidable cond] {span : Span} {next : Unit → EStateM Failure σ α}
    {more : Unit → EStateM Failure σ β}
    (class_eq : fault.kind = o.kind) (rest : Follows vary view related (next ()) (more ())) :
    Follows vary view related
    (if cond then FortranSemantics.reject fault span >>= next else next ())
      (if cond then FortranSemantics.reject o span >>= more else more ()) :=
  ite ⟨fun _ => vary.alike class_eq span⟩ rest

end Follows

namespace Tracks

variable {first second : EStateM Failure σ α}

instance pure (v : α) : Tracks vary view (Pure.pure v) (Pure.pure v) :=
  Follows.pure rfl

theorem bind (head : Tracks vary view first second)
    (rest : ∀ v, Tracks vary view (cont v) (more v)) :
    Tracks vary view (first >>= cont) (second >>= more) :=
  Follows.bind head fun v _ same => same ▸ rest v

theorem andThen [head : Tracks vary view first second]
    (rest : ∀ v, Tracks vary view (cont v) (more v)) :
    Tracks vary view (first >>= cont) (second >>= more) :=
  bind head rest

instance {next more : α → EStateM Failure σ γ} [Tracks vary view first second]
    [rest : ∀ v, Tracks vary view (next v) (more v)] :
    Tracks vary view (first >>= next) (second >>= more) :=
  andThen rest

instance map {change : α → γ} [Tracks vary view first second] :
    Tracks vary view (change <$> first) (change <$> second) :=
  andThen fun v => pure (change v)

instance [Tracks vary view first second] : Tracks vary view (discard first) (discard second) :=
  map

instance (breach : Breach) : Tracks vary view (FortranSemantics.broken breach : EStateM Failure σ α)
    (FortranSemantics.broken breach) :=
  ⟨fun _ => vary.same _⟩

instance mapM {step : α → EStateM Failure σ β} {o : γ → EStateM Failure σ β} {change : α → γ}
    (items : List α) [∀ item, Tracks vary view (step item) (o (change item))] :
    Tracks vary view (items.mapM step) ((items.map change).mapM o) := by
  induction items with
  | nil => exact pure []
  | cons item rest ih =>
    rw [map_cons, mapM_cons, mapM_cons]
    infer_instance

instance {step o : α → EStateM Failure σ β} (items : List α)
    [∀ item, Tracks vary view (step item) (o item)] :
    Tracks vary view (items.mapM step) (items.mapM o) := by
  have mapped : Tracks vary view (items.mapM step) ((items.map fun item => item).mapM o) :=
    mapM items
  rwa [map_id'] at mapped

instance forM {step : α → EStateM Failure σ PUnit} {o : γ → EStateM Failure σ PUnit}
    {change : α → γ} (items : List α) [∀ item, Tracks vary view (step item) (o (change item))] :
    Tracks vary view (items.forM step) ((items.map change).forM o) := by
  induction items with
  | nil => exact pure PUnit.unit
  | cons item rest ih => exact andThen fun _ => ih

instance forM_same {step o : α → EStateM Failure σ PUnit} (items : List α)
    [∀ item, Tracks vary view (step item) (o item)] :
    Tracks vary view (items.forM step) (items.forM o) := by
  have mapped : Tracks vary view (items.forM step) ((items.map fun item => item).forM o) :=
    forM items
  rwa [map_id'] at mapped

instance {step : β → α → EStateM Failure σ β} {o : β → γ → EStateM Failure σ β} {change : α → γ}
    (items : List α) (start : β)
    [∀ held item, Tracks vary view (step held item) (o held (change item))] :
    Tracks vary view (items.foldlM step start) ((items.map change).foldlM o start) := by
  induction items generalizing start with
  | nil => exact pure start
  | cons item rest ih =>
    rw [map_cons, foldlM_cons, foldlM_cons]
    exact andThen ih

instance {step : α → EStateM Failure σ β} {o : γ → EStateM Failure σ β} {change : α → γ}
    (item : Option α) [∀ item, Tracks vary view (step item) (o (change item))] :
    Tracks vary view (item.mapM step) ((item.map change).mapM o) := by
  cases item with
  | none => exact pure none
  | some item => exact map

instance refl (edit : EStateM Failure σ α) : Tracks vary id edit edit := by
  refine ⟨fun state => ?_⟩
  change vary.Meets id Eq (edit state) (edit state)
  cases edit state with
  | ok v next => exact ⟨rfl, rfl⟩
  | error failure next => exact vary.same failure

end Tracks

end FortranSemantics
