import FortranSemantics.Proofs.Arena.Edit

/-!
# Outcomes of runs

A run ends with a result, with a refusal of the program, or with a breach. `Runs` says that it fails
in no way that is not tolerated and that its result, if it has one, is as described. Most steps lead
from states to states that are related to them, and `Yields` says that too; questions leave the
state as it is, which `Quiet` says.
-/

namespace FortranSemantics

open List

/-- How a run may fail: by refusing the program, or with a breach. -/
structure Tolerance where
  refusal : Prop
  breach : Breach → Prop

/-- No failure is tolerated. -/
abbrev Tolerance.none : Tolerance :=
  ⟨False, fun _ => False⟩

variable {σ α β : Type} {tolerated : Tolerance} {next : σ} {v : α} {weaker post : α → σ → Prop}
  {items : List α} {start : β}

/-- Whether a run ends with a result as described, unless it fails in a way that is tolerated. -/
def Runs (tolerated : Tolerance) (edit : EStateM Failure σ α) (state : σ)
    (post : α → σ → Prop) : Prop :=
  match edit state with
  | .ok result next => post result next
  | .error (.rejected _) _ => tolerated.refusal
  | .error (.broken breach) _ => tolerated.breach breach

/-- Whether a run that does not fail leads to a related state, with a result as described. -/
abbrev Yields (tolerated : Tolerance) (leads : σ → σ → Prop) (edit : EStateM Failure σ α)
    (state : σ) (post : α → σ → Prop) : Prop :=
  Runs tolerated edit state fun result next => leads state next ∧ post result next

/-- Whether a run that does not fail leaves the state as it is, with a result as described. -/
abbrev Quiet (tolerated : Tolerance) (edit : EStateM Failure σ α) (state : σ)
    (post : α → Prop) : Prop :=
  Runs tolerated edit state fun result next => next = state ∧ post result

/-- What is needed of a relation for steps to be put together: steps compose, and the state that a
step leads to leads to itself. -/
class Progress (leads : σ → σ → Prop) : Prop where
  trans : ∀ {first second third}, leads first second → leads second third → leads first third
  arrive : ∀ {first second}, leads first second → leads second second

namespace Runs

variable {edit : EStateM Failure σ α} {state : σ} {post : α → σ → Prop}

theorem of_ok {res : α} (ran : edit state = .ok res next) (held : post res next) :
    Runs tolerated edit state post := by
  unfold Runs
  rw [ran]
  exact held

theorem result (runs : Runs tolerated edit state post) (ran : edit state = .ok v next) :
    post v next := by
  unfold Runs at runs
  rw [ran] at runs
  exact runs

theorem not_broken {refusal : Prop} {breach : Breach}
    (runs : Runs ⟨refusal, fun _ => False⟩ edit state post) :
    edit state ≠ .error (.broken breach) next := by
  intro ran
  unfold Runs at runs
  rw [ran] at runs
  exact runs

/-- A run that may not fail has a result. -/
theorem exists_result (runs : Runs .none edit state post) : ∃ res next, edit state = .ok res next ∧
    post res next := by
  unfold Runs at runs
  split at runs
  · next res next ran => exact ⟨res, next, ran, runs⟩
  · exact False.elim runs
  · exact False.elim runs

theorem tolerate (runs : Runs .none edit state post) : Runs tolerated edit state post := by
  obtain ⟨res, next, ran, held⟩ := runs.exists_result
  exact of_ok ran held

theorem mono (runs : Runs tolerated edit state post)
    (weaken : ∀ res next, post res next → weaker res next) : Runs tolerated edit state weaker := by
  unfold Runs at *
  split at runs
  · exact weaken _ _ runs
  · exact runs
  · exact runs

variable {breach : Breach → Prop}

theorem reject (fault : Fault) (span : Span) :
    Runs ⟨True, breach⟩ (FortranSemantics.reject fault span) state post :=
  trivial

theorem reject_bind {fault : Fault} {span : Span} {next : α → EStateM Failure σ β}
    {post : β → σ → Prop} :
    Runs ⟨True, breach⟩ (FortranSemantics.reject fault span >>= next) state post :=
  trivial

theorem guard {cond : Prop} [Decidable cond] {fault : Fault} {span : Span}
    {next : Unit → EStateM Failure σ β} {post : β → σ → Prop}
    (rest : ¬ cond → Runs ⟨True, breach⟩ (next ()) state post) : Runs ⟨True, breach⟩ (if cond then
      FortranSemantics.reject fault span >>= next else next ()) state post := by
  split
  · exact reject_bind
  · next fails => exact rest fails

theorem pure (held : post v state) : Runs tolerated (Pure.pure v) state post :=
  held

theorem bind {next : α → EStateM Failure σ β} {mid : α → σ → Prop} {post : β → σ → Prop}
    (first : Runs tolerated edit state mid)
    (rest : ∀ res after, mid res after → Runs tolerated (next res) after post) :
    Runs tolerated (edit >>= next) state post := by
  unfold Runs at first ⊢
  cases ran : edit state with
  | ok res after =>
    rw [ran] at first
    rw [run_bind_of_ok ran]
    exact rest res after first
  | error failure after =>
    rw [ran] at first
    rw [run_bind_of_error ran]
    cases failure with
    | rejected error | broken breach => exact first

theorem bind_ok {next : α → EStateM Failure σ β} {v : α} {after : σ} {post : β → σ → Prop}
    (ran : edit state = .ok v after) (rest : Runs tolerated (next v) after post) :
    Runs tolerated (edit >>= next) state post := by
  have first : Runs tolerated edit state fun res last => res = v ∧ last = after :=
    of_ok ran ⟨rfl, rfl⟩
  refine first.bind fun res last ⟨same, arrived⟩ => ?_
  rw [same, arrived]
  exact rest

theorem map {change : α → β} {post : β → σ → Prop}
    (runs : Runs tolerated edit state fun res => post (change res)) :
    Runs tolerated (change <$> edit) state post :=
  runs.bind fun _ _ held => pure held

end Runs

theorem forall_mem_pair {held : α → Prop} {first second : α} (one : held first) (o : held second) :
    ∀ item ∈ [first, second], held item :=
  forall_mem_cons.2 ⟨one, forall_mem_singleton.2 o⟩

theorem exists_of_mem_right {related : α → β → Prop} {first : List α} {second : List β}
    (same : List.Forall₂ related first second) {item : β} (mem : item ∈ second) :
    ∃ o ∈ first, related o item := by
  induction same with
  | nil => cases mem
  | cons here _ ih =>
    rcases mem_cons.1 mem with rfl | b
    · exact ⟨_, (.head _), here⟩
    · obtain ⟨o, member, held⟩ := ih b
      exact ⟨o, mem_cons_of_mem _ member, held⟩

namespace Quiet

variable {edit : EStateM Failure σ α} {state : σ} {post : α → Prop}

theorem pure (held : post v) : Quiet tolerated (Pure.pure v) state post :=
  Runs.pure ⟨rfl, held⟩

theorem bind {next : α → EStateM Failure σ β} {after : β → σ → Prop}
    (first : Quiet tolerated edit state post)
    (rest : ∀ res, post res → Runs tolerated (next res) state after) :
    Runs tolerated (edit >>= next) state after :=
  Runs.bind first fun res _ ⟨same, held⟩ => same ▸ rest res held

theorem mapM {step : α → EStateM Failure σ β} {post : α → β → Prop}
    (each : ∀ item ∈ items, Quiet tolerated (step item) state (post item)) :
    Quiet tolerated (items.mapM step) state (List.Forall₂ post items) := by
  induction items with
  | nil => exact pure .nil
  | cons item rest ih =>
    rw [mapM_cons]
    refine bind (each item (.head _)) fun first here => ?_
    refine bind (ih fun o mem => each o (.tail _ mem)) fun others there => ?_
    exact pure (.cons here there)

theorem foldlM {step : β → α → EStateM Failure σ β} {kept : β → Prop} (begins : kept start)
    (each : ∀ held, ∀ item ∈ items, kept held → Quiet tolerated (step held item) state kept) :
    Quiet tolerated (items.foldlM step start) state kept := by
  induction items generalizing start with
  | nil =>
    rw [foldlM_nil]
    exact pure begins
  | cons item rest ih =>
    rw [foldlM_cons]
    refine bind (each start item (.head _) begins) fun next held => ?_
    exact ih held fun o another mem => each o another (.tail _ mem)

end Quiet

namespace Yields

variable {leads : σ → σ → Prop} {edit : EStateM Failure σ α} {state : σ} {post : α → σ → Prop}

theorem of_quiet {post : α → Prop} (here : leads state state)
    (quiet : Quiet tolerated edit state post) :
    Yields tolerated leads edit state fun res _ => post res :=
  quiet.mono fun _ _ ⟨same, held⟩ => ⟨same ▸ here, held⟩

theorem mono (yields : Yields tolerated leads edit state post)
    (weaken : ∀ res next, leads state next → post res next → weaker res next) :
    Yields tolerated leads edit state weaker :=
  Runs.mono yields fun res next ⟨led, held⟩ => ⟨led, weaken res next led held⟩

theorem pure (here : leads state state) (held : post v state) :
    Yields tolerated leads (Pure.pure v) state post :=
  Runs.pure ⟨here, held⟩

theorem map {change : α → β} {post : β → σ → Prop}
    (yields : Yields tolerated leads edit state fun res => post (change res)) :
    Yields tolerated leads (change <$> edit) state post :=
  Runs.map yields

variable [Progress leads]

theorem bind {next : α → EStateM Failure σ β} {after : β → σ → Prop}
    (first : Yields tolerated leads edit state post) (rest : ∀ res mid, leads state mid →
      post res mid → Yields tolerated leads (next res) mid after) :
    Yields tolerated leads (edit >>= next) state after :=
  Runs.bind first fun res mid ⟨led, held⟩ =>
    Runs.mono (rest res mid led held) fun _ _ ⟨more, there⟩ =>
      ⟨Progress.trans led more, there⟩

theorem after {earlier : σ} (led : leads earlier state)
    (rest : Yields tolerated leads edit state post) :
    Runs tolerated edit state fun res next => leads earlier next ∧ post res next :=
  Runs.mono rest fun _ _ ⟨more, there⟩ => ⟨Progress.trans led more, there⟩

section

variable (here : leads state state)

include here

/-- Going through a list, step by step. What a step yields for its item must stay true of later
states. -/
theorem mapM {step : α → EStateM Failure σ β} {post : α → β → σ → Prop}
    (stable : ∀ item res first second, leads first second → post item res first →
      post item res second) (each : ∀ item ∈ items, ∀ mid, leads state mid →
      Yields tolerated leads (step item) mid (post item)) :
    Yields tolerated leads (items.mapM step) state fun results next =>
      List.Forall₂ (fun item res => post item res next) items results := by
  induction items generalizing state with
  | nil => exact pure here .nil
  | cons item others ih =>
    rw [mapM_cons]
    refine bind (each item (.head _) state here) fun first mid led held => ?_
    have b : ∀ o ∈ others, ∀ last, leads mid last →
        Yields tolerated leads (step o) last (post o) := fun o mem last more =>
      each o (.tail _ mem) last (Progress.trans led more)
    refine bind (ih (Progress.arrive led) b) fun rest last more there => ?_
    exact pure (Progress.arrive more) (.cons (stable _ _ _ _ more held) there)

theorem mapM_all {step : α → EStateM Failure σ β} {items : List α} {post : β → σ → Prop}
    (stable : ∀ res first second, leads first second → post res first → post res second)
    (each : ∀ item ∈ items, ∀ mid, leads state mid → Yields tolerated leads (step item) mid post) :
    Yields tolerated leads (items.mapM step) state fun results next => ∀ res ∈ results,
    post res next := by
  refine (mapM here (fun _ => stable) each).mono fun _ _ _ held _ mem => ?_
  obtain ⟨_, -, there⟩ := exists_of_mem_right held mem
  exact there

/-- Folding a list, step by step, with what every step keeps. -/
theorem foldlM {step : β → α → EStateM Failure σ β} {kept : β → σ → Prop}
    (begins : kept start state)
    (each : ∀ held, ∀ item ∈ items, ∀ mid, leads state mid → kept held mid →
      Yields tolerated leads (step held item) mid kept) :
    Yields tolerated leads (items.foldlM step start) state kept := by
  induction items generalizing state start with
  | nil =>
    rw [foldlM_nil]
    exact pure here begins
  | cons item others ih =>
    rw [foldlM_cons]
    refine bind (each start item (.head _) state here begins) fun next mid led held => ?_
    refine ih (Progress.arrive led) held fun o another mem last more holding => ?_
    exact each o another (.tail _ mem) last (Progress.trans led more) holding

/-- Going through a list for its effects. What a step yields for its item must stay true of later
states. -/
theorem forM_each {step : α → EStateM Failure σ PUnit}
    (stable : ∀ item first second, leads first second → post item first → post item second)
    (each : ∀ item ∈ items, ∀ mid, leads state mid →
      Yields tolerated leads (step item) mid fun _ next => post item next) :
    Yields tolerated leads (items.forM step) state fun _ next => ∀ item ∈ items,
    post item next := by
  induction items generalizing state with
  | nil => exact pure here nofun
  | cons item others ih =>
    refine bind (each item (.head _) state here) fun _ mid led held => ?_
    have b : ∀ o ∈ others, ∀ last, leads mid last →
        Yields tolerated leads (step o) last fun _ next => post o next := fun o member last more =>
      each o (.tail _ member) last (Progress.trans led more)
    refine (ih (Progress.arrive led) b).mono fun _ next more there o mem => ?_
    rcases mem_cons.1 mem with rfl | mem
    · exact stable _ _ _ more held
    · exact there o mem

theorem forM {step : α → EStateM Failure σ PUnit}
    (each : ∀ item ∈ items, ∀ mid, leads state mid → Yields tolerated leads (step item) mid
      fun _ _ => True) :
    Yields tolerated leads (items.forM step) state fun _ _ => True := by
  have done : Yields tolerated leads (items.forM step) state fun _ _ => ∀ item ∈ items, True :=
    forM_each here (fun _ _ _ _ => id) each
  exact done.mono fun _ _ _ _ => trivial

/-- A loop over a list, which is never left early. What a step yields for its item must stay true of
later states. -/
theorem forIn_each {body : α → PUnit → EStateM Failure σ (ForInStep PUnit)}
    (stable : ∀ item first second, leads first second → post item first → post item second)
    (each : ∀ item ∈ items, ∀ mid, leads state mid →
      Yields tolerated leads (body item PUnit.unit) mid fun step next =>
        step = .yield PUnit.unit ∧ post item next) :
    Yields tolerated leads (ForIn.forIn items PUnit.unit body) state fun _ next => ∀ item ∈ items,
    post item next := by
  induction items generalizing state with
  | nil =>
    rw [forIn_nil]
    exact pure here nofun
  | cons item others ih =>
    rw [forIn_cons]
    refine bind (each item (.head _) state here) fun step mid led ⟨goesOn, held⟩ => ?_
    subst goesOn
    have b : ∀ o ∈ others, ∀ last, leads mid last →
        Yields tolerated leads (body o PUnit.unit) last fun step next =>
          step = .yield PUnit.unit ∧ post o next := fun o member last more =>
      each o (.tail _ member) last (Progress.trans led more)
    refine (ih (Progress.arrive led) b).mono fun _ next more there o mem => ?_
    rcases mem_cons.1 mem with rfl | mem
    · exact stable _ _ _ more held
    · exact there o mem

theorem forIn {body : α → PUnit → EStateM Failure σ (ForInStep PUnit)}
    (each : ∀ item ∈ items, ∀ mid, leads state mid →
      Yields tolerated leads (body item PUnit.unit) mid fun step _ => step = .yield PUnit.unit) :
    Yields tolerated leads (ForIn.forIn items PUnit.unit body) state fun _ _ => True := by
  have done : Yields tolerated leads (ForIn.forIn items PUnit.unit body) state fun _ _ =>
      ∀ item ∈ items, True :=
    forIn_each here (fun _ _ _ _ => id) fun item mem mid led =>
      (each item mem mid led).mono fun _ _ _ goesOn => ⟨goesOn, trivial⟩
  exact done.mono fun _ _ _ _ => trivial

end

end Yields

namespace Edit

variable {a : Arena} {post : α → Prop} {question : Arena → Except Breach α} {ans : α}

theorem ask_quiet (answered : question a = .ok ans) (held : post ans) :
    Quiet tolerated (ask question) a post :=
  Runs.of_ok (ask_eq_ok.2 ⟨answered, rfl⟩) ⟨rfl, held⟩

theorem ask_bind {next : α → Edit β} {after : β → Arena → Prop} (answered : question a = .ok ans)
    (rest : Runs tolerated (next ans) a after) :
    Runs tolerated (ask question >>= next) a after := by
  have q : Quiet tolerated (ask question) a fun h => h = ans := ask_quiet answered rfl
  exact q.bind fun h same => same ▸ rest

end Edit

end FortranSemantics
