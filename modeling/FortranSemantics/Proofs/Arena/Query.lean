import FortranSemantics.Arena.Basic
import Mathlib.Data.List.Forall2

/-!
# Answers of an arena

When a question about an arena is answered, so were the questions it is made of. The lemmas here
take an answer apart.
-/

namespace FortranSemantics

open List

variable {ε α β : Type} {ans : β} {step : α → Except ε β} {items : List α} {answers : List β}
  {item : α} {sym : Symbol}

theorem bind_eq_ok {first : Except ε α} {next : α → Except ε β} :
    (first >>= next) = .ok ans ↔ ∃ h, first = .ok h ∧ next h = .ok ans := by
  cases first with
  | error problem | ok h => simp [bind, Except.bind]

/-- A question about every element of a list is answered element by element. -/
theorem mapM_eq_ok : items.mapM step = .ok answers ↔
      List.Forall₂ (fun item ans => step item = .ok ans) items answers := by
  induction items generalizing answers with
  | nil =>
    rw [mapM_nil, forall₂_nil_left_iff]
    exact ⟨fun same => (Except.ok.inj same).symm, fun same => same ▸ rfl⟩
  | cons item rest ih =>
    rw [mapM_cons]
    constructor
    · intro answered
      obtain ⟨head, here, b⟩ := bind_eq_ok.1 answered
      obtain ⟨tail, there, made⟩ := bind_eq_ok.1 b
      cases made
      exact .cons here (ih.1 there)
    · intro answered
      cases answered with
      | cons here there =>
        rw [here, ih.2 there]
        rfl

section

variable (answered : items.mapM step = .ok answers)

include answered

/-- Every answer is one to some item. -/
theorem mem_answers : ans ∈ answers ↔ ∃ item ∈ items, step item = .ok ans := by
  induction mapM_eq_ok.1 answered with
  | nil => simp
  | @cons item head rest tail here there ih =>
    have b := ih (mapM_eq_ok.2 there)
    simp [b, here, eq_comm]

theorem exists_answer (member : item ∈ items) : ∃ ans ∈ answers, step item = .ok ans := by
  induction mapM_eq_ok.1 answered with
  | nil => simp at member
  | @cons head first rest tail here there ih =>
    rcases mem_cons.1 member with rfl | b
    · exact ⟨first, (.head _), here⟩
    · obtain ⟨ans, mem, h⟩ := ih (mapM_eq_ok.2 there) b
      exact ⟨ans, mem_cons_of_mem _ mem, h⟩

theorem getElem?_answers [DecidableEq α] (mem : item ∈ items) (here : step item = .ok ans) :
    answers[items.idxOf item]? = some ans := by
  have all := mapM_eq_ok.1 answered
  have inItems := idxOf_lt_length_of_mem mem
  have inAnswers : items.idxOf item < answers.length := all.length_eq ▸ inItems
  have there := all.get inItems inAnswers
  rw [get_eq_getElem, getElem_idxOf inItems, here] at there
  rw [getElem?_eq_getElem inAnswers]
  exact congrArg some (Except.ok.inj there).symm

end

/-- A question that every item answers is answered for all. -/
theorem exists_answers (each : ∀ item ∈ items, ∃ ans, step item = .ok ans) :
    ∃ answers, items.mapM step = .ok answers := by
  induction items with
  | nil => exact ⟨[], rfl⟩
  | cons item rest ih =>
    obtain ⟨head, here⟩ := each item (.head _)
    obtain ⟨tail, there⟩ := ih fun o mem => each o (.tail _ mem)
    exact ⟨head :: tail, by rw [mapM_cons, here, there]; rfl⟩

namespace Arena

variable {a : Arena} {id : SymbolId} {s : Scope}

theorem symbol_eq_ok : a.symbol id = .ok sym ↔ a.symbols[id.index]? = some sym := by
  unfold Arena.symbol
  cases a.symbols[id.index]? <;> simp

theorem scope_eq_ok {id : ScopeId} : a.scope id = .ok s ↔ a.scopes[id.index]? = some s := by
  unfold Arena.scope
  cases a.scopes[id.index]? <;> simp

theorem expr_eq_ok {id : ExprId} {expr : Expr} : a.expr id = .ok expr ↔
    a.exprs[id.index]? = some expr := by
  unfold Arena.expr
  cases a.exprs[id.index]? <;> simp

theorem kind_eq_ok {k : SymbolKind} : a.kind id = .ok k ↔ ∃ sym, a.symbol id = .ok sym ∧
    sym.kind = k := by
  unfold Arena.kind
  rw [bind_eq_ok]
  exact exists_congr fun sym => and_congr_right fun _ => ⟨Except.ok.inj, congrArg _⟩

theorem name_eq_ok {n : String} : a.name id = .ok n ↔ ∃ sym, a.symbol id = .ok sym ∧
    sym.name = n := by
  unfold Arena.name
  rw [bind_eq_ok]
  exact exists_congr fun sym => and_congr_right fun _ => ⟨Except.ok.inj, congrArg _⟩

theorem symbolScope?_eq_ok {s : Option ScopeId} : a.symbolScope? id = .ok s ↔
      ∃ sym, a.symbol id = .ok sym ∧ sym.kind.scope? = s := by
  unfold Arena.symbolScope?
  rw [bind_eq_ok]
  constructor
  · rintro ⟨k, h, same⟩
    obtain ⟨sym, held, rfl⟩ := kind_eq_ok.1 h
    exact ⟨sym, held, Except.ok.inj same⟩
  · rintro ⟨sym, held, rfl⟩
    exact ⟨sym.kind, kind_eq_ok.2 ⟨sym, held, rfl⟩, rfl⟩

theorem exists_symbol (lt : id.index < a.symbols.size) : ∃ sym, a.symbol id = .ok sym :=
  ⟨a.symbols[id.index], symbol_eq_ok.2 (Array.getElem?_eq_getElem lt)⟩

theorem exists_scope {id : ScopeId} (lt : id.index < a.scopes.size) : ∃ s, a.scope id = .ok s :=
  ⟨a.scopes[id.index], scope_eq_ok.2 (Array.getElem?_eq_getElem lt)⟩

theorem exists_expr {id : ExprId} (lt : id.index < a.exprs.size) : ∃ expr, a.expr id = .ok expr :=
  ⟨a.exprs[id.index], expr_eq_ok.2 (Array.getElem?_eq_getElem lt)⟩

theorem symbol_inRange (h : a.symbol id = .ok sym) : id.index < a.symbols.size :=
  (Array.getElem?_eq_some_iff.1 (symbol_eq_ok.1 h)).1

theorem scope_inRange {id : ScopeId} (h : a.scope id = .ok s) : id.index < a.scopes.size :=
  (Array.getElem?_eq_some_iff.1 (scope_eq_ok.1 h)).1

theorem expr_inRange {id : ExprId} {expr : Expr} (h : a.expr id = .ok expr) :
    id.index < a.exprs.size :=
  (Array.getElem?_eq_some_iff.1 (expr_eq_ok.1 h)).1

end Arena

end FortranSemantics
