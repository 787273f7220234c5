import FortranSemantics.Proofs.Lawful.Query

/-!
# Edits of lawful arenas

What the elementary edits give in a lawful arena: expressions, copies, entries and revisions. Every
edit leads to a lawful arena in which all that was there is found again.
-/

namespace FortranSemantics

open Arena

variable {α β : Type} {t : Terms} {a b : Arena} {start : Nat} {id : SymbolId} {symbol : Symbol}
  {ty : Ty} {span : Span} {s owner : ScopeId} {n : String} {kind : SymbolKind} {v : Option ExprId}
  {next : String → Edit β} {post : β → Arena → Prop} {change : SymbolKind → SymbolKind}
  {tolerated : Tolerance}

/-- Whether an edit leads from an arena to a lawful one, with a result as described. -/
abbrev Edit.Works (terms : Terms) (edit : Edit α) (arena : Arena)
    (post : α → Arena → Prop) : Prop :=
  Yields terms.tolerated (Arena.Leads terms) edit arena post

namespace Arena

/-- Whether an expression was made here, after the first `start` ones. -/
def Since (arena : Arena) (start : Nat) (id : ExprId) : Prop :=
  (start ≤ id.index ∧ arena.Native id) ∧ id.index < arena.exprs.size

theorem Since.usable {id : ExprId} (since : a.Since start id) : a.Usable id :=
  ⟨since.2, since.1.2⟩

theorem Since.le {id : ExprId} (since : a.Since start id) : start ≤ a.exprs.size :=
  since.1.1.trans (since.2.le)

theorem Precedes.usable {id : ExprId} (pre : a.Precedes b) (usable : a.Usable id) : b.Usable id :=
  ⟨usable.1.trans_le pre.exprs_le, pre.native usable.1 usable.2⟩

theorem Precedes.since {id : ExprId} (pre : a.Precedes b) (since : a.Since start id) :
    b.Since start id :=
  ⟨⟨since.1.1, pre.native since.2 since.1.2⟩, since.2.trans_le pre.exprs_le⟩

theorem Leads.before (led : a.Leads t b) : a.Precedes b :=
  led.grown.toPrecedes

/-- Whether a scope is there and is not the root. -/
def Inner (arena : Arena) (scope : ScopeId) : Prop :=
  scope.index < arena.scopes.size ∧ scope ≠ arena.root

theorem Lawful.inner_opened {inner : ScopeId} (ok : a.Lawful t) (h : a.symbol id = .ok symbol)
    (opens : symbol.kind.scope? = some inner) : a.Inner inner := by
  obtain ⟨tb, foundTable, -⟩ := ok.sound.opened h opens
  exact ⟨scope_inRange foundTable, ok.sound.opened_ne_root h opens⟩

theorem Own.opened {inner : ScopeId} (own : a.Own symbol.owner)
    (sound : a.Sound) (h : a.symbol id = .ok symbol) (opens : symbol.kind.scope? = some inner)
    (native : symbol.owner = a.root → symbol.kind.isForeign = false) : a.Own inner := by
  obtain ⟨tb, ht, owned, -⟩ := sound.opened h opens
  rcases own with top | belongs
  · exact .inr (.unit ht owned h top (native top))
  · exact .inr (.inner ht owned h belongs)

theorem Precedes.inner (pre : a.Precedes b) (inner : a.Inner s) : b.Inner s :=
  ⟨inner.1.trans_le pre.scopes_le, pre.root ▸ inner.2⟩

/-- Whether the symbols of a scope are neither aliases nor stubs. -/
def Ordinary (arena : Arena) (scope : ScopeId) : Prop :=
  ∀ id symbol, arena.symbol id = .ok symbol → symbol.owner = scope → symbol.kind.isOrdinary = true

theorem Grown.ordinaryScope (grown : a.Grown b) (ordinary : a.Ordinary s)
    (lt : s.index < a.scopes.size) : b.Ordinary s := by
  intro id symbol h own
  by_contra special
  rcases grown.ordinary h (Bool.eq_false_iff.2 special) with new | ⟨old, oldFound, oldSpecial⟩
  · rw [own] at new
    omega
  · obtain ⟨again, refound, kept⟩ := grown.symbol oldFound
    cases h.symm.trans refound
    cases (ordinary id old oldFound (kept.owner ▸ own)).symm.trans oldSpecial

theorem LawfulEntry.ofFree (free : a.Free s n) (inner : a.Inner s) (opens : kind.scope? = none)
    (origin : ∀ origin, kind.form.origin? = some origin → origin.index < a.symbols.size)
    (law : a.LawfulKind t s kind) (home : (∀ node, .expr node ∉ kind.references) ∨ a.Own s) :
    a.LawfulEntry t s n kind where
  toEntering := .ofFree free opens origin
  law := law
  home := home
  untyped tb old h _ taken := by
    obtain ⟨held, hh, st⟩ := free
    cases h.symm.trans hh
    cases st.symm.trans taken
  unit isRoot := absurd isRoot inner.2
  free _ := free
  vacant inner isBlock := by
    rw [← SymbolKind.scope?_form, isBlock] at opens
    cases opens

theorem lawfulBody_nil (owner s : ScopeId) : a.LawfulBody t owner s [] where
  exprs _ mem := absurd mem List.not_mem_nil
  separate _ _ mem := absurd mem List.not_mem_nil
  typed _ mem := absurd mem List.not_mem_nil
  blocks _ mem := absurd mem List.not_mem_nil
  side := .inl rfl

section

variable {s : ScopeId} {n : String} {kind : SymbolKind}

/-- No symbol is in a new scope. -/
theorem Sound.owner_ne_new (sound : a.Sound) (h : a.symbol id = .ok symbol) :
    symbol.owner ≠ ⟨a.scopes.size⟩ := by
  obtain ⟨tb, _, ownerFound, -⟩ := sound.entered h
  exact fun same => absurd (scope_inRange (same ▸ ownerFound)) (Nat.lt_irrefl _)

/-- A symbol with a new scope may be entered under a free name. -/
theorem LawfulEntry.opening (ok : a.Lawful t) (free : a.Free s n)
    (opens : kind.scope? = some ⟨a.scopes.size⟩) (arguments : kind.arguments = [])
    (settled : kind.isStub = false)
    (origin : ∀ origin, kind.form.origin? = some origin → origin.index < a.symbols.size)
    (law : a.LawfulKind t s kind) (empty : ∀ node, .expr node ∉ kind.references) :
    (a.addScope (some s) none).2.LawfulEntry t s n kind := by
  have asked := free_iff.2 free
  obtain ⟨tb, h, st⟩ := free
  have lt := scope_inRange h
  have replaces {again : Scope} {old : SymbolId} (refound : a.scope s = .ok again) :
      again.find? n ≠ some old := by
    cases h.symm.trans refound
    rw [st]
    exact nofun
  have pre := (ok.addScope lt).before
  refine ⟨.opening lt opens arguments settled origin ?_, pre.lawfulKind law, .inl empty, ?_, ?_,
    fun _ => free_iff.1 ((find?_addScope lt).2 asked), fun inner isBlock id symbol h => ?_⟩
  · exact fun again old symbol refound taken => absurd taken (replaces refound)
  · intro again old refound _ taken
    rcases scope_addScope.1 refound with earlier | ⟨rfl, -⟩
    · exact absurd taken (replaces earlier)
    · exact absurd lt (Nat.lt_irrefl _)
  · intro _
    rw [opens]
    rfl
  · rw [← SymbolKind.scope?_form, isBlock] at opens
    cases opens
    exact ok.sound.owner_ne_new h

/-- What holds after a symbol with a new scope was entered. -/
structure Opened (terms : Terms) (arena : Arena) (scope : ScopeId) (name : String)
    (kind : SymbolKind) (next : Arena) : Prop where
  leads : arena.Leads terms next
  symbol : next.symbol ⟨arena.symbols.size⟩ = .ok ⟨name, scope, kind⟩
  stands : next.find? scope name = .ok (some ⟨arena.symbols.size⟩)
  inner : next.Inner ⟨arena.scopes.size⟩
  ordinary : next.Ordinary ⟨arena.scopes.size⟩

theorem LawfulEntry.opened (ok : a.Lawful t)
    (e : (a.addScope (some s) none).2.LawfulEntry t s n kind)
    (lt : s.index < a.scopes.size) (opens : kind.scope? = some ⟨a.scopes.size⟩) :
    a.Opened t s n kind ((a.addScope (some s) none).2.enter s n kind) := by
  have added := ok.addScope lt
  have entered := e.leads added.lawful fun info named => by
    rw [named] at opens
    cases opens
  refine ⟨Progress.trans added entered, symbol_enter.2 (.inr ⟨rfl, rfl⟩),
    find?_enter e.inRange, ?_, ?_⟩
  · refine entered.before.inner ⟨?_, fun isRoot => ?_⟩
    · simp [addScope]
    · exact absurd (congrArg ScopeId.index isRoot) (Nat.ne_of_gt ok.sound.root_inRange)
  · intro id symbol h own
    rcases symbol_enter.1 h with old | ⟨-, rfl⟩
    · exact absurd own (ok.sound.owner_ne_new old)
    · exact absurd (congrArg ScopeId.index own) (Nat.ne_of_lt lt)

end

end Arena

/-- A change of symbols that keeps their form and what is known of them apart from their statements.
-/
structure SymbolKind.Steadfast (change : SymbolKind → SymbolKind) : Prop extends
    SymbolKind.Steady change where
  ordinary : ∀ kind, (change kind).isOrdinary = kind.isOrdinary
  foreign : ∀ kind, (change kind).isForeign = kind.isForeign
  binding : ∀ info, change (.binding info) = .binding info

theorem SymbolKind.steadfast_withBody (body : List Stmt) :
    SymbolKind.Steadfast (·.withBody body) := by
  refine ⟨⟨?_, ?_, ?_⟩, ?_, ?_, fun _ => rfl⟩ <;> intro kind <;> cases kind <;> rfl

/-- The body of a symbol of a unit that was analysed here may be replaced by a lawful one. -/
theorem Arena.LawfulRevision.withBody (ok : a.Lawful t)
    (found : a.symbol id = .ok symbol) (opens : symbol.kind.scope? = some s)
    (own : a.Own symbol.owner) (law : a.LawfulBody t symbol.owner s body) :
    a.LawfulRevision t id (symbol.kind.withBody body) symbol := by
  have steady := SymbolKind.steadfast_withBody body
  refine {
    found := found
    form := steady.form _
    arguments := fun argument mem => .inl (steady.arguments _ ▸ mem)
    law := ?_
    ordinary := steady.ordinary _
    foreign := steady.foreign _
    binding := fun info bound => by
      rw [bound]
      exact steady.binding info
    references := .inr own }
  have held := ok.kind found
  cases named : symbol.kind with
  | program info | function info | block info => rw [named] at opens; cases opens; exact law
  | _ => rw [named] at held; exact held

/-- Whether an edit makes an expression, after the first `start` ones. -/
abbrev Edit.Makes (terms : Terms) (start : Nat) (edit : Edit ExprId) (arena : Arena) : Prop :=
  edit.Works terms arena fun id next => next.Since start id

namespace Edit

variable (ok : a.Lawful t)

include ok

/-! ## Expressions -/

section

variable (room : start ≤ a.exprs.size)

include room

theorem addExpr_works {kind : ExprKind} (law : a.NewExpr t ⟨kind, ty, v, span⟩) :
    (addExpr kind ty v span).Works t a fun id next => next.Since start id ∧
      next.expr id = .ok ⟨kind, ty, v, span⟩ := by
  have usable := law.usable ok
  exact Runs.of_ok rfl ⟨ok.addExpr law.lawful, ⟨⟨room, usable.2⟩, usable.1⟩,
    expr_addExpr.2 (.inr ⟨rfl, rfl⟩)⟩

theorem addExpr_makes {kind : ExprKind} (law : a.NewExpr t ⟨kind, ty, v, span⟩) :
    (addExpr kind ty v span).Makes t start a :=
  (addExpr_works ok room law).mono fun _ _ _ made => made.1

theorem addConstant_works {v : Constant} (law : a.LawfulType t ty) :
    (addConstant v ty span).Works t a fun id next =>
      next.Since start id ∧ next.IsConstant id ∧ next.HasType id ty := by
  have new : a.NewExpr t ⟨.constant v, ty, none, span⟩ :=
    ⟨nofun, law, nofun, trivial⟩
  refine (addExpr_works ok room new).mono fun id next _ ⟨since, made⟩ => ?_
  exact ⟨since, ⟨_, v, made, rfl⟩, ⟨_, made, rfl⟩⟩

theorem addConstant_makes {v : Constant} (law : a.LawfulType t ty) :
    (addConstant v ty span).Makes t start a :=
  (addConstant_works ok room law).mono fun _ _ _ made => made.1

end

theorem addConstant?_works {v : Option Constant} (law : a.LawfulType t ty) :
    (addConstant? v ty span).Works t a fun ans next => ∀ id ∈ ans, next.IsConstant id := by
  cases v with
  | none => exact .pure ok.leads nofun
  | some v =>
    refine .map ((addConstant_works ok (Nat.zero_le _) law).mono fun id next _ made o held => ?_)
    cases held
    exact made.2.1

omit ok in
theorem checkKind_quiet {category : TypeCategory} {kind : Int} :
    Quiet t.tolerated (checkKind category kind span) a fun kind => kind ∈ category.kinds := by
  unfold checkKind
  split
  · next isKind => exact .pure isKind.2
  · exact .reject _ _

theorem addInteger_works {v : Int} (room : start ≤ a.exprs.size) : (addInteger v span).Works t a
    fun id next =>
      next.Since start id ∧ next.IsConstant id ∧ next.HasType id (.integer 4) :=
  addConstant_works ok room .integer

theorem addVar_works {symbol : SymbolId} (room : start ≤ a.exprs.size)
    (lt : symbol.index < a.symbols.size) (law : a.LawfulType t ty) :
    (addVar symbol ty span).Works t a fun id next =>
      next.Since start id ∧ next.IsVar id ∧ next.HasType id ty := by
  have new : a.NewExpr t ⟨.var symbol, ty, none, span⟩ :=
    ⟨nofun, law, nofun, lt⟩
  refine (addExpr_works ok room new).mono fun id next _ ⟨since, made⟩ => ?_
  exact ⟨since, ⟨_, symbol, made, rfl⟩, ⟨_, made, rfl⟩⟩

/-! ## Names -/

theorem resolveMember_quiet {ty : SymbolId} (lt : ty.index < a.symbols.size) :
    Quiet t.tolerated (resolveMember ty n span) a fun id => id.index < a.symbols.size := by
  obtain ⟨ans, q, h⟩ := ok.exists_member? lt n
  refine ask_bind q ?_
  cases ans with
  | some mem => exact Quiet.pure (h mem rfl)
  | none =>
    obtain ⟨past, symbol, st, foundPast⟩ := ok.exists_pastImport lt
    have named : (a.pastImport ty >>= a.name) = .ok symbol.name :=
      bind_eq_ok.2 ⟨past, st, name_eq_ok.2 ⟨symbol, foundPast, rfl⟩⟩
    exact ask_bind named (.reject _ _)

theorem typeName_bind (law : a.LawfulType t ty)
    (rest : ∀ text, Runs t.tolerated (next text) a post) :
    Runs t.tolerated (ask (·.typeName ty) >>= next) a post := by
  obtain ⟨text, q⟩ := ok.exists_typeName law
  exact ask_bind q (rest text)

omit ok in
theorem name_bind (lt : id.index < a.symbols.size)
    (rest : ∀ text, Runs t.tolerated (next text) a post) :
    Runs t.tolerated (ask (·.name id) >>= next) a post := by
  obtain ⟨symbol, h⟩ := exists_symbol lt
  exact ask_bind (name_eq_ok.2 ⟨symbol, h, rfl⟩) (rest symbol.name)

theorem exprType_bind {id : ExprId} (lt : id.index < a.exprs.size) {next : Ty → Edit β}
    (rest : ∀ ty, a.HasType id ty → a.LawfulType t ty → Runs t.tolerated (next ty) a post) :
    Runs t.tolerated (ask (·.exprType id) >>= next) a post := by
  obtain ⟨ty, q, has, law⟩ := ok.exists_type lt
  exact ask_bind q (rest ty has law)

/-! ## Entering symbols -/

omit ok in
/-- A new symbol is declared where its name is free. -/
theorem declare_attach_runs {next : Unit → Edit β} (lt : s.index < a.scopes.size)
    (rest : a.Free s n → Runs t.tolerated (next ()) (a.enter s n kind) post) :
    Runs t.tolerated (declare s n ⟨a.symbols.size⟩ span >>= next) (a.attach ⟨n, s, kind⟩) post := by
  obtain ⟨tb, h⟩ := exists_scope lt
  cases st : tb.find? n with
  | some taken =>
    have answered : (a.attach ⟨n, s, kind⟩).find? s n = .ok (some taken) :=
      find?_attach.2 (find?_eq_some.2 ⟨tb, h, st⟩)
    refine .bind (ask_bind answered ?_) fun _ _ impossible => False.elim impossible
    exact Runs.reject_bind
  | none =>
    have free : a.Free s n := ⟨tb, h, st⟩
    have declared : declare s n ⟨a.symbols.size⟩ span (a.attach ⟨n, s, kind⟩) =
        .ok () (a.enter s n kind) := by
      refine declare_eq_ok.2 ⟨free_attach.2 free, ?_, declare_attach.symm⟩
      simp [attach]
    exact Runs.bind_ok declared (rest free)

section

variable {s : ScopeId} {n : String} {kind : SymbolKind} {next : SymbolId → Edit β}
  {post : β → Arena → Prop} (opens : kind.scope? = none)

omit ok

include opens

theorem declare_new_runs (lt : s.index < a.scopes.size)
    (rest : a.Free s n → Runs t.tolerated (next ⟨a.symbols.size⟩) (a.enter s n kind) post) :
    Runs t.tolerated (addSymbol n s kind >>= fun symbol => declare s n symbol span >>= fun _ =>
      next symbol) a post := by
  exact Runs.bind_ok (addSymbol_eq opens) (declare_attach_runs lt rest)

theorem overwrite_new_runs (lt : s.index < a.scopes.size)
    (rest : Runs tolerated (next ⟨a.symbols.size⟩) (a.enter s n kind) post) :
    Runs tolerated (addSymbol n s kind >>= fun symbol => overwrite s n symbol >>= fun _ =>
      next symbol) a post := by
  exact Runs.bind_ok (addSymbol_eq opens) (Runs.bind_ok (overwrite_attach_eq lt) rest)

end

section

variable {s : ScopeId} {n : String} {kind : SymbolKind} {next : SymbolId → Edit β}
  {post : β → Arena → Prop} (inner : a.Inner s) (opens : kind.scope? = none)
  (origin : ∀ origin, kind.form.origin? = some origin → origin.index < a.symbols.size)
  (law : a.LawfulKind t s kind)
  (home : (∀ node, .expr node ∉ kind.references) ∨ a.Own s)
  (typed : ∀ info, kind = .variable info → info.type ≠ none)
  (rest : ∀ entered, a.Leads t entered → entered.symbol ⟨a.symbols.size⟩ = .ok ⟨n, s, kind⟩ →
    entered.find? s n = .ok (some ⟨a.symbols.size⟩) → (next ⟨a.symbols.size⟩).Works t entered post)

include inner opens origin law home typed rest

theorem declare_new_works :
    (addSymbol n s kind >>= fun symbol => declare s n symbol span >>= fun _ =>
      next symbol : Edit β).Works t a post := by
  refine declare_new_runs opens inner.1 fun free => ?_
  have led := (Arena.LawfulEntry.ofFree free inner opens origin law home).leads ok typed
  exact (rest _ led (symbol_enter.2 (.inr ⟨rfl, rfl⟩)) (find?_enter inner.1)).after led

theorem overwrite_new_works (free : a.Free s n) :
    (addSymbol n s kind >>= fun symbol => overwrite s n symbol >>= fun _ => next symbol :
      Edit β).Works t a post := by
  refine overwrite_new_runs opens inner.1 ?_
  have led := (Arena.LawfulEntry.ofFree free inner opens origin law home).leads ok typed
  exact (rest _ led (symbol_enter.2 (.inr ⟨rfl, rfl⟩)) (find?_enter inner.1)).after led

end

/-- Declaring a new symbol that opens no scope and refers to no expression. -/
theorem declare_plain_works (inner : a.Inner s) (opens : kind.scope? = none)
    (origin : ∀ origin, kind.form.origin? = some origin → origin.index < a.symbols.size)
    (law : a.LawfulKind t s kind) (empty : ∀ node, .expr node ∉ kind.references)
    (typed : ∀ info, kind = .variable info → info.type ≠ none) :
    (addSymbol n s kind >>= fun symbol => declare s n symbol span : Edit Unit).Works t a
    fun _ _ => True := by
  have declared : (addSymbol n s kind >>= fun symbol => declare s n symbol span >>= fun _ =>
      pure () : Edit Unit).Works t a fun _ _ => True := by
    refine declare_new_works ok inner opens origin law (.inl empty) typed fun entered led _ _ => ?_
    exact .pure led.lawful.leads trivial
  simpa only [bind_pure_unit] using declared

omit ok in
theorem attach_runs {inner : ScopeId} {next : SymbolId → Edit β} (opens : kind.scope? = some inner)
    (lt : inner.index < a.scopes.size)
    (rest : Runs tolerated (next ⟨a.symbols.size⟩) (a.attach ⟨n, owner, kind⟩) post) :
    Runs tolerated (addSymbol n owner kind >>= fun symbol =>
      modifyScope inner (fun held => { held with owner := some symbol }) >>= fun _ =>
        next symbol) a post :=
  Runs.bind_ok rfl (Runs.bind_ok (claim_eq opens lt) rest)

omit ok in
/-- A new symbol with a new scope, before its name is entered. -/
theorem opening_runs {kind : ScopeId → SymbolKind}
    (opens : (kind ⟨a.scopes.size⟩).scope? = some ⟨a.scopes.size⟩)
    {next : SymbolId → ScopeId → Edit β}
    (rest : Runs t.tolerated (next ⟨a.symbols.size⟩ ⟨a.scopes.size⟩)
      ((a.addScope (some owner) none).2.attach ⟨n, owner, kind ⟨a.scopes.size⟩⟩) post) :
    Runs t.tolerated (addScope (some owner) >>= fun s => addSymbol n owner (kind s) >>=
      fun symbol => modifyScope s (fun held => { held with owner := some symbol }) >>= fun _ =>
      next symbol s) a post :=
  Runs.bind_ok rfl (attach_runs opens (by simp) rest)

/-! ## Revising symbols -/

omit ok in
theorem modifyKind_eq (h : a.symbol id = .ok symbol) (change : SymbolKind → SymbolKind) :
    modifyKind id change a = .ok () (a.revise id (change symbol.kind)) := by
  have ran : modifyKind id change a = .ok () _ :=
    modifySymbol_eq_ok.2 ⟨symbol_inRange h, rfl⟩
  obtain ⟨held, hh, revised⟩ := exists_revise ran
  cases h.symm.trans hh
  rw [ran, revised]

theorem modifyKind_works (revision : a.LawfulRevision t id (change symbol.kind) symbol) :
    (modifyKind id change).Works t a fun _ next =>
      next.symbol id = .ok { symbol with kind := change symbol.kind } :=
  Runs.of_ok (modifyKind_eq revision.found change) ⟨revision.leads ok,
    (symbol_revise revision.toRevising).2 (.inl ⟨rfl, rfl⟩)⟩

theorem modifyKind_to_works (changed : change symbol.kind = kind)
    (revision : a.LawfulRevision t id kind symbol) :
    (modifyKind id change).Works t a fun _ _ => True := by
  refine Runs.of_ok (modifyKind_eq revision.found change) ⟨?_, trivial⟩
  rw [changed]
  exact revision.leads ok

omit ok in
/-- Changing what a symbol names in a way that refers to nothing else. -/
theorem modifyKind_steady (ok : a.Lawful t) (lt : id.index < a.symbols.size)
    (steady : SymbolKind.Steadfast change)
    (law : ∀ owner kind, a.LawfulKind t owner kind → a.LawfulKind t owner (change kind))
    (refs : ∀ kind node, .expr node ∈ (change kind).references → .expr node ∈ kind.references) :
    (modifyKind id change).Works t a fun _ _ => True := by
  obtain ⟨symbol, found⟩ := exists_symbol lt
  have revision : a.LawfulRevision t id (change symbol.kind) symbol := {
    found := found
    form := steady.form _
    arguments := fun argument mem => .inl (steady.arguments _ ▸ mem)
    law := law _ _ (ok.kind found)
    ordinary := steady.ordinary _
    foreign := steady.foreign _
    binding := fun info bound => by
      rw [bound]
      exact steady.binding info
    references := .inl (refs _) }
  exact (modifyKind_works ok revision).mono fun _ _ _ _ => trivial

theorem setAccess_works {access : Access} (lt : id.index < a.symbols.size) :
    (setAccess id access).Works t a fun _ _ => True := by
  refine modifyKind_steady ok lt ?_ (fun _ kind law => ?_) fun kind => ?_
  · refine ⟨⟨?_, ?_, ?_⟩, ?_, ?_, fun _ => rfl⟩ <;> intro kind <;> cases kind <;> rfl
  · cases kind with
    | «variable» info => exact ⟨law.type, law.typed, law.init, law.value, law.aliased⟩
    | _ => exact law
  · cases kind <;> exact fun _ occurs => occurs

theorem addDependency_works (lt : s.index < a.scopes.size) :
    (addDependency s moduleName).Works t a fun _ _ => True := by
  obtain ⟨ans, q, known⟩ := ok.exists_enclosingUnit? lt
  refine ask_bind q ?_
  cases ans with
  | none => exact Yields.pure ok.leads trivial
  | some unit =>
    refine modifyKind_steady ok (known unit rfl) ?_ (fun _ kind law => ?_) fun kind => ?_
    · refine ⟨⟨?_, ?_, ?_⟩, ?_, ?_, fun _ => rfl⟩ <;> intro kind <;> cases kind <;> rfl
    · cases kind <;> exact law
    · cases kind <;> exact fun _ occurs => occurs

omit ok in
theorem setExprKind_eq {id : ExprId} (lt : id.index < a.exprs.size) (kind : ExprKind) :
    setExprKind id kind a = .ok () (a.reform id kind) := by
  refine run_bind_eq_ok.2 ⟨a, a, rfl, ?_⟩
  rw [if_pos lt]
  rfl

end Edit

end FortranSemantics
