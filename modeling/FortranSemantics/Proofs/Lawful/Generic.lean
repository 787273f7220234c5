import FortranSemantics.Analysis.Declaration
import FortranSemantics.Proofs.Lawful.Entity

/-!
# Generics, type-bound procedures and imports in lawful arenas

What is done at the end of a scope, and what use statements do: every candidate of a generic is a
procedure or bound to one, and every import stands for something that is there.
-/

namespace FortranSemantics

open List Arena SymbolKind

variable {α β : Type} {t : Terms} {a b : Arena} {s moduleScope : ScopeId} {moduleName name : String}
  {span : Span} {id existing : SymbolId} {added : List SymbolId} {generic : DeferredGeneric}

namespace Arena

/-- Whether a symbol may be a candidate of a generic: it is there, and is a procedure or bound to
one unless it need not be. -/
def IsCandidate (terms : Terms) (a : Arena) (id : SymbolId) : Prop :=
  id.index < a.symbols.size ∧ (terms.lenient ∨ a.IsCallable id)

section

variable {id past : SymbolId} {sym : Symbol} {info : Function} (st : a.pastImport id = .ok past)
  (h : a.symbol past = .ok sym) (named : sym.kind = .function info)

include st h named

theorem isProcedure_of_pastImport : a.IsProcedure id :=
  ⟨past, info.scope, st, sym, h, by rw [named]; rfl⟩

theorem isCandidate_of_pastImport : a.IsCandidate t id := by
  obtain ⟨held, isHeld, -⟩ := pastImport_eq_ok.1 st
  have isKind : a.kind past = .ok (.function info) := kind_eq_ok.2 ⟨sym, h, named⟩
  refine ⟨symbol_inRange isHeld, .inr ⟨past, info.scope, ?_, sym, h, by rw [named]; rfl⟩⟩
  exact bind_eq_ok.2 ⟨past, st, bind_eq_ok.2 ⟨_, isKind, rfl⟩⟩

end

theorem Lawful.isCandidate_binding (ok : a.Lawful t) (named : a.kind id = .ok (.binding info)) :
    a.IsCandidate t id := by
  obtain ⟨sym, h, isBinding⟩ := kind_eq_ok.1 named
  have law := ok.kind h
  rw [isBinding] at law
  refine ⟨symbol_inRange h, law.2.imp_right fun ⟨past, s, st, has⟩ => ⟨past, s, ?_, has⟩⟩
  have itself : a.pastImport id = .ok id :=
    pastImport_eq_ok.2 ⟨sym, h, by rw [isBinding]; rfl⟩
  exact bind_eq_ok.2 ⟨id, itself, bind_eq_ok.2 ⟨_, named, st⟩⟩

theorem expr_not_mem_generic {merged : GenericProcedure} (node : ExprId) :
    Reference.expr node ∉ (SymbolKind.generic merged).references := by
  simp [SymbolKind.references]

/-- An import that a name stands for in a scope may be replaced by a generic. -/
theorem LawfulEntry.overImport (inner : a.Inner s) (late : t.fixed ≤ s.index)
    (st : a.find? s name = .ok (some existing)) (h : a.symbol existing = .ok sym)
    (isImport : sym.kind = .imported info) {merged : GenericProcedure}
    (law : a.LawfulKind t s (.generic merged)) : a.LawfulEntry t s name (.generic merged) := by
  obtain ⟨table, foundTable, isEntry⟩ := find?_eq_some.1 st
  have replaced : ∀ again old, a.scope s = .ok again → again.find? name = some old →
      old = existing := by
    intro again old refound taken
    cases foundTable.symm.trans refound
    exact Option.some.inj (taken.symm.trans isEntry)
  refine ⟨.over foundTable rfl nofun fun old held taken isHeld => ?_, law,
    .inl expr_not_mem_generic,
    fun again old refound _ taken typed => ?_, fun isRoot => absurd isRoot inner.2,
    fun early => early.elim (fun early => absurd early late.not_gt) False.elim, nofun⟩
  · cases replaced table old foundTable taken
    cases h.symm.trans isHeld
    rw [isImport]
    rfl
  · cases replaced again old refound taken
    obtain ⟨held, declared, isHeld, isVariable, -⟩ := typed
    cases h.symm.trans isHeld
    cases isImport.symm.trans isVariable

/-- Whether a symbol is a derived type whose scope is not fixed. -/
def IsLateType (terms : Terms) (a : Arena) (id : SymbolId) : Prop :=
  ∃ scope parent, terms.fixed ≤ scope.index ∧ a.HasForm id (.derivedType scope parent)

theorem IsLateType.exists_scope (isType : a.IsLateType t id) :
    ∃ sym inner, a.symbol id = .ok sym ∧ sym.kind.scope? = some inner ∧ t.fixed ≤ inner.index := by
  obtain ⟨s, parent, late, sym, h, form⟩ := isType
  exact ⟨sym, s, h, by rw [← scope?_form, form]; rfl, late⟩

theorem Precedes.isLateType (before : a.Precedes b) (isType : a.IsLateType t id) :
    b.IsLateType t id := by
  obtain ⟨s, parent, late, form⟩ := isType
  exact ⟨s, parent, late, before.hasForm form⟩

end Arena

namespace Edit

variable (ok : a.Lawful t)

/-! ## Merging of generics -/

theorem mem_mergeCandidates (mem : cand ∈ mergeCandidates cands added) : cand ∈ cands ∨
    cand ∈ added := by
  unfold mergeCandidates at mem
  induction added generalizing cands with
  | nil => exact .inl mem
  | cons first rest ih =>
    rw [foldl_cons] at mem
    rcases ih mem with here | there
    · split at here
      · exact .inl here
      · rcases mem_append.1 here with old | new
        · exact .inl old
        · exact .inr (mem_singleton.1 new ▸ (.head _))
    · exact .inr (.tail _ there)

include ok

/-- Adding candidates to the generic that a name stands for. -/
theorem extendGeneric_works (inner : a.Inner s) (late : t.fixed ≤ s.index)
    (st : a.find? s name = .ok (some existing))
    (candidates : ∀ candidate ∈ added, a.IsCandidate t candidate) :
    (extendGeneric s name existing added span).Works t a fun _ _ => True := by
  obtain ⟨table, foundTable, isEntry⟩ := find?_eq_some.1 st
  obtain ⟨symbol, found, -⟩ := ok.sound.entry foundTable (Scope.mem_of_find? isEntry)
  refine ask_bind found ?_
  have merged {info : GenericProcedure} (law : ∀ proc ∈ info.procs, a.IsCandidate t proc) :
      ∀ proc ∈ mergeCandidates info.procs added, a.IsCandidate t proc := fun proc mem =>
    (mem_mergeCandidates mem).elim (law proc) (candidates proc)
  cases named : symbol.kind with
  | generic info =>
    dsimp only
    split
    · have law := ok.kind found
      rw [named] at law
      have revision : a.LawfulRevision t existing
          (.generic { info with procs := mergeCandidates info.procs added }) symbol := {
        found := found
        form := by rw [named]; rfl
        arguments := nofun
        law := merged law
        ordinary := by rw [named]; rfl
        foreign := by rw [named]; rfl
        binding := fun info bound => by
          cases named.symm.trans bound
        references := .inl fun node occurs => absurd occurs (expr_not_mem_generic node) }
      exact (modifyKind_works ok revision).mono fun _ _ _ _ => trivial
    · exact .reject _ _
  | imported info =>
    have targetInRange : info.target.index < a.symbols.size :=
      (ok.sound.origin found (by rw [named]; rfl)).trans (symbol_inRange found)
    obtain ⟨target, foundTarget⟩ := exists_symbol targetInRange
    refine ask_bind (kind_eq_ok.2 ⟨target, foundTarget, rfl⟩) ?_
    cases isTarget : target.kind with
    | generic generic =>
      have law := ok.kind foundTarget
      rw [isTarget] at law
      have entry : a.LawfulEntry t s name (.generic
          { procs := mergeCandidates generic.procs added, access := info.access }) :=
        Arena.LawfulEntry.overImport inner late st found named (merged law)
      have led := entry.leads ok fun info named => by cases named
      exact Runs.bind_ok (addSymbol_eq rfl)
        (Runs.of_ok (overwrite_attach_eq inner.1) ⟨led, trivial⟩)
    | _ => exact .reject _ _
  | _ => exact .reject _ _

/-! ## The end of a scope -/

theorem typeScope_quiet (isType : a.IsLateType t ty) :
    Quiet t.tolerated (typeScope ty) a fun s => a.Inner s ∧ t.fixed ≤ s.index := by
  obtain ⟨sym, inner, h, opens, late⟩ := isType.exists_scope
  have answered : a.symbolScope? ty = .ok (some inner) :=
    bind_eq_ok.2 ⟨sym.kind, kind_eq_ok.2 ⟨sym, h, rfl⟩, congrArg _ opens⟩
  exact ask_bind answered (Quiet.pure ⟨ok.inner_opened h opens, late⟩)

theorem attachBinding_works {binding : DeferredBinding} (lt : s.index < a.scopes.size)
    (isType : a.IsLateType t binding.type) : (attachBinding s binding).Works t a
    fun _ _ => True := by
  obtain ⟨sym, inner, h, -⟩ := isType.exists_scope
  refine name_bind (symbol_inRange h) fun typeName => ?_
  obtain ⟨ans, asked, known⟩ := ok.exists_lookup lt binding.implementation
  refine ask_bind asked ?_
  cases ans with
  | none => exact .reject _ _
  | some proc =>
    obtain ⟨fn, asked, named⟩ := ok.exists_asFunction? (known proc rfl)
    refine ask_bind asked (.guard fun isSome => ?_)
    obtain ⟨info, rfl⟩ := Option.ne_none_iff_exists'.1 (by simpa using isSome)
    obtain ⟨past, held, st, foundPast, isFunction⟩ := named info rfl
    refine (typeScope_quiet ok isType).bind fun inner ⟨isInner, _⟩ => ?_
    have procedure := isProcedure_of_pastImport st foundPast isFunction
    refine declare_plain_works ok isInner rfl nofun ⟨known proc rfl, .inr procedure⟩
      (fun node => ?_) nofun
    simp [references]

/-- The candidates that a generic names are procedures or bound to some. -/
theorem resolveCandidate_quiet (lt : s.index < a.scopes.size)
    (isType : ∀ ty ∈ generic.type, ty.index < a.symbols.size) :
    Quiet t.tolerated (resolveCandidate s generic name) a (a.IsCandidate t) := by
  have h : ∃ ans, candidate? a s generic.type name = .ok ans ∧
      ∀ id ∈ ans, a.IsCandidate t id := by
    unfold candidate?
    split
    · next ty isSome =>
      obtain ⟨ans, asked, known⟩ := ok.exists_member? (isType ty isSome) name
      rw [asked]
      cases ans with
      | none => exact ⟨none, rfl, by simp⟩
      | some mem =>
        obtain ⟨sym, h⟩ := exists_symbol (known mem rfl)
        have named : a.kind mem = .ok sym.kind := kind_eq_ok.2 ⟨sym, h, rfl⟩
        cases isKind : sym.kind with
        | binding info =>
          rw [isKind] at named
          refine ⟨some mem, bind_eq_ok.2 ⟨_, rfl, bind_eq_ok.2 ⟨_, named, rfl⟩⟩, fun id held => ?_⟩
          cases held
          exact ok.isCandidate_binding named
        | _ =>
          rw [isKind] at named
          exact ⟨none, bind_eq_ok.2 ⟨_, rfl, bind_eq_ok.2 ⟨_, named, rfl⟩⟩, by simp⟩
    · obtain ⟨ans, asked, known⟩ := ok.exists_lookup lt name
      rw [asked]
      cases ans with
      | none => exact ⟨none, rfl, by simp⟩
      | some sym =>
        obtain ⟨fn, asked, named⟩ := ok.exists_asFunction? (known sym rfl)
        refine ⟨_, bind_eq_ok.2 ⟨_, rfl, bind_eq_ok.2 ⟨_, asked, rfl⟩⟩, fun id held => ?_⟩
        cases fn with
        | none => cases held
        | some info =>
          cases held
          obtain ⟨past, held, st, foundPast, isFunction⟩ := named info rfl
          exact isCandidate_of_pastImport st foundPast isFunction
  obtain ⟨ans, asked, cands⟩ := h
  refine ask_bind asked ?_
  cases ans with
  | none => exact Runs.reject _ _
  | some sym => exact Quiet.pure (cands sym rfl)

/-- Attaching a generic, or adding to one of the same name. -/
theorem attachGeneric_works (inner : a.Inner s) (late : t.fixed ≤ s.index)
    (isType : ∀ ty ∈ generic.type, a.IsLateType t ty) : (attachGeneric s generic).Works t a
    fun _ _ => True := by
  have lt : ∀ ty ∈ generic.type, ty.index < a.symbols.size := fun ty held => by
    obtain ⟨sym, inner, h, -⟩ := (isType ty held).exists_scope
    exact symbol_inRange h
  refine (Quiet.mapM fun name _ => resolveCandidate_quiet ok inner.1 lt).bind
    fun procs resolved => ?_
  have cands : ∀ proc ∈ procs, a.IsCandidate t proc := fun proc mem => by
    obtain ⟨_, -, cand⟩ := exists_of_mem_right resolved mem
    exact cand
  have home : Quiet t.tolerated (genericHome s generic.type) a fun s => a.Inner s ∧
      t.fixed ≤ s.index := by
    cases isTyped : generic.type with
    | none => exact .pure ⟨inner, late⟩
    | some ty => exact typeScope_quiet ok (isType ty isTyped)
  refine home.bind fun home ⟨isInner, late⟩ => ?_
  obtain ⟨ans, asked, -⟩ := ok.exists_find? isInner.1 generic.name
  refine ask_bind asked ?_
  cases ans with
  | some existing => exact extendGeneric_works ok isInner late asked cands
  | none =>
    exact declare_plain_works ok isInner rfl nofun cands expr_not_mem_generic nofun

theorem applyAccess_works (lt : s.index < a.scopes.size) :
    (applyAccess s request).Works t a fun _ _ => True := by
  obtain ⟨ans, asked, known⟩ := ok.exists_find? lt request.name
  refine ask_bind asked ?_
  cases ans with
  | none => exact .reject _ _
  | some id =>
    obtain ⟨sym, h, -⟩ := known id rfl
    exact setAccess_works ok (symbol_inRange h)

end Edit

/-- Whether the work left for the end of a scope is about derived types that are there. -/
structure Deferred.Lawful (terms : Terms) (a : Arena) (deferred : Deferred) : Prop where
  bindings : ∀ binding ∈ deferred.bindings, a.IsLateType terms binding.type
  generics : ∀ generic ∈ deferred.generics, ∀ type ∈ generic.type, a.IsLateType terms type

theorem Arena.Precedes.deferred {deferred : Deferred} (before : a.Precedes b)
    (law : deferred.Lawful t a) : deferred.Lawful t b where
  bindings binding mem := before.isLateType (law.bindings binding mem)
  generics generic mem ty held := before.isLateType (law.generics generic mem ty held)

theorem Deferred.lawful_of_nil {deferred : Deferred} (bindings : deferred.bindings = [])
    (generics : deferred.generics = []) : deferred.Lawful t a where
  bindings _ mem := absurd (bindings ▸ mem) not_mem_nil
  generics _ mem := absurd (generics ▸ mem) not_mem_nil

theorem Deferred.lawful_ofAccess {access : Access} {names : List String} :
    (Deferred.ofAccess access names span).Lawful t a := by
  unfold Deferred.ofAccess
  split <;> exact lawful_of_nil rfl rfl

theorem Deferred.Lawful.append {first second : Deferred} (firstLaw : first.Lawful t a)
    (secondLaw : second.Lawful t a) : (first ++ second).Lawful t a where
  bindings binding mem := (mem_append.1 mem).elim (firstLaw.bindings binding)
    (secondLaw.bindings binding)
  generics generic mem := (mem_append.1 mem).elim (firstLaw.generics generic)
    (secondLaw.generics generic)

/-- Carrying out the work left for the end of a scope. -/
theorem Edit.finishScope_works (ok : a.Lawful t) (inner : a.Inner s)
    (late : t.fixed ≤ s.index) (law : deferred.Lawful t a) : (finishScope s deferred).Works t a
    fun _ _ => True := by
  have bindings : (deferred.bindings.forM (attachBinding s)).Works t a fun _ _ => True :=
    Yields.forM ok.leads fun binding mem mid led => attachBinding_works led.lawful
      (led.before.inner inner).1 (led.before.isLateType (law.bindings binding mem))
  refine .bind bindings fun _ first led _ => ?_
  have generics : (deferred.generics.forM (attachGeneric s)).Works t first fun _ _ => True :=
    Yields.forM led.lawful.leads fun generic mem mid more =>
      have led := Progress.trans led more
      attachGeneric_works led.lawful (led.before.inner inner) late fun ty held =>
        led.before.isLateType (law.generics generic mem ty held)
  refine .bind generics fun _ second more _ => ?_
  have inner := (Progress.trans led more).before.inner inner
  have requests {third : Arena} (led : second.Leads t third) :
      (deferred.access.forM (applyAccess s)).Works t third fun _ _ => True :=
    Yields.forM led.lawful.leads fun request _ mid more =>
      applyAccess_works more.lawful ((Progress.trans led more).before.inner inner).1
  split
  · obtain ⟨table, h⟩ := exists_scope inner.1
    refine ask_bind h ?_
    have hidden : (table.symbols.forM fun sym => setAccess sym .privateAccess).Works t second
        fun _ _ => True := by
      refine Yields.forM more.lawful.leads fun id mem mid b => ?_
      obtain ⟨entry, isEntry, rfl⟩ := mem_map.1 mem
      obtain ⟨sym, foundSymbol, -⟩ := more.lawful.sound.entry h isEntry
      exact setAccess_works b.lawful ((symbol_inRange foundSymbol).trans_le b.before.symbols_le)
    exact Yields.bind hidden fun _ third b _ => requests b
  · exact requests more.lawful.leads

/-! ## Use statements -/

/-- Whether the modules that a library supplies can be loaded: loading one leads to a lawful state
in which it is there. -/
def Library.Loads (terms : Terms) (library : Library) : Prop :=
  ∀ (name : String) (span : Span) {ctx : Context}, ctx.Lawful terms →
    (Analysis.loadModule library name span).Works terms ctx fun id next =>
      ∃ sym inner, next.arena.symbol id = .ok sym ∧ sym.kind.scope? = some inner

namespace Analysis

section

variable (ok : a.Lawful t)

include ok

/-- The entry that an item of an only list asks for. -/
theorem listedEntry_quiet (lt : moduleScope.index < a.scopes.size) :
    Quiet t.tolerated (listedEntry moduleName moduleScope span item) a fun entry =>
      entry.symbol.index < a.symbols.size := by
  obtain ⟨ans, asked, known⟩ := ok.exists_find? lt (genericSpelling item.remote)
  refine Edit.ask_bind asked ?_
  cases ans with
  | none => exact .reject _ _
  | some id =>
    obtain ⟨sym, h, -⟩ := known id rfl
    have accessible : a.access id = .ok sym.kind.access :=
      bind_eq_ok.2 ⟨_, kind_eq_ok.2 ⟨sym, h, rfl⟩, rfl⟩
    refine Edit.ask_bind accessible (Runs.guard fun _ => ?_)
    exact Quiet.pure (symbol_inRange h)

/-- The entries for everything public in a module. -/
theorem publicEntries_quiet (lt : moduleScope.index < a.scopes.size) :
    Quiet t.tolerated (publicEntries moduleScope) a fun entries =>
      ∀ entry ∈ entries, entry.symbol.index < a.symbols.size := by
  obtain ⟨table, h⟩ := exists_scope lt
  refine Edit.ask_bind h ?_
  have known : ∀ entry ∈ table.entries, ∃ sym, a.symbol entry.2 = .ok sym := fun entry mem => by
    obtain ⟨sym, foundSymbol, -⟩ := ok.sound.entry h mem
    exact ⟨sym, foundSymbol⟩
  have visible : ∀ entry ∈ table.entries, ∃ ans, (do
      return decide ((← a.access entry.2) = .publicAccess) : Except Breach Bool) = .ok ans := by
    intro entry mem
    obtain ⟨sym, foundSymbol⟩ := known entry mem
    have accessible : a.access entry.2 = .ok sym.kind.access :=
      bind_eq_ok.2 ⟨_, kind_eq_ok.2 ⟨sym, foundSymbol, rfl⟩, rfl⟩
    exact ⟨_, bind_eq_ok.2 ⟨_, accessible, rfl⟩⟩
  obtain ⟨chosen, asked, among⟩ := exists_filterM visible
  refine Edit.ask_bind asked (Quiet.pure fun entry mem => ?_)
  obtain ⟨pair, isChosen, rfl⟩ := mem_map.1 mem
  obtain ⟨sym, foundSymbol⟩ := known pair (among pair isChosen).1
  exact symbol_inRange foundSymbol

theorem importOf_quiet (lt : entry.symbol.index < a.symbols.size) :
    Quiet t.tolerated (importOf moduleName entry) a fun info =>
    info.target.index < a.symbols.size := by
  obtain ⟨sym, h⟩ := exists_symbol lt
  refine Edit.ask_bind (kind_eq_ok.2 ⟨sym, h, rfl⟩) ?_
  cases named : sym.kind with
  | imported info =>
    exact Quiet.pure ((ok.sound.origin h (by rw [named]; rfl)).trans lt)
  | _ => exact Quiet.pure lt

theorem importEntry_works (inner : a.Inner s) (late : t.fixed ≤ s.index)
    (lt : entry.symbol.index < a.symbols.size) :
    (importEntry s moduleName mem span entry).Works t a fun _ _ => True := by
  refine (importOf_quiet ok lt).bind fun info targetInRange => ?_
  obtain ⟨ans, asked, known⟩ := ok.exists_find? inner.1 entry.localName
  refine Edit.ask_bind asked ?_
  cases ans with
  | none =>
    refine Edit.declare_plain_works ok inner rfl (fun origin isOrigin => ?_) trivial
      expr_not_mem_imported nofun
    cases isOrigin
    exact targetInRange
  | some existing =>
    obtain ⟨sym, h, -⟩ := known existing rfl
    obtain ⟨past, held, st, -⟩ := ok.exists_pastImport (symbol_inRange h)
    refine Edit.ask_bind st ?_
    split
    · split
      · exact Runs.reject _ _
      · exact Yields.pure ok.leads trivial
    · obtain ⟨target, foundTarget⟩ := exists_symbol targetInRange
      refine Edit.ask_bind (kind_eq_ok.2 ⟨target, foundTarget, rfl⟩) ?_
      cases named : target.kind with
      | generic generic =>
        have law := ok.kind foundTarget
        rw [named] at law
        exact Edit.extendGeneric_works ok inner late asked law
      | _ => exact .reject _ _

end

theorem useModule_works (loads : setup.library.Loads t) (ready : ctx.Ready t s)
    (late : t.fixed ≤ s.index) : (useModule setup s stmt).Works t ctx fun _ _ => True := by
  refine .bind (loads _ _ ready.toLawful) fun id first led ⟨sym, inner, h, opens⟩ => ?_
  have ready := ready.after led
  refine .bind (lift_works led.lawful (Edit.addDependency_works led.arena.lawful ready.inner.1))
    fun _ second more _ => ?_
  have ready := ready.after more
  obtain ⟨held, isHeld, kept⟩ := more.arena.before.symbol h
  have stillOpens : held.kind.scope? = some inner := (scope?_eq_of_form kept.form).trans opens
  have answered : second.arena.symbolScope? id = .ok (some inner) :=
    bind_eq_ok.2 ⟨held.kind, kind_eq_ok.2 ⟨held, isHeld, rfl⟩, congrArg _ stillOpens⟩
  refine ask_bind answered ?_
  have moduleScope := (ready.lawful.inner_opened isHeld stillOpens).1
  have entered {entries : List UseEntry}
      (known : ∀ entry ∈ entries, entry.symbol.index < second.arena.symbols.size) :
      (entries.forM fun entry => (liftM (importEntry s stmt.usedModule stmt.only.isSome
        stmt.span entry) : Analysis Unit)).Works t second fun _ _ => True :=
    Yields.forM ready.here fun entry mem mid b => lift_works b.lawful
      (importEntry_works b.arena.lawful (b.arena.before.inner ready.inner) late
        ((known entry mem).trans_le b.arena.before.symbols_le))
  dsimp only
  split
  · exact (lift_quiet (publicEntries_quiet ready.lawful moduleScope)).bind
      fun entries known => entered known
  · refine Quiet.bind (Quiet.mapM fun item _ =>
      lift_quiet (listedEntry_quiet ready.lawful moduleScope))
      fun entries known => entered fun entry mem => ?_
    obtain ⟨_, -, lt⟩ := exists_of_mem_right known mem
    exact lt

end Analysis

end FortranSemantics
