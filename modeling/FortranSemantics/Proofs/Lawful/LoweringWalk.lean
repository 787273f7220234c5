import FortranSemantics.Proofs.Lawful.Lowering

/-!
# Lowering of units

Lowering goes through the units that were analysed here and everything inside them. It gives rise to
no breach, and no array intrinsic is called in the statements that it leaves.
-/

namespace FortranSemantics

open Arena Edit

variable {t : Terms} {a b start : Arena} {homes : ScopeId → Prop} {id other : SymbolId}
  {s owner : ScopeId} {sym : Symbol} {k : SymbolKind} {fuel : Nat}

theorem SymbolKind.body_eq_nil (closed : k.scope? = none) : k.body = [] := by
  cases k <;> first | rfl | cases closed

namespace Arena

/-! ## What is inside a symbol -/

/-- Whether a symbol is in the scope that another one opens. -/
def Under (arena : Arena) (outer child : SymbolId) : Prop :=
  ∃ sym inner held, arena.symbol outer = .ok sym ∧ sym.kind.scope? = some inner ∧
    arena.symbol child = .ok held ∧ held.owner = inner

/-- Whether a symbol is another one or lies inside it. -/
def Beneath (arena : Arena) : SymbolId → SymbolId → Prop :=
  Relation.ReflTransGen arena.Under

theorem Precedes.beneath {outer inner : SymbolId} (before : a.Precedes b)
    (inside : a.Beneath outer inner) : b.Beneath outer inner := by
  refine Relation.ReflTransGen.mono (fun first second under => ?_) _ _ inside
  obtain ⟨sym, s, held, h, opens, isHeld, owned⟩ := under
  obtain ⟨again, refound, same⟩ := before.symbol h
  obtain ⟨heldAgain, foundHeldAgain, sameHeld⟩ := before.symbol isHeld
  exact ⟨again, s, heldAgain, refound, (scope?_eq_of_form same.form).trans opens, foundHeldAgain,
    sameHeld.owner.trans owned⟩

theorem Beneath.eq_of_closed (inside : a.Beneath id other) (h : a.symbol id = .ok sym)
    (closed : sym.kind.scope? = none) : other = id := by
  rcases Relation.ReflTransGen.cases_head inside with rfl |
    ⟨child, ⟨again, inner, _, refound, opens, -⟩, -⟩
  · rfl
  · cases h.symm.trans refound
    cases closed.symm.trans opens

/-- Whether a symbol is there and no array intrinsic is called in its statements. -/
def Settled (arena : Arena) (id : SymbolId) : Prop :=
  ∃ sym, arena.symbol id = .ok sym ∧ ∀ expr ∈ Stmt.exprsOf sym.kind.body, arena.Lowered expr

theorem Lowers.settled (lowered : a.Lowers t homes b) (settled : a.Settled id) : b.Settled id := by
  obtain ⟨sym, h, isLowered⟩ := settled
  obtain ⟨held, isHeld, -, -, kept⟩ := lowered.body_kept h isLowered
  exact ⟨held, isHeld, kept⟩

theorem Precedes.settled_of_closed (before : a.Precedes b)
    (h : a.symbol id = .ok sym) (closed : sym.kind.scope? = none) : b.Settled id := by
  obtain ⟨held, isHeld, same⟩ := before.symbol h
  refine ⟨held, isHeld, fun expr mem => ?_⟩
  rw [SymbolKind.body_eq_nil ((scope?_eq_of_form same.form).trans closed)] at mem
  cases mem

/-! ## Replacing bodies -/

/-- Statements that were lowered make a lawful body. -/
theorem Tidy.lawfulBody (tidy : a.Tidy body lowered) (own : a.Own owner)
    (law : a.LawfulBody t owner s body) : a.LawfulBody t owner s lowered where
  exprs id mem := (tidy.exprs id mem).1.1
  separate target v mem expr h isCall := by
    obtain ⟨-, clean⟩ := tidy.exprs v (Stmt.mem_exprsOf_of_assigned lowered mem).2
    cases (clean v expr .refl h).symm.trans isCall
  typed demand mem := (tidy.demands demand mem).elim (law.typed demand) .inr
  blocks block mem := law.blocks block (tidy.blocks mem)
  side := .inr (.inr ⟨own, fun expr mem => (tidy.exprs expr mem).1.2⟩)

theorem Lawful.body {body : List Stmt} (ok : a.Lawful t) (h : a.symbol id = .ok sym)
    (opens : sym.kind.scope? = some s)
    (has : sym.kind.body? = some body) : a.LawfulBody t sym.owner s body := by
  have law := ok.kind h
  cases named : sym.kind <;> rw [named] at opens has law <;> cases has <;> cases opens <;> exact law

theorem LawfulBody.lowerable (law : a.LawfulBody t owner s body) (sound : a.Sound)
    (own : a.Own owner) : a.Lowerable body where
  exprs id mem := by
    refine ⟨law.exprs id mem, ?_⟩
    rcases law.side with none | alien | ⟨-, native⟩
    · rw [none] at mem
      cases mem
    · exact absurd alien (own.not_alien sound)
    · exact native id mem
  separate := law.separate

/-- Replacing the body of a symbol of what was analysed here by a lowered one. -/
theorem LawfulRevision.lowers (revision : a.LawfulRevision t id (sym.kind.withBody body) sym)
    (ok : a.Lawful t) (own : a.Own sym.owner)
    (isLowered : ∀ expr ∈ Stmt.exprsOf body, a.Lowered expr) :
    a.Lowers t homes (a.revise id (sym.kind.withBody body)) := by
  have quelled : a.Quells t (a.revise id (sym.kind.withBody body)) :=
    ⟨revision.leads ok, fun h _ => h⟩
  exact {quelled with
    plain := fun h _ => h
    symbol := fun {other held} h => by
      by_cases same : other = id
      · subst same
        cases revision.found.symm.trans h
        refine .inr ⟨own.not_alien ok.sound, body, fun expr mem => quelled.lowered
          (isLowered expr mem), ?_⟩
        exact (symbol_revise revision.toRevising).2 (.inl ⟨rfl, rfl⟩)
      · exact .inl ((symbol_revise revision.toRevising).2 (.inr ⟨same, h⟩))
    new := fun {other held} h isNew => by
      rcases (symbol_revise revision.toRevising).1 h with ⟨rfl, -⟩ | ⟨-, old⟩
      · exact absurd (symbol_inRange revision.found) isNew.not_gt
      · exact absurd (symbol_inRange old) isNew.not_gt
    table := fun h _ => h
    loaned := fun _ h => h }

/-! ## The walk -/

/-- Whether scopes are nested less than `fuel` deep from a symbol on, as far as they were there at
the start; later ones hold only variables. -/
def Enough (start : Arena) (fuel : Nat) (kind : SymbolKind) : Prop :=
  match kind.scope? with
  | none => 0 < fuel
  | some inner => start.scopes.size + 2 ≤ inner.index + fuel ∧ 2 ≤ fuel

/-- The symbols in a scope are nested less deep than the scope is. -/
theorem Lowers.enough {inner : ScopeId} {child : SymbolId} {held : Symbol}
    (since : start.Lowers t (· = unit) a)
    (known : unit.index < start.scopes.size) (sound : start.Sound) (opens : k.scope? = some inner)
    (enough : start.Enough (fuel + 1) k) (h : a.symbol child = .ok held)
    (owned : held.owner = inner) : start.Enough fuel held.kind := by
  unfold Enough at enough
  rw [opens] at enough
  obtain ⟨deep, some⟩ := enough
  unfold Enough
  cases opensToo : held.kind.scope? with
  | none => exact Nat.lt_of_succ_lt_succ some
  | some nested =>
    obtain ⟨table, isTable, -, inside⟩ := since.lawful.sound.opened h opensToo
    have deeper := since.lawful.sound.parent isTable inside
    rw [owned] at deeper
    by_cases old : inner.index < start.scopes.size
    · simp only
      omega
    · -- only a unit has new symbols with scopes, and its scope is not new
      have isNew : start.symbols.size ≤ child.index := by
        by_contra old'
        obtain ⟨before, foundBefore⟩ := exists_symbol (Nat.lt_of_not_le old')
        obtain ⟨again, refound, same⟩ := since.before.symbol foundBefore
        cases h.symm.trans refound
        obtain ⟨outer, -, outerFound, -⟩ := sound.entered foundBefore
        rw [← same.owner, owned] at outerFound
        exact old (scope_inRange outerFound)
      have isUnit := ((since.new h isNew).1 nested opensToo).1
      rw [owned] at isUnit
      exact absurd (isUnit ▸ known) old

end Arena

namespace Lowering

/-- Lowering the body of a symbol that has one, before something else. -/
theorem body_bind {unit : ScopeId} {body : List Stmt}
    {next : Unit → Edit Unit} {post : Unit → Arena → Prop} (ok : a.Lawful t)
    (placed : a.Placed t ⟨unit, s⟩) (h : a.symbol id = .ok sym) (own : a.Own sym.owner)
    (opens : sym.kind.scope? = some s) (has : sym.kind.body? = some body)
    (rest : ∀ mid, a.Lowers t (· = unit) mid → mid.Settled id →
      (next ()).Lowers t (· = unit) mid post) :
    (stmts ⟨unit, s⟩ body >>= fun lowered =>
      modifyKind id (·.withBody lowered) >>= next).Lowers t (· = unit) a post := by
  have law := ok.body h opens has
  refine .bind (stmts_lowers body ok placed (law.lowerable ok.sound own))
    fun lowered mid toMiddle tidy => ?_
  obtain ⟨held, isHeld, same⟩ := toMiddle.before.symbol h
  have own : mid.Own held.owner := same.owner.symm ▸ toMiddle.before.own own
  have law : mid.LawfulBody t held.owner s lowered :=
    tidy.lawfulBody own (same.owner.symm ▸ toMiddle.before.lawfulBody law)
  have revision := Arena.LawfulRevision.withBody toMiddle.lawful isHeld
    ((scope?_eq_of_form same.form).trans opens) own law
  have toLast : mid.Lowers t (· = unit) (mid.revise id (held.kind.withBody lowered)) :=
    revision.lowers toMiddle.lawful own tidy.exprs
  have changed : (mid.revise id (held.kind.withBody lowered)).symbol id =
      .ok { held with kind := held.kind.withBody lowered } :=
    (symbol_revise revision.toRevising).2 (.inl ⟨rfl, rfl⟩)
  refine Runs.bind_ok (modifyKind_eq isHeld (·.withBody lowered)) (Yields.after toLast
    (rest _ (Progress.trans toMiddle toLast) ⟨_, changed, fun expr mem => ?_⟩))
  exact toLast.lowered (tidy.exprs expr (SymbolKind.exprsOf_withBody mem))

/-- Lowering a symbol of what was analysed here with everything inside it. -/
theorem symbolWithin_lowers {unit : ScopeId} (since : start.Lowers t (· = unit) a)
    (sound : start.Sound)
    (room : t.fixed ≤ start.scopes.size) (own : a.Own unit) (inner : start.Inner unit)
    (h : a.symbol id = .ok sym)
    (ownToo : a.Own sym.owner) (native : sym.owner = a.root → sym.kind.isForeign = false)
    (enough : start.Enough fuel sym.kind) :
    (symbolWithin unit fuel id).Lowers t (· = unit) a fun _ next =>
      ∀ other, a.Beneath id other → next.Settled other := by
  induction fuel generalizing a id sym with
  | zero =>
    unfold Arena.Enough at enough
    split at enough <;> omega
  | succ fuel ih =>
    have ok := since.lawful
    refine ask_bind (kind_eq_ok.2 ⟨sym, h, rfl⟩) ?_
    cases opens : sym.kind.scope? with
    | none =>
      refine Yields.pure (ok.lowers _) fun other inside => ?_
      rw [inside.eq_of_closed h opens]
      exact ok.leads.before.settled_of_closed h opens
    | some s =>
      have isInner := ok.inner_opened h opens
      have ownScope := ownToo.opened ok.sound h opens native
      have rest (mid : Arena) (led : a.Lowers t (· = unit) mid) (settled : mid.Settled id) :
          Edit.Lowers t (· = unit) (do
            let table ← ask (·.scope s)
            for child in table.symbols do
              symbolWithin unit fuel child) mid fun _ next =>
            ∀ other, a.Beneath id other → next.Settled other := by
        obtain ⟨table, isTable⟩ := exists_scope (led.before.inner isInner).1
        refine ask_bind isTable ?_
        have loop : Edit.Lowers t (· = unit) (do
              for child in table.symbols do
                symbolWithin unit fuel child) mid fun _ next =>
            ∀ child ∈ table.symbols, ∀ other, mid.Beneath child other → next.Settled other := by
          refine .bind (Yields.forIn_each (led.lawful.lowers _)
            (fun child _ _ lowered done other inside => lowered.settled (done other inside))
            fun child mem last toLast => ?_) fun _ next more done =>
            .pure (Progress.arrive more) done
          obtain ⟨⟨name, _⟩, entry, rfl⟩ := List.mem_map.1 mem
          obtain ⟨held, isHeld, owned, -⟩ := led.lawful.sound.entry isTable entry
          obtain ⟨again, refound, same⟩ := toLast.before.symbol isHeld
          have sinceLast := Progress.trans since (Progress.trans led toLast)
          have before := (Progress.trans led toLast).before
          have ownedAgain := same.owner.trans owned
          refine .bind (ih sinceLast (before.own own) refound (ownedAgain ▸ before.own ownScope) ?_
            (sinceLast.enough inner.1 sound opens enough refound ownedAgain))
            fun _ next toNext done =>
              Yields.pure (Progress.arrive toNext)
                ⟨rfl, fun other inside => done other (toLast.before.beneath inside)⟩
          intro top
          exact absurd (ownedAgain.symm.trans top) (before.inner isInner).2
        refine loop.mono fun _ next toNext done other inside => ?_
        rcases Relation.ReflTransGen.cases_head inside with
          rfl | ⟨child, ⟨again, nested, held, refound, opensAgain, isHeld, owned⟩, deeper⟩
        · exact toNext.settled settled
        · cases h.symm.trans refound
          cases opens.symm.trans opensAgain
          cases opensHeld : held.kind.scope? with
          | none =>
            rw [Arena.Beneath.eq_of_closed deeper isHeld opensHeld]
            exact (Progress.trans led toNext).before.settled_of_closed isHeld opensHeld
          | some within =>
            -- a symbol with a scope is entered in the scope it belongs to, so the loop came to it
            obtain ⟨b, foundLater, same⟩ := led.before.symbol isHeld
            have ownedLater := same.owner.trans owned
            obtain ⟨entries, entriesFound, st⟩ := led.lawful.sound.registered foundLater
              ((scope?_eq_of_form same.form).trans opensHeld)
              (fun top => (led.before.inner isInner).2 (ownedLater.symm.trans top))
            rw [ownedLater, isTable] at entriesFound
            cases entriesFound
            exact done child (List.mem_map.2 ⟨_, Scope.mem_of_find? st, rfl⟩) other
              (led.before.beneath deeper)
      cases has : sym.kind.body? with
      | none =>
        refine rest a (ok.lowers _) ⟨sym, h, fun expr mem => ?_⟩
        rw [SymbolKind.body, has] at mem
        cases mem
      | some body =>
        exact body_bind ok ⟨room.trans since.before.scopes_le, own, since.before.inner inner,
          ownScope, isInner⟩ h ownToo opens has rest

theorem isForeignModule_eq (h : a.symbol id = .ok sym) :
    a.isForeignModule id = .ok sym.kind.isForeign := by
  unfold isForeignModule
  rw [kind_eq_ok.2 ⟨sym, h, rfl⟩]
  cases sym.kind <;> rfl

theorem symbolScope?_eq (h : a.symbol id = .ok sym) : a.symbolScope? id = .ok sym.kind.scope? := by
  unfold symbolScope?
  rw [kind_eq_ok.2 ⟨sym, h, rfl⟩]
  rfl

theorem unit_lowers (ok : a.Lawful t) (room : t.fixed ≤ a.scopes.size) (h : a.symbol id = .ok sym)
    (top : sym.owner = a.root) : (unit id).Lowers t (fun _ => True) a fun _ next =>
      sym.kind.isForeign = false → ∀ other, a.Beneath id other → next.Settled other := by
  refine ask_bind (isForeignModule_eq h) ?_
  split
  · next foreign =>
    refine Yields.pure (ok.lowers _) fun native => ?_
    cases foreign.symm.trans native
  · next native =>
    have native : sym.kind.isForeign = false := by simpa using native
    refine ask_bind (symbolScope?_eq h) ?_
    cases opens : sym.kind.scope? with
    | none =>
      refine Yields.pure (ok.lowers _) fun _ other inside => ?_
      rw [inside.eq_of_closed h opens]
      exact ok.leads.before.settled_of_closed h opens
    | some s =>
      have own : a.Own sym.owner := .inl top
      have enough : a.Enough (a.scopes.size + 2) sym.kind := by
        unfold Arena.Enough
        rw [opens]
        exact ⟨Nat.le_add_left _ _, Nat.le_add_left _ _⟩
      refine Runs.bind_ok rfl (.mono (symbolWithin_lowers (ok.lowers _) ok.sound room
        (own.opened ok.sound h opens fun _ => native) (ok.inner_opened h opens) h own
        (fun _ => native) enough) fun _ next ⟨lowered, done⟩ => ?_)
      exact ⟨lowered.mono fun _ _ => trivial, fun _ => done⟩

end Lowering

namespace Arena

/-- Whether no array intrinsic is called in the units that were analysed here. -/
def LoweredUnits (arena : Arena) : Prop :=
  ∀ table id sym, arena.scope arena.root = .ok table → id ∈ table.symbols →
    arena.symbol id = .ok sym →
    sym.kind.isForeign = false → ∀ other, arena.Beneath id other → arena.Settled other

/-- What lies inside a symbol after a lowering lay there before, or is new. -/
theorem Lowers.beneath (lowered : a.Lowers t homes b) (sound : a.Sound)
    (inside : b.Beneath id other) : a.symbols.size ≤ other.index ∨ a.Beneath id other := by
  induction inside with
  | refl => exact .inr .refl
  | @tail mid other inside under ih =>
    obtain ⟨sym, inner, held, h, opens, isHeld, owned⟩ := under
    by_cases isNew : a.symbols.size ≤ other.index
    · exact .inl isNew
    -- an old symbol is in an old scope, which no new symbol opens
    obtain ⟨old, isOld⟩ := exists_symbol (Nat.lt_of_not_le isNew)
    obtain ⟨again, refound, same⟩ := lowered.before.symbol isOld
    cases isHeld.symm.trans refound
    have ownedOld := same.owner.symm.trans owned
    obtain ⟨table, -, isTable, -⟩ := sound.entered isOld
    rw [ownedOld] at isTable
    have middleInRange : mid.index < a.symbols.size := by
      by_contra beyond
      have fresh := ((lowered.new h (Nat.le_of_not_lt beyond)).1 inner opens).2
      exact absurd (scope_inRange isTable) fresh.not_gt
    have earlier := ih.resolve_left (Nat.not_le.2 middleInRange)
    obtain ⟨before, foundBefore⟩ := exists_symbol middleInRange
    obtain ⟨kept, foundKept, sameKept⟩ := lowered.before.symbol foundBefore
    cases h.symm.trans foundKept
    exact .inr (earlier.tail ⟨before, inner, old, foundBefore,
      (scope?_eq_of_form sameKept.form).symm.trans opens, isOld, ownedOld⟩)

end Arena

namespace Lowering

/-- Lowering gives rise to no breach and leaves no calls of array intrinsics in what was analysed
here. -/
theorem arena_lowers (ok : a.Lawful t) (room : t.fixed ≤ a.scopes.size) :
    Lowering.arena.Lowers t (fun _ => True) a fun _ next => next.LoweredUnits := by
  obtain ⟨table, isTable, -⟩ := ok.sound.root
  refine Runs.bind_ok rfl (ask_bind isTable ?_)
  have listedUnit {id : SymbolId} (mem : id ∈ table.symbols) :
      ∃ sym, a.symbol id = .ok sym ∧ sym.owner = a.root := by
    obtain ⟨⟨name, _⟩, entry, rfl⟩ := List.mem_map.1 mem
    obtain ⟨sym, h, owned, -⟩ := ok.sound.entry isTable entry
    exact ⟨sym, h, owned⟩
  have loop : Edit.Lowers t (fun _ => True) (do
        for id in table.symbols do
          unit id) a fun _ next => ∀ id ∈ table.symbols, ∀ sym, a.symbol id = .ok sym →
      sym.kind.isForeign = false → ∀ other, a.Beneath id other → next.Settled other := by
    refine .bind (Yields.forIn_each (ok.lowers _) ?_ fun id mem mid toMiddle => ?_)
      fun _ next more done => .pure (Progress.arrive more) done
    · exact fun id _ _ lowered done sym h native other inside =>
        lowered.settled (done sym h native other inside)
    · obtain ⟨sym, h, top⟩ := listedUnit mem
      obtain ⟨held, isHeld, same⟩ := toMiddle.before.symbol h
      refine .bind (unit_lowers toMiddle.lawful (room.trans toMiddle.before.scopes_le) isHeld
        (same.owner.trans (top.trans toMiddle.before.root.symm))) fun _ next toNext done =>
          Yields.pure (Progress.arrive toNext) ⟨rfl, fun again refound native other inside => ?_⟩
      cases h.symm.trans refound
      exact done (same.foreign.trans native) other (toMiddle.before.beneath inside)
  refine loop.mono
    fun _ next lowered done again id held foundTable mem isHeld native other inside => ?_
  rw [lowered.before.root, lowered.table isTable (.inl rfl)] at foundTable
  cases foundTable
  obtain ⟨sym, h, -⟩ := listedUnit mem
  obtain ⟨kept, foundKept, same⟩ := lowered.before.symbol h
  cases isHeld.symm.trans foundKept
  rcases lowered.beneath ok.sound inside with isNew | earlier
  · obtain ⟨member, foundMember⟩ : ∃ member, next.symbol other = .ok member := by
      rcases Relation.ReflTransGen.cases_tail inside with rfl |
        ⟨_, -, _, _, member, -, -, foundMember, -⟩
      · exact ⟨held, isHeld⟩
      · exact ⟨member, foundMember⟩
    exact ⟨member, foundMember, (lowered.new foundMember isNew).2⟩
  · exact done id mem sym h (same.foreign.symm.trans native) other earlier

end Lowering

end FortranSemantics
