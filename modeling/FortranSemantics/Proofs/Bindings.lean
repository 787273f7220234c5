import FortranSemantics.Proofs.Lawful.Session

/-!
# Bindings

Once everything is declared, names stand for what they stand for: the body pass and lowering bind
free names only, however the names that a program declares are spelled.
-/

namespace FortranSemantics

open Arena

/-- Whether names stand for what they stood for, and whatever is new in a scope that there was got a
free name there. -/
structure Arena.Respects (a b : Arena) : Prop where
  bound : ∀ scope name id, a.find? scope name = .ok (some id) → b.find? scope name = .ok (some id)
  fresh : ∀ id symbol, b.symbol id = .ok symbol → a.symbols.size ≤ id.index →
    symbol.owner.index < a.scopes.size →
    a.find? symbol.owner symbol.name = .ok none ∧ b.find? symbol.owner symbol.name = .ok (some id)

variable {a b : Arena}

theorem Arena.Keeps.respects (keeps : a.Keeps a.scopes.size b) (sound : a.Sound) :
    a.Respects b where
  bound scope name id stands := by
    obtain ⟨table, found, -⟩ := find?_eq_some.1 stands
    exact keeps.name (scope_inRange found) stands
  fresh id symbol found isNew old := by
    have stands := keeps.new found isNew old old
    refine ⟨?_, stands⟩
    obtain ⟨table, isTable⟩ := exists_scope old
    cases entry : table.find? symbol.name with
    | none => exact free_iff.2 ⟨table, isTable, entry⟩
    | some member =>
      -- what the name stood for would be the new symbol
      have before := find?_eq_some.2 ⟨table, isTable, entry⟩
      cases stands.symm.trans (keeps.name old before)
      exact absurd (sound.find?_inRange before) isNew.not_gt

theorem Context.Lawful.reset {ctx : Context} (lawful : ctx.Lawful (.loose n)) :
    ctx.Lawful (.loose m) :=
  ⟨lawful.lawful.reset, fun entry mem rule isRule => (lawful.typings entry mem rule isRule).reset⟩

theorem Arena.fresh_empty : Arena.empty.Fresh :=
  fun _ _ _ _ h => absurd (symbol_inRange h) (Nat.not_lt_zero _)

/-- Names keep what they stand for from the first pass on: those that are bound when the body pass
starts are bound to the same symbols after it, and those that are bound then, in blocks too, after
lowering. Whatever a pass adds to a scope that there was, such as a temporary or a helper, gets a
name that was free there. Blocks, imported intrinsics and the variables of blocks, such as
subscripts that are frozen, get names that no earlier symbol has in any scope, however new. -/
theorem Tree.CompilationUnit.bindings_stable {arenas : List Arena} (session : Session arenas)
    {setup : Setup}
    (served : setup.library.ServedBy arenas) {unit : Tree.CompilationUnit} {analysed : Analysed}
    (ran : unit.analyse setup = .ok analysed) :
    ∃ declared resolved : Context, Analysis.declareUnit setup unit ⟨.empty, {}⟩ = .ok () declared ∧
      unit.items.forM (Analysis.unitBody setup) declared = .ok () resolved ∧
      declared.arena.Respects resolved.arena ∧ resolved.arena.Respects analysed.arena ∧
      analysed.arena.Fresh := by
  unfold Tree.CompilationUnit.analyse extend at ran
  cases outcome : Analysis.analyse setup unit ⟨.empty, {}⟩ with
  | error failure _ =>
    rw [outcome] at ran
    cases ran
  | ok _ last =>
    rw [outcome] at ran
    cases ran
    obtain ⟨_, declared, declares, rest⟩ := run_bind_eq_ok.1 outcome
    obtain ⟨_, resolved, resolves, finishes⟩ := run_bind_eq_ok.1 rest
    have loads {n : Nat} : setup.library.Loads (.loose n) := served.loads session.lawful
    -- each pass is run on terms that fix the scopes it starts with
    obtain ⟨led, has⟩ := (Analysis.declareUnit_works (@loads 0)
      ⟨lawful_empty, by exact nofun⟩ rfl).result declares
    have start : declared.Lawful (.loose declared.arena.scopes.size) := led.lawful.reset
    have bodies : (unit.items.forM (Analysis.unitBody setup)).Works
        (.loose declared.arena.scopes.size) declared fun _ _ => True :=
      Yields.forM start.here fun item mem mid more => Analysis.unitBody_works loads more.lawful
        more.arena.before.scopes_le (more.arena.before.hasUnit (has item mem))
    obtain ⟨filled, -⟩ := bodies.result resolves
    have next : resolved.Lawful (.loose resolved.arena.scopes.size) := filled.lawful.reset
    obtain ⟨finished, -⟩ := (Analysis.finish_works next (Nat.le_refl _)).result finishes
    exact ⟨declared, resolved, declares, resolves, filled.arena.keeps.respects start.lawful.sound,
      finished.arena.keeps.respects next.lawful.sound,
      finished.arena.keeps.fresh (filled.arena.keeps.fresh (led.arena.keeps.fresh fresh_empty))⟩

/-- A program whose names are those that a helper, a temporary, blocks and a frozen subscript would
get. -/
def Tree.sampleImitation : Tree.CompilationUnit :=
  let declared (name : String) (dims : List String) : Tree.Entity :=
    ⟨name, dims.map fun extent => ⟨none, some ⟨.int extent, default⟩⟩, none, default⟩
  let value (name : String) : Tree.Expr := ⟨.name name, default⟩
  let call (name : String) (args : List Tree.Expr) : Tree.Expr :=
    ⟨.call [] name (args.map (⟨none, ·⟩)), default⟩
  ⟨[.programUnit ⟨"p", [], [],
    [.var ⟨.integer none, [], [declared "x" ["2", "2"], declared "sum_4_2_1" [],
      declared "__sum_result" ["2"], declared "block_1" [], declared "i" []], default⟩],
    [.print [call "sum" [value "x", ⟨.int "1", default⟩]],
      .block [.var ⟨.integer none, [], [declared "block_2" []], default⟩]
        [.block [] [] default,
          .associate [⟨"__e_index", value "i"⟩, ⟨"e", call "x" [value "i", value "i"]⟩]
            [.print [call "abs" [value "e"]]] default] default], [], default⟩]⟩

/-- All that is made for the program gets another name than the variables have. -/
theorem Tree.CompilationUnit.bindings_stable_imitation : ∃ analysed declared resolved,
    Tree.sampleImitation.analyse ⟨{}, {}⟩ = .ok analysed ∧
      Analysis.declareUnit ⟨{}, {}⟩ Tree.sampleImitation ⟨.empty, {}⟩ = .ok () declared ∧
      declared.arena.Respects resolved ∧ resolved.Respects analysed.arena ∧ analysed.arena.Fresh ∧
      ∀ name ∈ ["sum_4_2_1_1", "__sum_result_1", "block_1_1", "block_2_1", "__e_index_1",
        "__e_index_2", "abs"], name ∈ analysed.arena.symbols.toList.map (·.name) := by
  have accepted : (Tree.sampleImitation.analyse ⟨{}, {}⟩).toOption.any
      (fun analysed => decide (∀ name ∈
      ["sum_4_2_1_1", "__sum_result_1", "block_1_1", "block_2_1", "__e_index_1",
        "__e_index_2", "abs"],
        name ∈ analysed.arena.symbols.toList.map (·.name))) = true := by decide +kernel
  cases ran : Tree.sampleImitation.analyse ⟨{}, {}⟩ with
  | error failure =>
    rw [ran] at accepted
    cases accepted
  | ok analysed =>
    rw [ran] at accepted
    obtain ⟨declared, resolved, declares, -, first, second, fresh⟩ :=
      bindings_stable .start (fun _ _ loaded => by cases loaded) ran
    exact ⟨analysed, declared, resolved.arena, rfl, declares, first, second, fresh,
      of_decide_eq_true accepted⟩

end FortranSemantics
