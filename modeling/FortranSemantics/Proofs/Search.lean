import FortranSemantics.Proofs.Lawful.Session

/-!
# Searches in a session

However long a session is, its arenas are nested and every search in them ends.
-/

namespace FortranSemantics

variable {arena : Arena} {arenas : List Arena}

/-- Whether every search along the parents of scopes or types ends with an answer. -/
structure Arena.Searchable (arena : Arena) : Prop where
  lookup : ∀ scope name, scope.index < arena.scopes.size →
    ∃ found, arena.lookup scope name = .ok found
  enclosingUnit : ∀ scope, scope.index < arena.scopes.size →
    ∃ found, arena.enclosingUnit? scope = .ok found
  implicitType : ∀ (env : Environment) scope name, scope.index < arena.scopes.size →
    ∃ found, env.implicitType? arena scope name = .ok found
  member : ∀ type name, type.index < arena.symbols.size → ∃ found,
    arena.member? type name = .ok found
  components : ∀ type, type.index < arena.symbols.size → ∃ found, arena.components type = .ok found
  isExtension : ∀ child ancestor, child.index < arena.symbols.size →
    ancestor.index < arena.symbols.size → ∃ answer, arena.isExtension child ancestor = .ok answer

theorem Arena.Sound.searchable (sound : arena.Sound) : arena.Searchable where
  lookup s n lt := sound.exists_lookupWithin n lt (Nat.lt_succ_of_lt lt)
  enclosingUnit s lt := sound.exists_unitWithin lt (Nat.lt_succ_of_lt lt)
  implicitType env s n lt :=
    sound.exists_implicitTypeWithin env n lt (Nat.lt_succ_of_lt lt)
  member ty n lt := by
    obtain ⟨past, h, bound⟩ := sound.exists_pastImport lt
    have lt : past.index < arena.symbols.size := bound.trans_lt lt
    obtain ⟨ans, searched⟩ := sound.exists_memberWithin n lt (Nat.lt_succ_of_lt lt)
    exact ⟨ans, bind_eq_ok.2 ⟨past, h, searched⟩⟩
  components ty lt := sound.exists_componentsWithin lt (Nat.lt_succ_of_lt lt)
  isExtension child ancestor childInRange ancestorInRange := by
    obtain ⟨last, foundLast, -⟩ := sound.exists_pastImport ancestorInRange
    obtain ⟨past, h, bound⟩ := sound.exists_pastImport childInRange
    have lt : past.index < arena.symbols.size := bound.trans_lt childInRange
    obtain ⟨ans, searched⟩ := sound.exists_extendsWithin last lt (Nat.lt_succ_of_lt lt)
    exact ⟨ans, bind_eq_ok.2 ⟨last, foundLast, bind_eq_ok.2 ⟨past, h, searched⟩⟩⟩

theorem Session.sound (session : Session arenas) : ∀ arena ∈ arenas, arena.Sound :=
  fun arena mem => (session.lawful arena mem).sound

/-- Through a whole session symbols belong to the scopes that list them, own the scopes that they
open, and lie inside what is older, so that every search ends. -/
theorem Session.nested_and_searchable {arenas : List Arena} (session : Session arenas)
    {arena : Arena} (listed : arena ∈ arenas) : arena.Nested ∧ arena.Searchable :=
  ⟨(session.sound arena listed).nested, (session.sound arena listed).searchable⟩

/-! ## A session -/

/-- A module `m` with a type that extends another. -/
def Tree.sampleModule : Tree.CompilationUnit :=
  ⟨[.moduleUnit ⟨"m", [], [], [.derivedType ⟨"point", none, none,
      [⟨.real none, [], [⟨"x", [], none, default⟩], default⟩], [], [], default⟩,
     .derivedType ⟨"circle", some "point", none,
      [⟨.real none, [], [⟨"radius", [], none, default⟩], default⟩], [], [], default⟩],
      [], default⟩]⟩

/-- A subroutine `s` that uses the module and has an argument of a type of it. -/
def Tree.sampleClient : Tree.CompilationUnit :=
  ⟨[.subprogramUnit ⟨.subroutine, "s", ["c"], none, none, [⟨"m", none, default⟩], [],
    [.var ⟨.derived "circle", [], [⟨"c", [], none, default⟩], default⟩],
    [.block [] [.print [⟨.member "c" ["x"], default⟩]] default], [], default⟩]⟩

namespace Session

/-- The module on its own. -/
def sampleLibrary : Arena :=
  Arena.empty.after ⟨{}, {}⟩ Tree.sampleModule

/-- The subroutine, with the module loaded. -/
def sampleCompiled : Arena :=
  Arena.empty.after sampleLibrary.setup Tree.sampleClient

/-- The subroutine as a stub. -/
def sampleStub : Arena :=
  sampleCompiled.leave ⟨0⟩

/-- The subroutine declared again. -/
def sampleRedefined : Arena :=
  sampleStub.after sampleLibrary.setup Tree.sampleClient

/-- In a session that declares a subroutine again, its name comes to stand for another symbol, and
all arenas are nested. -/
theorem nested_and_searchable_redefined :
    Session [sampleRedefined, sampleStub, sampleCompiled, sampleLibrary, Arena.empty] ∧
      sampleStub.find? sampleStub.root "s" = .ok (some ⟨0⟩) ∧
      sampleRedefined.find? sampleRedefined.root "s" = .ok (some ⟨10⟩) ∧
      ∀ arena ∈ [sampleRedefined, sampleStub, sampleCompiled, sampleLibrary, Arena.empty],
        arena.Nested ∧ arena.Searchable := by
  have library : Session [sampleLibrary, Arena.empty] :=
    .after .start (.head _) (fun _ _ loaded => by cases loaded) (by decide +kernel)
  have compiled : Session [sampleCompiled, sampleLibrary, Arena.empty] :=
    .after library (.tail _ (.head _)) (Arena.servedBy_setup (.head _)) (by decide +kernel)
  have stub : Session [sampleStub, sampleCompiled, sampleLibrary, Arena.empty] :=
    .leave compiled (.head _) (by decide +kernel)
  have redefined : Session [sampleRedefined, sampleStub, sampleCompiled, sampleLibrary,
      Arena.empty] :=
    .after stub (.head _) (Arena.servedBy_setup (.tail _ (.tail _ (.head _)))) (by decide +kernel)
  exact ⟨redefined, by decide +kernel, by
    decide +kernel, fun arena => redefined.nested_and_searchable⟩

end Session

end FortranSemantics
