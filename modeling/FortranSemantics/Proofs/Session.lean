import FortranSemantics.Analysis.Unit
import FortranSemantics.Proofs.Arena.Entry

/-!
# Sessions

A session is a sequence of analyses, each on top of an earlier arena and with the modules that
earlier arenas publish.
-/

namespace FortranSemantics

/-! ## The images in a library

The library of a program supplies, under the name of every module that the program publishes, the
image of such a module. -/

open List

variable {ε α : Type} {items kept : List α} {item : α} {n : String} {lib : Library} {image : Image}

/-- What is left of a list after what is left was collected in reverse. -/
theorem mem_filterAuxM {test : α → Except ε Bool} {done : List α}
    (answered : items.filterAuxM test done = .ok kept) :
    item ∈ kept ↔ item ∈ done ∨ item ∈ items ∧ test item = .ok true := by
  induction items generalizing done with
  | nil =>
    cases answered
    simp
  | cons first rest ih =>
    obtain ⟨chosen, tested, answered⟩ := bind_eq_ok.1 answered
    rw [ih answered]
    cases chosen with
    | true =>
      simp only [cond_true, mem_cons]
      constructor
      · rintro ((rfl | old) | ⟨b, passed⟩)
        · exact .inr ⟨.inl rfl, tested⟩
        · exact .inl old
        · exact .inr ⟨.inr b, passed⟩
      · rintro (old | ⟨rfl | b, passed⟩)
        · exact .inl (.inr old)
        · exact .inl (.inl rfl)
        · exact .inr ⟨b, passed⟩
    | false =>
      simp only [cond_false, mem_cons]
      constructor
      · rintro (old | ⟨b, passed⟩)
        · exact .inl old
        · exact .inr ⟨.inr b, passed⟩
      · rintro (old | ⟨rfl | b, passed⟩)
        · exact .inl old
        · cases tested.symm.trans passed
        · exact .inr ⟨b, passed⟩

theorem mem_filterM {test : α → Except ε Bool} (answered : items.filterM test = .ok kept) :
    item ∈ kept ↔ item ∈ items ∧ test item = .ok true := by
  obtain ⟨reversed, collected, turned⟩ := bind_eq_ok.1 answered
  cases turned
  rw [mem_reverse, mem_filterAuxM collected]
  exact or_iff_right not_mem_nil

namespace Library

theorem lookup_filter_ne (different : n ≠ o) (entries : List (String × α)) :
    (entries.filter (·.1 != o)).lookup n = entries.lookup n := by
  induction entries with
  | nil => rfl
  | cons e rest ih =>
    obtain ⟨key, v⟩ := e
    rw [filter_cons, lookup_cons]
    by_cases dropped : key = o
    · subst dropped
      rw [beq_eq_false_iff_ne.2 different, ← ih]
      simp
    · rw [if_pos (by simpa using dropped), lookup_cons, ih]

theorem load_insert (lib : Library) (image : Image) (n : String) :
    (lib.insert image).load n = if n = image.name then .ok image else lib.load n := by
  unfold load insert
  rw [lookup_cons]
  by_cases here : n = image.name
  · rw [if_pos here, beq_iff_eq.2 here]
    rfl
  · rw [if_neg here, beq_eq_false_iff_ne.2 here, lookup_filter_ne here]

theorem load_foldl_insert {images : List Image}
    (loaded : (images.foldl insert lib).load n = .ok image) :
    image ∈ images ∧ image.name = n ∨ lib.load n = .ok image := by
  induction images generalizing lib with
  | nil => exact .inr loaded
  | cons first rest ih =>
    rcases ih loaded with ⟨mem, named⟩ | loaded
    · exact .inl ⟨mem_cons_of_mem _ mem, named⟩
    · rw [load_insert] at loaded
      split at loaded
      · next here =>
        cases loaded
        exact .inl ⟨(.head _), here.symm⟩
      · exact .inr loaded

/-- What the library of a program supplies is the image of a module that the program publishes. -/
theorem load_ofArena {a : Arena} (made : ofArena a = .ok lib) (loaded : lib.load n = .ok image) :
    image.name = n ∧ ∃ tb module, a.scope a.root = .ok tb ∧ module ∈ tb.symbols ∧
      publishes a module = .ok true ∧ a.imageOf module = .ok image := by
  simp only [ofArena, bind_eq_ok] at made
  obtain ⟨tb, h, modules, filtered, images, extracted, collected⟩ := made
  cases collected
  rcases load_foldl_insert loaded with ⟨mem, named⟩ | none
  · obtain ⟨module, chosen, imaged⟩ := (mem_answers extracted).1 mem
    obtain ⟨member, published⟩ := (mem_filterM filtered).1 chosen
    exact ⟨named, tb, module, h, member, published, imaged⟩
  · cases none

end Library

/-! ## Sessions -/

variable {a : Arena} {arenas : List Arena}

/-- Whether every image that a library supplies is one that the library of one of these arenas
supplies. -/
def Library.ServedBy (library : Library) (arenas : List Arena) : Prop :=
  ∀ name image, library.load name = .ok image →
    ∃ a ∈ arenas, ∃ published key, ofArena a = .ok published ∧ published.load key = .ok image

/-- What an interactive session makes of a procedure that it leaves behind. -/
def SymbolKind.left : SymbolKind → SymbolKind
  | .function info => .function { info with abi := .interactive }
  | kind => kind

/-- The arena in which a procedure is left behind as a stub. -/
def Arena.leave (a : Arena) (procedure : SymbolId) : Arena :=
  { a with
    symbols := a.symbols.modify procedure.index fun held => { held with kind := held.kind.left } }

/-- The arenas of a session, from the last one back to the empty one. A procedure may be left as a
stub, to be declared later. -/
inductive Session : List Arena → Prop
  | start : Session [Arena.empty]
  | analyse {arenas : List Arena} {a : Arena} {setup : Setup} {unit : Tree.CompilationUnit}
      {result : Analysed} (earlier : Session arenas) (known : a ∈ arenas)
      (served : setup.library.ServedBy arenas) (ran : a.extend setup unit = .ok result) :
      Session (result.arena :: arenas)
  | leave {arenas : List Arena} {a : Arena} {procedure : SymbolId} (earlier : Session arenas)
      (known : a ∈ arenas) (inRange : procedure.index < a.symbols.size) :
      Session (a.leave procedure :: arenas)

theorem Arena.Sound.leave (sound : a.Sound) (lt : proc.index < a.symbols.size) :
    (a.leave proc).Sound := by
  have ran : Edit.modifyKind proc SymbolKind.left a = .ok () (a.leave proc) :=
    Edit.modifySymbol_eq_ok.2 ⟨lt, rfl⟩
  obtain ⟨sym, h, revised⟩ := Edit.exists_revise ran
  rw [revised]
  refine sound.revise ⟨h, ?_, fun argument mem => .inl ?_⟩
  · cases sym.kind <;> rfl
  · revert mem
    cases sym.kind <;> exact fun mem => mem

/-! ## Going on with a session -/

/-- The arena after a unit was analysed; a unit that is refused changes nothing. -/
def Arena.after (a : Arena) (setup : Setup) (unit : Tree.CompilationUnit) : Arena :=
  match a.extend setup unit with
  | .ok result => result.arena
  | .error _ => a

/-- An analysis with what an arena publishes. -/
def Arena.setup (a : Arena) : Setup :=
  match Library.ofArena a with
  | .ok library => ⟨{}, library⟩
  | .error _ => ⟨{}, {}⟩

theorem Arena.servedBy_setup (mem : a ∈ arenas) : a.setup.library.ServedBy arenas := by
  intro n image loaded
  unfold Arena.setup at loaded
  cases made : Library.ofArena a with
  | ok lib =>
    rw [made] at loaded
    exact ⟨a, mem, lib, n, made, loaded⟩
  | error breach =>
    rw [made] at loaded
    cases loaded

theorem Session.after (earlier : Session arenas) (known : a ∈ arenas)
    (served : setup.library.ServedBy arenas) (accepted : (a.extend setup unit).isOk = true) :
    Session (a.after setup unit :: arenas) := by
  unfold Arena.after
  cases ran : a.extend setup unit with
  | ok res => exact .analyse earlier known served ran
  | error failure =>
    rw [ran] at accepted
    cases accepted

end FortranSemantics
