import FortranSemantics.Proofs.Intrinsic.Meaning
import Mathlib.Data.List.Nodup
import Mathlib.Data.List.InsertIdx

/-!
# Traversals of arrays

A nest of loops visits every index of an array once, in array element order. What it does is told by
a property that holds of the indices visited so far and the memory, and that one step carries on by
one index.
-/

namespace FortranSemantics

open List

variable {extents : List Nat} {index : List Int} {mem : Memory} {vars : List SymbolId}

namespace Grid

/-! ## Indices in array element order -/

/-- The positions along a dimension. -/
def positions (extent : Nat) : List Int :=
  (range extent).map fun (step : Nat) => (step : Int) + 1

/-- The indices of an array in array element order: the first position runs fastest. -/
def indices : List Nat → List (List Int)
  | [] => [[]]
  | extent :: extents => (indices extents).flatMap fun later => (positions extent).map (· :: later)

theorem mem_positions : position ∈ positions extent ↔ 1 ≤ position ∧ position ≤ extent := by
  simp only [positions, mem_map, mem_range]
  constructor
  · rintro ⟨step, below, rfl⟩
    omega
  · rintro ⟨low, high⟩
    exact ⟨(position - 1).toNat, by omega, by omega⟩

theorem nodup_positions (extent : Nat) : (positions extent).Nodup :=
  nodup_range.map fun left right same => by omega

theorem positions_succ (extent : Nat) : positions (extent + 1) = positions extent ++
    [(extent : Int) + 1] := by
  simp [positions, range_succ]

theorem mem_indices_cons : index ∈ indices (extent :: extents) ↔
      ∃ position b, index = position :: b ∧ position ∈ positions extent ∧ b ∈ indices extents := by
  simp only [indices, mem_flatMap, mem_map]
  constructor
  · rintro ⟨b, mem, position, lt, rfl⟩
    exact ⟨position, b, rfl, lt, mem⟩
  · rintro ⟨position, b, rfl, lt, mem⟩
    exact ⟨b, mem, position, lt, rfl⟩

theorem mem_indices : index ∈ indices extents ↔ inside extents index = true := by
  induction extents generalizing index with
  | nil => cases index <;> simp [indices, inside]
  | cons extent extents ih =>
    rw [mem_indices_cons]
    cases index with
    | nil => simp [inside]
    | cons position b => simp [inside, mem_positions, ih, and_assoc]

theorem nodup_indices (extents : List Nat) : (indices extents).Nodup := by
  induction extents with
  | nil => simp [indices]
  | cons extent extents ih =>
    refine nodup_flatMap.2 ⟨fun b _ => ?_, ih.imp fun different => ?_⟩
    · exact (nodup_positions extent).map fun left right same => (cons.inj same).1
    · intro index left right
      obtain ⟨_, -, rfl⟩ := mem_map.1 left
      obtain ⟨_, -, same⟩ := mem_map.1 right
      exact different (cons.inj same).2.symm

theorem eraseIdx_mem_indices (dim : Nat) (mem : index ∈ indices extents) :
    index.eraseIdx dim ∈ indices (extents.eraseIdx dim) := by
  induction extents generalizing index dim with
  | nil =>
    rw [mem_singleton.1 mem]
    exact mem_singleton.2 rfl
  | cons extent extents ih =>
    obtain ⟨position, b, rfl, lt, laterListed⟩ := mem_indices_cons.1 mem
    cases dim with
    | zero => exact laterListed
    | succ dim => exact mem_indices_cons.2 ⟨position, _, rfl, lt, ih dim laterListed⟩

/-- The indices along one dimension, the other positions being given. -/
def fibre (extents : List Nat) (dim : Nat) (others : List Int) : List (List Int) :=
  (positions (extents.getD dim 0)).map fun position => others.insertIdx dim position

/-- Where all other items of a list give nothing, the list gives what one item gives. -/
theorem flatMap_eq_of_nodup {α β : Type} {items : List α} {item : α} {results : α → List β}
    (distinct : items.Nodup) (listed : item ∈ items)
    (others : ∀ o ∈ items, o ≠ item → results o = []) : items.flatMap results = results item := by
  obtain ⟨pre, after, rfl⟩ := append_of_mem listed
  have apart := nodup_middle.1 distinct
  have none (o : α) (mem : o ∈ pre ++ after) : results o = [] :=
    others o (mem_append.2 ((mem_append.1 mem).imp_right (mem_cons_of_mem _)))
      fun same => (nodup_cons.1 apart).1 (same ▸ mem)
  have left : pre.flatMap results = [] :=
    flatMap_eq_nil_iff.2 fun o mem => none o (mem_append_left _ mem)
  have right : after.flatMap results = [] :=
    flatMap_eq_nil_iff.2 fun o mem => none o (mem_append_right _ mem)
  rw [flatMap_append, flatMap_cons, left, right, nil_append, append_nil]

/-- Of all indices, those with given positions in the other dimensions are the ones along a
dimension. -/
theorem filter_indices {dim : Nat} {others : List Int} (lt : dim < extents.length)
    (mem : others ∈ indices (extents.eraseIdx dim)) :
    (indices extents).filter (fun index => index.eraseIdx dim = others) =
      fibre extents dim others := by
  induction extents generalizing dim others with
  | nil => exact absurd lt (Nat.not_lt_zero _)
  | cons extent extents ih =>
    rw [indices, filter_flatMap]
    cases dim with
    | zero =>
      rw [flatMap_eq_of_nodup (nodup_indices extents) mem]
      · simp [filter_map, Function.comp_def, fibre]
      · intro o _ different
        simp [filter_map, Function.comp_def, different]
    | succ dim =>
      obtain ⟨position, b, rfl, positionListed, laterListed⟩ := mem_indices_cons.1 mem
      have row (o : List Int) : ((positions extent).map (· :: o)).filter
            (fun index => index.eraseIdx (dim + 1) = position :: b) =
          if o.eraseIdx dim = b then [position :: o] else [] := by
        have once : (positions extent).filter (fun first => first = position) = [position] := by
          rw [filter_eq, count_eq_one_of_mem (nodup_positions extent) positionListed]
          rfl
        by_cases same : o.eraseIdx dim = b
        · simp [filter_map, Function.comp_def, same, once]
        · simp [filter_map, Function.comp_def, same]
      have rows (items : List (List Int)) :
          items.flatMap (fun o => if o.eraseIdx dim = b then [position :: o] else []) =
            (items.filter fun o => o.eraseIdx dim = b).map (position :: ·) := by
        induction items with
        | nil => rfl
        | cons first rest ih => by_cases same : first.eraseIdx dim = b <;> simp [same, ih]
      simp only [row, rows]
      rw [ih (Nat.lt_of_succ_lt_succ lt) laterListed]
      simp [fibre]

end Grid

/-! ## Counted loops -/

namespace Memory

variable {counter : SymbolId} {step : Memory → Option Memory}

/-- What each of some iterations carries on by one, all of them carry on to their number. -/
theorem iterate_rule {times : Nat} {kept : Nat → Memory → Prop}
    (advance : ∀ done mem, done < times → kept done mem →
      ∃ next, step (mem.setScalar counter (.integer (done + 1))) = some next ∧ kept (done + 1) next)
    {mem : Memory} (start : kept 0 mem) :
    ∃ last final, iterate counter 1 step times 1 mem = some (final.setScalar counter last) ∧
    kept times final := by
  suffices rest : ∀ remaining done mem, done + remaining = times → kept done mem →
      ∃ last final, iterate counter 1 step remaining (done + 1) mem =
        some (final.setScalar counter last) ∧ kept times final by
    exact rest times 0 mem (Nat.zero_add times) start
  intro remaining
  induction remaining with
  | zero =>
    intro done mem counted here
    cases counted
    exact ⟨_, mem, rfl, here⟩
  | succ remaining ih =>
    intro done mem counted here
    obtain ⟨next, stepped, there⟩ := advance done mem (by omega) here
    obtain ⟨last, final, ran, finished⟩ := ih (done + 1) next (by omega) there
    refine ⟨last, final, ?_, finished⟩
    rw [iterate, stepped]
    exact_mod_cast ran

theorem index?_congr {mem o : Memory}
    (same : ∀ counter ∈ counters, mem.scalar counter = o.scalar counter) :
    mem.index? counters = o.index? counters := by
  induction counters with
  | nil => rfl
  | cons counter rest ih =>
    simp only [index?, mapM_cons] at ih ⊢
    rw [same counter (.head _), ih fun b listed => same b (.tail _ listed)]

theorem index?_eraseIdx (counted : mem.index? vars = some index) (dim : Nat) :
    mem.index? (vars.eraseIdx dim) = some (index.eraseIdx dim) := by
  induction vars generalizing index dim with
  | nil =>
    cases counted
    rfl
  | cons counter rest ih =>
    simp only [index?, mapM_cons, Option.bind_eq_bind, Option.bind_eq_some_iff] at counted
    obtain ⟨position, ⟨constant, held, whole⟩, b, there, same⟩ := counted
    cases same
    cases dim with
    | zero => exact there
    | succ dim =>
      have tail := ih there dim
      simp only [index?] at tail
      simp [index?, held, whole, tail]

/-- What a step carries on by one index, a nest of loops carries on to all indices of the array. -/
theorem nest_rule {array : SymbolId} {vars : List SymbolId} {extents : List Nat} {dim : Nat}
    {kept : List (List Int) → Memory → Prop} (counted : 1 ≤ dim) (distinct : vars.Nodup)
    (paired : vars.length = extents.length) (sizes : ∀ done mem, kept done mem →
      ∃ grid, mem.array array = some grid ∧ grid.extents.drop (dim - 1) = extents)
    (stable : ∀ done mem, kept done mem → ∀ counter ∈ vars, ∀ v,
      kept done (mem.setScalar counter v))
    (advance : ∀ done index mem, index ∈ Grid.indices extents → mem.index? vars = some index →
      kept done mem → ∃ next, step mem = some next ∧
        (∀ counter ∈ vars, next.scalar counter = mem.scalar counter) ∧ kept (done ++ [index]) next)
    {mem : Memory} (start : kept [] mem) :
    ∃ final, nest array dim vars step mem = some final ∧ kept (Grid.indices extents) final := by
  induction vars generalizing extents dim step kept with
  | nil =>
    cases extents with
    | cons extent extents => cases paired
    | nil =>
      obtain ⟨next, stepped, -, there⟩ := advance [] [] mem (.head _) rfl start
      exact ⟨next, stepped, there⟩
  | cons counter rest ih =>
    cases extents with
    | nil => cases paired
    | cons extent extents =>
      obtain ⟨fresh, distinctRest⟩ := nodup_cons.1 distinct
      have apart (o : SymbolId) (member : o ∈ rest) : o ≠ counter :=
        fun same => fresh (same ▸ member)
      -- the outer loops visit the later positions, and for each of them the inner one all first
      -- positions
      let row (b : List Int) : List (List Int) := (Grid.positions extent).map (· :: b)
      refine @ih _ extents (dim + 1) (fun done => kept (done.flatMap row)) (Nat.le_add_left 1 dim)
        distinctRest (Nat.succ.inj paired) ?_ ?_ ?_ start
      · intro done mem here
        obtain ⟨grid, h, dims⟩ := sizes _ mem here
        refine ⟨grid, h, ?_⟩
        have rest := congrArg tail dims
        rwa [tail_drop, Nat.sub_add_cancel counted] at rest
      · intro done mem here o listed v
        exact stable _ mem here o (.tail _ listed) v
      · intro done b mem listed held here
        obtain ⟨grid, h, dims⟩ := sizes _ mem here
        have sized : grid.extent? dim = some extent := by
          have first := congrArg head? dims
          rw [head?_drop] at first
          rw [Grid.extent?, if_pos (by exact_mod_cast counted)]
          simpa using first
        have inner := @iterate_rule counter step extent
          (fun count state => kept (done.flatMap row ++ (Grid.positions count).map (· :: b)) state ∧
            ∀ o ∈ rest, state.scalar o = mem.scalar o) ?_ mem
          ⟨by simpa [Grid.positions] using here, fun _ _ => rfl⟩
        · obtain ⟨last, final, ran, finished, same⟩ := inner
          refine ⟨final.setScalar counter last, by simp [h, sized, ran], fun o member => ?_, ?_⟩
          · rw [setScalar_of_ne final last (apart o member)]
            exact same o member
          · simpa [row] using stable _ final finished counter (.head _) last
        · rintro count state below ⟨here, same⟩
          let entered := state.setScalar counter (.integer (count + 1))
          have others (o : SymbolId) (member : o ∈ rest) : entered.scalar o = mem.scalar o :=
            (setScalar_of_ne state _ (apart o member)).trans (same o member)
          have atIndex : entered.index? (counter :: rest) = some (((count : Int) + 1) :: b) := by
            have tail := (index?_congr others).trans held
            simp only [index?, mapM_cons] at tail ⊢
            simp [tail, entered, Constant.integer?]
          have position : ((count : Int) + 1) ∈ Grid.positions extent :=
            Grid.mem_positions.2 ⟨by omega, by omega⟩
          obtain ⟨next, stepped, keeps, there⟩ := advance _ _ entered
            (Grid.mem_indices_cons.2 ⟨_, b, rfl, position, listed⟩) atIndex
            (stable _ state here counter (.head _) _)
          refine ⟨next, stepped, ?_, fun o member => ?_⟩
          · simpa [Grid.positions_succ] using there
          · exact (keeps o (.tail _ member)).trans (others o member)

end Memory

end FortranSemantics
