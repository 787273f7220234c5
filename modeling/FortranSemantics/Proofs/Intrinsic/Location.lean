import FortranSemantics.Proofs.Arena.TypeShape
import FortranSemantics.Proofs.Intrinsic.Procedure
import FortranSemantics.Proofs.Intrinsic.Reduction

/-!
# Generated searches

A call that asks for the place of the greatest or the least element of an array of integers has a
generated procedure. Whatever arguments it is given, running its body leaves the subscripts of the
first such element in array element order among the selected ones, and zeros when none is selected.
-/

namespace FortranSemantics

open List Arena

variable {mem : Memory} {ops : Operands} {greatest : Bool} {i : List Int}

/-! ## First extremes -/

namespace Operands

/-- The integer at an index. -/
def number (ops : Operands) (index : List Int) : Int :=
  (ops.data.item index).integer?.getD 0

/-- Whether the element at an index is greater, or less, than the one at another index. -/
def Beats (ops : Operands) (greatest : Bool) (index other : List Int) : Prop :=
  if greatest then ops.number other < ops.number index else ops.number index < ops.number other

/-- Whether an index is the first one among the selected ones of some indices whose element no other
one beats. -/
def FirstBest (ops : Operands) (greatest : Bool) (indices : List (List Int))
    (index : List Int) : Prop :=
  ∃ before after, indices.filter ops.selects = before ++ index :: after ∧
    (∀ other ∈ before, ops.Beats greatest index other) ∧ ∀ other ∈ after,
    ¬ ops.Beats greatest other index

/-- What a search through some indices leaves: the first best index, or zeros when no index is
selected. -/
def Located (ops : Operands) (greatest : Bool) (indices : List (List Int))
    (place : List Int) : Prop :=
  ops.FirstBest greatest indices place ∨
    indices.filter ops.selects = [] ∧ place = replicate ops.data.extents.length 0

variable {done : List (List Int)} {place other : List Int}

theorem Beats.trans (beats : ops.Beats greatest i place) (not : ¬ ops.Beats greatest other place) :
    ops.Beats greatest i other := by
  unfold Beats at *
  split at beats <;> simp_all <;> omega

theorem Beats.asymm (beats : ops.Beats greatest i place) : ¬ ops.Beats greatest place i := by
  unfold Beats at *
  split at beats <;> simp_all <;> omega

theorem FirstBest.isIn (isFirst : ops.FirstBest greatest done place) : place ∈ done := by
  obtain ⟨pre, after, same, -⟩ := isFirst
  exact mem_of_mem_filter (same ▸ mem_append_right _ (.head _))

theorem Located.skip (located : ops.Located greatest done place) (skipped : ops.selects i = false) :
    ops.Located greatest (done ++ [i]) place := by
  unfold Located FirstBest at *
  simpa [skipped] using located

variable (selected : ops.selects i = true)

include selected

theorem firstBest_append_of_nil (empty : done.filter ops.selects = []) :
    ops.FirstBest greatest (done ++ [i]) i :=
  ⟨[], [], by simp [empty, selected], nofun, nofun⟩

theorem FirstBest.keep (isFirst : ops.FirstBest greatest done place)
    (not : ¬ ops.Beats greatest i place) : ops.FirstBest greatest (done ++ [i]) place := by
  obtain ⟨pre, after, same, earlier, b⟩ := isFirst
  refine ⟨pre, after ++ [i], by simp [same, selected], earlier, fun other listed => ?_⟩
  rcases mem_append.1 listed with listed | listed
  · exact b other listed
  · exact mem_singleton.1 listed ▸ not

theorem FirstBest.replace (isFirst : ops.FirstBest greatest done place)
    (beats : ops.Beats greatest i place) : ops.FirstBest greatest (done ++ [i]) i := by
  obtain ⟨pre, after, same, earlier, b⟩ := isFirst
  refine ⟨pre ++ place :: after, [], by simp [same, selected], fun other listed => ?_, nofun⟩
  rcases mem_append.1 listed with listed | listed
  · exact beats.trans (earlier other listed).asymm
  · rcases mem_cons.1 listed with rfl | listed
    · exact beats
    · exact beats.trans (b other listed)

end Operands

/-! ## Vectors in memory -/

namespace Memory

variable {α : Type} {symbol : SymbolId} {vars : List SymbolId}

/-- Whether an array is a vector of the given integers. -/
def HoldsVector (mem : Memory) (symbol : SymbolId) (values : List Int) : Prop :=
  ∃ grid, mem.array symbol = some grid ∧ grid.extents = [values.length] ∧
    ∀ position : Nat, position < values.length → grid.item [(position : Int) + 1] = .integer
    (values.getD position 0)

/-- Writing to some elements of a vector, one after another, changes these and nothing else. -/
theorem exists_writes {items : List α} {position : α → Nat}
    {effect : Memory → α → Option Memory} {grid : Grid}
    {count : Nat} (v : Nat → Int) (h : mem.array symbol = some grid)
    (extents : grid.extents = [count])
    (lt : ∀ item ∈ items, 1 ≤ position item ∧ position item ≤ count)
    (effects : ∀ item ∈ items, ∀ other : Memory, other.scalar = mem.scalar →
      effect other item = other.setItem? symbol [(position item : Int)]
      (.integer (v (position item)))) :
    ∃ last : Grid, items.foldlM effect mem =
        some { mem with array := Function.update mem.array symbol (some last) } ∧
        last.extents = [count] ∧
      ∀ number : Nat, last.item [(number : Int)] =
        if number ∈ items.map position then
        .integer (v number) else grid.item [(number : Int)] := by
  induction items generalizing mem grid with
  | nil => exact ⟨grid, by simp [← h], extents, fun _ => rfl⟩
  | cons item items ih =>
    have bounds := lt item (.head _)
    let next : Grid :=
      { grid with
        item := Function.update grid.item [(position item : Int)] (.integer (v (position item))) }
    let mid : Memory := { mem with array := Function.update mem.array symbol (some next) }
    have first : effect mem item = some mid := by
      rw [effects item (.head _) mem rfl]
      simp [setItem?, h, Grid.setItem?, extents, Grid.inside, bounds, next, mid]
    obtain ⟨last, ran, lastExtents, written⟩ := @ih mid next (Function.update_self ..) extents
      (fun other listed => lt other (.tail _ listed))
      (fun other listed => effects other (.tail _ listed))
    refine ⟨last, ?_, lastExtents, fun number => ?_⟩
    · rw [foldlM_cons, first]
      simpa [mid] using ran
    · rw [written, map_cons]
      by_cases b : number ∈ items.map position
      · rw [if_pos b, if_pos (.tail _ b)]
      · rw [if_neg b]
        by_cases same : number = position item
        · simp [next, same]
        · rw [if_neg (by simp [same, b])]
          exact Function.update_of_ne (by simpa using same) ..

/-- A vector is filled by writing to all its elements. -/
theorem exists_filled {items : List α} {position : α → Nat} {values : List Int}
    {effect : Memory → α → Option Memory}
    (held : ∃ grid, mem.array symbol = some grid ∧ grid.extents = [values.length])
    (all : items.map position = range' 1 values.length)
    (effects : ∀ item ∈ items, ∀ other : Memory, other.scalar = mem.scalar →
      effect other item = other.setItem? symbol [(position item : Int)]
      (.integer (values.getD (position item - 1) 0))) :
    ∃ last : Grid, items.foldlM effect mem =
    some { mem with array := Function.update mem.array symbol (some last) } ∧
      HoldsVector { mem with array := Function.update mem.array symbol (some last) }
      symbol values := by
  obtain ⟨grid, h, extents⟩ := held
  have lt (item : α) (listed : item ∈ items) : 1 ≤ position item ∧
      position item ≤ values.length := by
    have member := mem_map_of_mem (f := position) listed
    rw [all, mem_range'_1] at member
    omega
  obtain ⟨last, ran, lastExtents, written⟩ :=
    exists_writes (fun number => values.getD (number - 1) 0) h extents lt effects
  refine ⟨last, ran, last, Function.update_self .., lastExtents, fun number below => ?_⟩
  have here := written (number + 1)
  rw [all, if_pos (mem_range'_1.2 (by omega))] at here
  exact_mod_cast here

theorem forall₂_of_index? (counted : mem.index? counters = some i) :
    List.Forall₂ (fun counter position => mem.scalar counter = some (.integer position))
    counters i := by
  induction counters generalizing i with
  | nil =>
    cases counted
    exact .nil
  | cons counter rest ih =>
    simp only [index?, mapM_cons, Option.bind_eq_bind, Option.bind_eq_some_iff] at counted
    obtain ⟨position, ⟨constant, held, whole⟩, b, there, same⟩ := counted
    cases same
    cases constant <;> cases whole
    exact .cons held (ih there)

/-- Writes the value of a counter to an element of a vector. -/
def writeCounter (vector : SymbolId) (mem : Memory) (entry : SymbolId × Nat) : Option Memory :=
  (mem.scalar entry.1).bind (mem.setItem? vector [(entry.2 : Int)])

/-- Writing the values of counters to a vector makes it the index that they give. -/
theorem exists_writeCounters (counted : mem.index? counters = some i)
    (held : ∃ grid, mem.array symbol = some grid ∧ grid.extents = [i.length]) :
    ∃ last : Grid, (counters.zipIdx 1).foldlM (writeCounter symbol) mem =
        some { mem with array := Function.update mem.array symbol (some last) } ∧
      HoldsVector { mem with array := Function.update mem.array symbol (some last) } symbol i := by
  have integers := forall₂_of_index? counted
  refine @exists_filled mem _ symbol _ Prod.snd i _ held ?_ fun e listed state same => ?_
  · rw [zipIdx_map_snd, integers.length_eq]
  · obtain ⟨-, here⟩ := List.mem_zipIdx_iff_le_and_getElem?_sub.1 listed
    obtain ⟨lt, here⟩ := List.getElem?_eq_some_iff.1 here
    have both := (List.forall₂_iff_get.1 integers).2 (e.2 - 1) lt (integers.length_eq ▸ lt)
    rw [get_eq_getElem, here, get_eq_getElem] at both
    rw [writeCounter, same, both, getD_eq_getElem _ _ (integers.length_eq ▸ lt)]
    rfl

end Memory

/-! ## The search -/

/-- Some statements are built one after another, and run so. -/
theorem Edit.Builds.statements {α : Type} {a : Arena} {items : List α} {build : α → Edit Stmt}
    (effect : Memory → α → Option Memory)
    (each : ∀ item ∈ items, ∀ after, a.Grows after → (build item).Builds after fun stmt final =>
      ∀ b, final.Prefixes b → ∀ mem, b.run stmt mem = effect mem item) :
    Edit.Builds (items.mapM build) a fun stmts after => ∀ b, after.Prefixes b → ∀ mem,
      b.runAll stmts mem = items.foldlM effect mem := by
  induction items generalizing a with
  | nil => exact .pure fun _ _ _ => rfl
  | cons item items ih =>
    rw [mapM_cons]
    refine .bind (each item (.head _) a (.refl a)) fun stmt first grown runs => ?_
    refine .bind (ih fun other listed after more => each other (.tail _ listed) after
      (grown.trans more)) fun stmts second grownMore runsAll => ?_
    refine .pure fun b more mem => ?_
    simp only [runAll, runs b (grownMore.exprs.trans more), foldlM_cons, funext (runsAll b more)]

theorem Arena.Means.exists_type {a : Arena} {id : ExprId} (means : a.Means id meaning) : ∃ ty,
    a.exprType id = .ok ty :=
  ⟨_, Intrinsic.Frame.exprType_of_form (Array.getElem?_eq_getElem means.1)⟩

/-- The intrinsic that finds the greatest or the least element. -/
def ArrayIntrinsic.location (greatest : Bool) : ArrayIntrinsic :=
  if greatest then .maxLoc else .minLoc

namespace Intrinsic

variable {a : Arena} {kind : Nat} {array best result : SymbolId} {mask : Option SymbolId}
  {vars : List SymbolId} {resultType : Ty} (frame : Frame)
  (prepared : Prepared a .maxVal kind array mask vars)
  (bestDeclared : a.Declared best (.integer kind)) (resultDeclared : a.Declared result resultType)

include prepared bestDeclared resultDeclared

/-- The step of a search is built, and takes an element that is better than the best one so far, or
the first one. -/
theorem searchStep_builds : (searchStep frame (.location greatest) array best result vars).Builds a
    fun step after => ∀ b, after.Prefixes b → ∀ mem (v held first : Int),
      (Place.item array vars).read mem = some (.integer v) → mem.scalar best = some
      (.integer held) →
        (mem.array result).bind (·.item? [1]) = some (.integer first) → b.run step mem =
          if (if greatest then held < v else v < held) ∨ first = 0 then
            (vars.zipIdx 1).foldlM (Memory.writeCounter result)
              (mem.setScalar best (.integer v)) else some mem := by
  obtain ⟨arrayType, declared, -⟩ := prepared.array
  refine .bind (frame.item_builds declared prepared.counters) ?_
  rintro item one toOne ⟨itemStands, -⟩
  refine .bind (frame.var_builds (bestDeclared.grows toOne)) ?_
  rintro held two toTwo ⟨heldStands, -⟩
  refine .bind (frame.compare_builds (itemStands.means.grows toTwo) heldStands.means _)
    fun better three toThree betterMeans => ?_
  have led := (toOne.trans toTwo).trans toThree
  refine .bind (frame.literalItem_builds (resultDeclared.grows led) 1)
    fun first four toFour firstStands => ?_
  refine .bind (frame.integer_builds 0) fun zero five toFive zeroMeans => ?_
  refine .bind (frame.compare_builds (firstStands.means.grows toFive) zeroMeans .eq)
    fun unset six toSix unsetMeans => ?_
  have since := (toFour.trans toFive).trans toSix
  obtain ⟨_, typed⟩ := (betterMeans.grows since).exists_type
  refine .bind (frame.logical_builds (betterMeans.grows since) unsetMeans .or typed)
    fun cond seven toSeven condMeans => ?_
  have led := (led.trans since).trans toSeven
  refine .bind (frame.var_builds (bestDeclared.grows led)) ?_
  rintro target eight toEight ⟨targetStands, -⟩
  have led := led.trans toEight
  refine .bind (frame.item_builds (declared.grows led) fun counter listed =>
    (prepared.counters counter listed).grows led) ?_
  rintro taken nine toNine ⟨takenStands, -⟩
  have led := led.trans toNine
  refine .bind (.statements (Memory.writeCounter result) fun pair listed after grown => ?_)
    fun places ten toTen placesRun => ?_
  · refine .bind (frame.literalItem_builds ((resultDeclared.grows led).grows grown) _)
      fun place first toFirst st => ?_
    have integer := prepared.counters pair.1 (fst_mem_of_mem_zipIdx listed)
    refine .bind (frame.var_builds (((integer.grows led).grows grown).grows toFirst)) ?_
    rintro v second toSecond ⟨counterStands, -⟩
    exact .pure fun b more mem => run_assignment (st.grows toSecond) counterStands.means more mem
  · refine .pure fun b more mem v held first itemHere heldHere firstHere => ?_
    let replaces : Bool := decide (if greatest then held < v else v < held)
    have compared : Folding.compare
        (if ArrayIntrinsic.location greatest = .maxLoc then .gt else .lt) (.integer v)
        (.integer held) = some (.logical replaces) := by
      cases greatest with
      | true => exact congrArg (some ∘ Constant.logical) (holds_gt v held)
      | false => exact congrArg (some ∘ Constant.logical) (holds_lt v held)
    have isUnset : Folding.compare .eq (.integer first) (.integer 0) = some
        (.logical (decide (first = 0))) :=
      congrArg (some ∘ Constant.logical) (holds_eq first 0)
    have grown := (toEight.trans toNine).trans toTen
    refine (run_branch (condMeans.grows grown) more _ _
      (?_ : _ = some (Constant.logical (replaces || decide (first = 0))))).trans ?_
    · have heldHere : (Place.var best).read mem = some (.integer held) := heldHere
      simp only [itemHere, heldHere, firstHere, Option.bind_eq_bind, Option.bind_some,
        compared, isUnset]
      rfl
    · simp only [replaces, Bool.or_eq_true, decide_eq_true_eq, runAll]
      refine if_congr Iff.rfl ?_ rfl
      rw [run_assignment (targetStands.grows (toNine.trans toTen)) (takenStands.means.grows toTen)
        more, itemHere]
      exact placesRun b more _

omit prepared bestDeclared resultDeclared

/-- What holds after a search has visited some indices: the best value so far is kept, and the
result is its place. -/
structure Searched (mem : Memory) (ops : Operands) (greatest : Bool) (array : SymbolId)
    (mask : Option SymbolId) (best result : SymbolId) (done : List (List Int)) : Prop where
  holding : Holding mem ops array mask
  visited : done ⊆ Grid.indices ops.data.extents
  result : ∃ place value, mem.HoldsVector result place ∧ place.length = ops.data.extents.length ∧
    mem.scalar best = some (.integer value) ∧ ops.Located greatest done place ∧
    (ops.FirstBest greatest done place → ops.number place = value)

theorem one_le_of_mem_indices (mem : i ∈ Grid.indices extents) (positive : 0 < extents.length) :
    1 ≤ i.getD 0 0 := by
  cases extents with
  | nil => cases positive
  | cons extent extents =>
    obtain ⟨position, b, rfl, lt, -⟩ := Grid.mem_indices_cons.1 mem
    exact (Grid.mem_positions.1 lt).1

variable {done : List (List Int)} {step : Memory → Option Memory}

theorem Searched.advance (searched : Searched mem ops greatest array mask best result done)
    (fit : ops.Fit .maxVal kind) (apart : best ∉ vars) (other : array ≠ result)
    (unmasked : result ∉ mask)
    (positive : 0 < ops.data.extents.length) (listed : i ∈ Grid.indices ops.data.extents)
    (counted : mem.index? vars = some i) (rank : vars.length = ops.data.extents.length)
    (steps : ∀ v held first : Int, (Place.item array vars).read mem = some (.integer v) →
      mem.scalar best = some (.integer held) →
      (mem.array result).bind (·.item? [1]) = some (.integer first) →
        step mem = if ops.selects i then
        if (if greatest then held < v else v < held) ∨ first = 0 then
            (vars.zipIdx 1).foldlM (Memory.writeCounter result)
              (mem.setScalar best (.integer v)) else some mem
        else
        some mem) : ∃ next, step mem = some next ∧
        (∀ counter ∈ vars, next.scalar counter = mem.scalar counter) ∧
      Searched next ops greatest array mask best result (done ++ [i]) := by
  obtain ⟨place, v, holds, length, held, located, isBest⟩ := searched.result
  have visited : done ++ [i] ⊆ Grid.indices ops.data.extents :=
    append_subset.2 ⟨searched.visited, cons_subset.2 ⟨listed, nil_subset _⟩⟩
  obtain ⟨number, isNumber⟩ := Constant.exists_integer (fit.data i listed)
  have numbered : ops.number i = number := by
    rw [Operands.number, isNumber]
    rfl
  have read := (Place.read_item counted searched.holding.data listed).trans (congrArg some isNumber)
  have first : (mem.array result).bind (·.item? [1]) = some (.integer (place.getD 0 0)) := by
    obtain ⟨grid, h, extents, items⟩ := holds
    have inside : Grid.inside grid.extents [1] = true := by
      rw [extents, length]
      simpa [Grid.inside] using Nat.succ_le_of_lt positive
    rw [h, Option.bind_some, Grid.item?, if_pos inside]
    exact congrArg some (items 0 (length ▸ positive))
  have stepped := steps number v (place.getD 0 0) read held first
  by_cases selected : ops.selects i = true
  · rw [if_pos selected] at stepped
    -- the element is taken when it beats the best one or is the first one
    by_cases taken : (if greatest then v < number else number < v) ∨ place.getD 0 0 = 0
    · rw [if_pos taken] at stepped
      have different (counter : SymbolId) (member : counter ∈ vars) : counter ≠ best :=
        fun isBest => apart (isBest ▸ member)
      have indexLength : i.length = ops.data.extents.length :=
        (Memory.forall₂_of_index? counted).length_eq.symm.trans rank
      obtain ⟨last, filled, holdsIndex⟩ :=
        @Memory.exists_writeCounters (mem.setScalar best (.integer number)) i result vars
        ((Memory.index?_congr fun counter member => Memory.setScalar_of_ne mem _
          (different counter member)).trans counted)
        (by obtain ⟨grid, h, extents, -⟩ := holds; exact ⟨grid, h, by
          rw [extents, length, indexLength]⟩)
      refine ⟨_, stepped.trans filled, fun counter member => ?_,
        (searched.holding.setScalar _ _).setArray other unmasked _,
        visited, i, number, holdsIndex, indexLength, Memory.setScalar_self .., .inl ?_,
        fun _ => numbered⟩
      · exact Memory.setScalar_of_ne mem _ (different counter member)
      · rcases located with isFirst | ⟨empty, -⟩
        · refine isFirst.replace selected ?_
          have set := one_le_of_mem_indices (searched.visited isFirst.isIn) positive
          rw [Operands.Beats, numbered, isBest isFirst]
          exact taken.resolve_right (by omega)
        · exact Operands.firstBest_append_of_nil selected empty
    · rw [if_neg taken] at stepped
      refine ⟨mem, stepped, fun _ _ => rfl, searched.holding, visited, place, v, holds, length,
        held, ?_⟩
      rcases located with isFirst | ⟨-, zeros⟩
      · refine ⟨.inl (isFirst.keep selected ?_), fun _ => isBest isFirst⟩
        rw [Operands.Beats, numbered, isBest isFirst]
        exact fun beats => taken (.inl beats)
      · exact absurd (.inr (by simp [zeros, positive])) taken
  · have skipped := Bool.eq_false_of_not_eq_true selected
    rw [if_neg selected] at stepped
    refine ⟨mem, stepped, fun _ _ => rfl, searched.holding, visited, place, v, holds, length, held,
      located.skip skipped, fun isFirst => isBest ?_⟩
    obtain ⟨pre, after, same, order⟩ := isFirst
    exact ⟨pre, after, by simpa [skipped] using same, order⟩

theorem Searched.start (holding : Holding mem ops array mask)
    (held : mem.scalar best = some (.integer v))
    (zeros : mem.HoldsVector result (replicate ops.data.extents.length 0)) :
    Searched mem ops greatest array mask best result [] where
  holding := holding
  visited := nil_subset _
  result := by
    refine ⟨_, v, zeros, length_replicate, held, .inr ⟨rfl, rfl⟩, ?_⟩
    rintro ⟨pre, after, same, -⟩
    cases pre <;> cases same

/-- Whether running some statements leaves in the result the place of the first best element. -/
def Finds (arena : Arena) (body : List Stmt) (greatest : Bool) (kind rank : Nat) (array : SymbolId)
    (mask : Option SymbolId) (result : SymbolId) : Prop :=
  ∀ mem ops, Operands.Fit ops .maxVal kind → ops.data.extents.length = rank →
    Holding mem ops array mask → (∃ grid, mem.array result = some grid ∧ grid.extents = [rank]) →
      ∃ final place, arena.runAll body mem = some final ∧ final.HoldsVector result place ∧
      place.length = rank ∧
        ops.Located greatest (Grid.indices ops.data.extents) place

include prepared bestDeclared resultDeclared

/-- A search through an array is built, and finds the first best element. -/
theorem search_builds (positive : 0 < vars.length) (apart : best ∉ vars) (other : array ≠ result)
    (unmasked : result ∉ mask) : Edit.Builds (do
      let start ← startStmt frame (.location greatest) (.var best) (.integer kind)
      let zeros ← (range vars.length).mapM fun (i : Nat) => do
        let target ← frame.literalItem result (i + 1 : Nat)
        let zero ← frame.integer 0
        return Stmt.assignment target zero
      let step ← searchStep frame (.location greatest) array best result vars
      let step ← masked frame mask vars step
      let loops ← frame.loops vars array [step]
      return [start] ++ zeros ++ loops) a fun stmts after => ∀ b, after.Prefixes b →
        Finds b stmts greatest kind vars.length array mask result := by
  refine .bind (@startStmt_builds _ _ (.var best) _ frame ⟨_, bestDeclared, rfl⟩ rfl)
    fun start one toOne starts => ?_
  refine .bind (.statements
    (fun mem (i : Nat) => mem.setItem? result [((i + 1 : Nat) : Int)] (.integer 0))
    fun i listed after grown => ?_) fun zeros two toTwo zerosRun => ?_
  · refine .bind (frame.literalItem_builds ((resultDeclared.grows toOne).grows grown) _)
      fun target first toFirst st => ?_
    refine .bind (frame.integer_builds 0) fun zero second toSecond means => ?_
    exact .pure fun b more mem => run_assignment (st.grows toSecond) means more mem
  have led := toOne.trans toTwo
  refine .bind (@searchStep_builds greatest _ _ _ _ _ _ _ _ frame (prepared.grows led)
    (bestDeclared.grows led) (resultDeclared.grows led)) fun step three toThree steps => ?_
  have led := led.trans toThree
  refine .bind (masked_builds frame step (prepared.grows led)) fun guarded four toFour guards => ?_
  have prepared := (prepared.grows led).grows toFour
  obtain ⟨arrayType, declared, -⟩ := prepared.array
  refine .bind (frame.loopsFrom_builds 1 [guarded] declared prepared.counters)
    fun loops five toFive runs => ?_
  refine .pure fun b more mem ops fit rank holding shaped => ?_
  have moreFour := toFive.exprs.trans more
  have moreThree := toFour.exprs.trans moreFour
  have moreTwo := toThree.exprs.trans moreThree
  -- the best value starts from any integer, and its place from zeros
  obtain ⟨v, isInteger⟩ : ∃ v, startValue (.location greatest) (.integer kind) = .integer v := by
    cases greatest <;> exact ⟨_, rfl⟩
  have opening : b.run start mem = some (mem.setScalar best (.integer v)) :=
    isInteger ▸ starts b (toTwo.exprs.trans moreTwo) mem
  obtain ⟨last, filled, zeroed⟩ := @Memory.exists_filled (mem.setScalar best (.integer v)) _ result
    (range vars.length) (· + 1) (replicate vars.length 0)
    (fun mem i => mem.setItem? result [((i + 1 : Nat) : Int)] (.integer 0))
    (by rwa [length_replicate])
    (by rw [length_replicate, range'_eq_map_range]; exact map_congr_left fun _ _ => Nat.add_comm ..)
    (fun i listed state _ => by simp [mem_range.1 listed])
  have nest := @Memory.nest_rule (b.runAll [guarded]) array vars ops.data.extents 1
    (fun done state => Searched state ops greatest array mask best result done) le_rfl
    prepared.distinct rank.symm
    (fun _ state searched => ⟨ops.data, searched.holding.data, rfl⟩) ?_ ?_ _
    (.start ((holding.setScalar _ _).setArray other unmasked (some last)) (Memory.setScalar_self ..)
      (rank ▸ zeroed))
  · obtain ⟨final, ran, searched⟩ := nest
    obtain ⟨place, -, holds, length, -, located, -⟩ := searched.result
    refine ⟨final, place, ?_, holds, length.trans rank, located⟩
    rw [append_assoc, runAll_append, runAll_singleton, opening, Option.bind_some, runAll_append,
      zerosRun b moreTwo, filled, Option.bind_some, runs b more]
    exact ran
  · intro done state searched counter listed content
    refine ⟨searched.holding.setScalar _ _, searched.visited, ?_⟩
    obtain ⟨place, v, holds, length, held, rest⟩ := searched.result
    have different : best ≠ counter := fun same => apart (same ▸ listed)
    exact ⟨place, v, holds, length, (Memory.setScalar_of_ne state _ different).trans held, rest⟩
  · intro done i state listed counted searched
    refine searched.advance fit apart other unmasked (rank ▸ positive) listed counted rank.symm
      fun v held first isItem hh isFirst => ?_
    rw [runAll_singleton, guards b moreFour state ops i fit searched.holding counted listed,
      steps b moreThree state v held first isItem hh isFirst]

end Intrinsic

/-! ## Calls -/

open Intrinsic

/-- A call that asks for the place of the greatest or least element of an array of integers, by its
types. -/
structure LocationCall where
  greatest : Bool
  /-- The kind of the elements. -/
  kind : Nat
  data : Ty
  mask : Option Ty
  result : Ty
  isArray : data.isArray = true
  element : data.element = .integer kind
  maskShape : ∀ type ∈ mask, type.isLogical = true ∧ type.rank = data.rank
  vector : result.rank = 1

namespace LocationCall

variable (call : LocationCall)

/-- What identifies the procedure that is generated for a call. -/
def key : HelperKey where
  intrinsic := .location call.greatest
  category := .integer
  kind := call.kind
  rank := call.data.rank
  overload := if call.mask.isSome then .arrayMask else .array

/-- The types of the arguments of a call. -/
def argTypes : List Ty :=
  call.data :: call.mask.toList

theorem length_helperDummies : (helperDummies call.key).length = call.argTypes.length := by
  unfold helperDummies key argTypes ArrayIntrinsic.location
  cases call.mask <;> cases call.greatest <;> rfl

/-- The body of a generated search is built, and finds the first best element. -/
theorem exists_helperBody {frame : Frame} {pre : Arena} {ds : List SymbolId}
    {result : SymbolId} (ready : Ready pre frame call.argTypes call.result ds result) :
    ∃ body after, helperBody frame call.key ds result call.result pre = .ok body after ∧
      after.scopes.size = pre.scopes.size ∧ ∀ b, after.Prefixes b →
        ∃ array mask, ds = array :: Option.toList mask ∧ mask.isSome = call.mask.isSome ∧
          Finds b body call.greatest call.kind call.data.rank array mask result := by
  obtain ⟨lt, typed, resultTyped, distinct, older⟩ := ready
  obtain ⟨array, rest, arrayTyped, there, rfl⟩ := forall₂_cons_right_iff.1 typed
  rw [← append_nil call.mask.toList] at there
  obtain ⟨mask, rest, rfl, hasMask, maskTyped, there⟩ := exists_option there
  cases there
  rw [append_nil] at distinct ⊢
  have masks : call.key.overload.hasMask = mask.isSome := by
    rw [hasMask, key]
    cases call.mask <;> rfl
  have isLocation : helperBody frame call.key (array :: mask.toList) result call.result =
      locationBody frame call.key (array :: mask.toList) result := by
    unfold helperBody key ArrayIntrinsic.location
    cases call.greatest <;> rfl
  have el : (Ty.assumedShape call.data.element call.data.rank).element = .integer call.kind := by
    rw [call.element]
    exact Ty.IsElement.element_assumedShape (by trivial) _
  obtain ⟨first, bestMade, moreBest, bestDeclared⟩ :=
    frame.exists_declare lt "best" (.integer call.kind) .localVar
  obtain ⟨second, countersMade, moreCounters, integers⟩ := frame.exists_declareEach
    (fun i : Nat => "i" ++ toString (i + 1)) (fun _ => .integer 4) .localVar (range call.data.rank)
    (moreBest.scopes ▸ lt)
  rw [length_range] at countersMade moreCounters integers
  have kept {symbol : SymbolId} {ty : Ty} (declared : pre.Declared symbol ty) :
      second.Declared symbol ty :=
    moreCounters.declared _ _ (moreBest.declared _ _ declared)
  have length : (row first.symbols.size call.data.rank).length = call.data.rank := by simp [row]
  have apart : (⟨pre.symbols.size⟩ : SymbolId) ∉ row first.symbols.size call.data.rank := by
    intro mem
    obtain ⟨i, range, same⟩ := mem_map.1 mem
    have low := (mem_range'_1.1 range).1
    rw [moreBest.symbols] at low
    cases same
    omega
  have outside : result ∉ array :: mask.toList :=
    fun mem => disjoint_of_nodup_append distinct mem mem_cons_self
  obtain ⟨body, after, ran, grown, finds⟩ := @search_builds call.greatest second call.kind array _
    result mask (row first.symbols.size call.data.rank) _ frame {
      distinct := nodup_row ..
      array := ⟨_, kept arrayTyped, el⟩
      mask := fun symbol mem => (maskTyped symbol mem).imp' _ fun _ declared => kept declared
      counters := ((forall₂_and_left _ _).1
        (integers.imp fun _ _ isInteger => ⟨isInteger, trivial⟩)).1 }
    (moreCounters.declared _ _ bestDeclared) (kept resultTyped)
    (by simpa [row, Ty.isArray] using call.isArray) apart
    (fun same => outside (same ▸ mem_cons_self))
    (fun mem => outside (.tail _ (Option.mem_toList.2 mem)))
  rw [length] at finds ran
  refine ⟨body, after, ?_, ?_, fun b more => ⟨array, mask, rfl, hasMask, finds b more⟩⟩
  · rw [isLocation, locationBody, masks]
    cases mask <;>
    · refine run_bind_eq_ok.2
        ⟨array, pre, rfl, run_bind_eq_ok.2 ⟨_, pre, rfl, run_bind_eq_ok.2 ⟨_, pre,
        Edit.ask_eq_ok.2 ⟨arrayTyped, rfl⟩, ?_⟩⟩⟩
      simp only [el, pure_bind]
      exact run_bind_eq_ok.2 ⟨_, first, bestMade, run_bind_eq_ok.2 ⟨_, second, countersMade, ran⟩⟩
  · rw [grown.others]
    exact moreCounters.scopes.trans moreBest.scopes

/-- For every call that asks for the place of the greatest or the least element of an array of
integers, a procedure is generated whose body leaves the place of the first such element in the
result, whatever the arguments are. -/
theorem generate_locates {arena : Arena} {parent : ScopeId}
    (inRange : parent.index < arena.scopes.size) (span : Span) :
    ∃ helper after info array mask result,
      generate call.key call.argTypes call.result parent span arena = .ok helper after ∧
      after.kind helper = .ok (.function info) ∧ info.args = array :: Option.toList
      mask ++ [result] ∧ info.result = none ∧ info.args.Nodup ∧ mask.isSome = call.mask.isSome ∧
      Finds after info.body call.greatest call.kind call.data.rank array mask result := by
  obtain ⟨helper, after, info, _, result, ran, named, args, scalar, distinct, array, mask, rfl,
    hasMask, finds⟩ :=
    @exists_generate call.key call.argTypes call.result arena parent
      (fun arena body dummies result => ∃ array mask, dummies = array :: Option.toList mask ∧
        mask.isSome = call.mask.isSome ∧ Finds arena body call.greatest call.kind call.data.rank
        array mask result)
      call.length_helperDummies call.exists_helperBody inRange span
  have isSubroutine : info.result = none :=
    Option.not_isSome_iff_eq_none.1 (by rw [scalar, Ty.isScalar, call.vector]; decide)
  rw [isSubroutine, Option.toList_none, List.append_nil] at args
  exact ⟨helper, after, info, array, mask, result, ran, named, args, isSubroutine, args ▸ distinct,
    hasMask, finds⟩

/-! ## A search -/

/-- The place of the greatest element of a matrix of integers of one byte, under a mask. -/
def sampleSearch : LocationCall where
  greatest := true
  kind := 1
  data := .array (.integer 1) [default, default]
  mask := some (.array (.logical 4) [default, default])
  result := .array (.integer 4) [default]
  isArray := rfl
  element := rfl
  maskShape := fun type given => by cases given; decide
  vector := rfl

/-- A matrix of two rows and three columns of the least integer, with a mask that leaves the first
element out. -/
def sampleMatrix : Operands where
  data := ⟨[2, 3], fun _ => .integer (-128)⟩
  mask := some ⟨[2, 3], fun i => .logical (i != [1, 1])⟩

/-- The procedure that is generated for the search leaves the subscripts of the second element of
the first column. -/
theorem generate_locates_least : Arena.empty.root.index < Arena.empty.scopes.size ∧
    ∃ helper after info memory result final,
      generate sampleSearch.key sampleSearch.argTypes sampleSearch.result Arena.empty.root default
      Arena.empty =
        .ok helper after ∧
      after.kind helper = .ok (.function info) ∧ after.runAll info.body memory = some final ∧
      result ∈ info.args ∧ final.HoldsVector result [2, 1] := by
  refine ⟨by decide, ?_⟩
  obtain ⟨helper, after, info, array, mask, result, ran, named, args, -, distinct,
    hasMask, finds⟩ :=
    @generate_locates sampleSearch Arena.empty Arena.empty.root (by decide) default
  obtain ⟨mask, rfl⟩ := Option.isSome_iff_exists.1 hasMask
  rw [args] at distinct
  simp only [Option.toList_some, List.cons_append, List.nil_append, List.nodup_cons, List.mem_cons,
    List.not_mem_nil, or_false, not_or] at distinct
  obtain ⟨⟨maskApart, resultApart⟩, maskResult, -⟩ := distinct
  let memory : Memory := {
    scalar := fun _ => none
    array := fun symbol =>
      if symbol = array then some sampleMatrix.data
      else if symbol = mask then sampleMatrix.mask
      else if symbol = result then some ⟨[2], fun _ => .integer 0⟩
      else none }
  have fit : sampleMatrix.Fit .maxVal 1 := {
    data := fun _ _ => rfl
    shape := fun grid given => by cases given; rfl
    mask := fun grid given _ _ => by cases given; exact ⟨_, rfl⟩ }
  have holding : Holding memory sampleMatrix array (some mask) := {
    present := rfl
    data := if_pos rfl
    mask := fun symbol given => by
      cases given
      exact (if_neg (Ne.symm maskApart)).trans (if_pos rfl) }
  have held : memory.array result = some ⟨[2], fun _ => .integer 0⟩ :=
    (if_neg (Ne.symm resultApart)).trans ((if_neg (Ne.symm maskResult)).trans (if_pos rfl))
  obtain ⟨final, place, finished, holds, -, located⟩ := finds memory sampleMatrix fit rfl holding
    ⟨_, held, rfl⟩
  have selected : (Grid.indices sampleMatrix.data.extents).filter sampleMatrix.selects =
      [[2, 1], [1, 2], [2, 2], [1, 3], [2, 3]] := by decide
  refine ⟨helper, after, info, memory, result, final, ran, named, finished, by simp [args], ?_⟩
  rcases located with ⟨before, rest, split, earlier, -⟩ | ⟨empty, -⟩
  · -- no element is greater than another one, so none stands before the best one
    cases before with
    | nil =>
      rw [selected] at split
      cases split
      exact holds
    | cons other _ => exact absurd (earlier other (.head _)) (lt_irrefl (-128 : Int))
  · rw [selected] at empty
    cases empty

end LocationCall

end FortranSemantics
