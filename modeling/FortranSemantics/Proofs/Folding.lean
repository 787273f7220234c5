import FortranSemantics.Folding
import Mathlib

/-!
# Folding of integer arithmetic

Folding an operation on integers of a kind gives the exact result, brought into the signed range of
the kind by a multiple of its size, and gives nothing exactly where there is no exact result or the
exponent is too large. On arrays the operation is done element by element.
-/

namespace FortranSemantics

variable {result : Constant}

namespace Number

variable {kind : Nat} {value exact : Int}

/-- Whether an integer stands for another one in the signed range of a kind. -/
structure Represents (kind : Nat) (value exact : Int) : Prop where
  low : -2 ^ (8 * kind - 1) ≤ value
  high : value < 2 ^ (8 * kind - 1)
  congruent : value ≡ exact [ZMOD 2 ^ (8 * kind)]

theorem wrapInteger_eq (kind : Nat) (value : Int) :
    wrapInteger kind value = value.bmod (2 ^ integerBits kind) := rfl

theorem wrapInteger_modEq (kind : Nat) (value : Int) :
    wrapInteger kind value ≡ value [ZMOD 2 ^ integerBits kind] := by
  have congruent : wrapInteger kind value ≡ value [ZMOD (2 ^ integerBits kind : Nat)] :=
    Int.bmod_emod
  exact_mod_cast congruent

/-- An integer stands for its wrapped value and for nothing else. -/
theorem represents_iff (known : kind ∈ [1, 2, 4, 8]) : Represents kind value exact ↔
    value = wrapInteger kind exact := by
  have bits : integerBits kind = 8 * kind := by
    simp only [List.mem_cons, List.not_mem_nil, or_false] at known
    rcases known with rfl | rfl | rfl | rfl <;> rfl
  have positive : 0 < 8 * kind := by
    rw [← bits]
    unfold integerBits
    split <;> decide
  have size : ((2 ^ (8 * kind) : Nat) : Int) = 2 * 2 ^ (8 * kind - 1) := by
    push_cast
    exact (mul_pow_sub_one positive.ne' 2).symm
  rw [wrapInteger_eq, bits]
  constructor
  · rintro ⟨low, high, congruent⟩
    have fits : value.bmod (2 ^ (8 * kind)) = value :=
      Int.bmod_eq_of_le (by rw [size]; omega) (by rw [size]; omega)
    rw [← fits, ← Int.emod_bmod value, ← Int.emod_bmod exact]
    push_cast
    rw [congruent]
  · rintro rfl
    have low := @Int.le_bmod exact (2 ^ (8 * kind)) (by positivity)
    have high := @Int.bmod_lt exact (2 ^ (8 * kind)) (by positivity)
    rw [size] at low high
    refine ⟨by omega, by omega, ?_⟩
    have congruent := wrapInteger_modEq kind exact
    rwa [wrapInteger_eq, bits] at congruent

/-- A power by repeated squaring is congruent to the power. -/
theorem wordPower_modEq (base : Int) (exponent : Nat) :
    wordPower base exponent ≡ base ^ exponent [ZMOD 2 ^ 64] := by
  fun_induction wordPower base exponent with
  | case1 => rw [pow_zero]
  | case2 exponent positive half square even ih =>
    calc square ≡ half * half [ZMOD 2 ^ 64] := wrapInteger_modEq 8 _
      _ ≡ base ^ (exponent / 2) * base ^ (exponent / 2) [ZMOD 2 ^ 64] := ih.mul ih
      _ = base ^ exponent := by rw [← pow_add]; congr 1; omega
  | case3 exponent positive half square odd ih =>
    calc wrapWord (square * base) ≡ square * base [ZMOD 2 ^ 64] := wrapInteger_modEq 8 _
      _ ≡ half * half * base [ZMOD 2 ^ 64] := (wrapInteger_modEq 8 _).mul_right base
      _ ≡ base ^ (exponent / 2) * base ^ (exponent / 2) * base [ZMOD 2 ^ 64] :=
      (ih.mul ih).mul_right base
      _ = base ^ exponent := by rw [← pow_add, ← pow_succ]; congr 1; omega

theorem wrapInteger_congr {o : Int} (same : value ≡ o [ZMOD 2 ^ 64]) :
    wrapInteger kind value = wrapInteger kind o := by
  have divides : (2 ^ integerBits kind : Int) ∣ 2 ^ 64 := by
    refine pow_dvd_pow 2 ?_
    unfold integerBits
    split <;> decide
  have congruent : value % (2 ^ integerBits kind : Nat) = o % (2 ^ integerBits kind : Nat) := by
    push_cast
    exact same.of_dvd divides
  rw [wrapInteger_eq, ← Int.emod_bmod, congruent, Int.emod_bmod, wrapInteger_eq]

end Number

/-- A constant vector of integers. -/
def Constant.vector (values : List Int) : Constant :=
  .array (values.map .integer)

namespace Folding

open Number

variable {op : ArithmeticOperator} {kind : Nat} {left right value : Int}

/-- Whether an operation on integers has no constant result. -/
def Undefined (op : ArithmeticOperator) (left right : Int) : Prop :=
  op = .div ∧ right = 0 ∨ op = .pow ∧ (right < 0 ∧ left = 0 ∨ 2 ^ 32 - 1 < right)

/-- The exact result of an operation on integers: a quotient is truncated, and so is the reciprocal
of a power. -/
def exactly (op : ArithmeticOperator) (left right : Int) : Int :=
  match op with
  | .add => left + right
  | .sub => left - right
  | .mul => left * right
  | .div => left.tdiv right
  | .pow => if 0 ≤ right then left ^ right.toNat else Int.tdiv 1 (left ^ right.natAbs)

/-- Whether an operation on integers of a kind has the given result. -/
def Folds (op : ArithmeticOperator) (kind : Nat) (left right value : Int) : Prop :=
  ¬ Undefined op left right ∧ Represents kind value (exactly op left right)

/-- The power with a negative exponent is the truncated reciprocal. -/
theorem integerPower?_neg (negative : right < 0) (nonzero : left ≠ 0) :
    integerPower? left right = some (Int.tdiv 1 (left ^ right.natAbs)) := by
  unfold integerPower?
  rw [if_pos negative]
  by_cases one : left = 1
  · simp [one]
  by_cases minusOne : left = -1
  · rw [if_neg one, if_pos minusOne, minusOne]
    have parity : right.tmod 2 = 0 ↔ Even right.natAbs := by
      rw [← Int.dvd_iff_tmod_eq_zero, Int.natAbs_even, even_iff_two_dvd]
    rcases Nat.even_or_odd right.natAbs with even | odd
    · rw [if_pos (parity.2 even), even.neg_one_pow]
      rfl
    · rw [if_neg (parity.not.2 (Nat.not_even_iff_odd.2 odd)), odd.neg_one_pow]
      rfl
  · -- the power has an absolute value of at least two
    rw [if_neg one, if_neg minusOne, if_neg nonzero]
    have large : 2 ≤ left.natAbs ^ right.natAbs :=
      calc 2 ≤ left.natAbs := by omega
        _ ≤ left.natAbs ^ right.natAbs := Nat.le_self_pow (by omega) _
    refine congrArg some (Int.natAbs_eq_zero.1 ?_).symm
    rw [Int.natAbs_tdiv, Int.natAbs_pow]
    exact Nat.div_eq_of_lt large

/-- A power is defined unless it has none, and wraps as the exact one does. -/
theorem integerPower?_map (kind : Nat) (left right : Int) : (integerPower? left right).map
    (wrapInteger kind) = if right < 0 ∧ left = 0 ∨ 2 ^ 32 - 1 < right then
    none else some (wrapInteger kind (exactly .pow left right)) := by
  rcases lt_or_ge right 0 with negative | whole
  · by_cases zero : left = 0
    · simp [integerPower?, negative, zero]
    · rw [integerPower?_neg negative zero, if_neg (by omega), exactly, if_neg negative.not_ge]
      rfl
  · unfold integerPower? exactly
    rw [if_neg whole.not_gt, if_pos whole]
    by_cases large : 2 ^ 32 - 1 < right
    · rw [if_neg (by omega), if_pos (.inr large)]
      rfl
    · rw [if_pos (by omega), if_neg (by omega), Option.map_some,
        wrapInteger_congr (wordPower_modEq left right.toNat)]

/-- Folding on words first does not change what wraps into the range of a kind. -/
theorem integerArithmetic_eq [Decidable (Undefined op left right)] :
    integerArithmetic op kind left right =
    if Undefined op left right then none else some (wrapInteger kind (exactly op left right)) := by
  have wraps (exact : Int) : wrapInteger kind (wrapWord exact) = wrapInteger kind exact :=
    wrapInteger_congr (wrapInteger_modEq 8 exact)
  cases op with
  | add | sub | mul =>
    rw [if_neg (by simp [Undefined])]
    exact congrArg some (wraps _)
  | div =>
    by_cases zero : right = 0
    · simp [integerArithmetic, wordArithmetic?, Undefined, zero]
    · simp [integerArithmetic, wordArithmetic?, Undefined, zero, wraps, exactly]
  | pow => exact (integerPower?_map kind left right).trans (if_congr (by simp [Undefined]) rfl rfl)

theorem elementwise_of_defined (kind : Nat) (defined : ¬ Undefined op left right) :
    elementwise (scalarArithmetic op (.integer kind)) (.integer left) (.integer right) =
      some (.integer (wrapInteger kind (exactly op left right))) := by
  classical
  change Constant.integer <$> integerArithmetic op kind left right = _
  rw [integerArithmetic_eq, if_neg defined]
  rfl

variable {type : Ty} (isInteger : type.element = .integer kind)

include isInteger

theorem scalarArithmetic_eq : scalarArithmetic op type.element (.integer left) (.integer right) =
    .integer <$> integerArithmetic op kind left right := by
  rw [isInteger]
  rfl

theorem scalarArithmetic_eq_some (known : kind ∈ [1, 2, 4, 8]) :
    scalarArithmetic op type.element (.integer left) (.integer right) = some result ↔
      ∃ value, result = .integer value ∧ Folds op kind left right value := by
  classical
  rw [scalarArithmetic_eq isInteger, integerArithmetic_eq]
  by_cases undefined : Undefined op left right
  · simp [undefined, Folds]
  · simp [undefined, Folds, represents_iff known, eq_comm]

omit isInteger in
/-- What is folded from every item of a list when integers are folded from single items. -/
theorem mapM_eq_vector {α : Type} {items : List α} {fold : α → Option Constant}
    {folds : α → Int → Prop}
    (each : ∀ item result, fold item = some result ↔ ∃ value, result = .integer value ∧
      folds item value) :
    .array <$> items.mapM fold = some result ↔ ∃ values, result = .vector values ∧
    List.Forall₂ folds items values := by
  have list (constants : List Constant) : items.mapM fold = some constants ↔
      ∃ values : List Int, constants = values.map .integer ∧ List.Forall₂ folds items values := by
    induction items generalizing constants with
    | nil => simp [eq_comm]
    | cons item items ih =>
      simp only [List.mapM_cons, Option.bind_eq_bind, Option.bind_eq_some_iff, each, ih,
        List.forall₂_cons_left_iff]
      constructor
      · rintro ⟨_, ⟨value, rfl, here⟩, _, ⟨values, rfl, there⟩, same⟩
        exact ⟨value :: values, (Option.some.inj same).symm, value, values, here, there, rfl⟩
      · rintro ⟨_, rfl, value, values, here, there, rfl⟩
        exact ⟨_, ⟨value, rfl, here⟩, _, ⟨values, rfl, there⟩, rfl⟩
  constructor
  · intro folded
    obtain ⟨constants, mem, rfl⟩ := Option.map_eq_some_iff.1 folded
    obtain ⟨values, rfl, related⟩ := (list constants).1 mem
    exact ⟨values, rfl, related⟩
  · rintro ⟨values, rfl, related⟩
    exact Option.map_eq_some_iff.2 ⟨_, (list _).2 ⟨values, rfl, related⟩, rfl⟩

/-- Folding on integers of a kind gives exactly the exact results in the range of the kind: of two
integers, nothing where they have no result; of arrays, element by element, when all elements have
one and arrays have equal lengths. -/
theorem arithmetic_exact (op : ArithmeticOperator) (known : kind ∈ [1, 2, 4, 8]) :
    (∀ left right, arithmetic op type (.integer left) (.integer right) = none ↔
      Undefined op left right) ∧
    (∀ left right result, arithmetic op type (.integer left) (.integer right) = some result ↔
      ∃ value, result = .integer value ∧ Folds op kind left right value) ∧
    (∀ lefts rights result, arithmetic op type (.vector lefts) (.vector rights) = some result ↔
      ∃ values, result = .vector values ∧ lefts.length = rights.length ∧
        List.Forall₂ (fun pair value => Folds op kind pair.1 pair.2 value)
        (lefts.zip rights) values) ∧
    (∀ lefts right result, arithmetic op type (.vector lefts) (.integer right) = some result ↔
      ∃ values, result = .vector values ∧
      List.Forall₂ (fun left value => Folds op kind left right value) lefts values) ∧
    ∀ left rights result, arithmetic op type (.integer left) (.vector rights) = some result ↔
      ∃ values, result = .vector values ∧
        List.Forall₂ (fun right value => Folds op kind left right value) rights values := by
  refine ⟨fun left right => ?_, fun left right result => scalarArithmetic_eq_some isInteger known,
    fun lefts rights result => ?_, fun lefts right result => ?_, fun left rights result => ?_⟩
  · classical
    change scalarArithmetic op type.element _ _ = none ↔ _
    rw [scalarArithmetic_eq isInteger, integerArithmetic_eq]
    split <;> simpa
  · unfold arithmetic Constant.vector elementwise
    simp only [List.length_map, List.zip_map]
    by_cases same : lefts.length = rights.length
    · simp only [same, true_and, List.mapM_map]
      exact mapM_eq_vector fun pair result => scalarArithmetic_eq_some isInteger known
    · simp [same]
  · unfold arithmetic Constant.vector elementwise
    simp only [List.mapM_map]
    exact mapM_eq_vector fun left result => scalarArithmetic_eq_some isInteger known
  · unfold arithmetic Constant.vector elementwise
    simp only [List.mapM_map]
    exact mapM_eq_vector fun right result => scalarArithmetic_eq_some isInteger known

omit isInteger in
/-- The powers of two in one byte: the seventh one is negative, and a reciprocal is zero. -/
theorem arithmetic_exact_powers : Ty.element (.integer 1) = .integer 1 ∧ 1 ∈ [1, 2, 4, 8] ∧
      arithmetic .pow (.integer 1) (.integer 2) (.vector [6, 7, -1]) =
      some (.vector [64, -128, 0]) := by
  refine ⟨rfl, by
    decide, ((arithmetic_exact rfl .pow (by decide)).2.2.2.2 2 [6, 7, -1] _).2 ⟨_, rfl, ?_⟩⟩
  refine .cons ⟨?_, ?_⟩ (.cons ⟨?_, ?_⟩ (.cons ⟨?_, ?_⟩ .nil))
  all_goals first | exact ⟨by decide, by decide, by decide⟩ | simp [Undefined]

end Folding

end FortranSemantics
