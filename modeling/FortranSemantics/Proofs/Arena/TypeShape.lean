import FortranSemantics.Conversion

/-!
# Shapes and elements of types

A flat type is a scalar, or an array with dimensions whose elements are scalars, in any wrappers.
The types that an analysis makes are flat, and the operations on types act on the shape and on the
elements separately.
-/

namespace FortranSemantics.Ty

open List Ty

variable {type : Ty}

/-- Whether a type is that of a single value, without wrappers. -/
def IsElement : Ty → Prop
  | .array .. | .pointer _ | .allocatable _ => False
  | _ => True

/-- Whether a type is an intrinsic one with values that are numbers or logical values. -/
def IsPlain : Ty → Prop
  | .integer _ | .real _ | .complex _ | .logical _ => True
  | _ => False

theorem IsPlain.isElement (plain : type.IsPlain) : type.IsElement := by
  cases type <;> first | trivial | cases plain

section

variable (single : type.IsElement)

include single

theorem IsElement.pastPointer : type.pastPointer = type := by
  cases type <;> first | rfl | cases single

theorem IsElement.element : type.element = type := by
  cases type <;> first | rfl | cases single

theorem IsElement.dims : type.dims = [] := by
  cases type <;> first | rfl | cases single

theorem IsElement.rank : type.rank = 0 := by
  unfold Ty.rank
  rw [single.dims]
  rfl

end

/-- Inside its wrappers a type is an array or a scalar. -/
theorem pastPointer_cases (type : Ty) :
    (∃ element dims, type.pastPointer = .array element dims) ∨ type.pastPointer.IsElement := by
  induction type with
  | pointer tgt ih | allocatable tgt ih => exact ih
  | array element dims => exact .inl ⟨element, dims, rfl⟩
  | _ => exact .inr trivial

theorem isLogical_iff : type.isLogical = true ↔ ∃ k, type.element = .logical k := by
  unfold isLogical
  cases type.element <;> simp

theorem isInteger_iff : type.isInteger = true ↔ ∃ k, type.element = .integer k := by
  unfold isInteger
  cases type.element <;> simp

/-- Whether a type is a scalar or an array with dimensions of scalars, in any wrappers. -/
def Flat (type : Ty) : Prop :=
  match type.pastPointer with
  | .array element dims => dims ≠ [] ∧ element.pastPointer.IsElement
  | _ => True

theorem IsElement.flat (single : type.IsElement) : type.Flat := by
  unfold Flat
  cases type <;> first | trivial | cases single

/-- The elements of a flat type are scalars. -/
theorem Flat.element (flat : type.Flat) : type.element.IsElement := by
  unfold Flat at flat
  unfold Ty.element
  rcases type.pastPointer_cases with ⟨element, dims, past⟩ | single
  · rw [past] at flat ⊢
    exact flat.2
  · split
    · next element dims past =>
      rw [past] at single
      cases single
    · exact single

/-- A flat type of rank 0 is a scalar, in any wrappers. -/
theorem Flat.pastPointer (flat : type.Flat) (scalar : type.rank = 0) :
    type.pastPointer.IsElement := by
  rcases type.pastPointer_cases with ⟨element, dims, past⟩ | single
  · unfold Flat at flat
    unfold Ty.rank Ty.dims at scalar
    rw [past] at flat scalar
    exact absurd (length_eq_zero_iff.1 scalar) flat.1
  · exact single

theorem Flat.shaped (flat : type.Flat) (scalar : type.rank = 0) (dims : List Dimension) :
    (Ty.shaped type dims).Flat := by
  unfold Ty.shaped
  split
  · exact flat
  · next some =>
    exact ⟨by simpa using some, flat.pastPointer scalar⟩

section

variable {element : Ty} (single : element.IsElement)

include single

variable (dims : List Dimension)

/-- Scalars in dimensions stay what they are. -/
theorem element_shaped : (shaped element dims).element = element := by
  unfold shaped
  split
  · exact single.element
  · exact single.pastPointer

theorem dims_shaped : (shaped element dims).dims = dims := by
  unfold shaped
  split
  · next none => rw [single.dims, isEmpty_iff.1 none]
  · rfl

/-- The rank of a type is the number of its dimensions. -/
theorem rank_shaped : (shaped element dims).rank = dims.length := by
  unfold rank
  rw [dims_shaped single]

theorem element_withElement (type : Ty) : (type.withElement element).element = element :=
  element_shaped single type.dims

theorem rank_withElement (type : Ty) : (type.withElement element).rank = type.rank :=
  rank_shaped single type.dims

theorem IsElement.element_assumedShape (rank : Nat) :
    (assumedShape element rank).element = element :=
  element_shaped single _

theorem IsElement.rank_assumedShape (rank : Nat) : (assumedShape element rank).rank = rank :=
  (rank_shaped single _).trans length_replicate

end

/-! ## Kinds -/

/-- Whether the kind of a type's elements is one that their category has. -/
def Supported : Ty → Prop
  | .integer kind => kind ∈ TypeCategory.integer.kinds
  | .real kind => kind ∈ TypeCategory.real.kinds
  | .complex kind => kind ∈ TypeCategory.complex.kinds
  | .logical kind => kind ∈ TypeCategory.logical.kinds
  | .character kind _ _ => kind ∈ TypeCategory.character.kinds
  | .derived _ | .polymorphic _ => True
  | .array target _ | .pointer target | .allocatable target => target.Supported

instance decidableSupported : DecidablePred Supported
  | .integer _ | .logical _ => inferInstanceAs (Decidable (_ ∈ TypeCategory.integer.kinds))
  | .real _ | .complex _ => inferInstanceAs (Decidable (_ ∈ TypeCategory.real.kinds))
  | .character .. => inferInstanceAs (Decidable (_ ∈ TypeCategory.character.kinds))
  | .derived _ | .polymorphic _ => inferInstanceAs (Decidable True)
  | .array tgt _ | .pointer tgt | .allocatable tgt => decidableSupported tgt

theorem supported_pastPointer (type : Ty) : type.pastPointer.Supported ↔ type.Supported := by
  induction type with
  | pointer tgt ih | allocatable tgt ih => exact ih
  | _ => rfl

/-- The kind of a type is that of its elements. -/
theorem supported_element (type : Ty) : type.element.Supported ↔ type.Supported := by
  rw [← type.supported_pastPointer]
  unfold element
  split
  · next element dims past => rw [past, element.supported_pastPointer]; rfl
  · rfl

theorem supported_shaped (type : Ty) (dims : List Dimension) : (shaped type dims).Supported ↔
    type.Supported := by
  unfold shaped
  split <;> rfl

/-- A real of the kind of a real or complex type has a proper kind. -/
theorem Supported.ofKind? (supported : type.Supported)
    (number : type.isReal = true ∨ type.isComplex = true) :
    (real (type.kind?.getD 4)).Supported := by
  have elements := type.supported_element.2 supported
  unfold isReal isComplex at number
  unfold kind?
  revert number elements
  cases type.element <;> simp <;> exact id

theorem Supported.text (supported : type.Supported) (isText : type.isCharacter = true) :
    type.kind?.getD 1 ∈ TypeCategory.character.kinds := by
  have elements := type.supported_element.2 supported
  unfold isCharacter at isText
  unfold kind?
  revert isText elements
  cases type.element <;> simp <;> exact id

/-! ## Identifiers in a type -/

/-- The expressions in a dimension. -/
def dimensionExprs (dim : Dimension) : List ExprId :=
  dim.start.toList ++ dim.length.toList

/-- The expressions in a type. -/
def exprs : Ty → List ExprId
  | .character _ _ length => length.toList
  | .array element dims => element.exprs ++ dims.flatMap dimensionExprs
  | .pointer target | .allocatable target => target.exprs
  | _ => []

/-- The derived types in a type. -/
def symbols : Ty → List SymbolId
  | .derived symbol | .polymorphic symbol => [symbol]
  | .array element _ => element.symbols
  | .pointer target | .allocatable target => target.symbols
  | _ => []

theorem exprs_pastPointer (type : Ty) : type.pastPointer.exprs = type.exprs := by
  induction type with
  | pointer tgt ih | allocatable tgt ih => exact ih
  | _ => rfl

theorem symbols_pastPointer (type : Ty) : type.pastPointer.symbols = type.symbols := by
  induction type with
  | pointer tgt ih | allocatable tgt ih => exact ih
  | _ => rfl

/-- The elements of a type bring in no expressions. -/
theorem exprs_element (type : Ty) : type.element.exprs ⊆ type.exprs := by
  rw [← type.exprs_pastPointer]
  unfold element
  split
  · next element dims past =>
    rw [past, element.exprs_pastPointer]
    exact subset_append_left _ _
  · exact List.Subset.refl _

/-- The derived types in a type are those of its elements. -/
theorem symbols_element (type : Ty) : type.element.symbols = type.symbols := by
  rw [← type.symbols_pastPointer]
  unfold element
  split
  · next element dims past => rw [past, element.symbols_pastPointer]; rfl
  · rfl

theorem exprs_dims (type : Ty) : type.dims.flatMap dimensionExprs ⊆ type.exprs := by
  rw [← type.exprs_pastPointer]
  unfold dims
  split
  · next element dims past =>
    rw [past]
    exact subset_append_right _ _
  · exact nil_subset _

theorem mem_symbols_of_derivedSymbol? {sym : SymbolId} (h : type.derivedSymbol? = some sym) :
    sym ∈ type.symbols := by
  rw [← type.symbols_element]
  unfold derivedSymbol? at h
  split at h
  · next held here =>
    cases h
    rw [here]
    exact mem_singleton_self _
  · next held here =>
    cases h
    rw [here]
    exact mem_singleton_self _
  · cases h

/-- A shape brings in the expressions of its dimensions and no others. -/
theorem exprs_shaped (type : Ty) (dims : List Dimension) :
    (shaped type dims).exprs ⊆ type.exprs ++ dims.flatMap dimensionExprs := by
  unfold shaped
  split
  · exact subset_append_left _ _
  · exact List.Subset.refl _

theorem symbols_shaped (type : Ty) (dims : List Dimension) :
    (shaped type dims).symbols = type.symbols := by
  unfold shaped
  split <;> rfl

theorem IsPlain.exprs (plain : type.IsPlain) : type.exprs = [] := by
  cases type <;> first | rfl | cases plain

theorem IsPlain.exprs_assumedShape (plain : type.IsPlain) (rank : Nat) :
    (assumedShape type rank).exprs = [] := by
  have unknown : (replicate rank (default : Dimension)).flatMap dimensionExprs = [] := by
    rw [flatMap_eq_nil_iff]
    intro dim mem
    rw [eq_of_mem_replicate mem]
    rfl
  have among := exprs_shaped type (replicate rank default)
  rw [plain.exprs, unknown] at among
  exact subset_nil.1 among

/-- Every flat type has a category. -/
theorem Flat.exists_category (flat : type.Flat) : ∃ category, type.category = .ok category := by
  have single := flat.element
  unfold category
  revert single
  cases type.element <;> intro single <;> first | exact ⟨_, rfl⟩ | cases single

/-- A scalar holds no expressions but those of its elements. -/
theorem Flat.exprs_scalar (flat : type.Flat) (scalar : type.rank = 0) :
    type.exprs = type.element.exprs := by
  have single := flat.pastPointer scalar
  rw [← type.exprs_pastPointer]
  unfold Ty.element
  split
  · next element dims past =>
    rw [past] at single
    cases single
  · rfl

theorem IsPlain.symbols (plain : type.IsPlain) : type.symbols = [] := by
  cases type <;> first | rfl | cases plain

end FortranSemantics.Ty
