import FortranSemantics.Folding
import Mathlib

/-!
# The order of texts

Folded comparisons of texts pad both texts to a width that depends on the pair and counts bytes.
Since every character takes at least one byte, both get the same number of characters, and the order
is that of the endless texts that have only blanks after their ends.
-/

namespace FortranSemantics

open List

namespace Text

/-- The code points of a text that is followed by blanks without end. They are ordered
lexicographically. -/
def endless (chars : List Char) : Lex (ℕ → ℕ) :=
  toLex fun position => (chars.getD position ' ').toNat

variable {left right : Char} {lefts rights : List Char}

theorem endless_cons_lt : endless (left :: lefts) < endless (right :: rights) ↔
    left.toNat < right.toNat ∨ left.toNat = right.toNat ∧ endless lefts < endless rights := by
  constructor
  · rintro ⟨_ | position, pre, here⟩
    · exact .inl here
    · exact .inr ⟨pre 0 position.succ_pos, position, fun earlier lt =>
        pre _ (Nat.succ_lt_succ lt), here⟩
  · rintro (here | ⟨same, position, pre, here⟩)
    · exact ⟨0, fun _ lt => absurd lt (Nat.not_lt_zero _), here⟩
    · refine ⟨position + 1, fun earlier lt => ?_, here⟩
      cases earlier with
      | zero => exact same
      | succ earlier => exact pre earlier (Nat.lt_of_succ_lt_succ lt)

/-- The first characters decide the order of two endless texts, and what follows decides when they
are the same. -/
theorem compares_cons {order : Ordering} (rest : order.Compares (endless lefts) (endless rights)) :
    ((compareOn Char.toNat left right).then order).Compares (endless (left :: lefts))
    (endless (right :: rights)) := by
  unfold compareOn
  rcases lt_trichotomy left.toNat right.toNat with lt | same | gt
  · rw [Nat.compare_eq_lt.2 lt]
    exact endless_cons_lt.2 (.inl lt)
  · rw [Nat.compare_eq_eq.2 same]
    cases order with
    | lt => exact endless_cons_lt.2 (.inr ⟨same, rest⟩)
    | gt => exact endless_cons_lt.2 (.inr ⟨same.symm, rest⟩)
    | eq =>
      refine congrArg toLex (funext fun position => ?_)
      cases position with
      | zero => exact same
      | succ position => exact congrFun (congrArg ofLex rest) position
  · rw [Nat.compare_eq_gt.2 gt]
    exact endless_cons_lt.2 (.inl gt)

theorem compareLex_compares (same : lefts.length = rights.length) :
    (List.compareLex (compareOn Char.toNat) lefts rights).Compares (endless lefts)
    (endless rights) := by
  induction lefts generalizing rights with
  | nil =>
    rw [length_eq_zero_iff.1 same.symm]
    rfl
  | cons left lefts ih =>
    obtain ⟨right, rights, rfl⟩ := List.exists_cons_of_length_eq_add_one same.symm
    rw [List.compareLex_cons_cons]
    exact compares_cons (ih (Nat.succ.inj same))

theorem endless_append_blanks (chars : List Char) (count : Nat) :
    endless (chars ++ replicate count ' ') = endless chars := by
  refine congrArg toLex (funext fun position => ?_)
  simp only [getD_eq_getElem?_getD, getElem?_append, getElem?_replicate]
  grind

/-- Of two texts that are the same when endless, the longer one is the shorter one with blanks after
it. -/
theorem eq_append_blanks (same : endless lefts = endless rights)
    (shorter : lefts.length ≤ rights.length) :
    rights = lefts ++ replicate (rights.length - lefts.length) ' ' := by
  refine ext_getElem (by simp [shorter]) fun position inside _ => ?_
  have here : rights[position] = lefts.getD position ' ' := by
    rw [← getD_eq_getElem rights ' ' inside]
    exact Char.toNat_inj.1 (congrFun (congrArg ofLex same.symm) position)
  grind

theorem endless_eq_iff : endless lefts = endless rights ↔ ∃ stem some more,
    lefts = stem ++ replicate some ' ' ∧ rights = stem ++ replicate more ' ' := by
  constructor
  · intro same
    rcases Nat.le_total lefts.length rights.length with shorter | longer
    · exact ⟨lefts, 0, _, (append_nil _).symm, eq_append_blanks same shorter⟩
    · exact ⟨rights, _, 0, eq_append_blanks same.symm longer, (append_nil _).symm⟩
  · rintro ⟨stem, some, more, rfl, rfl⟩
    rw [endless_append_blanks, endless_append_blanks]

theorem length_le_utf8ByteSize (text : String) : text.toList.length ≤ text.utf8ByteSize := by
  rw [← String.ofList_toList (s := text), String.utf8ByteSize_ofList, String.toList_ofList]
  induction text.toList with
  | nil => exact Nat.le_refl _
  | cons char chars ih => exact Nat.add_le_add ih char.utf8Size_pos

end Text

namespace Folding

open Text

variable {op : Comparison} {left right : String}

/-- The width of the padding holds both texts, so that they compare as the endless ones do. -/
theorem comparePadded_compares (left right : String) :
    (comparePadded left right).Compares (endless left.toList) (endless right.toList) := by
  have lefts := length_le_utf8ByteSize left
  have rights := length_le_utf8ByteSize right
  unfold comparePadded rightpad
  rw [← endless_append_blanks left.toList, ← endless_append_blanks right.toList]
  refine compareLex_compares ?_
  simp only [length_append, length_replicate]
  omega

/-- Whether the comparison of two texts folds to true. -/
def Holds (op : Comparison) (left right : String) : Prop :=
  compare op (.text left) (.text right) = some (.logical true)

theorem compare_texts (op : Comparison) (left right : String) :
    compare op (.text left) (.text right) = some (.logical (holds op (comparePadded left right))) :=
  rfl

theorem holds_texts : Holds op left right ↔ holds op (comparePadded left right) = true := by
  simp [Holds, compare_texts]

theorem holds_lt : Holds .lt left right ↔ endless left.toList < endless right.toList :=
  holds_texts.trans (beq_iff_eq.trans (comparePadded_compares left right).eq_lt)

theorem holds_eq : Holds .eq left right ↔ endless left.toList = endless right.toList :=
  holds_texts.trans (beq_iff_eq.trans (comparePadded_compares left right).eq_eq)

theorem holds_gt : Holds .gt left right ↔ endless right.toList < endless left.toList :=
  holds_texts.trans (beq_iff_eq.trans (comparePadded_compares left right).eq_gt)

theorem holds_ltE : Holds .ltE left right ↔ endless left.toList ≤ endless right.toList :=
  holds_texts.trans (bne_iff_ne.trans (comparePadded_compares left right).ne_gt)

theorem existsUnique_holds (order : Ordering) : ∃! op, op ∈ [.lt, .eq, .gt] ∧
    holds op order = true := by
  refine ⟨match order with | .lt => .lt | .eq => .eq | .gt => .gt, by cases order <;> decide, ?_⟩
  rintro op ⟨mem, held⟩
  revert mem held
  cases order <;> cases op <;> decide

/-- Folded comparisons of texts are those of one total preorder, the lexicographic order of the
endless texts: exactly one of less, equal and greater holds, the other three operators are their
complements, and equal texts differ only in the blanks at their ends. -/
theorem texts_totallyPreordered :
    (∀ op left right, ∃ answer, compare op (.text left) (.text right) = some (.logical answer)) ∧
    (∀ left right, ∃! op, op ∈ [.lt, .eq, .gt] ∧ Holds op left right) ∧
    (∀ left right, (Holds .ltE left right ↔ ¬ Holds .gt left right) ∧
      (Holds .gtE left right ↔ ¬ Holds .lt left right) ∧
      (Holds .notEq left right ↔ ¬ Holds .eq left right)) ∧
    (∀ left right, (Holds .lt left right ↔ endless left.toList < endless right.toList) ∧
      (Holds .eq left right ↔ endless left.toList = endless right.toList) ∧
      (Holds .gt left right ↔ endless right.toList < endless left.toList)) ∧
    (∀ left right, Holds .eq left right ↔ ∃ stem some more,
      left.toList = stem ++ List.replicate some ' ' ∧
      right.toList = stem ++ List.replicate more ' ') ∧
    ∀ op ∈ [.lt, .eq, .ltE], ∀ first second third, Holds op first second → Holds op second third →
      Holds op first third := by
  refine ⟨fun op left right => ⟨_, compare_texts op left right⟩, fun left right => ?_,
    fun left right => ?_,
    fun left right => ⟨holds_lt, holds_eq, holds_gt⟩, fun left right =>
    holds_eq.trans endless_eq_iff, fun op listed first second third before after => ?_⟩
  · simpa only [holds_texts] using existsUnique_holds (comparePadded left right)
  · simp only [holds_texts]
    cases comparePadded left right <;> decide
  · simp only [List.mem_cons, List.not_mem_nil, or_false] at listed
    rcases listed with rfl | rfl | rfl
    · exact holds_lt.2 (lt_trans (holds_lt.1 before) (holds_lt.1 after))
    · exact holds_eq.2 ((holds_eq.1 before).trans (holds_eq.1 after))
    · exact holds_ltE.2 (le_trans (holds_ltE.1 before) (holds_ltE.1 after))

/-- A letter of two bytes, and a character below the blank. -/
example : compare .lt (.text "é\t") (.text "é") = some (.logical true) := by rfl

end Folding

end FortranSemantics
