/-!
# Source spans

Every node of a syntax tree and every diagnostic carries the range of source bytes it stands for.
Spans are carried along and never interpreted until a diagnostic is printed over its source text.
-/

namespace FortranSemantics

/-- A half-open range of byte offsets in the source text. -/
structure Span where
  /-- Offset of the first byte. -/
  start : Nat
  /-- Offset after the last byte. -/
  stop : Nat
deriving DecidableEq, Repr, Inhabited

end FortranSemantics
