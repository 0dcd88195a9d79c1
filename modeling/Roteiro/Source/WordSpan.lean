import Roteiro.Source.Span

/-!
Spans in words of 64 bits. A span that is handed in from outside may start anywhere and have any
length, and its end wraps around. The spans of a source end inside it, so theirs do not.
-/

namespace Roteiro

/-- A stretch of bytes whose start and length are words. -/
structure WordSpan where
  start : UInt64
  length : UInt64
  deriving Repr, DecidableEq

namespace WordSpan

/-- The first byte after the span, modulo the number of words. -/
def stop (s : WordSpan) : UInt64 :=
  s.start + s.length

/-- From the smaller start to the greater stop. -/
def merge (s t : WordSpan) : WordSpan :=
  let start := min s.start t.start
  ⟨start, max s.stop t.stop - start⟩

/-- The span with the same start and length. -/
def toSpan (s : WordSpan) : Span :=
  ⟨s.start.toNat, s.length.toNat⟩

end WordSpan

end Roteiro
