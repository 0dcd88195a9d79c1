import Roteiro.Decimal.Layout
import Roteiro.Text.Dump

/-!
Spans: stretches of a source text, counted in bytes.
-/

namespace Roteiro

open Decimal Text

/-- A stretch of the source: the byte where it starts and its length in bytes. -/
structure Span where
  start : Nat
  length : Nat
  deriving Repr, DecidableEq, Inhabited

namespace Span

/-- The first byte after the span. -/
def stop (s : Span) : Nat :=
  s.start + s.length

/-- The span from `start` up to, and without, `stop`. -/
def between (start stop : Nat) : Span :=
  ⟨start, stop - start⟩

/-- The smallest span that holds both. -/
def merge (s t : Span) : Span :=
  between (min s.start t.start) (max s.stop t.stop)

/-- The structural dump of a span. -/
def dump (s : Span) : String :=
  dumpRecord "Span" [("start", natText s.start), ("length", natText s.length)]

end Span

end Roteiro
