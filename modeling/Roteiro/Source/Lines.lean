import Roteiro.Source.Span

/-!
Line numbers. A source is cut into lines after each newline byte; lines are counted from one, in
words of 32 bits.
-/

namespace Roteiro

/-- Where the lines of a source start, in increasing order. The first line starts at byte zero. -/
structure Lines where
  starts : List Nat

namespace Lines

/-- The bytes that follow a newline, for characters that stand from `offset` on. -/
def startsAfter : List Char → Nat → List Nat
  | [], _ => []
  | c :: cs, offset =>
    let next := offset + c.utf8Size
    if c = '\n' then next :: startsAfter cs next else startsAfter cs next

/-- The lines of a source. -/
def ofText (source : String) : Lines :=
  ⟨0 :: startsAfter source.toList 0⟩

/-- The line of a byte: the number of lines that start at it or before it, cut to a word. Bytes past
the end belong to the last line. -/
def lineAt (lines : Lines) (offset : Nat) : Nat :=
  (lines.starts.takeWhile (· ≤ offset)).length % UInt32.size

/-- The line where a span starts. -/
def lineOf (lines : Lines) (span : Span) : Nat :=
  lines.lineAt span.start

end Lines

end Roteiro
