import Roteiro.Decimal.Binary

/-!
Random numbers. Where they come from is not told: all that scripts rely on is that a drawn number is
between the bounds that were asked for (`Dice.range`). Runs of the program draw from a congruential
generator.
-/

namespace Roteiro

open Decimal

/-- A source of random numbers, which goes from state to state. -/
structure Dice where
  /-- The state after a draw. -/
  next : Nat → Nat
  /-- The number that is drawn in a state, from the lower bound up to, and without, the upper. -/
  draw : Nat → Float → Float → Float
  range : ∀ state low high, draw state low high = low ∨
    low ≤ draw state low high ∧ draw state low high < high

namespace Dice

/-- A number that is between two bounds, or else the lower one. -/
def clamp (low high x : Float) : Float :=
  if low ≤ x ∧ x < high then x else low

/-- The congruential generator. The upper bits of a state say how far a number is from the lower
bound. -/
def congruential : Dice where
  next state := (state * 6364136223846793005 + 1442695040888963407) % UInt64.size
  draw state low high := clamp low high (low + ofScaled false (state >>> 11) (-53) * (high - low))
  range state low high := by
    unfold clamp
    split
    · next inside => exact .inr inside
    · exact .inl rfl

end Dice

end Roteiro
