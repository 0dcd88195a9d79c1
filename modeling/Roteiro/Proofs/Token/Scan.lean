import Mathlib.Data.String.Basic
import Roteiro.Token.Lexer

/-!
What each mode of the lexer reads. A token that has begun takes all that can belong to it: a word
the characters that continue identifiers, a number its digits and a fraction if digits follow the
point, a string all up to the next quote. What stands after it is left to the next token, and bytes
are counted over exactly the characters taken.
-/

namespace Roteiro

open Text String

/-! ### runs of characters -/

theorem drop_length_takeWhile {α : Type} (p : α → Bool) (xs : List α) :
    xs.drop (xs.takeWhile p).length = xs.dropWhile p := by
  induction xs with
  | nil => rfl
  | cons x xs ih =>
    by_cases h : p x
    · simp [h, ih]
    · simp [h]

/-- The fraction at the front of some characters: a point and the digits after it, if there are
any. -/
def fractionOf : List Char → List Char
  | '.' :: cs =>
    if (cs.takeWhile Char.isDigit).isEmpty then [] else '.' :: cs.takeWhile Char.isDigit
  | _ => []

theorem fractionOf_append_drop (cs : List Char) :
    fractionOf cs ++ cs.drop (fractionOf cs).length = cs := by
  unfold fractionOf
  split
  · split
    · rfl
    · simp [drop_length_takeWhile]
  · rfl

/-! ### modes inside a token -/

theorem scan_identifier (start : Nat) (taken cs : List Char) (pos : Nat) :
    scan .identifier start taken cs pos =
      let word := cs.takeWhile continuesIdentifier
      let text := String.ofList (taken.reverse ++ word)
      (.ok ⟨.ofWord text, text, .between start (pos + utf8Len word)⟩,
        ⟨cs.dropWhile continuesIdentifier, pos + utf8Len word⟩) := by
  induction cs generalizing taken pos with
  | nil => simp [scan, Lexeme.of]
  | cons c cs ih =>
    rw [scan]
    by_cases h : continuesIdentifier c
    · simp [h, ih, Nat.add_assoc, Nat.add_comm c.utf8Size]
    · simp [h, Lexeme.of]

theorem scan_fraction (start : Nat) (taken cs : List Char) (pos : Nat) :
    scan .fraction start taken cs pos =
      let digits := cs.takeWhile Char.isDigit
      (.ok ⟨.number, String.ofList (taken.reverse ++ digits),
          .between start (pos + utf8Len digits)⟩,
        ⟨cs.dropWhile Char.isDigit, pos + utf8Len digits⟩) := by
  induction cs generalizing taken pos with
  | nil => simp [scan, Lexeme.of]
  | cons c cs ih =>
    rw [scan]
    by_cases h : c.isDigit
    · simp [h, ih, Nat.add_assoc, Nat.add_comm c.utf8Size]
    · simp [h, Lexeme.of]

/-- After the point of a number. The point is given back unless a digit follows it. -/
theorem scan_numberDot (start : Nat) (taken cs : List Char) (pos : Nat) :
    scan .numberDot start taken cs (pos + 1) =
      let fraction := fractionOf ('.' :: cs)
      (.ok ⟨.number, String.ofList (taken.reverse ++ fraction),
          .between start (pos + utf8Len fraction)⟩,
        ⟨('.' :: cs).drop fraction.length, pos + utf8Len fraction⟩) := by
  cases cs with
  | nil => simp [scan, fractionOf, Lexeme.of]
  | cons c cs =>
    rw [scan]
    by_cases h : c.isDigit
    · have point : '.'.utf8Size = 1 := rfl
      have stop : pos + 1 + c.utf8Size + utf8Len (cs.takeWhile Char.isDigit) =
          pos + (utf8Len (cs.takeWhile Char.isDigit) + c.utf8Size + 1) := by omega
      simp [h, scan_fraction, fractionOf, drop_length_takeWhile, point, stop]
    · simp [h, fractionOf, Lexeme.of]

theorem scan_number (start : Nat) (taken cs : List Char) (pos : Nat) :
    scan .number start taken cs pos =
      let digits := cs.takeWhile Char.isDigit
      let rest := cs.dropWhile Char.isDigit
      let text := digits ++ fractionOf rest
      (.ok ⟨.number, String.ofList (taken.reverse ++ text), .between start (pos + utf8Len text)⟩,
        ⟨rest.drop (fractionOf rest).length, pos + utf8Len text⟩) := by
  induction cs generalizing taken pos with
  | nil => simp [scan, fractionOf, Lexeme.of]
  | cons c cs ih =>
    rw [scan]
    by_cases h : c.isDigit
    · simp [h, ih, Nat.add_assoc, Nat.add_comm c.utf8Size]
    · by_cases hc : c = '.'
      · subst hc
        have point : '.'.utf8Size = 1 := rfl
        simp [h, scan_numberDot, point]
      · simp [h, hc, fractionOf, Lexeme.of]

theorem scan_string (start : Nat) (taken cs : List Char) (pos : Nat) :
    scan .string start taken cs pos =
      let inner := cs.takeWhile (· ≠ '"')
      match cs.dropWhile (· ≠ '"') with
      | [] => (.error ⟨.unclosedString, .between start (pos + utf8Len cs)⟩, ⟨[], pos + utf8Len cs⟩)
      | quote :: rest =>
        (.ok ⟨.string, String.ofList (taken.reverse ++ inner ++ [quote]),
            .between start (pos + utf8Len inner + quote.utf8Size)⟩,
          ⟨rest, pos + utf8Len inner + quote.utf8Size⟩) := by
  induction cs generalizing taken pos with
  | nil => simp [scan]
  | cons c cs ih =>
    rw [scan]
    by_cases h : c = '"'
    · subst h
      simp [Lexeme.of]
    · simp [h, ih, Nat.add_assoc, Nat.add_comm c.utf8Size]

end Roteiro
