import Mathlib.Data.Nat.Digits.Defs
import Roteiro.Decimal.Layout

/-!
The plain text of a number. A number that is finite and not negative is written as digits, or as
digits with a point among them; no sign and no power of ten is ever needed.
-/

namespace Roteiro.Decimal

/-- Decimal digits, at least one. -/
structure IsDigits (cs : List Char) : Prop where
  ne_nil : cs ≠ []
  digits : ∀ c ∈ cs, c.isDigit = true

namespace IsDigits

variable {cs ds : List Char}

theorem append (h : IsDigits cs) (h' : ∀ c ∈ ds, c.isDigit = true) : IsDigits (cs ++ ds) where
  ne_nil := by simp [h.ne_nil]
  digits c hc := (List.mem_append.mp hc).elim (h.digits c) (h' c)

theorem append_left (h : ∀ c ∈ cs, c.isDigit = true) (h' : IsDigits ds) : IsDigits (cs ++ ds) where
  ne_nil := by simp [h'.ne_nil]
  digits c hc := (List.mem_append.mp hc).elim (h c) (h'.digits c)

theorem toDigits (n : Nat) : IsDigits (Nat.toDigits 10 n) where
  ne_nil := Nat.toDigits_ne_nil
  digits _ hc := Nat.isDigit_of_mem_toDigits (by omega) (by omega) hc

theorem take (h : IsDigits cs) {n : Nat} (hn : 0 < n) : IsDigits (cs.take n) where
  ne_nil := by simp [h.ne_nil, Nat.pos_iff_ne_zero.mp hn]
  digits c hc := h.digits c (List.mem_of_mem_take hc)

theorem drop (h : IsDigits cs) {n : Nat} (hn : n < cs.length) : IsDigits (cs.drop n) where
  ne_nil := by simpa using hn
  digits c hc := h.digits c (List.mem_of_mem_drop hc)

end IsDigits

theorem zeros_digits (n : Nat) : ∀ c ∈ (zeros n).toList, c.isDigit = true := by
  intro c hc
  obtain ⟨-, rfl⟩ : _ ∧ c = '0' := by simpa [zeros] using hc
  rfl

/-- Digits, or digits, a point and digits. -/
inductive IsPlain : List Char → Prop
  | whole {ds : List Char} : IsDigits ds → IsPlain ds
  | fraction {ds fs : List Char} : IsDigits ds → IsDigits fs → IsPlain (ds ++ '.' :: fs)

theorem positionalText_isPlain (d : Digits) : IsPlain (positionalText false d).toList := by
  have htext := IsDigits.toDigits d.digits
  unfold positionalText
  by_cases hexponent : 0 ≤ d.exponent
  · have hplain := IsPlain.whole (htext.append (zeros_digits d.exponent.toNat))
    simpa [hexponent] using hplain
  · have hplaces : 0 < (-d.exponent).toNat := by omega
    generalize (-d.exponent).toNat = places at hplaces
    by_cases hlength : (Nat.toDigits 10 d.digits).length ≤ places
    · have hzero : IsDigits ['0'] := ⟨by simp, by simp⟩
      have hplain := IsPlain.fraction hzero
        (.append_left (zeros_digits (places - (Nat.toDigits 10 d.digits).length)) htext)
      simpa [hexponent, hlength] using hplain
    · -- The point stands inside the digits, with at least one on either side of it.
      generalize hwhole : (Nat.toDigits 10 d.digits).length - places = whole
      have hplain := IsPlain.fraction (htext.take (n := whole) (by omega))
        (htext.drop (n := whole) (by omega))
      simpa [hexponent, hlength, hwhole] using hplain

theorem plain_text_isPlain {v : Float} {m : Nat} {q : Int} (h : decode v = .finite m q)
    (hpositive : isNegative v = false) : IsPlain (Layout.plain.text v).toList := by
  have htext : Layout.plain.text v = Layout.plain.finiteText m q := by
    simp [Layout.text, h, hpositive]
  rw [htext]
  by_cases hm : m = 0
  · exact .whole ⟨by simp [Layout.finiteText, hm, Layout.plain],
      by simp [Layout.finiteText, hm, Layout.plain]⟩
  · have : Layout.plain.finiteText m q = positionalText false (shortest m q) := by
      simp [Layout.finiteText, hm, Layout.plain]
    rw [this]
    exact positionalText_isPlain _

end Roteiro.Decimal
