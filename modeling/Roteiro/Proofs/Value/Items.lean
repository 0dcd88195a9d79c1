import Mathlib.Algebra.Group.Nat.Defs
import Roteiro.Value.Items

/-!
The items of an array as a list. A write at an index overwrites an item, pads the gap past the end
or is refused (`write_of_near`, `write_of_far`); a write of null takes an item out and the later ones
move down (`removeAt_removed`). Positions come from outside as words, the last of them included; in
words the write does the same, so nothing wraps around on the way (`writeWord_eq_write`).
-/

namespace Roteiro.Items

variable {xs ys : Items} {i : Nat} {v : Value}

/-! ### what a write leaves -/

/-- `ys` is `xs` with `v` at the index `i`, and with nulls in the gap if `i` is past the end. -/
structure Written (xs : Items) (i : Nat) (v : Value) (ys : Items) : Prop where
  size : ys.size = max xs.size (i + 1)
  here : ys[i]? = some v
  gap : ∀ j, xs.size ≤ j → j < i → ys[j]? = some .null
  others : ∀ j < xs.size, j ≠ i → ys[j]? = xs[j]?

/-- `ys` is `xs` without the item at the index `i`; the later ones have moved down by one. -/
structure Removed (xs : Items) (i : Nat) (ys : Items) : Prop where
  size : ys.size + 1 = xs.size
  before : ∀ j < i, ys[j]? = xs[j]?
  after : ∀ j, i ≤ j → ys[j]? = xs[j + 1]?

theorem Written.item (h : Written xs i v ys) : ys.item i = v := by
  unfold Items.item
  rw [h.here]
  rfl

/-! ### null -/

theorem write_null : xs.write i .null = .ok (xs.removeAt i) := rfl

theorem removeAt_removed (inside : i < xs.size) : Removed xs i (xs.removeAt i) := by
  have erased : xs.removeAt i = xs.eraseIdx i inside := dif_pos inside
  rw [erased]
  refine ⟨?_, fun j before => ?_, fun j after => ?_⟩
  · rw [Array.size_eraseIdx]
    omega
  · rw [Array.getElem?_eraseIdx, if_pos before]
  · rw [Array.getElem?_eraseIdx, if_neg (Nat.not_lt.2 after)]

theorem removeAt_of_size_le (outside : xs.size ≤ i) : xs.removeAt i = xs :=
  dif_neg (Nat.not_lt.2 outside)

/-! ### other values -/

theorem written_set (inside : i < xs.size) : Written xs i v (xs.setIfInBounds i v) where
  size := by
    rw [Array.size_setIfInBounds]
    omega
  here := Array.getElem?_setIfInBounds_self_of_lt inside
  gap j past before := by omega
  others j _ apart := Array.getElem?_setIfInBounds_ne (Ne.symm apart)

theorem written_pad (outside : xs.size ≤ i) :
    Written xs i v ((xs ++ Array.replicate (i - xs.size) Value.null).push v) := by
  have padded : (xs ++ Array.replicate (i - xs.size) Value.null).size = i := by
    rw [Array.size_append, Array.size_replicate]
    omega
  refine ⟨?_, ?_, fun j past before => ?_, fun j inside _ => ?_⟩
  · rw [Array.size_push, padded]
    omega
  · rw [Array.getElem?_push, padded, if_pos rfl]
  · rw [Array.getElem?_push, padded, if_neg (Nat.ne_of_lt before), Array.getElem?_append,
      if_neg (Nat.not_lt.2 past), Array.getElem?_replicate, if_pos (by omega)]
  · rw [Array.getElem?_push, padded, if_neg (by omega), Array.getElem?_append, if_pos inside]

/-- A write that leaves no gap, or one of at most 2²⁰ items, is carried out. -/
theorem write_of_near (there : v.isNull = false) (near : i ≤ xs.size + 2 ^ 20) :
    ∃ ys, xs.write i v = .ok ys ∧ Written xs i v ys := by
  unfold write
  rw [there, if_neg Bool.false_ne_true]
  by_cases inside : i < xs.size
  · rw [if_pos inside]
    exact ⟨_, rfl, written_set inside⟩
  · have narrow : ¬maxGap < i - xs.size := by
      unfold maxGap
      omega
    rw [if_neg inside, if_neg narrow]
    exact ⟨_, rfl, written_pad (Nat.not_lt.1 inside)⟩

/-- A write that leaves a wider gap is refused. -/
theorem write_of_far (there : v.isNull = false) (far : xs.size + 2 ^ 20 < i) :
    xs.write i v = .error (.indexOutOfRange i xs.size) := by
  have wide : maxGap < i - xs.size := by
    unfold maxGap
    omega
  unfold write
  rw [there, if_neg Bool.false_ne_true, if_neg (by omega), if_pos wide]

/-- A write fails for no other reason than the width of its gap. -/
theorem write_error_iff {fault : RuntimeFault} : xs.write i v = .error fault ↔
    v.isNull = false ∧ xs.size + 2 ^ 20 < i ∧ fault = .indexOutOfRange i xs.size := by
  constructor
  · intro failed
    cases null : v.isNull with
    | true =>
      unfold write at failed
      rw [null, if_pos rfl] at failed
      cases failed
    | false =>
      rcases Nat.lt_or_ge (xs.size + 2 ^ 20) i with far | near
      · rw [write_of_far null far] at failed
        cases failed
        exact ⟨rfl, far, rfl⟩
      · obtain ⟨ys, done, -⟩ := write_of_near null near
        rw [done] at failed
        cases failed
  · rintro ⟨there, far, rfl⟩
    exact write_of_far there far

/-! ### positions in words -/

/-- Writes a value at a position that is a word. All arithmetic on positions is that of words, which
wraps around. -/
def writeWord (items : Items) (position : UInt64) (value : Value) : Except RuntimeFault Items :=
  let length := UInt64.ofNat items.size
  if value.isNull then
    .ok (if position < length then items.removeAt position.toNat else items)
  else if position < length then .ok (items.setIfInBounds position.toNat value)
  else if UInt64.ofNat maxGap < position - length then
    .error (.indexOutOfRange position.toNat length.toNat)
  else
    .ok ((items ++ Array.replicate (position - length).toNat Value.null).push value)

/-- **Nothing wraps around**: in words a write does what it does in numbers, at the last position
too. -/
theorem writeWord_eq_write (fits : xs.size < UInt64.size) (position : UInt64) (v : Value) :
    xs.writeWord position v = xs.write position.toNat v := by
  have length : (UInt64.ofNat xs.size).toNat = xs.size := UInt64.toNat_ofNat_of_lt' fits
  have inside : position < UInt64.ofNat xs.size ↔ position.toNat < xs.size := by
    rw [UInt64.lt_iff_toNat_lt, length]
  unfold writeWord write
  simp only [inside, length]
  split
  · split
    · rfl
    · next outside => rw [removeAt_of_size_le (Nat.not_lt.1 outside)]
  · split
    · rfl
    · next outside =>
      have gap : (position - UInt64.ofNat xs.size).toNat = position.toNat - xs.size := by
        rw [UInt64.toNat_sub_of_le _ _ (by rw [UInt64.le_iff_toNat_le, length]; omega), length]
      have wide : UInt64.ofNat maxGap < position - UInt64.ofNat xs.size ↔
          maxGap < position.toNat - xs.size := by
        rw [UInt64.lt_iff_toNat_lt, gap]
        rfl
      simp only [wide, gap]

end Roteiro.Items
