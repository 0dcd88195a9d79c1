import Mathlib.Data.String.Basic
import Roteiro.Source.Lines

/-!
Lines and newlines. The line of a byte is one more than the number of newlines in front of it, cut
to a word (`Lines.lineAt_utf8ByteSize`), and newlines may be counted by characters or by bytes: no
other character has the byte of a newline in it (`newlineBytes_eq`).
-/

namespace Roteiro

open String

namespace Lines

theorem lt_of_mem_startsAfter {cs : List Char} {pos n : Nat} (h : n ∈ startsAfter cs pos) :
    pos < n := by
  induction cs generalizing pos with
  | nil => cases h
  | cons c cs ih =>
    have := c.utf8Size_pos
    rw [startsAfter] at h
    split at h
    · rcases List.mem_cons.1 h with rfl | later
      · omega
      · have := ih later
        omega
    · have := ih h
      omega

/-- As many lines start in a text as there are newlines in it. -/
theorem length_takeWhile_startsAfter (before after : List Char) (pos : Nat) :
    ((startsAfter (before ++ after) pos).takeWhile (· ≤ pos + utf8Len before)).length =
      before.count '\n' := by
  induction before generalizing pos with
  | nil =>
    rw [List.nil_append]
    cases starts : startsAfter after pos with
    | nil => rfl
    | cons n ns =>
      have : pos < n := lt_of_mem_startsAfter (starts ▸ List.mem_cons_self)
      simp [Nat.not_le.2 this]
  | cons c before ih =>
    have rest := ih (pos + c.utf8Size)
    have reach : pos + c.utf8Size + utf8Len before = pos + utf8Len (c :: before) := by
      rw [utf8Len_cons]
      omega
    rw [reach] at rest
    rw [List.cons_append, startsAfter]
    split
    · next newline =>
      have first : pos + c.utf8Size ≤ pos + utf8Len (c :: before) := by omega
      rw [List.takeWhile_cons, if_pos (decide_eq_true first), List.length_cons, rest, newline,
        List.count_cons_self]
    · next other => rw [rest, List.count_cons_of_ne other]

/-- The line of a byte is one more than the number of newlines before it, cut to a word. -/
theorem lineAt_utf8ByteSize (before after : String) :
    (ofText (before ++ after)).lineAt before.utf8ByteSize =
      (before.toList.count '\n' + 1) % UInt32.size := by
  have size : utf8Len before.toList = before.utf8ByteSize := by
    rw [← String.utf8ByteSize_ofList, String.ofList_toList]
  have starts := length_takeWhile_startsAfter before.toList after.toList 0
  rw [Nat.zero_add, size] at starts
  show ((0 :: startsAfter (before ++ after).toList 0).takeWhile _).length % _ = _
  rw [List.takeWhile_cons, if_pos (decide_eq_true (Nat.zero_le _)), List.length_cons,
    String.toList_append, starts]

end Lines

/-! ### bytes -/

/-- The number of newline bytes of a text. -/
def newlineBytes (text : String) : Nat :=
  text.toByteArray.data.toList.count 10

/-- The byte of a newline stands in no other character. -/
theorem count_utf8EncodeChar (c : Char) :
    (utf8EncodeChar c).count 10 = if c = '\n' then 1 else 0 := by
  have byte : ∀ n, n < 256 → (UInt8.ofNat n = 10 ↔ n = 10) := by
    intro n small
    constructor
    · intro h
      simpa [Nat.mod_eq_of_lt small] using congrArg UInt8.toNat h
    · rintro rfl
      rfl
  have newline : c = '\n' ↔ c.val.toNat = 10 := by
    constructor
    · rintro rfl
      rfl
    · exact fun h => Char.ext (UInt32.toNat_inj.1 h)
  unfold utf8EncodeChar
  simp only [newline]
  generalize c.val.toNat = v
  by_cases ten : v = 10
  · subst ten
    rfl
  · have other : ∀ n, n < 256 → n ≠ 10 → (UInt8.ofNat n == 10) = false := by
      intro n small ne
      rw [beq_eq_false_iff_ne]
      exact fun h => ne ((byte n small).1 h)
    rw [if_neg ten]
    split_ifs
    all_goals simp (disch := omega) only [List.count_cons, List.count_nil, other]
    all_goals rfl

/-- As many newline bytes as newlines. -/
theorem newlineBytes_eq (text : String) : newlineBytes text = text.toList.count '\n' := by
  have bytes : text.toByteArray.data.toList = text.toList.flatMap utf8EncodeChar := by
    rw [← String.ofList_toList (s := text), toByteArray_ofList]
    simp [List.utf8Encode]
  rw [newlineBytes, bytes]
  induction text.toList with
  | nil => rfl
  | cons c cs ih =>
    rw [List.flatMap_cons, List.count_append, ih, count_utf8EncodeChar, List.count_cons]
    simp only [beq_iff_eq]
    omega

theorem newlineBytes_append (s t : String) :
    newlineBytes (s ++ t) = newlineBytes s + newlineBytes t := by
  simp only [newlineBytes_eq, String.toList_append, List.count_append]

end Roteiro
