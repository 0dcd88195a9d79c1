import Roteiro.Proofs.Value.Items
import Roteiro.Proofs.World.Traversal

/-!
Arrays of the heap follow the list model (`World.arrays_follow_lists`). A write reaches one array,
where it overwrites, pads, takes an item out or fails as a write to its list of items does, and a
write that fails changes nothing. Properties and methods agree on every key that names a position,
however the position is written: as a number, as a string that writes one, or as a number too large
for a position, which names the last one.
-/

namespace Roteiro

open Decimal Text

/-! ### keys -/

/-- The name of a method names no position. -/
theorem ArrayMethod.index?_of_ofName? {name : String} {method : ArrayMethod}
    (found : ofName? name = some method) : (Value.string name).index? = none := by
  unfold ofName? at found
  split at found
  · decide +kernel
  · decide +kernel
  · decide +kernel
  · decide +kernel
  · decide +kernel
  · cases found

namespace Value

variable {key : Value} {index : Nat}

/-- A key that names a position is hidden by no method. -/
theorem no_method_of_index? (names : key.index? = some index) :
    key.string?.bind ArrayMethod.ofName? = none := by
  cases key with
  | string name =>
    cases found : ArrayMethod.ofName? name with
    | none => exact found
    | some method =>
      rw [ArrayMethod.index?_of_ofName? found] at names
      cases names
  | _ => rfl

theorem index?_le (names : key.index? = some index) : index < 2 ^ 64 := by
  have bounded : ∀ n : Option Nat, n.map (min maxIndex) = some index → index < 2 ^ 64 := by
    intro n mapped
    obtain ⟨m, -, rfl⟩ := Option.map_eq_some_iff.1 mapped
    exact Nat.lt_of_le_of_lt (Nat.min_le_left _ _) (by decide)
  cases key with
  | number x => exact bounded _ names
  | string s => exact bounded _ names
  | _ => cases names

/-- A string that writes a number names the position that the number names. -/
theorem index?_of_read? {s : String} {x : Float} (writes : read? (trimBlanks s.toList) = some x) :
    (string s).index? = (number x).index? := by
  have named : (string s).index? =
      ((read? (trimBlanks s.toList)).bind toNat?).map (min maxIndex) := rfl
  rw [named, writes]
  rfl

/-- A number beyond the last position names the last position. -/
theorem index?_of_large {x : Float} {n : Nat} (holds : toNat? x = some n) (large : 2 ^ 64 ≤ n) :
    (number x).index? = some (2 ^ 64 - 1) := by
  have named : (number x).index? = (toNat? x).map (min maxIndex) := rfl
  rw [named, holds]
  exact congrArg some (Nat.min_eq_left (Nat.le_trans (by decide) large))

end Value

namespace World

/-! ### one array -/

/-- `w'` is `w` except that the array at `a` holds `ys`. -/
structure Rewritten (a : Address) (ys : Items) (w w' : World) : Prop where
  here : w'.heap[a]? = some (.array ys)
  others : ∀ b, b ≠ a → w'.heap[b]? = w.heap[b]?
  rest : w' = { w with heap := w'.heap }

/-- The laws of writing to the array at `a`, which holds `xs` in the world `w`. -/
structure WriteLaw (w : World) (a : Address) (xs : Items) : Prop where
  /-- A write fails exactly if its value is not null and the gap would be wider than 2²⁰. -/
  fails : ∀ i v fault, (w.writeItem a i v).1 = .error fault ↔
    v.isNull = false ∧ xs.size + 2 ^ 20 < i ∧ fault = .indexOutOfRange i xs.size
  unchanged : ∀ i v fault, (w.writeItem a i v).1 = .error fault → (w.writeItem a i v).2 = w
  /-- A value that is not null is put in its place, after nulls if it is past the end. -/
  written : ∀ i v, v.isNull = false → i ≤ xs.size + 2 ^ 20 →
    ∃ ys w', w.writeItem a i v = (.ok (), w') ∧ Rewritten a ys w w' ∧ xs.Written i v ys
  /-- What was written is read again at its position. -/
  reads : ∀ i v w', v.isNull = false → w.writeItem a i v = (.ok (), w') →
    ∀ key : Value, key.index? = some i → w'.property (.array a) key = (.ok v, w')
  /-- Null takes an item out, and the later ones move down by one. -/
  removed : ∀ i < xs.size,
    ∃ ys w', w.writeItem a i .null = (.ok (), w') ∧ Rewritten a ys w w' ∧ xs.Removed i ys
  /-- There is nothing to take out past the end. -/
  idle : ∀ i, xs.size ≤ i → w.writeItem a i .null = (.ok (), w)
  /-- Taking an item out yields it and does what writing null does. -/
  taken : ∀ i, w.removeItem a i = (xs.item i, (w.writeItem a i .null).2)
  /-- As long as the array can be held in memory, no arithmetic on its positions wraps around. -/
  fits : xs.size < 2 ^ 63 → ∀ (position : UInt64) (v : Value),
    xs.writeWord position v = xs.write position.toNat v ∧
      ∀ ys, xs.write position.toNat v = .ok ys → ys.size < 2 ^ 64

/-- The laws of a key that names the position `i` of the array at `a`, which holds `xs` in the world
`w`: to read and write the property does what the methods do. -/
structure KeyLaw (w : World) (a : Address) (xs : Items) (key : Value) (i : Nat) : Prop where
  reads : w.property (.array a) key = (.ok (xs.item i), w)
  gets : ∀ others, w.callBuiltin (.array a .get) (key :: others) = w.property (.array a) key
  writes : ∀ v, w.setProperty (.array a) key v = w.writeItem a i v
  sets : ∀ v others, w.callBuiltin (.array a .set) (key :: v :: others) =
    ((w.setProperty (.array a) key v).1.map fun _ => .null, (w.setProperty (.array a) key v).2)
  removes : ∀ others, w.callBuiltin (.array a .remove) (key :: others) =
    (.ok (xs.item i), (w.setProperty (.array a) key .null).2)

section Array

variable {w : World} {a : Address} {xs : Items} (here : w.heap[a]? = some (.array xs))

include here

theorem items_of_cell : w.heap.items a = xs := by
  unfold Heap.items
  rw [here]

theorem rewritten_setItems (ys : Items) :
    Rewritten a ys w { w with heap := w.heap.setItems a ys } where
  here := Array.getElem?_setIfInBounds_self_of_lt (Array.getElem?_eq_some_iff.1 here).1
  others _ apart := Array.getElem?_setIfInBounds_ne (Ne.symm apart)
  rest := rfl

/-- To put back the items that an array has leaves the world as it is. -/
theorem setItems_self : { w with heap := w.heap.setItems a xs } = w := by
  obtain ⟨there, others, -⟩ := rewritten_setItems here xs
  have same : w.heap.setItems a xs = w.heap := by
    refine Array.ext_getElem? fun b => ?_
    by_cases hb : b = a
    · rw [hb]
      exact there.trans here.symm
    · exact others b hb
  rw [same]

theorem writeItem_of_ok {i : Nat} {v : Value} {ys : Items} (done : xs.write i v = .ok ys) :
    w.writeItem a i v = (.ok (), { w with heap := w.heap.setItems a ys }) := by
  unfold writeItem
  rw [items_of_cell here, done]

theorem writeItem_of_error {i : Nat} {v : Value} {fault : RuntimeFault}
    (failed : xs.write i v = .error fault) : w.writeItem a i v = (.error fault, w) := by
  unfold writeItem
  rw [items_of_cell here, failed]

theorem writeItem_eq_error_iff {i : Nat} {v : Value} {fault : RuntimeFault} :
    (w.writeItem a i v).1 = .error fault ↔ xs.write i v = .error fault := by
  cases write : xs.write i v with
  | ok ys =>
    rw [writeItem_of_ok here write]
    constructor <;> intro h <;> cases h
  | error _ =>
    rw [writeItem_of_error here write]
    constructor <;> intro h <;> cases h <;> rfl

theorem removeItem_eq (i : Nat) : w.removeItem a i = (xs.item i, (w.writeItem a i .null).2) := by
  rw [writeItem_of_ok here Items.write_null]
  unfold removeItem
  rw [items_of_cell here]

/-- A key that names a position reads the item there. -/
theorem property_of_index {key : Value} {i : Nat} (names : key.index? = some i) :
    w.property (.array a) key = (.ok (xs.item i), w) := by
  unfold property
  dsimp only
  rw [Value.no_method_of_index? names, names, items_of_cell here]

theorem write_law : w.WriteLaw a xs where
  fails i v fault := by rw [writeItem_eq_error_iff here, Items.write_error_iff]
  unchanged i v fault failed := by
    rw [writeItem_of_error here ((writeItem_eq_error_iff here).1 failed)]
  written i v there near := by
    obtain ⟨ys, done, written⟩ := Items.write_of_near there near
    exact ⟨ys, _, writeItem_of_ok here done, rewritten_setItems here ys, written⟩
  reads i v w' there done key names := by
    rcases Nat.lt_or_ge (xs.size + 2 ^ 20) i with far | near
    · rw [writeItem_of_error here (Items.write_of_far there far)] at done
      cases done
    · obtain ⟨ys, kept, written⟩ := Items.write_of_near there near
      rw [writeItem_of_ok here kept] at done
      cases done
      rw [property_of_index (rewritten_setItems here ys).here names, written.item]
  removed i inside := ⟨_, _, writeItem_of_ok here Items.write_null, rewritten_setItems here _,
    Items.removeAt_removed inside⟩
  idle i outside := by
    rw [writeItem_of_ok here Items.write_null, Items.removeAt_of_size_le outside,
      setItems_self here]
  taken := removeItem_eq here
  fits held position v := by
    refine ⟨Items.writeWord_eq_write (Nat.lt_trans held (by decide)) position v, fun ys done => ?_⟩
    cases null : v.isNull with
    | true =>
      unfold Items.write at done
      rw [null, if_pos rfl] at done
      cases done
      rcases Nat.lt_or_ge position.toNat xs.size with inside | outside
      · have := (Items.removeAt_removed inside).size
        omega
      · rw [Items.removeAt_of_size_le outside]
        omega
    | false =>
      rcases Nat.lt_or_ge (xs.size + 2 ^ 20) position.toNat with far | near
      · rw [Items.write_of_far null far] at done
        cases done
      · obtain ⟨zs, done', written⟩ := Items.write_of_near null near
        rw [done] at done'
        cases done'
        have := written.size
        omega

theorem key_law {key : Value} {i : Nat} (names : key.index? = some i) : w.KeyLaw a xs key i := by
  have reads := property_of_index here names
  have position : World.position key = .ok i := by
    unfold World.position
    rw [names]
  have writes (v : Value) : w.setProperty (.array a) key v = w.writeItem a i v := by
    unfold setProperty
    dsimp only
    rw [position]
  have first (others : List Value) : argument (key :: others) 0 = key := rfl
  have second (v : Value) (others : List Value) : argument (key :: v :: others) 1 = v := rfl
  refine ⟨reads, fun others => ?_, writes, fun v others => ?_, fun others => ?_⟩
  · rw [reads]
    unfold callBuiltin callArray
    dsimp only
    rw [first, position, items_of_cell here]
  · rw [writes]
    unfold callBuiltin callArray
    dsimp only
    rw [first, second, position]
  · rw [writes]
    unfold callBuiltin callArray
    dsimp only
    rw [first, position]
    dsimp only
    rw [removeItem_eq here]

/-- **Arrays follow the list model.** Writes to an array obey the laws of its list of items; every
key that names a position reads and writes at this position, through properties and methods alike.
Positions are below 2⁶⁴; a string that writes a number names the position that the number names, and
a number beyond the last position names the last one. -/
theorem arrays_follow_lists :
    w.WriteLaw a xs ∧
      (∀ key i, key.index? = some i → i < 2 ^ 64 ∧ w.KeyLaw a xs key i) ∧
      (∀ s x, read? (trimBlanks s.toList) = some x →
        (Value.string s).index? = (Value.number x).index?) ∧
      ∀ x n, toNat? x = some n → 2 ^ 64 ≤ n → (Value.number x).index? = some (2 ^ 64 - 1) :=
  ⟨write_law here, fun _ _ names => ⟨Value.index?_le names, key_law here names⟩,
    fun _ _ writes => Value.index?_of_read? writes,
    fun _ _ holds large => Value.index?_of_large holds large⟩

end Array

/-- At a position written as a string, one item past the end of an array, a value is put after a
null; at the last position of all it is refused. -/
theorem arrays_follow_lists_of_gap :
    let w : World :=
      { terminal := .captured [], heap := #[.array #[.boolean true]] }
    w.heap[0]? = some (.array #[.boolean true]) ∧
      (∃ ys w', w.setProperty (.array 0) (.string " 2 ") (.boolean false) = (.ok (), w') ∧
        Rewritten 0 ys w w' ∧ Items.Written #[.boolean true] 2 (.boolean false) ys) ∧
      w.setProperty (.array 0) (.string "1e300") (.boolean false) =
        (.error (.indexOutOfRange (2 ^ 64 - 1) 1), w) := by
  intro w
  have here : w.heap[0]? = some (.array #[.boolean true]) := rfl
  obtain ⟨law, keys, -, -⟩ := arrays_follow_lists here
  refine ⟨here, ?_, ?_⟩
  · have near := (keys (.string " 2 ") 2 (by decide +kernel)).2
    rw [near.writes]
    exact law.written 2 (.boolean false) rfl (by decide)
  · have last := (keys (.string "1e300") (2 ^ 64 - 1) (by decide +kernel)).2
    rw [last.writes]
    have failed := (law.fails (2 ^ 64 - 1) (.boolean false) _).2 ⟨rfl, by decide, rfl⟩
    exact Prod.ext failed (law.unchanged _ _ _ failed)

end World

end Roteiro
