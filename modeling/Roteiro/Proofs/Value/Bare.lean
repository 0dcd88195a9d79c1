import Roteiro.Proofs.Tree.Bare
import Roteiro.Proofs.Value.Dictionary
import Roteiro.Value.Iteration
import Roteiro.Value.Key
import Roteiro.Value.Operators

/-!
Values without places. A function carries the routine it was made from, with all its spans; a *bare*
value carries the bare routine. Nothing that is computed from values looks at the spans: operators,
keys, texts and iterations are the same for bare values.

A dictionary is compared with one of bare values key by key (`Dictionary.Bares`), since the balance
of its tree says nothing about it; and a heap with one of bare collections address by address
(`Heap.Bares`).
-/

namespace Roteiro

/-! ### values -/

/-- A function without its spans. -/
def Closure.bare (f : Closure) : Closure :=
  ⟨f.routine.bare, f.context⟩

/-- A value without the spans of the function it is. -/
def Value.bare : Value → Value
  | .function id closure => .function id closure.bare
  | v => v

theorem Closure.name_bare (f : Closure) : f.bare.name = f.name := by
  obtain ⟨⟨name, parameters, body, span⟩, c⟩ := f
  unfold Closure.bare Closure.name
  rw [Routine.bare]
  cases name with
  | none => rfl
  | some name => rfl

namespace Value

@[simp] theorem type_bare (v : Value) : v.bare.type = v.type := by
  cases v <;> rfl

@[simp] theorem isNull_bare (v : Value) : v.bare.isNull = v.isNull := by
  cases v <;> rfl

@[simp] theorem number?_bare (v : Value) : v.bare.number? = v.number? := by
  cases v <;> rfl

@[simp] theorem string?_bare (v : Value) : v.bare.string? = v.string? := by
  cases v <;> rfl

@[simp] theorem truth_bare (v : Value) : v.bare.truth = v.truth := by
  cases v <;> rfl

@[simp] theorem index?_bare (v : Value) : v.bare.index? = v.index? := by
  cases v <;> rfl

theorem negate_bare (v : Value) : v.bare.negate = v.negate.map bare := by
  cases v <;> rfl

theorem equals_bare (a b : Value) : a.bare.equals b.bare = a.equals b := by
  cases a <;> cases b <;> rfl

theorem order_bare (op : Operator) (a b : Value) : order op a.bare b.bare = order op a b := by
  cases a <;> cases b <;> rfl

theorem compareBy_bare (op : Operator) (accepted : List Ordering) (a b : Value) :
    compareBy op accepted a.bare b.bare = compareBy op accepted a b := by
  unfold compareBy
  rw [order_bare]

theorem add_bare (a b : Value) : add a.bare b.bare = (add a b).map bare := by
  cases a <;> cases b <;> rfl

theorem numeric_bare (op : Operator) (f : Float → Float → Float) (a b : Value) :
    numeric op f a.bare b.bare = (numeric op f a b).map bare := by
  cases a <;> cases b <;> rfl

theorem logical_bare (f : Bool → Bool → Bool) (a b : Value) :
    logical f a.bare b.bare = (logical f a b).map bare := by
  unfold logical
  rw [truth_bare, truth_bare]
  cases a.truth with
  | error fault => rfl
  | ok x =>
    cases b.truth with
    | error fault => rfl
    | ok y => rfl

/-- A truth value is bare. -/
theorem map_boolean (r : Except RuntimeFault Bool) : (r.map boolean).map bare = r.map boolean := by
  cases r with
  | error fault => rfl
  | ok b => rfl

theorem apply_bare (op : Operator) (a b : Value) :
    apply op a.bare b.bare = (apply op a b).map bare := by
  cases op with
  | and => exact logical_bare _ a b
  | or => exact logical_bare _ a b
  | equal => exact congrArg (fun e => Except.ok (boolean e)) (equals_bare a b)
  | notEqual => exact congrArg (fun e => Except.ok (boolean !e)) (equals_bare a b)
  | add => exact add_bare a b
  | subtract => exact numeric_bare _ _ a b
  | multiply => exact numeric_bare _ _ a b
  | divide => exact numeric_bare _ _ a b
  | modulo => exact numeric_bare _ _ a b
  | _ =>
    refine Eq.trans ?_ (map_boolean _).symm
    exact congrArg (Except.map boolean) (compareBy_bare _ _ a b)

end Value

/-! ### items -/

namespace Items

theorem item_bare (items : Items) (i : Nat) :
    item (items.map Value.bare) i = (items.item i).bare := by
  unfold item
  rw [Array.getElem?_map]
  cases items[i]? with
  | none => rfl
  | some v => rfl

theorem removeAt_bare (items : Items) (i : Nat) :
    removeAt (items.map Value.bare) i = (items.removeAt i).map Value.bare := by
  unfold removeAt
  rw [← Array.toList_inj, Array.toList_eraseIdxIfInBounds, Array.toList_map, Array.toList_map,
    Array.toList_eraseIdxIfInBounds]
  exact List.eraseIdx_map _ _ _

theorem write_bare (items : Items) (i : Nat) (v : Value) :
    write (items.map Value.bare) i v.bare = (items.write i v).map (Array.map Value.bare) := by
  unfold write
  rw [v.isNull_bare, removeAt_bare, Array.size_map]
  split_ifs with null inside wide
  · rfl
  · rw [Except.map, Array.map_setIfInBounds]
  · rfl
  · rw [Except.map, Array.map_push, Array.map_append, Array.map_replicate]
    rfl

end Items

/-! ### dictionaries -/

/-- A dictionary, and the same one of bare values. -/
structure Dictionary.Bares (d d' : Dictionary) : Prop where
  entries : ∀ key : String, d'.entries[key]? = d.entries[key]?.map (Prod.map Value.bare id)
  size : d'.size = d.size
  order : d'.order = d.order

namespace Dictionary.Bares

theorem empty : Bares .empty .empty where
  entries _ := rfl
  size := rfl
  order := rfl

variable {d d' : Dictionary} (h : d.Bares d')

include h

theorem get (key : String) : d'.get key = (d.get key).bare := by
  unfold Dictionary.get Dictionary.get?
  rw [h.entries]
  cases d.entries[key]? with
  | none => rfl
  | some e => rfl

theorem keys : d'.keys = d.keys := congrArg Ledger.keys h.order

theorem first? : d'.first? = d.first? := congrArg Ledger.first? h.order

theorem entryAndNext? (key : String) :
    d'.entryAndNext? key = (d.entryAndNext? key).map (Prod.map Value.bare id) := by
  unfold Dictionary.entryAndNext?
  rw [h.entries, h.order]
  cases d.entries[key]? with
  | none => rfl
  | some e => rfl

theorem contains (key : String) : d'.entries.contains key = d.entries.contains key := by
  rw [Std.TreeMap.contains_eq_isSome_getElem?, Std.TreeMap.contains_eq_isSome_getElem?, h.entries,
    Option.isSome_map]

theorem insert (key : String) (v : Value) (slot : Nat) {order : Ledger} :
    Bares ⟨d.entries.insert key (v, slot), order⟩ ⟨d'.entries.insert key (v.bare, slot), order⟩ where
  entries k := by
    dsimp only
    rw [getElem?_insert, getElem?_insert]
    split_ifs with here
    · rfl
    · exact h.entries k
  size := by
    have size : d'.entries.size = d.entries.size := h.size
    unfold Dictionary.size
    dsimp only
    rw [Std.TreeMap.size_insert, Std.TreeMap.size_insert, h.contains, size]
  order := rfl

theorem erase (key : String) {order : Ledger} :
    Bares ⟨d.entries.erase key, order⟩ ⟨d'.entries.erase key, order⟩ where
  entries k := by
    dsimp only
    rw [getElem?_erase, getElem?_erase]
    split_ifs with here
    · rfl
    · exact h.entries k
  size := by
    have size : d'.entries.size = d.entries.size := h.size
    unfold Dictionary.size
    dsimp only
    rw [Std.TreeMap.size_erase, Std.TreeMap.size_erase, h.contains, size]
  order := rfl

theorem set (key : String) (v : Value) : (d.set key v).Bares (d'.set key v.bare) := by
  unfold Dictionary.set
  rw [h.entries, h.order, v.isNull_bare]
  cases d.entries[key]? with
  | some e =>
    obtain ⟨old, slot⟩ := e
    dsimp only [Option.map_some, Prod.map]
    split_ifs with null
    · exact h.erase key
    · exact h.insert key v slot
  | none =>
    dsimp only [Option.map_none]
    split_ifs with null
    · exact h
    · exact h.insert key v _

theorem writes (l : List (String × Value)) : Bares (l.foldl (fun d e => d.set e.1 e.2) d)
    ((l.map (Prod.map id Value.bare)).foldl (fun d e => d.set e.1 e.2) d') := by
  induction l generalizing d d' with
  | nil => exact h
  | cons e l ih => exact ih (h.set e.1 e.2)

end Dictionary.Bares

/-! ### heaps -/

/-- A collection, and the same one of bare values. -/
inductive Cell.Bares : Cell → Cell → Prop where
  | array (items : Items) : Bares (.array items) (.array (items.map Value.bare))
  | dictionary {d d' : Dictionary} (h : d.Bares d') : Bares (.dictionary d) (.dictionary d')

/-- A heap, and the same one of bare values. -/
structure Heap.Bares (h h' : Heap) : Prop where
  size : h'.size = h.size
  cells : ∀ a : Address, Option.Rel Cell.Bares h[a]? h'[a]?

namespace Heap.Bares

theorem empty : Bares #[] #[] where
  size := rfl
  cells _ := .none

variable {h h' : Heap} (bares : h.Bares h')

include bares

theorem items (a : Address) : h'.items a = (h.items a).map Value.bare := by
  have cell := bares.cells a
  unfold Heap.items
  generalize h[a]? = old at cell ⊢
  generalize h'[a]? = new at cell ⊢
  cases cell with
  | none => exact Array.map_empty.symm
  | some cell =>
    cases cell with
    | array items => rfl
    | dictionary _ => exact Array.map_empty.symm

theorem entries (a : Address) : (h.entries a).Bares (h'.entries a) := by
  have cell := bares.cells a
  unfold Heap.entries
  generalize h[a]? = old at cell ⊢
  generalize h'[a]? = new at cell ⊢
  cases cell with
  | none => exact .empty
  | some cell =>
    cases cell with
    | array items => exact .empty
    | dictionary d => exact d

theorem push {cell cell' : Cell} (new : cell.Bares cell') : Bares (h.push cell) (h'.push cell') where
  size := by rw [Array.size_push, Array.size_push, bares.size]
  cells a := by
    rw [Array.getElem?_push, Array.getElem?_push, bares.size]
    split_ifs with last
    · exact .some new
    · exact bares.cells a

theorem set (a : Address) {cell cell' : Cell} (new : cell.Bares cell') :
    Bares (h.setIfInBounds a cell) (h'.setIfInBounds a cell') where
  size := by rw [Array.size_setIfInBounds, Array.size_setIfInBounds, bares.size]
  cells i := by
    rw [Array.getElem?_setIfInBounds, Array.getElem?_setIfInBounds, bares.size]
    split_ifs with here inside
    · exact .some new
    · exact .none
    · exact bares.cells i

theorem setItems (a : Address) (items : Items) :
    Bares (h.setItems a items) (h'.setItems a (items.map Value.bare)) :=
  bares.set a (.array items)

theorem setEntries (a : Address) {d d' : Dictionary} (new : d.Bares d') :
    Bares (h.setEntries a d) (h'.setEntries a d') :=
  bares.set a (.dictionary new)

/-! ### texts -/

theorem textWithin (fuel : Nat) (path : List Address) (v : Value) :
    h'.textWithin fuel path v.bare = h.textWithin fuel path v := by
  induction fuel generalizing path v with
  | zero =>
    cases v with
    | function id closure =>
      simp only [Value.bare, Heap.textWithin, closure.name_bare]
    | _ => simp only [Value.bare, Heap.textWithin]
  | succ fuel ih =>
    cases v with
    | function id closure =>
      simp only [Value.bare, Heap.textWithin, closure.name_bare]
    | array a =>
      have texts : (h'.items a).toList.map (h'.textWithin fuel (a :: path)) =
          (h.items a).toList.map (h.textWithin fuel (a :: path)) := by
        rw [bares.items, Array.toList_map, List.map_map]
        exact List.map_congr_left fun v _ => ih (a :: path) v
      simp only [Value.bare, Heap.textWithin, texts]
    | dictionary a =>
      have entries := bares.entries a
      have texts (key : String) : h'.textWithin fuel (a :: path) ((h'.entries a).get key) =
          h.textWithin fuel (a :: path) ((h.entries a).get key) := by
        rw [entries.get]
        exact ih (a :: path) _
      simp only [Value.bare, Heap.textWithin, entries.keys, texts]
    | _ => simp only [Value.bare, Heap.textWithin]

theorem text (v : Value) : h'.text v.bare = h.text v := by
  unfold Heap.text
  rw [bares.size]
  exact bares.textWithin _ _ v

theorem key (v : Value) : h'.key v.bare = h.key v := by
  cases v with
  | string s => rfl
  | _ => exact bares.text _

theorem shown (v : Value) : h'.shown v.bare = h.shown v := by
  have verbose : h'.verboseText v.bare = h.verboseText v := by
    cases v with
    | null => rfl
    | string s => rfl
    | function id closure =>
      exact congrArg (fun name => "Function(" ++ name ++ ")") closure.name_bare
    | native id builtin => rfl
    | _ =>
      refine congrArg (fun text => _ ++ "(" ++ text ++ ")") ?_
      exact bares.text _
  unfold Heap.shown
  rw [v.type_bare, bares.text, verbose]

/-! ### iterations -/

theorem iterate (v : Value) : h'.iterate v.bare = h.iterate v := by
  cases v with
  | dictionary a =>
    have first := (bares.entries a).first?
    exact congrArg (fun key => Except.ok (Iteration.dictionary a key)) first
  | _ => rfl

theorem advance (it : Iteration) : h'.advance it =
    Prod.map (Option.map (Prod.map Value.bare Value.bare)) id (h.advance it) := by
  cases it with
  | array a i =>
    unfold Heap.advance
    dsimp only
    rw [bares.items, Array.getElem?_map]
    cases (h.items a)[i]? with
    | none => rfl
    | some v => rfl
  | dictionary a next =>
    cases next with
    | none => rfl
    | some key =>
      unfold Heap.advance
      dsimp only
      rw [(bares.entries a).entryAndNext?]
      cases (h.entries a).entryAndNext? key with
      | none => rfl
      | some e => rfl

end Heap.Bares

end Roteiro
