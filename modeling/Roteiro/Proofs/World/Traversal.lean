import Roteiro.Proofs.World.Tidy

/-!
Traversals: an iteration over a collection that grows meanwhile. Between two entries anything may be
appended to the collection or overwritten in it, and each entry is yielded with the value that it has
then. An array is asked for its size at each step, so when its iteration ends every index has been
yielded (`Traversed.keys_array`). An iteration over a dictionary fixes the key that it will yield
next when it yields the one before: it ends with the keys that were there when the last of them was
yielded, and a key that comes later is left out (`Traversed.keys_dictionary`).
-/

namespace Roteiro

/-- The entries of a collection in order, each index or key with its value. -/
def Heap.listing (h : Heap) : Value → List (Value × Value)
  | .array a => (h.items a).toList.mapIdx fun i item => (.number (Float.ofNat i), item)
  | .dictionary a => (h.entries a).keys.map fun key => (.string key, (h.entries a).get key)
  | _ => []

/-- A write to a collection that only appends or overwrites. -/
inductive Grows : Value → World → World → Prop
  | push (w : World) (a : Address) (value : Value) : Grows (.array a) w (w.pushItem a value)
  | overwrite (w : World) (a : Address) {index : Nat} {value : Value}
    (inside : index < (w.heap.items a).size) (there : value.isNull = false) :
    Grows (.array a) w (w.writeItem a index value).2
  | enter (w : World) (a : Address) (key : String) {value : Value} (there : value.isNull = false) :
    Grows (.dictionary a) w (w.writeEntry a key value)

/-- An entry that was yielded, with the world from which it was read. -/
structure Sighting where
  world : World
  key : Value
  value : Value

/-- `Traversed v start w it seen`: an iteration over `v` began in the world `start`; with writes to
`v` in between that only append or overwrite, it has come to the world `w` and stands at `it`. It has
yielded the entries `seen`, oldest first, and has not yet reported its end. -/
inductive Traversed (v : Value) (start : World) : World → Iteration → List Sighting → Prop
  | start {it : Iteration} (begun : start.heap.iterate v = .ok it) : Traversed v start start it []
  | write {w w' : World} {it : Iteration} {seen : List Sighting}
    (before : Traversed v start w it seen) (grown : Grows v w w') : Traversed v start w' it seen
  | next {w : World} {it it' : Iteration} {seen : List Sighting} {key value : Value}
    (before : Traversed v start w it seen)
    (yielded : w.heap.advance it = (some (key, value), it')) :
    Traversed v start w it' (seen ++ [⟨w, key, value⟩])

/-- The world from which the last entry was read, at first the one in which the iteration began. -/
def lastSighted (start : World) (seen : List Sighting) : World :=
  (seen.getLast?.map Sighting.world).getD start

theorem lastSighted_append (start : World) (seen : List Sighting) (s : Sighting) :
    lastSighted start (seen ++ [s]) = s.world := by
  unfold lastSighted
  rw [List.getLast?_concat]
  rfl

/-! ### arrays -/

theorem Heap.items_setItems {h : Heap} {a : Address} (inside : a < h.size) (items : Items) :
    (h.setItems a items).items a = items := by
  unfold setItems Heap.items
  rw [Array.getElem?_setIfInBounds_self_of_lt inside]

/-- Only an address of the heap has items. -/
theorem Heap.lt_size_of_items {h : Heap} {a : Address} {i : Nat} (inside : i < (h.items a).size) :
    a < h.size := by
  by_contra outside
  unfold Heap.items at inside
  rw [Array.getElem?_eq_none (Nat.le_of_not_lt outside)] at inside
  exact Nat.not_lt_zero i inside

theorem Heap.keys_listing_array (h : Heap) (a : Address) :
    (h.listing (.array a)).map Prod.fst =
      (List.range (h.items a).size).map fun i => .number (Float.ofNat i) := by
  unfold listing
  apply List.ext_getElem
  · simp
  · intro i _ _
    simp

/-- No write that appends or overwrites makes an array shorter. -/
theorem Grows.size_le {a : Address} {w w' : World} (grown : Grows (.array a) w w') :
    (w.heap.items a).size ≤ (w'.heap.items a).size := by
  by_cases empty : (w.heap.items a).size = 0
  · omega
  have present : a < w.heap.size := Heap.lt_size_of_items (Nat.pos_of_ne_zero empty)
  cases grown with
  | push _ value =>
    unfold World.pushItem
    rw [Heap.items_setItems present, Array.size_push]
    omega
  | @overwrite _ _ index value inside there =>
    have written : (w.heap.items a).write index value =
        .ok ((w.heap.items a).setIfInBounds index value) := by
      unfold Items.write
      rw [there, if_neg Bool.false_ne_true, if_pos inside]
    unfold World.writeItem
    rw [written]
    dsimp only
    rw [Heap.items_setItems present]
    exact Nat.le_of_eq Array.size_setIfInBounds.symm

/-- What one step of an iteration over an array yields. -/
theorem Heap.advance_array {h : Heap} {a : Address} {index : Nat} {key value : Value}
    {it : Iteration} (yielded : h.advance (.array a index) = (some (key, value), it)) :
    index < (h.items a).size ∧ key = .number (Float.ofNat index) ∧ it = .array a (index + 1) ∧
      (key, value) ∈ h.listing (.array a) := by
  unfold advance at yielded
  dsimp only at yielded
  split at yielded
  · next item found =>
    obtain ⟨inside, rfl⟩ := Array.getElem?_eq_some_iff.1 found
    cases yielded
    refine ⟨inside, rfl, rfl, ?_⟩
    unfold listing
    rw [List.mem_mapIdx]
    exact ⟨index, by simpa using inside, rfl⟩
  · cases yielded

/-- An iteration over an array stands at the index after those that it has yielded. -/
theorem Traversed.array {a : Address} {start w : World} {it : Iteration} {seen : List Sighting}
    (run : Traversed (.array a) start w it seen) :
    it = .array a seen.length ∧ seen.length ≤ (w.heap.items a).size ∧
      (seen.map Sighting.key = (List.range seen.length).map fun i => .number (Float.ofNat i)) ∧
      ∀ s ∈ seen, (s.key, s.value) ∈ s.world.heap.listing (.array a) := by
  induction run with
  | start begun =>
    cases begun
    exact ⟨rfl, Nat.zero_le _, rfl, fun _ none => nomatch none⟩
  | write _ grown ih =>
    obtain ⟨place, fits, keys, values⟩ := ih
    exact ⟨place, Nat.le_trans fits grown.size_le, keys, values⟩
  | @next w it it' seen key value _ yielded ih =>
    obtain ⟨rfl, fits, keys, values⟩ := ih
    obtain ⟨inside, rfl, rfl, listed⟩ := Heap.advance_array yielded
    refine ⟨by simp, by simpa using Nat.succ_le_of_lt inside, ?_, ?_⟩
    · rw [List.map_append, keys, List.length_append, List.length_singleton, List.range_succ,
        List.map_append]
      rfl
    · intro s member
      rcases List.mem_append.1 member with old | new
      · exact values s old
      · obtain rfl := List.mem_singleton.1 new
        exact listed

/-! ### dictionaries -/

/-- A value written under a key leaves the keys as they are, or adds one at the end. -/
theorem Dictionary.keys_write {key : String} {value : Value} (there : value.isNull = false)
    (l : List (String × Value)) :
    ∃ late, (write key value l).map Prod.fst = l.map Prod.fst ++ late := by
  unfold write
  rw [there, if_neg Bool.false_ne_true]
  split
  · refine ⟨[], ?_⟩
    rw [List.append_nil, List.map_map]
    refine List.map_congr_left fun e _ => ?_
    by_cases same : e.1 = key
    · simp [same]
    · simp [same]
  · exact ⟨[key], List.map_append⟩

theorem Heap.entries_setEntries (h : Heap) (a : Address) (d : Dictionary) :
    (h.setEntries a d).entries a = d ∨ (h.setEntries a d).entries a = h.entries a := by
  unfold setEntries Heap.entries
  by_cases inside : a < h.size
  · left
    rw [Array.getElem?_setIfInBounds_self_of_lt inside]
  · right
    rw [Array.setIfInBounds_eq_of_size_le (Nat.le_of_not_lt inside)]

/-- A write that appends or overwrites leaves the keys of a dictionary in their places. -/
theorem Grows.keys {a : Address} {w w' : World} (grown : Grows (.dictionary a) w w')
    {rows : List Dictionary.Row} (holds : (w.heap.entries a).Holds rows) :
    ∃ rows' late, (w'.heap.entries a).Holds rows' ∧
      (Dictionary.listed rows').map Prod.fst = (Dictionary.listed rows).map Prod.fst ++ late := by
  cases grown with
  | @enter _ _ key value there =>
    unfold World.writeEntry
    dsimp only
    rcases w.heap.entries_setEntries a ((w.heap.entries a).set key value) with new | same
    · obtain ⟨rows', holds', written⟩ := holds.set key value
      obtain ⟨late, keys⟩ := Dictionary.keys_write there (Dictionary.listed rows)
      rw [new]
      exact ⟨rows', late, holds', written ▸ keys⟩
    · rw [same]
      exact ⟨rows, [], holds, (List.append_nil _).symm⟩

/-- What one step of an iteration over a dictionary yields when its key is there. -/
theorem Heap.advance_dictionary {h : Heap} {a : Address} {rows : List Dictionary.Row}
    (holds : (h.entries a).Holds rows) {visited later : List String} {key : String}
    (split : (Dictionary.listed rows).map Prod.fst = visited ++ key :: later) :
    ∃ value, h.advance (.dictionary a (some key)) =
        (some (.string key, value), .dictionary a later.head?) ∧
      (.string key, value) ∈ h.listing (.dictionary a) := by
  obtain ⟨before, rest, listed, _, tail⟩ := List.map_eq_append_iff.1 split
  obtain ⟨⟨key, value⟩, after, rfl, rfl, rfl⟩ := List.map_eq_cons_iff.1 tail
  refine ⟨value, ?_, ?_⟩
  · unfold advance
    dsimp only
    rw [holds.entryAndNext? listed]
  · have member : (key, value) ∈ Dictionary.listed rows := by
      rw [listed]
      exact List.mem_append_right _ List.mem_cons_self
    unfold listing
    dsimp only
    rw [holds.keys_eq, List.map_map]
    refine List.mem_map.2 ⟨_, member, ?_⟩
    dsimp only [Function.comp]
    rw [holds.get_of_listed member]

/-- How far an iteration over a dictionary has come: the keys of the dictionary are those yielded
and then the rest, and the iteration stands at the first of the rest, or else it had no key left
when it last moved. -/
structure Midway (a : Address) (start w : World) (it : Iteration) (seen : List Sighting)
    (visited rest : List String) : Prop where
  keys : ∃ rows, (w.heap.entries a).Holds rows ∧
    (Dictionary.listed rows).map Prod.fst = visited ++ rest
  yielded : seen.map Sighting.key = visited.map .string
  place : (∃ key later, rest = key :: later ∧ it = .dictionary a (some key)) ∨
    it = .dictionary a none ∧ ((lastSighted start seen).heap.entries a).keys = visited
  values : ∀ s ∈ seen, (s.key, s.value) ∈ s.world.heap.listing (.dictionary a)

namespace Midway

variable {a : Address} {start w w' : World} {it : Iteration} {seen : List Sighting}
  {visited rest : List String}

theorem begin (tidy : start.heap.Tidy) :
    Midway a start start (.dictionary a (start.heap.entries a).first?) [] []
      (start.heap.entries a).keys := by
  obtain ⟨rows, holds⟩ := tidy.entries a
  have first := holds.refines.first
  rw [← holds.keys_eq] at first
  refine ⟨⟨rows, holds, holds.keys_eq.symm⟩, rfl, ?_, fun _ none => nomatch none⟩
  rw [first]
  cases keys : (start.heap.entries a).keys with
  | nil => exact .inr ⟨rfl, keys⟩
  | cons key later => exact .inl ⟨key, later, rfl, rfl⟩

theorem write (midway : Midway a start w it seen visited rest)
    (grown : Grows (.dictionary a) w w') :
    ∃ late, Midway a start w' it seen visited (rest ++ late) := by
  obtain ⟨rows, holds, keys⟩ := midway.keys
  obtain ⟨rows', late, holds', keys'⟩ := grown.keys holds
  refine ⟨late, ⟨rows', holds', ?_⟩, midway.yielded, ?_, midway.values⟩
  · rw [keys', keys, List.append_assoc]
  · rcases midway.place with ⟨key, later, rfl, place⟩ | ended
    · exact .inl ⟨key, later ++ late, rfl, place⟩
    · exact .inr ended

theorem next (midway : Midway a start w it seen visited rest) {key value : Value}
    {it' : Iteration} (yielded : w.heap.advance it = (some (key, value), it')) :
    ∃ visited' rest', Midway a start w it' (seen ++ [⟨w, key, value⟩]) visited' rest' := by
  obtain ⟨rows, holds, keys⟩ := midway.keys
  rcases midway.place with ⟨name, later, rfl, rfl⟩ | ⟨rfl, _⟩
  · obtain ⟨value', advanced, listed⟩ := Heap.advance_dictionary holds keys
    rw [advanced] at yielded
    cases yielded
    refine ⟨visited ++ [name], later, ⟨rows, holds, by simpa using keys⟩, ?_, ?_, ?_⟩
    · rw [List.map_append, midway.yielded, List.map_append]
      rfl
    · cases later with
      | nil =>
        right
        rw [lastSighted_append, holds.keys_eq, keys]
        exact ⟨rfl, rfl⟩
      | cons key later => exact .inl ⟨key, later, rfl, rfl⟩
    · intro s member
      rcases List.mem_append.1 member with old | new
      · exact midway.values s old
      · obtain rfl := List.mem_singleton.1 new
        exact listed
  · cases yielded

end Midway

theorem Traversed.midway {a : Address} {start w : World} {it : Iteration} {seen : List Sighting}
    (tidy : start.heap.Tidy) (run : Traversed (.dictionary a) start w it seen) :
    ∃ visited rest, Midway a start w it seen visited rest := by
  induction run with
  | start begun =>
    cases begun
    exact ⟨[], _, .begin tidy⟩
  | write _ grown ih =>
    obtain ⟨visited, rest, midway⟩ := ih
    obtain ⟨late, midway⟩ := midway.write grown
    exact ⟨visited, rest ++ late, midway⟩
  | next _ yielded ih =>
    obtain ⟨visited, rest, midway⟩ := ih
    exact midway.next yielded

/-! ### what has been seen at the end -/

/-- **An iteration over an array that only grows ends when every item has been yielded.** -/
theorem Traversed.keys_array {a : Address} {start w : World} {it : Iteration}
    {seen : List Sighting} (run : Traversed (.array a) start w it seen)
    (ended : (w.heap.advance it).1 = none) :
    seen.map Sighting.key = (w.heap.listing (.array a)).map Prod.fst := by
  obtain ⟨rfl, fits, keys, _⟩ := run.array
  have past : (w.heap.items a).size ≤ seen.length := by
    unfold Heap.advance at ended
    dsimp only at ended
    split at ended
    · cases ended
    · next gone => exact Array.getElem?_eq_none_iff.1 gone
  rw [keys, Heap.keys_listing_array, Nat.le_antisymm fits past]

theorem Heap.keys_listing_dictionary (h : Heap) (a : Address) :
    (h.listing (.dictionary a)).map Prod.fst = (h.entries a).keys.map .string := by
  unfold listing
  rw [List.map_map]
  rfl

/-- **An iteration over a dictionary that only grows ends with the keys that were there when the last
of them was yielded**, and these are the first that the dictionary has. -/
theorem Traversed.keys_dictionary {a : Address} {start w : World} {it : Iteration}
    {seen : List Sighting} (tidy : start.heap.Tidy) (run : Traversed (.dictionary a) start w it seen)
    (ended : (w.heap.advance it).1 = none) :
    seen.map Sighting.key = ((lastSighted start seen).heap.listing (.dictionary a)).map Prod.fst ∧
      seen.map Sighting.key <+: (w.heap.listing (.dictionary a)).map Prod.fst := by
  obtain ⟨visited, rest, midway⟩ := run.midway tidy
  obtain ⟨rows, holds, keys⟩ := midway.keys
  rcases midway.place with ⟨key, later, rfl, rfl⟩ | ⟨rfl, last⟩
  · obtain ⟨value, advanced, _⟩ := Heap.advance_dictionary holds keys
    rw [advanced] at ended
    cases ended
  · rw [midway.yielded, Heap.keys_listing_dictionary, Heap.keys_listing_dictionary, last,
      holds.keys_eq, keys, List.map_append]
    exact ⟨rfl, List.prefix_append _ _⟩

theorem Traversed.collection {v : Value} {start w : World} {it : Iteration}
    {seen : List Sighting} (run : Traversed v start w it seen) :
    (∃ a, v = .array a) ∨ ∃ a, v = .dictionary a := by
  induction run with
  | start begun =>
    unfold Heap.iterate at begun
    split at begun
    · exact .inl ⟨_, rfl⟩
    · exact .inr ⟨_, rfl⟩
    · cases begun
  | write _ _ ih => exact ih
  | next _ _ ih => exact ih

/-- **What an iteration over a growing collection sees.** Each entry is yielded with the value that
it has then. Those yielded before the end are the first that the collection has at the end, each
once and in order; they are all of them just if the collection is an array, or no key has come since
the last entry was yielded. -/
theorem Traversed.sees_all_iff {v : Value} {start w : World} {it : Iteration}
    {seen : List Sighting} (tidy : start.heap.Tidy) (run : Traversed v start w it seen)
    (ended : (w.heap.advance it).1 = none) :
    (∀ s ∈ seen, (s.key, s.value) ∈ s.world.heap.listing v) ∧
      seen.map Sighting.key <+: (w.heap.listing v).map Prod.fst ∧
      (seen.map Sighting.key = (w.heap.listing v).map Prod.fst ↔
        (∃ a, v = .array a) ∨
          (w.heap.listing v).length = ((lastSighted start seen).heap.listing v).length) := by
  rcases run.collection with ⟨a, rfl⟩ | ⟨a, rfl⟩
  · have all := run.keys_array ended
    refine ⟨run.array.2.2.2, all ▸ List.prefix_rfl, fun _ => .inl ⟨a, rfl⟩, fun _ => all⟩
  · obtain ⟨visited, rest, midway⟩ := run.midway tidy
    obtain ⟨last, first⟩ := run.keys_dictionary tidy ended
    refine ⟨midway.values, first, ?_, ?_⟩
    · intro all
      right
      have same := congrArg List.length (all.symm.trans last)
      simpa using same
    · rintro (⟨_, clash⟩ | same)
      · cases clash
      · refine first.eq_of_length ?_
        rw [last, List.length_map, List.length_map, same]

/-- A world with a dictionary of one entry and nothing else. -/
def oneEntry : World :=
  { heap := #[.dictionary (.ofList [("a", .number 1)])], terminal := .captured [] }

theorem oneEntry_tidy : oneEntry.heap.Tidy := by
  intro cell member
  obtain rfl := Array.mem_singleton.1 member
  obtain ⟨rows, holds, _⟩ := Dictionary.Holds.empty.writes [("a", .number 1)]
  exact ⟨rows, holds⟩

/-- The same dictionary with a second entry. -/
def twoEntries : World := oneEntry.writeEntry 0 "b" (.number 2)

/-- The second entry comes before the first has been yielded. -/
theorem twoEntries_in_time : Traversed (.dictionary 0) oneEntry twoEntries (.dictionary 0 none)
    [⟨twoEntries, .string "a", .number 1⟩, ⟨twoEntries, .string "b", .number 2⟩] := by
  have begun : Traversed (.dictionary 0) oneEntry oneEntry (.dictionary 0 (some "a")) [] :=
    .start rfl
  have written : Traversed (.dictionary 0) oneEntry twoEntries (.dictionary 0 (some "a")) [] :=
    begun.write (.enter oneEntry 0 "b" rfl)
  have yielded : Traversed (.dictionary 0) oneEntry twoEntries (.dictionary 0 (some "b"))
      [⟨twoEntries, .string "a", .number 1⟩] := written.next rfl
  exact yielded.next rfl

theorem Traversed.sees_all_in_time :
    oneEntry.heap.Tidy ∧ (twoEntries.heap.advance (.dictionary 0 none)).1 = none ∧
      [Value.string "a", .string "b"] =
        (twoEntries.heap.listing (.dictionary 0)).map Prod.fst :=
  ⟨oneEntry_tidy, rfl,
    (Traversed.sees_all_iff oneEntry_tidy twoEntries_in_time rfl).2.2.2 (.inr rfl)⟩

/-- The second entry comes after the first has been yielded. -/
theorem twoEntries_late : Traversed (.dictionary 0) oneEntry twoEntries (.dictionary 0 none)
    [⟨oneEntry, .string "a", .number 1⟩] := by
  have begun : Traversed (.dictionary 0) oneEntry oneEntry (.dictionary 0 (some "a")) [] :=
    .start rfl
  have yielded : Traversed (.dictionary 0) oneEntry oneEntry (.dictionary 0 none)
      [⟨oneEntry, .string "a", .number 1⟩] := begun.next rfl
  exact yielded.write (.enter oneEntry 0 "b" rfl)

/-- **A key that comes while the last entry is being processed is not seen.** -/
theorem Traversed.late_key_unseen :
    ∃ start w it seen, start.heap.Tidy ∧ Traversed (.dictionary 0) start w it seen ∧
      (w.heap.advance it).1 = none ∧
      seen.map Sighting.key ≠ (w.heap.listing (.dictionary 0)).map Prod.fst := by
  refine ⟨oneEntry, twoEntries, _, _, oneEntry_tidy, twoEntries_late, rfl, ?_⟩
  intro all
  have count := congrArg List.length all
  revert count
  decide

end Roteiro
