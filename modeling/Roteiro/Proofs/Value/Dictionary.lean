import Mathlib.Data.List.Nodup
import Roteiro.Proofs.Value.Ledger
import Roteiro.Value.Printer

/-!
Dictionaries as association lists. A dictionary is kept twice, its values in a map and its keys in a
ledger, and beside each value the map has the slot of the key. Both are read off one list of rows,
each a slot with its key and its value (`Dictionary.Holds`): every write changes the rows in one
place, so the two never part. Without the slots the rows are an association list, which says all
that can be seen of a dictionary (`Dictionary.Refines`).
-/

namespace Roteiro.Dictionary

/-- A key with its slot and its value. -/
structure Row where
  slot : Nat
  key : String
  value : Value

/-- The rows as the ledger has them. -/
def chain (rows : List Row) : Ledger.Chain := rows.map fun r => (r.slot, r.key)

/-- The rows as they can be seen. -/
def listed (rows : List Row) : List (String × Value) := rows.map fun r => (r.key, r.value)

/-- A dictionary holds rows: its ledger has their slots and keys in order, its map has each value
under its key with the slot beside it, and none of the values is null. -/
structure Holds (d : Dictionary) (rows : List Row) : Prop where
  ledger : d.order.Holds (chain rows)
  nodup : (rows.map Row.key).Nodup
  entries : ∀ k v s, d.entries[k]? = some (v, s) ↔ ⟨s, k, v⟩ ∈ rows
  size : d.entries.size = rows.length
  values : ∀ r ∈ rows, r.value.isNull = false

/-! ### rows -/

theorem chain_append (a b : List Row) : chain (a ++ b) = chain a ++ chain b := List.map_append

theorem listed_append (a b : List Row) : listed (a ++ b) = listed a ++ listed b := List.map_append

theorem keys_chain (rows : List Row) : (chain rows).keys = (listed rows).map Prod.fst := by
  unfold Ledger.Chain.keys chain listed
  rw [List.map_map, List.map_map]
  rfl

theorem keys_listed (rows : List Row) : (listed rows).map Prod.fst = rows.map Row.key := by
  unfold listed
  rw [List.map_map]
  rfl

theorem getElem?_insert (entries : Std.TreeMap String (Value × Nat)) (key k : String)
    (e : Value × Nat) :
    (entries.insert key e)[k]? = if key = k then some e else entries[k]? := by
  rw [Std.TreeMap.getElem?_insert]
  by_cases hk : key = k
  · rw [if_pos hk, if_pos (Std.compare_eq_iff_eq.2 hk)]
  · rw [if_neg hk, if_neg fun h => hk (Std.compare_eq_iff_eq.1 h)]

theorem getElem?_erase (entries : Std.TreeMap String (Value × Nat)) (key k : String) :
    (entries.erase key)[k]? = if key = k then none else entries[k]? := by
  rw [Std.TreeMap.getElem?_erase]
  by_cases hk : key = k
  · rw [if_pos hk, if_pos (Std.compare_eq_iff_eq.2 hk)]
  · rw [if_neg hk, if_neg fun h => hk (Std.compare_eq_iff_eq.1 h)]

theorem Holds.empty : empty.Holds [] where
  ledger := Ledger.Holds.empty
  nodup := List.nodup_nil
  entries k v s := by
    constructor
    · intro h
      cases h
    · intro h
      cases h
  size := rfl
  values r h := by cases h

namespace Holds

variable {d : Dictionary} {a b rows : List Row} {slot : Nat} {key : String} {old : Value}

theorem entry (h : d.Holds (a ++ ⟨slot, key, old⟩ :: b)) : d.entries[key]? = some (old, slot) :=
  (h.entries key old slot).2 (List.mem_append_right _ List.mem_cons_self)

/-- A key has only one row. -/
theorem apart (h : d.Holds (a ++ ⟨slot, key, old⟩ :: b)) :
    key ∉ a.map Row.key ∧ key ∉ b.map Row.key := by
  have nodup := h.nodup
  rw [List.map_append] at nodup
  obtain ⟨-, nodupB, apart⟩ := List.nodup_append.1 nodup
  exact ⟨fun ha => apart key ha key List.mem_cons_self rfl, (List.nodup_cons.1 nodupB).1⟩

/-- A key that the map does not have has no row. -/
theorem absent (h : d.Holds rows) (hk : d.entries[key]? = none) : key ∉ rows.map Row.key := by
  intro hm
  obtain ⟨⟨s, k, v⟩, hr, rfl⟩ := List.mem_map.1 hm
  have := (h.entries k v s).2 hr
  rw [hk] at this
  cases this

/-- A key that the map has splits the rows. -/
theorem split (h : d.Holds rows) (hk : d.entries[key]? = some (old, slot)) :
    ∃ a b, rows = a ++ ⟨slot, key, old⟩ :: b :=
  List.append_of_mem ((h.entries key old slot).1 hk)

/-! ### one write -/

/-- Writing null under a key that is there takes its row out. -/
theorem erase (h : d.Holds (a ++ ⟨slot, key, old⟩ :: b)) {value : Value}
    (hv : value.isNull = true) : (d.set key value).Holds (a ++ b) := by
  obtain ⟨apartA, apartB⟩ := h.apart
  unfold Dictionary.set
  rw [h.entry]
  dsimp only
  rw [if_pos hv]
  constructor
  case ledger =>
    have ledger := h.ledger
    rw [chain_append] at ledger
    rw [chain_append]
    exact ledger.remove.2
  case nodup =>
    have sub : (a ++ b).Sublist (a ++ ⟨slot, key, old⟩ :: b) :=
      (List.sublist_cons_self _ b).append_left a
    exact h.nodup.sublist (sub.map Row.key)
  case entries =>
    intro k v s
    rw [getElem?_erase]
    by_cases hk : key = k
    · subst hk
      have gone : (⟨s, key, v⟩ : Row) ∉ a ++ b := by
        intro hm
        rcases List.mem_append.1 hm with ha | hb
        · exact apartA (List.mem_map_of_mem ha)
        · exact apartB (List.mem_map_of_mem hb)
      simp [gone]
    · have other : key ≠ k := hk
      rw [if_neg hk, h.entries]
      simp [other.symm]
  case size =>
    have there : d.entries.contains key = true := by
      rw [Std.TreeMap.contains_eq_isSome_getElem?, h.entry]
      rfl
    dsimp only
    rw [Std.TreeMap.size_erase, if_pos there, h.size]
    simp
  case values =>
    intro r hr
    apply h.values r
    rcases List.mem_append.1 hr with ha | hb
    · exact List.mem_append_left _ ha
    · exact List.mem_append_right _ (List.mem_cons_of_mem _ hb)

/-- Writing another value under a key that is there replaces the value in its row. -/
theorem replace (h : d.Holds (a ++ ⟨slot, key, old⟩ :: b)) {value : Value}
    (hv : value.isNull = false) : (d.set key value).Holds (a ++ ⟨slot, key, value⟩ :: b) := by
  obtain ⟨apartA, apartB⟩ := h.apart
  unfold Dictionary.set
  rw [h.entry]
  dsimp only
  rw [hv, if_neg Bool.false_ne_true]
  constructor
  case ledger =>
    -- The ledger does not have the value.
    have same : chain (a ++ ⟨slot, key, value⟩ :: b) = chain (a ++ ⟨slot, key, old⟩ :: b) := by
      simp [chain]
    rw [same]
    exact h.ledger
  case nodup =>
    have same : (a ++ ⟨slot, key, value⟩ :: b).map Row.key =
        (a ++ ⟨slot, key, old⟩ :: b).map Row.key := by
      simp
    rw [same]
    exact h.nodup
  case entries =>
    intro k v s
    dsimp only
    rw [getElem?_insert]
    by_cases hk : key = k
    · subst hk
      have notA : (⟨s, key, v⟩ : Row) ∉ a := fun ha => apartA (List.mem_map_of_mem ha)
      have notB : (⟨s, key, v⟩ : Row) ∉ b := fun hb => apartB (List.mem_map_of_mem hb)
      simp [notA, notB, and_comm, eq_comm]
    · have other : key ≠ k := hk
      rw [if_neg hk, h.entries]
      simp [other.symm]
  case size =>
    have there : d.entries.contains key = true := by
      rw [Std.TreeMap.contains_eq_isSome_getElem?, h.entry]
      rfl
    dsimp only
    rw [Std.TreeMap.size_insert, if_pos there, h.size]
    simp
  case values =>
    intro r hr
    rcases List.mem_append.1 hr with ha | hb
    · exact h.values r (List.mem_append_left _ ha)
    · rcases List.mem_cons.1 hb with rfl | hb
      · exact hv
      · exact h.values r (List.mem_append_right _ (List.mem_cons_of_mem _ hb))

/-- Writing a value under a new key adds a row at the end, with the slot that the ledger gives. -/
theorem append (h : d.Holds rows) (hk : d.entries[key]? = none) {value : Value}
    (hv : value.isNull = false) :
    (d.set key value).Holds (rows ++ [⟨(d.order.insert key).1, key, value⟩]) := by
  have absent := h.absent hk
  unfold Dictionary.set
  rw [hk]
  dsimp only
  rw [hv, if_neg Bool.false_ne_true]
  constructor
  case ledger =>
    rw [chain_append]
    exact (h.ledger.insert key).2
  case nodup =>
    rw [List.map_append]
    refine List.nodup_append.2 ⟨h.nodup, List.nodup_singleton _, ?_⟩
    intro k there k' new
    rintro rfl
    obtain rfl : k = key := List.mem_singleton.1 new
    exact absent there
  case entries =>
    intro k v s
    dsimp only
    rw [getElem?_insert]
    by_cases hk : key = k
    · subst hk
      have new : (⟨s, key, v⟩ : Row) ∉ rows := fun hr => absent (List.mem_map_of_mem hr)
      simp [new, and_comm, eq_comm]
    · have other : key ≠ k := hk
      rw [if_neg hk, h.entries]
      simp [other.symm]
  case size =>
    have new : ¬d.entries.contains key = true := by
      rw [Std.TreeMap.contains_eq_isSome_getElem?, hk]
      exact Bool.false_ne_true
    dsimp only
    rw [Std.TreeMap.size_insert, if_neg new, h.size]
    simp
  case values =>
    intro r hr
    rcases List.mem_append.1 hr with hr | hr
    · exact h.values r hr
    · obtain rfl := List.mem_singleton.1 hr
      exact hv

end Holds

/-! ### association lists -/

/-- An association list after a write: null takes the key out and keeps the order of the others, a
key that is there gets the value in its place, and a new key comes last. -/
def write (key : String) (value : Value) (l : List (String × Value)) : List (String × Value) :=
  if value.isNull then l.filter fun e => e.1 ≠ key
  else if key ∈ l.map Prod.fst then l.map fun e => if e.1 = key then (key, value) else e
  else l ++ [(key, value)]

section

variable {key : String} {value old : Value} {a b l : List (String × Value)}

theorem filter_absent (h : key ∉ l.map Prod.fst) : l.filter (fun e => e.1 ≠ key) = l := by
  rw [List.filter_eq_self]
  intro e he
  have other : e.1 ≠ key := fun heq => h (heq ▸ List.mem_map_of_mem he)
  simpa using other

theorem map_absent (h : key ∉ l.map Prod.fst) :
    (l.map fun e => if e.1 = key then (key, value) else e) = l := by
  have same : ∀ e ∈ l, (if e.1 = key then (key, value) else e) = e := by
    intro e he
    have other : e.1 ≠ key := fun heq => h (heq ▸ List.mem_map_of_mem he)
    rw [if_neg other]
  rw [List.map_congr_left same, List.map_id']

theorem write_null_absent (hv : value.isNull = true) (h : key ∉ l.map Prod.fst) :
    write key value l = l := by
  unfold write
  rw [if_pos hv, filter_absent h]

theorem write_null (hv : value.isNull = true) (ha : key ∉ a.map Prod.fst)
    (hb : key ∉ b.map Prod.fst) : write key value (a ++ (key, old) :: b) = a ++ b := by
  unfold write
  rw [if_pos hv, List.filter_append, filter_absent ha, List.filter_cons_of_neg (by simp),
    filter_absent hb]

theorem write_present (hv : value.isNull = false) (ha : key ∉ a.map Prod.fst)
    (hb : key ∉ b.map Prod.fst) :
    write key value (a ++ (key, old) :: b) = a ++ (key, value) :: b := by
  have there : key ∈ (a ++ (key, old) :: b).map Prod.fst := by simp
  unfold write
  rw [hv, if_neg Bool.false_ne_true, if_pos there, List.map_append, map_absent ha, List.map_cons,
    map_absent hb, if_pos rfl]

theorem write_absent (hv : value.isNull = false) (h : key ∉ l.map Prod.fst) :
    write key value l = l ++ [(key, value)] := by
  unfold write
  rw [hv, if_neg Bool.false_ne_true, if_neg h]

end

/-- **A write changes the rows of a dictionary as it changes an association list.** -/
theorem Holds.set {d : Dictionary} {rows : List Row} (h : d.Holds rows) (key : String)
    (value : Value) :
    ∃ rows', (d.set key value).Holds rows' ∧ listed rows' = write key value (listed rows) := by
  cases hk : d.entries[key]? with
  | none =>
    have absent := h.absent hk
    rw [← keys_listed] at absent
    cases hv : value.isNull with
    | true =>
      refine ⟨rows, ?_, (write_null_absent hv absent).symm⟩
      unfold Dictionary.set
      rw [hk]
      dsimp only
      rw [if_pos hv]
      exact h
    | false =>
      refine ⟨_, h.append hk hv, ?_⟩
      rw [write_absent hv absent, listed_append]
      rfl
  | some e =>
    obtain ⟨old, slot⟩ := e
    obtain ⟨a, b, rfl⟩ := h.split hk
    obtain ⟨apartA, apartB⟩ := h.apart
    rw [← keys_listed] at apartA apartB
    rw [listed_append]
    cases hv : value.isNull with
    | true =>
      refine ⟨_, h.erase hv, ?_⟩
      rw [listed_append]
      exact (write_null hv apartA apartB).symm
    | false =>
      refine ⟨_, h.replace hv, ?_⟩
      rw [listed_append]
      exact (write_present hv apartA apartB).symm

/-- **So do any number of writes.** -/
theorem Holds.writes {d : Dictionary} {rows : List Row} (h : d.Holds rows)
    (writes : List (String × Value)) :
    ∃ rows', (writes.foldl (fun d e => d.set e.1 e.2) d).Holds rows' ∧
      listed rows' = writes.foldl (fun l e => write e.1 e.2 l) (listed rows) := by
  induction writes generalizing d rows with
  | nil => exact ⟨rows, h, rfl⟩
  | cons e writes ih =>
    obtain ⟨rows₁, h₁, heq₁⟩ := h.set e.1 e.2
    obtain ⟨rows₂, h₂, heq₂⟩ := ih h₁
    refine ⟨rows₂, h₂, ?_⟩
    rw [heq₂, heq₁]
    rfl

/-! ### what is seen of a dictionary -/

/-- A dictionary refines an association list: the list has each key once and no null, and all that
is read off the dictionary is read off the list, in its order. The map and the ledger have the same
keys, each key in the slot that stands beside its value and in no other. -/
structure Refines (d : Dictionary) (l : List (String × Value)) : Prop where
  nodup : (l.map Prod.fst).Nodup
  values : ∀ e ∈ l, e.2.isNull = false
  get : ∀ key, d.get key = (l.lookup key).getD .null
  size : d.size = l.length
  keys : d.keys = l.map Prod.fst
  first : d.first? = (l.map Prod.fst).head?
  present : ∀ a key value b, l = a ++ (key, value) :: b →
    d.entryAndNext? key = some (value, (b.map Prod.fst).head?)
  absent : ∀ key, key ∉ l.map Prod.fst → d.entryAndNext? key = none
  text : ∀ (h : Heap) (address : Address) (fuel : Nat) (path : List Address),
    h.entries address = d → address ∉ path →
    h.textWithin (fuel + 1) path (.dictionary address) =
      "\x7b" ++ Text.commaSeparated (l.map fun e =>
        "[\"" ++ e.1 ++ "\"] = " ++ h.textWithin fuel (address :: path) e.2) ++ "\x7d"
  slots : ∀ key slot, d.order.keyAt? slot = some key ↔ ∃ value, d.entries[key]? = some (value, slot)
  ledger : ∀ key, key ∈ d.order.keys ↔ key ∈ d.entries

namespace Holds

variable {d : Dictionary} {rows : List Row} (h : d.Holds rows)

include h

theorem entry_of_listed {e : String × Value} (he : e ∈ listed rows) :
    ∃ slot, d.entries[e.1]? = some (e.2, slot) := by
  obtain ⟨r, hr, rfl⟩ := List.mem_map.1 he
  exact ⟨r.slot, (h.entries r.key r.value r.slot).2 hr⟩

theorem get_of_listed {e : String × Value} (he : e ∈ listed rows) : d.get e.1 = e.2 := by
  obtain ⟨slot, hs⟩ := h.entry_of_listed he
  unfold Dictionary.get get?
  rw [hs]
  rfl

theorem no_entry {key : String} (hk : key ∉ (listed rows).map Prod.fst) :
    d.entries[key]? = none := by
  cases he : d.entries[key]? with
  | none => rfl
  | some e =>
    have := (h.entries key e.1 e.2).1 he
    rw [keys_listed] at hk
    exact absurd (List.mem_map_of_mem this) hk

theorem get_eq_lookup (key : String) : d.get key = ((listed rows).lookup key).getD .null := by
  cases hl : (listed rows).lookup key with
  | none =>
    have absent : key ∉ (listed rows).map Prod.fst := by
      intro hm
      obtain ⟨e, he, rfl⟩ := List.mem_map.1 hm
      have := List.lookup_eq_none_iff.1 hl e he
      simp at this
    unfold Dictionary.get get?
    rw [h.no_entry absent]
    rfl
  | some value =>
    obtain ⟨a, b, heq, -⟩ := List.lookup_eq_some_iff.1 hl
    have there : (key, value) ∈ listed rows := by
      rw [heq]
      simp
    exact h.get_of_listed there

theorem keys_eq : d.keys = (listed rows).map Prod.fst := by
  unfold Dictionary.keys
  rw [h.ledger.keys, keys_chain]

/-- The key after one that is there is the next in the list. -/
theorem entryAndNext? {a b : List (String × Value)} {key : String} {value : Value}
    (heq : listed rows = a ++ (key, value) :: b) :
    d.entryAndNext? key = some (value, (b.map Prod.fst).head?) := by
  obtain ⟨rowsA, rest, rfl, rfl, hrest⟩ := List.map_eq_append_iff.1 heq
  obtain ⟨⟨slot, k, v⟩, rowsB, rfl, hr, rfl⟩ := List.map_eq_cons_iff.1 hrest
  obtain ⟨rfl, rfl⟩ := Prod.mk.inj hr
  have ledger := h.ledger
  rw [chain_append] at ledger
  have next : d.order.nextOf? slot = (chain rowsB).keys.head? := ledger.nextOf?
  unfold Dictionary.entryAndNext?
  rw [h.entry]
  rw [keys_chain] at next
  exact congrArg (fun next => some (v, next)) next

/-- The text of a dictionary has the entries of the list in its order. -/
theorem text (heap : Heap) {address : Address} (fuel : Nat) {path : List Address}
    (heq : heap.entries address = d) (fresh : address ∉ path) :
    heap.textWithin (fuel + 1) path (.dictionary address) =
      "\x7b" ++ Text.commaSeparated ((listed rows).map fun e =>
        "[\"" ++ e.1 ++ "\"] = " ++ heap.textWithin fuel (address :: path) e.2) ++ "\x7d" := by
  have same : ∀ e ∈ listed rows,
      "[\"" ++ e.1 ++ "\"] = " ++ heap.textWithin fuel (address :: path) (d.get e.1) =
        "[\"" ++ e.1 ++ "\"] = " ++ heap.textWithin fuel (address :: path) e.2 := by
    intro e he
    rw [h.get_of_listed he]
  rw [Heap.textWithin, if_neg fresh, heq]
  dsimp only
  rw [h.keys_eq, List.map_map, ← List.map_congr_left same]
  rfl

/-- **A dictionary that holds rows refines their association list.** -/
theorem refines : d.Refines (listed rows) where
  nodup := by
    rw [keys_listed]
    exact h.nodup
  values := by
    intro e he
    obtain ⟨r, hr, rfl⟩ := List.mem_map.1 he
    exact h.values r hr
  get := h.get_eq_lookup
  size := by
    unfold Dictionary.size listed
    rw [h.size, List.length_map]
  keys := h.keys_eq
  first := by
    unfold Dictionary.first?
    rw [h.ledger.first?, keys_chain]
  present a key value b heq := h.entryAndNext? heq
  absent key hk := by
    unfold Dictionary.entryAndNext?
    rw [h.no_entry hk]
    rfl
  text heap address fuel path heq fresh := h.text heap fuel heq fresh
  slots key slot := by
    rw [h.ledger.keyAt?_iff]
    constructor
    · intro hc
      obtain ⟨r, hr, heq⟩ := List.mem_map.1 hc
      obtain ⟨rfl, rfl⟩ := Prod.mk.inj heq
      exact ⟨r.value, (h.entries r.key r.value r.slot).2 hr⟩
    · rintro ⟨value, he⟩
      exact List.mem_map.2 ⟨_, (h.entries key value slot).1 he, rfl⟩
  ledger key := by
    have keys := h.keys_eq
    unfold Dictionary.keys at keys
    rw [keys, Std.TreeMap.mem_iff_isSome_getElem?]
    constructor
    · intro hk
      obtain ⟨e, he, rfl⟩ := List.mem_map.1 hk
      obtain ⟨slot, hs⟩ := h.entry_of_listed he
      rw [hs]
      rfl
    · intro hs
      by_contra hk
      rw [h.no_entry hk] at hs
      cases hs

end Holds

/-- **Dictionaries refine association lists.** Whatever a dictionary is made from and whatever is
written to it afterwards, it refines the association list that the same writes make, and so it does
after every further write; writing null under a key that is not there changes nothing. -/
theorem refines_association_list (start writes : List (String × Value)) :
    let d := writes.foldl (fun d e => d.set e.1 e.2) (ofList start)
    let l := (start ++ writes).foldl (fun l e => write e.1 e.2 l) []
    d.Refines l ∧ (∀ key value, (d.set key value).Refines (write key value l)) ∧
      ∀ key, key ∉ l.map Prod.fst → d.set key .null = d := by
  intro d l
  obtain ⟨rows₁, h₁, heq₁⟩ := Holds.empty.writes start
  obtain ⟨rows₂, h₂, heq₂⟩ := h₁.writes writes
  have listed_eq : listed rows₂ = l := by
    rw [heq₂, heq₁, ← List.foldl_append]
    rfl
  rw [← listed_eq]
  refine ⟨h₂.refines, ?_, ?_⟩
  · intro key value
    obtain ⟨rows₃, h₃, heq₃⟩ := h₂.set key value
    rw [← heq₃]
    exact h₃.refines
  · intro key hk
    have gone : d.entries[key]? = none := h₂.no_entry hk
    unfold Dictionary.set
    rw [gone]
    rfl

end Roteiro.Dictionary
