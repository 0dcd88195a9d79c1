import Mathlib.Logic.Function.Basic
import Roteiro.Proofs.World.Traversal

/-!
Stamped keys. Each insertion of a key into a dictionary is stamped with its number, so that a key
that is taken out and comes back is stamped anew. The keys of a dictionary stand in the order of
their stamps, and an iteration over it only ever goes to a later stamp, whatever is written to the
dictionary in the meantime (`Tour.never_goes_back`).
-/

namespace Roteiro

/-! ### keys after a write -/

namespace Dictionary

/-- Whether a write inserts its key: the key is absent, and the value is not null. -/
def inserts (d : Dictionary) (key : String) (value : Value) : Bool :=
  !value.isNull && (d.get? key).isNone

namespace Holds

variable {d : Dictionary} {rows : List Row} (h : d.Holds rows)

include h

theorem get?_eq_none_iff (key : String) : d.get? key = none ↔ key ∉ d.keys := by
  rw [h.keys_eq]
  unfold get?
  rw [Option.map_eq_none_iff]
  constructor
  · intro none member
    obtain ⟨e, listed, rfl⟩ := List.mem_map.1 member
    obtain ⟨slot, found⟩ := h.entry_of_listed listed
    rw [none] at found
    cases found
  · exact h.no_entry

theorem inserts_iff (key : String) (value : Value) :
    d.inserts key value = true ↔ value.isNull = false ∧ key ∉ d.keys := by
  unfold inserts
  rw [← h.get?_eq_none_iff]
  simp

/-- Writing null takes the key out; any other value leaves the keys as they are, or adds its key at
the end. -/
theorem keys_set (key : String) (value : Value) :
    (d.set key value).keys =
      if value.isNull then d.keys.filter fun k => k ≠ key
      else if key ∈ d.keys then d.keys else d.keys ++ [key] := by
  obtain ⟨rows', h', listed⟩ := h.set key value
  rw [h'.keys_eq, listed, h.keys_eq, write]
  split
  · rw [List.filter_map]
    rfl
  · split
    · rw [List.map_map]
      refine List.map_congr_left fun e _ => ?_
      by_cases same : e.1 = key
      · simp [same]
      · simp [same]
    · exact List.map_append

/-- A write that inserts its key adds it at the end. -/
theorem keys_of_inserts {key : String} {value : Value} (new : d.inserts key value = true) :
    (d.set key value).keys = d.keys ++ [key] := by
  obtain ⟨there, absent⟩ := (h.inserts_iff key value).1 new
  rw [h.keys_set, there, if_neg Bool.false_ne_true, if_neg absent]

/-- A write that inserts no key leaves the keys in their order, except that it may take one out. -/
theorem keys_sublist {key : String} {value : Value} (old : d.inserts key value = false) :
    (d.set key value).keys.Sublist d.keys := by
  rw [h.keys_set]
  split
  · exact List.filter_sublist
  · next there =>
    split
    · exact List.Sublist.refl _
    · next absent =>
      have new := (h.inserts_iff key value).2 ⟨Bool.eq_false_iff.2 there, absent⟩
      rw [old] at new
      cases new

end Holds

end Dictionary

/-! ### stamps -/

/-- The number of insertions of keys so far, and for each key the number of its last insertion. -/
structure Stamps where
  count : Nat := 0
  last : String → Nat := fun _ => 0

namespace Stamps

/-- The stamps after a write to a dictionary: a key that is inserted gets the next number. -/
def write (s : Stamps) (d : Dictionary) (key : String) (value : Value) : Stamps :=
  if d.inserts key value then ⟨s.count + 1, Function.update s.last key (s.count + 1)⟩ else s

/-- The stamp of a key that is given as a value. -/
def of (s : Stamps) : Value → Nat
  | .string key => s.last key
  | _ => 0

/-- Keys stand in the order of their stamps, which were all given out. -/
structure Order (s : Stamps) (keys : List String) : Prop where
  sorted : keys.Pairwise fun earlier later => s.last earlier < s.last later
  given : ∀ key ∈ keys, 0 < s.last key ∧ s.last key ≤ s.count

theorem count_le_write (s : Stamps) (d : Dictionary) (key : String) (value : Value) :
    s.count ≤ (s.write d key value).count := by
  unfold write
  split
  · exact Nat.le_succ _
  · exact Nat.le_refl _

theorem Order.sublist {s : Stamps} {keys keys' : List String} (h : s.Order keys)
    (sub : keys'.Sublist keys) : s.Order keys' :=
  ⟨h.sorted.sublist sub, fun key member => h.given key (sub.subset member)⟩

variable {s : Stamps} {d : Dictionary} {rows : List Dictionary.Row}

/-- The stamp of a key that is there stays as it is. -/
theorem last_write (holds : d.Holds rows) {k : String} (there : k ∈ d.keys) (key : String)
    (value : Value) : (s.write d key value).last k = s.last k := by
  unfold write
  split
  · next new =>
    have absent := ((holds.inserts_iff key value).1 new).2
    have other : k ≠ key := fun same => absent (same ▸ there)
    exact Function.update_of_ne other _ _
  · rfl

/-- A key that comes to a dictionary is stamped higher than all before. -/
theorem lt_last_write (holds : d.Holds rows) {k key : String} {value : Value} (absent : k ∉ d.keys)
    (came : k ∈ (d.set key value).keys) : s.count < (s.write d key value).last k := by
  unfold write
  split
  · next new =>
    rw [holds.keys_of_inserts new] at came
    obtain rfl : k = key := List.mem_singleton.1 ((List.mem_append.1 came).resolve_left absent)
    dsimp only
    rw [Function.update_self]
    exact Nat.lt_succ_self _
  · next old =>
    exact absurd ((holds.keys_sublist (Bool.eq_false_iff.2 old)).subset came) absent

/-- **A write keeps the keys in the order of their stamps.** -/
theorem Order.write (h : s.Order d.keys) (holds : d.Holds rows) (key : String) (value : Value) :
    (s.write d key value).Order (d.set key value).keys := by
  cases new : d.inserts key value with
  | false =>
    have same : s.write d key value = s := by
      unfold Stamps.write
      rw [new, if_neg Bool.false_ne_true]
    rw [same]
    exact h.sublist (holds.keys_sublist new)
  | true =>
    have kept : ∀ k ∈ d.keys, (s.write d key value).last k = s.last k :=
      fun k there => last_write holds there key value
    have stamped : (s.write d key value).count = s.count + 1 ∧
        (s.write d key value).last key = s.count + 1 := by
      unfold Stamps.write
      rw [if_pos new]
      exact ⟨rfl, Function.update_self ..⟩
    rw [holds.keys_of_inserts new]
    constructor
    case sorted =>
      refine List.pairwise_append.2 ⟨?_, List.pairwise_singleton _ _, fun k there k' last => ?_⟩
      · refine h.sorted.imp_of_mem fun {k k'} there there' less => ?_
        rw [kept k there, kept k' there']
        exact less
      · rw [List.mem_singleton.1 last, kept k there, stamped.2]
        exact Nat.lt_succ_of_le (h.given k there).2
    case given =>
      intro k member
      rw [stamped.1]
      rcases List.mem_append.1 member with there | last
      · rw [kept k there]
        exact ⟨(h.given k there).1, Nat.le_succ_of_le (h.given k there).2⟩
      · rw [List.mem_singleton.1 last, stamped.2]
        exact ⟨Nat.succ_pos _, Nat.le_refl _⟩

end Stamps

/-! ### tours -/

/-- A dictionary of a world with an iteration over it, and the stamps of its keys. -/
structure Tour where
  world : World
  address : Address
  iteration : Iteration
  stamps : Stamps := {}

/-- What is done to a dictionary under iteration: something is written to it, or the next entry is
asked for. -/
inductive Move where
  | write (key : String) (value : Value)
  | next

/-- Whether the next entry is asked for. -/
def Move.isNext : Move → Bool
  | next => true
  | write _ _ => false

/-- An entry that an iteration yielded, with the tour at that moment. -/
structure Yield where
  tour : Tour
  key : Value
  value : Value

namespace Tour

/-- The dictionary of a tour. -/
def entries (t : Tour) : Dictionary := t.world.heap.entries t.address

/-- The keys of the dictionary with their values. -/
def listing (t : Tour) : List (Value × Value) := t.world.heap.listing (.dictionary t.address)

/-- A new dictionary in a world. -/
def new (w : World) : Tour :=
  { world := (w.newDictionary .empty).2, address := w.heap.size,
    iteration := .dictionary w.heap.size none }

/-- A tour whose iteration begins now. -/
def begin (t : Tour) : Tour :=
  match t.world.heap.iterate (.dictionary t.address) with
  | .ok iteration => { t with iteration }
  | .error _ => t

/-- A tour after a move. -/
def apply (t : Tour) : Move → Tour
  | .write key value =>
    { t with
      world := t.world.writeEntry t.address key value
      stamps := t.stamps.write t.entries key value }
  | .next => { t with iteration := (t.world.heap.advance t.iteration).2 }

/-- A tour after some moves, from first to last. -/
def run (t : Tour) (moves : List Move) : Tour :=
  moves.foldl apply t

/-- What the iteration yields if the next entry is asked for now; none if it reports its end. -/
def answer (t : Tour) : Option Yield :=
  (t.world.heap.advance t.iteration).1.map fun e => ⟨t, e.1, e.2⟩

@[simp] theorem run_cons (t : Tour) (move : Move) (moves : List Move) :
    t.run (move :: moves) = (t.apply move).run moves := rfl

@[simp] theorem run_append (t : Tour) (moves moves' : List Move) :
    t.run (moves ++ moves') = (t.run moves).run moves' := by
  unfold run
  exact List.foldl_append

end Tour

/-- The stamp of a key when it was yielded. -/
def Yield.stamp (y : Yield) : Nat := y.tour.stamps.of y.key

namespace Tour

/-- A tour that has gone no further than to some stamp: the keys are in the order of their stamps,
and the key that the iteration stands at, if it is still there, comes later. -/
structure Past (t : Tour) (reached : Nat) : Prop where
  live : t.address < t.world.heap.size
  holds : ∃ rows, t.entries.Holds rows
  order : t.stamps.Order t.entries.keys
  place : ∃ cursor, t.iteration = .dictionary t.address cursor
  given : reached ≤ t.stamps.count
  ahead : ∀ key, t.iteration = .dictionary t.address (some key) → key ∈ t.entries.keys →
    reached < t.stamps.last key

theorem entries_write {t : Tour} (live : t.address < t.world.heap.size) (key : String)
    (value : Value) : (t.apply (.write key value)).entries = t.entries.set key value := by
  unfold apply entries World.writeEntry Heap.setEntries Heap.entries
  dsimp only
  rw [Array.getElem?_setIfInBounds_self_of_lt live]

namespace Past

variable {t : Tour} {reached : Nat}

/-- **A write does not lead back**: the key that the iteration stands at keeps its stamp, or it was
taken out and comes back with a higher one. -/
theorem write (h : t.Past reached) (key : String) (value : Value) :
    (t.apply (.write key value)).Past reached := by
  obtain ⟨rows, holds⟩ := h.holds
  obtain ⟨rows', holds', -⟩ := holds.set key value
  have entries := entries_write h.live key value
  constructor
  case live =>
    change t.address < Array.size (Array.setIfInBounds _ _ _)
    rw [Array.size_setIfInBounds]
    exact h.live
  case holds => exact ⟨rows', entries ▸ holds'⟩
  case order =>
    rw [entries]
    exact h.order.write holds key value
  case place => exact h.place
  case given => exact Nat.le_trans h.given (t.stamps.count_le_write t.entries key value)
  case ahead =>
    intro k stands member
    rw [entries] at member
    by_cases there : k ∈ t.entries.keys
    · have kept : (t.apply (.write key value)).stamps.last k = t.stamps.last k :=
        Stamps.last_write holds there key value
      rw [kept]
      exact h.ahead k stands there
    · exact Nat.lt_of_le_of_lt h.given (Stamps.lt_last_write holds there member)

/-- What an iteration yields is there and comes later, and the tour has then gone that far. -/
theorem yield (h : t.Past reached) {y : Yield} (yielded : t.answer = some y) :
    (y.tour = t ∧ reached < y.stamp ∧ (y.key, y.value) ∈ t.listing) ∧
      (t.apply .next).Past y.stamp := by
  obtain ⟨rows, holds⟩ := h.holds
  obtain ⟨cursor, place⟩ := h.place
  obtain ⟨⟨key, value⟩, advanced, rfl⟩ := Option.map_eq_some_iff.1 yielded
  rw [place] at advanced
  cases cursor with
  | none => cases advanced
  | some name =>
    by_cases there : name ∈ t.entries.keys
    · obtain ⟨visited, later, split⟩ := List.append_of_mem there
      have split' := split
      rw [holds.keys_eq] at split'
      obtain ⟨value', advanced', listed⟩ := Heap.advance_dictionary holds split'
      rw [advanced'] at advanced
      cases advanced
      have ahead := h.ahead name place there
      refine ⟨⟨rfl, ahead, listed⟩, ?_⟩
      have moved : (t.apply .next).iteration = .dictionary t.address later.head? := by
        unfold apply
        dsimp only
        rw [place, advanced']
      refine ⟨h.live, ⟨rows, holds⟩, h.order, ⟨_, moved⟩, (h.order.given name there).2, ?_⟩
      intro next stands _
      rw [moved] at stands
      injection stands with _ first
      -- The next key comes after the one that was yielded, so its stamp is higher.
      have sorted := h.order.sorted
      rw [split] at sorted
      exact (List.pairwise_cons.1 (List.pairwise_append.1 sorted).2.1).1 next
        (List.mem_of_head? first)
    · rw [holds.keys_eq] at there
      unfold Heap.advance at advanced
      dsimp only at advanced
      rw [show (t.world.heap.entries t.address).entryAndNext? name = none from
        holds.refines.absent name there] at advanced
      cases advanced

/-- An iteration that reports its end stands nowhere. -/
theorem iteration_of_end (h : t.Past reached) (ended : t.answer = none) :
    (t.apply .next).iteration = .dictionary t.address none := by
  obtain ⟨cursor, place⟩ := h.place
  have none_left := Option.map_eq_none_iff.1 ended
  unfold apply
  dsimp only
  rw [place] at none_left ⊢
  unfold Heap.advance at none_left ⊢
  cases cursor with
  | none => rfl
  | some key =>
    dsimp only at none_left ⊢
    cases found : (t.world.heap.entries t.address).entryAndNext? key with
    | none => rfl
    | some e =>
      rw [found] at none_left
      cases none_left

theorem next (h : t.Past reached) : (t.apply .next).Past reached := by
  cases yielded : t.answer with
  | some y =>
    obtain ⟨⟨-, later, -⟩, past⟩ := h.yield yielded
    exact ⟨past.live, past.holds, past.order, past.place, h.given,
      fun key stands there => Nat.lt_trans later (past.ahead key stands there)⟩
  | none =>
    have ended := h.iteration_of_end yielded
    refine ⟨h.live, h.holds, h.order, ⟨none, ended⟩, h.given, fun key stands _ => ?_⟩
    rw [ended] at stands
    cases stands

theorem apply (h : t.Past reached) (move : Move) : (t.apply move).Past reached := by
  cases move with
  | write key value => exact h.write key value
  | next => exact h.next

theorem run (h : t.Past reached) (moves : List Move) : (t.run moves).Past reached := by
  induction moves generalizing t with
  | nil => exact h
  | cons move moves ih => exact ih (h.apply move)

/-- A new dictionary has no keys, so all of them are in order. -/
theorem new (w : World) : (Tour.new w).Past 0 := by
  have fresh : (Tour.new w).entries = .empty := by
    unfold entries Tour.new World.newDictionary Heap.allocate Heap.entries
    dsimp only
    rw [Array.getElem?_push_size]
  constructor
  case live =>
    change w.heap.size < (w.heap.push (.dictionary .empty)).size
    rw [Array.size_push]
    exact Nat.lt_succ_self _
  case holds => exact ⟨[], fresh ▸ .empty⟩
  case order =>
    rw [fresh]
    exact ⟨.nil, fun _ none => nomatch none⟩
  case place => exact ⟨none, rfl⟩
  case given => exact Nat.zero_le _
  case ahead => exact fun key stands => nomatch stands

/-- Every key is stamped above zero, so an iteration may begin at any time. -/
theorem begin (h : t.Past reached) : t.begin.Past 0 :=
  ⟨h.live, h.holds, h.order, ⟨_, rfl⟩, Nat.zero_le _,
    fun key _ there => (h.order.given key there).1⟩

end Past

/-! ### the end -/

/-- An iteration that has reported its end reports it again, whatever is written in between. -/
theorem answer_of_end {t : Tour} (ended : t.iteration = .dictionary t.address none)
    (moves : List Move) : (t.run moves).answer = none := by
  induction moves generalizing t with
  | nil =>
    unfold run answer
    rw [List.foldl_nil, ended]
    rfl
  | cons move moves ih =>
    refine ih ?_
    cases move with
    | write key value => exact ended
    | next =>
      unfold apply
      dsimp only
      rw [ended]
      rfl

theorem count_le_apply (t : Tour) (move : Move) : t.stamps.count ≤ (t.apply move).stamps.count := by
  cases move with
  | write key value => exact t.stamps.count_le_write t.entries key value
  | next => exact Nat.le_refl _

theorem count_le_run (t : Tour) (moves : List Move) :
    t.stamps.count ≤ (t.run moves).stamps.count := by
  induction moves generalizing t with
  | nil => exact Nat.le_refl _
  | cons move moves ih => exact Nat.le_trans (t.count_le_apply move) (ih _)

/-- The number of keys that come after a stamp. -/
def left (t : Tour) (reached : Nat) : Nat :=
  t.entries.keys.countP fun key => reached < t.stamps.last key

/-- Without insertions no key comes to those that are left. -/
theorem left_write_le {t : Tour} {reached : Nat} (h : t.Past reached) (key : String) (value : Value)
    (same : (t.apply (.write key value)).stamps.count = t.stamps.count) :
    (t.apply (.write key value)).left reached ≤ t.left reached := by
  obtain ⟨rows, holds⟩ := h.holds
  have old : t.entries.inserts key value = false := by
    cases new : t.entries.inserts key value with
    | false => rfl
    | true =>
      have more : (t.apply (.write key value)).stamps.count = t.stamps.count + 1 := by
        unfold apply Stamps.write
        dsimp only
        rw [if_pos new]
      omega
  have stamps : (t.apply (.write key value)).stamps = t.stamps := by
    unfold apply Stamps.write
    dsimp only
    rw [old, if_neg Bool.false_ne_true]
  unfold left
  rw [stamps, entries_write h.live]
  exact (holds.keys_sublist old).countP_le

/-- Each entry that is yielded is one of those that were left. -/
theorem left_yield_lt {t : Tour} {reached : Nat} (h : t.Past reached) {y : Yield}
    (yielded : t.answer = some y) : (t.apply .next).left y.stamp < t.left reached := by
  obtain ⟨⟨rfl, later, listed⟩, -⟩ := h.yield yielded
  unfold listing Heap.listing at listed
  obtain ⟨key, there, same⟩ := List.mem_map.1 listed
  obtain ⟨visited, rest, split⟩ := List.append_of_mem there
  have stamp : y.stamp = y.tour.stamps.last key := by
    unfold Yield.stamp
    rw [← (Prod.mk.inj same).1]
    rfl
  have fewer : ∀ keys : List String, keys.countP (fun k => y.stamp < y.tour.stamps.last k) ≤
      keys.countP fun k => reached < y.tour.stamps.last k := fun keys =>
    List.countP_mono_left fun k _ less => by
      simp only [decide_eq_true_eq] at less ⊢
      omega
  have kept : (y.tour.apply .next).left y.stamp =
      y.tour.entries.keys.countP fun k => y.stamp < y.tour.stamps.last k := rfl
  have before : y.tour.entries.keys = visited ++ key :: rest := split
  rw [kept, left, before, List.countP_append, List.countP_append,
    List.countP_cons_of_neg (by simp [stamp]), List.countP_cons_of_pos (by simp [← stamp, later])]
  have := fewer visited
  have := fewer rest
  omega

/-- Without insertions an iteration ends when it was asked for as many entries as were left. -/
theorem answer_of_left {t : Tour} {reached : Nat} (h : t.Past reached) {moves : List Move}
    (same : (t.run moves).stamps.count = t.stamps.count)
    (asked : t.left reached ≤ moves.countP Move.isNext) : (t.run moves).answer = none := by
  induction moves generalizing t reached with
  | nil =>
    cases yielded : t.answer with
    | none => exact yielded
    | some y =>
      have := left_yield_lt h yielded
      rw [List.countP_nil] at asked
      omega
  | cons move moves ih =>
    have first := t.count_le_apply move
    have rest := (t.apply move).count_le_run moves
    rw [run_cons] at same ⊢
    cases move with
    | write key value =>
      have fewer := left_write_le h key value (by omega)
      rw [List.countP_cons_of_neg (by simp [Move.isNext])] at asked
      exact ih (h.write key value) (by omega) (Nat.le_trans fewer asked)
    | next =>
      cases yielded : t.answer with
      | none => exact answer_of_end (h.iteration_of_end yielded) moves
      | some y =>
        have fewer := left_yield_lt h yielded
        rw [List.countP_cons_of_pos (by simp [Move.isNext])] at asked
        exact ih (h.yield yielded).2 (by omega) (by omega)

/-! ### coming back -/

/-- The stamp of a key changes only if the key is absent at some moment. -/
theorem absent_of_restamped {t : Tour} {reached : Nat} (h : t.Past reached) {key : String}
    {moves : List Move} (changed : (t.run moves).stamps.last key ≠ t.stamps.last key) :
    ∃ first rest, moves = first ++ rest ∧ key ∉ (t.run first).entries.keys := by
  induction moves generalizing t with
  | nil => exact absurd rfl changed
  | cons move moves ih =>
    by_cases there : key ∈ t.entries.keys
    · have kept : (t.apply move).stamps.last key = t.stamps.last key := by
        cases move with
        | write k value =>
          obtain ⟨rows, holds⟩ := h.holds
          exact Stamps.last_write holds there k value
        | next => rfl
      rw [run_cons, ← kept] at changed
      obtain ⟨first, rest, rfl, absent⟩ := ih (h.apply move) changed
      exact ⟨move :: first, rest, rfl, absent⟩
    · exact ⟨[], move :: moves, rfl, there⟩

theorem keys_listing (t : Tour) : t.listing.map Prod.fst = t.entries.keys.map .string :=
  Heap.keys_listing_dictionary _ _

/-- An entry that is yielded later has a higher stamp, so if it has the same key, the key was absent
at some moment in between. -/
theorem later_yield {t : Tour} {reached : Nat} (h : t.Past reached) {y y' : Yield}
    {between : List Move} (yielded : t.answer = some y)
    (yielded' : ((t.apply .next).run between).answer = some y') :
    y.stamp < y'.stamp ∧ (y.key = y'.key → ∃ first rest, between = first ++ rest ∧
      y.key ∉ ((t.apply .next).run first).listing.map Prod.fst) := by
  obtain ⟨⟨rfl, -, listed⟩, next⟩ := h.yield yielded
  obtain ⟨⟨moment, later, -⟩, -⟩ := (next.run between).yield yielded'
  refine ⟨later, fun same => ?_⟩
  obtain ⟨key, -, named⟩ := List.mem_map.1 listed
  have name : y.key = .string key := ((Prod.mk.inj named).1).symm
  have changed : ((y.tour.apply .next).run between).stamps.last key ≠
      (y.tour.apply .next).stamps.last key := by
    intro unchanged
    unfold Yield.stamp at later
    rw [moment, ← same, name] at later
    exact absurd later (Nat.not_lt.2 (Nat.le_of_eq unchanged))
  obtain ⟨first, rest, rfl, absent⟩ := absent_of_restamped next changed
  refine ⟨first, rest, rfl, fun member => absent ?_⟩
  rw [keys_listing, name] at member
  obtain ⟨k, there, alike⟩ := List.mem_map.1 member
  cases alike
  exact there

/-- **An iteration over a dictionary never goes back.** Take any dictionary, and begin an iteration
over it at any time. Whatever is written to the dictionary while the iteration goes on, each entry
that it yields is there at that moment with its value; each has a higher stamp than those before it,
so a key is yielded again only if it was absent in between; once the iteration has reported its end
it reports it for ever; and as long as nothing is inserted it ends after no more entries than there
were keys when it began. -/
theorem never_goes_back (w : World) (earlier : List Move) :
    let start := ((new w).run earlier).begin
    (∀ moves y, (start.run moves).answer = some y →
      y.tour = start.run moves ∧ (y.key, y.value) ∈ (start.run moves).listing) ∧
    (∀ before between y y', (start.run before).answer = some y →
      (start.run (before ++ .next :: between)).answer = some y' →
      y.stamp < y'.stamp ∧
        (y.key = y'.key → ∃ first rest, between = first ++ rest ∧
          y.key ∉ (start.run (before ++ .next :: first)).listing.map Prod.fst)) ∧
    (∀ before after, (start.run before).answer = none →
      (start.run (before ++ .next :: after)).answer = none) ∧
    ∀ moves, (start.run moves).stamps.count = start.stamps.count →
      start.listing.length ≤ moves.countP Move.isNext → (start.run moves).answer = none := by
  intro start
  have past : start.Past 0 := ((Past.new w).run earlier).begin
  refine ⟨fun moves y yielded => ?_, fun before between y y' yielded yielded' => ?_,
    fun before after ended => ?_, fun moves same asked => ?_⟩
  · obtain ⟨⟨at_moment, -, listed⟩, -⟩ := (past.run moves).yield yielded
    exact ⟨at_moment, listed⟩
  · rw [run_append, run_cons] at yielded'
    simp only [run_append, run_cons]
    exact later_yield (past.run before) yielded yielded'
  · rw [run_append, run_cons]
    exact answer_of_end ((past.run before).iteration_of_end ended) after
  · refine answer_of_left past same (Nat.le_trans List.countP_le_length ?_)
    have keys := congrArg List.length (keys_listing start)
    rw [List.length_map, List.length_map] at keys
    exact keys ▸ asked

end Tour

end Roteiro
