import Roteiro.Proofs.Scope.Layers
import Roteiro.Proofs.Value.Dictionary
import Roteiro.Value.Iteration
import Roteiro.World.Library

/-!
The closures of a world. A function gets into a local or a collection only from where it was before,
or when it is made; so what holds of the closures of all functions in a world goes on to hold,
whatever is read, written or called there (`World.Obeys`), as long as it holds of the values that
are given.
-/

namespace Roteiro

variable {R : Closure → Prop}

/-! ### values and collections -/

/-- A value that is no function, or a function whose closure obeys `R`. -/
def Value.Obeys (R : Closure → Prop) : Value → Prop
  | .function _ f => R f
  | _ => True

/-- Items of which all functions obey `R`. -/
def Items.Obeys (R : Closure → Prop) (items : Items) : Prop :=
  ∀ v ∈ items, v.Obeys R

/-- A dictionary of which all functions obey `R`. -/
def Dictionary.Obeys (R : Closure → Prop) (d : Dictionary) : Prop :=
  ∀ key, (d.get key).Obeys R

/-- A collection of which all functions obey `R`. -/
def Cell.Obeys (R : Closure → Prop) : Cell → Prop
  | .array items => items.Obeys R
  | .dictionary d => d.Obeys R

/-- A heap of which all functions obey `R`. -/
def Heap.Obeys (R : Closure → Prop) (h : Heap) : Prop :=
  ∀ cell ∈ h, cell.Obeys R

namespace Items.Obeys

variable {items : Items}

theorem item (h : items.Obeys R) (index : Nat) : (items.item index).Obeys R := by
  unfold Items.item
  cases found : items[index]? with
  | none => trivial
  | some v => exact h v (Array.mem_of_getElem? found)

theorem removeAt (h : items.Obeys R) (index : Nat) : (items.removeAt index).Obeys R := by
  intro v member
  unfold Items.removeAt Array.eraseIdxIfInBounds at member
  split at member
  · exact h v (Array.mem_of_mem_eraseIdx member)
  · exact h v member

theorem push (h : items.Obeys R) {v : Value} (hv : v.Obeys R) : Items.Obeys R (Array.push items v) := by
  intro u member
  rcases Array.mem_push.1 member with old | rfl
  · exact h u old
  · exact hv

theorem write (h : items.Obeys R) {index : Nat} {v : Value} (hv : v.Obeys R) {items' : Items}
    (written : items.write index v = .ok items') : items'.Obeys R := by
  unfold Items.write at written
  split at written
  · cases written
    exact h.removeAt index
  split at written
  · cases written
    intro u member
    rcases Array.mem_or_eq_of_mem_setIfInBounds member with old | rfl
    · exact h u old
    · exact hv
  split at written
  · cases written
  · cases written
    have filled : Items.Obeys R (items ++ Array.replicate (index - items.size) Value.null) := by
      intro u member
      rcases Array.mem_append.1 member with old | new
      · exact h u old
      · obtain ⟨_, rfl⟩ := Array.mem_replicate.1 new
        trivial
    exact filled.push hv

end Items.Obeys

/-- A write is read back, and nothing else is changed. -/
theorem Dictionary.get_set (d : Dictionary) (key : String) (v : Value) (k : String) :
    (d.set key v).get k = if key = k then v else d.get k := by
  have null : v.isNull = true → v = .null := by
    intro h
    cases v <;> first | rfl | cases h
  unfold Dictionary.get get? Dictionary.set
  cases there : d.entries[key]? with
  | none =>
    dsimp only
    split
    · next h =>
      by_cases same : key = k
      · subst same
        rw [there, if_pos rfl, null h]
        rfl
      · rw [if_neg same]
    · dsimp only
      rw [getElem?_insert]
      by_cases same : key = k
      · rw [if_pos same, if_pos same]
        rfl
      · rw [if_neg same, if_neg same]
  | some e =>
    dsimp only
    split
    · next h =>
      dsimp only
      rw [getElem?_erase]
      by_cases same : key = k
      · rw [if_pos same, if_pos same, null h]
        rfl
      · rw [if_neg same, if_neg same]
    · dsimp only
      rw [getElem?_insert]
      by_cases same : key = k
      · rw [if_pos same, if_pos same]
        rfl
      · rw [if_neg same, if_neg same]

namespace Dictionary.Obeys

variable {d : Dictionary}

theorem empty : Dictionary.Obeys R .empty := fun _ => trivial

theorem set (h : d.Obeys R) (key : String) {v : Value} (hv : v.Obeys R) : (d.set key v).Obeys R := by
  intro k
  rw [get_set]
  split
  · exact hv
  · exact h k

end Dictionary.Obeys

namespace Heap.Obeys

variable {h : Heap}

theorem items (obeys : h.Obeys R) (a : Address) : (h.items a).Obeys R := by
  unfold Heap.items
  split
  · next found => exact obeys _ (Array.mem_of_getElem? found)
  · intro v member
    simp at member

theorem entries (obeys : h.Obeys R) (a : Address) : (h.entries a).Obeys R := by
  unfold Heap.entries
  split
  · next found => exact obeys _ (Array.mem_of_getElem? found)
  · exact Dictionary.Obeys.empty

theorem set (obeys : h.Obeys R) (a : Address) {cell : Cell} (new : cell.Obeys R) :
    Heap.Obeys R (h.setIfInBounds a cell) := by
  intro other member
  rcases Array.mem_or_eq_of_mem_setIfInBounds member with old | rfl
  · exact obeys other old
  · exact new

theorem allocate (obeys : h.Obeys R) {cell : Cell} (new : cell.Obeys R) :
    Heap.Obeys R (h.allocate cell).2 := by
  intro other member
  rcases Array.mem_push.1 member with old | rfl
  · exact obeys other old
  · exact new

/-- What an iteration yields is in the heap, or is an index or a key. -/
theorem advance (obeys : h.Obeys R) {it it' : Iteration} {key v : Value}
    (yielded : h.advance it = (some (key, v), it')) : key.Obeys R ∧ v.Obeys R := by
  unfold Heap.advance at yielded
  split at yielded
  · split at yielded
    · next found =>
      cases yielded
      exact ⟨trivial, obeys.items _ _ (Array.mem_of_getElem? found)⟩
    · cases yielded
  · cases yielded
  · next a k =>
    split at yielded
    · next value next found =>
      cases yielded
      refine ⟨trivial, ?_⟩
      have read := obeys.entries a k
      unfold Dictionary.entryAndNext? at found
      unfold Dictionary.get Dictionary.get? at read
      cases there : (h.entries a).entries[k]? with
      | none =>
        rw [there] at found
        cases found
      | some e =>
        rw [there] at found read
        cases found
        exact read
    · cases yielded

end Heap.Obeys

/-! ### worlds -/

/-- A context of which all functions obey `R`, frames apart. -/
def Context.Obeys (R : Closure → Prop) (c : Context) : Prop :=
  ∀ l ∈ c.locals, l.value.Obeys R

/-- A world of which all functions obey `R`, frames apart. -/
structure World.Obeys (R : Closure → Prop) (w : World) : Prop where
  contexts : ∀ i, (w.context i).Obeys R
  heap : w.heap.Obeys R

namespace Context.Obeys

variable {c : Context}

theorem root : Context.Obeys R .root := fun _ member => nomatch member

theorem valueAt (h : c.Obeys R) (slot : Nat) : (c.valueAt slot).Obeys R := by
  unfold Context.valueAt local?
  split
  · next found =>
    split at found
    · exact h _ (List.mem_of_getElem? found)
    · cases found
  · trivial

theorem write (h : c.Obeys R) (slot : Nat) {v : Value} (hv : v.Obeys R) : (c.write slot v).Obeys R := by
  unfold Context.write
  split
  · intro l member
    obtain ⟨i, found⟩ := List.mem_iff_getElem?.1 member
    rw [List.getElem?_modify] at found
    cases there : c.locals[i]? with
    | none =>
      rw [there] at found
      cases found
    | some old =>
      rw [there] at found
      cases found
      dsimp only
      split
      · exact hv
      · exact h old (List.mem_of_getElem? there)
  · exact h

theorem define (h : c.Obeys R) {name : String} {v : Value} (hv : v.Obeys R) {c' : Context}
    (defined : c.define name v = .ok c') : c'.Obeys R := by
  unfold Context.define at defined
  split at defined
  · cases defined
  · cases defined
    exact List.forall_mem_cons.2 ⟨hv, h⟩

theorem leave (h : c.Obeys R) : c.leave.Obeys R := by
  intro l member
  unfold Context.leave at member
  dsimp only at member
  split at member
  · exact h l ((List.dropWhile_sublist _).mem member)
  · exact h l member

end Context.Obeys

namespace World.Obeys

variable {w : World} (h : w.Obeys R)

include h

theorem withHeap {heap : Heap} (new : heap.Obeys R) : World.Obeys R { w with heap } :=
  ⟨h.contexts, new⟩

theorem withSeed (seed : Nat) : World.Obeys R { w with seed } :=
  ⟨h.contexts, h.heap⟩

theorem update (c : ContextId) {f : Context → Context} (hf : ∀ a : Context, a.Obeys R → (f a).Obeys R) :
    (w.update c f).Obeys R :=
  ⟨Contexts.forall_update h.contexts (hf _ (h.contexts c)), h.heap⟩

theorem set (c : ContextId) {d : Context} (hd : d.Obeys R) :
    World.Obeys R { w with contexts := w.contexts.setIfInBounds c d } :=
  ⟨Contexts.forall_set h.contexts hd, h.heap⟩

theorem addContext {c : Context} (hc : c.Obeys R) : (w.addContext c).2.Obeys R :=
  ⟨Contexts.forall_push h.contexts hc, h.heap⟩

theorem enterScope (c : ContextId) : (w.enterScope c).Obeys R :=
  h.update c fun _ ha => ha

theorem leaveScope (c : ContextId) : (w.leaveScope c).Obeys R :=
  h.update c fun _ ha => ha.leave

theorem lookup (c : ContextId) (name : String) {v : Value}
    (found : (World.lookup c name w).1 = .ok v) : v.Obeys R := by
  unfold World.lookup Contexts.lookup at found
  dsimp only at found
  split at found
  · next b _ =>
    cases found
    exact (h.contexts b.context).valueAt b.slot
  · cases found

theorem assign (c : ContextId) (name : String) {v : Value} (hv : v.Obeys R) :
    (World.assign c name v w).2.Obeys R := by
  unfold World.assign World.onContexts Contexts.assign
  dsimp only
  cases w.contexts.resolve? c name with
  | none => exact h
  | some b => exact h.update b.context fun a ha => ha.write b.slot hv

theorem define (c : ContextId) (name : String) {v : Value} (hv : v.Obeys R) :
    (World.define c name v w).2.Obeys R := by
  unfold World.define World.onContexts Contexts.define
  dsimp only
  cases defined : (w.contexts.context c).define name v with
  | error fault => exact h
  | ok d => exact h.set c ((h.contexts c).define hv defined)

/-! #### collections -/

theorem newArray {items : Items} (new : items.Obeys R) : (w.newArray items).2.Obeys R := by
  have cell : Cell.Obeys R (.array items) := new
  exact h.withHeap (h.heap.allocate cell)

theorem newDictionary {d : Dictionary} (new : d.Obeys R) : (w.newDictionary d).2.Obeys R := by
  have cell : Cell.Obeys R (.dictionary d) := new
  exact h.withHeap (h.heap.allocate cell)

theorem setItems (a : Address) {items : Items} (new : items.Obeys R) :
    World.Obeys R { w with heap := w.heap.setItems a items } := by
  have cell : Cell.Obeys R (.array items) := new
  exact h.withHeap (h.heap.set a cell)

theorem setEntries (a : Address) {d : Dictionary} (new : d.Obeys R) :
    World.Obeys R { w with heap := w.heap.setEntries a d } := by
  have cell : Cell.Obeys R (.dictionary d) := new
  exact h.withHeap (h.heap.set a cell)

theorem writeItem (a : Address) (index : Nat) {v : Value} (hv : v.Obeys R) :
    (World.writeItem a index v w).2.Obeys R := by
  unfold World.writeItem
  split
  · next written => exact h.setItems a ((h.heap.items a).write hv written)
  · exact h

theorem writeEntry (a : Address) (key : String) {v : Value} (hv : v.Obeys R) :
    (w.writeEntry a key v).Obeys R :=
  h.setEntries a ((h.heap.entries a).set key hv)

theorem property (object key : Value) : (World.property object key w).2.Obeys R ∧
    ∀ v, (World.property object key w).1 = .ok v → v.Obeys R := by
  unfold World.property
  cases object with
  | array a =>
    dsimp only
    cases key.string?.bind ArrayMethod.ofName? with
    | some method => exact ⟨⟨h.contexts, h.heap⟩, fun v made => by cases made; trivial⟩
    | none =>
      cases key.index? with
      | some index => exact ⟨h, fun v read => by cases read; exact (h.heap.items a).item index⟩
      | none => exact ⟨h, fun v read => by cases read; trivial⟩
  | dictionary a =>
    dsimp only
    cases key.string?.bind DictionaryMethod.ofName? with
    | some method => exact ⟨⟨h.contexts, h.heap⟩, fun v made => by cases made; trivial⟩
    | none => exact ⟨h, fun v read => by cases read; exact h.heap.entries a _⟩
  | string _ => exact ⟨h, fun v read => by cases read; trivial⟩
  | function _ _ => exact ⟨h, fun v read => by cases read; trivial⟩
  | native _ _ => exact ⟨h, fun v read => by cases read; trivial⟩
  | null => exact ⟨h, fun v read => nomatch read⟩
  | number _ => exact ⟨h, fun v read => nomatch read⟩
  | boolean _ => exact ⟨h, fun v read => nomatch read⟩

theorem setProperty (object key : Value) {v : Value} (hv : v.Obeys R) :
    (World.setProperty object key v w).2.Obeys R := by
  unfold World.setProperty
  split
  · split
    · exact h.writeItem _ _ hv
    · exact h
  · exact h.writeEntry _ _ hv
  · exact h

end World.Obeys

/-! ### calls of the library -/

theorem Value.Obeys.argument {vs : List Value} (h : ∀ v ∈ vs, v.Obeys R) (i : Nat) :
    (Roteiro.argument vs i).Obeys R := by
  unfold Roteiro.argument
  cases found : vs[i]? with
  | none => trivial
  | some v => exact h v (List.mem_of_getElem? found)

namespace World.Obeys

variable {w : World} (h : w.Obeys R) {vs : List Value} (hvs : ∀ v ∈ vs, v.Obeys R)

include h

theorem random : (World.random vs w).2.Obeys R ∧
    ∀ v, (World.random vs w).1 = .ok v → v.Obeys R := by
  unfold World.random
  split
  · exact ⟨h, fun v drawn => nomatch drawn⟩
  · next low high _ =>
    refine ⟨h.withSeed _, fun v drawn => ?_⟩
    dsimp only at drawn
    generalize w.dice.draw (w.dice.next w.seed) low high = x at drawn
    cases drawn
    trivial

theorem callConsole (vs : List Value) (f : ConsoleFunction) :
    (w.callConsole f vs).2.Obeys R ∧ (w.callConsole f vs).1.Obeys R := by
  cases f with
  | write => exact ⟨⟨h.contexts, h.heap⟩, trivial⟩
  | clear => exact ⟨⟨h.contexts, h.heap⟩, trivial⟩
  | read =>
    refine ⟨⟨h.contexts, h.heap⟩, ?_⟩
    unfold World.callConsole
    dsimp only
    split
    · trivial
    · trivial

theorem sleep : (World.sleep vs w).2.Obeys R ∧ ∀ v, (World.sleep vs w).1 = .ok v → v.Obeys R := by
  unfold World.sleep
  split
  · exact ⟨h, fun v slept => nomatch slept⟩
  · split
    · exact ⟨⟨h.contexts, h.heap⟩, fun v slept => by cases slept; trivial⟩
    · exact ⟨h, fun v slept => nomatch slept⟩

include hvs

theorem callArray (a : Address) (method : ArrayMethod) : (World.callArray a method vs w).2.Obeys R ∧
    ∀ v, (World.callArray a method vs w).1 = .ok v → v.Obeys R := by
  unfold World.callArray
  cases method with
  | push =>
    exact ⟨h.setItems a ((h.heap.items a).push (.argument hvs 0)), fun v done => by cases done; trivial⟩
  | length => exact ⟨h, fun v done => by cases done; trivial⟩
  | get =>
    dsimp only
    split
    · exact ⟨h, fun v done => nomatch done⟩
    · next index _ => exact ⟨h, fun v done => by cases done; exact (h.heap.items a).item index⟩
  | set =>
    dsimp only
    split
    · exact ⟨h, fun v done => nomatch done⟩
    · next index _ =>
      refine ⟨h.writeItem a index (.argument hvs 1), fun v done => ?_⟩
      cases written : (World.writeItem a index (Roteiro.argument vs 1) w).1 with
      | error fault =>
        rw [written] at done
        cases done
      | ok _ =>
        rw [written] at done
        cases done
        trivial
  | remove =>
    dsimp only
    split
    · exact ⟨h, fun v done => nomatch done⟩
    · next index _ =>
      exact ⟨h.setItems a ((h.heap.items a).removeAt index),
        fun v done => by cases done; exact (h.heap.items a).item index⟩

theorem callDictionary (a : Address) (method : DictionaryMethod) :
    (w.callDictionary a method vs).2.Obeys R ∧ (w.callDictionary a method vs).1.Obeys R := by
  cases method with
  | get => exact ⟨h, h.heap.entries a _⟩
  | set => exact ⟨h.writeEntry a _ (.argument hvs 1), trivial⟩
  | length => exact ⟨h, trivial⟩

/-- **A call of the library gives back and writes only functions that it was given or that were
there.** -/
theorem callBuiltin (b : Builtin) : (World.callBuiltin b vs w).2.Obeys R ∧
    ∀ v, (World.callBuiltin b vs w).1 = .ok v → v.Obeys R := by
  unfold World.callBuiltin
  cases b with
  | math f =>
    refine ⟨h, fun v done => ?_⟩
    dsimp only at done
    cases computed : f.value vs with
    | error fault =>
      rw [computed] at done
      cases done
    | ok x =>
      rw [computed] at done
      cases done
      trivial
  | random => exact h.random
  | console f =>
    obtain ⟨world, value⟩ := h.callConsole vs f
    exact ⟨world, fun v done => by cases done; exact value⟩
  | sleep => exact h.sleep
  | array a method => exact h.callArray hvs a method
  | dictionary a method =>
    obtain ⟨world, value⟩ := h.callDictionary hvs a method
    exact ⟨world, fun v done => by cases done; exact value⟩

end World.Obeys

end Roteiro
