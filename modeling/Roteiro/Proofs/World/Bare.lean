import Roteiro.Proofs.Value.Bare
import Roteiro.World.Library

/-!
Worlds of bare values. Contexts only carry values: whatever is done with names, scopes, loops and
calls is done in the same way when every value is replaced by another (`Context.mapValues`). With
the values of the heap bare as well, two worlds differ only in the spans of the functions in them
(`World.Bares`), and everything a script can do in the one it can do in the other, with the same
result up to spans or the same fault (`Effect.Bares`).
-/

namespace Roteiro

/-! ### contexts -/

/-- A context with other values. -/
def Context.mapValues (f : Value → Value) (c : Context) : Context :=
  { c with
    locals := c.locals.map fun l => { l with value := f l.value }
    calls := c.calls.map (List.map f) }

/-- All contexts with other values. -/
def Contexts.mapValues (f : Value → Value) (cs : Contexts) : Contexts :=
  cs.map (Context.mapValues f)

namespace Context

variable (f : Value → Value) (c : Context)

theorem definedHere_mapValues (name : String) :
    (c.mapValues f).definedHere name = c.definedHere name :=
  List.any_map

theorem define_mapValues (name : String) (v : Value) :
    (c.mapValues f).define name (f v) = (c.define name v).map (mapValues f) := by
  unfold define
  rw [definedHere_mapValues]
  split_ifs with defined
  · rfl
  · rfl

theorem slot?_mapValues (name : String) : (c.mapValues f).slot? name = c.slot? name := by
  have slotIn (ls : List Local) :
      slotIn name (ls.map fun l => { l with value := f l.value }) = slotIn name ls := by
    induction ls with
    | nil => rfl
    | cons l ls ih =>
      rw [List.map_cons]
      unfold Context.slotIn
      rw [ih, List.length_map]
  exact slotIn c.locals

theorem length_mapValues : (c.mapValues f).locals.length = c.locals.length :=
  List.length_map _

theorem valueAt_mapValues (null : f .null = .null) (slot : Nat) :
    (c.mapValues f).valueAt slot = f (c.valueAt slot) := by
  unfold valueAt local?
  rw [length_mapValues]
  split_ifs with inside
  · unfold mapValues
    rw [List.getElem?_map]
    cases c.locals[c.locals.length - 1 - slot]? with
    | none => exact null.symm
    | some l => rfl
  · exact null.symm

theorem write_mapValues (slot : Nat) (v : Value) :
    (c.mapValues f).write slot (f v) = (c.write slot v).mapValues f := by
  unfold write
  rw [length_mapValues]
  split_ifs with inside
  · unfold mapValues
    congr 1
    refine List.ext_getElem? fun i => ?_
    simp only [List.getElem?_map, List.getElem?_modify]
    cases c.locals[i]? with
    | none => split_ifs <;> rfl
    | some l => split_ifs <;> rfl
  · rfl

theorem leave_mapValues : (c.mapValues f).leave = c.leave.mapValues f := by
  unfold leave mapValues
  dsimp only
  congr 1
  split_ifs with inside
  · exact List.dropWhile_map
  · rfl

theorem popLoop_mapValues :
    (c.mapValues f).popLoop = c.popLoop.map (Prod.map id (mapValues f)) := by
  obtain ⟨locals, level, loops, calls, parent⟩ := c
  cases loops with
  | nil => rfl
  | cons frame rest => rfl

theorem signal_mapValues (g : LoopFrame → LoopFrame) :
    (c.mapValues f).signal g = (c.signal g).map (mapValues f) := by
  obtain ⟨locals, level, loops, calls, parent⟩ := c
  cases loops with
  | nil => rfl
  | cons frame rest => rfl

theorem popCall_mapValues :
    (c.mapValues f).popCall = c.popCall.map (Prod.map (List.map f) (mapValues f)) := by
  obtain ⟨locals, level, loops, calls, parent⟩ := c
  cases calls with
  | nil => rfl
  | cons returned rest => rfl

theorem pushReturns_mapValues (vs : List Value) :
    (c.mapValues f).pushReturns (vs.map f) = (c.pushReturns vs).map (mapValues f) := by
  obtain ⟨locals, level, loops, calls, parent⟩ := c
  cases calls with
  | nil => rfl
  | cons returned rest =>
    have joined : returned.map f ++ vs.map f = (returned ++ vs).map f := List.map_append.symm
    exact congrArg (fun returned => Except.ok (Context.mk _ _ _ (returned :: _) _)) joined

theorem hasReturned_mapValues : (c.mapValues f).hasReturned = c.hasReturned := by
  obtain ⟨locals, level, loops, calls, parent⟩ := c
  cases calls with
  | nil => rfl
  | cons returned rest =>
    cases returned with
    | nil => rfl
    | cons v vs => rfl

theorem interrupted_mapValues : (c.mapValues f).interrupted = c.interrupted := by
  unfold interrupted
  rw [hasReturned_mapValues]
  rfl

end Context

namespace Contexts

variable (f : Value → Value) (cs : Contexts)

theorem size_mapValues : (cs.mapValues f).size = cs.size := Array.size_map

theorem context_mapValues (i : ContextId) :
    (cs.mapValues f).context i = (cs.context i).mapValues f := by
  unfold context mapValues
  rw [Array.getElem?_map]
  cases cs[i]? with
  | none => rfl
  | some c => rfl

theorem push_mapValues (c : Context) :
    (cs.mapValues f).push (c.mapValues f) = mapValues f (cs.push c) :=
  Array.map_push.symm

theorem set_mapValues (i : ContextId) (c : Context) :
    (cs.mapValues f).setIfInBounds i (c.mapValues f) = mapValues f (cs.setIfInBounds i c) :=
  Array.map_setIfInBounds.symm

theorem update_mapValues (i : ContextId) {g g' : Context → Context}
    (same : ∀ c : Context, g' (c.mapValues f) = (g c).mapValues f) :
    (cs.mapValues f).update i g' = (cs.update i g).mapValues f := by
  unfold update mapValues
  refine Array.ext_getElem? fun j => ?_
  simp only [Array.getElem?_map, Array.getElem?_modify]
  split_ifs with here
  · cases cs[j]? with
    | none => rfl
    | some c => exact congrArg some (same c)
  · rfl

theorem resolveWithin_mapValues (name : String) (fuel : Nat) (i : ContextId) :
    (cs.mapValues f).resolveWithin name fuel i = cs.resolveWithin name fuel i := by
  induction fuel generalizing i with
  | zero => rfl
  | succ fuel ih =>
    unfold resolveWithin
    rw [context_mapValues, Context.slot?_mapValues]
    have parent : ((cs.context i).mapValues f).parent = (cs.context i).parent := rfl
    rw [parent]
    cases (cs.context i).slot? name with
    | some slot => rfl
    | none =>
      cases (cs.context i).parent with
      | none => rfl
      | some p => exact ih p

theorem resolve?_mapValues (i : ContextId) (name : String) :
    (cs.mapValues f).resolve? i name = cs.resolve? i name := by
  unfold resolve?
  rw [size_mapValues, resolveWithin_mapValues]

theorem lookup_mapValues (null : f .null = .null) (i : ContextId) (name : String) :
    (cs.mapValues f).lookup i name = (cs.lookup i name).map f := by
  unfold lookup
  rw [resolve?_mapValues]
  cases cs.resolve? i name with
  | none => rfl
  | some b =>
    unfold read
    dsimp only
    rw [context_mapValues, Context.valueAt_mapValues _ _ null]
    rfl

theorem assign_mapValues (i : ContextId) (name : String) (v : Value) :
    (cs.mapValues f).assign i name (f v) = (cs.assign i name v).map (mapValues f) := by
  unfold assign
  rw [resolve?_mapValues]
  cases cs.resolve? i name with
  | none => rfl
  | some b =>
    unfold write
    dsimp only
    rw [update_mapValues f cs _ fun c => c.write_mapValues f b.slot v]
    rfl

theorem define_mapValues (i : ContextId) (name : String) (v : Value) :
    (cs.mapValues f).define i name (f v) = (cs.define i name v).map (mapValues f) := by
  unfold define
  rw [context_mapValues, Context.define_mapValues]
  cases (cs.context i).define name v with
  | error fault => rfl
  | ok c => exact congrArg Except.ok (set_mapValues f cs i c)

end Contexts

/-! ### worlds -/

/-- A world, and the same one of bare values. -/
structure World.Bares (w w' : World) : Prop where
  contexts : w'.contexts = w.contexts.mapValues Value.bare
  heap : w.heap.Bares w'.heap
  terminal : w'.terminal = w.terminal
  identities : w'.identities = w.identities
  dice : w'.dice = w.dice
  seed : w'.seed = w.seed

/-- In a world of bare values `e'` does what `e` does: its result is the other one's under `f`, or
it has the same fault. -/
def Effect.Bares {α β : Type} (f : α → β) (e : Effect α) (e' : Effect β) : Prop :=
  ∀ w w' : World, w.Bares w' → (e' w').1 = (e w).1.map f ∧ (e w).2.Bares (e' w').2

/-- In a world of bare values `e'` makes what `e` makes, under `f`. -/
def Effect.Makes {α β : Type} (f : α → β) (e : World → α × World) (e' : World → β × World) : Prop :=
  ∀ w w' : World, w.Bares w' → (e' w').1 = f (e w).1 ∧ (e w).2.Bares (e' w').2

namespace World

theorem Bares.around (terminal : Terminal) (dice : Dice) (seed : Nat) :
    Bares { World.around terminal with dice, seed } { World.around terminal with dice, seed } where
  contexts := Array.map_empty.symm
  heap := .empty
  terminal := rfl
  identities := rfl
  dice := rfl
  seed := rfl

namespace Bares

variable {w w' : World} (h : w.Bares w')

include h

theorem context (i : ContextId) : w'.context i = (w.context i).mapValues Value.bare := by
  unfold World.context
  rw [h.contexts]
  exact w.contexts.context_mapValues _ i

theorem size : w'.contexts.size = w.contexts.size := by
  rw [h.contexts]
  exact w.contexts.size_mapValues _

theorem knows (i : ContextId) (name : String) : w'.knows i name = w.knows i name := by
  unfold World.knows
  rw [h.contexts, Contexts.resolve?_mapValues]

theorem withContexts (cs : Contexts) :
    Bares { w with contexts := cs } { w' with contexts := cs.mapValues Value.bare } :=
  { h with contexts := rfl }

theorem withHeap {heap heap' : Heap} (bares : heap.Bares heap') :
    Bares { w with heap } { w' with heap := heap' } :=
  { h with heap := bares }

theorem withTerminal (terminal : Terminal) : Bares { w with terminal } { w' with terminal } :=
  { h with terminal := rfl }

theorem update (i : ContextId) {g g' : Context → Context}
    (same : ∀ c : Context, g' (c.mapValues Value.bare) = (g c).mapValues Value.bare) :
    (w.update i g).Bares (w'.update i g') := by
  unfold World.update
  rw [h.contexts, Contexts.update_mapValues _ _ i same]
  exact h.withContexts _

theorem enterScope (i : ContextId) : (w.enterScope i).Bares (w'.enterScope i) :=
  h.update i fun _ => rfl

theorem leaveScope (i : ContextId) : (w.leaveScope i).Bares (w'.leaveScope i) :=
  h.update i fun c => c.leave_mapValues _

theorem addContext (c : Context) : (w'.addContext (c.mapValues Value.bare)).1 = (w.addContext c).1 ∧
    (w.addContext c).2.Bares (w'.addContext (c.mapValues Value.bare)).2 := by
  unfold World.addContext
  refine ⟨h.size, ?_⟩
  rw [h.contexts, Contexts.push_mapValues]
  exact h.withContexts _

end Bares

/-! ### names, loops and calls -/

section Names

variable (i : ContextId)

theorem bares_onContexts {g g' : Contexts → Except RuntimeFault Contexts}
    (same : ∀ cs : Contexts,
      g' (cs.mapValues Value.bare) = (g cs).map (Contexts.mapValues Value.bare)) :
    Effect.Bares id (onContexts g) (onContexts g') := by
  intro w w' h
  unfold onContexts
  rw [h.contexts, same]
  cases g w.contexts with
  | error fault => exact ⟨rfl, h⟩
  | ok cs => exact ⟨rfl, h.withContexts cs⟩

theorem bares_onContext {g g' : Context → Except RuntimeFault Context}
    (same : ∀ c : Context, g' (c.mapValues Value.bare) = (g c).map (Context.mapValues Value.bare)) :
    Effect.Bares id (onContext i g) (onContext i g') := by
  refine bares_onContexts fun cs => ?_
  rw [cs.context_mapValues, same]
  cases g (cs.context i) with
  | error fault => rfl
  | ok c => exact congrArg Except.ok (cs.set_mapValues _ i c)

theorem bares_define (name : String) (v : Value) :
    Effect.Bares id (define i name v) (define i name v.bare) :=
  bares_onContexts fun cs => cs.define_mapValues _ i name v

theorem bares_assign (name : String) (v : Value) :
    Effect.Bares id (assign i name v) (assign i name v.bare) :=
  bares_onContexts fun cs => cs.assign_mapValues _ i name v

theorem bares_lookup (name : String) :
    Effect.Bares Value.bare (lookup i name) (lookup i name) := by
  intro w w' h
  refine ⟨?_, h⟩
  unfold lookup
  rw [h.contexts]
  exact w.contexts.lookup_mapValues _ rfl i name

theorem bares_popLoop : Effect.Bares id (popLoop i) (popLoop i) := by
  intro w w' h
  unfold popLoop
  rw [h.context, Context.popLoop_mapValues]
  cases (w.context i).popLoop with
  | error fault => exact ⟨rfl, h⟩
  | ok r =>
    obtain ⟨frame, c⟩ := r
    refine ⟨rfl, ?_⟩
    dsimp only [Except.map, Prod.map]
    rw [h.contexts, Contexts.set_mapValues]
    exact h.withContexts _

/-- The end of a round of a loop. -/
theorem bares_closeRound : Effect.Bares id
    (fun w => ((w.popLoop i).1, (w.popLoop i).2.leaveScope i))
    (fun w => ((w.popLoop i).1, (w.popLoop i).2.leaveScope i)) := by
  intro w w' h
  obtain ⟨popped, after⟩ := bares_popLoop i w w' h
  exact ⟨popped, after.leaveScope i⟩

theorem bares_popCall : Effect.Bares (List.map Value.bare) (popCall i) (popCall i) := by
  intro w w' h
  unfold popCall
  rw [h.context, Context.popCall_mapValues]
  cases (w.context i).popCall with
  | error fault => exact ⟨rfl, h⟩
  | ok r =>
    obtain ⟨returned, c⟩ := r
    refine ⟨rfl, ?_⟩
    dsimp only [Except.map, Prod.map]
    rw [h.contexts, Contexts.set_mapValues]
    exact h.withContexts _

end Names

/-! ### new values -/

theorem bares_newArray (items : Items) :
    Effect.Makes Value.bare (newArray items) (newArray (items.map Value.bare)) := by
  intro w w' h
  refine ⟨?_, h.withHeap (h.heap.push (.array items))⟩
  exact congrArg Value.array h.heap.size

theorem bares_newDictionary {d d' : Dictionary} (bares : d.Bares d') :
    Effect.Makes Value.bare (newDictionary d) (newDictionary d') := by
  intro w w' h
  refine ⟨?_, h.withHeap (h.heap.push (.dictionary bares))⟩
  exact congrArg Value.dictionary h.heap.size

theorem bares_newFunction (f : Closure) :
    Effect.Makes Value.bare (newFunction f) (newFunction f.bare) := by
  intro w w' h
  refine ⟨?_, { h with identities := congrArg (· + 1) h.identities }⟩
  exact congrArg (Value.function · f.bare) h.identities

theorem bares_newBuiltin (b : Builtin) :
    Effect.Makes Value.bare (newBuiltin b) (newBuiltin b) := by
  intro w w' h
  refine ⟨?_, { h with identities := congrArg (· + 1) h.identities }⟩
  exact congrArg (Value.native · b) h.identities

theorem bares_newChild (parent : ContextId) :
    Effect.Makes id (newChild parent) (newChild parent) :=
  fun _ _ h => h.addContext (.inside parent)

/-! ### properties -/

theorem bares_writeItem (a : Address) (index : Nat) (v : Value) :
    Effect.Bares id (writeItem a index v) (writeItem a index v.bare) := by
  intro w w' h
  unfold writeItem
  rw [h.heap.items, Items.write_bare]
  cases (w.heap.items a).write index v with
  | error fault => exact ⟨rfl, h⟩
  | ok items => exact ⟨rfl, h.withHeap (h.heap.setItems a items)⟩

theorem Bares.writeEntry {w w' : World} (h : w.Bares w') (a : Address) (key : String) (v : Value) :
    (w.writeEntry a key v).Bares (w'.writeEntry a key v.bare) :=
  h.withHeap (h.heap.setEntries a ((h.heap.entries a).set key v))

theorem bares_property (object key : Value) :
    Effect.Bares Value.bare (property object key) (property object.bare key.bare) := by
  intro w w' h
  cases object with
  | array a =>
    change (property (.array a) key.bare w').1 = _ ∧ Bares _ (property (.array a) key.bare w').2
    unfold property
    dsimp only
    rw [key.string?_bare, key.index?_bare, h.heap.items]
    cases key.string?.bind ArrayMethod.ofName? with
    | some method =>
      obtain ⟨made, after⟩ := bares_newBuiltin (.array a method) w w' h
      exact ⟨congrArg Except.ok made, after⟩
    | none =>
      cases key.index? with
      | some index => exact ⟨congrArg Except.ok (Items.item_bare _ index), h⟩
      | none => exact ⟨rfl, h⟩
  | dictionary a =>
    change (property (.dictionary a) key.bare w').1 = _ ∧
      Bares _ (property (.dictionary a) key.bare w').2
    unfold property
    dsimp only
    rw [key.string?_bare, h.heap.key]
    cases key.string?.bind DictionaryMethod.ofName? with
    | some method =>
      obtain ⟨made, after⟩ := bares_newBuiltin (.dictionary a method) w w' h
      exact ⟨congrArg Except.ok made, after⟩
    | none => exact ⟨congrArg Except.ok ((h.heap.entries a).get _), h⟩
  | _ => exact ⟨rfl, h⟩

theorem bares_setProperty (object key v : Value) :
    Effect.Bares id (setProperty object key v) (setProperty object.bare key.bare v.bare) := by
  intro w w' h
  cases object with
  | array a =>
    change (setProperty (.array a) key.bare v.bare w').1 = _ ∧
      Bares _ (setProperty (.array a) key.bare v.bare w').2
    unfold setProperty position
    dsimp only
    rw [key.index?_bare]
    cases key.index? with
    | some index => exact bares_writeItem a index v w w' h
    | none => exact ⟨rfl, h⟩
  | dictionary a =>
    change (setProperty (.dictionary a) key.bare v.bare w').1 = _ ∧
      Bares _ (setProperty (.dictionary a) key.bare v.bare w').2
    unfold setProperty
    dsimp only
    rw [h.heap.key]
    exact ⟨rfl, h.writeEntry a _ v⟩
  | _ => exact ⟨rfl, h⟩

end World

/-! ### the library -/

theorem argument_bare (vs : List Value) (i : Nat) :
    argument (vs.map Value.bare) i = (argument vs i).bare := by
  unfold argument
  rw [List.getElem?_map]
  cases vs[i]? with
  | none => rfl
  | some v => rfl

theorem numberArgument_bare (vs : List Value) (i : Nat) (name : String) :
    numberArgument (vs.map Value.bare) i name = numberArgument vs i name := by
  have same : (vs.map Value.bare)[i]?.bind Value.number? = vs[i]?.bind Value.number? := by
    rw [List.getElem?_map]
    cases vs[i]? with
    | none => rfl
    | some v => exact v.number?_bare
  unfold numberArgument
  rw [same]

theorem randomRange_bare (vs : List Value) : randomRange (vs.map Value.bare) = randomRange vs := by
  have bounds : randomBounds (vs.map Value.bare) = randomBounds vs := by
    unfold randomBounds
    rcases vs with _ | ⟨v, _ | ⟨u, vs⟩⟩
    · rfl
    · rw [numberArgument_bare]
      rfl
    · have low := numberArgument_bare (v :: u :: vs) 0 "min"
      have high := numberArgument_bare (v :: u :: vs) 1 "max"
      rw [List.map_cons, List.map_cons] at low high ⊢
      dsimp only
      rw [low, high]
  unfold randomRange
  rw [bounds]

theorem Builtin.breaksOff_bare (b : Builtin) (vs : List Value) :
    b.breaksOff (vs.map Value.bare) = b.breaksOff vs := by
  unfold breaksOff
  rw [randomRange_bare]

theorem MathFunction.value_bare (f : MathFunction) (vs : List Value) :
    f.value (vs.map Value.bare) = f.value vs := by
  cases f with
  | power =>
    unfold value
    dsimp only
    rw [numberArgument_bare, numberArgument_bare]
  | _ =>
    unfold value
    dsimp only
    rw [numberArgument_bare]

namespace World

theorem bares_random (vs : List Value) :
    Effect.Bares Value.bare (random vs) (random (vs.map Value.bare)) := by
  intro w w' h
  unfold random
  rw [randomRange_bare]
  cases randomRange vs with
  | error fault => exact ⟨rfl, h⟩
  | ok bounds =>
    dsimp only
    rw [h.dice, h.seed]
    exact ⟨rfl, { h with dice := rfl, seed := rfl }⟩

theorem bares_callConsole (f : ConsoleFunction) (vs : List Value) :
    Effect.Makes Value.bare (callConsole f vs) (callConsole f (vs.map Value.bare)) := by
  intro w w' h
  unfold callConsole
  cases f with
  | write =>
    have texts : (vs.map Value.bare).map w'.heap.text = vs.map w.heap.text := by
      rw [List.map_map]
      exact List.map_congr_left fun v _ => h.heap.text v
    dsimp only
    rw [texts, h.terminal]
    exact ⟨rfl, h.withTerminal _⟩
  | read =>
    cases vs with
    | nil =>
      rw [List.map_nil]
      dsimp only
      rw [h.terminal]
      refine ⟨?_, h.withTerminal _⟩
      cases (w.terminal.readLine "").1 with
      | none => rfl
      | some line => rfl
    | cons first vs =>
      rw [List.map_cons]
      dsimp only
      rw [h.heap.text, h.terminal]
      refine ⟨?_, h.withTerminal _⟩
      cases (w.terminal.readLine (w.heap.text first)).1 with
      | none => rfl
      | some line => rfl
  | clear =>
    dsimp only
    rw [h.terminal]
    exact ⟨rfl, h.withTerminal _⟩

theorem bares_sleep (vs : List Value) :
    Effect.Bares Value.bare (sleep vs) (sleep (vs.map Value.bare)) := by
  intro w w' h
  unfold sleep
  rw [numberArgument_bare, h.terminal]
  cases numberArgument vs 0 "segundos" with
  | error fault => exact ⟨rfl, h⟩
  | ok seconds =>
    dsimp only
    split_ifs with long
    · exact ⟨rfl, h.withTerminal _⟩
    · exact ⟨rfl, h⟩

theorem bares_callArray (a : Address) (method : ArrayMethod) (vs : List Value) :
    Effect.Bares Value.bare (callArray a method vs) (callArray a method (vs.map Value.bare)) := by
  intro w w' h
  unfold callArray
  cases method with
  | push =>
    dsimp only
    rw [argument_bare]
    unfold pushItem
    rw [h.heap.items, ← Array.map_push]
    exact ⟨rfl, h.withHeap (h.heap.setItems a _)⟩
  | length =>
    dsimp only
    rw [h.heap.items, Array.size_map]
    exact ⟨rfl, h⟩
  | get =>
    unfold position
    dsimp only
    rw [argument_bare, Value.index?_bare, h.heap.items]
    cases (argument vs 0).index? with
    | none => exact ⟨rfl, h⟩
    | some index => exact ⟨congrArg Except.ok (Items.item_bare _ index), h⟩
  | set =>
    unfold position
    dsimp only
    rw [argument_bare, argument_bare, Value.index?_bare]
    cases (argument vs 0).index? with
    | none => exact ⟨rfl, h⟩
    | some index =>
      obtain ⟨wrote, after⟩ := bares_writeItem a index (argument vs 1) w w' h
      refine ⟨?_, after⟩
      dsimp only
      rw [wrote]
      cases (writeItem a index (argument vs 1) w).1 with
      | error fault => rfl
      | ok _ => rfl
  | remove =>
    unfold position
    dsimp only
    rw [argument_bare, Value.index?_bare]
    cases (argument vs 0).index? with
    | none => exact ⟨rfl, h⟩
    | some index =>
      unfold removeItem
      dsimp only
      rw [h.heap.items, Items.item_bare, Items.removeAt_bare]
      exact ⟨rfl, h.withHeap (h.heap.setItems a _)⟩

theorem bares_callDictionary (a : Address) (method : DictionaryMethod) (vs : List Value) :
    Effect.Makes Value.bare (callDictionary a method vs)
      (callDictionary a method (vs.map Value.bare)) := by
  intro w w' h
  unfold callDictionary
  cases method with
  | get =>
    dsimp only
    rw [argument_bare, h.heap.key]
    exact ⟨(h.heap.entries a).get _, h⟩
  | set =>
    dsimp only
    rw [argument_bare, argument_bare, h.heap.key]
    exact ⟨rfl, h.writeEntry a _ _⟩
  | length =>
    refine ⟨?_, h⟩
    dsimp only
    rw [(h.heap.entries a).size]
    rfl

theorem bares_callBuiltin (b : Builtin) (vs : List Value) :
    Effect.Bares Value.bare (callBuiltin b vs) (callBuiltin b (vs.map Value.bare)) := by
  intro w w' h
  cases b with
  | math f =>
    refine ⟨?_, h⟩
    unfold callBuiltin
    dsimp only
    rw [f.value_bare]
    cases f.value vs with
    | error fault => rfl
    | ok x => rfl
  | random => exact bares_random vs w w' h
  | console f =>
    obtain ⟨value, after⟩ := bares_callConsole f vs w w' h
    exact ⟨congrArg Except.ok value, after⟩
  | sleep => exact bares_sleep vs w w' h
  | array a method => exact bares_callArray a method vs w w' h
  | dictionary a method =>
    obtain ⟨value, after⟩ := bares_callDictionary a method vs w w' h
    exact ⟨congrArg Except.ok value, after⟩

/-! ### the names of the library -/

theorem bares_newBuiltins (builtins : List Builtin) : Effect.Makes
    (List.map (Prod.map id Value.bare)) (newBuiltins builtins) (newBuiltins builtins) := by
  intro w w' h
  induction builtins generalizing w w' with
  | nil => exact ⟨rfl, h⟩
  | cons b rest ih =>
    obtain ⟨first, after⟩ := bares_newBuiltin b w w' h
    obtain ⟨others, last⟩ := ih _ _ after
    refine ⟨?_, last⟩
    unfold newBuiltins
    dsimp only
    rw [first, others]
    rfl

/-- A dictionary of plain values and new functions is made alike. -/
theorem bares_newLibrary (name : String) (constants : List (String × Value))
    (plain : constants.map (Prod.map id Value.bare) = constants) (builtins : List Builtin) :
    Effect.Makes (fun l : Local => { l with value := l.value.bare })
      (newLibrary name constants builtins) (newLibrary name constants builtins) := by
  intro w w' h
  obtain ⟨functions, after⟩ := bares_newBuiltins builtins w w' h
  have filled := Dictionary.Bares.empty.writes (constants ++ (newBuiltins builtins w).1)
  rw [List.map_append, plain, ← functions] at filled
  obtain ⟨made, last⟩ := bares_newDictionary filled _ _ after
  refine ⟨?_, last⟩
  exact congrArg (Local.mk name Context.builtinLevel) made

theorem bares_newGlobal : Effect.Makes id newGlobal newGlobal := by
  intro w w' h
  obtain ⟨math, h₁⟩ := bares_newLibrary "math" [("PI", .number pi), ("TAU", .number (2 * pi))] rfl
    (MathFunction.all.map Builtin.math ++ [.random]) w w' h
  obtain ⟨console, h₂⟩ := bares_newLibrary "console" [] rfl
    (ConsoleFunction.all.map Builtin.console) _ _ h₁
  obtain ⟨sleep, h₃⟩ := bares_newLibrary "sleep" [] rfl [.sleep] _ _ h₂
  unfold newGlobal
  dsimp only
  rw [math, console, sleep]
  exact h₃.addContext { Context.root with locals := [_, _, _] }

end World

end Roteiro
