import Roteiro.Proofs.Eval.Congruence
import Roteiro.Proofs.World.Closures

/-!
The faults of values and worlds. What is done with values, names and collections fails for what they
are: a value has the wrong type, a name is missing, an index is out of range. It fails neither for
the place of a statement nor for a node that cannot be evaluated, and it does not halt the script
(`Effect.Plain.apt`); only a signal without a loop or a call does the first
(`Effect.Simple.ofScript`).
-/

namespace Roteiro

variable {α β : Type}

/-- Whether a fault comes from a value, a name or a collection. -/
def RuntimeFault.ofData : RuntimeFault → Bool
  | .noLoop | .noFunction | .unreachableNode _ | .halted => false
  | _ => true

/-- Whether a fault is one that a script can bring about. -/
def RuntimeFault.ofScript : RuntimeFault → Bool
  | .unreachableNode _ | .halted => false
  | _ => true

theorem RuntimeFault.ofScript_of_ofData {fault : RuntimeFault} (h : fault.ofData) :
    fault.ofScript := by
  cases fault with
  | unreachableNode _ => cases h
  | halted => cases h
  | _ => rfl

/-- A result with a good value, or a fault that comes from a value, a name or a collection. -/
def Apt (good : α → Prop) : Except RuntimeFault α → Prop
  | .ok a => good a
  | .error fault => fault.ofData

/-- What is asked of a value where nothing is. -/
def anything (_ : α) : Prop := True

namespace Apt

variable {good : α → Prop} {good' : β → Prop} {r : Except RuntimeFault α}

theorem map {f : α → β} (h : Apt good r) (hf : ∀ a, good a → good' (f a)) : Apt good' (r.map f) := by
  cases r with
  | ok a => exact hf a h
  | error fault => exact h

theorem bind {f : α → Except RuntimeFault β} (h : Apt good r) (hf : ∀ a, good a → Apt good' (f a)) :
    Apt good' (r >>= f) := by
  cases r with
  | ok a => exact hf a h
  | error fault => exact h

theorem of_ok (h : Apt anything r) (hr : ∀ a, r = .ok a → good a) : Apt good r := by
  cases r with
  | ok a => exact hr a rfl
  | error fault => exact h

theorem of_error (h : Apt good r) {fault : RuntimeFault} (failed : r = .error fault) :
    fault.ofData := by
  subst failed
  exact h

/-! ### operators -/

variable {R : Closure → Prop}

theorem truth (v : Value) : Apt anything v.truth := by
  cases v with
  | boolean b => trivial
  | _ => rfl

theorem negate (v : Value) : Apt (Value.Obeys R) v.negate := by
  cases v with
  | number _ => trivial
  | boolean _ => trivial
  | _ => rfl

theorem compareBy (op : Operator) (accepted : List Ordering) (a b : Value) :
    Apt anything (Value.compareBy op accepted a b) := by
  have ordered : Apt anything (Value.order op a b) := by
    unfold Value.order
    split
    · trivial
    · trivial
    · trivial
    · rfl
  exact ordered.map fun _ _ => trivial

theorem numeric (op : Operator) (f : Float → Float → Float) (a b : Value) :
    Apt (Value.Obeys R) (Value.numeric op f a b) := by
  unfold Value.numeric
  split
  · trivial
  · rfl

theorem add (a b : Value) : Apt (Value.Obeys R) (Value.add a b) := by
  unfold Value.add
  split
  · trivial
  · trivial
  · trivial
  · trivial
  · rfl

theorem logical (f : Bool → Bool → Bool) (a b : Value) :
    Apt (Value.Obeys R) (Value.logical f a b) :=
  (truth a).bind fun _ _ => (truth b).bind fun _ _ => trivial

theorem apply (op : Operator) (a b : Value) : Apt (Value.Obeys R) (Value.apply op a b) := by
  cases op with
  | and => exact logical _ a b
  | or => exact logical _ a b
  | equal => trivial
  | notEqual => trivial
  | greater => exact (compareBy _ _ a b).map fun _ _ => trivial
  | greaterEqual => exact (compareBy _ _ a b).map fun _ _ => trivial
  | less => exact (compareBy _ _ a b).map fun _ _ => trivial
  | lessEqual => exact (compareBy _ _ a b).map fun _ _ => trivial
  | add => exact add a b
  | subtract => exact numeric _ _ a b
  | multiply => exact numeric _ _ a b
  | divide => exact numeric _ _ a b
  | modulo => exact numeric _ _ a b

theorem shortOf (current limit : Value) : Apt anything (Eval.shortOf current limit) := by
  unfold Eval.shortOf
  split
  · exact compareBy _ _ _ _
  · trivial
  · trivial

theorem iterate (h : Heap) (v : Value) : Apt anything (h.iterate v) := by
  cases v with
  | array _ => trivial
  | dictionary _ => trivial
  | _ => rfl

/-! ### names and collections -/

theorem lookup (c : ContextId) (name : String) (w : World) : Apt anything (World.lookup c name w).1 := by
  unfold World.lookup Contexts.lookup
  dsimp only
  split
  · trivial
  · rfl

theorem onContexts {f : Contexts → Except RuntimeFault Contexts} (w : World)
    (h : Apt anything (f w.contexts)) : Apt anything (World.onContexts f w).1 := by
  unfold World.onContexts
  split
  · trivial
  · next failed => exact h.of_error failed

theorem assign (c : ContextId) (name : String) (v : Value) (w : World) :
    Apt anything (World.assign c name v w).1 := by
  refine onContexts w ?_
  unfold Contexts.assign
  split
  · trivial
  · rfl

theorem define (c : ContextId) (name : String) (v : Value) (w : World) :
    Apt anything (World.define c name v w).1 := by
  have defined : Apt anything ((w.contexts.context c).define name v) := by
    unfold Context.define
    split
    · rfl
    · trivial
  exact onContexts w (defined.map fun _ _ => trivial)

theorem position (v : Value) : Apt anything (World.position v) := by
  unfold World.position
  split
  · trivial
  · rfl

theorem writeItem (a : Address) (index : Nat) (v : Value) (w : World) :
    Apt anything (World.writeItem a index v w).1 := by
  have write : Apt anything ((w.heap.items a).write index v) := by
    unfold Items.write
    repeat' split
    · trivial
    · trivial
    · rfl
    · trivial
  unfold World.writeItem
  split
  · trivial
  · next failed => exact write.of_error failed

theorem property (x k : Value) (w : World) : Apt anything (World.property x k w).1 := by
  unfold World.property
  cases x with
  | array a =>
    dsimp only
    repeat' split
    · trivial
    · trivial
    · trivial
  | dictionary a =>
    dsimp only
    split
    · trivial
    · trivial
  | string _ => trivial
  | function _ _ => trivial
  | native _ _ => trivial
  | null => rfl
  | number _ => rfl
  | boolean _ => rfl

theorem setProperty (x k v : Value) (w : World) : Apt anything (World.setProperty x k v w).1 := by
  unfold World.setProperty
  split
  · split
    · exact writeItem _ _ v w
    · next failed => exact (position k).of_error failed
  · trivial
  · rfl

/-! ### the library -/

theorem numberArgument (vs : List Value) (position : Nat) (name : String) :
    Apt anything (Roteiro.numberArgument vs position name) := by
  unfold Roteiro.numberArgument
  split
  · trivial
  · rfl

theorem randomRange (vs : List Value) : Apt anything (Roteiro.randomRange vs) := by
  have number (i : Nat) (name : String) := numberArgument vs i name
  have bounds : Apt anything (randomBounds vs) := by
    unfold randomBounds
    split
    · trivial
    · exact (number 0 "max").bind fun _ _ => trivial
    · exact (number 0 "min").bind fun _ _ => (number 1 "max").bind fun _ _ => trivial
  refine bounds.bind fun b _ => ?_
  dsimp only
  split
  · trivial
  · rfl

theorem math (f : MathFunction) (vs : List Value) : Apt anything (f.value vs) := by
  cases f with
  | power =>
    exact (numberArgument vs _ _).bind fun _ _ => (numberArgument vs _ _).bind fun _ _ => trivial
  | _ => exact (numberArgument vs _ _).bind fun _ _ => trivial

theorem callArray (a : Address) (method : ArrayMethod) (vs : List Value) (w : World) :
    Apt anything (World.callArray a method vs w).1 := by
  have position := Apt.position (argument vs 0)
  unfold World.callArray
  cases method with
  | push => trivial
  | length => trivial
  | get =>
    dsimp only
    split
    · next failed => exact position.of_error failed
    · trivial
  | set =>
    dsimp only
    split
    · next failed => exact position.of_error failed
    · exact (writeItem _ _ _ w).map fun _ _ => trivial
  | remove =>
    dsimp only
    split
    · next failed => exact position.of_error failed
    · trivial

theorem callBuiltin (b : Builtin) (vs : List Value) (w : World) :
    Apt anything (World.callBuiltin b vs w).1 := by
  cases b with
  | math f => exact (math f vs).map fun _ _ => trivial
  | random =>
    unfold World.callBuiltin World.random
    dsimp only
    split
    · next failed => exact (randomRange vs).of_error failed
    · trivial
  | console f => trivial
  | sleep =>
    unfold World.callBuiltin World.sleep
    dsimp only
    split
    · next failed => exact (numberArgument vs _ _).of_error failed
    · split
      · trivial
      · rfl
  | array a method => exact callArray a method vs w
  | dictionary a method => trivial

end Apt

/-! ### effects -/

/-- What the evaluation of an expression does to a world fails for the data only. -/
theorem Effect.Plain.apt {f : Effect α} (h : f.Plain) (w : World) : Apt anything (f w).1 := by
  cases h with
  | lookup c name => exact .lookup c name w
  | assign c name v => exact .assign c name v w
  | property x k => exact .property x k w
  | setProperty x k v => exact .setProperty x k v w
  | callBuiltin b vs => exact .callBuiltin b vs w

theorem World.onContext_error {c : ContextId} {f : Context → Except RuntimeFault Context}
    {w w' : World} {fault : RuntimeFault} (failed : World.onContext c f w = (.error fault, w')) :
    f (w.context c) = .error fault := by
  unfold World.onContext World.onContexts at failed
  dsimp only at failed
  unfold World.context
  cases given : f (w.contexts.context c) with
  | ok d =>
    rw [given] at failed
    cases failed
  | error fault' =>
    rw [given] at failed
    cases failed
    rfl

/-- A signal fails only if there is no loop or no call. -/
theorem Context.signal_error {a : Context} {f : LoopFrame → LoopFrame} {fault : RuntimeFault}
    (failed : a.signal f = .error fault) : fault = .noLoop := by
  unfold signal at failed
  split at failed
  · cases failed
  · cases failed
    rfl

theorem Context.pushReturns_error {a : Context} {vs : List Value} {fault : RuntimeFault}
    (failed : a.pushReturns vs = .error fault) : fault = .noFunction := by
  unfold pushReturns at failed
  split at failed
  · cases failed
  · cases failed
    rfl

/-- **What is done to a world fails with a fault of scripts only.** -/
theorem Effect.Simple.ofScript {f : Effect α} (h : f.Simple) {w w' : World} {fault : RuntimeFault}
    (failed : f w = (.error fault, w')) : fault.ofScript := by
  have data : ∀ {β : Type} {r : Except RuntimeFault β × World}, Apt anything r.1 →
      r = (.error fault, w') → fault.ofScript := by
    rintro _ _ data rfl
    exact RuntimeFault.ofScript_of_ofData data
  cases h with
  | plain plain => exact data (plain.apt w) failed
  | define c name v => exact data (.define c name v w) failed
  | iterate v => exact data (.iterate w.heap v) failed
  | markBreak c =>
    rw [Context.signal_error (World.onContext_error failed)]
    rfl
  | markContinue c =>
    rw [Context.signal_error (World.onContext_error failed)]
    rfl
  | pushReturns c vs =>
    rw [Context.pushReturns_error (World.onContext_error failed)]
    rfl

theorem World.popLoop_error {c : ContextId} {w : World} {fault : RuntimeFault}
    (failed : (World.popLoop c w).1 = .error fault) : fault = .noLoop := by
  unfold World.popLoop Context.popLoop at failed
  cases loops : (w.context c).loops with
  | nil =>
    rw [loops] at failed
    cases failed
    rfl
  | cons frame rest =>
    rw [loops] at failed
    cases failed

theorem World.popCall_error {c : ContextId} {w : World} {fault : RuntimeFault}
    (failed : (World.popCall c w).1 = .error fault) : fault = .noFunction := by
  unfold World.popCall Context.popCall at failed
  cases calls : (w.context c).calls with
  | nil =>
    rw [calls] at failed
    cases failed
    rfl
  | cons returned rest =>
    rw [calls] at failed
    cases failed

/-- To close a frame fails only if there is none. -/
theorem Effect.Closing.ofScript {f : Effect α} (h : f.Closing) {w w' : World}
    {fault : RuntimeFault} (failed : f w = (.error fault, w')) : fault.ofScript := by
  have refused := congrArg Prod.fst failed
  cases h with
  | scope c => cases refused
  | round c =>
    rw [World.popLoop_error refused]
    rfl
  | call c =>
    rw [World.popCall_error refused]
    rfl

end Roteiro
