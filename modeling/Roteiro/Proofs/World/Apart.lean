import Roteiro.World.Library

/-!
What stands apart from the contexts. Properties, built-in functions and new collections neither look
at the contexts of a world nor change them: in a world with other contexts they do the same.
-/

namespace Roteiro

variable {α : Type}

/-- A world with other contexts. -/
def World.withContexts (cs : Contexts) (w : World) : World :=
  { w with contexts := cs }

/-- What neither looks at the contexts nor changes them. -/
def World.Apart (f : World → α × World) : Prop :=
  ∀ cs w, f (w.withContexts cs) = ((f w).1, (f w).2.withContexts cs)

namespace World

theorem Apart.contexts {f : World → α × World} (h : Apart f) (w : World) :
    (f w).2.contexts = w.contexts :=
  congrArg (fun r => r.2.contexts) (h w.contexts w)

/-! ### collections -/

theorem apart_newArray (items : Items) : Apart (newArray items) := fun _ _ => rfl

theorem apart_newDictionary (d : Dictionary) : Apart (newDictionary d) := fun _ _ => rfl

theorem apart_newFunction (f : Closure) : Apart (newFunction f) := fun _ _ => rfl

theorem apart_writeItem (a : Address) (index : Nat) (v : Value) : Apart (writeItem a index v) := by
  intro cs w
  unfold writeItem withContexts
  dsimp only
  cases (w.heap.items a).write index v with
  | ok items => rfl
  | error fault => rfl

theorem apart_property (x k : Value) : Apart (property x k) := by
  intro cs w
  unfold property
  cases x with
  | array a =>
    dsimp only
    cases k.string?.bind ArrayMethod.ofName? with
    | some method => rfl
    | none =>
      cases k.index? with
      | some index => rfl
      | none => rfl
  | dictionary a =>
    dsimp only
    cases k.string?.bind DictionaryMethod.ofName? with
    | some method => rfl
    | none => rfl
  | null => rfl
  | number _ => rfl
  | boolean _ => rfl
  | string _ => rfl
  | function _ _ => rfl
  | native _ _ => rfl

theorem apart_setProperty (x k v : Value) : Apart (setProperty x k v) := by
  intro cs w
  unfold setProperty
  cases x with
  | array a =>
    dsimp only
    cases position k with
    | ok index => exact apart_writeItem a index v cs w
    | error fault => rfl
  | dictionary a => rfl
  | null => rfl
  | number _ => rfl
  | boolean _ => rfl
  | string _ => rfl
  | function _ _ => rfl
  | native _ _ => rfl

/-! ### the library -/

theorem apart_random (vs : List Value) : Apart (random vs) := by
  intro cs w
  unfold random
  cases randomRange vs with
  | error fault => rfl
  | ok bounds => rfl

theorem apart_callConsole (f : ConsoleFunction) (vs : List Value) : Apart (callConsole f vs) := by
  intro cs w
  cases f with
  | write => rfl
  | read => rfl
  | clear => rfl

theorem apart_sleep (vs : List Value) : Apart (World.sleep vs) := by
  intro cs w
  unfold World.sleep
  cases numberArgument vs 0 "segundos" with
  | error fault => rfl
  | ok seconds =>
    dsimp only
    split
    · rfl
    · rfl

theorem apart_callArray (a : Address) (method : ArrayMethod) (vs : List Value) :
    Apart (callArray a method vs) := by
  intro cs w
  unfold callArray
  cases method with
  | push => rfl
  | length => rfl
  | get =>
    dsimp only
    cases position (argument vs 0) with
    | error fault => rfl
    | ok index => rfl
  | set =>
    dsimp only
    cases position (argument vs 0) with
    | error fault => rfl
    | ok index =>
      dsimp only
      rw [apart_writeItem]
  | remove =>
    dsimp only
    cases position (argument vs 0) with
    | error fault => rfl
    | ok index => rfl

theorem apart_callDictionary (a : Address) (method : DictionaryMethod) (vs : List Value) :
    Apart (callDictionary a method vs) := by
  intro cs w
  cases method with
  | get => rfl
  | set => rfl
  | length => rfl

theorem apart_callBuiltin (b : Builtin) (vs : List Value) : Apart (callBuiltin b vs) := by
  intro cs w
  unfold callBuiltin
  cases b with
  | math f => rfl
  | random => exact apart_random vs cs w
  | console f =>
    dsimp only
    rw [apart_callConsole]
  | sleep => exact apart_sleep vs cs w
  | array a method => exact apart_callArray a method vs cs w
  | dictionary a method =>
    dsimp only
    rw [apart_callDictionary]

end World

end Roteiro
