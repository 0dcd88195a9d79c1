import Roteiro.Scope.Chain
import Roteiro.Value.Heap
import Roteiro.World.Dice
import Roteiro.World.Terminal

/-!
Worlds: all that a running script can read and change. A world holds the contexts, the heap, the
terminal, the next free identity for functions, and the source of random numbers with its state.
-/

namespace Roteiro

/-- The state of a running script. -/
structure World where
  contexts : Contexts := #[]
  heap : Heap := #[]
  terminal : Terminal
  /-- The identity that the next function gets. -/
  identities : Identity := 0
  /-- Where random numbers come from. -/
  dice : Dice := .congruential
  /-- The state of the random numbers. -/
  seed : Nat := 88172645463325252

/-- Something done in a world: a result or a fault, and the world after it. -/
abbrev Effect (α : Type) := World → Except RuntimeFault α × World

namespace World

/-- A world without contexts around a terminal. -/
def around (terminal : Terminal) : World :=
  { terminal }

/-! ### contexts -/

/-- The context with a given id. -/
def context (w : World) (id : ContextId) : Context :=
  w.contexts.context id

/-- Changes a context. -/
def update (id : ContextId) (f : Context → Context) (w : World) : World :=
  { w with contexts := w.contexts.update id f }

/-- Adds a context. -/
def addContext (c : Context) (w : World) : ContextId × World :=
  (w.contexts.size, { w with contexts := w.contexts.push c })

/-- Changes the contexts, or fails and changes nothing. -/
def onContexts (f : Contexts → Except RuntimeFault Contexts) : Effect Unit :=
  fun w =>
    match f w.contexts with
    | .ok contexts => (.ok (), { w with contexts })
    | .error fault => (.error fault, w)

/-- Changes one context, or fails and changes nothing. -/
def onContext (id : ContextId) (f : Context → Except RuntimeFault Context) : Effect Unit :=
  onContexts fun cs => (f (cs.context id)).map fun c => cs.setIfInBounds id c

/-- Defines a name in a context. -/
def define (id : ContextId) (name : String) (value : Value) : Effect Unit :=
  onContexts fun cs => cs.define id name value

/-- Overwrites the value of a name. -/
def assign (id : ContextId) (name : String) (value : Value) : Effect Unit :=
  onContexts fun cs => cs.assign id name value

/-- The value of a name. -/
def lookup (id : ContextId) (name : String) : Effect Value :=
  fun w => (w.contexts.lookup id name, w)

/-- Whether a name is known. -/
def knows (w : World) (id : ContextId) (name : String) : Bool :=
  (w.contexts.resolve? id name).isSome

/-- Enters a scope of a context. -/
def enterScope (id : ContextId) : World → World :=
  update id Context.enter

/-- Leaves a scope of a context. -/
def leaveScope (id : ContextId) : World → World :=
  update id Context.leave

/-- Ends a round of the innermost loop of a context. -/
def popLoop (id : ContextId) : Effect LoopFrame :=
  fun w =>
    match (w.context id).popLoop with
    | .ok (frame, c) => (.ok frame, { w with contexts := w.contexts.setIfInBounds id c })
    | .error fault => (.error fault, w)

/-- Ends the innermost call of a context. -/
def popCall (id : ContextId) : Effect (List Value) :=
  fun w =>
    match (w.context id).popCall with
    | .ok (returned, c) => (.ok returned, { w with contexts := w.contexts.setIfInBounds id c })
    | .error fault => (.error fault, w)

/-! ### new values -/

/-- A new array. -/
def newArray (items : Items) (w : World) : Value × World :=
  let (a, heap) := w.heap.allocate (.array items)
  (.array a, { w with heap })

/-- A new dictionary. -/
def newDictionary (entries : Dictionary) (w : World) : Value × World :=
  let (a, heap) := w.heap.allocate (.dictionary entries)
  (.dictionary a, { w with heap })

/-- A new function. -/
def newFunction (closure : Closure) (w : World) : Value × World :=
  (.function w.identities closure, { w with identities := w.identities + 1 })

/-- A new built-in function. -/
def newBuiltin (b : Builtin) (w : World) : Value × World :=
  (.native w.identities b, { w with identities := w.identities + 1 })

end World

end Roteiro
