import Roteiro.Eval.Session

/-!
Traces: an observer that writes down every event, and can stop the evaluation at a given one. A
guarded trace takes a node only once, however often it is shown in a row.
-/

namespace Roteiro

/-- An event of a trace. -/
inductive Event where
  /-- A node was taken, at a scope level. -/
  | enter (text : String) (span : Span) (level : Nat)
  /-- A node got its value, at a scope level. -/
  | leave (value : String) (level : Nat)
  deriving Repr, DecidableEq

/-- The state of a tracing observer. -/
structure Trace where
  /-- Whether a node shown again is refused. -/
  guarded : Bool
  /-- The number of events at which the evaluation is stopped. -/
  stopAt : Option Nat := none
  /-- Newest first. -/
  recorded : List Event := []
  /-- The nodes taken and not left, innermost first. -/
  pending : List NodeKey := []

namespace Trace

/-- The events, oldest first. -/
def events (t : Trace) : List Event :=
  t.recorded.reverse

/-- Adds an event. -/
def record (t : Trace) (e : Event) : Trace :=
  { t with recorded := e :: t.recorded }

/-- Whether the evaluation is to be stopped now. -/
def stopped (t : Trace) : Bool :=
  t.stopAt == some t.recorded.length

/-- Writes down that a node is entered. -/
def enter (node : Node) (c : ContextId) (m : Machine Trace) :
    Except RuntimeFault Bool × Machine Trace :=
  if m.watch.guarded && m.watch.pending.head? == some node.key then (.ok false, m)
  else
    let event := Event.enter node.text node.span (m.world.context c).level
    let watch := { m.watch.record event with pending := node.key :: m.watch.pending }
    (if watch.stopped then .error .halted else .ok true, { m with watch })

/-- Writes down the value of a node. -/
def leave (value : Value) (c : ContextId) (m : Machine Trace) :
    Except RuntimeFault Unit × Machine Trace :=
  let watch := m.watch.record (.leave (m.world.heap.text value) (m.world.context c).level)
  let watch := { watch with pending := watch.pending.drop 1 }
  (if watch.stopped then .error .halted else .ok (), { m with watch })

/-- The tracing observer. -/
def observer : Observer Trace where
  enter := Trace.enter
  leave := Trace.leave

end Trace

end Roteiro
