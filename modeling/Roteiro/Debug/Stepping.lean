import Roteiro.Eval.Session

/-!
Stepping through a script. The evaluation pauses before and after every node that a guarded observer
takes, and a controller is asked at each pause whether to go on; it is also asked once before the
first node. While the script is paused the controller can look at the node, at its value if it has
one, and at the world.
-/

namespace Roteiro

open Text

/-- Why a debugging session does not go on. -/
inductive DebugError where
  | programFinished
  /-- Stopped by the user. -/
  | programExit
  | backwardUnsupported
  | failed (error : RuntimeError)
  /-- The commands could not be read. -/
  | console (reason : String)
  deriving Repr, DecidableEq

namespace DebugError

/-- The stable code of an error; an error of the script keeps its own. -/
def code : DebugError → String
  | programFinished => "DB001"
  | programExit => "DB002"
  | backwardUnsupported => "DB003"
  | failed e => e.fault.code
  | console _ => "DB004"

/-- The message of an error. -/
def message : DebugError → String
  | programFinished => "Program has already finished"
  | programExit => "Program was stopped by the user"
  | backwardUnsupported => "Stepping backwards is not supported"
  | failed e => e.fault.message
  | console reason => "Debugger console failed: " ++ reason

end DebugError

/-- What can be looked at while a script is paused. -/
structure DebugView where
  /-- The nodes under evaluation with their texts, innermost first. -/
  stack : List (NodeKey × String) := []
  /-- The value of the innermost node, once it has one. -/
  last : Option Value := none
  /-- The context of the last pause. -/
  context : Option ContextId := none

namespace DebugView

/-- The locals of the current level, at the last pause. -/
def locals (v : DebugView) (w : World) : List (String × Value) :=
  match v.context with
  | some c => (w.context c).currentLocals
  | none => []

/-- The text of the innermost node. -/
def node (v : DebugView) : String :=
  match v.stack with
  | (_, text) :: _ => text
  | [] => ""

/-- What is told of a pause: the node, and its value once it has one. -/
def pauseText (v : DebugView) (h : Heap) : String :=
  v.node ++ " -> " ++
    match v.last with
    | some value => h.text value
    | none => "..."

end DebugView

/-- What is told of the end of a script. -/
def finishText (h : Heap) (value : Value) : String :=
  "fim do programa -> " ++ h.text value

/-- What to do after a pause. -/
inductive Resume where
  | step
  | quit
  deriving Repr, DecidableEq

/-- Whoever decides at the pauses, with a state of type `τ`. -/
structure Controller (τ : Type) where
  resume : DebugView → World → τ → Resume × World × τ

/-- The state of a stepping observer. -/
structure Stepping (τ : Type) where
  view : DebugView
  driver : τ

namespace Controller

variable {τ : Type}

/-- Asks the controller; to quit is to halt the evaluation. -/
def pause (k : Controller τ) (m : Machine (Stepping τ)) :
    Except RuntimeFault Unit × Machine (Stepping τ) :=
  let (resume, world, driver) := k.resume m.watch.view m.world m.watch.driver
  let m : Machine (Stepping τ) := { world, watch := { m.watch with driver } }
  match resume with
  | .step => (.ok (), m)
  | .quit => (.error .halted, m)

/-- Pauses before a node, unless it is the innermost one already. -/
def enter (k : Controller τ) (node : Node) (c : ContextId) (m : Machine (Stepping τ)) :
    Except RuntimeFault Bool × Machine (Stepping τ) :=
  let view := m.watch.view
  if view.stack.head?.map Prod.fst == some node.key then (.ok false, m)
  else
    let view : DebugView :=
      { stack := (node.key, node.text) :: view.stack, last := none, context := some c }
    let (result, m) := k.pause { m with watch := { m.watch with view } }
    (result.map fun _ => true, m)

/-- Pauses after a node. -/
def leave (k : Controller τ) (value : Value) (c : ContextId) (m : Machine (Stepping τ)) :
    Except RuntimeFault Unit × Machine (Stepping τ) :=
  let view := { m.watch.view with last := some value, context := some c }
  match k.pause { m with watch := { m.watch with view } } with
  | (.error fault, m) => (.error fault, m)
  | (.ok _, m) =>
    let view := { m.watch.view with stack := m.watch.view.stack.drop 1 }
    (.ok (), { m with watch := { m.watch with view } })

/-- The observer that asks the controller. -/
def observer (k : Controller τ) : Observer (Stepping τ) where
  enter := k.enter
  leave := k.leave

end Controller

/-- The end of a script that was stepped through. -/
structure Debugged (τ : Type) where
  outcome : Outcome Value
  view : DebugView
  world : World
  driver : τ

/-- Steps through a script. Quitting before the first node halts at the whole script. -/
def Program.debug {τ : Type} (p : Program) (k : Controller τ) (driver : τ) (fuel : Nat)
    (w : World) : Debugged τ :=
  match k.resume {} w driver with
  | (.quit, world, driver) => ⟨.error ⟨.halted, p.span⟩, {}, world, driver⟩
  | (.step, world, driver) =>
    let (outcome, m) := p.runWith k.observer ⟨{}, driver⟩ fuel world
    ⟨outcome, m.watch.view, m.world, m.watch.driver⟩

end Roteiro
