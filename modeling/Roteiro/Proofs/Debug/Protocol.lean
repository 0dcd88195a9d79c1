import Mathlib.Logic.Relation
import Roteiro.Proofs.Debug.Playback

/-!
The protocol between a debugging session and the script that runs beside it. The session sends
commands to the script and the script sends signals back, over two channels without room: whoever
sends waits for the other to receive, and whoever receives waits for the other to send. A session
takes its calls one after the other and is closed after the last one: it stops the script if need be
and waits for it to be gone.

`Step` is what the two parties can do, in any order that the channels allow. `Exchange.Fits` says,
apart from the parties, what a session should answer.
-/

namespace Roteiro.Debugging

/-! ### messages -/

/-- What is asked of a session. -/
inductive Request where
  | forward
  | backward
  | locals
  | last
  | finished
  | quit
  deriving Repr, DecidableEq

/-- What a session answers. -/
inductive Reply where
  /-- The script is paused at a node, which may have its value. -/
  | paused (node : String) (value : Option Value)
  /-- The script has ended with a value. -/
  | ended (value : Value)
  | failed (error : DebugError)
  | locals (locals : List (String × Value))
  | last (value : Option Value)
  | finished (finished : Bool)

/-- A call and its answer, with the world as it was then. -/
structure Exchange where
  request : Request
  reply : Reply
  world : World

/-- What the script sends. -/
inductive Signal where
  | paused
  | finished (result : Except RuntimeError Value)

/-- What is sent in either direction. -/
inductive Message where
  | resume (command : Resume)
  | signal (signal : Signal)

/-! ### the two parties -/

/-- What the session is doing. -/
inductive Client where
  /-- Between two calls. -/
  | idle
  | sending (command : Resume)
  | receiving
  /-- Waiting for the script to be gone. -/
  | joining
  /-- Closed, with the context of the script if it was handed back. -/
  | closed (context : Option World)

/-- What the script is doing, with the commands that it was given. -/
inductive Runner where
  | waiting (received : List Resume)
  | running (received : List Resume)
  | sending (received : List Resume) (signal : Signal)
  | gone (context : Option World)

/-- The script once it has done something: it has a signal to send. A script that broke off is gone
and sends nothing. -/
def Runner.after (received : List Resume) : Act → Runner
  | .pause _ _ => .sending received .paused
  | .finish (.ok v) _ _ => .sending received (.finished (.ok v))
  | .finish (.error e) _ _ => .sending received (.finished (.error e))
  | .finish .aborted _ _ => .gone none
  | .finish .exhausted _ _ => .running received

/-- The script once a signal was received: after its last one it is gone. -/
def Signal.sent (received : List Resume) (w : World) : Signal → Runner
  | paused => .waiting received
  | finished _ => .gone (some w)

/-- Both parties, what they share, and what has passed between them. -/
structure State where
  /-- The calls without an answer. -/
  calls : List Request
  client : Client := .idle
  finished : Bool := false
  runner : Runner := .waiting []
  view : DebugView := {}
  world : World
  /-- Newest first. -/
  transcript : List Exchange := []
  /-- Newest first. -/
  messages : List Message := []

namespace State

/-- Answers the call `request`, after which `rest` remain. -/
def answer (s : State) (request : Request) (rest : List Request) (reply : Reply) : State :=
  { s with
    client := .idle
    calls := rest
    transcript := ⟨request, reply, s.world⟩ :: s.transcript }

/-- What an idle session does: it takes its next call, or is closed. -/
def call (s : State) : State :=
  match s.calls with
  | [] => if s.finished then { s with client := .joining } else { s with client := .sending .quit }
  | .forward :: rest =>
    if s.finished then s.answer .forward rest (.failed .programFinished)
    else { s with client := .sending .step }
  | .quit :: rest =>
    if s.finished then s.answer .quit rest (.failed .programExit)
    else { s with client := .sending .quit }
  | .backward :: rest => s.answer .backward rest (.failed .backwardUnsupported)
  | .locals :: rest => s.answer .locals rest (.locals (s.view.locals s.world))
  | .last :: rest => s.answer .last rest (.last s.view.last)
  | .finished :: rest => s.answer .finished rest (.finished s.finished)

/-- What a session does with the signal it has waited for; `none` if the script is gone. Only a step
forward goes on after a pause. -/
def conclude (s : State) (signal : Option Signal) : State :=
  match s.calls, signal with
  | .forward :: rest, some .paused => s.answer .forward rest (.paused s.view.node s.view.last)
  | .forward :: rest, some (.finished (.ok v)) =>
    { s with finished := true }.answer .forward rest (.ended v)
  | .forward :: rest, some (.finished (.error e)) =>
    { s with finished := true }.answer .forward rest (.failed (.failed e))
  | .forward :: rest, none =>
    { s with finished := true }.answer .forward rest (.failed .programFinished)
  | .quit :: rest, _ => { s with finished := true }.answer .quit rest (.failed .programExit)
  | _, _ => { s with finished := true, client := .joining }

/-- The script takes a command. -/
def resumed (s : State) (received : List Resume) (command : Resume) : State :=
  { s with
    client := .receiving
    runner := .running (received ++ [command])
    messages := .resume command :: s.messages }

/-- What the script has done can be looked at. -/
def acted (s : State) (received : List Resume) (a : Act) : State :=
  { s with runner := .after received a, view := a.view, world := a.world }

/-- The session takes a signal of the script. -/
def signalled (s : State) (received : List Resume) (signal : Signal) : State :=
  { s with
    runner := signal.sent received s.world
    messages := .signal signal :: s.messages }.conclude (some signal)

end State

/-- What the parties can do next. The script starts in the world `w`. -/
inductive Step (p : Program) (w : World) : State → State → Prop
  | call {s : State} (idle : s.client = .idle) : Step p w s s.call
  | resume {s : State} {command : Resume} {received : List Resume}
    (sends : s.client = .sending command) (waits : s.runner = .waiting received) :
    Step p w s (s.resumed received command)
  | act {s : State} {received : List Resume} {a : Act} (runs : s.runner = .running received)
    (acts : p.Acts w received a) : Step p w s (s.acted received a)
  | signal {s : State} {received : List Resume} {signal : Signal} (receives : s.client = .receiving)
    (sends : s.runner = .sending received signal) : Step p w s (s.signalled received signal)
  /-- A session that waits for a script that is gone is told so. -/
  | hangUp {s : State} {context : Option World}
    (waits : s.client = .receiving ∨ ∃ command, s.client = .sending command)
    (gone : s.runner = .gone context) : Step p w s (s.conclude none)
  | join {s : State} {context : Option World} (joins : s.client = .joining)
    (gone : s.runner = .gone context) : Step p w s { s with client := .closed context }

/-- The states of a session with some calls, however the parties take turns. -/
def Reachable (p : Program) (w : World) (calls : List Request) : State → Prop :=
  Relation.ReflTransGen (Step p w) { calls, world := w }

/-! ### what a session should answer -/

/-- How far a session has come, as its answers tell: whether the script is still stepped through,
after how many pauses, and the last value. -/
inductive Stage where
  | stepping (pauses : Nat) (last : Option Value)
  | ended (last : Option Value)

namespace Stage

/-- Whether the script has ended. -/
def hasEnded : Stage → Bool
  | stepping _ _ => false
  | ended _ => true

/-- The last value. -/
def value : Stage → Option Value
  | stepping _ v => v
  | ended v => v

end Stage

/-- What a session should answer at a stage, and the stage after it. -/
inductive Exchange.Fits (p : Program) (w : World) : Stage → Exchange → Stage → Prop
  /-- Each step forward reports the next event of the guarded trace. -/
  | pause {n : Nat} {last value : Option Value} {node : String} {world : World}
    (tells : p.Tells w n ⟨node, value.map world.heap.text⟩) :
    Fits p w (.stepping n last) ⟨.forward, .paused node value, world⟩ (.stepping (n + 1) value)
  /-- The one after the last event reports how the script ends without a debugger. -/
  | ended {n : Nat} {last : Option Value} {value : Value} {world : World}
    (ends : p.EndsAfter w n (.ok value) world) :
    Fits p w (.stepping n last) ⟨.forward, .ended value, world⟩ (.ended (some value))
  | failed {n : Nat} {last last' : Option Value} {e : RuntimeError} {world : World}
    (ends : p.EndsAfter w n (.error e) world) :
    Fits p w (.stepping n last) ⟨.forward, .failed (.failed e), world⟩ (.ended last')
  | brokenOff {n : Nat} {last last' : Option Value} {world : World}
    (ends : p.EndsAfter w n .aborted world) :
    Fits p w (.stepping n last) ⟨.forward, .failed .programFinished, world⟩ (.ended last')
  | forward {last : Option Value} {world : World} :
    Fits p w (.ended last) ⟨.forward, .failed .programFinished, world⟩ (.ended last)
  | backward {stage : Stage} {world : World} :
    Fits p w stage ⟨.backward, .failed .backwardUnsupported, world⟩ stage
  | locals {stage : Stage} {locals : List (String × Value)} {world : World} :
    Fits p w stage ⟨.locals, .locals locals, world⟩ stage
  | last {stage : Stage} {world : World} : Fits p w stage ⟨.last, .last stage.value, world⟩ stage
  | finished {stage : Stage} {world : World} :
    Fits p w stage ⟨.finished, .finished stage.hasEnded, world⟩ stage
  | quit {n : Nat} {last last' : Option Value} {world : World} :
    Fits p w (.stepping n last) ⟨.quit, .failed .programExit, world⟩ (.ended last')
  | quitAgain {last : Option Value} {world : World} :
    Fits p w (.ended last) ⟨.quit, .failed .programExit, world⟩ (.ended last)

/-- The answers of a session, newest first, are what they should be. -/
inductive Transcribes (p : Program) (w : World) : List Exchange → Stage → Prop
  | nil : Transcribes p w [] (.stepping 0 none)
  | cons {e : Exchange} {es : List Exchange} {stage stage' : Stage}
    (earlier : Transcribes p w es stage) (fits : e.Fits p w stage stage') :
    Transcribes p w (e :: es) stage'

/-- In some messages, newest first, each command was answered by one signal. -/
inductive Answered : List Message → Prop
  | nil : Answered []
  | cons {command : Resume} {signal : Signal} {messages : List Message}
    (earlier : Answered messages) : Answered (.signal signal :: .resume command :: messages)

end Roteiro.Debugging
