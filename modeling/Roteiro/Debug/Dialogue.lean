import Roteiro.Debug.Stepping

/-!
Dialogues with a script that is stepped through: a list of calls, each with its answer. Calls that
only look are answered at the pause where they stand; calls that go on are answered at the next
pause or by the end of the script. When the calls run out, the script is stopped.
-/

namespace Roteiro

/-- What is asked of a debugging session. -/
inductive Call where
  /-- So many steps, or as many as lead to the end. -/
  | advance (times : Option Nat)
  | back
  | locals
  | last
  | finished
  | quit
  deriving Repr, DecidableEq

/-- What a session answers. -/
inductive Answer where
  /-- One outcome for each step. -/
  | steps (outcomes : List (Except DebugError String))
  | failed (error : DebugError)
  | locals (locals : List (String × String))
  | last (value : Option Shown)
  | finished (finished : Bool)

/-- Steps that are being made: how many remain after the present one, and the outcomes so far,
newest first. -/
structure Advance where
  left : Option Nat
  outcomes : List (Except DebugError String) := []

/-- A dialogue: the calls to come, the answers given, newest first, and the steps being made. -/
structure Dialogue where
  calls : List Call
  answers : List Answer := []
  advance : Option Advance := none

namespace Call

/-- The answer of a paused session to a call that only looks, and of a finished session to any
call. -/
def answer (finished : Bool) (v : DebugView) (w : World) : Call → Answer
  | advance (some n) => .steps (List.replicate n (.error .programFinished))
  | advance none => .steps [.error .programFinished]
  | back => .failed .backwardUnsupported
  | locals => .locals ((v.locals w).map fun l => (l.1, w.heap.text l.2))
  | last => .last (v.last.map w.heap.shown)
  | Call.finished => .finished finished
  | quit => .failed .programExit

end Call

namespace Dialogue

/-- Answers calls up to one that resumes the script. -/
def serve (v : DebugView) (w : World) (answers : List Answer) : List Call → Resume × Dialogue
  | [] => (.quit, { calls := [], answers })
  | .advance (some 0) :: rest => serve v w (.steps [] :: answers) rest
  | .advance (some (n + 1)) :: rest =>
    (.step, { calls := rest, answers, advance := some { left := some n } })
  | .advance none :: rest => (.step, { calls := rest, answers, advance := some { left := none } })
  | .quit :: rest => (.quit, { calls := rest, answers := .failed .programExit :: answers })
  | call :: rest => serve v w (call.answer false v w :: answers) rest

/-- What the dialogue does at a pause: it takes note of the step that led there, and goes on if more
steps remain. -/
def resume (v : DebugView) (w : World) (d : Dialogue) : Resume × World × Dialogue :=
  let next (answers : List Answer) : Resume × World × Dialogue :=
    let (resume, d) := serve v w answers d.calls
    (resume, w, d)
  match d.advance with
  | none => next d.answers
  | some a =>
    let outcomes := .ok (v.pauseText w.heap) :: a.outcomes
    match a.left with
    | some 0 => next (.steps outcomes.reverse :: d.answers)
    | some (n + 1) => (.step, w, { d with advance := some ⟨some n, outcomes⟩ })
    | none => (.step, w, { d with advance := some ⟨none, outcomes⟩ })

/-- The controller that follows a dialogue. -/
def controller : Controller Dialogue where
  resume := resume

/-- The outcome of the step that met the end of the script. -/
def lastOutcome (h : Heap) : Outcome Value → Except DebugError String
  | .ok v => .ok (finishText h v)
  | .error e => .error (.failed e)
  | .exhausted | .aborted => .error .programFinished

/-- The answers to all calls, once the script has ended. -/
def conclude (r : Debugged Dialogue) : List Answer :=
  let answers :=
    match r.driver.advance with
    | none => r.driver.answers
    | some a =>
      let final := lastOutcome r.world.heap r.outcome
      let idle : List (Except DebugError String) :=
        List.replicate (a.left.getD 0) (.error .programFinished)
      .steps (a.outcomes.reverse ++ final :: idle) :: r.driver.answers
  answers.reverse ++ r.driver.calls.map (·.answer true r.view r.world)

end Dialogue

/-- The answers to some calls about a script, and the world that it hands back. -/
def Program.converse (p : Program) (calls : List Call) (fuel : Nat) (w : World) :
    List Answer × Option World :=
  let r := p.debug Dialogue.controller { calls } fuel w
  (Dialogue.conclude r, r.outcome.handsBack r.world)

end Roteiro
