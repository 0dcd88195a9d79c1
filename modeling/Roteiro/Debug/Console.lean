import Roteiro.Debug.Stepping
import Roteiro.Text.Blank

/-!
The console of the debugger: it reads commands, one on each line, and tells what they did. The
commands either have a desk of their own or share the terminal with the script.
-/

namespace Roteiro

open Text

/-- A command. -/
inductive Command where
  | step
  | back
  | locals
  | quit
  deriving Repr, DecidableEq

/-- The command on a line; blanks around it and the case of its letters do not matter. -/
def Command.ofLine? (line : String) : Option Command :=
  match String.ofList ((trimBlanks line.toList).map Char.toLower) with
  | "s" | "step" | "f1" => some .step
  | "b" | "back" | "f2" => some .back
  | "l" | "locals" | "f3" => some .locals
  | "q" | "quit" => some .quit
  | _ => none

/-- Where commands come from and where their answers go. -/
inductive Desk where
  /-- The terminal of the script. -/
  | shared
  /-- Lines of its own, which may be followed by one that is no text, and the answers, newest
  first. -/
  | separate (lines : List String) (undecodable : Bool) (answers : List String)

/-- What is found where a command is expected. -/
inductive CommandLine where
  | line (text : String)
  | undecodable
  | missing
  deriving Repr, DecidableEq

namespace Desk

/-- Reads a line. -/
def read : Desk → World → CommandLine × Desk × World
  | shared, w =>
    match w.terminal.takeLine with
    | (some line, terminal) => (.line line, shared, { w with terminal })
    | (none, terminal) => (.missing, shared, { w with terminal })
  | separate (line :: rest) undecodable answers, w =>
    (.line line, separate rest undecodable answers, w)
  | separate [] true answers, w => (.undecodable, separate [] false answers, w)
  | separate [] false answers, w => (.missing, separate [] false answers, w)

/-- Writes a text. -/
def write (text : String) : Desk → World → Desk × World
  | shared, w => (shared, { w with terminal := w.terminal.put text })
  | separate lines undecodable answers, w => (separate lines undecodable (text :: answers), w)

/-- The number of lines left. -/
def linesLeft : Desk → World → Nat
  | shared, w => w.terminal.input.length
  | separate lines _ _, _ => lines.length

end Desk

/-- A console: its desk, whether the script is making a step, and why the console stopped. -/
structure Console where
  desk : Desk
  stepping : Bool := false
  stopped : Option DebugError := none

namespace Console

/-- What is shown before each command. -/
def prompt : String := "(pardal) "

/-- What is shown at the start and after an unknown command. -/
def help : String := "commands: s/step, b/back, l/locals, q/quit\n"

/-- What is shown for a step backwards. -/
def backText : String :=
  let e := DebugError.backwardUnsupported
  "[" ++ e.code ++ "] " ++ e.message ++ "\n"

/-- What is shown for the locals. -/
def localsText (v : DebugView) (w : World) : String :=
  match v.locals w with
  | [] => "No locals defined.\n"
  | locals => String.join (locals.map fun l => l.1 ++ " = " ++ w.heap.text l.2 ++ "\n")

/-- Stops the script. -/
def stop (desk : Desk) (w : World) (e : DebugError) : Resume × World × Console :=
  (.quit, w, { desk, stopped := some e })

/-- Serves commands up to one that resumes the script. Each takes a line, so `fuel` need only exceed
the number of lines left. -/
def serve (v : DebugView) : Nat → Desk → World → Resume × World × Console
  | 0, desk, w => stop desk w .programExit
  | fuel + 1, desk, w =>
    let (desk, w) := desk.write prompt w
    match desk.read w with
    | (.missing, desk, w) => stop desk w .programExit
    | (.undecodable, desk, w) => stop desk w (.console "stream did not contain valid UTF-8")
    | (.line text, desk, w) =>
      match Command.ofLine? text with
      | some .step => (.step, w, { desk, stepping := true })
      | some .quit => stop desk w .programExit
      | some .back =>
        let (desk, w) := desk.write backText w
        serve v fuel desk w
      | some .locals =>
        let (desk, w) := desk.write (localsText v w) w
        serve v fuel desk w
      | none =>
        let (desk, w) := desk.write help w
        serve v fuel desk w

/-- What the console does at a pause: it tells what the step did, or at the start what commands
there are, and serves commands. -/
def resume (v : DebugView) (w : World) (console : Console) : Resume × World × Console :=
  let text := if console.stepping then v.pauseText w.heap ++ "\n" else help
  let (desk, w) := console.desk.write text w
  serve v (desk.linesLeft w + 1) desk w

/-- The controller that follows a console. -/
def controller : Controller Console where
  resume := resume

end Console

/-- The end of a script that was run from a console. -/
structure ConsoleRun where
  result : Except DebugError Value
  /-- Whether the script had ended, or was stopped, when the console closed. -/
  finished : Bool
  desk : Desk
  world : World
  /-- The world that the script hands back. -/
  handedBack : Option World := some world

/-- Runs a script from a console. -/
def Program.runConsole (p : Program) (desk : Desk) (fuel : Nat) (w : World) : ConsoleRun :=
  let r := p.debug Console.controller { desk } fuel w
  let desk := r.driver.desk
  match r.driver.stopped, r.outcome with
  | some (.console reason), _ =>
    { result := .error (.console reason), finished := false, desk, world := r.world }
  | some e, _ => { result := .error e, finished := true, desk, world := r.world }
  | none, .ok v =>
    let (desk, world) := desk.write (finishText r.world.heap v ++ "\n") r.world
    { result := .ok v, finished := true, desk, world }
  | none, .error e => { result := .error (.failed e), finished := true, desk, world := r.world }
  | none, outcome =>
    { result := .error .programFinished, finished := true, desk, world := r.world
      handedBack := outcome.handsBack r.world }

end Roteiro
