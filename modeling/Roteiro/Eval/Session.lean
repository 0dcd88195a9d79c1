import Roteiro.Eval.Evaluate

/-!
Sessions: a script being run against a root context, at once or one statement at a time.
-/

namespace Roteiro

open Eval

/-- Fuel for programs whose length of run is not known beforehand. -/
def ampleFuel : Nat := 1 <<< 60

/-- The value of the last of some statements, run one after the other; `last` stands for the value
before them. -/
def runStatements {σ : Type} (execute : Statement → Eval σ Value) :
    Value → List Statement → Eval σ Value
  | last, [] => Eval.pure last
  | _, s :: ss => do
    let v ← execute s
    runStatements execute v ss

/-- A script, its root context, and the number of statements that were started. -/
structure Session where
  program : Program
  context : ContextId
  cursor : Nat := 0

namespace Session

variable {σ : Type}

/-- The statements that were not started. -/
def remaining (s : Session) : List Statement :=
  s.program.statements.drop s.cursor

/-- The session after all statements were started. -/
def exhaust (s : Session) : Session :=
  { s with cursor := s.program.statements.length }

/-- The value of running all remaining statements. -/
def rest (o : Observer σ) (fuel : Nat) (s : Session) : Eval σ Value :=
  o.capture (.program s.program) s.context
    (runStatements (fun st => execute o fuel st s.context) .null s.remaining)

/-- Runs all remaining statements. An error does not give back the statements after it. -/
def run (o : Observer σ) (fuel : Nat) (s : Session) (m : Machine σ) :
    Outcome Value × Session × Machine σ :=
  let (outcome, m) := s.rest o fuel m
  (outcome, s.exhaust, m)

/-- Runs the next statement, if there is one. -/
def step (o : Observer σ) (fuel : Nat) (s : Session) (m : Machine σ) :
    Option (Outcome Value) × Session × Machine σ :=
  match s.remaining with
  | [] => (none, s, m)
  | st :: _ =>
    let (outcome, m) := execute o fuel st s.context m
    (some outcome, { s with cursor := s.cursor + 1 }, m)

/-- Evaluates an expression in the root context. -/
def evaluate (o : Observer σ) (fuel : Nat) (s : Session) (e : Expression) : Eval σ Value :=
  Roteiro.evaluate o fuel e s.context

end Session

/-- Runs a script under an observer, in a new context with the library. -/
def Program.runWith {σ : Type} (p : Program) (o : Observer σ) (watch : σ) (fuel : Nat)
    (w : World) : Outcome Value × Machine σ :=
  let (context, world) := w.newGlobal
  Session.rest o fuel { program := p, context } { world, watch }

/-- Runs a script in a new context with the library. -/
def Program.run (p : Program) (fuel : Nat) (w : World) : Outcome Value × World :=
  let (outcome, m) := p.runWith .none () fuel w
  (outcome, m.world)

end Roteiro
