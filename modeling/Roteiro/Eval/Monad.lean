import Roteiro.World.Basic

/-!
Evaluations. An evaluation runs in a machine, which is a world together with the state of whoever
watches, and ends with a value or an error; whichever it is, the machine as it was then is kept.
Evaluations that may go on for ever are given fuel, and running out of it is a third way to end.
The fourth is to break off, at a call that cannot be carried out or at a scope for which no level is
left.
-/

namespace Roteiro

/-- How an evaluation ends. -/
inductive Outcome (α : Type) where
  | ok (value : α)
  | error (error : RuntimeError)
  /-- Out of fuel. -/
  | exhausted
  /-- Broken off: what was opened stays open, and whoever watches is told nothing more. -/
  | aborted

/-- The world that is handed back at the end of an evaluation in it: none if it broke off. -/
def Outcome.handsBack {α : Type} (w : World) : Outcome α → Option World
  | aborted => none
  | _ => some w

/-- A world, and the state of whoever watches. -/
structure Machine (σ : Type) where
  world : World
  watch : σ

/-- An evaluation. -/
def Eval (σ α : Type) : Type :=
  Machine σ → Outcome α × Machine σ

namespace Eval

variable {σ α β : Type}

/-- The evaluation that does nothing. -/
@[inline] protected def pure (a : α) : Eval σ α :=
  fun m => (.ok a, m)

/-- One evaluation after another; an error ends both. -/
@[inline] protected def bind (x : Eval σ α) (f : α → Eval σ β) : Eval σ β :=
  fun m =>
    match x m with
    | (.ok a, m) => f a m
    | (.error e, m) => (.error e, m)
    | (.exhausted, m) => (.exhausted, m)
    | (.aborted, m) => (.aborted, m)

instance : Monad (Eval σ) where
  pure := Eval.pure
  bind := Eval.bind

/-- Out of fuel. -/
def exhausted : Eval σ α :=
  fun m => (.exhausted, m)

/-- Breaks off. -/
def aborted : Eval σ α :=
  fun m => (.aborted, m)

/-- Ends with an error. -/
def raise (fault : RuntimeFault) (span : Span) : Eval σ α :=
  fun m => (.error ⟨fault, span⟩, m)

/-- Looks at the world. -/
@[inline] def ask (f : World → α) : Eval σ α :=
  fun m => (.ok (f m.world), m)

/-- Changes the world. -/
@[inline] def change (f : World → World) : Eval σ Unit :=
  fun m => (.ok (), { m with world := f m.world })

/-- Makes something in the world. -/
@[inline] def make (f : World → α × World) : Eval σ α :=
  fun m =>
    let (a, world) := f m.world
    (.ok a, { m with world })

/-- A result, whose fault stands at a span. -/
def require (span : Span) : Except RuntimeFault α → Eval σ α
  | .ok a => Eval.pure a
  | .error fault => raise fault span

/-- Does something in the world; a fault stands at a span. -/
def perform (span : Span) (effect : Effect α) : Eval σ α :=
  fun m =>
    match effect m.world with
    | (.ok a, world) => (.ok a, { m with world })
    | (.error fault, world) => (.error ⟨fault, span⟩, { m with world })

/-- Runs `body` and then closes what was opened for it, unless `body` broke off. The result is that
of closing if `body` ended with a value. -/
def closing (span : Span) (body : Eval σ α) (close : Effect β) : Eval σ β :=
  fun m =>
    match body m with
    | (.ok _, m) => perform span close m
    | (.error e, m) => (.error e, { m with world := (close m.world).2 })
    | (.exhausted, m) => (.exhausted, { m with world := (close m.world).2 })
    | (.aborted, m) => (.aborted, m)

end Eval

end Roteiro
