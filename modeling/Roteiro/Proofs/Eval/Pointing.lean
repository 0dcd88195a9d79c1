import Roteiro.Proofs.Eval.Balance
import Roteiro.Proofs.World.Functions

/-!
Errors of a running script point into it. Whoever raises an error knows the node for which it is at
work and leaves the error there. A call runs the statements of a routine that was read from the
world, so the routines of all functions there have to stand in the script; they do, since functions
are made from nodes of the script only (`Eval.Points`). All that evaluations are put together from
keeps to this, and so does the evaluator with any amount of fuel (`Observer.Silent.pointing`).
-/

namespace Roteiro

open Eval

variable {σ α β : Type} {program : Program}

/-! ### the nodes of a script -/

/-- A closure whose routine stands in a script. -/
def Closure.From (program : Program) (f : Closure) : Prop :=
  program.Has (.routine f.routine)

/-- The span of a statement, an expression, an assignment or a name of a script. -/
def Program.Marks (program : Program) : Span → Prop :=
  Part.Marks program.Has

/-! ### evaluations for a script -/

/-- An outcome with a good value, or with an error at a node of the script. -/
def Outcome.Within (program : Program) (good : α → Prop) : Outcome α → Prop
  | .ok a => good a
  | .error e => program.Marks e.span
  | .exhausted | .aborted => True

/-- An evaluation whose errors stand at nodes of the script, and that makes no functions but those of
the script, in every world that has no others. -/
def Eval.Points (program : Program) (good : α → Prop) (x : Eval σ α) : Prop :=
  ∀ m, m.world.Admits (Closure.From program) →
    (x m).1.Within program good ∧ (x m).2.world.Admits (Closure.From program)

/-- A value that is no function, or a function of the script. -/
def Value.From (program : Program) : Value → Prop :=
  Value.Of program.Has

namespace Eval.Points

variable {good : α → Prop} {good' : β → Prop} {span : Span}

theorem pure {a : α} (h : good a) : Points program good (Pure.pure a : Eval σ α) :=
  fun _ admits => ⟨h, admits⟩

theorem exhausted : Points program good (Eval.exhausted : Eval σ α) :=
  fun _ admits => ⟨trivial, admits⟩

theorem aborted : Points program good (Eval.aborted : Eval σ α) :=
  fun _ admits => ⟨trivial, admits⟩

theorem raise (fault : RuntimeFault) (h : program.Marks span) :
    Points program good (Eval.raise fault span : Eval σ α) :=
  fun _ admits => ⟨h, admits⟩

theorem bind {x : Eval σ α} {f : α → Eval σ β} (hx : Points program good x)
    (hf : ∀ a, good a → Points program good' (f a)) : Points program good' (x >>= f) := by
  intro m admits
  change (Eval.bind x f m).1.Within program good' ∧
    (Eval.bind x f m).2.world.Admits (Closure.From program)
  obtain ⟨within, after⟩ := hx m admits
  unfold Eval.bind
  rcases ran : x m with ⟨a | e | _ | _, m'⟩
  all_goals rw [ran] at within after
  · exact hf a within m' after
  · exact ⟨within, after⟩
  · exact ⟨trivial, after⟩
  · exact ⟨trivial, after⟩

theorem ask {f : World → α} (h : ∀ w : World, w.Admits (Closure.From program) → good (f w)) :
    Points program good (Eval.ask f : Eval σ α) :=
  fun m admits => ⟨h m.world admits, admits⟩

theorem asking (f : World → α) : Points program anything (Eval.ask f : Eval σ α) :=
  ask fun _ _ => trivial

theorem change {f : World → World} (h : ∀ w : World, w.Admits (Closure.From program) →
    (f w).Admits (Closure.From program)) :
    Points program anything (Eval.change f : Eval σ Unit) :=
  fun m admits => ⟨trivial, h m.world admits⟩

theorem make {f : World → α × World} (h : ∀ w : World, w.Admits (Closure.From program) →
    good (f w).1 ∧ (f w).2.Admits (Closure.From program)) :
    Points program good (Eval.make f : Eval σ α) :=
  fun m admits => h m.world admits

theorem perform (h : program.Marks span) {f : Effect α}
    (hf : ∀ w : World, w.Admits (Closure.From program) →
      (f w).2.Admits (Closure.From program) ∧ ∀ a, (f w).1 = .ok a → good a) :
    Points program good (Eval.perform span f : Eval σ α) := by
  intro m admits
  obtain ⟨after, value⟩ := hf m.world admits
  unfold Eval.perform
  rcases done : f m.world with ⟨fault | a, w⟩
  all_goals rw [done] at after value
  · exact ⟨h, after⟩
  · exact ⟨value a rfl, after⟩

/-- What was opened is closed however the body ends. -/
theorem closing (h : program.Marks span) {x : Eval σ α} (hx : Points program good x)
    {close : Effect β} (hc : ∀ w : World, w.Admits (Closure.From program) →
      (close w).2.Admits (Closure.From program) ∧ ∀ b, (close w).1 = .ok b → good' b) :
    Points program good' (Eval.closing span x close) := by
  intro m admits
  obtain ⟨within, after⟩ := hx m admits
  unfold Eval.closing
  rcases ran : x m with ⟨a | e | _ | _, m'⟩
  all_goals rw [ran] at within after
  · exact perform h hc m' after
  · exact ⟨within, (hc m'.world after).1⟩
  · exact ⟨trivial, (hc m'.world after).1⟩
  · exact ⟨trivial, after⟩

/-! #### what is done to a world -/

section Effects

variable (h : program.Marks span)

include h

theorem gives {good : Grade program.Has α} {f : Effect α} (hf : f.Gives program.Has good) :
    Points program good.holds (Eval.perform span f : Eval σ α) := by
  cases hf with
  | lookup c name => exact perform h fun _ admits => ⟨admits, fun _ => admits.obeys.lookup c name⟩
  | assign c name hv => exact perform h fun _ admits => ⟨admits.assign c name hv, fun _ _ => trivial⟩
  | property x k =>
    refine perform h fun w admits => ?_
    obtain ⟨after, value⟩ := admits.obeys.property x k
    exact ⟨admits.apart (World.apart_property x k) after, value⟩
  | setProperty x k hv =>
    exact perform h fun _ admits =>
      ⟨admits.apart (World.apart_setProperty x k _) (admits.obeys.setProperty x k hv),
        fun _ _ => trivial⟩
  | callBuiltin b hvs =>
    refine perform h fun w admits => ?_
    obtain ⟨after, value⟩ := admits.obeys.callBuiltin hvs b
    exact ⟨admits.apart (World.apart_callBuiltin b _) after, value⟩

theorem signals {c : ContextId} {f : Effect Unit} (hf : f.Signals program.Has c) :
    Points program anything (Eval.perform span f : Eval σ Unit) := by
  cases hf with
  | markBreak | markContinue =>
    exact perform h fun _ admits =>
      ⟨admits.onContext c fun _ marked => (admits.contexts c).signal marked, fun _ _ => trivial⟩
  | pushReturns hvs =>
    exact perform h fun _ admits =>
      ⟨admits.onContext c fun _ pushed => (admits.contexts c).pushReturns hvs pushed,
        fun _ _ => trivial⟩

theorem define (c : ContextId) (name : String) {v : Value} (hv : v.From program) :
    Points program anything (Eval.perform span (World.define c name v) : Eval σ Unit) :=
  perform h fun _ admits => ⟨admits.define c name hv, fun _ _ => trivial⟩

end Effects

theorem makes {f : World → Value × World} (hf : World.Makes program.Has f) :
    Points program (Value.From program) (Eval.make f : Eval σ Value) := by
  cases hf with
  | newArray held =>
    exact make fun _ admits => ⟨trivial, admits.apart (World.apart_newArray _)
      (admits.obeys.newArray held)⟩
  | newDictionary held =>
    exact make fun _ admits => ⟨trivial, admits.apart (World.apart_newDictionary _)
      (admits.obeys.newDictionary held)⟩
  | newFunction c held =>
    exact make fun _ admits => ⟨held, admits.apart (World.apart_newFunction _)
      ⟨admits.obeys.contexts, admits.heap⟩⟩

/-! #### scopes, rounds and calls -/

theorem openScope (c : ContextId) : Points program anything (Eval.openScope c : Eval σ Unit) := by
  refine bind (asking _) fun full _ => ?_
  cases full with
  | true => exact aborted
  | false => exact change fun _ admits => admits.enterScope c

theorem inScope (h : program.Marks span) (c : ContextId) {x : Eval σ α}
    (hx : Points program good x) : Points program anything (Eval.inScope c span x) :=
  bind (openScope c) fun _ _ =>
    closing h hx fun _ admits => ⟨admits.leaveScope c, fun _ _ => trivial⟩

theorem inRound (h : program.Marks span) (c : ContextId) {x : Eval σ α}
    (hx : Points program good x) : Points program anything (Eval.inRound c span x) :=
  bind (openScope c) fun _ _ => bind (change fun _ admits => admits.pushLoop c) fun _ _ =>
    closing h hx fun _ admits => ⟨(admits.popLoop c).leaveScope c, fun _ _ => trivial⟩

/-- A call gives back what was returned in it. -/
theorem inCall (h : program.Marks span) (parent : ContextId) {x : ContextId → Eval σ α}
    (hx : ∀ c, Points program good (x c)) :
    Points program (fun returned => ∀ v ∈ returned, v.From program)
      (Eval.inCall parent span x) := by
  have child : Points program anything (Eval.make (World.newChild parent) : Eval σ ContextId) :=
    make fun _ admits => ⟨trivial, admits.newChild parent⟩
  exact bind child fun c _ => bind (change fun _ admits => admits.pushCall c) fun _ _ =>
    closing h (hx c) fun _ admits => admits.popCall c

/-! #### observers -/

variable {o : Observer σ} {x : Eval σ Value}

/-- The faults of an observer that writes nothing stand at the node it is shown. -/
theorem capture (silent : o.Silent) (node : Node) (h : program.Marks node.span) (c : ContextId)
    (hx : Points program (Value.From program) x) :
    Points program (Value.From program) (o.capture node c x) := by
  intro m admits
  have entered := silent.enter node c m
  unfold Observer.capture
  rcases ho : o.enter node c m with ⟨fault | taken, m'⟩
  all_goals
    rw [ho] at entered
    rw [← entered] at admits
  · exact ⟨h, admits⟩
  · refine bind (hx : Points program (Value.From program) x) (fun value hv => ?_) m' admits
    cases taken with
    | false => exact pure hv
    | true =>
      intro m admits
      have left := silent.leave value c m
      show (o.leaving node.span c value m).1.Within program (Value.From program) ∧
        (o.leaving node.span c value m).2.world.Admits (Closure.From program)
      unfold Observer.leaving
      rcases hl : o.leave value c m with ⟨fault | _, m'⟩
      all_goals
        rw [hl] at left
        rw [← left] at admits
      · exact ⟨h, admits⟩
      · exact ⟨hv, admits⟩

end Eval.Points

/-! ### the evaluator -/

namespace Observer.Silent

variable {o : Observer σ} (silent : o.Silent)

include silent

theorem locating : Eval.Invariant program.Has o
    (fun _ _ {_} good x _ => Points program good.holds x)
    fun _ _ x _ => Points program (Value.From program) x where
  exhausted := .exhausted
  aborted := .aborted
  raise _ mark := .raise _ mark
  pure held := .pure held
  bind hx hf := hx.bind hf
  ask f := .asking f
  -- What an iteration yields was in the world.
  advance _ := .ask fun _ admits _ yielded =>
    admits.heap.advance (Prod.ext (Option.mem_def.1 yielded) rfl)
  iterate _ mark := .perform mark fun _ admits => ⟨admits, fun _ _ => trivial⟩
  gives h mark := .gives mark h
  makes h := .makes h
  signals h mark := .signals mark h
  define name _ held mark := .define mark _ name held
  direct hx := hx
  inside hx := hx
  known hx := hx
  inScope mark hx := .inScope mark _ hx
  capture held hx := .capture silent (.expression _) (.expression held) _ hx
  finish _ hx := hx
  declare _ mark hx := hx.bind fun _ held => (Points.define mark _ _ held).bind fun _ _ => .pure held
  shown held hx := .capture silent (.statement _) (.statement held) _ hx

theorem locatingOpenly : Eval.OpenInvariant program.Has o
    (fun _ _ {_} good x _ => Points program good.holds x)
    fun _ _ x _ => Points program (Value.From program) x :=
  silent.locating.openly id (fun mark hx => .inRound mark _ hx) fun parent mark hx =>
    .inCall mark parent hx

/-- **Errors point into the script**, with any amount of fuel, under an observer that writes
nothing. -/
theorem pointing (fuel : Nat) :
    Upheld program.Has .raising o (fun _ _ {_} good x _ => Points program good.holds x) fuel :=
  silent.locatingOpenly.upheld (fun _ held _ => held.component) .raising fuel

end Observer.Silent

end Roteiro
