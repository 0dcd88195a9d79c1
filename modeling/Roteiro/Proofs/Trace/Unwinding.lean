import Roteiro.Proofs.Scope.Layers
import Roteiro.Proofs.Trace.Chronicle

/-!
Stopping is clean. An evaluation that its observer stops at a moment closes what was opened and does
nothing else: the scopes, rounds and calls around the node are closed one after the other, which
drops locals and nothing besides (`World.Unwinds`). No step of a loop, no statement and no built-in
function comes after the moment (`Program.stopped_halts`).
-/

namespace Roteiro

open Eval

variable {α β : Type}

/-! ### unwinding -/

/-- What closing leaves of a world: all of it, but for the newest locals of its contexts. -/
structure World.Unwinds (w w' : World) : Prop where
  terminal : w'.terminal = w.terminal
  heap : w'.heap = w.heap
  identities : w'.identities = w.identities
  dice : w'.dice = w.dice
  seed : w'.seed = w.seed
  size : w'.contexts.size = w.contexts.size
  /-- Newest first: the locals that are left have the values they had. -/
  locals : ∀ i, (w'.context i).locals <:+ (w.context i).locals
  parent : ∀ i, (w'.context i).parent = (w.context i).parent

namespace World.Unwinds

theorem refl (w : World) : Unwinds w w :=
  ⟨rfl, rfl, rfl, rfl, rfl, rfl, fun _ => List.suffix_rfl, fun _ => rfl⟩

theorem trans {u v w : World} (h : Unwinds u v) (k : Unwinds v w) : Unwinds u w where
  terminal := k.terminal.trans h.terminal
  heap := k.heap.trans h.heap
  identities := k.identities.trans h.identities
  dice := k.dice.trans h.dice
  seed := k.seed.trans h.seed
  size := k.size.trans h.size
  locals i := (k.locals i).trans (h.locals i)
  parent i := (k.parent i).trans (h.parent i)

/-- One context was changed, and lost nothing but locals. -/
theorem set (w : World) (i : ContextId) {c : Context} (locals : c.locals <:+ (w.context i).locals)
    (parent : c.parent = (w.context i).parent) :
    Unwinds w { w with contexts := w.contexts.setIfInBounds i c } := by
  have kept : ∀ j, (Contexts.context (w.contexts.setIfInBounds i c) j).locals <:+
        (w.context j).locals ∧
      (Contexts.context (w.contexts.setIfInBounds i c) j).parent = (w.context j).parent :=
    Contexts.related_set (R := fun a b => b.locals <:+ a.locals ∧ b.parent = a.parent)
      (fun _ => ⟨List.suffix_rfl, rfl⟩) ⟨locals, parent⟩
  exact ⟨rfl, rfl, rfl, rfl, rfl, Array.size_setIfInBounds, fun j => (kept j).1, fun j => (kept j).2⟩

theorem leaveScope (w : World) (i : ContextId) : Unwinds w (w.leaveScope i) := by
  have same : w.leaveScope i =
      { w with contexts := w.contexts.setIfInBounds i (w.context i).leave } := by
    unfold World.leaveScope World.update
    rw [Contexts.update_eq_set]
    rfl
  rw [same]
  refine set w i ?_ rfl
  unfold Context.leave
  dsimp only
  split
  · exact List.dropWhile_suffix _
  · exact List.suffix_rfl

theorem popLoop (w : World) (i : ContextId) : Unwinds w (World.popLoop i w).2 := by
  unfold World.popLoop Context.popLoop
  cases (w.context i).loops with
  | nil => exact refl w
  | cons frame rest => exact set w i List.suffix_rfl rfl

theorem popCall (w : World) (i : ContextId) : Unwinds w (World.popCall i w).2 := by
  unfold World.popCall Context.popCall
  cases (w.context i).calls with
  | nil => exact refl w
  | cons returned rest => exact set w i List.suffix_rfl rfl

/-- To close what was opened unwinds. -/
theorem closing {f : Effect α} (h : f.Closing) (w : World) : Unwinds w (f w).2 := by
  cases h with
  | scope c => exact leaveScope w c
  | round c => exact (popLoop w c).trans (leaveScope _ c)
  | call c => exact popCall w c

end World.Unwinds

/-! ### stopped evaluations -/

namespace Chronicle

/-- Whether there are moments to come before the evaluation is stopped. -/
def Running (t : Chronicle) : Prop :=
  ∀ k, t.stopAt = some k → t.moments.length < k

/-- The evaluation was stopped at the last moment, at its node, and has left the world `w`. -/
def Halts (t : Chronicle) (e : RuntimeError) (w : World) : Prop :=
  ∃ before moment node, t.moments = before ++ [moment] ∧
    moment.node? (Moment.opened before) = some node ∧ e = ⟨.halted, node.span⟩ ∧
    moment.world.Unwinds w

/-- How an evaluation ends that was begun with some open nodes. -/
inductive Leaves (opened : List Node) : Outcome α × Machine Chronicle → Prop
  | value (a : α) (m : Machine Chronicle) (running : m.watch.Running)
    (closed : m.watch.opened = opened) : Leaves opened (.ok a, m)
  /-- It ended for a reason of its own. -/
  | short (o : Outcome α) (m : Machine Chronicle) (running : m.watch.Running)
    (no_value : ∀ a, o ≠ .ok a) : Leaves opened (o, m)
  | halted (e : RuntimeError) (m : Machine Chronicle) (halts : m.watch.Halts e m.world) :
    Leaves opened (.error e, m)

theorem Running.add {t : Chronicle} (h : t.Running) {m : Moment}
    (goes : (t.add m).stopped = false) : (t.add m).Running := by
  intro k stopAt
  have before := h k stopAt
  have differ : k ≠ t.moments.length + 1 := by
    rintro rfl
    simp [stopped, stopAt] at goes
  rw [length_moments_add]
  omega

end Chronicle

/-- An evaluation that leaves all that it took, and does nothing once it is stopped. -/
def Eval.Clean (x : Eval Chronicle α) : Prop :=
  ∀ m : Machine Chronicle, m.watch.Running → Chronicle.Leaves m.watch.opened (x m)

namespace Eval.Clean

theorem perform (span : Span) (f : Effect α) : Clean (Eval.perform span f) := by
  intro m running
  unfold Eval.perform
  rcases f m.world with ⟨fault | a, w⟩
  · exact .short _ _ running (by simp)
  · exact .value a _ running rfl

theorem bind {x : Eval Chronicle α} {f : α → Eval Chronicle β} (hx : Clean x)
    (hf : ∀ a, Clean (f a)) : Clean (x >>= f) := by
  intro m running
  change Chronicle.Leaves m.watch.opened (Eval.bind x f m)
  unfold Eval.bind
  have ran := hx m running
  generalize x m = r at ran ⊢
  cases ran with
  | value a m' running' closed =>
    rw [← closed]
    exact hf a m' running'
  | short o m' running' no_value =>
    cases o with
    | ok a => exact absurd rfl (no_value a)
    | error e => exact .short _ _ running' (by simp)
    | exhausted => exact .short _ _ running' (by simp)
    | aborted => exact .short _ _ running' (by simp)
  | halted e m' halts => exact .halted e m' halts

theorem closing {x : Eval Chronicle α} (span : Span) {close : Effect β} (h : close.Closing)
    (hx : Clean x) : Clean (Eval.closing span x close) := by
  intro m running
  unfold Eval.closing
  have ran := hx m running
  generalize x m = r at ran ⊢
  cases ran with
  | value a m' running' closed =>
    rw [← closed]
    exact perform span close m' running'
  | short o m' running' no_value =>
    cases o with
    | ok a => exact absurd rfl (no_value a)
    | error e => exact .short _ _ running' (by simp)
    | exhausted => exact .short _ _ running' (by simp)
    | aborted => exact .short _ _ running' (by simp)
  | halted e m' halts =>
    obtain ⟨before, moment, node, moments, shown, stopped, unwound⟩ := halts
    exact .halted e _ ⟨before, moment, node, moments, shown, stopped, unwound.trans (.closing h _)⟩

/-- To be clean goes through every step of the evaluator. -/
theorem congruent : Congruent fun {α} (x _ : Eval Chronicle α) => Clean x where
  pure a _ running := .value a _ running rfl
  bind := bind
  raise _ _ _ running := .short _ _ running (by simp)
  aborted _ running := .short _ _ running (by simp)
  ask _ _ running := .value _ _ running rfl
  change _ _ running := .value _ _ running rfl
  make _ _ running := .value _ _ running rfl
  perform := perform
  closing span _ := closing span

/-- Showing a node is clean: its value is shown at the node that was taken. -/
theorem capture (node : Node) (c : ContextId) {x : Eval Chronicle Value} (hx : Clean x) :
    Clean (Chronicle.observer.capture node c x) := by
  rintro ⟨w, t⟩ running
  change t.Running at running
  rw [Observer.capture_eq]
  change Chronicle.Leaves t.opened (Eval.bind _ _ _)
  unfold Eval.bind
  cases refused : t.refuses node with
  | true =>
    rw [t.entering_refused node c w refused]
    exact hx.bind (fun value => congruent.pure value) ⟨w, t⟩ running
  | false =>
    cases stops : (t.add (.enter node c w)).stopped with
    | true =>
      rw [t.entering_stopped node c w refused stops]
      exact .halted _ _ ⟨t.moments, _, node, rfl, rfl, rfl, .refl w⟩
    | false =>
      rw [t.entering_taken node c w refused stops]
      change Chronicle.Leaves t.opened (Eval.bind _ _ _)
      unfold Eval.bind
      have ran := hx ⟨w, t.add (.enter node c w)⟩ (running.add stops)
      generalize x ⟨w, t.add (.enter node c w)⟩ = r at ran ⊢
      cases ran with
      | short o m' running' no_value =>
        cases o with
        | ok a => exact absurd rfl (no_value a)
        | error e => exact .short _ _ running' (by simp)
        | exhausted => exact .short _ _ running' (by simp)
        | aborted => exact .short _ _ running' (by simp)
      | halted e m' halts => exact .halted e m' halts
      | value v m' running' closed =>
        obtain ⟨w', t'⟩ := m'
        change t'.opened = (t.add (.enter node c w)).opened at closed
        rw [Chronicle.opened_add] at closed
        dsimp only
        rw [if_pos rfl]
        cases stops' : (t'.add (.leave v c w')).stopped with
        | true =>
          rw [t'.leaving_stopped c v node.span w' stops']
          refine .halted _ _ ⟨t'.moments, _, node, rfl, ?_, rfl, .refl w'⟩
          exact congrArg List.head? closed
        | false =>
          rw [t'.leaving_taken c v node.span w' stops']
          refine .value v _ (running'.add stops') ?_
          change (t'.add (.leave v c w')).opened = t.opened
          rw [Chronicle.opened_add, closed]
          rfl

end Eval.Clean

/-! ### stopped runs -/

/-- Every function of an evaluator is clean. -/
theorem Chronicle.agree_clean (fuel : Nat) :
    Agree (fun {α} (x _ : Eval Chronicle α) => Clean x) observer observer fuel fuel :=
  Clean.congruent.agree (fun _ running => .short _ _ running (by simp))
    (fun node c _ _ h => Clean.capture node c h) fuel

/-- Every run of a script is clean. -/
theorem Program.clean (p : Program) (t : Chronicle) (running : t.Running) (fuel : Nat) (w : World) :
    Chronicle.Leaves t.opened (p.runWith Chronicle.observer t fuel w) := by
  have agree := Chronicle.agree_clean fuel
  exact Clean.capture _ _ (Clean.congruent.runStatements
    (y := fun st => execute Chronicle.observer fuel st w.newGlobal.1)
    (fun st => agree.execute st w.newGlobal.1) .null _) ⟨w.newGlobal.2, t⟩ running

/-- **Stopping is clean.** A run that is stopped at a moment of the full run ends there, at the node
of the moment, and the world is as it was then but for locals that were dropped. -/
theorem Program.stopped_halts (p : Program) (guarded : Bool) (fuel : Nat) (w : World) {k : Nat}
    (pos : 0 < k) (le : k ≤ (p.history guarded fuel w).length) :
    ∃ before moment after node, p.history guarded fuel w = before ++ moment :: after ∧
      before.length + 1 = k ∧ moment.node? (Moment.opened before) = some node ∧
      (p.runWith Chronicle.observer { guarded, stopAt := some k } fuel w).1 =
        .error ⟨.halted, node.span⟩ ∧
      moment.world.Unwinds
        (p.runWith Chronicle.observer { guarded, stopAt := some k } fuel w).2.world := by
  have cut := p.cut guarded fuel w pos le
  have ran := p.clean { guarded, stopAt := some k } (fun j same => by cases same; exact pos) fuel w
  have through : ∀ t : Chronicle, t.stopAt = some k → t.moments.length = k → ¬ t.Running := by
    intro t stopAt length running
    have := running k stopAt
    omega
  unfold Program.history
  generalize p.runWith Chronicle.observer { guarded } fuel w = full at cut ⊢
  generalize p.runWith Chronicle.observer { guarded, stopAt := some k } fuel w = r at ran cut ⊢
  cases ran with
  | value a m running => exact absurd running (through _ cut.stopAt cut.length)
  | short o m running => exact absurd running (through _ cut.stopAt cut.length)
  | halted e m halts =>
    obtain ⟨before, moment, node, ends, shown, rfl, unwound⟩ := halts
    obtain ⟨after, rest⟩ := cut.earlier
    have length := cut.length
    dsimp only at rest length
    rw [ends] at rest length
    refine ⟨before, moment, after, node, ?_, by simpa using length, shown, rfl, unwound⟩
    rw [← rest, List.append_assoc]
    rfl

end Roteiro
