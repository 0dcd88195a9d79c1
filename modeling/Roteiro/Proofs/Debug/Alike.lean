import Roteiro.Debug.Stepping
import Roteiro.Proofs.Trace.Chronicle

/-!
Controllers that answer alike. If two controllers give the same answers and leave the same world
whenever they are in related states, then every script that is stepped through goes the same way
with either of them, and they are in related states at the end (`Program.debug_inLine_of_alike`).
-/

namespace Roteiro

open Eval

variable {τ υ : Type} {R S : τ → υ → Prop}

/-! ### answers -/

/-- The same answer and the same world. `S` relates the states in which it is to quit. -/
inductive Resume.Alike (R S : τ → υ → Prop) : Resume × World × τ → Resume × World × υ → Prop
  | step {s : τ} {t : υ} (w : World) (related : R s t) : Alike R S (.step, w, s) (.step, w, t)
  | quit {s : τ} {t : υ} (w : World) (related : S s t) : Alike R S (.quit, w, s) (.quit, w, t)

/-- Controllers that answer alike, as long as they are in related states. -/
def Controller.Alike (R S : τ → υ → Prop) (k : Controller τ) (k' : Controller υ) : Prop :=
  ∀ view w s t, R s t → Resume.Alike R S (k.resume view w s) (k'.resume view w t)

/-- The same view, and drivers that are related. -/
structure Stepping.Alike (R : τ → υ → Prop) (s : Stepping τ) (t : Stepping υ) : Prop where
  view : s.view = t.view
  driver : R s.driver t.driver

/-! ### pauses -/

namespace Controller

variable {k : Controller τ} {view : DebugView} {w w' : World} {s s' : τ}

theorem pause_step (h : k.resume view w s = (.step, w', s')) :
    k.pause ⟨w, ⟨view, s⟩⟩ = (.ok (), ⟨w', ⟨view, s'⟩⟩) := by
  simp only [pause, h]

theorem pause_quit (h : k.resume view w s = (.quit, w', s')) :
    k.pause ⟨w, ⟨view, s⟩⟩ = (.error .halted, ⟨w', ⟨view, s'⟩⟩) := by
  simp only [pause, h]

/-- A node that is the innermost one already is not taken again. -/
theorem enter_shown {node : Node} (c : ContextId)
    (shown : (view.stack.head?.map Prod.fst == some node.key) = true) :
    k.enter node c ⟨w, ⟨view, s⟩⟩ = (.ok false, ⟨w, ⟨view, s⟩⟩) :=
  if_pos shown

/-- What can be looked at before a node. -/
def before (view : DebugView) (node : Node) (c : ContextId) : DebugView :=
  ⟨(node.key, node.text) :: view.stack, none, some c⟩

theorem enter_step {node : Node} {c : ContextId}
    (new : ¬(view.stack.head?.map Prod.fst == some node.key) = true)
    (h : k.resume (before view node c) w s = (.step, w', s')) :
    k.enter node c ⟨w, ⟨view, s⟩⟩ = (.ok true, ⟨w', ⟨before view node c, s'⟩⟩) := by
  have paused := pause_step h
  unfold enter
  dsimp only
  rw [if_neg new]
  unfold before at paused ⊢
  rw [paused]
  rfl

theorem enter_quit {node : Node} {c : ContextId}
    (new : ¬(view.stack.head?.map Prod.fst == some node.key) = true)
    (h : k.resume (before view node c) w s = (.quit, w', s')) :
    k.enter node c ⟨w, ⟨view, s⟩⟩ = (.error .halted, ⟨w', ⟨before view node c, s'⟩⟩) := by
  have paused := pause_quit h
  unfold enter
  dsimp only
  rw [if_neg new]
  unfold before at paused ⊢
  rw [paused]
  rfl

/-- What can be looked at after a node. -/
def after (view : DebugView) (value : Value) (c : ContextId) : DebugView :=
  ⟨view.stack, some value, some c⟩

theorem leave_step {value : Value} {c : ContextId}
    (h : k.resume (after view value c) w s = (.step, w', s')) :
    k.leave value c ⟨w, ⟨view, s⟩⟩ =
      (.ok (), ⟨w', ⟨⟨view.stack.drop 1, some value, some c⟩, s'⟩⟩) := by
  have paused := pause_step h
  unfold after at paused
  unfold leave
  dsimp only
  rw [paused]

theorem leave_quit {value : Value} {c : ContextId}
    (h : k.resume (after view value c) w s = (.quit, w', s')) :
    k.leave value c ⟨w, ⟨view, s⟩⟩ = (.error .halted, ⟨w', ⟨after view value c, s'⟩⟩) := by
  have paused := pause_quit h
  unfold after at paused ⊢
  unfold leave
  dsimp only
  rw [paused]

end Controller

namespace Controller.Alike

variable {k : Controller τ} {k' : Controller υ} (h : Alike R S k k')

include h

theorem entering (node : Node) (c : ContextId) :
    Eval.Lockstep (Stepping.Alike R) (Stepping.Alike S) (k.observer.entering node c)
      (k'.observer.entering node c) := by
  rintro w ⟨view, s⟩ ⟨_, t⟩ ⟨rfl, hst⟩
  by_cases shown : (view.stack.head?.map Prod.fst == some node.key) = true
  · rw [Observer.entering_ok (enter_shown c shown), Observer.entering_ok (enter_shown c shown)]
    exact .on _ _ ⟨rfl, hst⟩
  · have answers := h (before view node c) w s t hst
    cases hs : k.resume (before view node c) w s with
    | mk answer rest =>
      cases ht : k'.resume (before view node c) w t with
      | mk answer' rest' =>
        rw [hs, ht] at answers
        cases answers with
        | step w' related =>
          rw [Observer.entering_ok (enter_step shown hs),
            Observer.entering_ok (enter_step shown ht)]
          exact .on _ _ ⟨rfl, related⟩
        | quit w' related =>
          rw [Observer.entering_error (enter_quit shown hs),
            Observer.entering_error (enter_quit shown ht)]
          exact .stopped _ _ ⟨rfl, related⟩

theorem leaving (span : Span) (c : ContextId) (value : Value) :
    Eval.Lockstep (Stepping.Alike R) (Stepping.Alike S) (k.observer.leaving span c value)
      (k'.observer.leaving span c value) := by
  rintro w ⟨view, s⟩ ⟨_, t⟩ ⟨rfl, hst⟩
  have answers := h (after view value c) w s t hst
  cases hs : k.resume (after view value c) w s with
  | mk answer rest =>
    cases ht : k'.resume (after view value c) w t with
    | mk answer' rest' =>
      rw [hs, ht] at answers
      cases answers with
      | step w' related =>
        rw [Observer.leaving_ok (leave_step hs), Observer.leaving_ok (leave_step ht)]
        exact .on _ _ ⟨rfl, related⟩
      | quit w' related =>
        rw [Observer.leaving_error (leave_quit hs), Observer.leaving_error (leave_quit ht)]
        exact .stopped _ _ ⟨rfl, related⟩

end Controller.Alike

/-! ### scripts -/

/-- Scripts that are stepped through, and that went the same way to the end. -/
inductive Debugged.InLine (R S : τ → υ → Prop) : Debugged τ → Debugged υ → Prop
  | on {s : τ} {t : υ} (o : Outcome Value) (view : DebugView) (w : World) (related : R s t) :
      InLine R S ⟨o, view, w, s⟩ ⟨o, view, w, t⟩
  | stopped {s : τ} {t : υ} (e : RuntimeError) (view : DebugView) (w : World) (related : S s t) :
      InLine R S ⟨.error e, view, w, s⟩ ⟨.error e, view, w, t⟩

theorem Program.debug_quit {k : Controller τ} (p : Program) {s s' : τ} {w w' : World} (fuel : Nat)
    (h : k.resume {} w s = (.quit, w', s')) :
    p.debug k s fuel w = ⟨.error ⟨.halted, p.span⟩, {}, w', s'⟩ := by
  unfold debug
  rw [h]

theorem Program.debug_step {k : Controller τ} (p : Program) {s s' : τ} {w w' : World} {fuel : Nat}
    {o : Outcome Value} {m : Machine (Stepping τ)} (h : k.resume {} w s = (.step, w', s'))
    (ran : p.runWith k.observer ⟨{}, s'⟩ fuel w' = (o, m)) :
    p.debug k s fuel w = ⟨o, m.watch.view, m.world, m.watch.driver⟩ := by
  unfold debug
  rw [h]
  dsimp only
  rw [ran]

/-- Controllers that answer alike take a script the same way. -/
theorem Program.debug_inLine_of_alike {k : Controller τ} {k' : Controller υ} (p : Program) {s : τ}
    {t : υ} {w : World} (first : Resume.Alike R S (k.resume {} w s) (k'.resume {} w t))
    (h : k.Alike R S k') (fuel : Nat) :
    Debugged.InLine R S (p.debug k s fuel w) (p.debug k' t fuel w) := by
  cases hs : k.resume {} w s with
  | mk answer rest =>
    cases ht : k'.resume {} w t with
    | mk answer' rest' =>
      rw [hs, ht] at first
      cases first with
      | quit w' related =>
        rw [p.debug_quit fuel hs, p.debug_quit fuel ht]
        exact .stopped _ _ _ related
      | @step s' t' w' related =>
        have start : Stepping.Alike R ⟨{}, s'⟩ ⟨{}, t'⟩ := ⟨rfl, related⟩
        have line := p.inLine h.entering h.leaving start fuel w'
        cases xs : p.runWith k.observer ⟨{}, s'⟩ fuel w' with
        | mk o m =>
          cases xt : p.runWith k'.observer ⟨{}, t'⟩ fuel w' with
          | mk o' m' =>
            rw [p.debug_step hs xs, p.debug_step ht xt]
            rw [xs, xt] at line
            cases line with
            | @on u v _ w'' alike =>
              obtain ⟨view, driver⟩ := u
              obtain ⟨view', driver'⟩ := v
              obtain ⟨rfl, related'⟩ := alike
              exact .on _ _ _ related'
            | @stopped u v e w'' alike =>
              obtain ⟨view, driver⟩ := u
              obtain ⟨view', driver'⟩ := v
              obtain ⟨rfl, related'⟩ := alike
              exact .stopped _ _ _ related'

end Roteiro
