import Roteiro.Proofs.Debug.Safety
import Roteiro.Proofs.Trace.Unwinding

/-!
Pausing and quitting. A script that is held after some steps is held at a moment of its guarded run:
what can be looked at is what there was at that moment (`Program.Acts.held_at`). Told to quit, it
only unwinds (`Program.Acts.quits`), so a session that is quit at a pause hands back the world of
the pause, whatever calls are left (`Debugging.quit_hands_back`).
-/

namespace Roteiro

open Eval

/-! ### pauses and moments -/

/-- A node as it can be looked at. -/
def Node.label (node : Node) : NodeKey × String :=
  (node.key, node.text)

/-- What can be looked at at a moment, with the nodes that were open before it. -/
def Moment.view (opened : List Node) : Moment → DebugView
  | enter node c _ => ⟨(node :: opened).map Node.label, none, some c⟩
  | leave value c _ => ⟨opened.map Node.label, some value, some c⟩

/-- A script that makes `k + 1` steps goes along with the chronicle that is stopped at moment
`k + 1`. -/
structure Pacing (k : Nat) (s : Stepping Log) (t : Chronicle) : Prop where
  guarded : t.guarded = true
  stopAt : t.stopAt = some (k + 1)
  early : t.moments.length ≤ k
  stack : s.view.stack = t.opened.map Node.label
  /-- It was asked once before the first moment. -/
  asked : s.driver.length = t.moments.length + 1

/-- A script that has made `k + 1` steps is held at moment `k` of a chronicle, its last one. -/
def HeldAt (k : Nat) (s : Stepping Log) (t : Chronicle) : Prop :=
  ∃ before moment earlier, t.moments = before ++ [moment] ∧ before.length = k ∧
    s.driver = (moment.view (Moment.opened before), moment.world) :: earlier ∧
    earlier.length = k + 1

namespace Pacing

variable {k : Nat} {s : Stepping Log} {t : Chronicle} (h : Pacing k s t)

include h

theorem refuses (node : Node) :
    t.refuses node = (s.view.stack.head?.map Prod.fst == some node.key) := by
  unfold Chronicle.refuses
  rw [h.guarded, h.stack, List.head?_map, Option.map_map]
  rfl

theorem stopped_add (m : Moment) : (t.add m).stopped = !decide (t.moments.length < k) := by
  have early := h.early
  unfold Chronicle.stopped
  change (t.stopAt == _) = _
  rw [h.stopAt, Chronicle.moments_add]
  by_cases short : t.moments.length < k
  · simp [short]
    omega
  · simp [short]
    omega

/-- After a moment short of the last one the script goes on. -/
theorem next (short : t.moments.length < k) (m : Moment) {view : DebugView}
    (stack : view.stack = (t.add m).opened.map Node.label) (told : DebugView × World) :
    Pacing k ⟨view, told :: s.driver⟩ (t.add m) where
  guarded := h.guarded
  stopAt := h.stopAt
  early := by simpa using Nat.succ_le_of_lt short
  stack := stack
  asked := by simp [h.asked]

/-- At the last moment the script is held. -/
theorem held (last : ¬ t.moments.length < k) (m : Moment) (view : DebugView) :
    HeldAt k ⟨view, (m.view t.opened, m.world) :: s.driver⟩ (t.add m) := by
  have early := h.early
  refine ⟨t.moments, m, s.driver, rfl, by omega, rfl, ?_⟩
  rw [h.asked]
  omega

theorem entering (node : Node) (c : ContextId) (w : World) :
    Outcome.InLine (Pacing k) (HeldAt k)
      ((Controller.playing (List.replicate (k + 1) .step)).observer.entering node c ⟨w, s⟩)
      (Chronicle.observer.entering node c ⟨w, t⟩) := by
  let moment : Moment := .enter node c w
  have viewed : moment.view t.opened = ⟨(node.key, node.text) :: s.view.stack, none, some c⟩ := by
    rw [h.stack]
    rfl
  have stepped : (Controller.playing (List.replicate (k + 1) .step)).enter node c ⟨w, s⟩ =
      if t.refuses node then (.ok false, ⟨w, s⟩)
      else
        (if t.moments.length < k then .ok true else .error .halted,
          ⟨w, ⟨moment.view t.opened, (moment.view t.opened, w) :: s.driver⟩⟩) := by
    unfold Controller.enter
    dsimp only
    rw [Controller.playing_pause h.asked, ← h.refuses, ← viewed]
    by_cases short : t.moments.length < k
    · rw [if_pos short, if_pos short]
      rfl
    · rw [if_neg short, if_neg short]
      rfl
  have stops := h.stopped_add moment
  cases refused : t.refuses node with
  | true =>
    rw [refused, if_pos rfl] at stepped
    rw [Observer.entering_ok stepped, t.entering_refused node c w refused]
    exact .on _ _ h
  | false =>
    rw [refused, if_neg Bool.false_ne_true] at stepped
    by_cases short : t.moments.length < k
    · rw [if_pos short] at stepped
      rw [Observer.entering_ok stepped, t.entering_taken node c w refused (by simp [moment, stops, short])]
      exact .on _ _ (h.next short moment (by rw [Chronicle.opened_add]; rfl) _)
    · rw [if_neg short] at stepped
      rw [Observer.entering_error stepped, t.entering_stopped node c w refused (by simp [moment, stops, short])]
      exact .stopped _ _ (h.held short moment _)

theorem leaving (span : Span) (c : ContextId) (value : Value) (w : World) :
    Outcome.InLine (Pacing k) (HeldAt k)
      ((Controller.playing (List.replicate (k + 1) .step)).observer.leaving span c value ⟨w, s⟩)
      (Chronicle.observer.leaving span c value ⟨w, t⟩) := by
  let moment : Moment := .leave value c w
  have viewed : moment.view t.opened = ⟨s.view.stack, some value, some c⟩ := by
    rw [h.stack]
    rfl
  have paused := Controller.playing_pause (k := k) h.asked (moment.view t.opened) w
  have stops := h.stopped_add moment
  by_cases short : t.moments.length < k
  · let view' : DebugView := ⟨s.view.stack.drop 1, some value, some c⟩
    have stepped : (Controller.playing (List.replicate (k + 1) .step)).leave value c ⟨w, s⟩ =
        (.ok (), ⟨w, ⟨view', (moment.view t.opened, w) :: s.driver⟩⟩) := by
      rw [if_pos short, viewed] at paused
      unfold Controller.leave
      dsimp only
      rw [paused, viewed]
    rw [Observer.leaving_ok stepped, t.leaving_taken c value span w (by simp [moment, stops, short])]
    refine .on _ _ (h.next short moment ?_ _)
    rw [Chronicle.opened_add]
    change s.view.stack.drop 1 = (t.opened.drop 1).map Node.label
    rw [h.stack, List.map_drop]
  · have stepped : (Controller.playing (List.replicate (k + 1) .step)).leave value c ⟨w, s⟩ =
        (.error .halted,
          ⟨w, ⟨moment.view t.opened, (moment.view t.opened, w) :: s.driver⟩⟩) := by
      rw [if_neg short, viewed] at paused
      unfold Controller.leave
      dsimp only
      rw [paused, viewed]
    rw [Observer.leaving_error stepped, t.leaving_stopped c value span w (by simp [moment, stops, short])]
    exact .stopped _ _ (h.held short moment _)

end Pacing

/-- A script that is stepped through and the chronicle that is stopped there end alike. -/
theorem Program.debug_inLine (p : Program) (k fuel : Nat) (w : World) :
    Outcome.InLine (Pacing k) (HeldAt k)
      (p.runWith (Controller.playing (List.replicate (k + 1) .step)).observer ⟨{}, [({}, w)]⟩ fuel w)
      (p.runWith Chronicle.observer { guarded := true, stopAt := some (k + 1) } fuel w) :=
  p.inLine (fun node c w _ _ h => h.entering node c w)
    (fun span c value w _ _ h => h.leaving span c value w)
    ⟨rfl, rfl, Nat.zero_le k, rfl, rfl⟩ fuel w

/-! ### what is seen at a pause, and what quitting leaves -/

/-- A script that is held for want of a command ends at the next one. -/
theorem Debugged.act_succ {r : Debugged Log} {received : Nat} {view : DebugView} {world : World}
    (h : r.act received = .pause view world) :
    r.act (received + 1) = .finish r.outcome r.view r.world := by
  unfold Debugged.act at h ⊢
  split at h
  · split at h
    · next length => rw [if_neg (by omega)]
    · cases h
  · cases h

namespace Program

variable {p : Program} {w : World} {k : Nat} {view : DebugView} {world : World}

/-- A script that is held was stopped at a moment of its guarded run, and then it has only
unwound. -/
theorem ActsWithin.stopped {fuel : Nat}
    (h : p.ActsWithin w fuel (List.replicate (k + 1) .step) (.pause view world)) :
    ∃ before moment after node, p.history true fuel w = before ++ moment :: after ∧
      before.length = k ∧ moment.node? (Moment.opened before) = some node ∧
      view = moment.view (Moment.opened before) ∧ world = moment.world ∧
      (p.debug (.playing (List.replicate (k + 1) .step)) [] fuel w).outcome =
        .error ⟨.halted, node.span⟩ ∧
      world.Unwinds (p.debug (.playing (List.replicate (k + 1) .step)) [] fuel w).world := by
  have begins : p.debug (.playing (List.replicate (k + 1) .step)) [] fuel w =
      let (outcome, m) := p.runWith
        (Controller.playing (List.replicate (k + 1) .step)).observer ⟨{}, [({}, w)]⟩ fuel w
      ⟨outcome, m.watch.view, m.world, m.watch.driver⟩ := rfl
  have acts := h.2
  have line := p.debug_inLine k fuel w
  have earlier := p.stopped_prefix true fuel w (Nat.succ_pos k)
  have halts := fun le => p.stopped_halts true fuel w (Nat.succ_pos k) le
  rw [begins] at acts ⊢
  generalize p.runWith (Controller.playing _).observer _ fuel w = rx at line acts ⊢
  generalize p.runWith Chronicle.observer { guarded := true, stopAt := some (k + 1) } fuel w = ry
    at line earlier halts
  cases line with
  | on o w' pacing =>
    -- It was not asked often enough to be held.
    have asked := pacing.asked
    have early := pacing.early
    unfold Debugged.act at acts
    dsimp only at acts
    split at acts
    · next driver =>
      rw [driver, List.length_cons] at asked
      rw [if_neg (by rw [List.length_replicate]; omega)] at acts
      cases acts
    · cases acts
  | stopped e w' held =>
    obtain ⟨before, moment, log, moments, length, driver, asked⟩ := held
    have le : k + 1 ≤ (p.history true fuel w).length := by
      have := earlier.length_le
      dsimp only at this
      rw [moments, List.length_append, List.length_singleton, length] at this
      exact this
    obtain ⟨before', moment', after, node, history, length', shown, outcome, unwound⟩ := halts le
    dsimp only at outcome unwound earlier
    -- The last moment of the stopped run is the one at its place in the full run.
    have same : before ++ [moment] = before' ++ [moment'] := by
      rw [history, moments] at earlier
      have split : before' ++ moment' :: after = (before' ++ [moment']) ++ after := by simp
      rw [split] at earlier
      exact List.IsPrefix.eq_of_length
        (List.prefix_of_prefix_length_le earlier (List.prefix_append _ _) (by simp; omega))
        (by simp; omega)
    obtain ⟨rfl, last⟩ := List.append_inj same (by omega)
    cases last
    rw [Debugged.act_cons driver, if_pos (by rw [List.length_replicate]; exact asked)] at acts
    cases acts
    exact ⟨before, moment, after, node, history, length, shown, rfl, rfl, outcome, unwound⟩

/-- **A script that is held is held at a moment of its guarded run**: it shows the nodes that were
open then, the value, the context and the world of the moment. -/
theorem Acts.held_at (h : p.Acts w (List.replicate (k + 1) .step) (.pause view world)) :
    ∃ fuel before moment after, p.history true fuel w = before ++ moment :: after ∧
      before.length = k ∧ view = moment.view (Moment.opened before) ∧ world = moment.world := by
  obtain ⟨fuel, acts⟩ := h
  obtain ⟨before, moment, after, _, history, length, _, viewed, seen, _⟩ := acts.stopped
  exact ⟨fuel, before, moment, after, history, length, viewed, seen⟩

/-- **A script that is told to quit is halted and unwinds.** -/
theorem Acts.quits (h : p.Acts w (List.replicate k .step) (.pause view world)) :
    ∃ span view' world', p.Acts w (List.replicate k .step ++ [.quit])
      (.finish (.error ⟨.halted, span⟩) view' world') ∧ world.Unwinds world' := by
  cases k with
  | zero =>
    cases h.unique (p.acts_nil w)
    exact ⟨p.span, {}, w, ⟨0, by simp [Program.debug, Controller.playing], rfl⟩, .refl w⟩
  | succ k =>
    obtain ⟨fuel, acts⟩ := h
    obtain ⟨_, _, _, node, _, _, _, _, _, outcome, unwound⟩ := acts.stopped
    have ends := Debugged.act_succ acts.2
    rw [← Controller.playing_concat_quit] at outcome unwound ends
    rw [outcome] at ends
    exact ⟨node.span, _, _, ⟨fuel, by rw [outcome]; simp, by rw [List.length_append]; exact ends⟩,
      unwound⟩

end Program

/-! ### sessions -/

namespace Debugging

variable {p : Program} {w : World} {s t : State}

/-- Where the parties are from when the session is to quit after `received`, on to its end. The
script ends with the error `e` in the world `world`. -/
inductive Quitting (received : List Resume) (e : RuntimeError) (world : World) (t : State) : Prop
  | asked (unfinished : t.finished = false) (runner : t.runner = .waiting received)
    (due : Due .quit t.calls) (client : t.client = .idle ∨ t.client = .sending .quit)
  | told (client : t.client = .receiving) (due : Due .quit t.calls)
    (runner : t.runner = .running (received ++ [.quit]))
  | ended (client : t.client = .receiving) (due : Due .quit t.calls)
    (runner : t.runner = .sending (received ++ [.quit]) (.finished (.error e)))
    (seen : t.world = world)
  | gone (finished : t.finished = true) (runner : t.runner = .gone (some world))
    (client : t.client = .idle ∨ t.client = .joining ∨ t.client = .closed (some world))

namespace Quitting

variable {received : List Resume} {e : RuntimeError} {view world : _}

theorem call (h : Quitting received e world s) (idle : s.client = .idle) :
    Quitting received e world s.call := by
  cases h with
  | asked unfinished runner due client =>
    have going : ¬ s.finished = true := by rw [unfinished]; simp
    unfold State.call
    obtain calls | ⟨rest, calls⟩ := due.of_quit
    · simp only [calls, if_neg going]
      exact .asked unfinished runner .close (.inr rfl)
    · simp only [calls, if_neg going]
      exact .asked unfinished runner (.quit rest) (.inr rfl)
  | told client => cases client.symm.trans idle
  | ended client => cases client.symm.trans idle
  | gone finished runner client =>
    unfold State.call
    simp only [if_pos finished]
    split
    · exact .gone finished runner (.inr (.inl rfl))
    all_goals exact .gone finished runner (.inl rfl)

/-- Once the script has sent its last signal it is gone. -/
theorem signalled (due : Due .quit s.calls) (seen : s.world = world) :
    Quitting received e world (s.signalled (received ++ [.quit]) (.finished (.error e))) := by
  subst seen
  unfold State.signalled State.conclude
  obtain calls | ⟨rest, calls⟩ := due.of_quit
  · simp only [calls]
    exact .gone rfl rfl (.inr (.inl rfl))
  · simp only [calls]
    exact .gone rfl rfl (.inl rfl)

/-- **Each step leads on to the end of the session.** -/
theorem step (acts : p.Acts w (received ++ [.quit]) (.finish (.error e) view world))
    (h : Quitting received e world s) (step : Step p w s t) : Quitting received e world t := by
  cases step with
  | call idle => exact h.call idle
  | resume sends waits =>
    cases h with
    | asked unfinished runner due client =>
      cases runner.symm.trans waits
      obtain client | client := client
      · cases client.symm.trans sends
      · cases client.symm.trans sends
        exact .told rfl due rfl
    | told client => cases client.symm.trans sends
    | ended client => cases client.symm.trans sends
    | gone _ runner => cases runner.symm.trans waits
  | act runs acts' =>
    cases h with
    | asked _ runner => cases runner.symm.trans runs
    | told client due runner =>
      cases runner.symm.trans runs
      cases acts'.unique acts
      exact .ended client due rfl rfl
    | ended _ _ runner => cases runner.symm.trans runs
    | gone _ runner => cases runner.symm.trans runs
  | signal receives sends =>
    cases h with
    | asked _ runner => cases runner.symm.trans sends
    | told _ _ runner => cases runner.symm.trans sends
    | ended _ due runner seen =>
      cases runner.symm.trans sends
      exact signalled due seen
    | gone _ runner => cases runner.symm.trans sends
  | hangUp waits gone =>
    cases h with
    | asked _ runner => cases runner.symm.trans gone
    | told _ _ runner => cases runner.symm.trans gone
    | ended _ _ runner => cases runner.symm.trans gone
    | gone _ _ client =>
      obtain receives | ⟨command, sends⟩ := waits
      · obtain client | client | client := client
        all_goals cases client.symm.trans receives
      · obtain client | client | client := client
        all_goals cases client.symm.trans sends
  | join joins gone =>
    cases h with
    | asked _ runner => cases runner.symm.trans gone
    | told _ _ runner => cases runner.symm.trans gone
    | ended _ _ runner => cases runner.symm.trans gone
    | gone finished runner =>
      cases runner.symm.trans gone
      exact .gone finished runner (.inr (.inr rfl))

/-- Nothing keeps the session from being closed. -/
theorem progress (acts : p.Acts w (received ++ [.quit]) (.finish (.error e) view world))
    (h : Quitting received e world s) :
    s.client = .closed (some world) ∨ ∃ t, Step p w s t := by
  cases h with
  | asked _ runner _ client =>
    obtain idle | sends := client
    · exact .inr ⟨_, .call idle⟩
    · exact .inr ⟨_, .resume sends runner⟩
  | told _ _ runner => exact .inr ⟨_, .act runner acts⟩
  | ended client _ runner => exact .inr ⟨_, .signal client runner⟩
  | gone _ runner client =>
    obtain idle | joins | closed := client
    · exact .inr ⟨_, .call idle⟩
    · exact .inr ⟨_, .join joins runner⟩
    · exact .inl closed

theorem steps (acts : p.Acts w (received ++ [.quit]) (.finish (.error e) view world))
    (h : Quitting received e world s) (steps : Relation.ReflTransGen (Step p w) s t) :
    Quitting received e world t := by
  induction steps with
  | refl => exact h
  | tail _ step ih => exact ih.step acts step

/-- The session comes to be closed. -/
theorem closes (acts : p.Acts w (received ++ [.quit]) (.finish (.error e) view world))
    (h : Quitting received e world s) (acc : Acc (fun t s => Step p w s t) s) :
    ∃ t, Relation.ReflTransGen (Step p w) s t ∧ t.client = .closed (some world) := by
  induction acc with
  | intro s _ ih =>
    obtain closed | ⟨t, step⟩ := h.progress acts
    · exact ⟨s, .refl, closed⟩
    · obtain ⟨u, later, closed⟩ := ih t step (h.step acts step)
      exact ⟨u, .head step later, closed⟩

theorem context_eq (h : Quitting received e world s) {context : Option World}
    (closed : s.client = .closed context) : context = some world := by
  cases h with
  | asked _ _ _ client =>
    obtain client | client := client
    all_goals cases client.symm.trans closed
  | told client => cases client.symm.trans closed
  | ended client => cases client.symm.trans closed
  | gone _ _ client =>
    obtain client | client | client := client
    · cases client.symm.trans closed
    · cases client.symm.trans closed
    · cases client.symm.trans closed
      rfl

end Quitting

/-- The session comes to be closed, and however it is closed, it hands back a world that is left of
the present one. -/
def State.HandsBack (p : Program) (w : World) (s : State) : Prop :=
  ∃ world, s.world.Unwinds world ∧
    (∃ t, Relation.ReflTransGen (Step p w) s t ∧ t.client = .closed (some world)) ∧
    ∀ t context, Relation.ReflTransGen (Step p w) s t → t.client = .closed context →
      context = some world

/-- **A session that is quit at a pause hands back the world of the pause**, unwound. -/
theorem Reachable.handsBack {calls : List Request} (reachable : Reachable p w calls s)
    (idle : s.client = .idle) (paused : s.finished = false) (due : Due .quit s.calls) :
    s.HandsBack p w := by
  have phase := reachable.phase
  have acc := phase.acc
  cases phase with
  | resumed h => cases h.client.symm.trans idle
  | ended h => cases h.finished.symm.trans paused
  | @parked k h =>
    obtain ⟨span, view, world, acts, unwound⟩ := h.held.quits
    have quitting : Quitting (List.replicate k .step) ⟨.halted, span⟩ world s :=
      .asked paused h.runner due (.inl idle)
    exact ⟨world, unwound, quitting.closes acts acc,
      fun t context steps closed => (quitting.steps acts steps).context_eq closed⟩

end Debugging

/-! ### clean stops -/

/-- The run that is stopped at event `k` ends cleanly there. -/
structure Program.StopsCleanly (p : Program) (guarded : Bool) (fuel : Nat) (w : World) (k : Nat) :
    Prop where
  /-- It records the first events of the full run, and no more. -/
  events : (p.runWith Trace.observer { guarded, stopAt := some k } fuel w).2.watch.events =
    (p.runWith Trace.observer { guarded } fuel w).2.watch.events.take k
  /-- The events of the full run are those of its moments. -/
  told : (p.runWith Trace.observer { guarded } fuel w).2.watch.events =
    (p.history guarded fuel w).map Moment.event
  /-- It ends with the fault of the observer at the node of the event, and leaves the world as it
  was at that moment of the full run. -/
  halted : ∃ before moment after node, p.history guarded fuel w = before ++ moment :: after ∧
    before.length + 1 = k ∧ moment.node? (Moment.opened before) = some node ∧
    (p.runWith Trace.observer { guarded, stopAt := some k } fuel w).1 =
      .error ⟨.halted, node.span⟩ ∧
    moment.world.Unwinds (p.runWith Trace.observer { guarded, stopAt := some k } fuel w).2.world

theorem Program.stopsCleanly (p : Program) (guarded : Bool) (fuel : Nat) (w : World) {k : Nat}
    (pos : 0 < k) (le : k ≤ (p.history guarded fuel w).length) :
    p.StopsCleanly guarded fuel w k := by
  have stopped : p.runWith Trace.observer { guarded, stopAt := some k } fuel w = _ :=
    p.trace_eq { guarded, stopAt := some k } fuel w
  have told := p.events_eq guarded fuel w
  obtain ⟨before, moment, after, node, history, length, shown, outcome, unwound⟩ :=
    p.stopped_halts guarded fuel w pos le
  have cut := p.cut guarded fuel w pos le
  refine ⟨?_, told, before, moment, after, node, history, length, shown, ?_, ?_⟩
  · rw [stopped, told, Chronicle.events_trace, ← List.map_take]
    congr 1
    have first := List.prefix_iff_eq_take.1 cut.earlier
    rwa [cut.length] at first
  · rw [stopped]
    exact outcome
  · rw [stopped]
    exact unwound

/-- **Stopping at any event is clean.** The run of a script that is stopped at an event of the full
run has exactly the events up to it, ends there with the fault of the observer, and leaves what was
written, the lines still to be read, the collections and the locals that are left as they were at
the event. So a session that is quit at any pause hands back what there was at the pause. -/
theorem stops_cleanly (p : Program) (w : World) :
    (∀ guarded fuel k, 0 < k →
      k ≤ (p.runWith Trace.observer { guarded } fuel w).2.watch.events.length →
      p.StopsCleanly guarded fuel w k) ∧
    ∀ calls s, Debugging.Reachable p w calls s → s.client = .idle → s.finished = false →
      Debugging.Due .quit s.calls → s.HandsBack p w := by
  refine ⟨fun guarded fuel k pos le => p.stopsCleanly guarded fuel w pos ?_,
    fun calls s reachable idle paused due => reachable.handsBack idle paused due⟩
  rwa [p.events_eq, List.length_map] at le

/-- A script that is a number, stopped at its third event, and quit after one step. -/
theorem stops_cleanly_of_number :
    let p : Program := ⟨[.expression (.atom (.number 2) ⟨0, 1⟩)], ⟨0, 1⟩⟩
    let w : World := .around (.captured [])
    let view : DebugView :=
      ⟨[((Node.program p).key, (Node.program p).text)], none, some w.newGlobal.1⟩
    let s : Debugging.State :=
      ((({ calls := [.forward, .quit], world := w } : Debugging.State).call.resumed [] .step).acted
        [.step] (.pause view w.newGlobal.2)).signalled [.step] .paused
    p.StopsCleanly true 2 w 3 ∧ s.world = w.newGlobal.2 ∧ s.HandsBack p w := by
  intro p w view s
  have six : ∀ (c : ContextId) (g : World),
      (Session.rest Trace.observer 2 { program := p, context := c }
        ⟨g, { guarded := true }⟩).2.watch.events.length = 6 :=
    fun _ _ => by with_unfolding_all rfl
  have three : 3 ≤ (p.runWith Trace.observer { guarded := true } 2 w).2.watch.events.length := by
    unfold Program.runWith
    dsimp only
    rw [six]
    decide
  have halted : (p.debug (.playing [.step]) [] 2 w).outcome = .error ⟨.halted, ⟨0, 1⟩⟩ := rfl
  have paused : p.Acts w [.step] (.pause view w.newGlobal.2) := ⟨2, by rw [halted]; simp, rfl⟩
  have reachable : Debugging.Reachable p w [.forward, .quit] s :=
    .tail (.tail (.tail (.tail .refl (.call rfl)) (.resume rfl rfl)) (.act rfl paused))
      (.signal rfl rfl)
  obtain ⟨clean, quits⟩ := stops_cleanly p w
  exact ⟨clean true 2 3 (by decide) three, rfl, quits _ s reachable rfl rfl (.quit [])⟩

end Roteiro
