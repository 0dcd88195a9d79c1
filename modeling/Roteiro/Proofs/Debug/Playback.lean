import Roteiro.Debug.Stepping
import Roteiro.Eval.Trace
import Roteiro.Proofs.Eval.Coupling

/-!
What a script under the debugger does next, once it was given some commands. The commands are played
back, and where they run out the script is held; so the script is either held at a pause or at its
end. With steps only it is held at the events of its guarded trace in turn
(`Program.Acts.tells`), and it ends where the trace does, in the way of a run without a debugger
(`Program.Acts.ends`). Told to quit, it ends at once (`Program.Acts.ends_of_quit`).
-/

namespace Roteiro

/-! ### what a trace tells -/

/-- What is told at a pause: the text of a node, and that of its value once it has one. -/
structure Pause where
  node : String
  value : Option String
  deriving Repr, DecidableEq

/-- What is told at a pause, as it can be looked at. -/
def DebugView.pause (v : DebugView) (h : Heap) : Pause :=
  ⟨v.node, v.last.map h.text⟩

namespace Event

/-- The texts of the nodes that are open after an event, innermost first, from those before. -/
def reopen (opened : List String) : Event → List String
  | enter text _ _ => text :: opened
  | leave _ _ => opened.drop 1

/-- What is told of an event: a value is told with the innermost open node. -/
def pause (opened : List String) : Event → Pause
  | enter text _ _ => ⟨text, none⟩
  | leave value _ => ⟨opened.headD "", some value⟩

/-- What is told of each of some events. -/
def pauses : List String → List Event → List Pause
  | _, [] => []
  | opened, e :: es => e.pause opened :: pauses (e.reopen opened) es

theorem pauses_concat (opened : List String) (es : List Event) (e : Event) :
    pauses opened (es ++ [e]) = pauses opened es ++ [e.pause (es.foldl reopen opened)] := by
  induction es generalizing opened with
  | nil => rfl
  | cons d es ih => simp only [List.cons_append, pauses, List.foldl_cons, ih]

theorem pauses_length (opened : List String) (es : List Event) :
    (pauses opened es).length = es.length := by
  induction es generalizing opened with
  | nil => rfl
  | cons d es ih => simp only [pauses, List.length_cons, ih]

end Event

namespace Trace

@[simp] theorem events_record (t : Trace) (e : Event) : (t.record e).events = t.events ++ [e] := by
  simp [record, events]

/-- A trace that has taken a node. -/
def taking (t : Trace) (node : Node) (level : Nat) : Trace :=
  { t.record (.enter node.text node.span level) with pending := node.key :: t.pending }

/-- A trace that has left its innermost node. -/
def leaving (t : Trace) (value : String) (level : Nat) : Trace :=
  { t.record (.leave value level) with pending := t.pending.drop 1 }

theorem events_taking (t : Trace) (node : Node) (level : Nat) :
    (t.taking node level).events = t.events ++ [.enter node.text node.span level] :=
  events_record t _

theorem events_leaving (t : Trace) (value : String) (level : Nat) :
    (t.leaving value level).events = t.events ++ [.leave value level] :=
  events_record t _

theorem not_stopped {t : Trace} (h : t.stopAt = none) : t.stopped = false := by
  unfold stopped
  rw [h]
  rfl

theorem enter_eq (node : Node) (c : ContextId) (m : Machine Trace) :
    enter node c m =
      if m.watch.guarded && m.watch.pending.head? == some node.key then (.ok false, m)
      else
        (if (m.watch.taking node (m.world.context c).level).stopped then .error .halted else .ok true,
          { m with watch := m.watch.taking node (m.world.context c).level }) :=
  rfl

theorem leave_eq (value : Value) (c : ContextId) (m : Machine Trace) :
    leave value c m =
      (if (m.watch.leaving (m.world.heap.text value) (m.world.context c).level).stopped then
          .error .halted else .ok (),
        { m with watch := m.watch.leaving (m.world.heap.text value) (m.world.context c).level }) :=
  rfl

/-- A trace that is not to be stopped leaves the evaluation as it is. -/
theorem harmlessWhile : observer.HarmlessWhile fun t => t.stopAt = none where
  enter node c m unstopped := by
    change ∃ taken watch, _ ∧ Trace.enter node c m = _
    rw [enter_eq]
    split
    · exact ⟨false, m.watch, unstopped, rfl⟩
    · have goes : (m.watch.taking node (m.world.context c).level).stopped = false :=
        not_stopped unstopped
      rw [goes]
      exact ⟨true, m.watch.taking node _, unstopped, rfl⟩
  leave value c m unstopped := by
    have goes : (m.watch.leaving (m.world.heap.text value) (m.world.context c).level).stopped = false :=
      not_stopped unstopped
    change ∃ watch, _ ∧ Trace.leave value c m = _
    rw [leave_eq, goes]
    exact ⟨m.watch.leaving _ _, unstopped, rfl⟩

end Trace

/-- The events of a guarded trace of a script, as far as the fuel goes. -/
def Program.events (p : Program) (fuel : Nat) (w : World) : List Event :=
  (p.runWith Trace.observer { guarded := true } fuel w).2.watch.events

/-- A trace does not alter the run of a script. -/
theorem Program.trace_run (p : Program) (guarded : Bool) (fuel : Nat) (w : World) :
    (p.runWith Trace.observer { guarded } fuel w).1 = (p.run fuel w).1 ∧
      (p.runWith Trace.observer { guarded } fuel w).2.world = (p.run fuel w).2 := by
  have ran := p.beside_of_capture Trace.harmlessWhile.capture (s := { guarded }) (t := ()) rfl fuel w
  unfold Program.run
  generalize p.runWith Trace.observer { guarded } fuel w = rx at ran ⊢
  generalize p.runWith .none () fuel w = ry at ran ⊢
  cases ran with
  | alike o w' _ => exact ⟨rfl, rfl⟩
  | stopped _ _ _ left => exact left.elim

/-! ### commands played back -/

/-- Where a script was paused, newest first, with the world at each pause. -/
abbrev Log := List (DebugView × World)

/-- The controller that gives some commands in turn and then quits. -/
def Controller.playing (commands : List Resume) : Controller Log where
  resume view w log := (commands.getD log.length .quit, w, (view, w) :: log)

/-- To quit at the end of the commands is what is done without more commands. -/
theorem Controller.playing_concat_quit (commands : List Resume) :
    playing (commands ++ [.quit]) = playing commands := by
  have same : ∀ i, (commands ++ [Resume.quit]).getD i .quit = commands.getD i .quit := by
    induction commands with
    | nil => intro i; cases i <;> rfl
    | cons c cs ih =>
      intro i
      cases i with
      | zero => rfl
      | succ i => exact ih i
  unfold playing
  simp only [same]

/-- What is said to one who is to make `n` steps. -/
theorem Controller.playing_steps (n : Nat) (log : Log) (view : DebugView) (w : World) :
    (playing (List.replicate n .step)).resume view w log =
      (if log.length < n then .step else .quit, w, (view, w) :: log) := by
  have said : (List.replicate n Resume.step).getD log.length .quit =
      if log.length < n then .step else .quit := by
    rw [List.getD_eq_getElem?_getD, List.getElem?_replicate]
    split
    · rfl
    · rfl
  exact congrArg (·, w, (view, w) :: log) said

/-- What is said at pause `n` to one who is to make `k + 1` steps, the first of them before the
first pause. -/
theorem Controller.playing_pause {k n : Nat} {log : Log} (asked : log.length = n + 1)
    (view : DebugView) (world : World) :
    (playing (List.replicate (k + 1) .step)).pause ⟨world, ⟨view, log⟩⟩ =
      (if n < k then .ok () else .error .halted, ⟨world, ⟨view, (view, world) :: log⟩⟩) := by
  have said := playing_steps (k + 1) log view world
  simp only [asked, Nat.add_lt_add_iff_right] at said
  simp only [Controller.pause, said]
  by_cases short : n < k
  · rw [if_pos short, if_pos short]
  · rw [if_neg short, if_neg short]

/-! ### a script and its trace side by side -/

/-- A script that makes `k + 1` steps goes along with its trace: it is paused at each event. -/
structure InStep (k : Nat) (s : Stepping Log) (t : Trace) : Prop where
  guarded : t.guarded = true
  unstopped : t.stopAt = none
  keys : t.pending = s.view.stack.map Prod.fst
  texts : t.events.foldl Event.reopen [] = s.view.stack.map Prod.snd
  /-- It was asked once before the first event. -/
  asked : s.driver.length = t.events.length + 1
  early : t.events.length ≤ k

/-- A script that has made `k + 1` steps is held at event `k` of its trace. -/
def Held (k : Nat) (s : Stepping Log) (t : Trace) : Prop :=
  ∃ view world earlier, s.driver = (view, world) :: earlier ∧ earlier.length = k + 1 ∧
    (Event.pauses [] t.events)[k]? = some (view.pause world.heap)

theorem Held.grow {k : Nat} {s : Stepping Log} {t t' : Trace} {e : Event} (h : Held k s t)
    (grown : t'.events = t.events ++ [e]) : Held k s t' := by
  obtain ⟨view, world, earlier, driver, length, told⟩ := h
  refine ⟨view, world, earlier, driver, length, ?_⟩
  obtain ⟨lt, _⟩ := List.getElem?_eq_some_iff.1 told
  rw [grown, Event.pauses_concat, List.getElem?_append_left lt]
  exact told

namespace InStep

variable {k : Nat} {s : Stepping Log} {t : Trace} (h : InStep k s t)

include h

/-- Whether a node is taken is seen in the same way from both sides. -/
theorem head_eq : t.pending.head? = s.view.stack.head?.map Prod.fst := by
  rw [h.keys, List.head?_map]

/-- After an event short of the last one, the script is paused at it and told to go on. -/
theorem next {view view' : DebugView} {world : World} {t' : Trace} {e : Event}
    (short : t.events.length < k) (grown : t'.events = t.events ++ [e])
    (guarded : t'.guarded = t.guarded) (unstopped : t'.stopAt = t.stopAt)
    (keys : t'.pending = view'.stack.map Prod.fst)
    (texts : e.reopen (s.view.stack.map Prod.snd) = view'.stack.map Prod.snd) :
    InStep k ⟨view', (view, world) :: s.driver⟩ t' where
  guarded := guarded.trans h.guarded
  unstopped := unstopped.trans h.unstopped
  keys := keys
  texts := by rw [grown, List.foldl_append, h.texts]; exact texts
  asked := by rw [grown]; simp [h.asked]
  early := by rw [grown, List.length_append]; exact short

/-- At the last event the script is held. -/
theorem held {view : DebugView} {world : World} {t' : Trace} {e : Event}
    (last : ¬ t.events.length < k) (grown : t'.events = t.events ++ [e])
    (told : e.pause (s.view.stack.map Prod.snd) = view.pause world.heap) (view' : DebugView) :
    Held k ⟨view', (view, world) :: s.driver⟩ t' := by
  have length : t.events.length = k := by
    have := h.early
    omega
  refine ⟨view, world, s.driver, rfl, by rw [h.asked, length], ?_⟩
  rw [grown, Event.pauses_concat, h.texts, told]
  have at_end : k = (Event.pauses [] t.events).length := by rw [Event.pauses_length, length]
  rw [at_end]
  exact List.getElem?_concat_length

/-- What the controller says at the next pause. -/
theorem pause (view : DebugView) (world : World) :
    (Controller.playing (List.replicate (k + 1) .step)).pause ⟨world, ⟨view, s.driver⟩⟩ =
      (if t.events.length < k then .ok () else .error .halted,
        ⟨world, ⟨view, (view, world) :: s.driver⟩⟩) :=
  Controller.playing_pause h.asked view world

/-- Script and trace take a node together. -/
theorem entering (node : Node) (c : ContextId) (w : World) :
    Outcome.Beside (InStep k) (Held k)
      ((Controller.playing (List.replicate (k + 1) .step)).observer.entering node c ⟨w, s⟩)
      (Trace.observer.entering node c ⟨w, t⟩) := by
  have traced := Trace.enter_eq node c ⟨w, t⟩
  have stepped : (Controller.playing (List.replicate (k + 1) .step)).enter node c ⟨w, s⟩ =
      if s.view.stack.head?.map Prod.fst == some node.key then (.ok false, ⟨w, s⟩)
      else
        let view : DebugView := ⟨(node.key, node.text) :: s.view.stack, none, some c⟩
        (if t.events.length < k then .ok true else .error .halted,
          ⟨w, ⟨view, (view, w) :: s.driver⟩⟩) := by
    unfold Controller.enter
    dsimp only
    rw [h.pause]
    by_cases short : t.events.length < k
    · rw [if_pos short, if_pos short]
      rfl
    · rw [if_neg short, if_neg short]
      rfl
  dsimp only at traced
  rw [h.guarded, h.head_eq, Bool.true_and] at traced
  by_cases shown : (s.view.stack.head?.map Prod.fst == some node.key) = true
  · rw [if_pos shown] at traced stepped
    rw [Observer.entering_ok stepped, Observer.entering_ok traced]
    exact .alike _ _ h
  · have goes : (t.taking node (w.context c).level).stopped = false :=
      Trace.not_stopped h.unstopped
    rw [if_neg shown] at traced stepped
    rw [goes] at traced
    by_cases short : t.events.length < k
    · rw [if_pos short] at stepped
      rw [Observer.entering_ok stepped, Observer.entering_ok traced]
      refine .alike _ _ (h.next short (t.events_taking node _) rfl rfl ?_ rfl)
      exact congrArg (node.key :: ·) h.keys
    · rw [if_neg short] at stepped
      rw [Observer.entering_error stepped, Observer.entering_ok traced]
      exact .stopped _ _ _ (h.held short (t.events_taking node _) rfl _)

/-- Script and trace leave a node together. -/
theorem leaving (span : Span) (c : ContextId) (value : Value) (w : World) :
    Outcome.Beside (InStep k) (Held k)
      ((Controller.playing (List.replicate (k + 1) .step)).observer.leaving span c value ⟨w, s⟩)
      (Trace.observer.leaving span c value ⟨w, t⟩) := by
  have traced := Trace.leave_eq value c ⟨w, t⟩
  have goes : (t.leaving (w.heap.text value) (w.context c).level).stopped = false :=
    Trace.not_stopped h.unstopped
  dsimp only at traced
  rw [goes] at traced
  let view : DebugView := ⟨s.view.stack, some value, some c⟩
  let view' : DebugView := ⟨s.view.stack.drop 1, some value, some c⟩
  have paused := h.pause view w
  by_cases short : t.events.length < k
  · rw [if_pos short] at paused
    have stepped : (Controller.playing (List.replicate (k + 1) .step)).leave value c ⟨w, s⟩ =
        (.ok (), ⟨w, ⟨view', (view, w) :: s.driver⟩⟩) := by
      unfold Controller.leave
      dsimp only
      rw [paused]
    rw [Observer.leaving_ok stepped, Observer.leaving_ok traced]
    refine .alike _ _ (h.next short (t.events_leaving _ _) rfl rfl ?_ ?_)
    · change t.pending.drop 1 = (s.view.stack.drop 1).map Prod.fst
      rw [h.keys, List.map_drop]
    · exact (List.map_drop ..).symm
  · rw [if_neg short] at paused
    have stepped : (Controller.playing (List.replicate (k + 1) .step)).leave value c ⟨w, s⟩ =
        (.error .halted, ⟨w, ⟨view, (view, w) :: s.driver⟩⟩) := by
      unfold Controller.leave
      dsimp only
      rw [paused]
    rw [Observer.leaving_error stepped, Observer.leaving_ok traced]
    refine .stopped _ _ _ (h.held short (t.events_leaving _ _) ?_ _)
    unfold Event.pause DebugView.pause DebugView.node
    rcases s.view.stack with _ | ⟨⟨key, text⟩, rest⟩
    · rfl
    · rfl

end InStep

/-- A script that is stepped through and its trace go side by side, until the script is held. -/
theorem Trace.coupled (k : Nat) : Observer.Coupled (InStep k) (Held k)
    (Controller.playing (List.replicate (k + 1) .step)).observer Trace.observer where
  entering node c :=
    { beside := fun w _ _ h => h.entering node c w
      alone := fun s m held => by
        rw [Observer.entering_watch]
        change Held k s (Trace.enter node c m).2.watch
        rw [Trace.enter_eq]
        split
        · exact held
        · exact held.grow (m.watch.events_taking node _) }
  leaving span c value :=
    { beside := fun w _ _ h => h.leaving span c value w
      alone := fun s m held => by
        rw [Observer.leaving_watch]
        exact held.grow (m.watch.events_leaving _ _) }

/-! ### the last value -/

namespace Controller

variable {τ : Type} (k : Controller τ)

theorem pause_view (m : Machine (Stepping τ)) : (k.pause m).2.watch.view = m.watch.view := by
  unfold pause
  rcases k.resume m.watch.view m.world m.watch.driver with ⟨_ | _, _, _⟩
  · rfl
  · rfl

/-- The first node is always taken. -/
theorem enter_first {node : Node} {c : ContextId} {m m' : Machine (Stepping τ)} {taken : Bool}
    (first : m.watch.view.stack = []) (h : k.enter node c m = (.ok taken, m')) : taken = true := by
  unfold enter at h
  dsimp only at h
  rw [first, if_neg (by simp)] at h
  generalize k.pause _ = r at h
  rcases r with ⟨_ | _, _⟩
  · cases h
  · cases h
    rfl

/-- The value of the node that was left last can be looked at. -/
theorem leaving_last {span : Span} {c : ContextId} {value v : Value} {m m' : Machine (Stepping τ)}
    (h : k.observer.leaving span c value m = (.ok v, m')) : m'.watch.view.last = some v := by
  let view : DebugView := { m.watch.view with last := some value, context := some c }
  have seen := k.pause_view { m with watch := { m.watch with view } }
  have leaves : k.observer.leave value c m = k.leave value c m := rfl
  unfold Observer.leaving at h
  rw [leaves] at h
  unfold leave at h
  dsimp only at h
  generalize k.pause _ = r at h seen
  rcases r with ⟨_ | _, m₁⟩
  · cases h
  · cases h
    exact congrArg DebugView.last seen

/-- The value of an outermost node can be looked at once it was left. -/
theorem capture_last {node : Node} {c : ContextId} {x : Eval (Stepping τ) Value} {v : Value}
    {m m' : Machine (Stepping τ)} (first : m.watch.view.stack = [])
    (h : k.observer.capture node c x m = (.ok v, m')) : m'.watch.view.last = some v := by
  unfold Observer.capture at h
  rcases entered : k.observer.enter node c m with ⟨fault | taken, m₁⟩
  · rw [entered] at h
    cases h
  · rw [entered] at h
    obtain rfl : taken = true := k.enter_first first entered
    dsimp only [Eval.bind] at h
    generalize x m₁ = ran at h
    rcases ran with ⟨value | e | _ | _, m₂⟩
    · exact k.leaving_last h
    · cases h
    · cases h
    · cases h

end Controller

/-- A script that ends with a value leaves it as the last one that can be looked at. -/
theorem Program.debug_last {τ : Type} (p : Program) (k : Controller τ) (driver : τ) (fuel : Nat)
    (w : World) {v : Value} (h : (p.debug k driver fuel w).outcome = .ok v) :
    (p.debug k driver fuel w).view.last = some v := by
  revert h
  unfold Program.debug
  rcases k.resume {} w driver with ⟨_ | _, w', d⟩
  · intro h
    exact k.capture_last rfl (Prod.ext h rfl)
  · intro h
    cases h

/-! ### what a script does next -/

theorem Program.debug_mono {τ : Type} (p : Program) (k : Controller τ) (driver : τ) (w : World)
    {m n : Nat} (hmn : m ≤ n) (h : (p.debug k driver m w).outcome ≠ .exhausted) :
    p.debug k driver n w = p.debug k driver m w := by
  revert h
  unfold Program.debug
  rcases k.resume {} w driver with ⟨_ | _, w', d⟩
  · intro h
    have same := Session.rest_extends k.observer { program := p, context := w'.newGlobal.1 } hmn
      ⟨w'.newGlobal.2, ⟨{}, d⟩⟩ h
    dsimp only [Program.runWith]
    rw [same]
  · intro _
    rfl

/-- What a script does once it was given some commands: it is held at a pause, or it ends. -/
inductive Act where
  | pause (view : DebugView) (world : World)
  | finish (outcome : Outcome Value) (view : DebugView) (world : World)

namespace Act

/-- What can be looked at afterwards. -/
def view : Act → DebugView
  | pause v _ => v
  | finish _ v _ => v

/-- The world afterwards. -/
def world : Act → World
  | pause _ w => w
  | finish _ _ w => w

end Act

/-- What a script did that was given `received` commands: it is held if it asked for one more. -/
def Debugged.act (r : Debugged Log) (received : Nat) : Act :=
  match r.driver with
  | (view, world) :: earlier =>
    if earlier.length = received then .pause view world
    else .finish r.outcome r.view r.world
  | [] => .finish r.outcome r.view r.world

/-- What a script does once it was given some commands, with fuel enough to get there. -/
def Program.ActsWithin (p : Program) (w : World) (fuel : Nat) (received : List Resume) (a : Act) :
    Prop :=
  (p.debug (.playing received) [] fuel w).outcome ≠ .exhausted ∧
    (p.debug (.playing received) [] fuel w).act received.length = a

/-- What a script does once it was given some commands. -/
def Program.Acts (p : Program) (w : World) (received : List Resume) (a : Act) : Prop :=
  ∃ fuel, p.ActsWithin w fuel received a

theorem Debugged.act_cons {r : Debugged Log} {view : DebugView} {world : World} {earlier : Log}
    (driver : r.driver = (view, world) :: earlier) (received : Nat) :
    r.act received = if earlier.length = received then .pause view world
      else .finish r.outcome r.view r.world := by
  unfold Debugged.act
  rw [driver]

theorem Debugged.outcome_of_act {r : Debugged Log} {received : Nat} {outcome : Outcome Value}
    {view : DebugView} {world : World} (h : r.act received = .finish outcome view world) :
    outcome = r.outcome := by
  unfold Debugged.act at h
  split at h
  · split at h
    · cases h
    · cases h
      rfl
  · cases h
    rfl

/-- With as many steps as there are events, or fewer, a script is held; with more of them it does
what it does without a debugger. -/
inductive Program.Plays (p : Program) (w : World) (k fuel : Nat) (r : Debugged Log) : Prop
  | held (e : RuntimeError) (view : DebugView) (world : World) (earlier : Log)
    (more : k < (p.events fuel w).length) (outcome : r.outcome = .error e)
    (driver : r.driver = (view, world) :: earlier) (length : earlier.length = k + 1)
    (told : (Event.pauses [] (p.events fuel w))[k]? = some (view.pause world.heap))
  | through (view : DebugView) (world : World) (earlier : Log)
    (fewer : (p.events fuel w).length ≤ k) (outcome : r.outcome = (p.run fuel w).1)
    (world_eq : r.world = (p.run fuel w).2)
    (driver : r.driver = (view, world) :: earlier) (length : earlier.length ≤ k)

theorem Program.plays (p : Program) (w : World) (k fuel : Nat) :
    p.Plays w k fuel (p.debug (.playing (List.replicate (k + 1) .step)) [] fuel w) := by
  have plain := p.trace_run true fuel w
  have ran := p.beside_of_capture (Trace.coupled k).capture
    (s := ⟨{}, [({}, w)]⟩) (t := { guarded := true })
    { guarded := rfl, unstopped := rfl, keys := rfl, texts := rfl, asked := rfl,
      early := Nat.zero_le k } fuel w
  have begins : p.debug (.playing (List.replicate (k + 1) .step)) [] fuel w =
      let (outcome, m) := p.runWith
        (Controller.playing (List.replicate (k + 1) .step)).observer ⟨{}, [({}, w)]⟩ fuel w
      ⟨outcome, m.watch.view, m.world, m.watch.driver⟩ := rfl
  have events : p.events fuel w =
      (p.runWith Trace.observer { guarded := true } fuel w).2.watch.events := rfl
  rw [begins]
  generalize p.runWith (Controller.playing _).observer _ fuel w = rx at ran ⊢
  generalize p.runWith Trace.observer { guarded := true } fuel w = ry at ran plain events
  cases ran with
  | @alike s t o w' along =>
    obtain ⟨⟨view, world⟩, earlier, driver⟩ := List.exists_cons_of_length_eq_add_one along.asked
    have length : earlier.length = t.events.length := by
      have asked := along.asked
      rw [driver] at asked
      simpa using asked
    have early := along.early
    refine .through view world earlier ?_ plain.1 plain.2 driver (by omega)
    rw [events]
    exact early
  | stopped e w' _ held =>
    obtain ⟨view, world, earlier, driver, length, told⟩ := held
    rw [← events] at told
    refine .held e view world earlier ?_ rfl driver length told
    have := (List.getElem?_eq_some_iff.1 told).1
    rwa [Event.pauses_length] at this

namespace Program

variable {p : Program} {w : World} {k fuel : Nat}

theorem ActsWithin.mono {received : List Resume} {a : Act} {n : Nat} (hn : fuel ≤ n)
    (h : p.ActsWithin w fuel received a) : p.ActsWithin w n received a := by
  unfold ActsWithin
  rw [p.debug_mono (.playing received) [] w hn h.1]
  exact h

/-- A script does one thing only. -/
theorem Acts.unique {received : List Resume} {a b : Act} (ha : p.Acts w received a)
    (hb : p.Acts w received b) : a = b := by
  obtain ⟨m, ha⟩ := ha
  obtain ⟨n, hb⟩ := hb
  exact (ha.mono (Nat.le_max_left m n)).2.symm.trans (hb.mono (Nat.le_max_right m n)).2

/-- A script never ends for want of fuel. -/
theorem Acts.outcome_ne {received : List Resume} {outcome : Outcome Value} {view : DebugView}
    {world : World} (h : p.Acts w received (.finish outcome view world)) : outcome ≠ .exhausted := by
  obtain ⟨fuel, ended, acts⟩ := h
  rw [Debugged.outcome_of_act acts]
  exact ended

/-- With steps enough for event `k` a script is held there. -/
theorem actsWithin_of_event (more : k < (p.events fuel w).length) :
    ∃ view world, p.ActsWithin w fuel (List.replicate (k + 1) .step) (.pause view world) ∧
      (Event.pauses [] (p.events fuel w))[k]? = some (view.pause world.heap) := by
  cases p.plays w k fuel with
  | through _ _ _ fewer => omega
  | held e view world earlier _ outcome driver length told =>
    refine ⟨view, world, ⟨by rw [outcome]; simp, ?_⟩, told⟩
    rw [Debugged.act_cons driver, if_pos (by simpa using length)]

/-- With more steps than there are events a script ends as it does without a debugger. -/
theorem actsWithin_of_end (fewer : (p.events fuel w).length ≤ k)
    (ended : (p.run fuel w).1 ≠ .exhausted) :
    ∃ view, p.ActsWithin w fuel (List.replicate (k + 1) .step)
        (.finish (p.run fuel w).1 view (p.run fuel w).2) ∧
      ∀ v, (p.run fuel w).1 = .ok v → view.last = some v := by
  cases p.plays w k fuel with
  | held _ _ _ _ more => omega
  | through view world earlier _ outcome world_eq driver length =>
    have differ : ¬ earlier.length = (List.replicate (k + 1) Resume.step).length := by
      rw [List.length_replicate]
      omega
    refine ⟨_, ⟨by rw [outcome]; exact ended, ?_⟩, fun v value =>
      p.debug_last _ _ _ _ (outcome.trans value)⟩
    rw [Debugged.act_cons driver, if_neg differ, outcome, world_eq]

theorem ActsWithin.run_ended {a : Act} (fewer : (p.events fuel w).length ≤ k)
    (h : p.ActsWithin w fuel (List.replicate (k + 1) .step) a) : (p.run fuel w).1 ≠ .exhausted := by
  cases p.plays w k fuel with
  | held _ _ _ _ more => omega
  | through _ _ _ _ outcome => exact outcome ▸ h.1

theorem ActsWithin.eq {received : List Resume} {a b : Act} (ha : p.ActsWithin w fuel received a)
    (hb : p.ActsWithin w fuel received b) : a = b :=
  ha.2.symm.trans hb.2

/-- Event `k` of the guarded trace of a script, whichever fuel it is traced with. -/
def Tells (p : Program) (w : World) (k : Nat) (pause : Pause) : Prop :=
  (∃ fuel, k < (p.events fuel w).length) ∧
    ∀ fuel, k < (p.events fuel w).length → (Event.pauses [] (p.events fuel w))[k]? = some pause

/-- A run of a script without a debugger ends with an outcome in a world, and its guarded trace has
`k` events. -/
def EndsAfter (p : Program) (w : World) (k : Nat) (outcome : Outcome Value) (world : World) : Prop :=
  outcome ≠ .exhausted ∧ ∃ fuel, p.run fuel w = (outcome, world) ∧ (p.events fuel w).length = k

/-- The evaluation of a script between two pauses always comes to an end. -/
def Steppable (p : Program) (w : World) : Prop :=
  ∀ k, ∃ a, p.Acts w (List.replicate (k + 1) .step) a

theorem Steppable.of_run (ended : (p.run fuel w).1 ≠ .exhausted) : p.Steppable w := by
  intro k
  rcases Nat.lt_or_ge k (p.events fuel w).length with more | fewer
  · obtain ⟨view, world, acts, _⟩ := actsWithin_of_event more
    exact ⟨_, fuel, acts⟩
  · obtain ⟨view, acts, _⟩ := actsWithin_of_end fewer ended
    exact ⟨_, fuel, acts⟩

/-- Before its first command a script is held as it was made. -/
theorem acts_nil (p : Program) (w : World) : p.Acts w [] (.pause {} w) :=
  ⟨0, by simp [Program.debug, Controller.playing], rfl⟩

/-- **Stepping shows the events of the guarded trace in turn.** -/
theorem Acts.tells {view : DebugView} {world : World}
    (h : p.Acts w (List.replicate (k + 1) .step) (.pause view world)) :
    p.Tells w k (view.pause world.heap) := by
  obtain ⟨fuel, acts⟩ := h
  refine ⟨⟨fuel, ?_⟩, fun fuel' more => ?_⟩
  · refine Nat.lt_of_not_le fun fewer => ?_
    obtain ⟨_, ends, _⟩ := actsWithin_of_end fewer (acts.run_ended fewer)
    cases acts.eq ends
  · obtain ⟨view', world', acts', told⟩ := actsWithin_of_event more
    cases Acts.unique ⟨fuel, acts⟩ ⟨fuel', acts'⟩
    exact told

/-- **A script that is stepped through ends where its trace does and as it does without a
debugger.** -/
theorem Acts.ends {outcome : Outcome Value} {view view' : DebugView} {world world' : World}
    (before : p.Acts w (List.replicate k .step) (.pause view' world'))
    (h : p.Acts w (List.replicate (k + 1) .step) (.finish outcome view world)) :
    p.EndsAfter w k outcome world ∧ ∀ v, outcome = .ok v → view.last = some v := by
  obtain ⟨fuel, acts⟩ := h
  have fewer : (p.events fuel w).length ≤ k := by
    refine Nat.le_of_not_lt fun more => ?_
    obtain ⟨_, _, held, _⟩ := actsWithin_of_event more
    cases acts.eq held
  have ended := acts.run_ended fewer
  -- With one event less the script would have ended at the step before.
  have exactly : (p.events fuel w).length = k := by
    refine Nat.le_antisymm fewer (Nat.le_of_not_lt fun short => ?_)
    obtain ⟨j, rfl⟩ : ∃ j, k = j + 1 := ⟨k - 1, by omega⟩
    obtain ⟨_, ends, _⟩ := actsWithin_of_end (k := j) (by omega) ended
    cases Acts.unique before ⟨fuel, ends⟩
  obtain ⟨_, ends, last⟩ := actsWithin_of_end fewer ended
  cases acts.eq ends
  exact ⟨⟨ended, fuel, rfl, exactly⟩, last⟩

/-- **A script that is told to quit ends at once, with an error.** -/
theorem Acts.ends_of_quit {view : DebugView} {world : World}
    (before : p.Acts w (List.replicate k .step) (.pause view world)) :
    ∃ e view' world', p.Acts w (List.replicate k .step ++ [.quit])
      (.finish (.error e) view' world') := by
  cases k with
  | zero => exact ⟨_, _, _, 0, by simp [Program.debug, Controller.playing], rfl⟩
  | succ k =>
    obtain ⟨fuel, more⟩ := before.tells.1
    cases p.plays w k fuel with
    | through _ _ _ fewer => omega
    | held e view' world' earlier _ outcome driver length _ =>
      rw [← Controller.playing_concat_quit] at outcome driver
      have acts := Debugged.act_cons driver
        (List.replicate (k + 1) Resume.step ++ [Resume.quit]).length
      rw [if_neg (by simp [length]), outcome] at acts
      exact ⟨e, _, _, fuel, by rw [outcome]; simp, acts⟩

end Program

end Roteiro
