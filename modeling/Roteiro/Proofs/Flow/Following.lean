import Roteiro.Proofs.Flow.Signals

/-!
What follows structured control flow. Each part of the evaluator that opens a scope, a loop or a call,
or that polls the frames, follows its structured counterpart: scopes and bodies (`Follows.inScope`,
`Follows.body`), rounds of loops (`Follows.round`, `Follows.again`) and calls
(`Eval.Mirrors.callClosure`).
-/

namespace Roteiro

open Eval World

variable {α β γ : Type}

/-! ### scopes -/

/-- Ends a round of a loop: its frame is taken off and its scope is left. -/
def World.endRound (c : ContextId) : Effect LoopFrame :=
  fun w => ((w.popLoop c).1, (w.popLoop c).2.leaveScope c)

/-- What is closed with frames is left in bare contexts. -/
theorem Matches.closing {c : ContextId} {f f' : Frames} {signal signal' : β → Flow} {read : β → α}
    {read' : β → γ} {x : Eval Unit α} {m : Machine Unit} {r : Outcome β × Machine Unit} (span : Span)
    {close : Effect γ} {leave : World → World} (h : Matches c f signal read (x m) r)
    (hl : ∀ w, (close w).2.through Contexts.bare = leave (w.through Contexts.bare))
    (ok : ∀ (b : β) (m' : Machine Unit), c < m'.world.contexts.size →
      (signal b).Marks f (m'.world.context c).frames →
      ∃ w', close m'.world = (.ok (read' b), w') ∧ c < w'.contexts.size ∧
        (signal' b).Marks f' (w'.context c).frames) :
    Matches c f' signal' read' (Eval.closing span x close m) (Structured.leaving leave r) := by
  have left : ∀ m' : Machine Unit, (⟨(close m'.world).2, ()⟩ : Machine Unit).through Contexts.bare =
      ⟨leave (m'.world.through Contexts.bare), ()⟩ :=
    fun m' => congrArg (Machine.mk · ()) (hl m'.world)
  unfold Eval.closing
  generalize x m = r₀ at h ⊢
  cases h with
  | ok b m' live marks =>
    obtain ⟨w', closed, live', marks'⟩ := ok b m' live marks
    have result : Matches c f' signal' read' _ _ := .ok b ⟨w', ()⟩ live' marks'
    have same := left m'
    rw [closed] at same
    rw [same] at result
    change Matches c f' signal' read' (Eval.perform span close m') _
    unfold Eval.perform
    rw [closed]
    exact result
  | error e m' =>
    have result : Matches c f' signal' read' _ _ := .error e ⟨(close m'.world).2, ()⟩
    rw [left] at result
    exact result
  | exhausted m' =>
    have result : Matches c f' signal' read' _ _ := .exhausted ⟨(close m'.world).2, ()⟩
    rw [left] at result
    exact result
  | aborted m' => exact .aborted m'

section Within

variable {c : ContextId} {y : Eval Unit α} {m : Machine Unit}

/-- Levels are kept in bare contexts, so a scope is opened there if it is in those with frames. -/
theorem Structured.within_of_full (full : (m.world.context c).full = true) :
    within c y (m.through Contexts.bare) = (.aborted, m.through Contexts.bare) :=
  if_pos ((full_through c m.world).trans full)

theorem Structured.within_of_free (free : (m.world.context c).full = false) :
    within c y (m.through Contexts.bare) =
      leaving (World.leaveScope c) (y ⟨(m.world.through Contexts.bare).enterScope c, ()⟩) :=
  if_neg (Bool.eq_false_iff.1 ((full_through c m.world).trans free))

end Within

namespace Follows

variable {c : ContextId} {signal : β → Flow} {read : β → α}

theorem inScope (span : Span) {x : Eval Unit Unit} {y : Place → Eval Unit Flow}
    (h : Follows c id (fun _ => ()) x y) :
    Follows c id (fun _ => ()) (Eval.inScope c span x) fun p => Structured.within c (y p) := by
  intro m hc calm
  dsimp only
  unfold Eval.inScope
  cases full : (m.world.context c).full with
  | true =>
    rw [bind_aborted (openScope_of_full full), Structured.within_of_full full]
    exact .aborted m
  | false =>
  rw [bind_ok (openScope_of_free full), Structured.within_of_free full]
  have entered : At c (fun a b => b = a.enter) m.world (m.world.enterScope c) := .update hc _
  have frames : ((m.world.enterScope c).context c).frames = (m.world.context c).frames := by
    rw [entered.here]
    rfl
  have ran := h ⟨m.world.enterScope c, ()⟩ (Nat.lt_of_lt_of_le hc entered.size)
    (by rw [frames]; exact calm)
  have bare : (⟨m.world.enterScope c, ()⟩ : Machine Unit).through Contexts.bare =
      ⟨(m.world.through Contexts.bare).enterScope c, ()⟩ :=
    congrArg (Machine.mk · ()) (through_enterScope c m.world)
  rw [frames, bare] at ran
  refine ran.closing span (through_leaveScope c) fun b m' live marks => ⟨_, rfl, ?_⟩
  have left : At c (fun a b => b = a.leave) m'.world (m'.world.leaveScope c) := .update live _
  refine ⟨Nat.lt_of_lt_of_le live left.size, ?_⟩
  rw [left.here]
  exact marks

theorem body {x : Statement → Eval Unit Value} {y : Place → Statement → Eval Unit Flow}
    (h : ∀ s, Follows c id Flow.value (x s) fun p => y p s) (ss : List Statement) :
    Follows c id (fun _ => ()) (Eval.body x c ss) fun p => Structured.sequence (y p) ss := by
  induction ss with
  | nil => exact pure (Flow.normal .null) fun f => .normal _ f
  | cons s ss ih =>
    intro m hc calm
    refine (h s m hc calm).bind fun flow m' live marks => ?_
    -- The body polls its context, which tells whether the statement has ended with a value.
    have polled : (m'.world.context c).interrupted = flow.stops := marks.interrupted calm
    change Matches c _ id _
      ((if (m'.world.context c).interrupted then Eval.pure () else Eval.body x c ss) m') _
    rw [polled]
    cases flow with
    | normal v =>
      have same := marks.of_normal
      have next := ih m' live (by rw [same]; exact calm)
      rw [same] at next
      exact next
    | breaking => exact .ok _ m' live marks
    | continuing => exact .ok _ m' live marks
    | returning values => exact .ok _ m' live marks

theorem void {x : Eval Unit Unit} {y : Place → Eval Unit Flow}
    (h : Follows c id (fun _ => ()) x y) :
    Follows c id Flow.value (x >>= fun _ => Pure.pure .null) fun p => Structured.void (y p) := by
  intro m hc calm
  refine (h m hc calm).bind fun flow m' live marks => ?_
  cases flow with
  | normal v =>
    refine .ok (Flow.normal .null) m' live ?_
    rw [marks.of_normal]
    exact .normal _ _
  | breaking => exact .ok Flow.breaking m' live marks
  | continuing => exact .ok Flow.continuing m' live marks
  | returning values => exact .ok (Flow.returning values) m' live marks

/-- A statement that leaves a signal where it may, and fails elsewhere. -/
theorem signalled (span : Span) {mark : Context → Except RuntimeFault Context} {flow : Flow}
    {fault : RuntimeFault} {allowed : Place → Bool} (silent : flow.value = .null)
    (ok : ∀ a : Context, a.frames.Calm → allowed a.frames.place →
      ∃ d, mark a = .ok d ∧ flow.Marks a.frames d.frames ∧ d.bare = a.bare)
    (no : ∀ a : Context, allowed a.frames.place = false → mark a = .error fault) :
    Follows c id Flow.value
      (Eval.perform span (World.onContext c mark) >>= fun _ => Pure.pure .null)
      fun p => if allowed p then Pure.pure flow else Eval.raise fault span := by
  intro m hc calm
  change Matches c _ id Flow.value (Eval.bind (Eval.perform span (World.onContext c mark)) _ m)
    ((if allowed _ then Eval.pure flow else Eval.raise fault span) (m.through Contexts.bare))
  unfold Eval.bind Eval.perform
  cases here : allowed (m.world.context c).frames.place with
  | true =>
    obtain ⟨d, hd, marks, bare⟩ := ok _ calm here
    rcases onContext_cases c mark m.world with ⟨d', hd', done⟩ | ⟨fault', failed, -⟩
    · obtain rfl : d = d' := Except.ok.inj (hd.symm.trans hd')
      have set := At.set hc d
      have same : (⟨{ m.world with contexts := m.world.contexts.setIfInBounds c d }, ()⟩ :
          Machine Unit).through Contexts.bare = m.through Contexts.bare :=
        congrArg (Machine.mk · ()) (through_setFrames bare)
      have result : Matches c (m.world.context c).frames id Flow.value _ _ :=
        .ok flow ⟨{ m.world with contexts := m.world.contexts.setIfInBounds c d }, ()⟩
          (Nat.lt_of_lt_of_le hc set.size) (by rw [set.here]; exact marks)
      rw [same, silent] at result
      rw [done]
      exact result
    · rw [hd] at failed
      cases failed
  | false =>
    have failing := no _ here
    rcases onContext_cases c mark m.world with ⟨d', hd', -⟩ | ⟨fault', failed, unchanged⟩
    · rw [failing] at hd'
      cases hd'
    · obtain rfl : fault = fault' := Except.error.inj (failing.symm.trans failed)
      rw [unchanged]
      exact .error ⟨fault, span⟩ m

/-- A signal to the innermost loop. -/
theorem looping (span : Span) {mark : LoopFrame → LoopFrame} {flow : Flow}
    (silent : flow.value = .null)
    (marks : ∀ rest calls, flow.Marks ⟨{} :: rest, calls⟩ ⟨mark {} :: rest, calls⟩) :
    Follows c id Flow.value
      (Eval.perform span (World.onContext c (·.signal mark)) >>= fun _ => Pure.pure .null)
      fun p => if p.inLoop then Pure.pure flow else Eval.raise .noLoop span := by
  refine signalled span silent (fun a calm here => ?_) fun a outside => ?_
  · obtain ⟨locals, level, loops, calls, parent⟩ := a
    cases loops with
    | nil => cases here
    | cons frame rest =>
      obtain rfl := calm.loops frame rfl
      exact ⟨_, rfl, marks rest calls, rfl⟩
  · obtain ⟨locals, level, loops, calls, parent⟩ := a
    cases loops with
    | nil => rfl
    | cons frame rest => cases outside

theorem returning (span : Span) (vs : List Value) :
    Follows c id Flow.value
      (Eval.perform span (World.onContext c (·.pushReturns (if vs.isEmpty then [.null] else vs)))
        >>= fun _ => Pure.pure .null)
      fun p => if p.inCall then Pure.pure (.returning vs) else Eval.raise .noFunction span := by
  refine signalled span rfl (fun a calm here => ?_) fun a outside => ?_
  · obtain ⟨locals, level, loops, calls, parent⟩ := a
    cases calls with
    | nil => cases here
    | cons returned rest =>
      obtain rfl := calm.calls returned rfl
      exact ⟨_, rfl, .returning vs loops rest, rfl⟩
  · obtain ⟨locals, level, loops, calls, parent⟩ := a
    cases calls with
    | nil => rfl
    | cons returned rest => cases outside

/-! ### rounds -/

/-- After the body of a round, the frames tell whether the step is to be taken. -/
theorem stepping {x : Eval Unit Unit} {y : Place → Eval Unit Flow}
    (h : Follows c id (fun _ => ()) x y) {step step' : Eval Unit Value} (hs : Aligned step step') :
    Follows c id (fun _ => ())
      (do x; if ← Eval.ask fun w => (w.context c).hasReturned then Pure.pure () else
        let _ ← step
        Pure.pure ())
      fun p => y p >>= Structured.stepping (some step') := by
  intro m hc calm
  refine (h m hc calm).bind fun flow m' live marks => ?_
  have polled : (m'.world.context c).hasReturned = flow.returns := marks.hasReturned calm
  change Matches c _ id _ ((if (m'.world.context c).hasReturned then Eval.pure () else
    step >>= fun _ => Eval.pure ()) m') _
  rw [polled]
  -- A step keeps the frames, so the signal of the body stays.
  have stepped : Matches c (m.world.context c).frames id (fun _ => ())
      ((step >>= fun _ => Eval.pure ()) m')
      ((step' >>= fun _ => Eval.pure flow) (m'.through Contexts.bare)) := by
    refine (Matches.of_aligned hs m' live).bind fun v m'' live' same => .ok flow m'' live' ?_
    rw [same.of_normal]
    exact marks
  cases flow with
  | normal v => exact stepped
  | breaking => exact stepped
  | continuing => exact stepped
  | returning values => exact .ok _ m' live marks

/-- A round opens a scope and a frame, in which a break or a continuation of the body is caught. -/
theorem framed (span : Span) {x : Eval Unit Unit} {y : Place → Eval Unit Flow}
    (h : Follows c id (fun _ => ()) x y) :
    Follows c Flow.caught Flow.goesOn
      (do
        Eval.openScope c
        Eval.change (World.update c Context.pushLoop)
        let frame ← Eval.closing span x fun w =>
          let (frame, w) := w.popLoop c
          (frame, w.leaveScope c)
        Eval.ask fun w => !frame.broken && !(w.context c).hasReturned)
      fun p => Structured.within c (y p.loop) := by
  intro m hc calm
  dsimp only
  cases full : (m.world.context c).full with
  | true =>
    rw [bind_aborted (openScope_of_full full), Structured.within_of_full full]
    exact .aborted m
  | false =>
  rw [bind_ok (openScope_of_free full), Structured.within_of_free full]
  have entered : At c (fun a b => b = a.enter) m.world (m.world.enterScope c) := .update hc _
  have pushed : At c (fun a b => b = a.pushLoop) (m.world.enterScope c)
      ((m.world.enterScope c).update c Context.pushLoop) :=
    .update (Nat.lt_of_lt_of_le hc entered.size) _
  have frames : (((m.world.enterScope c).update c Context.pushLoop).context c).frames =
      ⟨{} :: (m.world.context c).frames.loops, (m.world.context c).frames.calls⟩ := by
    rw [pushed.here, entered.here]
    rfl
  have bare : (⟨(m.world.enterScope c).update c Context.pushLoop, ()⟩ : Machine Unit).through
      Contexts.bare = ⟨(m.world.through Contexts.bare).enterScope c, ()⟩ :=
    congrArg (Machine.mk · ())
      ((through_pushLoop c (m.world.enterScope c)).trans (through_enterScope c m.world))
  have ran := h ⟨(m.world.enterScope c).update c Context.pushLoop, ()⟩
    (Nat.lt_of_lt_of_le pushed.live pushed.size) (by rw [frames]; exact calm.loop)
  rw [frames, bare] at ran
  have left (w : World) : ((w.popLoop c).2.leaveScope c).through Contexts.bare =
      (w.through Contexts.bare).leaveScope c := by
    rw [through_leaveScope, through_popLoop]
  have closed : Matches c (m.world.context c).frames Flow.caught Flow.frame
      (Eval.closing span x (endRound c) ⟨(m.world.enterScope c).update c Context.pushLoop, ()⟩)
      (Structured.leaving (World.leaveScope c) (y (m.world.context c).frames.place.loop
        ⟨(m.world.through Contexts.bare).enterScope c, ()⟩)) := by
    refine ran.closing span left fun flow m' live marks => ?_
    obtain ⟨loops, outside⟩ := marks.framed
    have popped : (m'.world.context c).popLoop =
        .ok (flow.frame, { m'.world.context c with loops := (m.world.context c).loops }) := by
      unfold Context.popLoop
      change (m'.world.context c).loops = _ at loops
      rw [loops]
      rfl
    have off := At.popLoop live popped
    have out : At c (fun a b => b = a.leave) (m'.world.popLoop c).2
        ((m'.world.popLoop c).2.leaveScope c) := .update (Nat.lt_of_lt_of_le live off.size) _
    refine ⟨(m'.world.popLoop c).2.leaveScope c, ?_, Nat.lt_of_lt_of_le out.live out.size, ?_⟩
    · have frame : (m'.world.popLoop c).1 = .ok flow.frame := by
        unfold World.popLoop
        rw [popped]
      unfold endRound
      rw [frame]
    · rw [out.here, off.here]
      exact outside
  refine closed.reading fun flow m' marks => ?_
  have polled : (m'.world.context c).hasReturned = flow.caught.returns := marks.hasReturned calm
  change (Outcome.ok (!flow.frame.broken && !(m'.world.context c).hasReturned), m') = _
  rw [polled]
  cases flow with
  | normal v => rfl
  | breaking => rfl
  | continuing => rfl
  | returning values => rfl

theorem round (span : Span) {x : Statement → Eval Unit Value}
    {y : Place → Statement → Eval Unit Flow} (h : ∀ s, Follows c id Flow.value (x s) fun p => y p s)
    (ss : List Statement) {step step' : Option (Eval Unit Value)}
    (hs : Option.Rel Aligned step step') :
    Follows c Flow.caught Flow.goesOn (Eval.round x c span ss step)
      fun p => Structured.round c (y p.loop) ss step' := by
  have ran := body h ss
  cases hs with
  | none =>
    refine framed span (y := fun p => Structured.sequence (y p) ss >>= Structured.stepping none) ?_
    intro m hc calm
    refine (ran m hc calm).bind fun flow m' live marks => ?_
    cases flow with
    | normal v => exact .ok _ m' live marks
    | breaking => exact .ok _ m' live marks
    | continuing => exact .ok _ m' live marks
    | returning values => exact .ok _ m' live marks
  | some hs => exact framed span (stepping ran hs)

/-- A loop goes on, ends or returns as its last round tells. -/
theorem again {x : Eval Unit Bool} {y : Place → Eval Unit Flow}
    (h : Follows c Flow.caught Flow.goesOn x y) {next : Eval Unit Unit}
    {next' : Place → Eval Unit Flow} (hn : Follows c id (fun _ => ()) next next') :
    Follows c id (fun _ => ()) (x >>= fun more => if more then next else Pure.pure ())
      fun p => y p >>= Structured.after (next' p) := by
  intro m hc calm
  refine (h m hc calm).bind fun flow m' live marks => ?_
  have goOn (same : (m'.world.context c).frames = (m.world.context c).frames) :=
    hn m' live (by rw [same]; exact calm)
  cases flow with
  | normal v =>
    have same := marks.of_normal
    have on := goOn same
    rw [same] at on
    exact on
  | continuing =>
    have same := marks.of_normal
    have on := goOn same
    rw [same] at on
    exact on
  | breaking => exact .ok (Flow.normal .null) m' live marks
  | returning values => exact .ok (Flow.returning values) m' live marks

end Follows

/-! ### calls -/

namespace Flow

/-- The values that a call has returned whose body ended in this way. -/
def values : Flow → List Value
  | .returning values => returned values
  | _ => []

theorem headD_values (flow : Flow) : flow.values.headD .null = Structured.result flow := by
  cases flow with
  | returning values =>
    cases values with
    | nil => rfl
    | cons v vs => rfl
  | _ => rfl

theorem Marks.called {flow : Flow} {f : Frames} (h : flow.Marks ⟨[], [[]]⟩ f) :
    f = ⟨[], [flow.values]⟩ := by
  cases h with
  | normal v _ => rfl
  | returning values _ _ => rfl

end Flow

/-- Results that match are the same, once the structured one is read. -/
theorem Matches.eq {c : ContextId} {f : Frames} {signal : β → Flow} {read : β → α}
    {r : Outcome α × Machine Unit} {y : Eval Unit β} {n : Machine Unit}
    (h : Matches c f signal read r (y n)) :
    (y >>= fun b => pure (read b)) n = (r.1, r.2.through Contexts.bare) := by
  change Eval.bind y _ n = _
  unfold Eval.bind
  generalize y n = r' at h ⊢
  cases h with
  | ok b m' _ _ => rfl
  | error e m' => rfl
  | exhausted m' => rfl
  | aborted m' => rfl

theorem Structured.leaving_id (r : Outcome β × Machine Unit) : leaving id r = r := by
  rcases r with ⟨a | e | _ | _, m⟩
  · rfl
  · rfl
  · rfl
  · rfl

theorem Follows.parameters (c : ContextId) (ps : List Ident) (vs : List Value) :
    Follows c Flow.still id (Eval.parameters c ps vs) fun _ => Eval.parameters c ps vs := by
  induction ps generalizing vs with
  | nil => exact pure () fun f => .normal _ f
  | cons p ps ih =>
    cases vs with
    | nil => exact pure () fun f => .normal _ f
    | cons v vs => exact bind (define p.span p.text v) fun _ => ih vs

/-- A call opens a frame in a context without frames, in which the values returned are collected. -/
theorem Follows.called {c : ContextId} {x : Eval Unit Unit} {y : Place → Eval Unit Flow}
    (h : Follows c id (fun _ => ()) x y) (span : Span) {w : World} (hc : c < w.contexts.size)
    (none : (w.context c).frames = ⟨[], []⟩) :
    Matches c ⟨[], []⟩ Flow.still Flow.values
      (Eval.closing span x (World.popCall c) ⟨w.update c Context.pushCall, ()⟩)
      (y .routine ⟨w.through Contexts.bare, ()⟩) := by
  have pushed : At c (fun a b => b = a.pushCall) w (w.update c Context.pushCall) := .update hc _
  have frames : ((w.update c Context.pushCall).context c).frames = ⟨[], [[]]⟩ := by
    rw [pushed.here]
    exact congrArg (fun f : Frames => (⟨f.loops, [] :: f.calls⟩ : Frames)) none
  have bare : (⟨w.update c Context.pushCall, ()⟩ : Machine Unit).through Contexts.bare =
      ⟨w.through Contexts.bare, ()⟩ := congrArg (Machine.mk · ()) (through_pushCall c w)
  have ran := h ⟨w.update c Context.pushCall, ()⟩ (Nat.lt_of_lt_of_le hc pushed.size)
    (by rw [frames]; exact ⟨by simp, by simp⟩)
  rw [frames, bare] at ran
  have closed : Matches c ⟨[], []⟩ Flow.still Flow.values
      (Eval.closing span x (World.popCall c) ⟨w.update c Context.pushCall, ()⟩)
      (Structured.leaving id (y .routine ⟨w.through Contexts.bare, ()⟩)) := by
    refine ran.closing span (through_popCall c) fun flow m' live marks => ?_
    have called := marks.called
    have loops : (m'.world.context c).loops = [] := congrArg Frames.loops called
    have calls : (m'.world.context c).calls = [flow.values] := congrArg Frames.calls called
    have popped : (m'.world.context c).popCall =
        .ok (flow.values, { m'.world.context c with calls := [] }) := by
      unfold Context.popCall
      rw [calls]
    have off := At.popCall live popped
    refine ⟨(m'.world.popCall c).2, ?_, Nat.lt_of_lt_of_le live off.size, ?_⟩
    · unfold World.popCall
      rw [popped]
    · rw [off.here]
      unfold Context.frames
      rw [loops]
      exact .normal _ _
  rw [Structured.leaving_id] at closed
  exact closed

theorem Eval.Mirrors.callClosure {x : Statement → ContextId → Eval Unit Value}
    {y : Place → Statement → ContextId → Eval Unit Flow}
    (h : ∀ s c, Follows c id Flow.value (x s c) fun p => y p s c) (f : Closure) (vs : List Value)
    (span : Span) :
    Mirrors Contexts.bare (Eval.callClosure x f vs span) (Structured.call (y .routine) f vs) := by
  intro m
  have inner (c : ContextId) : Follows c id (fun _ => ())
      (Eval.parameters c f.routine.parameters vs >>= fun _ =>
        Eval.body (fun s => x s c) c f.routine.body)
      fun p => Structured.routine (fun s => y p s c) c f vs :=
    .bind (.parameters c _ vs) fun _ => .body (fun s => h s c) f.routine.body
  have live : m.world.contexts.size < (m.world.newChild f.context).2.contexts.size :=
    Nat.lt_of_lt_of_eq (Nat.lt_succ_self _) (Array.size_push _).symm
  have none : ((m.world.newChild f.context).2.context m.world.contexts.size).frames = ⟨[], []⟩ :=
    congrArg Context.frames (Contexts.context_push_self _)
  have called := (inner m.world.contexts.size).called span live none
  have valued : Matches m.world.contexts.size ⟨[], []⟩ Flow.still Structured.result
      (Eval.callClosure x f vs span m) _ :=
    called.reading fun flow m' _ => by
      rw [← flow.headD_values]
      rfl
  rw [← valued.eq]
  have opened : Structured.call (y .routine) f vs (m.through Contexts.bare) =
      (fun r : ContextId × World => (Structured.routine (fun s => y .routine s r.1) r.1 f vs >>=
        fun flow => Pure.pure (Structured.result flow)) (⟨r.2, ()⟩ : Machine Unit))
      ((m.world.through Contexts.bare).newChild f.context) := rfl
  rw [opened, m.world.bare_newChild]
  rfl

end Roteiro
