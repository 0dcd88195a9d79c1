import Roteiro.Proofs.Eval.Balance
import Roteiro.Proofs.Flow.Structured
import Roteiro.Proofs.Scope.Bare

/-!
Flows as signals in frames. How a statement ends can be read off the frames of its context: a loop
that is broken or continued has a signal in its frame, and a call that returns has values in its
frame. An evaluation with frames *follows* a structured one if, from frames without signals, it ends
as the structured one does and leaves the signal of its flow (`Follows`).
-/

namespace Roteiro

open Eval World

variable {α β γ δ : Type}

/-! ### frames -/

/-- The frames of a context. -/
structure Frames where
  loops : List LoopFrame
  calls : List (List Value)

/-- The frames of a context. -/
def Context.frames (c : Context) : Frames := ⟨c.loops, c.calls⟩

namespace Frames

/-- Where a statement stands whose context has these frames. -/
def place (f : Frames) : Place := ⟨!f.loops.isEmpty, !f.calls.isEmpty⟩

/-- No signal stands in the innermost frames. -/
structure Calm (f : Frames) : Prop where
  loops : ∀ frame ∈ f.loops.head?, frame = {}
  calls : ∀ returned ∈ f.calls.head?, returned = []

theorem Calm.loop {f : Frames} (h : f.Calm) : Calm ⟨{} :: f.loops, f.calls⟩ :=
  ⟨fun _ hf => (Option.some.inj hf).symm, h.calls⟩

end Frames

theorem Frames.Calm.hasReturned {f : Frames} (h : f.Calm) {c : Context} (hc : c.calls = f.calls) :
    c.hasReturned = false := by
  have calls := h.calls
  unfold Context.hasReturned
  rw [hc]
  cases hf : f.calls with
  | nil => rfl
  | cons returned rest =>
    rw [hf] at calls
    rw [calls returned rfl]
    rfl

theorem Frames.Calm.interrupted {f : Frames} (h : f.Calm) {c : Context} (hc : c.frames = f) :
    c.interrupted = false := by
  subst hc
  have loops : ∀ frame ∈ c.loops.head?, frame = {} := h.loops
  unfold Context.interrupted
  rw [h.hasReturned rfl]
  cases hl : c.loops with
  | nil => rfl
  | cons frame rest =>
    rw [hl] at loops
    rw [loops frame rfl]
    rfl

/-! ### signals -/

namespace Flow

/-- The value of a statement that ended in this way. -/
def value : Flow → Value
  | .normal v => v
  | _ => .null

/-- What a call has returned that returns these values. -/
def returned (values : List Value) : List Value :=
  if values.isEmpty then [.null] else values

/-- From frames without signals, the frames with the signal of a flow. -/
inductive Marks : Flow → Frames → Frames → Prop
  | normal (v : Value) (f : Frames) : Marks (.normal v) f f
  | breaking (rest : List LoopFrame) (calls : List (List Value)) :
      Marks .breaking ⟨{} :: rest, calls⟩ ⟨{ broken := true } :: rest, calls⟩
  | continuing (rest : List LoopFrame) (calls : List (List Value)) :
      Marks .continuing ⟨{} :: rest, calls⟩ ⟨{ continued := true } :: rest, calls⟩
  | returning (values : List Value) (loops : List LoopFrame) (rest : List (List Value)) :
      Marks (.returning values) ⟨loops, [] :: rest⟩ ⟨loops, returned values :: rest⟩

/-- What is left of a flow outside the loop around it. -/
def caught : Flow → Flow
  | .returning values => .returning values
  | _ => .normal .null

/-- Whether a loop goes on after a round that ended in this way. -/
def goesOn : Flow → Bool
  | .normal _ | .continuing => true
  | .breaking | .returning _ => false

/-- The frame of the loop around a statement that ended in this way. -/
def frame : Flow → LoopFrame
  | .breaking => { broken := true }
  | .continuing => { continued := true }
  | _ => {}

/-- In the frame of a loop a flow leaves its mark, and outside it what the loop does not catch. -/
theorem Marks.framed {flow : Flow} {f f' : Frames} (h : flow.Marks ⟨{} :: f.loops, f.calls⟩ f') :
    f'.loops = flow.frame :: f.loops ∧ flow.caught.Marks f ⟨f.loops, f'.calls⟩ := by
  obtain ⟨loops, calls⟩ := f
  cases h with
  | normal v _ => exact ⟨rfl, .normal _ _⟩
  | breaking _ _ => exact ⟨rfl, .normal _ _⟩
  | continuing _ _ => exact ⟨rfl, .normal _ _⟩
  | returning values _ rest => exact ⟨rfl, .returning values loops rest⟩

theorem Marks.of_normal {v : Value} {f f' : Frames} (h : Marks (.normal v) f f') : f' = f := by
  cases h
  rfl

theorem returned_ne_nil (values : List Value) : returned values ≠ [] := by
  unfold returned
  cases values with
  | nil => simp
  | cons v vs => simp

/-- Whether a flow returns from a call. -/
def returns : Flow → Bool
  | .returning _ => true
  | _ => false

/-- Whether a flow stops the statements of a body. -/
def stops : Flow → Bool
  | .normal _ => false
  | _ => true

theorem Marks.hasReturned {flow : Flow} {f : Frames} {c : Context} (calm : f.Calm)
    (h : flow.Marks f c.frames) : c.hasReturned = flow.returns := by
  generalize hf : c.frames = f' at h
  have hc : c.calls = f'.calls := congrArg Frames.calls hf
  cases h with
  | normal v f => exact calm.hasReturned hc
  | breaking rest calls => exact calm.hasReturned hc
  | continuing rest calls => exact calm.hasReturned hc
  | returning values loops rest =>
    unfold Context.hasReturned
    rw [hc]
    cases hr : returned values with
    | nil => exact absurd hr (returned_ne_nil values)
    | cons v vs => rfl

/-- A body is interrupted exactly by the flows that stop it. -/
theorem Marks.interrupted {flow : Flow} {f : Frames} {c : Context} (calm : f.Calm)
    (h : flow.Marks f c.frames) : c.interrupted = flow.stops := by
  have returned := h.hasReturned calm
  generalize hf : c.frames = f' at h
  have hl : c.loops = f'.loops := congrArg Frames.loops hf
  cases h with
  | normal v f => exact calm.interrupted hf
  | breaking rest calls =>
    unfold Context.interrupted
    rw [returned, hl]
    rfl
  | continuing rest calls =>
    unfold Context.interrupted
    rw [returned, hl]
    rfl
  | returning values loops rest =>
    unfold Context.interrupted
    rw [returned]
    rfl

/-- Outside loops and calls a flow can only be normal. -/
theorem Marks.of_no_frames {flow : Flow} {f' : Frames} (h : flow.Marks ⟨[], []⟩ f') :
    ∃ v, flow = .normal v := by
  cases h with
  | normal v f => exact ⟨v, rfl⟩

end Flow

/-! ### evaluations without signals -/

namespace World

/-- The frames of the context `c` are kept, if there is such a context. -/
def SameFrames (c : ContextId) (w w' : World) : Prop :=
  c < w.contexts.size → c < w'.contexts.size ∧ (w'.context c).frames = (w.context c).frames

theorem SameShape.frames {w w' : World} (h : SameShape w w') (c : ContextId) :
    SameFrames c w w' := by
  intro hc
  obtain ⟨-, -, hloops, hcalls, -⟩ := Shape.mk.inj (h.shape c hc)
  refine ⟨Nat.lt_of_lt_of_le hc h.size, ?_⟩
  unfold Context.frames
  rw [hloops, hcalls]

theorem SameFrames.define (c : ContextId) (name : String) (v : Value) (w : World) :
    SameFrames c w (World.define c name v w).2 := by
  intro hc
  have same : World.define c name v w = onContext c (·.define name v) w := rfl
  rw [same]
  rcases onContext_cases c (·.define name v) w with ⟨d, hd, done⟩ | ⟨fault, -, failed⟩
  · have set := At.set hc d
    rw [done]
    refine ⟨Nat.lt_of_lt_of_le hc set.size, ?_⟩
    rw [set.here, Context.names_of_define hd]
    rfl
  · rw [failed]
    exact ⟨hc, rfl⟩

end World

/-- The same evaluation with frames and in bare contexts, which keeps all shapes. -/
structure Eval.Aligned (x y : Eval Unit α) : Prop where
  mirrors : Mirrors Contexts.bare x y
  keeps : Keeps SameShape x

theorem Eval.Aligned.compatible : Compatible fun {α} => @Aligned α where
  pure a := ⟨.pure a, .pure SameShape.composes a⟩
  bind hx hf := ⟨hx.mirrors.bind fun a => (hf a).mirrors,
    .bind SameShape.composes hx.keeps fun a => (hf a).keeps⟩
  raise fault span := ⟨.raise fault span, .raise SameShape.composes fault span⟩
  aborted := ⟨.aborted, .aborted⟩
  key v := ⟨Mirrors.bare.key v, Keeps.shapes.key v⟩
  make hf := ⟨Mirrors.bare.make hf, Keeps.shapes.make hf⟩
  perform span hf := ⟨Mirrors.bare.perform span hf, Keeps.shapes.perform span hf⟩

/-! ### following -/

/-- The result of an evaluation in the context `c`, which had the frames `f`, beside the result of
the structured one in bare contexts: `signal` tells the flow of a value of the second, and `read`
the value of the first that belongs to it. -/
inductive Matches (c : ContextId) (f : Frames) (signal : β → Flow) (read : β → α) :
    Outcome α × Machine Unit → Outcome β × Machine Unit → Prop
  | ok (b : β) (m : Machine Unit) : c < m.world.contexts.size →
      (signal b).Marks f (m.world.context c).frames →
      Matches c f signal read (.ok (read b), m) (.ok b, m.through Contexts.bare)
  | error (e : RuntimeError) (m : Machine Unit) :
      Matches c f signal read (.error e, m) (.error e, m.through Contexts.bare)
  | exhausted (m : Machine Unit) :
      Matches c f signal read (.exhausted, m) (.exhausted, m.through Contexts.bare)
  | aborted (m : Machine Unit) :
      Matches c f signal read (.aborted, m) (.aborted, m.through Contexts.bare)

/-- The flow of what gives no signal. -/
def Flow.still : β → Flow := fun _ => .normal .null

theorem Matches.of_mirrors {c : ContextId} {x y : Eval Unit α} (h : Mirrors Contexts.bare x y)
    (k : Keeps (SameFrames c) x) (m : Machine Unit) (hc : c < m.world.contexts.size) :
    Matches c (m.world.context c).frames Flow.still id (x m) (y (m.through Contexts.bare)) := by
  have kept := k m
  rw [h m]
  rcases hr : x m with ⟨a | e | _ | _, m'⟩
  · rw [hr] at kept
    obtain ⟨live, same⟩ := kept trivial hc
    refine .ok a m' live ?_
    rw [same]
    exact .normal _ _
  · exact .error e m'
  · exact .exhausted m'
  · exact .aborted m'

theorem Matches.of_aligned {c : ContextId} {x y : Eval Unit α} (h : Aligned x y) (m : Machine Unit)
    (hc : c < m.world.contexts.size) :
    Matches c (m.world.context c).frames Flow.still id (x m) (y (m.through Contexts.bare)) :=
  of_mirrors h.mirrors (h.keeps.mono fun same => same.frames c) m hc

/-- One evaluation after another, with the flow of the first in sight of the second. -/
theorem Matches.bind {c : ContextId} {f f' : Frames} {signal : β → Flow} {read : β → α}
    {signal' : δ → Flow} {read' : δ → γ} {x : Eval Unit α} {y : Eval Unit β} {m n : Machine Unit}
    {k : α → Eval Unit γ} {l : β → Eval Unit δ} (h : Matches c f signal read (x m) (y n))
    (ok : ∀ (b : β) (m' : Machine Unit), c < m'.world.contexts.size →
      (signal b).Marks f (m'.world.context c).frames →
      Matches c f' signal' read' (k (read b) m') (l b (m'.through Contexts.bare))) :
    Matches c f' signal' read' ((x >>= k) m) ((y >>= l) n) := by
  change Matches c f' signal' read' (Eval.bind x k m) (Eval.bind y l n)
  unfold Eval.bind
  generalize x m = r at h ⊢
  generalize y n = r' at h ⊢
  cases h with
  | ok b m' live marks => exact ok b m' live marks
  | error e m' => exact .error e m'
  | exhausted m' => exact .exhausted m'
  | aborted m' => exact .aborted m'

/-- A value that is read off the one before, without a change of the world. -/
theorem Matches.reading {c : ContextId} {f : Frames} {signal : β → Flow} {read : β → α}
    {read' : β → γ} {x : Eval Unit α} {m : Machine Unit} {r : Outcome β × Machine Unit}
    {k : α → Eval Unit γ} (h : Matches c f signal read (x m) r)
    (ok : ∀ (b : β) (m' : Machine Unit), (signal b).Marks f (m'.world.context c).frames →
      k (read b) m' = (.ok (read' b), m')) :
    Matches c f signal read' ((x >>= k) m) r := by
  change Matches c f signal read' (Eval.bind x k m) r
  unfold Eval.bind
  generalize x m = r₀ at h ⊢
  cases h with
  | ok b m' live marks =>
    dsimp only
    rw [ok b m' marks]
    exact .ok b m' live marks
  | error e m' => exact .error e m'
  | exhausted m' => exact .exhausted m'
  | aborted m' => exact .aborted m'

/-- From frames without signals in the context `c`, `x` ends as `y` does in bare contexts at the
place that the frames tell, and leaves the signal of its flow. -/
def Follows (c : ContextId) (signal : β → Flow) (read : β → α) (x : Eval Unit α)
    (y : Place → Eval Unit β) : Prop :=
  ∀ m : Machine Unit, c < m.world.contexts.size → (m.world.context c).frames.Calm →
    Matches c (m.world.context c).frames signal read (x m)
      (y (m.world.context c).frames.place (m.through Contexts.bare))

namespace Follows

variable {c : ContextId} {signal : β → Flow} {read : β → α}

theorem exhausted : Follows c signal read Eval.exhausted fun _ => Eval.exhausted :=
  fun m _ _ => .exhausted m

theorem pure (b : β) (h : ∀ f, (signal b).Marks f f) :
    Follows c signal read (Pure.pure (read b)) fun _ => Pure.pure b :=
  fun m hc _ => .ok b m hc (h _)

theorem of_aligned {x y : Eval Unit α} (h : Aligned x y) : Follows c Flow.still id x fun _ => y :=
  fun m hc _ => .of_aligned h m hc

theorem define (span : Span) (name : String) (v : Value) :
    Follows c Flow.still id (Eval.perform span (World.define c name v))
      fun _ => Eval.perform span (World.define c name v) :=
  fun m hc _ => .of_mirrors (.perform span (World.bare_define c name v))
    (.perform span (SameFrames.define c name v)) m hc

/-- What follows after an evaluation that gives no signal. -/
theorem bind {x : Eval Unit γ} {y : Place → Eval Unit δ} {get : δ → γ} {f : γ → Eval Unit α}
    {g : δ → Place → Eval Unit β} (hx : Follows c Flow.still get x y)
    (hf : ∀ b, Follows c signal read (f (get b)) (g b)) :
    Follows c signal read (x >>= f) fun p => y p >>= fun b => g b p := by
  intro m hc calm
  refine (hx m hc calm).bind fun b m' live marks => ?_
  have same := marks.of_normal
  have next := hf b m' live (by rw [same]; exact calm)
  rw [same] at next
  exact next

/-- A value is a flow that gives no signal. -/
theorem value {x y : Eval Unit Value} (h : Aligned x y) :
    Follows c id Flow.value x fun _ => y >>= fun v => Pure.pure (.normal v) := by
  have follows : Follows c id Flow.value (x >>= Pure.pure)
      fun _ => y >>= fun v => Pure.pure (.normal v) :=
    bind (of_aligned h) fun v => pure (Flow.normal v) fun f => .normal v f
  have same : x >>= Pure.pure = x := x.bind_pure
  rw [same] at follows
  exact follows

end Follows

end Roteiro
