import Roteiro.Eval.Trace
import Roteiro.Proofs.Eval.Coupling

/-!
Chronicles: traces that keep all there was to see at each event, which is the node itself or the
value itself, the context, and the world as it was then. The events of a trace are told from the
moments of a chronicle (`Program.trace_eq`), so what is proved of the moments holds of the events.

Two evaluations go in *lockstep* if they end alike in the same world, whichever watcher stops them.
-/

namespace Roteiro

open Eval

variable {σ τ α β : Type}

/-! ### moments -/

/-- An event of a run, with what there was to see at it. -/
inductive Moment where
  | enter (node : Node) (context : ContextId) (world : World)
  | leave (value : Value) (context : ContextId) (world : World)

namespace Moment

/-- The context that was shown. -/
def context : Moment → ContextId
  | enter _ c _ => c
  | leave _ c _ => c

/-- The world as it was. -/
def world : Moment → World
  | enter _ _ w => w
  | leave _ _ w => w

/-- The scope level of the context. -/
def level (m : Moment) : Nat :=
  (m.world.context m.context).level

/-- What a trace writes down. -/
def event : Moment → Event
  | enter node c w => .enter node.text node.span (w.context c).level
  | leave value c w => .leave (w.heap.text value) (w.context c).level

/-- The nodes that are open afterwards, innermost first, from those before. -/
def reopen (opened : List Node) : Moment → List Node
  | enter node _ _ => node :: opened
  | leave _ _ _ => opened.drop 1

/-- The node of a moment: a value is that of the innermost open node. -/
def node? (opened : List Node) : Moment → Option Node
  | enter node _ _ => some node
  | leave _ _ _ => opened.head?

/-- The nodes that are open after some moments, innermost first. -/
def opened (ms : List Moment) : List Node :=
  ms.foldl reopen []

@[simp] theorem opened_concat (ms : List Moment) (m : Moment) :
    opened (ms ++ [m]) = m.reopen (opened ms) := by
  simp [opened]

end Moment

/-! ### chronicles -/

/-- The state of an observer that keeps every moment. -/
structure Chronicle where
  /-- Whether a node shown again is refused. -/
  guarded : Bool
  /-- The number of moments at which the evaluation is stopped. -/
  stopAt : Option Nat := none
  /-- Oldest first. -/
  moments : List Moment := []

namespace Chronicle

/-- The nodes taken and not left, innermost first. -/
def opened (t : Chronicle) : List Node :=
  Moment.opened t.moments

/-- Adds a moment. -/
def add (t : Chronicle) (m : Moment) : Chronicle :=
  { t with moments := t.moments ++ [m] }

/-- Whether the evaluation is to be stopped now. -/
def stopped (t : Chronicle) : Bool :=
  t.stopAt == some t.moments.length

/-- Whether a node is shown that was taken just before, to one who takes it once only. -/
def refuses (t : Chronicle) (node : Node) : Bool :=
  t.guarded && t.opened.head?.map Node.key == some node.key

/-- The observer that keeps every moment. -/
def observer : Observer Chronicle where
  enter node c m :=
    if m.watch.refuses node then (.ok false, m)
    else
      let watch := m.watch.add (.enter node c m.world)
      (if watch.stopped then .error .halted else .ok true, { m with watch })
  leave value c m :=
    let watch := m.watch.add (.leave value c m.world)
    (if watch.stopped then .error .halted else .ok (), { m with watch })

@[simp] theorem moments_add (t : Chronicle) (m : Moment) : (t.add m).moments = t.moments ++ [m] :=
  rfl

theorem length_moments_add (t : Chronicle) (m : Moment) :
    (t.add m).moments.length = t.moments.length + 1 := by
  rw [moments_add, List.length_append, List.length_singleton]

@[simp] theorem opened_add (t : Chronicle) (m : Moment) :
    (t.add m).opened = m.reopen t.opened :=
  Moment.opened_concat t.moments m

/-- A node that is held by the innermost open one is not refused. -/
theorem takes_of_held {t : Chronicle} {N node : Node} (top : t.opened.head? = some N)
    (held : N.Holds node) : t.refuses node = false := by
  unfold refuses
  have differ : (some N.key == some node.key) = false := by simpa using held.key_ne.symm
  rw [top, Option.map_some, differ, Bool.and_false]

theorem not_stopped {t : Chronicle} (h : t.stopAt = none) : t.stopped = false := by
  unfold stopped
  rw [h]
  rfl

/-- A chronicle that is not to be stopped leaves the evaluation as it is. -/
theorem harmlessWhile : observer.HarmlessWhile fun t => t.stopAt = none where
  enter node c m unstopped := by
    cases refused : m.watch.refuses node with
    | true => exact ⟨false, m.watch, unstopped, if_pos refused⟩
    | false =>
      have goes : (m.watch.add (.enter node c m.world)).stopped = false := not_stopped unstopped
      refine ⟨true, m.watch.add (.enter node c m.world), unstopped, ?_⟩
      simp only [observer, refused, goes]
      rfl
  leave value c m unstopped := by
    have goes : (m.watch.add (.leave value c m.world)).stopped = false := not_stopped unstopped
    refine ⟨m.watch.add (.leave value c m.world), unstopped, ?_⟩
    simp only [observer, goes]
    rfl

/-! ### showing a node -/

section Showing

variable (t : Chronicle) (node : Node) (c : ContextId) (value : Value) (span : Span) (w : World)

theorem entering_refused (h : t.refuses node = true) :
    observer.entering node c ⟨w, t⟩ = (.ok false, ⟨w, t⟩) :=
  Observer.entering_ok (if_pos h)

theorem entering_taken (h : t.refuses node = false)
    (goes : (t.add (.enter node c w)).stopped = false) :
    observer.entering node c ⟨w, t⟩ = (.ok true, ⟨w, t.add (.enter node c w)⟩) := by
  refine Observer.entering_ok ?_
  unfold observer
  dsimp only
  rw [h, goes]
  rfl

theorem entering_stopped (h : t.refuses node = false)
    (stops : (t.add (.enter node c w)).stopped = true) :
    observer.entering node c ⟨w, t⟩ =
      (.error ⟨.halted, node.span⟩, ⟨w, t.add (.enter node c w)⟩) := by
  refine Observer.entering_error ?_
  unfold observer
  dsimp only
  rw [h, stops]
  rfl

theorem leaving_taken (goes : (t.add (.leave value c w)).stopped = false) :
    observer.leaving span c value ⟨w, t⟩ = (.ok value, ⟨w, t.add (.leave value c w)⟩) := by
  refine Observer.leaving_ok ?_
  unfold observer
  dsimp only
  rw [goes]
  rfl

theorem leaving_stopped (stops : (t.add (.leave value c w)).stopped = true) :
    observer.leaving span c value ⟨w, t⟩ =
      (.error ⟨.halted, span⟩, ⟨w, t.add (.leave value c w)⟩) := by
  refine Observer.leaving_error ?_
  unfold observer
  dsimp only
  rw [stops]
  rfl

end Showing

end Chronicle

/-- The moments of a run that is not stopped, as far as the fuel goes. -/
def Program.history (p : Program) (guarded : Bool) (fuel : Nat) (w : World) : List Moment :=
  (p.runWith Chronicle.observer { guarded } fuel w).2.watch.moments

/-! ### lockstep -/

/-- How two evaluations ended in lockstep. `S` relates the watchers once they stopped them. -/
inductive Outcome.InLine (R S : σ → τ → Prop) :
    Outcome α × Machine σ → Outcome α × Machine τ → Prop
  | on {s : σ} {t : τ} (o : Outcome α) (w : World) (related : R s t) :
    InLine R S (o, ⟨w, s⟩) (o, ⟨w, t⟩)
  | stopped {s : σ} {t : τ} (e : RuntimeError) (w : World) (related : S s t) :
    InLine R S (.error e, ⟨w, s⟩) (.error e, ⟨w, t⟩)

/-- `x` and `y` end alike from related watchers. -/
def Eval.Lockstep (R S : σ → τ → Prop) (x : Eval σ α) (y : Eval τ α) : Prop :=
  ∀ w s t, R s t → Outcome.InLine R S (x ⟨w, s⟩) (y ⟨w, t⟩)

namespace Eval.Lockstep

variable {R S : σ → τ → Prop}

/-- What only looks at the world and changes only the world is in lockstep with itself. -/
theorem of_world {x : Eval σ α} {y : Eval τ α} (f : World → Outcome α × World)
    (hx : ∀ m, x m = ((f m.world).1, ⟨(f m.world).2, m.watch⟩))
    (hy : ∀ m, y m = ((f m.world).1, ⟨(f m.world).2, m.watch⟩)) : Lockstep R S x y := by
  intro w s t related
  rw [hx, hy]
  exact .on _ _ related

theorem perform (span : Span) (f : Effect α) :
    Lockstep R S (Eval.perform span f) (Eval.perform span f) := by
  intro w s t related
  unfold Eval.perform
  rcases f w with ⟨fault | a, w'⟩
  · exact .on _ _ related
  · exact .on _ _ related

theorem bind {x : Eval σ α} {y : Eval τ α} {f : α → Eval σ β} {g : α → Eval τ β}
    (hxy : Lockstep R S x y) (hfg : ∀ a, Lockstep R S (f a) (g a)) :
    Lockstep R S (x >>= f) (y >>= g) := by
  intro w s t related
  change Outcome.InLine R S (Eval.bind x f _) (Eval.bind y g _)
  unfold Eval.bind
  have ran := hxy w s t related
  generalize y ⟨w, t⟩ = ry at ran ⊢
  generalize x ⟨w, s⟩ = rx at ran ⊢
  cases ran with
  | on o w' related' =>
    cases o with
    | ok a => exact hfg a w' _ _ related'
    | error e => exact .on _ _ related'
    | exhausted => exact .on _ _ related'
    | aborted => exact .on _ _ related'
  | stopped e w' related' => exact .stopped e w' related'

theorem closing {x : Eval σ α} {y : Eval τ α} (span : Span) (close : Effect β)
    (hxy : Lockstep R S x y) :
    Lockstep R S (Eval.closing span x close) (Eval.closing span y close) := by
  intro w s t related
  unfold Eval.closing
  have ran := hxy w s t related
  generalize y ⟨w, t⟩ = ry at ran ⊢
  generalize x ⟨w, s⟩ = rx at ran ⊢
  cases ran with
  | on o w' related' =>
    cases o with
    | ok a => exact perform span close w' _ _ related'
    | error e => exact .on _ _ related'
    | exhausted => exact .on _ _ related'
    | aborted => exact .on _ _ related'
  | stopped e w' related' => exact .stopped e _ related'

/-- To be in lockstep goes through every step of the evaluator. -/
theorem congruent : Congruent fun {α} => @Lockstep σ τ α R S where
  pure a := of_world (fun w => (.ok a, w)) (fun _ => rfl) (fun _ => rfl)
  bind := bind
  raise fault span := of_world (fun w => (.error ⟨fault, span⟩, w)) (fun _ => rfl) (fun _ => rfl)
  aborted := of_world (fun w => (.aborted, w)) (fun _ => rfl) (fun _ => rfl)
  ask f := of_world (fun w => (.ok (f w), w)) (fun _ => rfl) (fun _ => rfl)
  change f := of_world (fun w => (.ok (), f w)) (fun _ => rfl) (fun _ => rfl)
  make f := of_world (fun w => (.ok (f w).1, (f w).2)) (fun _ => rfl) (fun _ => rfl)
  perform := perform
  closing span _ _ := closing span _

theorem exhausted : Lockstep R S (Eval.exhausted : Eval σ α) Eval.exhausted :=
  of_world (fun w => (.exhausted, w)) (fun _ => rfl) (fun _ => rfl)

end Eval.Lockstep

/-- Observers that keep what they are shown in lockstep keep whole runs so. -/
theorem Program.inLine {R S : σ → τ → Prop} {o : Observer σ} {o' : Observer τ}
    (entering : ∀ node c, Lockstep R S (o.entering node c) (o'.entering node c))
    (leaving : ∀ span c v, Lockstep R S (o.leaving span c v) (o'.leaving span c v))
    (p : Program) {s : σ} {t : τ} (related : R s t) (fuel : Nat) (w : World) :
    Outcome.InLine R S (p.runWith o s fuel w) (p.runWith o' t fuel w) := by
  have capture : ∀ node c (x : Eval σ Value) (y : Eval τ Value), Lockstep R S x y →
      Lockstep R S (o.capture node c x) (o'.capture node c y) := by
    intro node c x y hxy
    rw [Observer.capture_eq, Observer.capture_eq]
    refine .bind (entering node c) fun taken => .bind hxy fun value => ?_
    cases taken with
    | true => exact leaving node.span c value
    | false => exact Lockstep.congruent.pure value
  have agree := Lockstep.congruent.agree Lockstep.exhausted capture fuel
  exact capture _ _ _ _ (Lockstep.congruent.runStatements
    (fun st => agree.execute st _) .null _) _ _ _ related

/-! ### traces are told from chronicles -/

namespace Chronicle

/-- The trace of the same events. -/
def trace (t : Chronicle) : Trace where
  guarded := t.guarded
  stopAt := t.stopAt
  recorded := (t.moments.map Moment.event).reverse
  pending := t.opened.map Node.key

@[simp] theorem events_trace (t : Chronicle) : t.trace.events = t.moments.map Moment.event := by
  simp [trace, Trace.events]

theorem trace_stopped (t : Chronicle) : t.trace.stopped = t.stopped := by
  simp [trace, Trace.stopped, stopped]

theorem trace_enter (t : Chronicle) (node : Node) (c : ContextId) (w : World) :
    (t.add (.enter node c w)).trace =
      { t.trace.record (.enter node.text node.span (w.context c).level) with
        pending := node.key :: t.trace.pending } := by
  simp [trace, Trace.record, Moment.event, Moment.reopen, add, opened]

theorem trace_leave (t : Chronicle) (value : Value) (c : ContextId) (w : World) :
    (t.add (.leave value c w)).trace =
      { t.trace.record (.leave (w.heap.text value) (w.context c).level) with
        pending := t.trace.pending.drop 1 } := by
  simp [trace, Trace.record, Moment.event, Moment.reopen, add, opened]

theorem refuses_eq (t : Chronicle) (node : Node) :
    t.refuses node = (t.trace.guarded && t.trace.pending.head? == some node.key) := by
  simp [refuses, trace]

theorem trace_entering (node : Node) (c : ContextId) :
    Lockstep (fun s t => s = trace t) (fun s t => s = trace t) (Trace.observer.entering node c)
      (observer.entering node c) := by
  rintro w _ t rfl
  have traced : Trace.observer.enter node c ⟨w, t.trace⟩ =
      if t.refuses node then (.ok false, ⟨w, t.trace⟩)
      else (if (t.add (.enter node c w)).stopped then .error .halted else .ok true,
        ⟨w, (t.add (.enter node c w)).trace⟩) := by
    rw [refuses_eq, ← trace_stopped, trace_enter]
    rfl
  cases refused : t.refuses node with
  | true =>
    rw [refused, if_pos rfl] at traced
    rw [Observer.entering_ok traced, entering_refused t node c w refused]
    exact .on _ _ rfl
  | false =>
    rw [refused, if_neg Bool.false_ne_true] at traced
    cases stops : (t.add (.enter node c w)).stopped with
    | true =>
      rw [stops, if_pos rfl] at traced
      rw [Observer.entering_error traced, entering_stopped t node c w refused stops]
      exact .stopped _ _ rfl
    | false =>
      rw [stops, if_neg Bool.false_ne_true] at traced
      rw [Observer.entering_ok traced, entering_taken t node c w refused stops]
      exact .on _ _ rfl

theorem trace_leaving (span : Span) (c : ContextId) (value : Value) :
    Lockstep (fun s t => s = trace t) (fun s t => s = trace t)
      (Trace.observer.leaving span c value) (observer.leaving span c value) := by
  rintro w _ t rfl
  have traced : Trace.observer.leave value c ⟨w, t.trace⟩ =
      (if (t.add (.leave value c w)).stopped then .error .halted else .ok (),
        ⟨w, (t.add (.leave value c w)).trace⟩) := by
    rw [← trace_stopped, trace_leave]
    rfl
  cases stops : (t.add (.leave value c w)).stopped with
  | true =>
    rw [stops, if_pos rfl] at traced
    rw [Observer.leaving_error traced, leaving_stopped t c value span w stops]
    exact .stopped _ _ rfl
  | false =>
    rw [stops, if_neg Bool.false_ne_true] at traced
    rw [Observer.leaving_ok traced, leaving_taken t c value span w stops]
    exact .on _ _ rfl

end Chronicle

/-- A trace is told from the chronicle of the same run, which ends alike. -/
theorem Program.trace_eq (p : Program) (t : Chronicle) (fuel : Nat) (w : World) :
    p.runWith Trace.observer t.trace fuel w =
      ((p.runWith Chronicle.observer t fuel w).1,
        ⟨(p.runWith Chronicle.observer t fuel w).2.world,
          (p.runWith Chronicle.observer t fuel w).2.watch.trace⟩) := by
  have ran := p.inLine Chronicle.trace_entering Chronicle.trace_leaving (t := t) rfl fuel w
  generalize p.runWith Trace.observer t.trace fuel w = rx at ran ⊢
  generalize p.runWith Chronicle.observer t fuel w = ry at ran ⊢
  cases ran with
  | on o w' related => rw [related]
  | stopped e w' related => rw [related]

/-- The events of a trace are those of the moments of a run. -/
theorem Program.events_eq (p : Program) (guarded : Bool) (fuel : Nat) (w : World) :
    (p.runWith Trace.observer { guarded } fuel w).2.watch.events =
      (p.history guarded fuel w).map Moment.event := by
  have same := p.trace_eq { guarded } fuel w
  change p.runWith Trace.observer { guarded } fuel w = _ at same
  rw [same, Chronicle.events_trace]
  rfl

/-! ### runs that are stopped -/

namespace Chronicle

/-- A chronicle that is to be stopped at moment `k` goes along with one that is not. -/
structure Short (k : Nat) (s t : Chronicle) : Prop where
  guarded : s.guarded = t.guarded
  stopAt : s.stopAt = some k
  unstopped : t.stopAt = none
  moments : s.moments = t.moments
  short : t.moments.length < k

/-- A chronicle was stopped at moment `k` of another one. -/
structure Cut (k : Nat) (s t : Chronicle) : Prop where
  stopAt : s.stopAt = some k
  length : s.moments.length = k
  earlier : s.moments <+: t.moments

theorem Cut.add {k : Nat} {s t : Chronicle} (h : Cut k s t) (m : Moment) : Cut k s (t.add m) :=
  ⟨h.stopAt, h.length, h.earlier.trans (List.prefix_append _ _)⟩

namespace Short

variable {k : Nat} {s t : Chronicle} (h : Short k s t)

include h

theorem refuses (node : Node) : s.refuses node = t.refuses node := by
  unfold Chronicle.refuses opened
  rw [h.guarded, h.moments]

/-- With one moment more, the first one goes on or is stopped. -/
theorem add (m : Moment) :
    (s.add m).stopped = false ∧ Short k (s.add m) (t.add m) ∨
      (s.add m).stopped = true ∧ Cut k (s.add m) (t.add m) := by
  have length : (s.add m).moments.length = t.moments.length + 1 := by simp [h.moments]
  have stops : (s.add m).stopped = decide (k = t.moments.length + 1) := by
    unfold stopped
    rw [length]
    change (s.stopAt == some (t.moments.length + 1)) = _
    rw [h.stopAt]
    by_cases last : k = t.moments.length + 1
    · simp [last]
    · simp [last]
  have same : (s.add m).moments = (t.add m).moments := by simp [h.moments]
  by_cases last : k = t.moments.length + 1
  · refine .inr ⟨by rw [stops]; exact decide_eq_true last, h.stopAt, ?_, ?_⟩
    · rw [length, last]
    · exact same ▸ List.prefix_rfl
  · refine .inl ⟨by rw [stops]; exact decide_eq_false last, h.guarded, h.stopAt, h.unstopped, same,
      ?_⟩
    have := h.short
    rw [length_moments_add]
    omega

end Short

/-- A run that is stopped goes along with one that is not, up to where it is stopped. -/
theorem short_coupled (k : Nat) : Observer.Coupled (Short k) (Cut k) observer observer where
  entering node c :=
    { beside := fun w s t h => by
        cases refused : t.refuses node with
        | true =>
          rw [entering_refused t node c w refused,
            entering_refused s node c w (by rw [h.refuses, refused])]
          exact .alike _ _ h
        | false =>
          have refused' : s.refuses node = false := by rw [h.refuses, refused]
          rw [entering_taken t node c w refused (not_stopped h.unstopped)]
          obtain ⟨goes, along⟩ | ⟨stops, cut⟩ := h.add (.enter node c w)
          · rw [entering_taken s node c w refused' goes]
            exact .alike _ _ along
          · rw [entering_stopped s node c w refused' stops]
            exact .stopped _ _ _ cut
      alone := fun s m cut => by
        rw [Observer.entering_watch]
        unfold observer
        dsimp only
        split
        · exact cut
        · exact cut.add _ }
  leaving span c value :=
    { beside := fun w s t h => by
        rw [leaving_taken t c value span w (not_stopped h.unstopped)]
        obtain ⟨goes, along⟩ | ⟨stops, cut⟩ := h.add (.leave value c w)
        · rw [leaving_taken s c value span w goes]
          exact .alike _ _ along
        · rw [leaving_stopped s c value span w stops]
          exact .stopped _ _ _ cut
      alone := fun s m cut => by
        rw [Observer.leaving_watch]
        exact cut.add _ }

end Chronicle

/-- A run that is to be stopped goes along with the full one, or was stopped at a moment of it. -/
theorem Program.beside_stopped (p : Program) (guarded : Bool) (fuel : Nat) (w : World) {k : Nat}
    (pos : 0 < k) :
    Outcome.Beside (Chronicle.Short k) (Chronicle.Cut k)
      (p.runWith Chronicle.observer { guarded, stopAt := some k } fuel w)
      (p.runWith Chronicle.observer { guarded } fuel w) :=
  p.beside_of_capture (Chronicle.short_coupled k).capture
    (s := { guarded, stopAt := some k }) (t := { guarded }) ⟨rfl, rfl, rfl, rfl, pos⟩ fuel w

/-- The moments of a run that is to be stopped are the first ones of the full run. -/
theorem Program.stopped_prefix (p : Program) (guarded : Bool) (fuel : Nat) (w : World) {k : Nat}
    (pos : 0 < k) :
    (p.runWith Chronicle.observer { guarded, stopAt := some k } fuel w).2.watch.moments <+:
      p.history guarded fuel w := by
  have ran := p.beside_stopped guarded fuel w pos
  unfold Program.history
  generalize p.runWith Chronicle.observer { guarded, stopAt := some k } fuel w = rx at ran ⊢
  generalize p.runWith Chronicle.observer { guarded } fuel w = ry at ran ⊢
  cases ran with
  | alike o w' along => exact along.moments ▸ List.prefix_rfl
  | stopped e w' _ cut => exact cut.earlier

/-- A run is stopped if it comes to the moment. -/
theorem Program.cut (p : Program) (guarded : Bool) (fuel : Nat) (w : World) {k : Nat}
    (pos : 0 < k) (le : k ≤ (p.history guarded fuel w).length) :
    Chronicle.Cut k
      (p.runWith Chronicle.observer { guarded, stopAt := some k } fuel w).2.watch
      (p.runWith Chronicle.observer { guarded } fuel w).2.watch := by
  have ran := p.beside_stopped guarded fuel w pos
  unfold Program.history at le
  generalize p.runWith Chronicle.observer { guarded, stopAt := some k } fuel w = rx at ran ⊢
  generalize p.runWith Chronicle.observer { guarded } fuel w = ry at ran le ⊢
  cases ran with
  | alike o w' along =>
    have := along.short
    dsimp only at le
    omega
  | stopped e w' _ cut => exact cut

end Roteiro
