import Roteiro.Proofs.Scope.Shape
import Roteiro.Proofs.Trace.Unwinding
import Roteiro.Proofs.World.Tidy

/-!
What every evaluation keeps, and what it uses up. An evaluation is *steady*: it leaves a tidy heap
tidy and takes back no moment. For a node at work, the evaluation of a node that it holds *spends* a
moment, since the node is shown and not refused. A round of a loop spends one unless there is nothing
in it, in which case it changes nothing but scopes (`Eval.round_nil`, `Eval.round_spends`).
-/

namespace Roteiro

open Eval

variable {α β : Type}

/-! ### steady evaluations -/

/-- What every evaluation keeps: a tidy heap, the moment to stop at, and the moments so far. -/
structure Machine.Continues (m m' : Machine Chronicle) : Prop where
  tidy : m.world.Tidy → m'.world.Tidy
  stopAt : m'.watch.stopAt = m.watch.stopAt
  later : m.watch.moments.length ≤ m'.watch.moments.length

namespace Machine.Continues

theorem of_world {m : Machine Chronicle} {w : World} (tidy : m.world.Tidy → w.Tidy) :
    m.Continues ⟨w, m.watch⟩ :=
  ⟨tidy, rfl, Nat.le_refl _⟩

theorem refl (m : Machine Chronicle) : m.Continues m :=
  of_world id

theorem trans {m₁ m₂ m₃ : Machine Chronicle} (h : m₁.Continues m₂) (k : m₂.Continues m₃) :
    m₁.Continues m₃ where
  tidy tidy := k.tidy (h.tidy tidy)
  stopAt := k.stopAt.trans h.stopAt
  later := Nat.le_trans h.later k.later

theorem add (w : World) (t : Chronicle) (moment : Moment) :
    Continues ⟨w, t⟩ ⟨w, t.add moment⟩ :=
  ⟨id, rfl, by rw [Chronicle.length_moments_add]; exact Nat.le_succ _⟩

end Machine.Continues

/-- An evaluation that keeps what it should. -/
def Eval.Steady (x : Eval Chronicle α) : Prop :=
  ∀ m : Machine Chronicle, m.Continues (x m).2

namespace Eval.Steady

theorem perform (span : Span) {f : Effect α} (tidy : ∀ {w : World}, w.Tidy → (f w).2.Tidy) :
    Steady (Eval.perform span f) := by
  intro m
  have kept := @tidy m.world
  unfold Eval.perform
  generalize f m.world = r at kept ⊢
  rcases r with ⟨fault | a, w⟩
  · exact .of_world kept
  · exact .of_world kept

theorem make {f : World → α × World} (tidy : ∀ {w : World}, w.Tidy → (f w).2.Tidy) :
    Steady (Eval.make f) :=
  fun _ => .of_world tidy

theorem bind {x : Eval Chronicle α} {f : α → Eval Chronicle β} (hx : Steady x)
    (hf : ∀ a, Steady (f a)) : Steady (x >>= f) := by
  intro m
  change m.Continues (Eval.bind x f m).2
  have ran := hx m
  unfold Eval.bind
  generalize x m = r at ran ⊢
  rcases r with ⟨a | e | _ | _, m'⟩
  · exact ran.trans (hf a m')
  · exact ran
  · exact ran
  · exact ran

/-- What is opened looks at contexts only. -/
theorem change {f : World → World} (opens : ∀ w, (f w).heap = w.heap) : Steady (Eval.change f) :=
  fun _ => .of_world fun tidy => by
    unfold World.Tidy
    rw [opens]
    exact tidy

theorem openScope (c : ContextId) : Steady (Eval.openScope c) := by
  refine bind (fun m => .refl m) fun full => ?_
  cases full with
  | true => exact fun m => .refl m
  | false => exact change fun _ => rfl

/-- What is closed looks at contexts only. -/
theorem closing {x : Eval Chronicle α} {close : Effect β} (span : Span) (closes : close.Closing)
    (hx : Steady x) : Steady (Eval.closing span x close) := by
  have closed : ∀ {w : World}, w.Tidy → (close w).2.Tidy := by
    intro w tidy
    unfold World.Tidy
    rw [closes.heap_eq]
    exact tidy
  intro m
  have ran := hx m
  unfold Eval.closing
  generalize x m = r at ran ⊢
  rcases r with ⟨a | e | _ | _, m'⟩
  · exact ran.trans (perform span closed m')
  · exact ran.trans (.of_world closed)
  · exact ran.trans (.of_world closed)
  · exact ran

/-- To be steady goes through every step of the evaluator. -/
theorem placed {ι : Type} (i : ι) :
    Placed fun _ {α} (x : ι → Eval Chronicle α) => Steady (x i) where
  fit _ :=
    { pure := fun _ m => .refl m
      bind := bind
      raise := fun _ _ m => .refl m
      aborted := fun m => .refl m
      key := fun _ m => .refl m
      perform := fun span plain => perform span (Effect.Simple.tidy (.plain plain)) }
  ask _ _ m := .refl m
  newArray _ items := make fun tidy => tidy.newArray items
  newDictionary _ l := make fun tidy => tidy.newDictionary l
  newFunction _ _ := make id
  perform _ span simple := perform span simple.tidy
  inScope span hx := bind (openScope _) fun _ => closing span (.scope _) hx
  inRound span hx := bind (openScope _) fun _ => bind (change fun _ => rfl) fun _ =>
    closing span (.round _) hx
  inCall _ _ span hx := bind (make id) fun c => bind (change fun _ => rfl) fun _ =>
    closing span (.call c) (hx c)

theorem entering (node : Node) (c : ContextId) : Steady (Chronicle.observer.entering node c) := by
  rintro ⟨w, t⟩
  cases refused : t.refuses node with
  | true =>
    rw [t.entering_refused node c w refused]
    exact .refl _
  | false =>
    cases stops : (t.add (.enter node c w)).stopped with
    | true =>
      rw [t.entering_stopped node c w refused stops]
      exact .add w t _
    | false =>
      rw [t.entering_taken node c w refused stops]
      exact .add w t _

theorem leaving (span : Span) (c : ContextId) (v : Value) :
    Steady (Chronicle.observer.leaving span c v) := by
  rintro ⟨w, t⟩
  cases stops : (t.add (.leave v c w)).stopped with
  | true =>
    rw [t.leaving_stopped c v span w stops]
    exact .add w t _
  | false =>
    rw [t.leaving_taken c v span w stops]
    exact .add w t _

theorem capture (node : Node) (c : ContextId) {x : Eval Chronicle Value} (hx : Steady x) :
    Steady (Chronicle.observer.capture node c x) := by
  rw [Observer.capture_eq]
  refine bind (entering node c) fun taken => bind hx fun v => ?_
  cases taken with
  | true => exact leaving node.span c v
  | false => exact fun m => .refl m

theorem captureTimes (times : Nat) (node : Node) (c : ContextId) {x : Eval Chronicle Value}
    (hx : Steady x) : Steady (Chronicle.observer.captureTimes times node c x) := by
  induction times with
  | zero => exact hx
  | succ times ih => exact ih.capture node c

end Eval.Steady

/-- Every function of an evaluator is steady. -/
theorem Chronicle.nested_steady (fuel : Nat) :
    Nested (fun _ _ {α} (x : Unit → Eval Chronicle α) => Steady (x ())) (fun _ => observer)
      fun _ => fuel := by
  induction fuel with
  | zero =>
    constructor
    · intros; simp only [evaluate]; exact fun m => .refl m
    · intros; simp only [execute]; exact fun m => .refl m
    · intros; simp only [whileRounds]; exact fun m => .refl m
    · intros; simp only [countRounds]; exact fun m => .refl m
    · intros; simp only [eachRounds]; exact fun m => .refl m
  | succ fuel ih =>
    refine ih.succ (fun _ => Steady.placed ()) ⟨?_, ?_⟩
    · intro N e c x _ shown hx
      dsimp only
      rw [shown ()]
      exact hx.captureTimes _ _ c
    · intro N s c x _ shown hx
      dsimp only
      rw [shown ()]
      exact hx.capture _ c

/-! ### moments that are spent -/

/-- At work on a node, the evaluation has had a moment once it has a value. -/
def Eval.Spends (N : Node) (x : Eval Chronicle α) : Prop :=
  ∀ (m m' : Machine Chronicle) (a : α), m.watch.opened.head? = some N → x m = (.ok a, m') →
    m.watch.moments.length < m'.watch.moments.length

namespace Eval.Spends

variable {N : Node}

theorem bind {x : Eval Chronicle α} {f : α → Eval Chronicle β} (hx : Spends N x)
    (hf : ∀ a, Steady (f a)) : Spends N (x >>= f) := by
  intro m m'' b top ran
  obtain ⟨a, m', first, second⟩ := of_bind_ok ran
  have kept := hf a m'
  rw [second] at kept
  exact Nat.lt_of_lt_of_le (hx m m' a top first) kept.later

theorem entering {node : Node} (held : N.Holds node) (c : ContextId) :
    Spends N (Chronicle.observer.entering node c) := by
  rintro ⟨w, t⟩ m' taken top ran
  have takes := Chronicle.takes_of_held top held
  cases stops : (t.add (.enter node c w)).stopped with
  | true =>
    rw [t.entering_stopped node c w takes stops] at ran
    cases ran
  | false =>
    rw [t.entering_taken node c w takes stops] at ran
    cases ran
    rw [Chronicle.length_moments_add]
    exact Nat.lt_succ_self _

theorem capture {node : Node} (held : N.Holds node) (c : ContextId) {x : Eval Chronicle Value}
    (hx : Steady x) : Spends N (Chronicle.observer.capture node c x) := by
  rw [Observer.capture_eq]
  refine (entering held c).bind fun taken => hx.bind fun v => ?_
  cases taken with
  | true => exact .leaving node.span c v
  | false => exact fun m => .refl m

/-- An assignment evaluates an expression first. -/
theorem assign {x : Expression → Eval Chronicle Value} (c : ContextId) {a : Assignment}
    (steady : ∀ e ∈ a.parts, Steady (x e)) (spends : ∀ e ∈ a.parts, Spends N (x e)) :
    Spends N (Eval.assign x c a) := by
  have writes : ∀ {f : Effect Unit} (span : Span) (v : Value), f.Plain →
      Steady (Eval.perform span f >>= fun _ => Eval.pure v) :=
    fun span v plain => .bind (.perform span (Effect.Simple.tidy (.plain plain))) fun _ m => .refl m
  obtain ⟨target, value, span⟩ := a
  cases target with
  | name ident =>
    refine (spends value (List.mem_singleton_self value)).bind fun v => ?_
    exact writes ident.span v (.assign c ident.text v)
  | property object key =>
    have first := spends object List.mem_cons_self
    have later : ∀ e ∈ [key, value], Steady (x e) :=
      fun e member => steady e (List.mem_cons_of_mem object member)
    refine first.bind fun o => .bind (later key List.mem_cons_self) fun k => ?_
    refine .bind (later value (List.mem_cons_of_mem key List.mem_cons_self)) fun v => ?_
    exact writes span v (.setProperty o k v)

end Eval.Spends

/-- **Whatever a node holds and is evaluated for it takes a moment.** -/
theorem Chronicle.captures_spend (fuel : Nat) :
    Nested.Captures (fun _ _ {α} (x : Unit → Eval Chronicle α) => Steady (x ()))
      (fun N _ {α} (x : Unit → Eval Chronicle α) => Spends N (x ())) (fun _ => observer)
      fun _ => fuel where
  expression {N e c x} held shown steady := by
    obtain ⟨times, captures⟩ : ∃ n, e.captures = n + 1 :=
      ⟨e.captures - 1, (Nat.sub_add_cancel (Node.expression e).captures_pos).symm⟩
    dsimp only
    rw [shown (), captures]
    exact .capture held c (steady.captureTimes times _ c)
  statement {N s c x} held shown steady := by
    dsimp only
    rw [shown ()]
    exact .capture held c steady

theorem Chronicle.evaluate_spends {N : Node} {e : Expression} (held : N.Holds (.expression e))
    (fuel : Nat) (c : ContextId) : Spends N (evaluate observer fuel e c) := by
  cases fuel with
  | zero =>
    intro m m' v _ ran
    rw [evaluate] at ran
    cases ran
  | succ fuel =>
    exact (nested_steady fuel).evaluate_succ (fun _ => Steady.placed ()) (captures_spend fuel) held c

theorem Chronicle.execute_spends {N : Node} {s : Statement} (held : N.Holds (.statement s))
    (fuel : Nat) (c : ContextId) : Spends N (execute observer fuel s c) := by
  cases fuel with
  | zero =>
    intro m m' v _ ran
    rw [execute] at ran
    cases ran
  | succ fuel =>
    exact (nested_steady fuel).execute_succ (fun _ => Steady.placed ()) (captures_spend fuel) held c

/-! ### rounds -/

theorem World.calls_update (c : ContextId) (f : Context → Context)
    (same : ∀ d : Context, (f d).calls = d.calls) (w : World) :
    ((w.update c f).context c).calls = (w.context c).calls :=
  Contexts.related_update (R := fun a b => b.calls = a.calls) (fun _ => rfl) (same _) c

/-- A context in which a round was opened and is closed again. -/
structure World.Rounded (c : ContextId) (w w' : World) : Prop where
  heap : w'.heap = w.heap
  size : w'.contexts.size = w.contexts.size
  calls : (w'.context c).calls = (w.context c).calls

theorem World.Rounded.opened (c : ContextId) (w : World) :
    Rounded c w ((w.enterScope c).update c Context.pushLoop) where
  heap := rfl
  size := by
    unfold World.enterScope World.update Contexts.update
    rw [Array.size_modify, Array.size_modify]
  calls := by
    rw [calls_update c Context.pushLoop (fun _ => rfl)]
    exact calls_update c Context.enter (fun _ => rfl) w

theorem World.Rounded.trans {c : ContextId} {w w' w'' : World} (h : Rounded c w w')
    (k : Rounded c w' w'') : Rounded c w w'' :=
  ⟨k.heap.trans h.heap, k.size.trans h.size, k.calls.trans h.calls⟩

/-- Closing a round. -/
theorem World.Rounded.closed (c : ContextId) (w : World) :
    Rounded c w ((w.popLoop c).2.leaveScope c) := by
  have left : ∀ w : World, Rounded c w (w.leaveScope c) := fun w =>
    ⟨rfl, Array.size_modify, calls_update c Context.leave (fun _ => rfl) w⟩
  refine Rounded.trans ?_ (left _)
  unfold World.popLoop Context.popLoop
  cases (w.context c).loops with
  | nil => exact ⟨rfl, rfl, rfl⟩
  | cons frame rest =>
    refine ⟨rfl, Array.size_setIfInBounds, ?_⟩
    change (Contexts.context (w.contexts.setIfInBounds c _) c).calls = (w.contexts.context c).calls
    refine Contexts.related_set (R := fun a b => b.calls = a.calls) (fun _ => rfl) ?_ c
    rfl

/-- The frame of a round in which nothing was done. -/
theorem World.popLoop_opened {c : ContextId} {w : World} (live : c < w.contexts.size) :
    (((w.enterScope c).update c Context.pushLoop).popLoop c).1 = .ok {} := by
  have here : ((w.enterScope c).update c Context.pushLoop).context c =
      ((w.context c).enter).pushLoop := by
    have entered : (w.enterScope c).context c = (w.context c).enter :=
      Contexts.context_update_self live Context.enter
    have size : c < (w.enterScope c).contexts.size := by
      unfold World.enterScope World.update Contexts.update
      rw [Array.size_modify]
      exact live
    rw [← entered]
    exact Contexts.context_update_self size Context.pushLoop
  unfold World.popLoop
  rw [here]
  rfl

theorem World.popLoop_gone {c : ContextId} {w : World} (gone : ¬ c < w.contexts.size) :
    (w.popLoop c).1 = .error .noLoop := by
  have here : w.context c = .root := by
    unfold World.context Contexts.context
    rw [Array.getElem?_eq_none (Nat.le_of_not_lt gone)]
    rfl
  unfold World.popLoop
  rw [here]
  rfl

/-- A round breaks off if no level is left for its scope. -/
theorem Eval.round_of_full (x : Statement → Eval Chronicle Value) {c : ContextId} (span : Span)
    (ss : List Statement) (step : Option (Eval Chronicle Value)) {m : Machine Chronicle}
    (full : (m.world.context c).full = true) : Eval.round x c span ss step m = (.aborted, m) :=
  bind_aborted (openScope_of_full full)

/-- A round runs in a scope of its own, with a frame of its own. -/
theorem Eval.inRound_of_free {c : ContextId} {span : Span} {x : Eval Chronicle α}
    {m : Machine Chronicle} (free : (m.world.context c).full = false) :
    inRound c span x m =
      closing span x (fun w => ((w.popLoop c).1, (w.popLoop c).2.leaveScope c))
        ⟨(m.world.enterScope c).update c Context.pushLoop, m.watch⟩ :=
  bind_ok (openScope_of_free free)

/-- **A round without a body**, after which there is no step or none is made, shows nothing and
changes nothing but the scopes of its context, of which as many are open afterwards as before. -/
theorem Eval.round_nil (x : Statement → Eval Chronicle Value) (c : ContextId) (span : Span)
    (step : Option (Eval Chronicle Value)) (w : World) (t : Chronicle)
    (quiet : step = none ∨ (w.context c).hasReturned = true) (free : (w.context c).full = false) :
    ∃ o w', Eval.round x c span [] step ⟨w, t⟩ = (o, ⟨w', t⟩) ∧ w.Rounded c w' ∧
      (c < w.contexts.size → o = .ok (!(w.context c).hasReturned) ∧
        (w'.context c).level = (w.context c).level) ∧
      (¬ c < w.contexts.size → ∃ e, o = .error e) := by
  let w₁ := (w.enterScope c).update c Context.pushLoop
  let w₂ := (w₁.popLoop c).2.leaveScope c
  have opened : w.Rounded c w₁ := .opened c w
  have rounded : w.Rounded c w₂ := opened.trans (.closed c w₁)
  have returned : ∀ {w' : World}, w.Rounded c w' →
      (w'.context c).hasReturned = (w.context c).hasReturned := by
    intro w' h
    unfold Context.hasReturned
    rw [h.calls]
  -- Nothing is done inside, so the round is closed in the world in which it was opened.
  have idle : (Eval.body x c [] >>= fun _ => afterBody c step) ⟨w₁, t⟩ = (.ok (), ⟨w₁, t⟩) := by
    change afterBody c step ⟨w₁, t⟩ = _
    cases step with
    | none => rfl
    | some step =>
      have asked : Eval.ask (fun w => (w.context c).hasReturned) ⟨w₁, t⟩ =
          (.ok true, (⟨w₁, t⟩ : Machine Chronicle)) := by
        change (Outcome.ok (w₁.context c).hasReturned, _) = _
        rw [returned opened]
        simpa using quiet
      exact bind_ok asked
  have closes : inRound c span (Eval.body x c [] >>= fun _ => afterBody c step) ⟨w, t⟩ =
      Eval.perform span (fun w => ((w.popLoop c).1, (w.popLoop c).2.leaveScope c)) ⟨w₁, t⟩ :=
    (inRound_of_free free).trans (closing_ok idle)
  unfold Eval.perform at closes
  dsimp only at closes
  rw [Eval.round_eq]
  by_cases live : c < w.contexts.size
  · rw [World.popLoop_opened live] at closes
    rw [bind_ok closes]
    have level : (w₂.context c).level = (w.context c).level :=
      (World.Under.round free ((World.Under.grown c).refl w₁) live).here.level
    refine ⟨_, w₂, rfl, rounded, fun _ => ⟨?_, level⟩, fun gone => absurd live gone⟩
    change Outcome.ok (!false && !(w₂.context c).hasReturned) = _
    rw [returned rounded]
    rfl
  · have gone : ¬ c < w₁.contexts.size := by rw [opened.size]; exact live
    rw [World.popLoop_gone gone] at closes
    rw [bind_error closes]
    exact ⟨_, w₂, rfl, rounded, fun here => absurd here live, fun _ => ⟨_, rfl⟩⟩

/-- A body with something in it takes a moment. -/
theorem Eval.Spends.body {N : Node} {x : Statement → Eval Chronicle Value} (c : ContextId)
    {ss : List Statement} (hs : ∀ s ∈ ss, Steady (x s) ∧ Spends N (x s)) (filled : ss ≠ []) :
    Spends N (Eval.body x c ss) := by
  cases ss with
  | nil => exact absurd rfl filled
  | cons s ss =>
    obtain ⟨first, others⟩ := List.forall_mem_cons.1 hs
    refine first.2.bind fun _ => .bind (fun m => .refl m) fun stop => ?_
    cases stop with
    | true => exact fun m => .refl m
    | false =>
      exact (Steady.placed ()).body (x := fun s _ => x s) c fun s member => (others s member).1

theorem Eval.Steady.afterBody {c : ContextId} {step : Option (Eval Chronicle Value)}
    (ha : ∀ a ∈ step, Steady a) : Steady (afterBody c step) := by
  cases step with
  | none => exact fun m => .refl m
  | some a =>
    refine .bind (fun m => .refl m) fun returned => ?_
    cases returned with
    | true => exact fun m => .refl m
    | false => exact .bind (ha a rfl) fun _ m => .refl m

/-- What is inside a round takes a moment, unless there is nothing in it or the call has returned. -/
theorem Eval.inside_spends {N : Node} {x : Statement → Eval Chronicle Value} {c : ContextId}
    {ss : List Statement} {step : Option (Eval Chronicle Value)}
    (hs : ∀ s ∈ ss, Steady (x s) ∧ Spends N (x s)) (ha : ∀ a ∈ step, Steady a ∧ Spends N a)
    {w : World} {t : Chronicle} (top : t.opened.head? = some N)
    (nonempty : ss ≠ [] ∨ step ≠ none ∧ (w.context c).hasReturned = false) {m' : Machine Chronicle}
    (ran : (Eval.body x c ss >>= fun _ => afterBody c step) ⟨w, t⟩ = (.ok (), m')) :
    t.moments.length < m'.watch.moments.length := by
  by_cases filled : ss ≠ []
  · have after : Steady (afterBody c step) := .afterBody fun a member => (ha a member).1
    have spends := (Spends.body c hs filled).bind fun _ : Unit => after
    exact spends ⟨w, t⟩ m' () top ran
  · obtain rfl := not_ne_iff.1 filled
    obtain ⟨some_step, unreturned⟩ : step ≠ none ∧ (w.context c).hasReturned = false := by
      simpa using nonempty
    obtain ⟨a, rfl⟩ := Option.ne_none_iff_exists'.1 some_step
    have asked : Eval.ask (fun w => (w.context c).hasReturned) ⟨w, t⟩ =
        (.ok false, (⟨w, t⟩ : Machine Chronicle)) := by
      change (Outcome.ok (w.context c).hasReturned, _) = _
      rw [unreturned]
    change (Eval.ask (fun w => (w.context c).hasReturned) >>= fun returned =>
      if returned then pure () else a >>= fun _ => pure ()) ⟨w, t⟩ = _ at ran
    rw [bind_ok asked] at ran
    exact ((ha a rfl).2.bind fun _ m => .refl m) ⟨w, t⟩ m' () top ran

/-- **A round with something in it takes a moment**, or the loop does not go on. -/
theorem Eval.round_spends {N : Node} {x : Statement → Eval Chronicle Value} {c : ContextId}
    {span : Span} {ss : List Statement} {step : Option (Eval Chronicle Value)}
    (hs : ∀ s ∈ ss, Steady (x s) ∧ Spends N (x s)) (ha : ∀ a ∈ step, Steady a ∧ Spends N a)
    (nonempty : ss ≠ [] ∨ step ≠ none) {m m' : Machine Chronicle}
    (top : m.watch.opened.head? = some N)
    (ran : Eval.round x c span ss step m = (.ok true, m')) :
    m.watch.moments.length < m'.watch.moments.length := by
  obtain ⟨w, t⟩ := m
  have free : (w.context c).full = false := by
    by_contra full
    rw [Eval.round_of_full x span ss step (Bool.not_eq_false _ ▸ full)] at ran
    cases ran
  by_cases quiet : ss = [] ∧ (w.context c).hasReturned = true
  · -- Nothing is done any more, and the loop ends.
    obtain ⟨rfl, returned⟩ := quiet
    obtain ⟨o, w', same, _, here, gone⟩ := Eval.round_nil x c span step w t (.inr returned) free
    rw [same] at ran
    cases ran
    by_cases live : c < w.contexts.size
    · have ended := (here live).1
      rw [returned] at ended
      cases ended
    · obtain ⟨e, failed⟩ := gone live
      cases failed
  · let w₁ := (w.enterScope c).update c Context.pushLoop
    have calls : (w₁.context c).calls = (w.context c).calls := (World.Rounded.opened c w).calls
    rw [Eval.round_eq] at ran
    obtain ⟨frame, m₁, closed, asked⟩ := of_bind_ok ran
    rw [Eval.inRound_of_free free] at closed
    obtain ⟨_, m₂, inside, popped⟩ := of_closing_ok (m := ⟨w₁, t⟩) closed
    have unasked : m' = m₁ := (congrArg Prod.snd asked).symm
    rw [unasked, (of_perform_ok popped).2]
    refine Eval.inside_spends hs ha top ?_ inside
    rcases nonempty with filled | stepped
    · exact .inl filled
    · by_cases empty : ss = []
      · refine .inr ⟨stepped, ?_⟩
        have unreturned : ¬ (w.context c).hasReturned = true := fun h => quiet ⟨empty, h⟩
        unfold Context.hasReturned at unreturned ⊢
        rw [calls]
        exact eq_false_of_ne_true unreturned
      · exact .inl empty

end Roteiro
