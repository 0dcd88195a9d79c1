import Mathlib.Data.List.Basic
import Roteiro.Proofs.Flow.Following

/-!
Signals in frames implement structured control flow. By induction on the fuel all statements follow
the structured ones, and all expressions have the same values. Run in a context without frames, a
script ends as the structured evaluator says, and all frames are as they were before
(`Session.ends_iff_structured`).
-/

namespace Roteiro

open Eval World

theorem Observer.none_silent : Observer.none.Silent := ⟨fun _ _ _ => rfl, fun _ _ _ => rfl⟩

theorem Observer.captureTimes_none (times : Nat) (node : Node) (c : ContextId)
    (x : Eval Unit Value) : Observer.none.captureTimes times node c x = x := by
  induction times with
  | zero => rfl
  | succ times ih =>
    unfold captureTimes
    rw [capture_none, ih]

/-! ### the evaluators -/

/-- With this much fuel all functions of the evaluator follow the structured ones. -/
structure Simulates (fuel : Nat) : Prop where
  value : ∀ e c, Mirrors Contexts.bare (evaluate .none fuel e c) (Structured.value fuel e c)
  statement : ∀ s c, Follows c id Flow.value (execute .none fuel s c)
    fun p => Structured.statement fuel p s c
  whileLoop : ∀ e ss c, Follows c id (fun _ => ()) (whileRounds .none fuel e ss c)
    fun p => Structured.whileLoop fuel p e ss c
  countLoop : ∀ i limit step ss c,
    Follows c id (fun _ => ()) (countRounds .none fuel i limit step ss c)
      fun p => Structured.countLoop fuel p i limit step ss c
  eachLoop : ∀ it i j span ss c,
    Follows c id (fun _ => ()) (eachRounds .none fuel it i j span ss c)
      fun p => Structured.eachLoop fuel p it i j ss c

namespace Simulates

variable {fuel : Nat} (ih : Simulates fuel)

include ih

theorem aligned (e : Expression) (c : ContextId) :
    Aligned (evaluate .none fuel e c) (Structured.value fuel e c) :=
  ⟨ih.value e c, Observer.none_silent.evaluate_keeps fuel e c⟩

theorem value_succ (e : Expression) (c : ContextId) :
    Mirrors Contexts.bare (evaluate .none (fuel + 1) e c) (Structured.value (fuel + 1) e c) := by
  have he := fun e => ih.value e c
  have h : Compatible fun {α} => @Mirrors Unit α Contexts.bare := Mirrors.bare
  cases e with
  | atom a span =>
    rw [evaluate, Observer.captureTimes_none, Structured.value]
    exact h.atom a span c
  | array items span =>
    rw [evaluate, Observer.captureTimes_none, Structured.value]
    exact h.bind (h.all fun e _ => he e) fun _ => h.make (.newArray _)
  | dictionary entries span =>
    rw [evaluate, Observer.captureTimes_none, Structured.value]
    exact h.bind (h.entries _ fun e _ => he e) fun _ => h.make (.newDictionary _)
  | function routine =>
    rw [evaluate, Observer.captureTimes_none, Structured.value]
    exact h.make (.newFunction _)
  | negate operand span =>
    rw [evaluate, Observer.captureTimes_none, Structured.value]
    exact h.bind (he operand) fun _ => h.require span _
  | binary op left right span =>
    rw [evaluate, Observer.captureTimes_none, Structured.value]
    exact h.bind (h.operand op (he left)) fun _ => h.bind (h.operand op (he right)) fun _ =>
      h.require span _
  | call callee arguments span =>
    rw [evaluate, Observer.captureTimes_none, Structured.value]
    refine h.bind (he callee) fun f => h.bind (h.all fun e _ => he e) fun vs => ?_
    cases f with
    | function _ closure => exact .callClosure ih.statement closure vs span
    | native _ b =>
      dsimp only
      split
      · exact h.aborted
      · exact h.perform span (.callBuiltin b vs)
    | _ => exact h.raise _ span
  | property object key span =>
    rw [evaluate, Observer.captureTimes_none, Structured.value]
    exact h.bind (he object) fun x => h.bind (he key) fun k => h.perform span (.property x k)

theorem statement_succ (s : Statement) (c : ContextId) :
    Follows c id Flow.value (execute .none (fuel + 1) s c)
      fun p => Structured.statement (fuel + 1) p s c := by
  have he := fun e => ih.aligned e c
  have hs := fun s => ih.statement s c
  have h : Compatible fun {α} => @Aligned α := Aligned.compatible
  cases s with
  | declaration name e span =>
    simp only [execute, Observer.capture_none, Structured.statement]
    exact .bind (.of_aligned (he e)) fun v => .bind (.define name.span name.text v) fun _ =>
      .pure (Flow.normal v) fun f => .normal v f
  | assignment a =>
    simp only [execute, Observer.capture_none, Structured.statement]
    exact .value (h.assign c fun e _ => he e)
  | expression e =>
    simp only [execute, Observer.capture_none, Structured.statement]
    exact .value (he e)
  | block body span =>
    simp only [execute, Observer.capture_none, Structured.statement]
    exact .void (.inScope span (.body hs body))
  | whileLoop condition body span =>
    simp only [execute, Observer.capture_none, Structured.statement]
    exact .void (ih.whileLoop condition body c)
  | countLoop counter first limit step body span =>
    simp only [execute, Observer.capture_none, Structured.statement]
    have knows : Aligned (Eval.ask fun w => w.knows c counter.text)
        (Eval.ask fun w => w.knows c counter.text) :=
      ⟨.ask fun w => congrArg Option.isSome (w.contexts.bare_resolve c counter.text),
        .ask SameShape.composes _⟩
    have rounds := ih.countLoop counter limit step body c
    refine .void (.inScope span (.bind (.of_aligned knows) fun known => ?_))
    -- With the counter known or defined, both set it to its first value and go round.
    have define := Follows.define (c := c) counter.span counter.text (.number 0)
    have set (v : Value) := h.perform counter.span (.assign c counter.text v)
    cases first with
    | none =>
      cases known with
      | true => exact rounds
      | false => exact .bind define fun _ => rounds
    | some e =>
      cases known with
      | true =>
        exact .bind (.of_aligned (he e)) fun v => .bind (.of_aligned (set v)) fun _ => rounds
      | false =>
        exact .bind define fun _ =>
          .bind (.of_aligned (he e)) fun v => .bind (.of_aligned (set v)) fun _ => rounds
  | eachLoop key value collection body span =>
    simp only [execute, Observer.capture_none, Structured.statement]
    have iterate (v : Value) : Aligned (Eval.perform collection.span fun w => (w.heap.iterate v, w))
        (Eval.perform collection.span fun w => (w.heap.iterate v, w)) :=
      ⟨.perform _ fun _ => rfl, .perform _ fun w => .refl w⟩
    exact .bind (.of_aligned (he collection)) fun v => .bind (.of_aligned (iterate v)) fun it =>
      .void (.inScope span (.bind (.define key.span key.text .null) fun _ =>
        .bind (.define value.span value.text .null) fun _ =>
          ih.eachLoop it key value collection.span body c))
  | function routine =>
    simp only [execute, Observer.capture_none, Structured.statement]
    refine .bind (.of_aligned (h.make (.newFunction ⟨routine, c⟩))) fun f => ?_
    cases routine.name with
    | none => exact .pure (Flow.normal f) fun _ => .normal f _
    | some name =>
      exact .bind (.define name.span name.text f) fun _ => .pure (Flow.normal f) fun _ => .normal f _
  | conditional branches otherwise span =>
    simp only [execute, Observer.capture_none, Structured.statement]
    refine .bind (.of_aligned (h.choose otherwise fun e _ => he e)) fun chosen => ?_
    cases chosen with
    | none => exact .pure (Flow.normal .null) fun _ => .normal _ _
    | some body => exact .void (.inScope span (.body hs body))
  | breakLoop span =>
    simp only [execute, Observer.capture_none, Structured.statement]
    exact .looping span rfl .breaking
  | continueLoop span =>
    simp only [execute, Observer.capture_none, Structured.statement]
    exact .looping span rfl .continuing
  | returnValues values span =>
    simp only [execute, Observer.capture_none, Structured.statement]
    exact .bind (.of_aligned (h.all fun e _ => he e)) fun vs => .returning span vs

theorem whileLoop_succ (condition : Expression) (ss : List Statement) (c : ContextId) :
    Follows c id (fun _ => ()) (whileRounds .none (fuel + 1) condition ss c)
      fun p => Structured.whileLoop (fuel + 1) p condition ss c := by
  have h : Compatible fun {α} => @Aligned α := Aligned.compatible
  simp only [whileRounds, Structured.whileLoop]
  refine .bind (.of_aligned (ih.aligned condition c)) fun v =>
    .bind (.of_aligned (h.require condition.span v.truth)) fun holds => ?_
  cases holds with
  | false => exact .pure (Flow.normal .null) fun _ => .normal _ _
  | true =>
    exact .again (.round condition.span (fun s => ih.statement s c) ss .none)
      (ih.whileLoop condition ss c)

theorem countLoop_succ (counter : Ident) (limit : Option Expression) (step : Option Assignment)
    (ss : List Statement) (c : ContextId) :
    Follows c id (fun _ => ()) (countRounds .none (fuel + 1) counter limit step ss c)
      fun p => Structured.countLoop (fuel + 1) p counter limit step ss c := by
  have h : Compatible fun {α} => @Aligned α := Aligned.compatible
  have after : Option.Rel Aligned
      (step.map (Eval.assign (fun e => evaluate .none fuel e c) c))
      (step.map (Eval.assign (fun e => Structured.value fuel e c) c)) := by
    cases step with
    | none => exact .none
    | some a => exact .some (h.assign c fun e _ => ih.aligned e c)
  have turn := Follows.again
    (.round counter.span (fun s => ih.statement s c) ss after) (ih.countLoop counter limit step ss c)
  cases limit with
  | none =>
    simp only [countRounds, Structured.countLoop]
    exact turn
  | some e =>
    simp only [countRounds, Structured.countLoop]
    refine .bind (.of_aligned (ih.aligned e c)) fun v =>
      .bind (.of_aligned (h.perform counter.span (.lookup c counter.text))) fun current =>
        .bind (.of_aligned (h.require e.span (shortOf current v))) fun more => ?_
    cases more with
    | false => exact .pure (Flow.normal .null) fun _ => .normal _ _
    | true => exact turn

theorem eachLoop_succ (it : Iteration) (key value : Ident) (span : Span) (ss : List Statement)
    (c : ContextId) :
    Follows c id (fun _ => ()) (eachRounds .none (fuel + 1) it key value span ss c)
      fun p => Structured.eachLoop (fuel + 1) p it key value ss c := by
  have h : Compatible fun {α} => @Aligned α := Aligned.compatible
  have advance : Aligned (Eval.ask fun w => w.heap.advance it) (Eval.ask fun w => w.heap.advance it) :=
    ⟨.ask fun _ => rfl, .ask SameShape.composes _⟩
  simp only [eachRounds, Structured.eachLoop]
  refine .bind (.of_aligned advance) fun next => ?_
  obtain ⟨entry, it⟩ := next
  cases entry with
  | none => exact .pure (Flow.normal .null) fun _ => .normal _ _
  | some entry =>
    exact .bind (.of_aligned (h.perform key.span (.assign c key.text entry.1))) fun _ =>
      .bind (.of_aligned (h.perform value.span (.assign c value.text entry.2))) fun _ =>
        .again (.round span (fun s => ih.statement s c) ss .none)
          (ih.eachLoop it key value span ss c)

end Simulates

theorem Simulates.all (fuel : Nat) : Simulates fuel := by
  induction fuel with
  | zero =>
    constructor
    · intro e c
      rw [evaluate, Structured.value]
      exact .exhausted
    · intro s c
      simp only [execute, Structured.statement]
      exact .exhausted
    · intro e ss c
      simp only [whileRounds, Structured.whileLoop]
      exact .exhausted
    · intro i limit step ss c
      simp only [countRounds, Structured.countLoop]
      exact .exhausted
    · intro it i j span ss c
      simp only [eachRounds, Structured.eachLoop]
      exact .exhausted
  | succ fuel ih =>
    exact ⟨ih.value_succ, ih.statement_succ, ih.whileLoop_succ, ih.countLoop_succ, ih.eachLoop_succ⟩

/-! ### scripts -/

/-- Statements in a context without frames have the values that the structured ones have. -/
theorem Follows.script {c : ContextId} {x : Statement → Eval Unit Value}
    {y : Place → Statement → Eval Unit Flow} (h : ∀ s, Follows c id Flow.value (x s) fun p => y p s)
    (ss : List Statement) (last : Value) (m : Machine Unit) (hc : c < m.world.contexts.size)
    (none : (m.world.context c).frames = ⟨[], []⟩) :
    Structured.script (y .outside) last ss (m.through Contexts.bare) =
      ((runStatements x last ss m).1, (runStatements x last ss m).2.through Contexts.bare) := by
  induction ss generalizing last m with
  | nil => rfl
  | cons s ss ih =>
    have ran := h s m hc (by rw [none]; exact ⟨by simp, by simp⟩)
    rw [none] at ran
    change Matches c _ id Flow.value (x s m) (y .outside s (m.through Contexts.bare)) at ran
    change Eval.bind (y .outside s) _ (m.through Contexts.bare) =
      ((Eval.bind (x s) _ m).1, (Eval.bind (x s) _ m).2.through Contexts.bare)
    unfold Eval.bind
    generalize x s m = r at ran ⊢
    generalize y .outside s (m.through Contexts.bare) = r' at ran ⊢
    cases ran with
    | ok flow m' live marks =>
      obtain ⟨v, rfl⟩ := marks.of_no_frames
      exact ih v m' live marks.of_normal
    | error e m' => rfl
    | exhausted m' => rfl
    | aborted m' => rfl

/-- What runs in a context without frames leaves all frames as they were. -/
theorem World.Under.frames {c : ContextId} {w w' : World} (h : Under c Context.Grown w w')
    (hc : c < w.contexts.size) (none : (w.context c).frames = ⟨[], []⟩) (i : ContextId) :
    (w'.context i).frames = (w.context i).frames := by
  have ran := h hc
  by_cases hi : i = c
  · subst hi
    obtain ⟨loops, calls⟩ :=
      ran.here.frameless ⟨congrArg Frames.loops none, congrArg Frames.calls none⟩
    unfold Context.frames at none ⊢
    rw [none, loops, calls]
  · by_cases live : i < w.contexts.size
    · obtain ⟨-, -, loops, calls, -⟩ := Shape.mk.inj (ran.others i live hi)
      unfold Context.frames
      rw [loops, calls]
    · obtain ⟨loops, calls⟩ := ran.fresh i (Nat.not_lt.1 live)
      obtain ⟨loops', calls'⟩ := fresh_root (w := w) i (Nat.not_lt.1 live)
      unfold Context.frames
      rw [loops, calls, loops', calls']

/-- The structured run of a session ends with an outcome and leaves a world. -/
def Structured.Ends (s : Session) (w : World) (r : Outcome Value) (v : World) : Prop :=
  r ≠ .exhausted ∧ ∃ fuel, Structured.run fuel s w = (r, v)

variable {σ : Type}

section Sessions

variable {o : Observer σ} (h : o.Harmless) (s : Session) (m : Machine σ)
  (live : s.context < m.world.contexts.size)
  (none : (m.world.context s.context).frames = ⟨[], []⟩)

theorem Session.rest_none (fuel : Nat) :
    s.rest .none fuel =
      runStatements (fun st => execute .none fuel st s.context) .null s.remaining :=
  Observer.capture_none _ _ _

include h

theorem Session.rest_unobserved (fuel : Nat) :
    s.rest .none fuel ⟨m.world, ()⟩ = ((s.rest o fuel m).1, ⟨(s.rest o fuel m).2.world, ()⟩) :=
  s.rest_mirrors h fuel m

include live none

/-- With any amount of fuel a session in a context without frames runs as the structured one. -/
theorem Session.rest_structured (fuel : Nat) :
    Structured.run fuel s (m.world.through Contexts.bare) =
      ((s.rest o fuel m).1, (s.rest o fuel m).2.world.through Contexts.bare) := by
  have script := Follows.script (fun st => (Simulates.all fuel).statement st s.context)
    s.remaining .null ⟨m.world, ()⟩ live none
  rw [← s.rest_none, s.rest_unobserved h m] at script
  exact congrArg (fun p => (p.1, p.2.world)) script

theorem Session.rest_frames (fuel : Nat) (ended : (s.rest o fuel m).1.Ended) (i : ContextId) :
    ((s.rest o fuel m).2.world.context i).frames = (m.world.context i).frames := by
  have ran := Observer.none_silent.runStatements_keeps fuel .null s.remaining s.context ⟨m.world, ()⟩
  rw [← s.rest_none, s.rest_unobserved h m] at ran
  exact (ran ended).frames live none i

end Sessions

/-- **Signals in frames implement structured control flow.** A session in a context without frames
ends exactly if the structured run in bare contexts ends, with the same value or error and, frames
apart, the same world; and no frame is left open or marked by a run that ends with a value or an
error. -/
theorem Session.ends_iff_structured {o : Observer σ} (h : o.Harmless) (s : Session)
    (m : Machine σ) (live : s.context < m.world.contexts.size)
    (none : (m.world.context s.context).frames = ⟨[], []⟩) :
    (∀ r s' w, s.Ends o m r s' w →
      Structured.Ends s (m.world.through Contexts.bare) r (w.through Contexts.bare) ∧
        (r.Ended → ∀ i, (w.context i).frames = (m.world.context i).frames)) ∧
    ∀ r v, Structured.Ends s (m.world.through Contexts.bare) r v →
      ∃ w, s.Ends o m r s.exhaust w ∧ w.through Contexts.bare = v := by
  refine ⟨?_, ?_⟩
  · rintro r s' w ⟨hr, fuel, watch, run⟩
    have parts : ((s.rest o fuel m).1, s.exhaust, (s.rest o fuel m).2) = (r, s', ⟨w, watch⟩) := run
    obtain ⟨rfl, others⟩ := Prod.mk.inj parts
    obtain ⟨-, left⟩ := Prod.mk.inj others
    have structured := s.rest_structured h m live none fuel
    have frames := s.rest_frames h m live none fuel
    rw [left] at structured frames
    exact ⟨⟨hr, fuel, structured⟩, frames⟩
  · rintro r v ⟨hr, fuel, run⟩
    rw [s.rest_structured h m live none fuel] at run
    obtain ⟨rfl, rfl⟩ := Prod.mk.inj run
    exact ⟨(s.rest o fuel m).2.world, ⟨hr, fuel, (s.rest o fuel m).2.watch, rfl⟩, rfl⟩

/-- A function that returns from inside a loop, called in a loop that its caller breaks. -/
theorem Session.ends_structured_of_return :
    let f : Ident := ⟨"f", ⟨0, 1⟩⟩
    let yes : Expression := .atom (.boolean true) ⟨0, 1⟩
    let routine : Routine := .mk (some f) []
      [.whileLoop yes [.returnValues [.atom (.string "a") ⟨0, 1⟩] ⟨0, 1⟩] ⟨0, 1⟩] ⟨0, 1⟩
    let call : Expression := .call (.atom (.identifier f) ⟨0, 1⟩) [] ⟨0, 1⟩
    let s : Session :=
      { program := ⟨[.function routine, .whileLoop yes [.expression call, .breakLoop ⟨0, 1⟩] ⟨0, 1⟩,
          .expression call], ⟨0, 9⟩⟩
        context := 0 }
    let w : World := { contexts := #[.root], terminal := .captured [] }
    let w' : World :=
      { w with
        contexts := #[{ Context.root with locals := [⟨"f", 1, .function 0 ⟨routine, 0⟩⟩] },
          .inside 0, .inside 0]
        identities := 1 }
    s.Ends .tally ⟨w, 0⟩ (.ok (.string "a")) s.exhaust w' ∧
      Structured.Ends s (w.through Contexts.bare) (.ok (.string "a")) (w'.through Contexts.bare) := by
  intro f yes routine call s w w'
  have ends : s.Ends .tally ⟨w, 0⟩ (.ok (.string "a")) s.exhaust w' :=
    ⟨by simp, 12, 97, by cbv⟩
  have agree := s.ends_iff_structured Observer.tally_harmless ⟨w, 0⟩ Nat.zero_lt_one rfl
  exact ⟨ends, (agree.1 _ _ _ ends).1⟩

end Roteiro
