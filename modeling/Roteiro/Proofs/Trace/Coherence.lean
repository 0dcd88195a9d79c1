import Mathlib.Data.List.Permutation
import Roteiro.Proofs.Flow.Signals
import Roteiro.Proofs.Trace.Narration

/-!
Every run of a session is coherent. By induction on the fuel, all functions of the evaluator go on
with the tasks that they are given (`Narrates.all`): names are defined only by the statements that
are to define them, and right after a moment; and a statement that breaks, continues or returns
where it may not ends the run (`Session.reports`).
-/

namespace Roteiro

open Eval World Chronicle

variable {α : Type}

/-! ### signals -/

/-- A signal to a frame of the context at work: it fails as a misplaced node has to, or it changes
nothing but frames that are there, for a node that is not misplaced. -/
theorem Chronicle.Works.signal {N : Node} {T : List Task} {c : ContextId} {vs : List Value}
    {fresh : Bool} {m : Machine Chronicle} (works : Works (⟨N, vs⟩ :: T) c fresh m)
    {f : Context → Except RuntimeFault Context} {span : Span}
    (failed : ∀ fault, f (m.world.context c) = .error fault →
      ∀ e, Misplaced (⟨N, vs⟩ :: T) e → e = ⟨fault, span⟩)
    (signalled : ∀ a, f (m.world.context c) = .ok a →
      (∃ loops calls, a = { m.world.context c with loops, calls } ∧
        (loops ≠ [] → (m.world.context c).loops ≠ []) ∧
        (calls ≠ [] → (m.world.context c).calls ≠ [])) ∧
      ∀ e, ¬ Misplaced (⟨N, vs⟩ :: T) e) :
    Reports (fun _ m' => ∃ us, Works (⟨N, us⟩ :: T) c false m' ∧ ∀ e, ¬ Misplaced (⟨N, us⟩ :: T) e)
      ((do
        Eval.perform span (World.onContext c f)
        Pure.pure Value.null : Eval Chronicle Value) m) := by
  change Reports _ (Eval.bind (Eval.perform span _) _ m)
  unfold Eval.bind Eval.perform
  rcases onContext_cases c f m.world with ⟨a, done, result⟩ | ⟨fault, same, result⟩
  · rw [result]
    obtain ⟨⟨loops, calls, rfl, hl, hc⟩, placed⟩ := signalled a done
    have k := At.set works.live { m.world.context c with loops, calls }
    exact .ok ⟨vs, (works.frames k rfl rfl hl hc).stale, placed⟩
  · rw [result]
    refine .short (by simp) works.coherent fun e he => ?_
    rw [works.tasks] at he
    rw [failed fault same e he]

/-- To signal a loop is misplaced exactly where no loop runs. -/
theorem Eval.Begins.signal {s : Statement} {span : Span} (T : List Task) (c : ContextId)
    (f : LoopFrame → LoopFrame) (plain : s.repeats = false)
    (misplaced : ∀ vs e, Misplaced (⟨.statement s, vs⟩ :: T) e →
      (Place.within T).inLoop = false ∧ e = ⟨.noLoop, span⟩) :
    Begins (.statement s) T c (do
      Eval.perform span (World.onContext c (·.signal f))
      Pure.pure Value.null) := by
  intro m works
  have around : Place.around (⟨.statement s, []⟩ :: T) = Place.within T := by
    change (Place.within T).inner s = _
    unfold Place.inner
    rw [plain]
    rfl
  refine works.signal (fun fault failed e he => ?_) (fun a done => ?_)
  · unfold Context.signal at failed
    split at failed
    · cases failed
    · cases failed
      exact (misplaced _ e he).2
  · unfold Context.signal at done
    split at done
    · next frame rest loops =>
      cases done
      have running : (m.world.context c).loops ≠ [] := by rw [loops]; simp
      refine ⟨⟨_, _, rfl, fun _ => running, id⟩, fun e he => ?_⟩
      have looping := works.hosts.loops running
      rw [around, (misplaced _ e he).1] at looping
      cases looping
    · cases done

/-! ### the evaluator -/

/-- With this much fuel all functions of the evaluator keep a run coherent. -/
structure Narrates (fuel : Nat) : Prop where
  evaluate : ∀ N T e c, Answers N T c (evaluate observer fuel e c)
  execute : ∀ T s c, Performs T s c (execute observer fuel s c)
  whileRounds : ∀ T e ss span c, Goes (.statement (.whileLoop e ss span)) T c false false
    (whileRounds observer fuel e ss c)
  countRounds : ∀ T counter first limit step ss span c,
    Goes (.statement (.countLoop counter first limit step ss span)) T c false false
      (countRounds observer fuel counter limit step ss c)
  eachRounds : ∀ T key value e ss span it c,
    Goes (.statement (.eachLoop key value e ss span)) T c false false
      (eachRounds observer fuel it key value e.span ss c)

namespace Narrates

variable {fuel : Nat} (ih : Narrates fuel)

include ih

theorem part {N : Node} (quiet : N.Quiet) (T : List Task) (e : Expression) (c : ContextId) :
    Goes N T c false true (Roteiro.evaluate observer fuel e c) :=
  (ih.evaluate N T e c).goes quiet

theorem inner {s t : Statement} (quiet : (Node.statement s).Quiet) (member : t ∈ s.inner)
    (T : List Task) (c : ContextId) :
    Goes (.statement s) T c false false (Roteiro.execute observer fuel t c) := by
  have answers : Answers (.statement s) T c (Roteiro.execute observer fuel t c) :=
    Performs.answers (.inner member) (by simp) (fun T => ih.execute T t c)
      (silent.execute_keeps fuel t c)
  exact (answers.goes quiet).stale

theorem call_begins (T : List Task) (callee : Expression) (arguments : List Expression) (span : Span)
    (c : ContextId) :
    Begins (.expression (.call callee arguments span)) T c (do
      let f ← Roteiro.evaluate observer fuel callee c
      let vs ← Eval.all (fun e => Roteiro.evaluate observer fuel e c) arguments
      match f with
      | .function _ closure => Eval.callClosure (Roteiro.execute observer fuel) closure vs span
      | .native _ b =>
        if b.breaksOff vs then Eval.aborted else Eval.perform span (World.callBuiltin b vs)
      | v => Eval.raise (.notCallable v.type) span) := by
  intro m works
  have quiet : (Node.expression (.call callee arguments span)).Quiet := trivial
  suffices goes : Reports (fun _ m' => ∃ vs,
      Works (⟨.expression (.call callee arguments span), vs⟩ :: T) c false m') _ from
    goes.mono fun _ _ ⟨vs, works'⟩ => ⟨vs, works', quiet.placed⟩
  have first := ih.evaluate _ T callee c m [] quiet.placed works.stale
  refine first.bind fun f m₁ works₁ => ?_
  have rest := Answers.all (fun e => ih.evaluate _ T e c) arguments [f] (fun _ _ => quiet.placed)
    works₁.stale
  refine rest.bind fun vs m₂ ⟨_, works₂⟩ => ?_
  cases f with
  | function _ closure =>
    exact works₂.call (fun T s d => ih.execute T s d) (silent.execute_keeps fuel) vs span
  | native _ b =>
    dsimp only
    split
    · exact (Goes.fit quiet).aborted m₂ _ works₂
    · exact (Goes.fit quiet).perform span (.callBuiltin b vs) m₂ _ works₂
  | _ => exact (Goes.fit quiet).raise _ span m₂ _ works₂

theorem evaluate_succ (N : Node) (T : List Task) (e : Expression) (c : ContextId) :
    Answers N T c (Roteiro.evaluate observer (fuel + 1) e c) := by
  have quiet : (Node.expression e).Quiet := trivial
  have he (T : List Task) (d : Expression) := (ih.part quiet T d c).stale
  have h (T : List Task) := Goes.fit (T := T) (c := c) quiet
  cases e with
  | atom a span =>
    rw [Roteiro.evaluate]
    exact .expression fun T => ((h T).atom a span c).late.begins quiet
  | array items span =>
    rw [Roteiro.evaluate]
    refine .expression fun T => Goes.begins quiet (Goes.late (Goes.bind ?_ fun vs =>
      .make fun w => .making (.newArray _) w))
    exact (h T).all (x := fun e _ => Roteiro.evaluate observer fuel e c) fun e _ => he T e
  | dictionary entries span =>
    rw [Roteiro.evaluate]
    simp only [Eval.entries_eq, Eval.bind_assoc]
    refine .expression fun T => Goes.begins quiet (Goes.late (Goes.bind ?_ fun l =>
      .make fun w => .making (.newDictionary _) w))
    exact (h T).pairs (x := fun e _ => Roteiro.evaluate observer fuel e c) fun e _ => he T e
  | function routine =>
    rw [Roteiro.evaluate]
    exact .expression fun T => Goes.begins quiet (Goes.late (.make fun w => .making (.newFunction _) w))
  | negate operand span =>
    rw [Roteiro.evaluate]
    exact .expression fun T => Goes.begins quiet (Goes.late ((he T operand).bind fun v =>
      (h T).require span v.negate))
  | binary op left right span =>
    rw [Roteiro.evaluate]
    have operand (T : List Task) (d : Expression) :=
      (h T).operand (x := fun e _ => Roteiro.evaluate observer fuel e c) op (he T d)
    exact .expression fun T => Goes.begins quiet (Goes.late (Goes.bind (operand T left) fun a =>
      Goes.bind (operand T right) fun b => (h T).require span (Value.apply op a b)))
  | call callee arguments span =>
    rw [Roteiro.evaluate]
    exact .expression fun T => ih.call_begins T callee arguments span c
  | property object key span =>
    rw [Roteiro.evaluate]
    exact .expression fun T => Goes.begins quiet (Goes.late ((he T object).bind fun x =>
      (he T key).bind fun k => (h T).perform span (.property x k)))

/-- To return is misplaced exactly where no call runs. -/
theorem return_begins (T : List Task) (es : List Expression) (span : Span) (c : ContextId) :
    Begins (.statement (.returnValues es span)) T c (do
      let vs ← Eval.all (fun e => Roteiro.evaluate observer fuel e c) es
      Eval.perform span (World.onContext c (·.pushReturns (if vs.isEmpty then [.null] else vs)))
      Pure.pure Value.null) := by
  intro m works
  have values := Answers.all (fun e => ih.evaluate _ T e c) es [] (fun us short e he => by
    cases he with
    | returnValues length _ => exact absurd length (Nat.ne_of_lt short)) works.stale
  refine values.bind fun vs m' ⟨length, works'⟩ => ?_
  change Works (⟨.statement (.returnValues es span), vs⟩ :: T) c false m' at works'
  refine works'.signal (fun fault failed e he => ?_) (fun a done => ?_)
  · unfold Context.pushReturns at failed
    split at failed
    · cases failed
    · cases failed
      cases he
      rfl
  · unfold Context.pushReturns at done
    split at done
    · next returned rest calls =>
      cases done
      have running : (m'.world.context c).calls ≠ [] := by rw [calls]; simp
      refine ⟨⟨_, _, rfl, id, fun _ => running⟩, fun e he => ?_⟩
      have calling : (Place.within T).inCall = true := works'.hosts.calls running
      cases he with
      | returnValues _ outside =>
        rw [calling] at outside
        cases outside
    · cases done

theorem execute_succ (T : List Task) (s : Statement) (c : ContextId) :
    Performs T s c (Roteiro.execute observer (fuel + 1) s c) := by
  -- Nearly all statements are well placed everywhere.
  have fits (quiet : (Node.statement s).Quiet) := Goes.fit (T := T) (c := c) quiet
  have he (quiet : (Node.statement s).Quiet) (e : Expression) := ih.part quiet T e c
  have hs (quiet : (Node.statement s).Quiet) {t : Statement} (member : t ∈ s.inner) :=
    ih.inner quiet member T c
  have define (quiet : (Node.statement s).Quiet) (span : Span) {name : String}
      (own : name ∈ s.defines) (v : Value) := Goes.define (T := T) (c := c) quiet span own v
  cases s with
  | declaration name value span =>
    rw [Roteiro.execute]
    exact .shown (Goes.begins trivial (Goes.late ((he trivial value).bind fun v =>
      .bind (define trivial name.span (List.mem_singleton_self _) v) fun _ => Goes.stale (.pure v))))
  | assignment a =>
    rw [Roteiro.execute]
    exact .shown (Goes.begins trivial (Goes.late ((fits trivial).assign
      (x := fun e _ => Roteiro.evaluate observer fuel e c) c fun e _ => (he trivial e).stale)))
  | expression e =>
    rw [Roteiro.execute]
    exact .shown (Goes.begins trivial (he trivial e).stale.late)
  | block body span =>
    have quiet : (Node.statement (.block body span)).Quiet := trivial
    rw [Roteiro.execute]
    exact .shown (Goes.begins quiet (Goes.late (Goes.bind
      (.inScope quiet span (.body fun t member => hs trivial member)) fun _ => .pure _)))
  | whileLoop condition body span =>
    rw [Roteiro.execute]
    exact .shown (Goes.begins trivial (Goes.late ((ih.whileRounds T condition body span c).bind
      fun _ => .pure _)))
  | countLoop counter first limit step body span =>
    rw [Roteiro.execute]
    have quiet : (Node.statement (.countLoop counter first limit step body span)).Quiet := trivial
    have rounds := ih.countRounds T counter first limit step body span c
    refine .shown (Goes.begins quiet (Goes.bind (.inScope quiet span
      (.bind (.ask _) fun known => ?_)) fun _ => .pure _))
    have start := Goes.first quiet counter first (he quiet) rounds
    -- A counter that is not known is defined right after the loop was begun.
    cases known with
    | true => exact start.late
    | false =>
      exact .bind (define trivial counter.span (List.mem_singleton_self _) _) fun _ => start.late
  | eachLoop key value collection body span =>
    rw [Roteiro.execute]
    have quiet : (Node.statement (.eachLoop key value collection body span)).Quiet := trivial
    have iterate (v : Value) : Goes (.statement (.eachLoop key value collection body span)) T c true
        true (Eval.perform collection.span fun w => (w.heap.iterate v, w)) :=
      .perform quiet collection.span fun _ _ works => works
    have rounds (it : Iteration) := ih.eachRounds T key value collection body span it c
    exact .shown (Goes.begins trivial (Goes.late ((he trivial collection).bind fun v =>
      (iterate v).bind fun it => .bind (.inScope quiet span
        (.bind (define trivial key.span (by simp [Statement.defines]) _) fun _ =>
          .bind (define trivial value.span (by simp [Statement.defines]) _) fun _ =>
            (rounds it).late)) fun _ => .pure _)))
  | function routine =>
    rw [Roteiro.execute]
    refine .shown (Goes.begins trivial (.bind (.make fun w => .making (.newFunction _) w) fun f => ?_))
    cases named : routine.name with
    | none => exact Goes.stale (.pure f)
    | some name =>
      refine .bind (define trivial name.span ?_ f) fun _ => Goes.stale (.pure f)
      rw [Statement.defines, named]
      exact List.mem_singleton_self _
  | conditional branches otherwise span =>
    rw [Roteiro.execute]
    have quiet : (Node.statement (.conditional branches otherwise span)).Quiet := trivial
    have block : ∀ body : List Statement,
        (∀ t ∈ body, t ∈ (Statement.conditional branches otherwise span).inner) →
        Goes (.statement (.conditional branches otherwise span)) T c false false
          (Eval.inScope c span (Eval.body (fun s => Roteiro.execute observer fuel s c) c body) >>=
            fun _ => Pure.pure Value.null) :=
      fun body inside => .bind (.inScope quiet span (.body fun t member => hs quiet (inside t member)))
        fun _ => .pure _
    refine .shown (Goes.begins quiet (Goes.late (.choose_bind quiet
      (fun e _ => (he quiet e).stale) (fun b member => block b.body fun t inside => ?_) ?_)))
    · exact List.mem_append_left _ (List.mem_flatMap.2 ⟨b, member, inside⟩)
    · cases otherwise with
      | none => exact Goes.pure _
      | some body => exact block body fun t member => List.mem_append_right _ member
  | breakLoop span =>
    rw [Roteiro.execute]
    exact .shown (.signal T c _ rfl fun vs e he => by
      cases he with
      | breakLoop outside => exact ⟨outside, rfl⟩)
  | continueLoop span =>
    rw [Roteiro.execute]
    exact .shown (.signal T c _ rfl fun vs e he => by
      cases he with
      | continueLoop outside => exact ⟨outside, rfl⟩)
  | returnValues values span =>
    rw [Roteiro.execute]
    exact .shown (ih.return_begins T values span c)

theorem whileRounds_succ (T : List Task) (condition : Expression) (ss : List Statement) (span : Span)
    (c : ContextId) :
    Goes (.statement (.whileLoop condition ss span)) T c false false
      (Roteiro.whileRounds observer (fuel + 1) condition ss c) := by
  have quiet : (Node.statement (.whileLoop condition ss span)).Quiet := trivial
  rw [Roteiro.whileRounds]
  refine (ih.part quiet T condition c).stale.bind fun v =>
    .bind ((Goes.fit quiet).require condition.span v.truth) fun holds => ?_
  cases holds with
  | false => exact .pure ()
  | true =>
    refine .bind (.round quiet condition.span (fun _ => rfl)
      (fun t member => ih.inner quiet member T c) (by simp)) fun again => ?_
    cases again with
    | false => exact .pure ()
    | true => exact ih.whileRounds T condition ss span c

theorem countRounds_succ (T : List Task) (counter : Ident) (first limit : Option Expression)
    (step : Option Assignment) (ss : List Statement) (span : Span) (c : ContextId) :
    Goes (.statement (.countLoop counter first limit step ss span)) T c false false
      (Roteiro.countRounds observer (fuel + 1) counter limit step ss c) := by
  have quiet : (Node.statement (.countLoop counter first limit step ss span)).Quiet := trivial
  have fits := Goes.fit (T := T) (c := c) quiet
  have stepped : ∀ y ∈ step.map (Eval.assign (fun e => Roteiro.evaluate observer fuel e c) c),
      Goes (.statement (.countLoop counter first limit step ss span)) T c false false y := by
    intro y hy
    obtain ⟨a, -, rfl⟩ := Option.map_eq_some_iff.1 hy
    exact fits.assign (x := fun e _ => Roteiro.evaluate observer fuel e c) c
      fun e _ => (ih.part quiet T e c).stale
  have turn : ∀ more : Bool, Goes (.statement (.countLoop counter first limit step ss span)) T c
      false false (if more then do
        if ← Eval.round (fun s => Roteiro.execute observer fuel s c) c counter.span ss
            (step.map (Eval.assign (fun e => Roteiro.evaluate observer fuel e c) c)) then
          Roteiro.countRounds observer fuel counter limit step ss c
      else Pure.pure ()) := by
    intro more
    cases more with
    | false => exact .pure ()
    | true =>
      refine .bind (.round quiet counter.span (fun _ => rfl)
        (fun t member => ih.inner quiet member T c) stepped) fun again => ?_
      cases again with
      | false => exact .pure ()
      | true => exact ih.countRounds T counter first limit step ss span c
  cases limit with
  | none =>
    rw [Roteiro.countRounds]
    exact .bind (.pure true) turn
  | some e =>
    rw [Roteiro.countRounds]
    exact (ih.part quiet T e c).stale.bind fun v =>
      .bind (fits.perform counter.span (.lookup c counter.text)) fun current =>
        .bind (fits.require e.span (shortOf current v)) turn

theorem eachRounds_succ (T : List Task) (key value : Ident) (e : Expression) (ss : List Statement)
    (span : Span) (it : Iteration) (c : ContextId) :
    Goes (.statement (.eachLoop key value e ss span)) T c false false
      (Roteiro.eachRounds observer (fuel + 1) it key value e.span ss c) := by
  have quiet : (Node.statement (.eachLoop key value e ss span)).Quiet := trivial
  have fits := Goes.fit (T := T) (c := c) quiet
  rw [Roteiro.eachRounds]
  refine .bind (.ask _) fun next => ?_
  obtain ⟨entry, it⟩ := next
  cases entry with
  | none => exact .pure ()
  | some entry =>
    refine .bind (fits.perform key.span (.assign c key.text entry.1)) fun _ =>
      .bind (fits.perform value.span (.assign c value.text entry.2)) fun _ =>
        .bind (.round quiet e.span (fun _ => rfl)
          (fun t member => ih.inner quiet member T c) (by simp)) fun again => ?_
    cases again with
    | false => exact .pure ()
    | true => exact ih.eachRounds T key value e ss span it c

end Narrates

theorem Narrates.all (fuel : Nat) : Narrates fuel := by
  have out {α : Type} {post : α → Machine Chronicle → Prop} {T : List Task} {m : Machine Chronicle}
      (tells : Tells T false m) (placed : ∀ e, ¬ Misplaced T e) :
      Reports post ((Eval.exhausted : Eval Chronicle α) m) :=
    tells.ends placed (by simp) m.world
  induction fuel with
  | zero =>
    constructor
    · intro N T e c m vs placed works
      rw [Roteiro.evaluate]
      exact out works.toTells placed
    · intro T s c m placed tells _ _
      rw [Roteiro.execute]
      exact out tells placed
    · intro T e ss span c
      rw [Roteiro.whileRounds]
      exact .short trivial (by simp) fun _ => rfl
    · intro T counter first limit step ss span c
      rw [Roteiro.countRounds]
      exact .short trivial (by simp) fun _ => rfl
    · intro T key value e ss span it c
      rw [Roteiro.eachRounds]
      exact .short trivial (by simp) fun _ => rfl
  | succ fuel ih =>
    exact ⟨ih.evaluate_succ, ih.execute_succ, ih.whileRounds_succ, ih.countRounds_succ,
      ih.eachRounds_succ⟩

/-! ### sessions -/

/-- The moments of a run of a session, as far as the fuel goes. -/
def Session.history (s : Session) (fuel : Nat) (w : World) : List Moment :=
  let (_, m) := s.rest Chronicle.observer fuel ⟨w, { guarded := false }⟩
  m.watch.moments

/-- A run of a session in a context without frames is coherent, and ends with the error of a
misplaced statement if it comes to one. -/
theorem Session.reports (s : Session) (fuel : Nat) (w : World) (live : s.context < w.contexts.size)
    (frameless : (w.context s.context).frames = ⟨[], []⟩) :
    Reports (fun _ m => Tells [] true m)
      (s.rest Chronicle.observer fuel ⟨w, { guarded := false }⟩) := by
  have quiet : (Node.program s.program).Quiet := trivial
  have narrates := Narrates.all fuel
  have start : Tells [] true ⟨w, { guarded := false }⟩ :=
    ⟨⟨rfl, rfl⟩, rfl, .nil, fun before member => nomatch member⟩
  have hosts : Task.Hosts [⟨.program s.program, []⟩] (w.context s.context) :=
    ⟨fun loops => absurd (congrArg Frames.loops frameless) loops,
      fun calls => absurd (congrArg Frames.calls frameless) calls,
      fun hf => absurd hf (Option.some_ne_none _).symm,
      fun _ _ hs => absurd hs (Option.some_ne_none _).symm⟩
  have goes : Goes (.program s.program) [] s.context false false
      (runStatements (fun st => execute Chronicle.observer fuel st s.context) .null s.remaining) := by
    refine (Goes.fit quiet).runStatements
      (x := fun st _ => execute Chronicle.observer fuel st s.context) .null fun st member => ?_
    have answers : Answers (.program s.program) [] s.context
        (execute Chronicle.observer fuel st s.context) :=
      Performs.answers (.script (List.mem_of_mem_drop member)) (by simp)
        (fun T => narrates.execute T st s.context)
        (Chronicle.silent.execute_keeps fuel st s.context)
    exact (answers.goes quiet).stale
  refine (start.shown (fun e he => nomatch he) live hosts (goes.late.begins quiet)).mono ?_
  rintro v m ⟨tells, -⟩
  exact tells

theorem Session.coherent {s : Session} {w : World} (live : s.context < w.contexts.size)
    (frameless : (w.context s.context).frames = ⟨[], []⟩) (fuel : Nat) :
    Moment.Coherent (s.history fuel w) := by
  have reports := s.reports fuel w live frameless
  unfold history
  generalize s.rest Chronicle.observer fuel ⟨w, { guarded := false }⟩ = r at reports ⊢
  cases reports with
  | ok tells => exact tells.coherent
  | short _ coherent _ => exact coherent

end Roteiro
