import Roteiro.Proofs.Trace.Brackets
import Roteiro.Proofs.Trace.Tasks

/-!
Every run is coherent. An evaluation under an observer that keeps all moments is done for the
innermost of some tasks; it leaves them as they were but for values that were finished, and the
moments it adds are coherent (`Eval.Goes`, `Eval.Answers`). A statement that is misplaced is the last
thing to be seen: the run ends with its error (`Reports`). All this goes through the evaluator by
induction on the fuel (`Narrates.all`).
-/

namespace Roteiro

open Eval World

variable {α β : Type}

/-! ### reports -/

/-- How an evaluation ends whose moments are coherent: with a value and what `post` says of it, or
else with the error of a misplaced statement, if the last moment leads to one. -/
inductive Reports (post : α → Machine Chronicle → Prop) : Outcome α × Machine Chronicle → Prop
  | ok {a : α} {m : Machine Chronicle} : post a m → Reports post (.ok a, m)
  | short {o : Outcome α} {m : Machine Chronicle} (no_value : ∀ a, o ≠ .ok a)
    (coherent : Moment.Coherent m.watch.moments)
    (misplaced : ∀ e, Misplaced (Moment.tasks m.watch.moments) e → o = .error e) :
    Reports post (o, m)

namespace Reports

variable {post : α → Machine Chronicle → Prop} {post' : β → Machine Chronicle → Prop}

theorem mono {post₂ : α → Machine Chronicle → Prop} {r : Outcome α × Machine Chronicle}
    (h : Reports post r) (weaker : ∀ a m, post a m → post₂ a m) : Reports post₂ r := by
  cases h with
  | ok done => exact .ok (weaker _ _ done)
  | short no_value coherent misplaced => exact .short no_value coherent misplaced

theorem bind {x : Eval Chronicle α} {f : α → Eval Chronicle β} {m : Machine Chronicle}
    (h : Reports post (x m)) (next : ∀ a m', post a m' → Reports post' (f a m')) :
    Reports post' ((x >>= f) m) := by
  change Reports post' (Eval.bind x f m)
  unfold Eval.bind
  generalize x m = r at h ⊢
  cases h with
  | ok done => exact next _ _ done
  | @short o m' no_value coherent misplaced =>
    cases o with
    | ok a => exact absurd rfl (no_value a)
    | error e =>
      exact .short (by simp) coherent fun e' he => by cases misplaced e' he; rfl
    | exhausted => exact .short (by simp) coherent fun e' he => nomatch misplaced e' he
    | aborted => exact .short (by simp) coherent fun e' he => nomatch misplaced e' he

theorem closing {x : Eval Chronicle α} {close : Effect β} {span : Span} {m : Machine Chronicle}
    (h : Reports post (x m))
    (next : ∀ a m', post a m' → Reports post' (Eval.perform span close m')) :
    Reports post' (Eval.closing span x close m) := by
  unfold Eval.closing
  generalize x m = r at h ⊢
  cases h with
  | ok done => exact next _ _ done
  | @short o m' no_value coherent misplaced =>
    cases o with
    | ok a => exact absurd rfl (no_value a)
    | error e =>
      exact .short (by simp) coherent fun e' he => by cases misplaced e' he; rfl
    | exhausted => exact .short (by simp) coherent fun e' he => nomatch misplaced e' he
    | aborted => exact .short (by simp) coherent fun e' he => nomatch misplaced e' he

end Reports

/-! ### evaluations at work -/

/-- A node that is well placed everywhere. -/
def Node.Quiet : Node → Prop
  | statement (.breakLoop _) | statement (.continueLoop _) | statement (.returnValues _ _) => False
  | _ => True

theorem Node.Quiet.placed {N : Node} (quiet : N.Quiet) {vs : List Value} {T : List Task}
    (e : RuntimeError) : ¬ Misplaced (⟨N, vs⟩ :: T) e := by
  intro misplaced
  cases misplaced with
  | breakLoop _ => exact quiet
  | continueLoop _ => exact quiet
  | returnValues _ _ => exact quiet

/-- The chronicle of a coherent run that has come to some tasks. -/
structure Chronicle.Tells (T : List Task) (fresh : Bool) (m : Machine Chronicle) : Prop where
  free : m.watch.Free
  tasks : Moment.tasks m.watch.moments = T
  coherent : Moment.Coherent m.watch.moments
  near : ∀ before ∈ m.watch.moments.getLast?, Near fresh before.world m.world

/-- A coherent run that is at work on the innermost of some tasks in a context. -/
structure Chronicle.Works (T : List Task) (c : ContextId) (fresh : Bool) (m : Machine Chronicle) :
    Prop extends Tells T fresh m where
  live : c < m.world.contexts.size
  hosts : Task.Hosts T (m.world.context c)

namespace Chronicle

variable {T : List Task} {c : ContextId} {fresh fresh' : Bool} {m : Machine Chronicle} {w' : World}

namespace Tells

theorem stale (h : Tells T fresh m) : Tells T false m :=
  ⟨h.free, h.tasks, h.coherent, fun u hu => (h.near u hu).stale⟩

theorem world (h : Tells T fresh m)
    (near : ∀ before ∈ m.watch.moments.getLast?, Near fresh before.world m.world →
      Near fresh' before.world w') : Tells T fresh' ⟨w', m.watch⟩ :=
  ⟨h.free, h.tasks, h.coherent, fun u hu => near u hu (h.near u hu)⟩

theorem shape (h : Tells T fresh m) (same : SameShape m.world w') : Tells T fresh ⟨w', m.watch⟩ :=
  h.world fun _ _ near => near.shape same

/-- One context was changed. -/
theorem at_context {P : Context → Context → Prop} (h : Tells T fresh m) (k : At c P m.world w')
    (stale : ∀ {a b}, Context.Near fresh a b → Context.Near fresh' a b)
    (near : ∀ a, Context.Near fresh a (m.world.context c) → Context.Near fresh' a (w'.context c)) :
    Tells T fresh' ⟨w', m.watch⟩ :=
  h.world fun _ _ before => before.at_context k stale fun hc => near _ (before.contexts c hc)

/-- A run ends short of a value, for a reason that is not of its place. -/
theorem ends {post : α → Machine Chronicle → Prop} (h : Tells T fresh m)
    (placed : ∀ e, ¬ Misplaced T e) {o : Outcome α} (no_value : ∀ a, o ≠ .ok a) (w : World) :
    Reports post (o, ⟨w, m.watch⟩) := by
  refine .short no_value h.coherent fun e he => ?_
  rw [h.tasks] at he
  exact absurd he (placed e)

end Tells

namespace Works

theorem stale (h : Works T c fresh m) : Works T c false m := ⟨h.toTells.stale, h.live, h.hosts⟩

theorem shape (h : Works T c fresh m) (same : SameShape m.world w') :
    Works T c fresh ⟨w', m.watch⟩ :=
  ⟨h.toTells.shape same, Nat.lt_of_lt_of_le h.live same.size, h.hosts.shape (same.shape c h.live)⟩

/-- The context at work was changed. -/
theorem at_context {P : Context → Context → Prop} (h : Works T c fresh m) (k : At c P m.world w')
    (stale : ∀ {a b}, Context.Near fresh a b → Context.Near fresh' a b)
    (near : ∀ a, Context.Near fresh a (m.world.context c) → Context.Near fresh' a (w'.context c))
    (hosts : Task.Hosts T (w'.context c)) : Works T c fresh' ⟨w', m.watch⟩ :=
  ⟨h.toTells.at_context k stale near, Nat.lt_of_lt_of_le h.live k.size, hosts⟩

/-- A context with the same parent and names, and frames only where there were some. -/
theorem frames (h : Works T c fresh m) {d : Context} (k : At c (fun _ b => b = d) m.world w')
    (parent : d.parent = (m.world.context c).parent) (names : d.names = (m.world.context c).names)
    (loops : d.loops ≠ [] → (m.world.context c).loops ≠ [])
    (calls : d.calls ≠ [] → (m.world.context c).calls ≠ []) : Works T c fresh ⟨w', m.watch⟩ := by
  have here := k.here
  refine h.at_context k id (fun a near => near.same ?_ ?_) (h.hosts.mono ?_ ?_ ?_ ?_)
  all_goals rw [here]
  · exact parent
  · exact names
  · exact parent
  · rw [names]
    exact fun _ => id
  · exact loops
  · exact calls

theorem enterScope (h : Works T c fresh m) : Works T c fresh ⟨m.world.enterScope c, m.watch⟩ := by
  have entered : At c (fun a b => b = a.enter) m.world (m.world.enterScope c) := .update h.live _
  exact h.frames (entered.mono id) rfl rfl id id

theorem leaveScope (h : Works T c fresh m) : Works T c false ⟨m.world.leaveScope c, m.watch⟩ := by
  have left : At c (fun a b => b = a.leave) m.world (m.world.leaveScope c) := .update h.live _
  refine h.at_context left Context.Near.stale (fun a near => ?_) (h.hosts.mono ?_ ?_ ?_ ?_)
  all_goals rw [left.here]
  · exact near.leave
  · rfl
  · intro p member
    rw [Context.names_leave] at member
    split at member
    · exact (List.dropWhile_sublist _).mem member
    · exact member
  · exact id
  · exact id

/-- A frame is opened where the tasks stand in a loop. -/
theorem pushLoop (h : Works T c fresh m) (looping : (Place.around T).inLoop = true) :
    Works T c fresh ⟨m.world.update c Context.pushLoop, m.watch⟩ := by
  have pushed : At c (fun a b => b = a.pushLoop) m.world (m.world.update c Context.pushLoop) :=
    .update h.live _
  refine h.at_context pushed id (fun a near => ?_) ?_
  all_goals rw [pushed.here]
  · exact near.same rfl rfl
  · exact ⟨fun _ => looping, h.hosts.calls,
      fun hf => ⟨(h.hosts.owner hf).parent, (h.hosts.owner hf).names⟩, h.hosts.placed⟩

theorem popLoop (h : Works T c fresh m) : Works T c fresh ⟨(m.world.popLoop c).2, m.watch⟩ := by
  cases loops : (m.world.context c).loops with
  | nil =>
    have same : (m.world.popLoop c).2 = m.world := by
      unfold World.popLoop Context.popLoop
      rw [loops]
    rw [same]
    exact h
  | cons frame rest =>
    have popped : (m.world.context c).popLoop =
        .ok (frame, { m.world.context c with loops := rest }) := by
      unfold Context.popLoop
      rw [loops]
    exact h.frames (At.popLoop h.live popped) rfl rfl (fun _ => by simp [loops]) id

/-- A statement defines its own names. -/
theorem define {s : Statement} {vs : List Value} (h : Works (⟨.statement s, vs⟩ :: T) c true m)
    {name : String} (own : name ∈ s.defines) (v : Value) :
    Works (⟨.statement s, vs⟩ :: T) c true ⟨(World.define c name v m.world).2, m.watch⟩ := by
  have same : World.define c name v m.world = onContext c (·.define name v) m.world := rfl
  rw [same]
  rcases onContext_cases c (·.define name v) m.world with ⟨d, defined, done⟩ | ⟨fault, -, failed⟩
  · rw [done]
    have k := At.set h.live d
    refine h.at_context k id (fun a near => ?_) ?_
    all_goals rw [k.here]
    · exact near.define defined
    · rw [Context.names_of_define defined]
      refine ⟨h.hosts.loops, h.hosts.calls, fun hf => ⟨(h.hosts.owner hf).parent, fun p member => ?_⟩,
        h.hosts.placed⟩
      rcases List.mem_cons.1 member with rfl | old
      · obtain ⟨t, passage, has⟩ := h.hosts.placed _ _ rfl
        cases (Task.passage_of_callee hf).symm.trans passage
        exact .inr ⟨_, s, has, own⟩
      · exact (h.hosts.owner hf).names p old
  · rw [failed]
    exact h

end Works

/-! ### showing a node -/

/-- One more moment is seen. -/
theorem Tells.see (h : Tells T fresh m) (mo : Moment) (now : mo.world = m.world)
    (placed : ∀ e, ¬ Misplaced T e) (live : mo.context < mo.world.contexts.size)
    (hosts : Task.Hosts (mo.stack T) (mo.world.context mo.context)) :
    Tells (mo.resume T) true ⟨m.world, m.watch.extend [mo]⟩ := by
  have tasks := h.tasks
  refine ⟨h.free.extend _, ?_, .add h.coherent ⟨?_, ?_, live, ?_⟩, ?_⟩
  · change Moment.tasks (m.watch.moments ++ [mo]) = _
    rw [Moment.tasks_concat, tasks]
  · rw [tasks]
    exact placed
  · rw [now]
    exact fun before member => (h.near before member).stale
  · rw [tasks]
    exact hosts
  · intro before member
    change before ∈ (m.watch.moments ++ [mo]).getLast? at member
    rw [List.getLast?_concat, Option.mem_some_iff] at member
    rw [← member, now]
    exact .refl true _

end Chronicle

/-- From its beginning, the evaluation of a node goes on to where it is finished. -/
def Eval.Begins (node : Node) (T : List Task) (c : ContextId) (x : Eval Chronicle α) : Prop :=
  ∀ m, Chronicle.Works (⟨node, []⟩ :: T) c true m →
    Reports (fun _ m' => ∃ vs, Chronicle.Works (⟨node, vs⟩ :: T) c false m' ∧
      ∀ e, ¬ Misplaced (⟨node, vs⟩ :: T) e) (x m)

/-- **A node is shown before and after its evaluation.** Its value is finished for the task that it
was evaluated for. -/
theorem Chronicle.Tells.shown {T : List Task} {fresh : Bool} {m : Machine Chronicle} {node : Node}
    {c : ContextId} {x : Eval Chronicle Value} (h : Tells T fresh m) (placed : ∀ e, ¬ Misplaced T e)
    (live : c < m.world.contexts.size) (hosts : Task.Hosts (⟨node, []⟩ :: T) (m.world.context c))
    (hx : Begins node T c x) :
    Reports (fun v m' => Tells (Task.finish v T) true m' ∧ c < m'.world.contexts.size ∧
      ∃ vs, Task.Hosts (⟨node, vs⟩ :: T) (m'.world.context c)) (observer.capture node c x m) := by
  obtain ⟨w, t⟩ := m
  rw [capture_taken (h.free.takes node) h.free.unstopped]
  have entered := h.see (.enter node c w) rfl placed live hosts
  refine (hx ⟨w, t.extend [.enter node c w]⟩ ⟨entered, live, hosts⟩).bind ?_
  rintro v ⟨w', t'⟩ ⟨vs, works, done⟩
  rw [t'.leaving_taken c v node.span w' (not_stopped works.free.unstopped)]
  exact .ok ⟨works.toTells.see (.leave v c w') rfl done works.live works.hosts, works.live, vs,
    works.hosts⟩

/-! ### evaluations for a task -/

open Chronicle

/-- At work on a node, an evaluation goes on with it; `before` and `after` tell whether names were
only added since the last moment. -/
def Eval.Goes (N : Node) (T : List Task) (c : ContextId) (before after : Bool)
    (x : Eval Chronicle α) : Prop :=
  ∀ m vs, Works (⟨N, vs⟩ :: T) c before m →
    Reports (fun _ m' => ∃ vs', Works (⟨N, vs'⟩ :: T) c after m') (x m)

/-- An evaluation whose value is finished for the node at work. -/
def Eval.Answers (N : Node) (T : List Task) (c : ContextId) (x : Eval Chronicle Value) : Prop :=
  ∀ m vs, (∀ e, ¬ Misplaced (⟨N, vs⟩ :: T) e) → Works (⟨N, vs⟩ :: T) c false m →
    Reports (fun v m' => Works (⟨N, vs ++ [v]⟩ :: T) c true m') (x m)

/-- A statement is carried out for the innermost of some tasks, in a context that need not be that of
the task. -/
def Eval.Performs (T : List Task) (s : Statement) (c : ContextId) (x : Eval Chronicle Value) : Prop :=
  ∀ m, (∀ e, ¬ Misplaced T e) → Tells T false m → c < m.world.contexts.size →
    Task.Hosts (⟨.statement s, []⟩ :: T) (m.world.context c) →
    Reports (fun v m' => Tells (Task.finish v T) true m' ∧ c < m'.world.contexts.size ∧
      ∃ vs, Task.Hosts (⟨.statement s, vs⟩ :: T) (m'.world.context c)) (x m)

namespace Eval.Goes

variable {N : Node} {T : List Task} {c : ContextId} {before middle after : Bool}
  {x : Eval Chronicle α}

theorem late (h : Goes N T c false after x) : Goes N T c before after x :=
  fun m vs works => h m vs works.stale

theorem stale (h : Goes N T c before after x) : Goes N T c before false x :=
  fun m vs works => (h m vs works).mono fun _ _ ⟨vs', works'⟩ => ⟨vs', works'.stale⟩

theorem bind {f : α → Eval Chronicle β} (hx : Goes N T c before middle x)
    (hf : ∀ a, Goes N T c middle after (f a)) : Goes N T c before after (x >>= f) :=
  fun m vs works => (hx m vs works).bind fun a m' ⟨vs', works'⟩ => hf a m' vs' works'

theorem pure (a : α) : Goes N T c before before (Pure.pure a) :=
  fun _ vs works => .ok ⟨vs, works⟩

theorem ask (f : World → α) : Goes N T c before before (Eval.ask f) :=
  fun _ vs works => .ok ⟨vs, works⟩

theorem make {f : World → α × World} (h : ∀ w, SameShape w (f w).2) :
    Goes N T c before before (Eval.make f) :=
  fun m vs works => .ok ⟨vs, works.shape (h m.world)⟩

theorem body {x : Statement → Eval Chronicle Value} {ss : List Statement}
    (hs : ∀ s ∈ ss, Goes N T c false false (x s)) : Goes N T c false false (Eval.body x c ss) := by
  induction ss with
  | nil => exact pure ()
  | cons s ss ih =>
    obtain ⟨first, rest⟩ := List.forall_mem_cons.1 hs
    refine bind first fun _ => bind (ask _) fun stop => ?_
    cases stop with
    | true => exact pure ()
    | false => exact ih rest

section Quiet

variable (quiet : N.Quiet)

include quiet

/-- An end that is not of the place of the node. -/
theorem short {o : Outcome α} (no_value : ∀ a, o ≠ .ok a) (h : ∀ m, x m = (o, m)) :
    Goes N T c before after x := by
  intro m vs works
  rw [h]
  exact works.toTells.ends quiet.placed no_value m.world

theorem raise (fault : RuntimeFault) (span : Span) :
    Goes N T c before after (Eval.raise fault span : Eval Chronicle α) :=
  short quiet (by simp) fun _ => rfl

theorem aborted : Goes N T c before after (Eval.aborted : Eval Chronicle α) :=
  short quiet (by simp) fun _ => rfl

theorem perform (span : Span) {f : Effect α}
    (h : ∀ m vs, Works (⟨N, vs⟩ :: T) c before m →
      Works (⟨N, vs⟩ :: T) c after ⟨(f m.world).2, m.watch⟩) :
    Goes N T c before after (Eval.perform span f) := by
  intro m vs works
  have after := h m vs works
  unfold Eval.perform
  generalize f m.world = r at after ⊢
  rcases r with ⟨fault | a, w⟩
  · exact works.toTells.ends quiet.placed (by simp) w
  · exact .ok ⟨vs, after⟩

theorem fit : Fit (ι := Unit) (σ := fun _ => Chronicle)
    fun {α} (z : Unit → Eval Chronicle α) => Goes N T c false false (z ()) where
  pure a := pure a
  bind hx hf := bind hx hf
  raise fault span := raise quiet fault span
  aborted := aborted quiet
  key _ := ask _
  perform span plain := perform quiet span fun m _ works => works.shape (.plain plain m.world)

theorem choose_bind {x : Expression → Eval Chronicle Value}
    {f : Option (List Statement) → Eval Chronicle β} {bs : List Branch}
    {otherwise : Option (List Statement)}
    (he : ∀ e ∈ bs.map Branch.condition, Goes N T c false false (x e))
    (hb : ∀ b ∈ bs, Goes N T c false false (f (some b.body)))
    (ho : Goes N T c false false (f otherwise)) :
    Goes N T c false false (Eval.choose x otherwise bs >>= f) :=
  (fit quiet).choose_bind (x := fun e _ => x e) (f := fun chosen _ => f chosen) he hb ho

/-- A scope is opened, or there is no level left for it. -/
theorem openScope : Goes N T c before before (Eval.openScope c) := by
  refine bind (ask _) fun full => ?_
  cases full with
  | true => exact aborted quiet
  | false => exact fun m vs works => .ok ⟨vs, works.enterScope⟩

theorem inScope (span : Span) (hx : Goes N T c before false x) :
    Goes N T c before false (Eval.inScope c span x) := by
  refine bind (openScope quiet) fun _ m vs works => (hx m vs works).closing ?_
  exact fun _ m' ⟨vs', works'⟩ => .ok ⟨vs', works'.leaveScope⟩

/-- A counter gets its first value, if there is one, before the rounds. -/
theorem first {x : Expression → Eval Chronicle Value} {rounds : Eval Chronicle α} (counter : Ident)
    (first : Option Expression) (hx : ∀ e, Goes N T c false true (x e))
    (hr : Goes N T c false false rounds) :
    Goes N T c false false (do
      match first with
      | none => Pure.pure ()
      | some e =>
        let v ← x e
        Eval.perform counter.span (World.assign c counter.text v)
      rounds) := by
  cases first with
  | none => exact hr
  | some e =>
    exact (hx e).stale.bind fun v =>
      .bind ((fit quiet).perform counter.span (.assign c counter.text v)) fun _ => hr

/-- A round is done for a loop. -/
theorem inRound (span : Span) (looping : ∀ vs, (Place.around (⟨N, vs⟩ :: T)).inLoop = true)
    (hx : Goes N T c false false x) : Goes N T c false false (Eval.inRound c span x) := by
  have framed : Goes N T c false false (Eval.change (World.update c Context.pushLoop)) :=
    fun m vs works => .ok ⟨vs, works.pushLoop (looping vs)⟩
  refine bind (openScope quiet) fun _ => bind framed fun _ m vs works => (hx m vs works).closing ?_
  intro _ m' ⟨vs', works'⟩
  exact perform quiet span (fun m'' _ works'' => works''.popLoop.leaveScope) m' vs' works'

theorem round (span : Span) (looping : ∀ vs, (Place.around (⟨N, vs⟩ :: T)).inLoop = true)
    {x : Statement → Eval Chronicle Value} {ss : List Statement}
    (hs : ∀ s ∈ ss, Goes N T c false false (x s)) {step : Option (Eval Chronicle Value)}
    (ha : ∀ y ∈ step, Goes N T c false false y) :
    Goes N T c false false (Eval.round x c span ss step) := by
  rw [Eval.round_eq]
  refine bind (inRound quiet span looping (bind (body hs) fun _ => ?_)) fun _ => ask _
  cases step with
  | none => exact pure ()
  | some y =>
    refine bind (ask _) fun returned => ?_
    cases returned with
    | true => exact pure ()
    | false => exact bind (ha y rfl) fun _ => pure ()

theorem begins (h : Goes N T c true false x) : Begins N T c x :=
  fun m works => (h m [] works).mono fun _ _ ⟨vs, works'⟩ => ⟨vs, works', quiet.placed⟩

end Quiet

theorem define {s : Statement} (quiet : (Node.statement s).Quiet) (span : Span) {name : String}
    (own : name ∈ s.defines) (v : Value) :
    Goes (.statement s) T c true true (Eval.perform span (World.define c name v)) :=
  perform quiet span fun _ _ works => works.define own v

end Eval.Goes

namespace Eval.Answers

variable {N : Node} {T : List Task} {c : ContextId} {x : Eval Chronicle Value}

theorem goes (quiet : N.Quiet) (h : Answers N T c x) : Goes N T c false true x :=
  fun m vs works => (h m vs quiet.placed works).mono fun _ _ works' => ⟨_, works'⟩

/-- An expression is shown once or more around its evaluation. -/
theorem expression {e : Expression} (hx : ∀ T, Begins (.expression e) T c x) :
    Answers N T c (observer.captureTimes e.captures (.expression e) c x) := by
  have once : ∀ {N T y}, (∀ T, Begins (.expression e) T c y) →
      Answers N T c (observer.capture (.expression e) c y) := by
    intro N T y hy m vs placed works
    refine (works.toTells.shown placed works.live (works.hosts.expression e) (hy _)).mono ?_
    rintro v m' ⟨tells, live, us, hosts⟩
    exact ⟨tells, live, hosts.of_expression.values⟩
  obtain ⟨n, captures⟩ : ∃ n, e.captures = n + 1 :=
    ⟨e.captures - 1, (Nat.sub_add_cancel (Node.expression e).captures_pos).symm⟩
  rw [captures]
  clear captures
  induction n generalizing N T with
  | zero => exact once hx
  | succ n ih =>
    have quiet : (Node.expression e).Quiet := trivial
    exact once fun T => (ih.goes quiet).stale.late.begins quiet

/-- All values are finished, one after the other. -/
theorem all {x : Expression → Eval Chronicle Value} (hx : ∀ e, Answers N T c (x e))
    (es : List Expression) {m : Machine Chronicle} (vs : List Value)
    (placed : ∀ us : List Value, us.length < es.length → ∀ e, ¬ Misplaced (⟨N, vs ++ us⟩ :: T) e)
    (works : Works (⟨N, vs⟩ :: T) c false m) :
    Reports (fun us m' => us.length = es.length ∧ Works (⟨N, vs ++ us⟩ :: T) c false m')
      (Eval.all x es m) := by
  induction es generalizing m vs with
  | nil => exact .ok ⟨rfl, by rw [List.append_nil]; exact works⟩
  | cons e es ih =>
    have first := hx e m vs (by simpa using placed [] (Nat.succ_pos _)) works
    refine first.bind fun v m₁ works₁ => ?_
    have rest := ih (vs ++ [v]) (fun us short => by
      simpa using placed (v :: us) (Nat.succ_lt_succ short)) works₁.stale
    refine rest.bind fun us m₂ ⟨length, works₂⟩ => .ok ⟨congrArg (· + 1) length, ?_⟩
    rw [List.append_assoc] at works₂
    exact works₂

end Eval.Answers

/-! ### statements -/

/-- What an evaluation does to the world is known besides. -/
theorem Reports.keeping {post : α → Machine Chronicle → Prop} {x : Eval Chronicle α}
    {m : Machine Chronicle} {R : World → World → Prop} (h : Reports post (x m)) (kept : Keeps R x) :
    Reports (fun a m' => post a m' ∧ R m.world m'.world) (x m) := by
  have change := kept m
  generalize x m = r at h change ⊢
  cases h with
  | ok done => exact .ok ⟨done, change trivial⟩
  | short no_value coherent misplaced => exact .short no_value coherent misplaced

theorem Context.Carried.frames {a b : Context} (h : Carried a b) :
    (b.loops ≠ [] → a.loops ≠ []) ∧ (b.calls ≠ [] → a.calls ≠ []) := by
  have loops := h.loops
  have calls := h.calls
  refine ⟨fun hb ha => hb ?_, fun hb ha => hb ?_⟩
  · rw [ha] at loops
    exact loops.eq_nil
  · rw [ha] at calls
    exact calls.eq_nil

namespace Eval.Performs

theorem shown {T : List Task} {s : Statement} {c : ContextId} {x : Eval Chronicle Value}
    (hx : Begins (.statement s) T c x) : Performs T s c (observer.capture (.statement s) c x) :=
  fun _ placed tells live hosts => tells.shown placed live hosts hx

/-- A statement of a script, or inside another, is carried out in the context of its task: it leaves
the frames of the context open or closed as they were. -/
theorem answers {N : Node} {T : List Task} {s : Statement} {c : ContextId} {x : Eval Chronicle Value}
    (held : N.Holds (.statement s)) (outer : ∀ e, N ≠ .expression e)
    (hx : ∀ T, Performs T s c x) (kept : Keeps (Under c Context.Grown) x) : Answers N T c x := by
  intro m vs placed works
  have entered : Task.Hosts (⟨.statement s, []⟩ :: ⟨N, vs⟩ :: T) (m.world.context c) := by
    cases held with
    | script member => exact works.hosts.script member
    | inner member => exact works.hosts.inner member
    | called _ => exact absurd rfl (outer _)
  have ran := (hx _ m placed works.toTells works.live entered).keeping kept
  refine ran.mono ?_
  rintro v m' ⟨⟨tells, live, us, hosts⟩, grown⟩
  obtain ⟨loops, calls⟩ := (grown works.live).here.toCarried.frames
  have same : Task.callee (⟨.statement s, us⟩ :: ⟨N, vs⟩ :: T) =
      Task.callee (⟨N, vs⟩ :: T) := by
    cases held with
    | script member => rfl
    | inner member => rfl
    | called _ => exact absurd rfl (outer _)
  have left : Task.Hosts (⟨N, vs⟩ :: T) (m'.world.context c) :=
    ⟨fun hl => works.hosts.loops (loops hl), fun hc => works.hosts.calls (calls hc),
      fun hf => hosts.owner (same.trans hf), works.hosts.placed⟩
  exact ⟨tells, live, left.values⟩

end Eval.Performs

/-! ### calls -/

/-- A run that has called a function, in the context of the call. -/
structure Chronicle.Calls (T : List Task) (f : Closure) (d : ContextId) (m : Machine Chronicle) : Prop
    extends Tells T false m where
  live : d < m.world.contexts.size
  loops : (m.world.context d).loops = []
  owns : f.Owns (m.world.context d)

namespace Chronicle.Calls

variable {e : Expression} {identity : Identity} {f : Closure} {vs : List Value} {T : List Task}
  {d : ContextId} {m : Machine Chronicle}

/-- A parameter is a name of the routine, in a context that was made after the last moment. -/
theorem define (h : Calls (⟨.expression e, vs⟩ :: T) f d m)
    (fresh : ∀ before ∈ m.watch.moments.getLast?, before.world.contexts.size ≤ d) {p : Ident}
    (own : p ∈ f.routine.parameters) (u : Value) :
    Reports (fun _ m' => Calls (⟨.expression e, vs⟩ :: T) f d m' ∧ m'.watch = m.watch)
      (Eval.perform p.span (World.define d p.text u) m) := by
  have quiet : (Node.expression e).Quiet := trivial
  have same : World.define d p.text u m.world = onContext d (·.define p.text u) m.world := rfl
  unfold Eval.perform
  rw [same]
  rcases onContext_cases d (·.define p.text u) m.world with ⟨a, done, result⟩ | ⟨fault, -, result⟩
  · rw [result]
    have k := At.set h.live a
    refine .ok ⟨⟨h.toTells.world fun before member near => near.at_context k id fun hd =>
      absurd hd (Nat.not_lt.2 (fresh before member)), Nat.lt_of_lt_of_le h.live k.size, ?_, ?_⟩,
      rfl⟩
    · rw [k.here, Context.names_of_define done]
      exact h.loops
    · rw [k.here, Context.names_of_define done]
      refine ⟨h.owns.parent, fun q member => ?_⟩
      rcases List.mem_cons.1 member with rfl | old
      · exact .inl (List.mem_map.2 ⟨p, own, rfl⟩)
      · exact h.owns.names q old
  · rw [result]
    exact h.toTells.ends quiet.placed (by simp) m.world

theorem parameters (h : Calls (⟨.expression e, vs⟩ :: T) f d m)
    (fresh : ∀ before ∈ m.watch.moments.getLast?, before.world.contexts.size ≤ d) (ps : List Ident)
    (own : ∀ p ∈ ps, p ∈ f.routine.parameters) (us : List Value) :
    Reports (fun _ m' => Calls (⟨.expression e, vs⟩ :: T) f d m') (Eval.parameters d ps us m) := by
  induction ps generalizing us m with
  | nil => exact .ok h
  | cons p ps ih =>
    cases us with
    | nil => exact .ok h
    | cons u us =>
      obtain ⟨first, rest⟩ := List.forall_mem_cons.1 own
      refine (h.define fresh first u).bind fun _ m' ⟨calls, watch⟩ => ih calls ?_ rest us
      rw [watch]
      exact fresh

/-- The statements of the routine are carried out in the context of the call. -/
theorem body {x : Statement → Eval Chronicle Value} (hx : ∀ T s, Performs T s d (x s))
    (kept : ∀ s, Keeps (Under d Context.Grown) (x s)) {ss : List Statement}
    (own : ∀ s ∈ ss, s ∈ f.routine.body)
    (h : Calls (⟨.expression e, .function identity f :: vs⟩ :: T) f d m) :
    Reports (fun _ m' => ∃ us, Calls (⟨.expression e, .function identity f :: us⟩ :: T) f d m')
      (Eval.body x d ss m) := by
  induction ss generalizing m vs with
  | nil => exact .ok ⟨vs, h⟩
  | cons s ss ih =>
    obtain ⟨first, rest⟩ := List.forall_mem_cons.1 own
    have quiet : (Node.expression e).Quiet := trivial
    have ran := (hx _ s m quiet.placed h.toTells h.live (.called h.loops h.owns first)).keeping (kept s)
    refine ran.bind fun v m' ⟨⟨tells, live, us, hosts⟩, grown⟩ => ?_
    have carried := (grown h.live).here.toCarried.loops
    rw [h.loops] at carried
    have next : Calls (⟨.expression e, .function identity f :: (vs ++ [v])⟩ :: T) f d m' :=
      ⟨tells.stale, live, carried.eq_nil, hosts.owner rfl⟩
    change Reports _ ((if (m'.world.context d).interrupted then Pure.pure () else
      Eval.body x d ss : Eval Chronicle Unit) m')
    split
    · exact .ok ⟨_, next⟩
    · exact ih rest next

/-- Closing the frame of the call brings the run back to the expression. -/
theorem popCall (h : Calls (⟨.expression e, vs⟩ :: T) f d m) (span : Span) :
    Reports (fun _ m' => Tells (⟨.expression e, vs⟩ :: T) false m')
      (Eval.perform span (World.popCall d) m) := by
  have quiet : (Node.expression e).Quiet := trivial
  unfold Eval.perform World.popCall
  cases popped : (m.world.context d).popCall with
  | error fault => exact h.toTells.ends quiet.placed (by simp) m.world
  | ok result =>
    obtain ⟨returned, a⟩ := result
    have k := At.set h.live a
    refine .ok (h.toTells.at_context k id fun b near => ?_)
    rw [k.here]
    unfold Context.popCall at popped
    split at popped
    · cases popped
      exact near.same rfl rfl
    · cases popped

end Chronicle.Calls

/-- A call opens a context inside the one of the closure, with a frame for what it returns. -/
theorem Chronicle.Works.opens {e : Expression} {vs : List Value} {T : List Task} {c : ContextId}
    {m : Machine Chronicle} (h : Works (⟨.expression e, vs⟩ :: T) c false m) (f : Closure) :
    Calls (⟨.expression e, vs⟩ :: T) f m.world.contexts.size
      ⟨(m.world.newChild f.context).2.update m.world.contexts.size Context.pushCall, m.watch⟩ := by
  let d := m.world.contexts.size
  let w₁ := (m.world.newChild f.context).2
  have size : w₁.contexts.size = d + 1 := Array.size_push _
  have made : w₁.context d = .inside f.context := Contexts.context_push_self _
  have pushed : At d (fun a b => b = a.pushCall) w₁ (w₁.update d Context.pushCall) :=
    .update (by rw [size]; exact Nat.lt_succ_self d) _
  have here : (w₁.update d Context.pushCall).context d = (Context.inside f.context).pushCall := by
    rw [pushed.here, made]
  have opened : Tells (⟨.expression e, vs⟩ :: T) false
      ⟨w₁.update d Context.pushCall, m.watch⟩ := by
    refine h.toTells.world fun before member near => ⟨?_, fun i hi => ?_⟩
    · refine Nat.le_trans near.size (Nat.le_trans ?_ pushed.size)
      rw [size]
      exact Nat.le_succ d
    · have old : i < d := Nat.lt_of_lt_of_le hi near.size
      have same : (w₁.update d Context.pushCall).context i = m.world.context i :=
        (Contexts.context_update_of_ne (Nat.ne_of_lt old) _).trans
          (Contexts.context_push_of_ne (Nat.ne_of_lt old) _)
      rw [same]
      exact near.contexts i hi
  refine ⟨opened, Nat.lt_of_lt_of_le pushed.live pushed.size, ?_, ?_⟩
  · rw [here]
    rfl
  · rw [here]
    exact ⟨rfl, fun p member => nomatch member⟩

/-- **A call goes on with the expression that it is done for.** -/
theorem Chronicle.Works.call {e : Expression} {identity : Identity} {f : Closure} {vs : List Value}
    {T : List Task} {c : ContextId} {m : Machine Chronicle}
    (h : Works (⟨.expression e, .function identity f :: vs⟩ :: T) c false m)
    {x : Statement → ContextId → Eval Chronicle Value} (hx : ∀ T s d, Performs T s d (x s d))
    (kept : ∀ s d, Keeps (Under d Context.Grown) (x s d)) (us : List Value) (span : Span) :
    Reports (fun _ m' => ∃ ws, Works (⟨.expression e, ws⟩ :: T) c false m')
      (Eval.callClosure x f us span m) := by
  suffices told : Reports (fun _ m' => ∃ ws, Tells (⟨.expression e, ws⟩ :: T) false m')
      (Eval.callClosure x f us span m) by
    refine (told.keeping (silent.callClosure_keeps kept f us span)).mono ?_
    rintro v m' ⟨⟨ws, tells⟩, same⟩
    exact ⟨ws, tells, Nat.lt_of_lt_of_le h.live same.size, (h.hosts.shape (same.shape c h.live)).values⟩
  let d := m.world.contexts.size
  let w := (m.world.newChild f.context).2.update d Context.pushCall
  have fresh : ∀ before ∈ m.watch.moments.getLast?, before.world.contexts.size ≤ d :=
    fun before member => (h.near before member).size
  rw [Eval.callClosure_eq]
  change Reports _ (Eval.bind (Eval.closing span _ (World.popCall d)) _ _)
  suffices closed : Reports (fun _ m' => ∃ ws, Tells (⟨.expression e, ws⟩ :: T) false m')
      (Eval.closing span _ (World.popCall d) ⟨w, m.watch⟩) from
    closed.bind fun _ m' tells => .ok tells
  refine Reports.closing (((h.opens f).parameters fresh f.routine.parameters (fun _ => id) us).bind
    fun _ m' calls => calls.body (fun T s => hx T s d) (fun s => kept s d) fun _ => id) ?_
  rintro _ m' ⟨ws, calls⟩
  exact (calls.popCall span).mono fun _ m'' tells => ⟨_, tells⟩

end Roteiro
