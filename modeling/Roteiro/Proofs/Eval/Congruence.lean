import Roteiro.Eval.Session
import Roteiro.Proofs.Eval.Nesting

/-!
Relations between evaluations that are kept by all that evaluators are put together from. A relation
that goes through the parts of expressions is *compatible*; one that goes through every step of the
evaluator is a *congruence*. One unit of fuel more keeps a congruence between two evaluators
(`Agree.succ`), so a congruence that holds without fuel holds with any amount of it.

What is related need not be two evaluations: it may be one, or one for each amount of fuel. So the
rules are stated for families of evaluations (`Eval.Fit`, `Eval.Placed`), and two evaluations are a
family of two. A relation may also depend on where the evaluators are: on the context, and on the
node for which they are at work. It is then enough that it goes from each node to those that the
node holds, and from a call to the context that is made for it (`Nested.succ`).
-/

namespace Roteiro

open Eval

/-! ### evaluations one after the other -/

theorem Eval.bind_pure {σ α : Type} (x : Eval σ α) : x.bind Eval.pure = x := by
  funext m
  unfold Eval.bind
  rcases x m with ⟨a | e | _ | _, m'⟩
  · rfl
  · rfl
  · rfl
  · rfl

theorem Eval.bind_assoc {σ α β γ : Type} (x : Eval σ α) (f : α → Eval σ β) (g : β → Eval σ γ) :
    (x >>= f) >>= g = x >>= fun a => f a >>= g := by
  funext m
  change Eval.bind (Eval.bind x f) g m = Eval.bind x (fun a => Eval.bind (f a) g) m
  unfold Eval.bind
  rcases x m with ⟨a | e | _ | _, m'⟩
  · rfl
  · rfl
  · rfl
  · rfl

section Ran

variable {σ α β : Type} {x : Eval σ α} {f : α → Eval σ β} {m m' : Machine σ}

theorem Eval.bind_ok {a : α} (ran : x m = (.ok a, m')) : (x >>= f) m = f a m' := by
  change Eval.bind x f m = _
  unfold Eval.bind
  rw [ran]

theorem Eval.bind_error {e : RuntimeError} (ran : x m = (.error e, m')) :
    (x >>= f) m = (.error e, m') := by
  change Eval.bind x f m = _
  unfold Eval.bind
  rw [ran]

theorem Eval.bind_exhausted (ran : x m = (.exhausted, m')) : (x >>= f) m = (.exhausted, m') := by
  change Eval.bind x f m = _
  unfold Eval.bind
  rw [ran]

theorem Eval.bind_aborted (ran : x m = (.aborted, m')) : (x >>= f) m = (.aborted, m') := by
  change Eval.bind x f m = _
  unfold Eval.bind
  rw [ran]

/-- An evaluation that ends with a value got one from its first part. -/
theorem Eval.of_bind_ok {b : β} {m'' : Machine σ} (ran : (x >>= f) m = (.ok b, m'')) :
    ∃ a m', x m = (.ok a, m') ∧ f a m' = (.ok b, m'') := by
  rcases first : x m with ⟨a | e | _ | _, m'⟩
  · rw [bind_ok first] at ran
    exact ⟨a, m', rfl, ran⟩
  · rw [bind_error first] at ran
    cases ran
  · rw [bind_exhausted first] at ran
    cases ran
  · rw [bind_aborted first] at ran
    cases ran

theorem Eval.closing_ok {a : α} {span : Span} {close : Effect β} (ran : x m = (.ok a, m')) :
    closing span x close m = perform span close m' := by
  unfold closing
  rw [ran]

theorem Eval.closing_error {e : RuntimeError} {span : Span} {close : Effect β}
    (ran : x m = (.error e, m')) :
    closing span x close m = (.error e, ⟨(close m'.world).2, m'.watch⟩) := by
  unfold closing
  rw [ran]

theorem Eval.closing_exhausted {span : Span} {close : Effect β} (ran : x m = (.exhausted, m')) :
    closing span x close m = (.exhausted, ⟨(close m'.world).2, m'.watch⟩) := by
  unfold closing
  rw [ran]

theorem Eval.of_closing_ok {b : β} {m'' : Machine σ} {span : Span} {close : Effect β}
    (ran : closing span x close m = (.ok b, m'')) :
    ∃ a m', x m = (.ok a, m') ∧ perform span close m' = (.ok b, m'') := by
  unfold closing at ran
  rcases first : x m with ⟨a | e | _ | _, m'⟩
  all_goals rw [first] at ran
  · exact ⟨a, m', rfl, ran⟩
  · cases ran
  · cases ran
  · cases ran

theorem Eval.of_perform_ok {b : β} {span : Span} {f : Effect β} (ran : perform span f m = (.ok b, m')) :
    f m.world = (.ok b, m'.world) ∧ m'.watch = m.watch := by
  unfold perform at ran
  rcases done : f m.world with ⟨fault | b', w⟩
  all_goals rw [done] at ran
  · cases ran
  · cases ran
    exact ⟨rfl, rfl⟩

theorem Eval.perform_ok {b : β} {span : Span} {f : Effect β} {w : World}
    (done : f m.world = (.ok b, w)) : perform span f m = (.ok b, ⟨w, m.watch⟩) := by
  unfold perform
  rw [done]

theorem Eval.perform_error {fault : RuntimeFault} {span : Span} {f : Effect β} {w : World}
    (failed : f m.world = (.error fault, w)) :
    perform span f m = (.error ⟨fault, span⟩, ⟨w, m.watch⟩) := by
  unfold perform
  rw [failed]

theorem Eval.openScope_of_full {c : ContextId} (full : (m.world.context c).full = true) :
    openScope c m = (.aborted, m) := by
  have asked : ask (fun w => (w.context c).full) m = (.ok true, m) :=
    Prod.ext (congrArg Outcome.ok full) rfl
  exact bind_ok asked

theorem Eval.openScope_of_free {c : ContextId} (free : (m.world.context c).full = false) :
    openScope c m = (.ok (), ⟨m.world.enterScope c, m.watch⟩) := by
  have asked : ask (fun w => (w.context c).full) m = (.ok false, m) :=
    Prod.ext (congrArg Outcome.ok free) rfl
  exact bind_ok asked

/-- What is done in a scope starts where a level is left for it. -/
theorem Eval.openScope_bind (c : ContextId) (y : Eval σ β) (m : Machine σ) :
    (openScope c >>= fun _ => y) m =
      if (m.world.context c).full then (.aborted, m) else y ⟨m.world.enterScope c, m.watch⟩ := by
  cases full : (m.world.context c).full with
  | true => exact bind_aborted (openScope_of_full full)
  | false => exact bind_ok (openScope_of_free full)

/-- What is done in a scope that can be opened is done there, and the scope is left after it. -/
theorem Eval.inScope_of_free {c : ContextId} (free : (m.world.context c).full = false)
    (span : Span) (x : Eval σ α) :
    inScope c span x m =
      closing span x (fun w => (.ok (), w.leaveScope c)) ⟨m.world.enterScope c, m.watch⟩ :=
  bind_ok (openScope_of_free free)

end Ran

/-! ### what is done to a world -/

/-- What the evaluation of an expression does to a world, calls of functions apart. -/
inductive Effect.Plain : {α : Type} → Effect α → Prop
  | lookup (c : ContextId) (name : String) : Plain (World.lookup c name)
  | assign (c : ContextId) (name : String) (v : Value) : Plain (World.assign c name v)
  | property (x k : Value) : Plain (World.property x k)
  | setProperty (x k v : Value) : Plain (World.setProperty x k v)
  | callBuiltin (b : Builtin) (vs : List Value) : Plain (World.callBuiltin b vs)

/-- What the evaluation of an expression makes in a world. -/
inductive World.Making : (World → Value × World) → Prop
  | newArray (items : Items) : Making (World.newArray items)
  | newDictionary (d : Dictionary) : Making (World.newDictionary d)
  | newFunction (f : Closure) : Making (World.newFunction f)

/-- What is done to a world for an expression or a statement, calls, scopes and rounds apart. -/
inductive Effect.Simple : {α : Type} → Effect α → Prop
  | plain {α : Type} {f : Effect α} (h : f.Plain) : Simple f
  | define (c : ContextId) (name : String) (v : Value) : Simple (World.define c name v)
  | markBreak (c : ContextId) : Simple (World.onContext c Context.markBreak)
  | markContinue (c : ContextId) : Simple (World.onContext c Context.markContinue)
  | pushReturns (c : ContextId) (vs : List Value) : Simple (World.onContext c (·.pushReturns vs))
  | iterate (v : Value) : Simple fun w => (w.heap.iterate v, w)

/-- What is done to a world to close what was opened in a context. -/
inductive Effect.Closing : {α : Type} → Effect α → Prop
  | scope (c : ContextId) : Closing fun w => (.ok (), w.leaveScope c)
  | round (c : ContextId) : Closing fun w =>
    let (frame, w) := w.popLoop c
    (frame, w.leaveScope c)
  | call (c : ContextId) : Closing (World.popCall c)

/-! ### parts of evaluations -/

section Parts

variable {σ : Type}

/-- The keys and values of the entries of a dictionary literal. -/
def Eval.pairs (evaluate : Expression → Eval σ Value) : List Entry → Eval σ (List (String × Value))
  | [] => Pure.pure []
  | .mk key value :: rest => do
    let k ← entryKey evaluate key
    let v ← evaluate value
    let others ← pairs evaluate rest
    Pure.pure ((k, v) :: others)

/-- Entries are evaluated from first to last and can be written afterwards. -/
theorem Eval.entries_eq (evaluate : Expression → Eval σ Value) (d : Dictionary) (es : List Entry) :
    entries evaluate d es =
      pairs evaluate es >>= fun l => Pure.pure (l.foldl (fun d e => d.set e.1 e.2) d) := by
  induction es generalizing d with
  | nil => rfl
  | cons e es ih =>
    obtain ⟨key, value⟩ := e
    simp only [entries, pairs, Eval.bind_assoc, ih]
    rfl

/-- Runs an evaluation in a scope and a loop frame of its own. -/
def Eval.inRound {α : Type} (c : ContextId) (span : Span) (inner : Eval σ α) :
    Eval σ LoopFrame := do
  openScope c
  change (World.update c Context.pushLoop)
  closing span inner fun w =>
    let (frame, w) := w.popLoop c
    (frame, w.leaveScope c)

/-- Runs an evaluation in a new context with a call frame. -/
def Eval.inCall {α : Type} (parent : ContextId) (span : Span) (inner : ContextId → Eval σ α) :
    Eval σ (List Value) := do
  let c ← make (World.newChild parent)
  change (World.update c Context.pushCall)
  closing span (inner c) (World.popCall c)

/-- What comes after the body of a round: the step, unless the call has returned. -/
def Eval.afterBody (c : ContextId) : Option (Eval σ Value) → Eval σ Unit
  | none => Pure.pure ()
  | some step => do
    if ← ask fun w => (w.context c).hasReturned then Pure.pure ()
    else
      let _ ← step
      Pure.pure ()

theorem Eval.round_eq (execute : Statement → Eval σ Value) (c : ContextId) (span : Span)
    (ss : List Statement) (step : Option (Eval σ Value)) :
    round execute c span ss step = (do
      let frame ← inRound c span do
        body execute c ss
        afterBody c step
      ask fun w => !frame.broken && !(w.context c).hasReturned) := by
  unfold inRound
  simp only [Eval.bind_assoc]
  cases step with
  | none => rfl
  | some _ => rfl

theorem Eval.callClosure_eq (execute : Statement → ContextId → Eval σ Value) (f : Closure)
    (vs : List Value) (span : Span) :
    callClosure execute f vs span = (do
      let returned ← inCall f.context span fun c => do
        parameters c f.routine.parameters vs
        body (fun s => execute s c) c f.routine.body
      Pure.pure (returned.headD .null)) := by
  unfold inCall
  simp only [Eval.bind_assoc]
  rfl

end Parts

/-! ### families of evaluations -/

section Families

variable {ι : Type} {σ : ι → Type}

/-- A property of families of evaluations that the parts of expressions keep. -/
structure Eval.Fit (rel : ∀ {α : Type}, (∀ i, Eval (σ i) α) → Prop) : Prop where
  pure : ∀ {α : Type} (a : α), rel fun _ => pure a
  bind : ∀ {α β : Type} {x : ∀ i, Eval (σ i) α} {f : α → ∀ i, Eval (σ i) β},
    rel x → (∀ a, rel (f a)) → rel fun i => x i >>= fun a => f a i
  raise : ∀ {α : Type} (fault : RuntimeFault) (span : Span),
    rel (α := α) fun _ => raise fault span
  aborted : ∀ {α : Type}, rel (α := α) fun _ => aborted
  key : ∀ v : Value, rel fun _ => ask fun w => w.heap.key v
  perform : ∀ {α : Type} {f : Effect α} (span : Span), f.Plain → rel fun _ => perform span f

/-- Properties of families of evaluations, one for each context, that every step of the evaluator in
the context keeps; a call leads to the property for a new context. -/
structure Eval.Placed (rel : ContextId → ∀ {α : Type}, (∀ i, Eval (σ i) α) → Prop) : Prop where
  fit : ∀ c, Fit (rel c)
  ask : ∀ {α : Type} (c : ContextId) (f : World → α), rel c fun _ => ask f
  newArray : ∀ (c : ContextId) (items : Items), rel c fun _ => make (World.newArray items)
  newDictionary : ∀ (c : ContextId) (l : List (String × Value)),
    rel c fun _ => make (World.newDictionary (.ofList l))
  newFunction : ∀ (c : ContextId) (f : Closure), rel c fun _ => make (World.newFunction f)
  perform : ∀ {α : Type} {f : Effect α} (c : ContextId) (span : Span), f.Simple →
    rel c fun _ => perform span f
  inScope : ∀ {α : Type} {x : ∀ i, Eval (σ i) α} {c : ContextId} (span : Span), rel c x →
    rel c fun i => inScope c span (x i)
  inRound : ∀ {α : Type} {x : ∀ i, Eval (σ i) α} {c : ContextId} (span : Span), rel c x →
    rel c fun i => inRound c span (x i)
  inCall : ∀ {α : Type} {x : ContextId → ∀ i, Eval (σ i) α} (c parent : ContextId) (span : Span),
    (∀ c, rel c (x c)) → rel c fun i => inCall parent span fun c => x c i

/-! ### parts of expressions -/

namespace Eval.Fit

variable {rel : ∀ {α : Type}, (∀ i, Eval (σ i) α) → Prop} (h : Fit rel)
  {x : Expression → ∀ i, Eval (σ i) Value}

include h

theorem require {α : Type} (span : Span) (r : Except RuntimeFault α) :
    rel fun _ => require span r := by
  cases r with
  | ok a => exact h.pure a
  | error fault => exact h.raise fault span

theorem atom (a : Atom) (span : Span) (c : ContextId) : rel fun _ => atom a span c := by
  cases a with
  | identifier name => exact h.perform span (.lookup c name.text)
  | null => exact h.pure _
  | number _ => exact h.pure _
  | string _ => exact h.pure _
  | boolean _ => exact h.pure _

theorem parameters (c : ContextId)
    (hd : ∀ span name v, rel fun _ => Eval.perform span (World.define c name v)) :
    ∀ (ps : List Ident) (vs : List Value), rel fun _ => parameters c ps vs := by
  intro ps
  induction ps with
  | nil => intro vs; exact h.pure ()
  | cons p ps ih =>
    intro vs
    cases vs with
    | nil => exact h.pure ()
    | cons v vs => exact h.bind (hd _ _ _) fun _ => ih vs

theorem all {es : List Expression} (he : ∀ e ∈ es, rel (x e)) :
    rel fun i => all (fun e => x e i) es := by
  induction es with
  | nil => exact h.pure []
  | cons e es ih =>
    obtain ⟨first, rest⟩ := List.forall_mem_cons.1 he
    exact h.bind first fun v => h.bind (ih rest) fun vs => h.pure (v :: vs)

theorem entryKey {k : Key} (he : ∀ e ∈ k.parts, rel (x e)) :
    rel fun i => entryKey (fun e => x e i) k := by
  cases k with
  | name ident => exact h.pure ident.text
  | computed e => exact h.bind (he e (List.mem_singleton_self e)) fun v => h.key v

theorem pairs {es : List Entry} (he : ∀ e ∈ es.flatMap Entry.parts, rel (x e)) :
    rel fun i => pairs (fun e => x e i) es := by
  induction es with
  | nil => exact h.pure []
  | cons e es ih =>
    obtain ⟨k, v⟩ := e
    rw [List.flatMap_cons, List.forall_mem_append] at he
    obtain ⟨first, rest⟩ := he
    obtain ⟨hk, hv⟩ := List.forall_mem_append.1 first
    exact h.bind (h.entryKey hk) fun k => h.bind (hv v (List.mem_singleton_self v)) fun v =>
      h.bind (ih rest) fun others => h.pure ((k, v) :: others)

theorem operand (op : Operator) {e : Expression} (he : rel (x e)) :
    rel fun i => operand (fun e => x e i) op e := by
  refine h.bind he fun v => ?_
  dsimp only
  split
  · exact h.bind (h.require e.span v.truth) fun _ => h.pure v
  · exact h.pure v

/-- What is done with the chosen body is related if it is so for every body that may be chosen. -/
theorem choose_bind {β : Type} {otherwise : Option (List Statement)} {bs : List Branch}
    {f : Option (List Statement) → ∀ i, Eval (σ i) β}
    (he : ∀ e ∈ bs.map Branch.condition, rel (x e)) (hb : ∀ b ∈ bs, rel (f (some b.body)))
    (ho : rel (f otherwise)) :
    rel fun i => choose (fun e => x e i) otherwise bs >>= fun chosen => f chosen i := by
  induction bs with
  | nil => exact ho
  | cons b bs ih =>
    obtain ⟨condition, body⟩ := b
    obtain ⟨first, rest⟩ := List.forall_mem_cons.1 he
    obtain ⟨taken, others⟩ := List.forall_mem_cons.1 hb
    -- The choice is one bind inside another; the outer one is moved in to where the body is known.
    simp only [Eval.choose, Eval.bind_assoc]
    refine h.bind first fun v => h.bind (h.require condition.span v.truth) fun t => ?_
    cases t with
    | true => exact taken
    | false => exact ih rest others

theorem assign (c : ContextId) {a : Assignment} (he : ∀ e ∈ a.parts, rel (x e)) :
    rel fun i => assign (fun e => x e i) c a := by
  obtain ⟨target, value, span⟩ := a
  obtain ⟨ht, last⟩ := List.forall_mem_append.1 he
  have hv : rel (x value) := last value (List.mem_singleton_self value)
  cases target with
  | name ident =>
    exact h.bind hv fun v => h.bind (h.perform _ (.assign c ident.text v)) fun _ => h.pure v
  | property object key =>
    obtain ⟨ho, hk⟩ := List.forall_mem_cons.1 ht
    exact h.bind ho fun o => h.bind (hk key (List.mem_singleton_self key)) fun k =>
      h.bind hv fun v => h.bind (h.perform _ (.setProperty o k v)) fun _ => h.pure v

theorem runStatements {x : Statement → ∀ i, Eval (σ i) Value} (last : Value)
    {ss : List Statement} (hs : ∀ s ∈ ss, rel (x s)) :
    rel fun i => runStatements (fun s => x s i) last ss := by
  induction ss generalizing last with
  | nil => exact h.pure last
  | cons s ss ih =>
    obtain ⟨first, rest⟩ := List.forall_mem_cons.1 hs
    exact h.bind first fun v => ih v rest

end Eval.Fit

/-! ### parts of statements -/

namespace Eval.Placed

variable {rel : ContextId → ∀ {α : Type}, (∀ i, Eval (σ i) α) → Prop} (h : Placed rel)

include h

theorem body {x : Statement → ∀ i, Eval (σ i) Value} (c : ContextId) {ss : List Statement}
    (hs : ∀ s ∈ ss, rel c (x s)) : rel c fun i => body (fun s => x s i) c ss := by
  have hc := h.fit c
  induction ss with
  | nil => exact hc.pure ()
  | cons s ss ih =>
    obtain ⟨first, rest⟩ := List.forall_mem_cons.1 hs
    refine hc.bind first fun _ => hc.bind (h.ask c _) fun stop => ?_
    cases stop with
    | true => exact hc.pure ()
    | false => exact ih rest

theorem round {x : Statement → ∀ i, Eval (σ i) Value} (c : ContextId) (span : Span)
    {ss : List Statement} (hs : ∀ s ∈ ss, rel c (x s)) (step : Option (∀ i, Eval (σ i) Value))
    (ha : ∀ a ∈ step, rel c a) :
    rel c fun i => round (fun s => x s i) c span ss (step.map fun a => a i) := by
  have hc := h.fit c
  simp only [Eval.round_eq]
  refine hc.bind (h.inRound span ?_) fun frame => h.ask c _
  refine hc.bind (h.body c hs) fun _ => ?_
  cases step with
  | none => exact hc.pure ()
  | some a =>
    refine hc.bind (h.ask c _) fun returned => ?_
    cases returned with
    | true => exact hc.pure ()
    | false => exact hc.bind (ha a rfl) fun _ => hc.pure ()

/-- A round after which an assignment may be carried out. -/
theorem turn {x : Statement → ∀ i, Eval (σ i) Value} {y : Expression → ∀ i, Eval (σ i) Value}
    (c : ContextId) (span : Span) {ss : List Statement} (hs : ∀ s ∈ ss, rel c (x s))
    {step : Option Assignment} (ha : ∀ e ∈ step.toList.flatMap Assignment.parts, rel c (y e)) :
    rel c fun i =>
      Eval.round (fun s => x s i) c span ss (step.map (Eval.assign (fun e => y e i) c)) := by
  cases step with
  | none => exact h.round c span hs none (by simp)
  | some a =>
    have after : rel c fun i => Eval.assign (fun e => y e i) c a :=
      (h.fit c).assign c fun e he => ha e (by simpa using he)
    exact h.round c span hs (some _) fun b hb => by
      cases hb
      exact after

theorem callClosure {x : Statement → ContextId → ∀ i, Eval (σ i) Value}
    (hs : ∀ s c, rel c (x s c)) (c : ContextId) (f : Closure) (vs : List Value) (span : Span) :
    rel c fun i => callClosure (fun s c => x s c i) f vs span := by
  simp only [Eval.callClosure_eq]
  refine (h.fit c).bind (h.inCall c f.context span fun c => ?_) fun _ => (h.fit c).pure _
  exact (h.fit c).bind ((h.fit c).parameters c
    (fun span name v => h.perform c span (.define c name v)) _ vs) fun _ =>
      h.body c fun s _ => hs s c

end Eval.Placed

/-- Several properties that every step keeps are kept together. -/
theorem Eval.Placed.all {κ : Type} {rel : κ → ContextId → ∀ {α : Type}, (∀ i, Eval (σ i) α) → Prop}
    (h : ∀ k, Placed (rel k)) :
    Placed fun c {α} (x : ∀ i, Eval (σ i) α) => ∀ k, rel k c x where
  fit c :=
    { pure := fun a k => ((h k).fit c).pure a
      bind := fun hx hf k => ((h k).fit c).bind (hx k) fun a => hf a k
      raise := fun fault span k => ((h k).fit c).raise fault span
      aborted := fun k => ((h k).fit c).aborted
      key := fun v k => ((h k).fit c).key v
      perform := fun span plain k => ((h k).fit c).perform span plain }
  ask c f k := (h k).ask c f
  newArray c items k := (h k).newArray c items
  newDictionary c l k := (h k).newDictionary c l
  newFunction c f k := (h k).newFunction c f
  perform c span simple k := (h k).perform c span simple
  inScope span hx k := (h k).inScope span (hx k)
  inRound span hx k := (h k).inRound span (hx k)
  inCall c parent span hx k := (h k).inCall c parent span fun d => hx d k

theorem Eval.Placed.and {rel rel' : ContextId → ∀ {α : Type}, (∀ i, Eval (σ i) α) → Prop}
    (h : Placed rel) (h' : Placed rel') :
    Placed fun c {α} (x : ∀ i, Eval (σ i) α) => rel c x ∧ rel' c x where
  fit c :=
    { pure := fun a => ⟨(h.fit c).pure a, (h'.fit c).pure a⟩
      bind := fun hx hf =>
        ⟨(h.fit c).bind hx.1 fun a => (hf a).1, (h'.fit c).bind hx.2 fun a => (hf a).2⟩
      raise := fun fault span => ⟨(h.fit c).raise fault span, (h'.fit c).raise fault span⟩
      aborted := ⟨(h.fit c).aborted, (h'.fit c).aborted⟩
      key := fun v => ⟨(h.fit c).key v, (h'.fit c).key v⟩
      perform := fun span plain => ⟨(h.fit c).perform span plain, (h'.fit c).perform span plain⟩ }
  ask c f := ⟨h.ask c f, h'.ask c f⟩
  newArray c items := ⟨h.newArray c items, h'.newArray c items⟩
  newDictionary c l := ⟨h.newDictionary c l, h'.newDictionary c l⟩
  newFunction c f := ⟨h.newFunction c f, h'.newFunction c f⟩
  perform c span simple := ⟨h.perform c span simple, h'.perform c span simple⟩
  inScope span hx := ⟨h.inScope span hx.1, h'.inScope span hx.2⟩
  inRound span hx := ⟨h.inRound span hx.1, h'.inRound span hx.2⟩
  inCall c parent span hx :=
    ⟨h.inCall c parent span fun d => (hx d).1, h'.inCall c parent span fun d => (hx d).2⟩

/-! ### the evaluator, node by node -/

/-- All functions of a family of evaluators are related, as far as they are at work for a node that
holds what they are given. -/
structure Nested (rel : Node → ContextId → ∀ {α : Type}, (∀ i, Eval (σ i) α) → Prop)
    (o : ∀ i, Observer (σ i)) (fuel : ι → Nat) : Prop where
  evaluate : ∀ {N : Node} {e : Expression}, N.Holds (.expression e) → ∀ c,
    rel N c fun i => evaluate (o i) (fuel i) e c
  execute : ∀ {N : Node} {s : Statement}, N.Holds (.statement s) → ∀ c,
    rel N c fun i => execute (o i) (fuel i) s c
  whileRounds : ∀ e ss span c,
    rel (.statement (.whileLoop e ss span)) c fun i => whileRounds (o i) (fuel i) e ss c
  countRounds : ∀ counter first limit step ss span c,
    rel (.statement (.countLoop counter first limit step ss span)) c fun i =>
      countRounds (o i) (fuel i) counter limit step ss c
  eachRounds : ∀ key value e ss span it c,
    rel (.statement (.eachLoop key value e ss span)) c fun i =>
      eachRounds (o i) (fuel i) it key value e.span ss c

/-- Showing a node to the observers leads from what is related for the node to what is related for
one that holds it. -/
structure Nested.Captures (rel rel' : Node → ContextId → ∀ {α : Type}, (∀ i, Eval (σ i) α) → Prop)
    (o : ∀ i, Observer (σ i)) (fuel : ι → Nat) : Prop where
  expression : ∀ {N : Node} {e : Expression} {c : ContextId} {x : ∀ i, Eval (σ i) Value},
    N.Holds (.expression e) →
    (∀ i, Roteiro.evaluate (o i) (fuel i + 1) e c =
      (o i).captureTimes e.captures (.expression e) c (x i)) →
    rel (.expression e) c x → rel' N c fun i => Roteiro.evaluate (o i) (fuel i + 1) e c
  statement : ∀ {N : Node} {s : Statement} {c : ContextId} {x : ∀ i, Eval (σ i) Value},
    N.Holds (.statement s) →
    (∀ i, Roteiro.execute (o i) (fuel i + 1) s c = (o i).capture (.statement s) c (x i)) →
    rel (.statement s) c x → rel' N c fun i => Roteiro.execute (o i) (fuel i + 1) s c

namespace Nested

variable {rel rel' : Node → ContextId → ∀ {α : Type}, (∀ i, Eval (σ i) α) → Prop}
  {o : ∀ i, Observer (σ i)} {fuel : ι → Nat} (h : ∀ N, Placed (rel N)) (ih : Nested rel o fuel)

include h ih

theorem evaluate_succ (hc : Captures rel rel' o fuel) {N : Node} {e : Expression}
    (held : N.Holds (.expression e)) (c : ContextId) :
    rel' N c fun i => Roteiro.evaluate (o i) (fuel i + 1) e c := by
  have placed := h (.expression e)
  have h := placed.fit c
  have he : ∀ d ∈ e.parts, rel (.expression e) c fun i => Roteiro.evaluate (o i) (fuel i) d c :=
    fun d hd => ih.evaluate (.operand hd) c
  cases e with
  | atom a span =>
    refine hc.expression held (fun i => by rw [Roteiro.evaluate]) ?_
    exact h.atom a span c
  | array items span =>
    refine hc.expression held (fun i => by rw [Roteiro.evaluate]) ?_
    exact h.bind (h.all he) fun _ => placed.newArray c _
  | dictionary entries span =>
    refine hc.expression held (fun i => by rw [Roteiro.evaluate]) ?_
    simp only [Eval.entries_eq, Eval.bind_assoc]
    exact h.bind (h.pairs he) fun l => placed.newDictionary c l
  | function routine =>
    refine hc.expression held (fun i => by rw [Roteiro.evaluate]) ?_
    exact placed.newFunction c _
  | negate operand span =>
    refine hc.expression held (fun i => by rw [Roteiro.evaluate]) ?_
    exact h.bind (he operand (List.mem_singleton_self _)) fun _ => h.require span _
  | binary op left right span =>
    obtain ⟨hl, hr⟩ := List.forall_mem_cons.1 he
    refine hc.expression held (fun i => by rw [Roteiro.evaluate]) ?_
    exact h.bind (h.operand op hl) fun _ =>
      h.bind (h.operand op (hr right (List.mem_singleton_self _))) fun _ => h.require span _
  | call callee arguments span =>
    obtain ⟨hf, hs⟩ := List.forall_mem_cons.1 he
    refine hc.expression held (fun i => by rw [Roteiro.evaluate]) ?_
    refine h.bind hf fun f => h.bind (h.all hs) fun vs => ?_
    cases f with
    | function _ closure =>
      exact placed.callClosure (fun s c => ih.execute (.called s) c) c closure vs span
    | native _ b =>
      dsimp only
      split
      · exact h.aborted
      · exact h.perform span (.callBuiltin b vs)
    | _ => exact h.raise _ span
  | property object key span =>
    obtain ⟨ho, hk⟩ := List.forall_mem_cons.1 he
    refine hc.expression held (fun i => by rw [Roteiro.evaluate]) ?_
    exact h.bind ho fun x => h.bind (hk key (List.mem_singleton_self _)) fun k =>
      h.perform span (.property x k)

theorem execute_succ (hc : Captures rel rel' o fuel) {N : Node} {s : Statement}
    (held : N.Holds (.statement s)) (c : ContextId) :
    rel' N c fun i => Roteiro.execute (o i) (fuel i + 1) s c := by
  have placed := h (.statement s)
  have h := placed.fit c
  have he : ∀ e ∈ s.parts, rel (.statement s) c fun i => Roteiro.evaluate (o i) (fuel i) e c :=
    fun e he => ih.evaluate (.part he) c
  have hs : ∀ t ∈ s.inner, rel (.statement s) c fun i => Roteiro.execute (o i) (fuel i) t c :=
    fun t ht => ih.execute (.inner ht) c
  cases s with
  | declaration name value span =>
    refine hc.statement held (fun i => by rw [Roteiro.execute]) ?_
    exact h.bind (he value (List.mem_singleton_self _)) fun v =>
      h.bind (placed.perform c _ (.define c name.text v)) fun _ => h.pure v
  | assignment a =>
    refine hc.statement held (fun i => by rw [Roteiro.execute]) ?_
    exact h.assign c he
  | expression e =>
    refine hc.statement held (fun i => by rw [Roteiro.execute]) ?_
    exact he e (List.mem_singleton_self _)
  | block body span =>
    refine hc.statement held (fun i => by rw [Roteiro.execute]) ?_
    exact h.bind (placed.inScope span (placed.body c hs)) fun _ => h.pure _
  | whileLoop condition body span =>
    refine hc.statement held (fun i => by rw [Roteiro.execute]) ?_
    exact h.bind (ih.whileRounds condition body span c) fun _ => h.pure _
  | countLoop counter first limit step body span =>
    refine hc.statement held (fun i => by rw [Roteiro.execute]) ?_
    refine h.bind (placed.inScope span (h.bind (placed.ask c _) fun known => ?_)) fun _ => h.pure _
    have rounds := ih.countRounds counter first limit step body span c
    -- With the counter known or defined, all set it to its first value and go round.
    cases first with
    | none =>
      cases known with
      | true => exact rounds
      | false => exact h.bind (placed.perform c _ (.define c _ _)) fun _ => rounds
    | some e =>
      have start := h.bind (he e (by simp [Statement.parts])) fun v =>
        h.bind (h.perform counter.span (.assign c counter.text v)) fun _ => rounds
      cases known with
      | true => exact start
      | false => exact h.bind (placed.perform c _ (.define c _ _)) fun _ => start
  | eachLoop key value collection body span =>
    refine hc.statement held (fun i => by rw [Roteiro.execute]) ?_
    exact h.bind (he collection (List.mem_singleton_self _)) fun v =>
      h.bind (placed.perform c _ (.iterate v)) fun it =>
        h.bind (placed.inScope span (h.bind (placed.perform c _ (.define c key.text _)) fun _ =>
          h.bind (placed.perform c _ (.define c value.text _)) fun _ =>
            ih.eachRounds key value collection body span it c)) fun _ => h.pure _
  | function routine =>
    refine hc.statement held (fun i => by rw [Roteiro.execute]) ?_
    refine h.bind (placed.newFunction c _) fun f => ?_
    cases routine.name with
    | none => exact h.pure f
    | some name => exact h.bind (placed.perform c _ (.define c name.text f)) fun _ => h.pure f
  | conditional branches otherwise span =>
    refine hc.statement held (fun i => by rw [Roteiro.execute]) ?_
    have block : ∀ body : List Statement,
        (∀ t ∈ body, t ∈ (Statement.conditional branches otherwise span).inner) →
        rel (.statement (.conditional branches otherwise span)) c fun i =>
          inScope c span (Eval.body (fun s => Roteiro.execute (o i) (fuel i) s c) c body) >>=
            fun _ => pure Value.null :=
      fun body inside => h.bind (placed.inScope span (placed.body c fun t ht => hs t (inside t ht)))
        fun _ => h.pure _
    refine h.choose_bind he (fun b hb => block b.body fun t ht =>
      List.mem_append_left _ (List.mem_flatMap.2 ⟨b, hb, ht⟩)) ?_
    cases otherwise with
    | none => exact h.pure _
    | some body => exact block body fun t ht => List.mem_append_right _ ht
  | breakLoop span =>
    refine hc.statement held (fun i => by rw [Roteiro.execute]) ?_
    exact h.bind (placed.perform c span (.markBreak c)) fun _ => h.pure _
  | continueLoop span =>
    refine hc.statement held (fun i => by rw [Roteiro.execute]) ?_
    exact h.bind (placed.perform c span (.markContinue c)) fun _ => h.pure _
  | returnValues values span =>
    refine hc.statement held (fun i => by rw [Roteiro.execute]) ?_
    exact h.bind (h.all he) fun vs => h.bind (placed.perform c span (.pushReturns c _)) fun _ =>
      h.pure _

/-- A round under a condition, and those after it, once the condition has a value. -/
theorem whileRounds_after (condition : Expression) (ss : List Statement) (span : Span)
    (c : ContextId) (v : Value) :
    rel (.statement (.whileLoop condition ss span)) c fun i =>
      Eval.require condition.span v.truth >>= fun holds =>
        if holds then
          Eval.round (fun s => Roteiro.execute (o i) (fuel i) s c) c condition.span ss none >>=
            fun again => if again then Roteiro.whileRounds (o i) (fuel i) condition ss c else pure ()
        else pure () := by
  have placed := h (.statement (.whileLoop condition ss span))
  have h := placed.fit c
  refine h.bind (h.require condition.span v.truth) fun holds => ?_
  cases holds with
  | false => exact h.pure ()
  | true =>
    have inner : ∀ s ∈ ss, rel (.statement (.whileLoop condition ss span)) c fun i =>
        Roteiro.execute (o i) (fuel i) s c := fun s hs => ih.execute (.inner hs) c
    refine h.bind (placed.round c condition.span inner none (by simp)) fun again => ?_
    cases again with
    | false => exact h.pure ()
    | true => exact ih.whileRounds condition ss span c

theorem whileRounds_succ (condition : Expression) (ss : List Statement) (span : Span)
    (c : ContextId) :
    rel (.statement (.whileLoop condition ss span)) c fun i =>
      Roteiro.whileRounds (o i) (fuel i + 1) condition ss c := by
  have value := ih.evaluate (N := .statement (.whileLoop condition ss span))
    (.part (List.mem_singleton_self condition)) c
  simp only [Roteiro.whileRounds]
  exact ((h _).fit c).bind value (whileRounds_after h ih condition ss span c)

/-- A round over a counter, and those after it, once it is known whether to go on. -/
theorem countRounds_after (counter : Ident) (first limit : Option Expression)
    (step : Option Assignment) (ss : List Statement) (span : Span) (c : ContextId) (more : Bool) :
    rel (.statement (.countLoop counter first limit step ss span)) c fun i =>
      if more then
        Eval.round (fun s => Roteiro.execute (o i) (fuel i) s c) c counter.span ss
            (step.map (Eval.assign (fun e => Roteiro.evaluate (o i) (fuel i) e c) c)) >>= fun again =>
          if again then Roteiro.countRounds (o i) (fuel i) counter limit step ss c else pure ()
      else pure () := by
  have placed := h (.statement (.countLoop counter first limit step ss span))
  have fits := placed.fit c
  cases more with
  | false => exact fits.pure ()
  | true =>
    refine fits.bind (placed.turn c counter.span (fun t ht => ih.execute (.inner ht) c)
      fun e he => ih.evaluate (.part (List.mem_append_right _ he)) c) fun again => ?_
    cases again with
    | false => exact fits.pure ()
    | true => exact ih.countRounds counter first limit step ss span c

theorem countRounds_succ (counter : Ident) (first limit : Option Expression)
    (step : Option Assignment) (ss : List Statement) (span : Span) (c : ContextId) :
    rel (.statement (.countLoop counter first limit step ss span)) c fun i =>
      Roteiro.countRounds (o i) (fuel i + 1) counter limit step ss c := by
  have fits := (h (.statement (.countLoop counter first limit step ss span))).fit c
  have after := countRounds_after h ih counter first limit step ss span c
  cases limit with
  | none =>
    simp only [Roteiro.countRounds]
    exact fits.bind (fits.pure true) after
  | some e =>
    simp only [Roteiro.countRounds]
    exact fits.bind (ih.evaluate (.part (by simp [Statement.parts])) c) fun v =>
      fits.bind (fits.perform counter.span (.lookup c counter.text)) fun current =>
        fits.bind (fits.require e.span (shortOf current v)) after

theorem eachRounds_succ (key value : Ident) (e : Expression) (ss : List Statement) (span : Span)
    (it : Iteration) (c : ContextId) :
    rel (.statement (.eachLoop key value e ss span)) c fun i =>
      Roteiro.eachRounds (o i) (fuel i + 1) it key value e.span ss c := by
  have placed := h (.statement (.eachLoop key value e ss span))
  have h := placed.fit c
  simp only [Roteiro.eachRounds]
  refine h.bind (placed.ask c _) fun next => ?_
  obtain ⟨entry, it⟩ := next
  cases entry with
  | none => exact h.pure ()
  | some entry =>
    refine h.bind (h.perform _ (.assign c _ _)) fun _ => h.bind (h.perform _ (.assign c _ _)) fun _ =>
      h.bind (placed.round c e.span (fun s hs => ih.execute (.inner hs) c) none (by simp))
        fun more => ?_
    cases more with
    | false => exact h.pure ()
    | true => exact ih.eachRounds key value e ss span it c

/-- **One unit of fuel more keeps what is related of a family of evaluators**, as long as showing a
node to their observers leads from the node to those that hold it. -/
theorem succ (hc : Captures rel rel o fuel) : Nested rel o fun i => fuel i + 1 where
  evaluate := evaluate_succ h ih hc
  execute := execute_succ h ih hc
  whileRounds := whileRounds_succ h ih
  countRounds := countRounds_succ h ih
  eachRounds := eachRounds_succ h ih

end Nested

end Families

/-! ### two evaluations -/

section Two

variable {σ τ : Type}

/-- A family of two. -/
abbrev Two (σ τ : Type) : Bool → Type
  | false => σ
  | true => τ

/-- Two evaluations as a family. -/
def Eval.two {α : Type} (x : Eval σ α) (y : Eval τ α) : ∀ b, Eval (Two σ τ b) α
  | false => x
  | true => y

/-- Two observers as a family. -/
def Observer.two (o : Observer σ) (o' : Observer τ) : ∀ b, Observer (Two σ τ b)
  | false => o
  | true => o'

/-- A relation between evaluations that the parts of expressions keep. -/
structure Eval.Compatible (rel : ∀ {α : Type}, Eval σ α → Eval τ α → Prop) : Prop where
  pure : ∀ {α : Type} (a : α), rel (pure a) (pure a)
  bind : ∀ {α β : Type} {x : Eval σ α} {y : Eval τ α} {f : α → Eval σ β} {g : α → Eval τ β},
    rel x y → (∀ a, rel (f a) (g a)) → rel (x >>= f) (y >>= g)
  raise : ∀ {α : Type} (fault : RuntimeFault) (span : Span),
    rel (raise fault span : Eval σ α) (raise fault span)
  aborted : ∀ {α : Type}, rel (aborted : Eval σ α) aborted
  key : ∀ v : Value, rel (ask fun w => w.heap.key v) (ask fun w => w.heap.key v)
  make : ∀ {f : World → Value × World}, World.Making f → rel (make f) (make f)
  perform : ∀ {α : Type} {f : Effect α} (span : Span), f.Plain →
    rel (perform span f) (perform span f)

/-- A relation between evaluations that every step of the evaluator keeps. -/
structure Eval.Congruent (rel : ∀ {α : Type}, Eval σ α → Eval τ α → Prop) : Prop where
  pure : ∀ {α : Type} (a : α), rel (pure a) (pure a)
  bind : ∀ {α β : Type} {x : Eval σ α} {y : Eval τ α} {f : α → Eval σ β} {g : α → Eval τ β},
    rel x y → (∀ a, rel (f a) (g a)) → rel (x >>= f) (y >>= g)
  raise : ∀ {α : Type} (fault : RuntimeFault) (span : Span),
    rel (raise fault span : Eval σ α) (raise fault span)
  aborted : ∀ {α : Type}, rel (aborted : Eval σ α) aborted
  ask : ∀ {α : Type} (f : World → α), rel (ask f) (ask f)
  change : ∀ f : World → World, rel (change f) (change f)
  make : ∀ {α : Type} (f : World → α × World), rel (make f) (make f)
  perform : ∀ {α : Type} (span : Span) (f : Effect α), rel (perform span f) (perform span f)
  closing : ∀ {α β : Type} {x : Eval σ α} {y : Eval τ α} (span : Span) {close : Effect β},
    close.Closing → rel x y → rel (closing span x close) (closing span y close)

variable {rel : ∀ {α : Type}, Eval σ α → Eval τ α → Prop}

namespace Eval.Compatible

variable (h : Compatible rel) {x : Expression → Eval σ Value} {y : Expression → Eval τ Value}

include h

theorem fit : Fit fun {α} (z : ∀ b, Eval (Two σ τ b) α) => rel (z false) (z true) where
  pure a := h.pure a
  bind hx hf := h.bind hx hf
  raise fault span := h.raise fault span
  aborted := h.aborted
  key v := h.key v
  perform span plain := h.perform span plain

theorem require {α : Type} (span : Span) (r : Except RuntimeFault α) :
    rel (require span r) (require span r) :=
  h.fit.require span r

theorem atom (a : Atom) (span : Span) (c : ContextId) : rel (atom a span c) (atom a span c) :=
  h.fit.atom a span c

theorem all {es : List Expression} (he : ∀ e ∈ es, rel (x e) (y e)) :
    rel (all x es) (all y es) :=
  h.fit.all (x := fun e => two (x e) (y e)) he

theorem entries (d : Dictionary) {es : List Entry}
    (he : ∀ e ∈ es.flatMap Entry.parts, rel (x e) (y e)) :
    rel (entries x d es) (entries y d es) := by
  rw [Eval.entries_eq, Eval.entries_eq]
  exact h.bind (h.fit.pairs (x := fun e => two (x e) (y e)) he) fun l => h.pure _

theorem operand (op : Operator) {e : Expression} (he : rel (x e) (y e)) :
    rel (operand x op e) (operand y op e) :=
  h.fit.operand (x := fun e => two (x e) (y e)) op he

theorem choose (otherwise : Option (List Statement)) {bs : List Branch}
    (he : ∀ e ∈ bs.map Branch.condition, rel (x e) (y e)) :
    rel (choose x otherwise bs) (choose y otherwise bs) := by
  have chosen := h.fit.choose_bind (x := fun e => two (x e) (y e))
    (f := fun body => two (Pure.pure body) (Pure.pure body)) he (fun b _ => h.pure (some b.body))
    (h.pure otherwise)
  change rel (Eval.bind (Eval.choose x otherwise bs) Eval.pure)
    (Eval.bind (Eval.choose y otherwise bs) Eval.pure) at chosen
  rwa [Eval.bind_pure, Eval.bind_pure] at chosen

theorem assign (c : ContextId) {a : Assignment} (he : ∀ e ∈ a.parts, rel (x e) (y e)) :
    rel (assign x c a) (assign y c a) :=
  h.fit.assign (x := fun e => two (x e) (y e)) c he

theorem runStatements {x : Statement → Eval σ Value} {y : Statement → Eval τ Value} (last : Value)
    {ss : List Statement} (hs : ∀ s ∈ ss, rel (x s) (y s)) :
    rel (runStatements x last ss) (runStatements y last ss) :=
  h.fit.runStatements (x := fun s => two (x s) (y s)) last hs

end Eval.Compatible

theorem Eval.Congruent.compatible (h : Congruent rel) : Compatible rel where
  pure := h.pure
  bind := h.bind
  raise := h.raise
  aborted := h.aborted
  key _ := h.ask _
  make _ := h.make _
  perform span _ := h.perform span _

theorem Eval.Congruent.openScope (h : Congruent rel) (c : ContextId) :
    rel (openScope c) (openScope c) := by
  refine h.bind (h.ask _) fun full => ?_
  cases full with
  | true => exact h.aborted
  | false => exact h.change _

/-- A congruence between two members of a family does not depend on the context. -/
theorem Eval.Congruent.placed {ι : Type} {σ : ι → Type} {i j : ι}
    {rel : ∀ {α : Type}, Eval (σ i) α → Eval (σ j) α → Prop} (h : Congruent rel) :
    Placed fun _ {α} (z : ∀ k, Eval (σ k) α) => rel (z i) (z j) where
  fit _ :=
    { pure := h.pure
      bind := fun hx hf => h.bind hx hf
      raise := h.raise
      aborted := h.aborted
      key := fun _ => h.ask _
      perform := fun span _ => h.perform span _ }
  ask _ _ := h.ask _
  newArray _ _ := h.make _
  newDictionary _ _ := h.make _
  newFunction _ _ := h.make _
  perform _ span _ := h.perform span _
  inScope span hxy := h.bind (h.openScope _) fun _ => h.closing span (.scope _) hxy
  inRound span hxy := h.bind (h.openScope _) fun _ => h.bind (h.change _) fun _ =>
    h.closing span (.round _) hxy
  inCall _ _ span hxy := h.bind (h.make _) fun c => h.bind (h.change _) fun _ =>
    h.closing span (.call c) (hxy c)

/-- All functions of two evaluators are related, the first with fuel `n` and the second with fuel
`k`. -/
structure Agree (rel : ∀ {α : Type}, Eval σ α → Eval τ α → Prop) (o : Observer σ)
    (o' : Observer τ) (n k : Nat) : Prop where
  evaluate : ∀ e c, rel (evaluate o n e c) (evaluate o' k e c)
  execute : ∀ s c, rel (execute o n s c) (execute o' k s c)
  whileRounds : ∀ e ss c, rel (whileRounds o n e ss c) (whileRounds o' k e ss c)
  countRounds : ∀ i limit step ss c,
    rel (countRounds o n i limit step ss c) (countRounds o' k i limit step ss c)
  eachRounds : ∀ it i j span ss c,
    rel (eachRounds o n it i j span ss c) (eachRounds o' k it i j span ss c)

namespace Agree

variable {o : Observer σ} {o' : Observer τ} {n k : Nat}

theorem nested (h : Agree (@rel) o o' n k) :
    Nested (fun _ _ {α} (z : ∀ b, Eval (Two σ τ b) α) => rel (z false) (z true)) (o.two o')
      fun b => cond b k n where
  evaluate _ := h.evaluate _
  execute _ := h.execute _
  whileRounds e ss _ := h.whileRounds e ss
  countRounds i _ limit step ss _ := h.countRounds i limit step ss
  eachRounds i j e ss _ it := h.eachRounds it i j e.span ss

/-- Whatever an evaluator is given is held by some node. -/
theorem of_nested
    (h : Nested (fun _ _ {α} (z : ∀ b, Eval (Two σ τ b) α) => rel (z false) (z true)) (o.two o')
      fun b => cond b k n) : Agree (@rel) o o' n k where
  evaluate e c := h.evaluate (N := .statement (.expression e)) (.part (List.mem_singleton_self e)) c
  execute s c := h.execute (N := .statement (.block [s] s.span))
    (.inner (List.mem_singleton_self s)) c
  whileRounds e ss c := h.whileRounds e ss e.span c
  countRounds i limit step ss c := h.countRounds i none limit step ss i.span c
  eachRounds it i j span ss c := h.eachRounds i j (.atom .null span) ss span it c

/-- **One unit of fuel more keeps a congruence between two evaluators**, as long as their observers
keep it. -/
theorem succ (h : Congruent rel) (ih : Agree (@rel) o o' n k)
    (hc : ∀ node c x y, rel x y → rel (o.capture node c x) (o'.capture node c y)) :
    Agree (@rel) o o' (n + 1) (k + 1) := by
  have times : ∀ times node c x y, rel x y →
      rel (o.captureTimes times node c x) (o'.captureTimes times node c y) := by
    intro times node c x y hxy
    induction times with
    | zero => exact hxy
    | succ times iht => exact hc node c _ _ iht
  have placed : Placed fun _ {α} (z : ∀ b, Eval (Two σ τ b) α) => rel (z false) (z true) :=
    Congruent.placed (i := false) (j := true) h
  have next := ih.nested.succ (fun _ => placed) ⟨?_, ?_⟩
  · exact of_nested (n := n + 1) (k := k + 1) ⟨next.evaluate, next.execute, next.whileRounds,
      next.countRounds, next.eachRounds⟩
  · intro N e c z _ hz hxy
    have first := hz false
    have second := hz true
    dsimp only
    rw [first, second]
    exact times _ _ _ _ _ hxy
  · intro N s c z _ hz hxy
    have first := hz false
    have second := hz true
    dsimp only
    rw [first, second]
    exact hc _ _ _ _ hxy

end Agree

/-- A congruence that holds without fuel and is kept by the observers holds with any fuel. -/
theorem Eval.Congruent.agree {o : Observer σ} {o' : Observer τ} (h : Congruent rel)
    (h0 : ∀ {α : Type}, rel (exhausted : Eval σ α) exhausted)
    (hc : ∀ node c x y, rel x y → rel (o.capture node c x) (o'.capture node c y)) :
    ∀ fuel, Agree (@rel) o o' fuel fuel := by
  intro fuel
  induction fuel with
  | zero =>
    constructor
    · intros; rw [evaluate, evaluate]; exact h0
    · intros; rw [execute, execute]; exact h0
    · intros; rw [whileRounds, whileRounds]; exact h0
    · intros; rw [countRounds, countRounds]; exact h0
    · intros; rw [eachRounds, eachRounds]; exact h0
  | succ fuel ih => exact ih.succ h hc

end Two

end Roteiro
