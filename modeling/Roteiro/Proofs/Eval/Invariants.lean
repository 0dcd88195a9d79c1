import Roteiro.Proofs.Eval.Fallback
import Roteiro.Proofs.Tree.Parts
import Roteiro.Proofs.World.Faults

/-!
What runs keep. An invariant of runs is kept by the evaluator if it is kept by each of the things
that evaluations are put together from: values that are given back, evaluations one after the other,
what is done to the world, scopes, rounds, calls, and nodes that are shown to the observer
(`Eval.Invariant`). It may depend on where an evaluation stands, and on the parts of trees that runs
come across: the routines of functions are among them, so a call is at work on parts as well.

What is kept is a relation between an evaluation and the same one with its failure branches in the
open. Where the evaluator relies on something, it has to be shown that it may
(`Eval.OpenInvariant`); an invariant of one run has nothing to show there
(`Eval.Invariant.openly`). Then it is kept with any amount of fuel (`Eval.OpenInvariant.upheld`).
-/

namespace Roteiro

open Eval

variable {σ α β : Type}

/-! ### what a run comes across -/

/-- The name that a statement defines in the current scope. -/
def Statement.declared : Statement → Option String
  | .declaration name _ _ => some name.text
  | .function routine => routine.name.map (·.text)
  | _ => none

/-- The spans at which runs fail: those of statements, expressions, assignments and names. -/
inductive Part.Marks (has : Part → Prop) : Span → Prop
  | statement {s : Statement} : has (.statement s) → Part.Marks has s.span
  | expression {e : Expression} : has (.expression e) → Part.Marks has e.span
  | assignment {a : Assignment} : has (.assignment a) → Part.Marks has a.span
  | ident {x : Ident} : has (.ident x) → Part.Marks has x.span

/-- Every span is that of a name. -/
theorem Part.Marks.whole (span : Span) : Part.Marks anything span :=
  .ident (x := ⟨"", span⟩) trivial

theorem Part.Closed.whole : Part.Closed anything := fun _ _ _ _ => trivial

/-- A value that is no function, or a function whose routine is one of the parts. -/
def Value.Of (has : Part → Prop) : Value → Prop :=
  Value.Obeys fun f => has (.routine f.routine)

/-- What is asked of values, which is nothing if all parts are there. -/
structure Eval.Grade (has : Part → Prop) (α : Type) where
  holds : α → Prop
  free : (∀ p, has p) → ∀ a, holds a

namespace Eval.Grade

variable {has : Part → Prop}

def any : Grade has α := ⟨anything, fun _ _ => trivial⟩

def value : Grade has Value where
  holds := Value.Of has
  free all v := by
    cases v with
    | function _ f => exact all _
    | _ => trivial

def values : Grade has (List Value) where
  holds vs := ∀ v ∈ vs, v.Of has
  free all _ v _ := value.free all v

def dictionary : Grade has Dictionary where
  holds := Dictionary.Obeys fun f => has (.routine f.routine)
  free all d key := value.free all (d.get key)

/-- The key and the value that an iteration yields. -/
def next : Grade has (Option (Value × Value) × Iteration) where
  holds next := ∀ entry ∈ next.1, entry.1.Of has ∧ entry.2.Of has
  free all _ entry _ := ⟨value.free all entry.1, value.free all entry.2⟩

theorem whole (good : Grade anything α) (a : α) : good.holds a := good.free (fun _ => trivial) a

end Eval.Grade

/-! ### what is done to a world -/

/-- What the evaluation of an expression does to a world, with what its values are like. -/
inductive Effect.Gives (has : Part → Prop) : {α : Type} → Effect α → Grade has α → Prop
  | lookup (c : ContextId) (name : String) : Gives has (World.lookup c name) .value
  | assign (c : ContextId) (name : String) {v : Value} : v.Of has →
    Gives has (World.assign c name v) .any
  | property (x k : Value) : Gives has (World.property x k) .value
  | setProperty (x k : Value) {v : Value} : v.Of has → Gives has (World.setProperty x k v) .any
  | callBuiltin (b : Builtin) {vs : List Value} : (∀ v ∈ vs, v.Of has) →
    Gives has (World.callBuiltin b vs) .value

theorem Effect.Gives.plain {has : Part → Prop} {f : Effect α} {good : Grade has α}
    (h : f.Gives has good) : f.Plain := by
  cases h with
  | lookup c name => exact .lookup c name
  | assign c name _ => exact .assign c name _
  | property x k => exact .property x k
  | setProperty x k _ => exact .setProperty x k _
  | callBuiltin b _ => exact .callBuiltin b _

/-- What statements do to their context to break or continue a loop or to return from a call. -/
inductive Effect.Signals (has : Part → Prop) (c : ContextId) : Effect Unit → Prop
  | markBreak : Signals has c (World.onContext c Context.markBreak)
  | markContinue : Signals has c (World.onContext c Context.markContinue)
  | pushReturns {vs : List Value} : (∀ v ∈ vs, v.Of has) →
    Signals has c (World.onContext c (·.pushReturns vs))

theorem Effect.Signals.simple {has : Part → Prop} {c : ContextId} {f : Effect Unit}
    (h : f.Signals has c) : f.Simple := by
  cases h with
  | markBreak => exact .markBreak c
  | markContinue => exact .markContinue c
  | pushReturns _ => exact .pushReturns c _

/-- What is made in a world for an expression. -/
inductive World.Makes (has : Part → Prop) : (World → Value × World) → Prop
  | newArray {items : Items} : (∀ v ∈ items, v.Of has) → Makes has (World.newArray items)
  | newDictionary {d : Dictionary} : d.Obeys (fun f => has (.routine f.routine)) →
    Makes has (World.newDictionary d)
  | newFunction {r : Routine} (c : ContextId) : has (.routine r) →
    Makes has (World.newFunction ⟨r, c⟩)

theorem World.Makes.making {has : Part → Prop} {f : World → Value × World} (h : Makes has f) :
    Making f := by
  cases h with
  | newArray _ => exact .newArray _
  | newDictionary _ => exact .newDictionary _
  | newFunction c _ => exact .newFunction _

/-! ### invariants -/

/-- Where an evaluation stands, and which names are known there. -/
inductive Eval.Site where
  /-- For the value of an expression. -/
  | value
  /-- For a statement, outside of the scopes that are opened for it. -/
  | direct (names : List String)
  /-- In a scope that was opened for a statement. -/
  | inside (names : List String)

/-- What an invariant of runs keeps: `rel c s good x y` says of an evaluation `x` in the context `c`
at the site `s`, beside the same evaluation `y` with its failure branches in the open, that it is as
it should be and that its values are good. What is carried out for a statement, before the statement
is shown to the observer, is `done`. -/
structure Eval.Invariant (has : Part → Prop) (o : Observer σ)
    (rel : ContextId → Site → ∀ {α : Type}, Grade has α → Eval σ α → Eval σ α → Prop)
    (done : Statement → ContextId → Eval σ Value → Eval σ Value → Prop) : Prop where
  exhausted : ∀ {α : Type} {c : ContextId} {s : Site} {good : Grade has α},
    rel c s good Eval.exhausted Eval.exhausted
  aborted : ∀ {α : Type} {c : ContextId} {s : Site} {good : Grade has α},
    rel c s good Eval.aborted Eval.aborted
  raise : ∀ {α : Type} {c : ContextId} {s : Site} {good : Grade has α} {fault : RuntimeFault}
    {span : Span}, fault.ofScript → Part.Marks has span →
      rel c s good (Eval.raise fault span) (Eval.raise fault span)
  pure : ∀ {α : Type} {c : ContextId} {s : Site} {good : Grade has α} {a : α}, good.holds a →
    rel c s good (Pure.pure a) (Pure.pure a)
  bind : ∀ {α β : Type} {c : ContextId} {s : Site} {good : Grade has α} {good' : Grade has β}
    {x y : Eval σ α} {f g : α → Eval σ β}, rel c s good x y →
      (∀ a, good.holds a → rel c s good' (f a) (g a)) → rel c s good' (x >>= f) (y >>= g)
  ask : ∀ {α : Type} {c : ContextId} {s : Site} (f : World → α),
    rel c s .any (Eval.ask f) (Eval.ask f)
  /-- What an iteration yields is in the world. -/
  advance : ∀ {c : ContextId} {s : Site} (it : Iteration),
    rel c s .next (Eval.ask fun w => w.heap.advance it) (Eval.ask fun w => w.heap.advance it)
  iterate : ∀ {c : ContextId} {s : Site} {span : Span} (v : Value), Part.Marks has span →
    rel c s .any (perform span fun w => (w.heap.iterate v, w))
      (perform span fun w => (w.heap.iterate v, w))
  gives : ∀ {α : Type} {c : ContextId} {s : Site} {good : Grade has α} {f : Effect α} {span : Span},
    f.Gives has good → Part.Marks has span → rel c s good (perform span f) (perform span f)
  makes : ∀ {c : ContextId} {f : World → Value × World}, World.Makes has f →
    rel c .value .value (make f) (make f)
  signals : ∀ {c : ContextId} {f : Effect Unit} {span : Span}, f.Signals has c →
    Part.Marks has span → rel c (.direct []) .any (perform span f) (perform span f)
  define : ∀ {c : ContextId} {names : List String} {span : Span} (name : String) {v : Value},
    v.Of has → Part.Marks has span →
      rel c (.inside names) .any (perform span (World.define c name v))
        (perform span (World.define c name v))
  /-- What is kept for an expression is kept for a statement, and what is kept outside of the scopes
  of a statement is kept in them. -/
  direct : ∀ {α : Type} {c : ContextId} {names : List String} {good : Grade has α} {x y : Eval σ α},
    rel c .value good x y → rel c (.direct names) good x y
  inside : ∀ {α : Type} {c : ContextId} {names : List String} {good : Grade has α} {x y : Eval σ α},
    rel c (.direct names) good x y → rel c (.inside names) good x y
  /-- More names may be known. -/
  known : ∀ {α : Type} {c : ContextId} {names : List String} {good : Grade has α} {x y : Eval σ α},
    rel c (.inside []) good x y → rel c (.inside names) good x y
  inScope : ∀ {α : Type} {c : ContextId} {good : Grade has α} {x y : Eval σ α} {span : Span},
    Part.Marks has span → rel c (.inside []) good x y →
      rel c (.direct []) .any (Eval.inScope c span x) (Eval.inScope c span y)
  capture : ∀ {c : ContextId} {e : Expression} {x y : Eval σ Value}, has (.expression e) →
    rel c .value .value x y →
      rel c .value .value (o.capture (.expression e) c x) (o.capture (.expression e) c y)
  /-- A statement that declares nothing has been carried out. -/
  finish : ∀ {c : ContextId} {s : Statement} {x y : Eval σ Value}, s.declared = none →
    rel c (.direct []) .value x y → done s c x y
  /-- A declaration has been carried out when the name is defined. -/
  declare : ∀ {c : ContextId} {s : Statement} {name : String} {span : Span} {x y : Eval σ Value},
    s.declared = some name → Part.Marks has span → rel c .value .value x y →
      done s c (x >>= fun v => perform span (World.define c name v) >>= fun _ => Pure.pure v)
        (y >>= fun v => perform span (World.define c name v) >>= fun _ => Pure.pure v)
  shown : ∀ {c : ContextId} {s : Statement} {x y : Eval σ Value}, has (.statement s) →
    done s c x y → rel c (.inside []) .value (o.capture (.statement s) c x)
      (o.capture (.statement s) c y)

/-- An invariant with which the evaluator may rely on what it relies on. -/
structure Eval.OpenInvariant (has : Part → Prop) (o : Observer σ)
    (rel : ContextId → Site → ∀ {α : Type}, Grade has α → Eval σ α → Eval σ α → Prop)
    (done : Statement → ContextId → Eval σ Value → Eval σ Value → Prop) : Prop
    extends Invariant has o rel done where
  /-- Names that are known can be read and set. -/
  lookupKnown : ∀ {c : ContextId} {names : List String} {name : String} {span : Span}
    (otherwise : RuntimeError → Eval σ Value), name ∈ names → Part.Marks has span →
      rel c (.direct names) .value (perform span (World.lookup c name))
        (expect span (World.lookup c name) otherwise)
  assignKnown : ∀ {c : ContextId} {names : List String} {name : String} {span : Span} {v : Value}
    (otherwise : RuntimeError → Eval σ Unit), name ∈ names → v.Of has → Part.Marks has span →
      rel c (.direct names) .any (perform span (World.assign c name v))
        (expect span (World.assign c name v) otherwise)
  /-- The frames that are opened for rounds and calls are there when these end. -/
  inRound : ∀ {α : Type} {c : ContextId} {names : List String} {good : Grade has α} {x y : Eval σ α}
    {span : Span} (otherwise : RuntimeError → Eval σ LoopFrame), Part.Marks has span →
      rel c (.inside names) good x y →
      rel c (.direct names) .any (Eval.inRound c span x) (inRoundOr otherwise c span y)
  inCall : ∀ {α : Type} {c : ContextId} {good : Grade has α} {x y : ContextId → Eval σ α} {span : Span}
    (otherwise : RuntimeError → Eval σ (List Value)) (parent : ContextId), Part.Marks has span →
      (∀ d, rel d (.inside []) good (x d) (y d)) →
      rel c .value .values (Eval.inCall parent span x)
        (inCallOr otherwise parent span y)
  /-- The counter of a loop can be defined if it is not known. -/
  counter : ∀ {α : Type} {c : ContextId} {good : Grade has α} {x y : Eval σ α} {span : Span}
    (otherwise : RuntimeError → Eval σ Unit) (name : Ident) {v : Value}, v.Of has →
      has (.ident name) → Part.Marks has span → rel c (.inside [name.text]) good x y →
      rel c (.direct []) .any
        (Eval.inScope c span (Eval.ask (fun w => w.knows c name.text) >>= fun known =>
          if !known then perform name.span (World.define c name.text v) >>= fun _ => x else x))
        (Eval.inScope c span (Eval.ask (fun w => w.knows c name.text) >>= fun known =>
          if !known then expect name.span (World.define c name.text v) otherwise >>= fun _ => y
          else y))
  /-- The names of a loop over a collection can be defined, if they are two. -/
  pair : ∀ {α : Type} {c : ContextId} {good : Grade has α} {x y : Eval σ α} {span : Span}
    (otherwise otherwise' : RuntimeError → Eval σ Unit) (first second : Ident),
      has (.ident first) → has (.ident second) → Part.Marks has span →
      rel c (.inside [second.text, first.text]) good x y →
      rel c (.direct []) .any
        (Eval.inScope c span (perform first.span (World.define c first.text .null) >>= fun _ =>
          perform second.span (World.define c second.text .null) >>= fun _ => x))
        (Eval.inScope c span (expect first.span (World.define c first.text .null) otherwise >>=
          fun _ => defineSecond first second c otherwise' >>= fun _ => y))

variable {has : Part → Prop} {o : Observer σ}
  {rel : ContextId → Site → ∀ {α : Type}, Grade has α → Eval σ α → Eval σ α → Prop}
  {done : Statement → ContextId → Eval σ Value → Eval σ Value → Prop}

/-! ### parts of expressions -/

namespace Eval.Invariant

variable (h : Invariant has o rel done) {c : ContextId} {s : Site} {span : Span}
  {good : Grade has α} {good' : Grade has β}

include h

theorem within {x y : Eval σ α} {names : List String} (hxy : rel c .value good x y) :
    rel c (.inside names) good x y :=
  h.inside (h.direct hxy)

theorem require (mark : Part.Marks has span) {r : Except RuntimeFault α} (apt : Apt good.holds r) :
    rel c s good (Eval.require span r) (Eval.require span r) := by
  cases r with
  | ok a => exact h.pure apt
  | error fault => exact h.raise (RuntimeFault.ofScript_of_ofData apt) mark

theorem test (mark : Part.Marks has span) {r : Except RuntimeFault α} (apt : Apt anything r) :
    rel c s .any (Eval.require span r) (Eval.require span r) :=
  h.require mark apt

theorem captureTimes {e : Expression} {x y : Eval σ Value} (held : has (.expression e))
    (hxy : rel c .value .value x y) (times : Nat) :
    rel c .value .value (o.captureTimes times (.expression e) c x)
      (o.captureTimes times (.expression e) c y) := by
  induction times with
  | zero => exact hxy
  | succ times ih => exact h.capture held ih

theorem atom (mark : Part.Marks has span) (a : Atom) :
    rel c s .value (Eval.atom a span c) (Eval.atom a span c) := by
  cases a with
  | identifier name => exact h.gives (.lookup c name.text) mark
  | null => exact h.pure trivial
  | number _ => exact h.pure trivial
  | string _ => exact h.pure trivial
  | boolean _ => exact h.pure trivial

section Lists

variable {x y : Expression → Eval σ Value}

theorem all {es : List Expression} (he : ∀ e ∈ es, rel c s .value (x e) (y e)) :
    rel c s .values (Eval.all x es) (Eval.all y es) := by
  induction es with
  | nil => exact h.pure (List.forall_mem_nil _)
  | cons e es ih =>
    obtain ⟨first, rest⟩ := List.forall_mem_cons.1 he
    exact h.bind first fun v hv => h.bind (ih rest) fun vs hvs =>
      h.pure (List.forall_mem_cons.2 ⟨hv, hvs⟩)

theorem entryKey {k : Key} (he : ∀ e ∈ k.parts, rel c s .value (x e) (y e)) :
    rel c s .any (Eval.entryKey x k) (Eval.entryKey y k) := by
  cases k with
  | name ident => exact h.pure trivial
  | computed e => exact h.bind (he e (List.mem_singleton_self e)) fun v _ => h.ask _

theorem entries {d : Dictionary} (hd : d.Obeys fun f => has (.routine f.routine)) {es : List Entry}
    (he : ∀ e ∈ es.flatMap Entry.parts, rel c s .value (x e) (y e)) :
    rel c s .dictionary (Eval.entries x d es)
      (Eval.entries y d es) := by
  induction es generalizing d with
  | nil => exact h.pure hd
  | cons e es ih =>
    obtain ⟨key, value⟩ := e
    rw [List.flatMap_cons, List.forall_mem_append] at he
    obtain ⟨first, rest⟩ := he
    obtain ⟨hk, hv⟩ := List.forall_mem_append.1 first
    exact h.bind (h.entryKey hk) fun k _ =>
      h.bind (hv value (List.mem_singleton_self value)) fun v hv => ih (hd.set k hv) rest

theorem operand (op : Operator) {e : Expression} (mark : Part.Marks has e.span)
    (he : rel c s .value (x e) (y e)) :
    rel c s .value (Eval.operand x op e) (Eval.operand y op e) := by
  refine h.bind he fun v hv => ?_
  dsimp only
  split
  · exact h.bind (h.test mark (.truth v)) fun _ _ => h.pure hv
  · exact h.pure hv

/-- What is done with the chosen body is kept if it is for every body that may be chosen. -/
theorem choose_bind {otherwise : Option (List Statement)} {bs : List Branch}
    {f g : Option (List Statement) → Eval σ β}
    (marks : ∀ e ∈ bs.map Branch.condition, Part.Marks has e.span)
    (he : ∀ e ∈ bs.map Branch.condition, rel c s .value (x e) (y e))
    (hb : ∀ b ∈ bs, rel c s good' (f (some b.body)) (g (some b.body)))
    (ho : rel c s good' (f otherwise) (g otherwise)) :
    rel c s good' (Eval.choose x otherwise bs >>= f) (Eval.choose y otherwise bs >>= g) := by
  induction bs with
  | nil => exact ho
  | cons b bs ih =>
    obtain ⟨condition, body⟩ := b
    obtain ⟨mark, marks⟩ := List.forall_mem_cons.1 marks
    obtain ⟨first, rest⟩ := List.forall_mem_cons.1 he
    obtain ⟨taken, others⟩ := List.forall_mem_cons.1 hb
    -- The choice is one bind inside another; the outer one is moved in to where the body is known.
    simp only [Eval.choose, Eval.bind_assoc]
    refine h.bind first fun v _ => h.bind (h.test mark (.truth v)) fun holds _ => ?_
    cases holds with
    | true => exact taken
    | false => exact ih marks rest others

theorem assign (closed : Part.Closed has) {a : Assignment} (held : has (.assignment a))
    (he : ∀ e ∈ a.parts, rel c s .value (x e) (y e)) :
    rel c s .value (Eval.assign x c a) (Eval.assign y c a) := by
  have inside := closed _ held
  obtain ⟨target, value, span⟩ := a
  obtain ⟨ht, last⟩ := List.forall_mem_append.1 he
  have hv := last value (List.mem_singleton_self value)
  cases target with
  | name ident =>
    have mark := Part.Marks.ident (inside _ List.mem_cons_self)
    exact h.bind hv fun v hv => h.bind (h.gives (.assign c ident.text hv) mark) fun _ _ => h.pure hv
  | property object key =>
    obtain ⟨ho, hk⟩ := List.forall_mem_cons.1 ht
    exact h.bind ho fun o _ => h.bind (hk key (List.mem_singleton_self key)) fun k _ =>
      h.bind hv fun v hv => h.bind (h.gives (.setProperty o k hv) (.assignment held)) fun _ _ =>
        h.pure hv

end Lists

/-! ### parts of statements -/

section Bodies

theorem body (names : List String) {x y : Statement → Eval σ Value} {ss : List Statement}
    (hs : ∀ t ∈ ss, rel c (.inside []) .value (x t) (y t)) :
    rel c (.inside names) .any (Eval.body x c ss) (Eval.body y c ss) := by
  induction ss with
  | nil => exact h.pure trivial
  | cons t ss ih =>
    obtain ⟨first, rest⟩ := List.forall_mem_cons.1 hs
    refine h.bind (h.known first) fun _ _ => h.bind (h.ask _) fun stop _ => ?_
    cases stop with
    | true => exact h.pure trivial
    | false => exact ih rest

theorem parameters {ps : List Ident} (hp : ∀ p ∈ ps, has (.ident p)) {vs : List Value}
    (hvs : ∀ v ∈ vs, v.Of has) :
    rel c (.inside []) .any (Eval.parameters c ps vs) (Eval.parameters c ps vs) := by
  induction ps generalizing vs with
  | nil => exact h.pure trivial
  | cons p ps ih =>
    obtain ⟨first, rest⟩ := List.forall_mem_cons.1 hp
    cases vs with
    | nil => exact h.pure trivial
    | cons v vs =>
      obtain ⟨hv, hvs⟩ := List.forall_mem_cons.1 hvs
      exact h.bind (h.define p.text hv (.ident first)) fun _ _ => ih rest hvs

end Bodies

end Eval.Invariant

namespace Eval.OpenInvariant

variable (h : OpenInvariant has o rel done) {c : ContextId} {span : Span}

include h

/-- The routine that is called is one of the parts. -/
theorem callClosure (closed : Part.Closed has) (mark : Part.Marks has span)
    {x y : Statement → ContextId → Eval σ Value}
    (hs : ∀ t, has (.statement t) → ∀ d, rel d (.inside []) .value (x t d) (y t d))
    {f : Closure} (held : has (.routine f.routine)) {vs : List Value} (hvs : ∀ v ∈ vs, v.Of has)
    (otherwise : RuntimeError → Eval σ (List Value)) :
    rel c .value .value (Eval.callClosure x f vs span)
      (callClosureOr otherwise y f vs span) := by
  obtain ⟨-, rest⟩ := List.forall_mem_append.1 (closed _ held)
  obtain ⟨hp, hb⟩ := List.forall_mem_append.1 rest
  rw [List.forall_mem_map] at hp hb
  have inner (d : ContextId) := h.bind (h.parameters (c := d) hp hvs) fun _ _ =>
    h.body [] fun t member => hs t (hb t member) d
  rw [callClosure_eq]
  unfold callClosureOr
  refine h.bind (h.inCall otherwise f.context mark inner) fun returned hr => h.pure ?_
  cases returned with
  | nil => trivial
  | cons v vs => exact hr v List.mem_cons_self

end Eval.OpenInvariant

/-! ### the evaluator -/

/-- All functions of the evaluator keep what is to be kept, as far as they are at work on parts that
are there. -/
structure Upheld (has : Part → Prop) (alt : Fallback σ) (o : Observer σ)
    (rel : ContextId → Site → ∀ {α : Type}, Grade has α → Eval σ α → Eval σ α → Prop)
    (fuel : Nat) : Prop where
  evaluate : ∀ e c, has (.expression e) →
    rel c .value .value (evaluate o fuel e c) (evaluateOr alt o fuel e c)
  execute : ∀ s c, has (.statement s) →
    rel c (.inside []) .value (execute o fuel s c) (executeOr alt o fuel s c)
  whileRounds : ∀ e ss c, has (.expression e) → (∀ s ∈ ss, has (.statement s)) →
    rel c (.direct []) .any (whileRounds o fuel e ss c) (whileRoundsOr alt o fuel e ss c)
  countRounds : ∀ (i : Ident) limit step ss c, has (.ident i) →
    (∀ e ∈ limit, has (.expression e)) → (∀ a ∈ step, has (.assignment a)) →
    (∀ s ∈ ss, has (.statement s)) →
    rel c (.direct [i.text]) .any (countRounds o fuel i limit step ss c)
      (countRoundsOr alt o fuel i limit step ss c)
  eachRounds : ∀ it (i j : Ident) span ss c, has (.ident i) → has (.ident j) →
    Part.Marks has span → (∀ s ∈ ss, has (.statement s)) →
    rel c (.direct [j.text, i.text]) .any (eachRounds o fuel it i j span ss c)
      (eachRoundsOr alt o fuel it i j span ss c)

namespace Upheld

variable {alt : Fallback σ} {fuel : Nat} (h : OpenInvariant has o rel done)
  (closed : Part.Closed has) (ih : Upheld has alt o rel fuel)

include h closed ih

theorem evaluate_succ (e : Expression) (c : ContextId) (held : has (.expression e)) :
    rel c .value .value (Roteiro.evaluate o (fuel + 1) e c)
      (evaluateOr alt o (fuel + 1) e c) := by
  have mark := Part.Marks.expression held
  have parts : ∀ d ∈ e.parts, has (.expression d) := fun d => closed.operand held
  have he : ∀ d ∈ e.parts, rel c .value .value (Roteiro.evaluate o fuel d c)
      (evaluateOr alt o fuel d c) := fun d hd => ih.evaluate d c (parts d hd)
  cases e with
  | atom a span =>
    rw [evaluateOr, Roteiro.evaluate, o.cascade_eq]
    exact h.captureTimes held (h.atom mark a) _
  | array items span =>
    rw [evaluateOr, Roteiro.evaluate, o.cascade_eq]
    refine h.captureTimes held (h.bind (h.all he) fun vs hvs => h.makes (.newArray ?_)) _
    exact fun v member => hvs v (by simpa using member)
  | dictionary entries span =>
    rw [evaluateOr, Roteiro.evaluate, o.cascade_eq]
    exact h.captureTimes held (h.bind (h.entries .empty he) fun d hd => h.makes (.newDictionary hd)) _
  | function routine =>
    rw [evaluateOr, Roteiro.evaluate, o.cascade_eq]
    have own := closed _ held _ (List.mem_singleton_self (Part.routine routine))
    exact h.captureTimes held (h.makes (.newFunction c own)) _
  | negate operand span =>
    rw [evaluateOr, Roteiro.evaluate, o.cascade_eq]
    exact h.captureTimes held (h.bind (he operand (List.mem_singleton_self _)) fun v _ =>
      h.require mark (.negate v)) _
  | binary op left right span =>
    have operand : ∀ d ∈ [left, right], rel c .value .value
        (Eval.operand (fun e => Roteiro.evaluate o fuel e c) op d)
        (Eval.operand (fun e => evaluateOr alt o fuel e c) op d) :=
      fun d hd => h.operand op (.expression (parts d hd)) (he d hd)
    rw [evaluateOr, Roteiro.evaluate, o.cascade_eq]
    exact h.captureTimes held (h.bind (operand left (by simp)) fun a _ =>
      h.bind (operand right (by simp)) fun b _ => h.require mark (.apply op a b)) _
  | call callee arguments span =>
    obtain ⟨hf, hs⟩ := List.forall_mem_cons.1 he
    rw [evaluateOr, Roteiro.evaluate, o.cascade_eq]
    refine h.captureTimes held (h.bind hf fun f hf => h.bind (h.all hs) fun vs hvs => ?_) _
    cases f with
    -- The function may come from anywhere, but `hf` says that its routine is one of the parts.
    | function _ closure =>
      exact h.callClosure closed mark (fun s held d => ih.execute s d held) hf hvs _
    | native _ b =>
      dsimp only
      split
      · exact h.aborted
      · exact h.gives (.callBuiltin b hvs) mark
    | _ => exact h.raise rfl mark
  | property object key span =>
    obtain ⟨ho, hk⟩ := List.forall_mem_cons.1 he
    rw [evaluateOr, Roteiro.evaluate, o.cascade_eq]
    exact h.captureTimes held (h.bind ho fun x _ =>
      h.bind (hk key (List.mem_singleton_self _)) fun k _ => h.gives (.property x k) mark) _

/-- A statement is shown to the observer around an evaluation that carries it out. -/
theorem execute_done (s : Statement) (c : ContextId) (held : has (.statement s)) :
    ∃ x y, Roteiro.execute o (fuel + 1) s c = o.capture (.statement s) c x ∧
      executeOr alt o (fuel + 1) s c = o.capture (.statement s) c y ∧ done s c x y := by
  have mark := Part.Marks.statement held
  have inside := closed _ held
  have he : ∀ e ∈ s.parts, rel c .value .value (Roteiro.evaluate o fuel e c)
      (evaluateOr alt o fuel e c) := fun e member => ih.evaluate e c (closed.part held member)
  have hs : ∀ t ∈ s.inner, rel c (.inside []) .value (Roteiro.execute o fuel t c)
      (executeOr alt o fuel t c) := fun t member => ih.execute t c (closed.inner held member)
  have null : Value.Of has .null := trivial
  have block : ∀ {span : Span} {ss : List Statement}, Part.Marks has span → (∀ t ∈ ss, t ∈ s.inner) →
      rel c (.direct []) .value
        (inScope c span (body (fun s => Roteiro.execute o fuel s c) c ss) >>= fun _ => pure .null)
        (inScope c span (body (fun s => executeOr alt o fuel s c) c ss) >>= fun _ => pure .null) :=
    fun mark sub => h.bind (h.inScope mark (h.body [] fun t member => hs t (sub t member)))
      fun _ _ => h.pure null
  cases s with
  | declaration name value span =>
    refine ⟨_, _, by rw [Roteiro.execute], by rw [executeOr], ?_⟩
    exact h.declare rfl (.ident (inside _ List.mem_cons_self)) (he value (List.mem_singleton_self _))
  | assignment a =>
    refine ⟨_, _, by rw [Roteiro.execute], by rw [executeOr], h.finish rfl (h.direct ?_)⟩
    exact h.assign closed (inside _ (List.mem_singleton_self _)) he
  | expression e =>
    refine ⟨_, _, by rw [Roteiro.execute], by rw [executeOr], h.finish rfl (h.direct ?_)⟩
    exact he e (List.mem_singleton_self _)
  | block ss span =>
    refine ⟨_, _, by rw [Roteiro.execute], by rw [executeOr], h.finish rfl ?_⟩
    exact block mark fun _ => id
  | whileLoop condition ss span =>
    refine ⟨_, _, by rw [Roteiro.execute], by rw [executeOr], h.finish rfl ?_⟩
    exact h.bind (ih.whileRounds condition ss c (closed.part held (List.mem_singleton_self _))
      fun t member => closed.inner held member) fun _ _ => h.pure null
  | countLoop counter first limit step ss span =>
    refine ⟨_, _, by rw [Roteiro.execute], by rw [executeOr], h.finish rfl ?_⟩
    -- The components are the counter, its first value, the limit, the step and the body.
    obtain ⟨hi, rest⟩ := List.forall_mem_cons.1 inside
    obtain ⟨-, rest⟩ := List.forall_mem_append.1 rest
    obtain ⟨hl, rest⟩ := List.forall_mem_append.1 rest
    obtain ⟨hn, hb⟩ := List.forall_mem_append.1 rest
    have rounds := h.inside (ih.countRounds counter limit step ss c hi
      (by simpa using List.forall_mem_map.1 hl) (by simpa using List.forall_mem_map.1 hn)
      (List.forall_mem_map.1 hb))
    have start {x y : Eval σ Unit} (starts : rel c (.inside [counter.text]) .any x y) :=
      h.counter (fun e => alt .counterDefined e Unit) counter (v := .number 0) trivial hi mark starts
    cases first with
    | none => exact h.bind (start rounds) fun _ _ => h.pure null
    | some e =>
      refine h.bind (start (h.bind (h.within (he e (by simp [Statement.parts]))) fun v hv => ?_))
        fun _ _ => h.pure null
      exact h.bind (h.inside (h.assignKnown _ (List.mem_singleton_self _) hv (.ident hi)))
        fun _ _ => rounds
  | eachLoop key value collection ss span =>
    refine ⟨_, _, by rw [Roteiro.execute], by rw [executeOr], h.finish rfl ?_⟩
    obtain ⟨hk, rest⟩ := List.forall_mem_cons.1 inside
    obtain ⟨hv, rest⟩ := List.forall_mem_cons.1 rest
    obtain ⟨hc, hb⟩ := List.forall_mem_cons.1 rest
    have atCollection := Part.Marks.expression hc
    have rounds (it : Iteration) := ih.eachRounds it key value collection.span ss c hk hv atCollection
      (List.forall_mem_map.1 hb)
    exact h.bind (h.direct (he collection (List.mem_singleton_self _))) fun v _ =>
      h.bind (h.iterate v atCollection) fun it _ =>
        h.bind (h.pair _ _ key value hk hv mark (h.inside (rounds it))) fun _ _ => h.pure null
  | function routine =>
    have own := inside _ (List.mem_singleton_self _)
    obtain ⟨hn, -⟩ := List.forall_mem_append.1 (closed _ own)
    have made := h.makes (c := c) (.newFunction c own)
    obtain ⟨name, ps, ss, span⟩ := routine
    cases name with
    | none =>
      refine ⟨_, _, by rw [Roteiro.execute], by rw [executeOr], h.finish rfl (h.direct ?_)⟩
      exact h.bind made fun f hf => h.pure hf
    | some name =>
      refine ⟨_, _, by rw [Roteiro.execute], by rw [executeOr], ?_⟩
      exact h.declare rfl (.ident (hn _ List.mem_cons_self)) made
  | conditional branches otherwise span =>
    refine ⟨_, _, by rw [Roteiro.execute], by rw [executeOr], h.finish rfl ?_⟩
    have marks : ∀ e ∈ branches.map Branch.condition, Part.Marks has e.span :=
      fun e member => .expression (closed.part held member)
    refine h.choose_bind marks (fun e member => h.direct (he e member)) (fun b member => ?_) ?_
    · exact block mark fun t there => List.mem_append_left _ (List.mem_flatMap.2 ⟨b, member, there⟩)
    · cases otherwise with
      | none => exact h.pure null
      | some ss => exact block mark fun t there => List.mem_append_right _ there
  | breakLoop span =>
    refine ⟨_, _, by rw [Roteiro.execute], by rw [executeOr], h.finish rfl ?_⟩
    exact h.bind (h.signals .markBreak mark) fun _ _ => h.pure null
  | continueLoop span =>
    refine ⟨_, _, by rw [Roteiro.execute], by rw [executeOr], h.finish rfl ?_⟩
    exact h.bind (h.signals .markContinue mark) fun _ _ => h.pure null
  | returnValues values span =>
    refine ⟨_, _, by rw [Roteiro.execute], by rw [executeOr], h.finish rfl ?_⟩
    refine h.bind (h.all fun e member => h.direct (he e member)) fun vs hvs =>
      h.bind (h.signals (.pushReturns ?_) mark) fun _ _ => h.pure null
    -- A return without values returns null.
    split
    · exact List.forall_mem_singleton.2 null
    · exact hvs

/-- A round, after which an assignment may be carried out, and what comes after it if the loop goes
on. -/
theorem turn {names : List String} {c : ContextId} {span : Span} (mark : Part.Marks has span)
    {ss : List Statement} (hs : ∀ s ∈ ss, has (.statement s)) {step : Option Assignment}
    (hn : ∀ a ∈ step, has (.assignment a)) (otherwise : RuntimeError → Eval σ LoopFrame)
    {x y : Eval σ Unit} (rest : rel c (.direct names) .any x y) :
    rel c (.direct names) .any
      (Eval.round (fun s => Roteiro.execute o fuel s c) c span ss
          (step.map (Eval.assign (fun e => Roteiro.evaluate o fuel e c) c)) >>= fun again =>
        if again then x else Pure.pure ())
      (Eval.roundOr otherwise (fun s => executeOr alt o fuel s c) c span ss
          (step.map (Eval.assign (fun e => evaluateOr alt o fuel e c) c)) >>= fun again =>
        if again then y else Pure.pure ()) := by
  have after : rel c (.inside names) .any
      (afterBody c (step.map (Eval.assign (fun e => Roteiro.evaluate o fuel e c) c)))
      (afterBody c (step.map (Eval.assign (fun e => evaluateOr alt o fuel e c) c))) := by
    cases step with
    | none => exact h.pure trivial
    | some a =>
      refine h.bind (h.ask _) fun returned _ => ?_
      cases returned with
      | true => exact h.pure trivial
      | false =>
        have assigned := h.assign closed (hn a rfl) fun e member =>
          ih.evaluate e c (closed.assigned (hn a rfl) member)
        exact h.bind (h.within assigned) fun _ _ => h.pure trivial
  have inner := h.bind (h.body names fun s member => ih.execute s c (hs s member)) fun _ _ => after
  rw [round_eq]
  unfold roundOr
  refine h.bind (h.bind (h.inRound otherwise mark inner) fun _ _ => h.ask _) fun again _ => ?_
  cases again with
  | false => exact h.pure trivial
  | true => exact rest

theorem whileRounds_succ (condition : Expression) (ss : List Statement) (c : ContextId)
    (held : has (.expression condition)) (hs : ∀ s ∈ ss, has (.statement s)) :
    rel c (.direct []) .any (Roteiro.whileRounds o (fuel + 1) condition ss c)
      (whileRoundsOr alt o (fuel + 1) condition ss c) := by
  have mark := Part.Marks.expression held
  rw [whileRoundsOr, Roteiro.whileRounds]
  refine h.bind (h.direct (ih.evaluate condition c held)) fun v _ =>
    h.bind (h.test mark (.truth v)) fun holds _ => ?_
  cases holds with
  | false => exact h.pure trivial
  | true =>
    have none : ∀ a ∈ (none : Option Assignment), has (.assignment a) := by simp
    exact ih.turn h closed mark hs none _ (ih.whileRounds condition ss c held hs)

theorem countRounds_succ (counter : Ident) (limit : Option Expression) (step : Option Assignment)
    (ss : List Statement) (c : ContextId) (hi : has (.ident counter))
    (hl : ∀ e ∈ limit, has (.expression e)) (hn : ∀ a ∈ step, has (.assignment a))
    (hs : ∀ s ∈ ss, has (.statement s)) :
    rel c (.direct [counter.text]) .any
      (Roteiro.countRounds o (fuel + 1) counter limit step ss c)
      (countRoundsOr alt o (fuel + 1) counter limit step ss c) := by
  have mark := Part.Marks.ident hi
  have turn := ih.turn h closed mark hs hn (fun e => alt .roundFrame e LoopFrame)
    (ih.countRounds counter limit step ss c hi hl hn hs)
  cases limit with
  | none =>
    rw [countRoundsOr, Roteiro.countRounds]
    exact turn
  | some e =>
    have bound := hl e rfl
    rw [countRoundsOr, Roteiro.countRounds]
    refine h.bind (h.direct (ih.evaluate e c bound)) fun v _ =>
      h.bind (h.lookupKnown _ (List.mem_singleton_self _) mark) fun current _ =>
        h.bind (h.test (.expression bound) (.shortOf current v)) fun more _ => ?_
    cases more with
    | false => exact h.pure trivial
    | true => exact turn

theorem eachRounds_succ (it : Iteration) (key value : Ident) (span : Span) (ss : List Statement)
    (c : ContextId) (hk : has (.ident key)) (hv : has (.ident value)) (mark : Part.Marks has span)
    (hs : ∀ s ∈ ss, has (.statement s)) :
    rel c (.direct [value.text, key.text]) .any
      (Roteiro.eachRounds o (fuel + 1) it key value span ss c)
      (eachRoundsOr alt o (fuel + 1) it key value span ss c) := by
  rw [eachRoundsOr, Roteiro.eachRounds]
  refine h.bind (h.advance it) fun next good => ?_
  obtain ⟨entry, it⟩ := next
  cases entry with
  | none => exact h.pure trivial
  | some entry =>
    obtain ⟨gk, gv⟩ := good entry rfl
    have none : ∀ a ∈ (none : Option Assignment), has (.assignment a) := by simp
    exact h.bind (h.assignKnown _ (by simp) gk (.ident hk)) fun _ _ =>
      h.bind (h.assignKnown _ (by simp) gv (.ident hv)) fun _ _ =>
        ih.turn h closed mark hs none _ (ih.eachRounds it key value span ss c hk hv mark hs)

theorem succ : Upheld has alt o rel (fuel + 1) where
  evaluate := ih.evaluate_succ h closed
  execute s c held := by
    obtain ⟨x, y, hx, hy, hxy⟩ := ih.execute_done h closed s c held
    rw [hx, hy]
    exact h.shown held hxy
  whileRounds := ih.whileRounds_succ h closed
  countRounds := ih.countRounds_succ h closed
  eachRounds := ih.eachRounds_succ h closed

omit closed in
/-- The statements of a script, from first to last. -/
theorem runStatements (last : Value) (hl : last.Of has) {ss : List Statement}
    (hs : ∀ s ∈ ss, has (.statement s)) (c : ContextId) :
    rel c (.inside []) .value (Roteiro.runStatements (fun s => Roteiro.execute o fuel s c) last ss)
      (Roteiro.runStatements (fun s => executeOr alt o fuel s c) last ss) := by
  induction ss generalizing last with
  | nil => exact h.pure hl
  | cons s ss rest =>
    obtain ⟨first, others⟩ := List.forall_mem_cons.1 hs
    exact h.bind (ih.execute s c first) fun v hv => rest v hv others

end Upheld

/-- **What each step keeps, the evaluator keeps** with any amount of fuel. -/
theorem Eval.OpenInvariant.upheld (h : OpenInvariant has o rel done) (closed : Part.Closed has)
    (alt : Fallback σ) : ∀ fuel, Upheld has alt o rel fuel := by
  intro fuel
  induction fuel with
  | zero =>
    constructor
    · intros; rw [evaluateOr, evaluate]; exact h.exhausted
    · intros; rw [executeOr, execute]; exact h.exhausted
    · intros; rw [whileRoundsOr, whileRounds]; exact h.exhausted
    · intros; rw [countRoundsOr, countRounds]; exact h.exhausted
    · intros; rw [eachRoundsOr, eachRounds]; exact h.exhausted
  | succ fuel ih => exact ih.succ h closed

/-! ### one run -/

section Once

variable {rel : ContextId → Site → ∀ {α : Type}, Grade has α → Eval σ α → Prop}
  {done : Statement → ContextId → Eval σ Value → Prop}

theorem Eval.Invariant.andThen
    (h : Invariant has o (fun c s {_} good x _ => rel c s good x) fun s c x _ => done s c x)
    {c : ContextId} {s : Site} {good : Grade has α} {good' : Grade has β} {x : Eval σ α}
    {f : α → Eval σ β} (hx : rel c s good x) (hf : ∀ a, good.holds a → rel c s good' (f a)) :
    rel c s good' (x >>= f) :=
  h.bind (y := x) (g := f) hx hf

/-- **With an invariant of one run the evaluator may rely on what it relies on**: what would be done
there in vain is no part of the run. -/
theorem Eval.Invariant.openly
    (h : Invariant has o (fun c s {_} good x _ => rel c s good x) fun s c x _ => done s c x)
    (unknown : ∀ {α : Type} {c : ContextId} {names : List String} {good : Grade has α} {x : Eval σ α},
      rel c (.inside names) good x → rel c (.inside []) good x)
    (inRound : ∀ {α : Type} {c : ContextId} {names : List String} {good : Grade has α} {x : Eval σ α}
      {span : Span}, Part.Marks has span → rel c (.inside names) good x →
        rel c (.direct names) .any (Eval.inRound c span x))
    (inCall : ∀ {α : Type} {c : ContextId} {good : Grade has α} {x : ContextId → Eval σ α} {span : Span}
      (parent : ContextId), Part.Marks has span → (∀ d, rel d (.inside []) good (x d)) →
        rel c .value .values (Eval.inCall parent span x)) :
    OpenInvariant has o (fun c s {_} good x _ => rel c s good x) fun s c x _ => done s c x where
  toInvariant := h
  lookupKnown _ _ mark := h.gives (.lookup _ _) mark
  assignKnown _ _ hv mark := h.gives (.assign _ _ hv) mark
  inRound _ mark hx := inRound mark hx
  inCall _ parent mark hx := inCall parent mark hx
  counter {_ c good x _ _} _ name v hv held mark hx := by
    have start (known : Bool) : rel c (.inside []) good
        (if !known then perform name.span (World.define c name.text v) >>= fun _ => x else x) := by
      cases known with
      | true => exact unknown hx
      | false => exact h.andThen (h.define name.text hv (.ident held)) fun _ _ => unknown hx
    exact h.inScope (y := Eval.aborted) mark (h.andThen (h.ask _) fun known _ => start known)
  pair _ _ first second hf hs mark hx :=
    h.inScope (y := Eval.aborted) mark
      (h.andThen (h.define first.text trivial (.ident hf)) fun _ _ =>
        h.andThen (h.define second.text trivial (.ident hs)) fun _ _ => unknown hx)

end Once

end Roteiro
