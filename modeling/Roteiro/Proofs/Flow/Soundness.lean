import Roteiro.Proofs.Flow.Agreement
import Roteiro.Proofs.Flow.Placement
import Roteiro.Proofs.World.Faults

/-!
Well placed scripts do not fail for want of a loop or a call. The place of a statement is all that
the structured evaluator asks for before it breaks, continues or returns; so where the statement is
well placed, and so are all the routines in the world, it goes on or fails for another reason
(`Structured.Sound.all`). Every function that is called was read from the world or made from a part
of the script, which is why the routines in the world have to be well placed too.
-/

namespace Roteiro

open Eval

variable {α β : Type}

/-! ### faults -/

/-- Whether a fault is that of a misplaced statement. -/
def RuntimeFault.ofPlace : RuntimeFault → Bool
  | .noLoop | .noFunction => true
  | _ => false

theorem RuntimeFault.not_ofPlace {fault : RuntimeFault} (h : fault.ofData) :
    fault.ofPlace = false := by
  cases fault with
  | noLoop => cases h
  | noFunction => cases h
  | _ => rfl

/-! ### fair evaluations -/

/-- A good value in a world of which all functions obey `R`, or an error that is not that of a
misplaced statement. -/
inductive Fairly (R : Closure → Prop) (good : α → Prop) : Outcome α × Machine Unit → Prop
  | ok {a : α} {m : Machine Unit} : good a → m.world.Obeys R → Fairly R good (.ok a, m)
  | error {e : RuntimeError} {m : Machine Unit} : e.fault.ofPlace = false → Fairly R good (.error e, m)
  | exhausted {m : Machine Unit} : Fairly R good (.exhausted, m)
  | aborted {m : Machine Unit} : Fairly R good (.aborted, m)

/-- An evaluation that ends fairly in every world of which all functions obey `R`. -/
def Eval.Fair (R : Closure → Prop) (good : α → Prop) (x : Eval Unit α) : Prop :=
  ∀ m, m.world.Obeys R → Fairly R good (x m)

namespace Eval.Fair

variable {R : Closure → Prop} {good : α → Prop} {good' : β → Prop}

theorem pure {a : α} (h : good a) : Fair R good (Pure.pure a) :=
  fun _ obeys => .ok h obeys

theorem exhausted : Fair R good Eval.exhausted := fun _ _ => .exhausted

theorem aborted : Fair R good Eval.aborted := fun _ _ => .aborted

theorem raise {fault : RuntimeFault} (span : Span) (h : fault.ofPlace = false) :
    Fair R good (Eval.raise fault span) :=
  fun _ _ => .error h

theorem bind {x : Eval Unit α} {f : α → Eval Unit β} (hx : Fair R good x)
    (hf : ∀ a, good a → Fair R good' (f a)) : Fair R good' (x >>= f) := by
  intro m obeys
  change Fairly R good' (Eval.bind x f m)
  unfold Eval.bind
  have ran := hx m obeys
  generalize x m = r at ran ⊢
  cases ran with
  | ok h obeys' => exact hf _ h _ obeys'
  | error h => exact .error h
  | exhausted => exact .exhausted
  | aborted => exact .aborted

theorem ask {f : World → α} (h : ∀ w : World, w.Obeys R → good (f w)) : Fair R good (Eval.ask f) :=
  fun _ obeys => .ok (h _ obeys) obeys

theorem make {f : World → α × World}
    (h : ∀ w : World, w.Obeys R → good (f w).1 ∧ (f w).2.Obeys R) : Fair R good (Eval.make f) :=
  fun m obeys => .ok (h m.world obeys).1 (h m.world obeys).2

theorem perform (span : Span) {f : Effect α}
    (h : ∀ w : World, w.Obeys R → Apt good (f w).1 ∧ (f w).2.Obeys R) :
    Fair R good (Eval.perform span f) := by
  intro m obeys
  obtain ⟨apt, after⟩ := h m.world obeys
  unfold Eval.perform
  generalize f m.world = r at apt after ⊢
  rcases r with ⟨fault | a, w⟩
  · exact .error (RuntimeFault.not_ofPlace apt)
  · exact .ok apt after

theorem require (span : Span) {r : Except RuntimeFault α} (h : Apt good r) :
    Fair R good (Eval.require span r) := by
  cases r with
  | ok a => exact pure h
  | error fault => exact raise span (RuntimeFault.not_ofPlace h)

/-! #### effects -/

theorem lookup (span : Span) (c : ContextId) (name : String) :
    Fair R (Value.Obeys R) (Eval.perform span (World.lookup c name)) :=
  perform span fun w obeys => ⟨(Effect.Plain.apt (.lookup c name) w).of_ok fun _ => obeys.lookup c name, obeys⟩

theorem assigning (span : Span) (c : ContextId) (name : String) {v : Value} (hv : v.Obeys R) :
    Fair R anything (Eval.perform span (World.assign c name v)) :=
  perform span fun w obeys => ⟨Effect.Plain.apt (.assign c name v) w, obeys.assign c name hv⟩

theorem define (span : Span) (c : ContextId) (name : String) {v : Value} (hv : v.Obeys R) :
    Fair R anything (Eval.perform span (World.define c name v)) :=
  perform span fun w obeys => ⟨.define c name v w, obeys.define c name hv⟩

theorem property (span : Span) (x k : Value) :
    Fair R (Value.Obeys R) (Eval.perform span (World.property x k)) :=
  perform span fun w obeys => ⟨(Effect.Plain.apt (.property x k) w).of_ok (obeys.property x k).2,
    (obeys.property x k).1⟩

theorem setProperty (span : Span) (x k : Value) {v : Value} (hv : v.Obeys R) :
    Fair R anything (Eval.perform span (World.setProperty x k v)) :=
  perform span fun w obeys => ⟨Effect.Plain.apt (.setProperty x k v) w, obeys.setProperty x k hv⟩

theorem callBuiltin (span : Span) (b : Builtin) {vs : List Value} (hvs : ∀ v ∈ vs, v.Obeys R) :
    Fair R (Value.Obeys R) (Eval.perform span (World.callBuiltin b vs)) :=
  perform span fun w obeys => ⟨(Effect.Plain.apt (.callBuiltin b vs) w).of_ok (obeys.callBuiltin hvs b).2,
    (obeys.callBuiltin hvs b).1⟩

theorem newFunction {f : Closure} (hf : R f) :
    Fair R (Value.Obeys R) (Eval.make (World.newFunction f)) :=
  make fun _ obeys => ⟨hf, ⟨obeys.contexts, obeys.heap⟩⟩

/-! #### parts of expressions -/

section Parts

variable {x : Expression → Eval Unit Value}

theorem all {es : List Expression} (he : ∀ e ∈ es, Fair R (Value.Obeys R) (x e)) :
    Fair R (fun vs => ∀ v ∈ vs, v.Obeys R) (Eval.all x es) := by
  induction es with
  | nil => exact pure (by simp)
  | cons e es ih =>
    obtain ⟨first, rest⟩ := List.forall_mem_cons.1 he
    exact bind first fun v hv => bind (ih rest) fun vs hvs =>
      pure (List.forall_mem_cons.2 ⟨hv, hvs⟩)

theorem entries {d : Dictionary} {es : List Entry} (hd : d.Obeys R)
    (he : ∀ e ∈ es.flatMap Entry.parts, Fair R (Value.Obeys R) (x e)) :
    Fair R (Dictionary.Obeys R) (Eval.entries x d es) := by
  induction es generalizing d with
  | nil => exact pure hd
  | cons e es ih =>
    obtain ⟨key, value⟩ := e
    rw [List.flatMap_cons, List.forall_mem_append] at he
    obtain ⟨first, rest⟩ := he
    obtain ⟨hk, hv⟩ := List.forall_mem_append.1 first
    have written : Fair R anything (Eval.entryKey x key) := by
      cases key with
      | name ident => exact pure trivial
      | computed e =>
        exact bind (hk e (List.mem_singleton_self e)) fun _ _ => ask fun _ _ => trivial
    exact bind written fun k _ => bind (hv value (List.mem_singleton_self value)) fun v hv =>
      ih (hd.set k hv) rest

theorem operand (op : Operator) {e : Expression} (he : Fair R (Value.Obeys R) (x e)) :
    Fair R (Value.Obeys R) (Eval.operand x op e) := by
  refine bind he fun v hv => ?_
  dsimp only
  split
  · exact bind (require e.span (.truth v)) fun _ _ => pure hv
  · exact pure hv

theorem assign (c : ContextId) {a : Assignment}
    (he : ∀ e ∈ a.parts, Fair R (Value.Obeys R) (x e)) :
    Fair R (Value.Obeys R) (Eval.assign x c a) := by
  obtain ⟨target, value, span⟩ := a
  obtain ⟨ht, last⟩ := List.forall_mem_append.1 he
  have hv := last value (List.mem_singleton_self value)
  cases target with
  | name ident =>
    exact bind hv fun v hv => bind (assigning _ c ident.text hv) fun _ _ => pure hv
  | property object key =>
    obtain ⟨ho, hk⟩ := List.forall_mem_cons.1 ht
    exact bind ho fun o _ => bind (hk key (List.mem_singleton_self key)) fun k _ =>
      bind hv fun v hv => bind (setProperty span o k hv) fun _ _ => pure hv

/-- The chosen body is that of a branch or the last resort. -/
theorem choose {otherwise : Option (List Statement)} {bs : List Branch}
    {good : Option (List Statement) → Prop}
    (he : ∀ e ∈ bs.map Branch.condition, Fair R (Value.Obeys R) (x e))
    (hb : ∀ b ∈ bs, good (some b.body)) (ho : good otherwise) :
    Fair R good (Eval.choose x otherwise bs) := by
  induction bs with
  | nil => exact pure ho
  | cons b bs ih =>
    obtain ⟨condition, body⟩ := b
    obtain ⟨first, rest⟩ := List.forall_mem_cons.1 he
    obtain ⟨taken, others⟩ := List.forall_mem_cons.1 hb
    refine bind first fun v _ => bind (require condition.span (.truth v)) fun holds _ => ?_
    cases holds with
    | true => exact pure taken
    | false => exact ih rest others

end Parts

end Eval.Fair

/-! ### fair flows -/

/-- A flow of which all functions obey `R`. -/
def Flow.Obeys (R : Closure → Prop) : Flow → Prop
  | .normal v => v.Obeys R
  | .returning values => ∀ v ∈ values, v.Obeys R
  | .breaking | .continuing => True

namespace Structured

variable {R : Closure → Prop}

theorem fair_within {good : α → Prop} (c : ContextId) {x : Eval Unit α} (hx : Fair R good x) :
    Fair R good (within c x) := by
  intro m obeys
  unfold within
  split
  · exact .aborted
  · have ran := hx ⟨m.world.enterScope c, m.watch⟩ (obeys.enterScope c)
    generalize x ⟨m.world.enterScope c, m.watch⟩ = r at ran ⊢
    cases ran with
    | ok h obeys' => exact .ok h (obeys'.leaveScope c)
    | error h => exact .error h
    | exhausted => exact .exhausted
    | aborted => exact .aborted

theorem fair_void {x : Eval Unit Flow} (hx : Fair R (Flow.Obeys R) x) :
    Fair R (Flow.Obeys R) (void x) := by
  refine .bind hx fun flow hf => .pure ?_
  cases flow with
  | normal v => trivial
  | breaking => trivial
  | continuing => trivial
  | returning values => exact hf

theorem fair_sequence {x : Statement → Eval Unit Flow} {ss : List Statement}
    (hs : ∀ s ∈ ss, Fair R (Flow.Obeys R) (x s)) : Fair R (Flow.Obeys R) (sequence x ss) := by
  induction ss with
  | nil => exact .pure (trivial : Flow.Obeys R (.normal .null))
  | cons s ss ih =>
    obtain ⟨first, rest⟩ := List.forall_mem_cons.1 hs
    refine .bind first fun flow hf => ?_
    cases flow with
    | normal v => exact ih rest
    | breaking => exact .pure hf
    | continuing => exact .pure hf
    | returning values => exact .pure hf

theorem fair_round (c : ContextId) {x : Statement → Eval Unit Flow} {ss : List Statement}
    {step : Option (Eval Unit Value)} (hs : ∀ s ∈ ss, Fair R (Flow.Obeys R) (x s))
    (hn : ∀ y ∈ step, Fair R (Value.Obeys R) y) : Fair R (Flow.Obeys R) (round c x ss step) := by
  refine fair_within c (.bind (fair_sequence hs) fun flow hf => ?_)
  cases step with
  | none => cases flow <;> exact .pure hf
  | some y =>
    have taken := hn y rfl
    cases flow with
    | normal v => exact .bind taken fun _ _ => .pure hf
    | breaking => exact .bind taken fun _ _ => .pure hf
    | continuing => exact .bind taken fun _ _ => .pure hf
    | returning values => exact .pure hf

theorem fair_after {next : Eval Unit Flow} (hn : Fair R (Flow.Obeys R) next) {flow : Flow}
    (hf : flow.Obeys R) : Fair R (Flow.Obeys R) (after next flow) := by
  cases flow with
  | normal v => exact hn
  | breaking => exact .pure (trivial : Flow.Obeys R (.normal .null))
  | continuing => exact hn
  | returning values => exact .pure hf

theorem obeys_result {flow : Flow} (hf : flow.Obeys R) : (result flow).Obeys R := by
  cases flow with
  | returning values =>
    cases values with
    | nil => trivial
    | cons v vs => exact hf v List.mem_cons_self
  | _ => trivial

/-- A counter gets its first value, if there is one, before the rounds. -/
theorem fair_first {R : Closure → Prop} {P : α → Prop} {x : Expression → Eval Unit Value}
    {rounds : Eval Unit α} (c : ContextId) (counter : Ident) (first : Option Expression)
    (hx : ∀ e, first = some e → Fair R (Value.Obeys R) (x e)) (hr : Fair R P rounds) :
    Fair R P (do
      match first with
      | none => pure ()
      | some e =>
        let v ← x e
        Eval.perform counter.span (World.assign c counter.text v)
      rounds) := by
  cases first with
  | none => exact hr
  | some e =>
    exact .bind (hx e rfl) fun v hv =>
      .bind (.assigning counter.span c counter.text hv) fun _ _ => hr

theorem fair_parameters (c : ContextId) (ps : List Ident) {vs : List Value}
    (hvs : ∀ v ∈ vs, v.Obeys R) : Fair R anything (Eval.parameters c ps vs) := by
  induction ps generalizing vs with
  | nil => exact .pure trivial
  | cons p ps ih =>
    cases vs with
    | nil => exact .pure trivial
    | cons v vs =>
      obtain ⟨first, rest⟩ := List.forall_mem_cons.1 hvs
      exact .bind (.define p.span c p.text first) fun _ _ => ih rest

theorem fair_call {x : Statement → ContextId → Eval Unit Flow} {f : Closure} {vs : List Value}
    (hs : ∀ s ∈ f.routine.body, ∀ c, Fair R (Flow.Obeys R) (x s c))
    (hvs : ∀ v ∈ vs, v.Obeys R) : Fair R (Value.Obeys R) (call x f vs) := by
  have child : Fair R anything (Eval.make (World.newChild f.context)) :=
    .make fun _ obeys => ⟨trivial, obeys.addContext fun _ member => nomatch member⟩
  refine .bind child fun c _ => ?_
  exact .bind (.bind (fair_parameters c _ hvs) fun _ _ => fair_sequence fun s hs' => hs s hs' c)
    fun flow hf => .pure (obeys_result hf)

/-! ### the evaluators -/

end Structured

/-- A closure whose routine is well placed. -/
def Closure.WellPlaced (f : Closure) : Prop := f.routine.wellPlaced = true

theorem Closure.WellPlaced.body {f : Closure} (h : f.WellPlaced) {s : Statement}
    (member : s ∈ f.routine.body) : s.wellPlaced .routine = true := by
  obtain ⟨⟨name, parameters, body, span⟩, c⟩ := f
  unfold WellPlaced at h
  rw [Routine.wellPlaced, Statement.wellPlacedAll_iff] at h
  exact h s member

namespace Structured

/-- With this much fuel all functions of the structured evaluator are fair, as far as they are given
what is well placed, in worlds where the routines are. -/
structure Sound (fuel : Nat) : Prop where
  value : ∀ e c, e.wellPlaced = true →
    Fair Closure.WellPlaced (Value.Obeys Closure.WellPlaced) (value fuel e c)
  statement : ∀ p s c, s.wellPlaced p = true →
    Fair Closure.WellPlaced (Flow.Obeys Closure.WellPlaced) (statement fuel p s c)
  whileLoop : ∀ p e ss c, e.wellPlaced = true → (∀ s ∈ ss, s.wellPlaced p.loop = true) →
    Fair Closure.WellPlaced (Flow.Obeys Closure.WellPlaced) (whileLoop fuel p e ss c)
  countLoop : ∀ p i limit step ss c, (∀ e ∈ limit, e.wellPlaced = true) →
    (∀ a ∈ step, a.wellPlaced = true) → (∀ s ∈ ss, s.wellPlaced p.loop = true) →
    Fair Closure.WellPlaced (Flow.Obeys Closure.WellPlaced) (countLoop fuel p i limit step ss c)
  eachLoop : ∀ p it i j ss c, (∀ s ∈ ss, s.wellPlaced p.loop = true) →
    Fair Closure.WellPlaced (Flow.Obeys Closure.WellPlaced) (eachLoop fuel p it i j ss c)

namespace Sound

variable {fuel : Nat} (ih : Sound fuel)

include ih

theorem value_succ (e : Expression) (c : ContextId) (h : e.wellPlaced = true) :
    Fair Closure.WellPlaced (Value.Obeys Closure.WellPlaced) (Structured.value (fuel + 1) e c) := by
  have he : ∀ d ∈ e.parts, Fair Closure.WellPlaced (Value.Obeys Closure.WellPlaced)
      (Structured.value fuel d c) := fun d hd => ih.value d c (e.wellPlaced_part h hd)
  cases e with
  | atom a span =>
    rw [Structured.value]
    cases a with
    | identifier name => exact .lookup span c name.text
    | _ => exact .pure trivial
  | array items span =>
    rw [Structured.value]
    refine .bind (.all he) fun vs hvs => .make fun w obeys => ⟨trivial, obeys.newArray fun v hv => ?_⟩
    exact hvs v (by simpa using hv)
  | dictionary entries span =>
    rw [Structured.value]
    exact .bind (.entries .empty he) fun d hd => .make fun w obeys => ⟨trivial, obeys.newDictionary hd⟩
  | function routine =>
    rw [Expression.wellPlaced] at h
    rw [Structured.value]
    exact .newFunction h
  | negate operand span =>
    rw [Structured.value]
    exact .bind (he operand (List.mem_singleton_self _)) fun v _ => .require span (.negate v)
  | binary op left right span =>
    obtain ⟨hl, hr⟩ := List.forall_mem_cons.1 he
    rw [Structured.value]
    exact .bind (.operand op hl) fun a _ =>
      .bind (.operand op (hr right (List.mem_singleton_self _))) fun b _ =>
        .require span (.apply op a b)
  | call callee arguments span =>
    obtain ⟨hf, hs⟩ := List.forall_mem_cons.1 he
    rw [Structured.value]
    refine .bind hf fun f obeys => .bind (.all hs) fun vs hvs => ?_
    cases f with
    | function _ closure =>
      exact fair_call (fun s member c => ih.statement _ s c (Closure.WellPlaced.body obeys member)) hvs
    | native _ b =>
      dsimp only
      split
      · exact .aborted
      · exact .callBuiltin span b hvs
    | _ => exact .raise span rfl
  | property object key span =>
    obtain ⟨ho, hk⟩ := List.forall_mem_cons.1 he
    rw [Structured.value]
    exact .bind ho fun x _ => .bind (hk key (List.mem_singleton_self _)) fun k _ =>
      .property span x k

theorem statement_succ (p : Place) (s : Statement) (c : ContextId) (h : s.wellPlaced p = true) :
    Fair Closure.WellPlaced (Flow.Obeys Closure.WellPlaced)
      (Structured.statement (fuel + 1) p s c) := by
  have he : ∀ e ∈ s.parts, Fair Closure.WellPlaced (Value.Obeys Closure.WellPlaced)
      (Structured.value fuel e c) := fun e member => ih.value e c (s.wellPlaced_part h member)
  have hs : ∀ t ∈ s.inner, t.wellPlaced (p.inner s) = true := fun t => s.wellPlaced_inner h
  cases s with
  | declaration name e span =>
    simp only [Structured.statement]
    exact .bind (he e (List.mem_singleton_self _)) fun v hv =>
      .bind (.define name.span c name.text hv) fun _ _ => .pure hv
  | assignment a =>
    simp only [Structured.statement]
    exact .bind (.assign c he) fun v hv => .pure hv
  | expression e =>
    simp only [Structured.statement]
    exact .bind (he e (List.mem_singleton_self _)) fun v hv => .pure hv
  | block body span =>
    simp only [Structured.statement]
    exact fair_void (fair_within c (fair_sequence fun t ht => ih.statement p t c (hs t ht)))
  | whileLoop condition body span =>
    simp only [Structured.statement]
    rw [Statement.wellPlaced, Bool.and_eq_true] at h
    exact fair_void (ih.whileLoop p condition body c h.1 hs)
  | countLoop counter first limit step body span =>
    simp only [Structured.statement]
    rw [Statement.wellPlaced, Bool.and_eq_true, Bool.and_eq_true, Bool.and_eq_true,
      Expression.wellPlacedOption_iff, Expression.wellPlacedOption_iff,
      Assignment.wellPlacedOption_iff] at h
    obtain ⟨⟨⟨-, hl⟩, ha⟩, -⟩ := h
    have rounds := ih.countLoop p counter limit step body c hl ha hs
    have known : Fair Closure.WellPlaced anything
        (Eval.ask fun w => w.knows c counter.text) := .ask fun _ _ => trivial
    refine fair_void (fair_within c (.bind known fun known _ => ?_))
    have start := fair_first c counter first
      (fun e first => he e (by simp [Statement.parts, first])) rounds
    cases known with
    | true => exact start
    | false =>
      exact .bind (.define counter.span c counter.text (v := .number 0) trivial) fun _ _ => start
  | eachLoop key item collection body span =>
    simp only [Structured.statement]
    refine .bind (he collection (List.mem_singleton_self _)) fun v _ =>
      .bind (.perform collection.span fun w obeys => ⟨.iterate w.heap v, obeys⟩) fun it _ =>
        fair_void (fair_within c ?_)
    exact .bind (.define key.span c key.text (v := .null) trivial) fun _ _ =>
      .bind (.define item.span c item.text (v := .null) trivial) fun _ _ =>
        ih.eachLoop p it key item body c hs
  | function routine =>
    simp only [Structured.statement]
    rw [Statement.wellPlaced] at h
    refine .bind (.newFunction (f := ⟨routine, c⟩) h) fun f hf => ?_
    cases routine.name with
    | none => exact .pure hf
    | some name => exact .bind (.define name.span c name.text hf) fun _ _ => .pure hf
  | conditional branches otherwise span =>
    simp only [Structured.statement]
    have chosen : Fair Closure.WellPlaced
        (fun chosen => ∀ body ∈ chosen, ∀ t ∈ body,
          t ∈ (Statement.conditional branches otherwise span).inner)
        (Eval.choose (fun e => Structured.value fuel e c) otherwise branches) :=
      .choose he
        (fun b hb body same t ht => by
          cases same
          exact List.mem_append_left _ (List.mem_flatMap.2 ⟨b, hb, ht⟩))
        (fun body same t ht => by
          cases same
          exact List.mem_append_right _ ht)
    refine .bind chosen fun chosen inside => ?_
    cases chosen with
    | none => exact .pure (trivial : Flow.Obeys Closure.WellPlaced (.normal .null))
    | some body =>
      exact fair_void (fair_within c (fair_sequence fun t ht =>
        ih.statement p t c (hs t (inside body rfl t ht))))
  | breakLoop span =>
    simp only [Structured.statement]
    rw [Statement.wellPlaced] at h
    rw [if_pos h]
    exact .pure trivial
  | continueLoop span =>
    simp only [Structured.statement]
    rw [Statement.wellPlaced] at h
    rw [if_pos h]
    exact .pure trivial
  | returnValues values span =>
    simp only [Structured.statement]
    rw [Statement.wellPlaced, Bool.and_eq_true] at h
    refine .bind (.all he) fun vs hvs => ?_
    rw [if_pos h.2]
    exact .pure hvs

theorem whileLoop_succ (p : Place) (condition : Expression) (ss : List Statement) (c : ContextId)
    (h : condition.wellPlaced = true) (hs : ∀ s ∈ ss, s.wellPlaced p.loop = true) :
    Fair Closure.WellPlaced (Flow.Obeys Closure.WellPlaced)
      (Structured.whileLoop (fuel + 1) p condition ss c) := by
  simp only [Structured.whileLoop]
  refine .bind (ih.value condition c h) fun v _ =>
    .bind (.require condition.span (.truth v)) fun holds _ => ?_
  cases holds with
  | false => exact .pure (trivial : Flow.Obeys Closure.WellPlaced (.normal .null))
  | true =>
    exact .bind (fair_round c (fun s hs' => ih.statement p.loop s c (hs s hs')) (by simp))
      fun flow hf => fair_after (ih.whileLoop p condition ss c h hs) hf

theorem countLoop_succ (p : Place) (counter : Ident) (limit : Option Expression)
    (step : Option Assignment) (ss : List Statement) (c : ContextId)
    (hl : ∀ e ∈ limit, e.wellPlaced = true) (ha : ∀ a ∈ step, a.wellPlaced = true)
    (hs : ∀ s ∈ ss, s.wellPlaced p.loop = true) :
    Fair Closure.WellPlaced (Flow.Obeys Closure.WellPlaced)
      (Structured.countLoop (fuel + 1) p counter limit step ss c) := by
  have next : ∀ y ∈ step.map (Eval.assign (fun e => Structured.value fuel e c) c),
      Fair Closure.WellPlaced (Value.Obeys Closure.WellPlaced) y := by
    intro y hy
    obtain ⟨a, there, rfl⟩ := Option.map_eq_some_iff.1 hy
    exact .assign c fun e member => ih.value e c (Assignment.wellPlaced_part (ha a there) member)
  have turn : Fair Closure.WellPlaced (Flow.Obeys Closure.WellPlaced) (do
      let flow ← Structured.round c (fun s => Structured.statement fuel p.loop s c) ss
        (step.map (Eval.assign (fun e => Structured.value fuel e c) c))
      Structured.after (Structured.countLoop fuel p counter limit step ss c) flow) :=
    .bind (fair_round c (fun s hs' => ih.statement p.loop s c (hs s hs')) next)
      fun flow hf => fair_after (ih.countLoop p counter limit step ss c hl ha hs) hf
  cases limit with
  | none =>
    simp only [Structured.countLoop]
    exact turn
  | some e =>
    simp only [Structured.countLoop]
    refine .bind (ih.value e c (hl e rfl)) fun v _ =>
      .bind (.lookup counter.span c counter.text) fun current _ =>
        .bind (.require e.span (.shortOf current v)) fun more _ => ?_
    cases more with
    | false => exact .pure (trivial : Flow.Obeys Closure.WellPlaced (.normal .null))
    | true => exact turn

theorem eachLoop_succ (p : Place) (it : Iteration) (key item : Ident) (ss : List Statement)
    (c : ContextId) (hs : ∀ s ∈ ss, s.wellPlaced p.loop = true) :
    Fair Closure.WellPlaced (Flow.Obeys Closure.WellPlaced)
      (Structured.eachLoop (fuel + 1) p it key item ss c) := by
  simp only [Structured.eachLoop]
  have yields : Fair Closure.WellPlaced (fun next : Option (Value × Value) × Iteration =>
      ∀ entry ∈ next.1, entry.1.Obeys Closure.WellPlaced ∧ entry.2.Obeys Closure.WellPlaced)
      (Eval.ask fun w => w.heap.advance it) :=
    .ask fun w obeys entry yielded =>
      obeys.heap.advance (Prod.ext (Option.mem_def.1 yielded) rfl)
  refine .bind yields fun next good => ?_
  obtain ⟨entry, it⟩ := next
  cases entry with
  | none => exact .pure (trivial : Flow.Obeys Closure.WellPlaced (.normal .null))
  | some entry =>
    obtain ⟨hk, hv⟩ := good entry rfl
    exact .bind (.assigning key.span c key.text hk) fun _ _ =>
      .bind (.assigning item.span c item.text hv) fun _ _ =>
        .bind (fair_round c (fun s hs' => ih.statement p.loop s c (hs s hs')) (by simp))
          fun flow hf => fair_after (ih.eachLoop p it key item ss c hs) hf

end Sound

/-- **What is well placed is fair**, with any amount of fuel. -/
theorem Sound.all (fuel : Nat) : Sound fuel := by
  induction fuel with
  | zero =>
    constructor
    · intros; rw [Structured.value]; exact .exhausted
    · intros; simp only [Structured.statement]; exact .exhausted
    · intros; simp only [Structured.whileLoop]; exact .exhausted
    · intros; simp only [Structured.countLoop]; exact .exhausted
    · intros; simp only [Structured.eachLoop]; exact .exhausted
  | succ fuel ih =>
    exact ⟨ih.value_succ, ih.statement_succ, ih.whileLoop_succ, ih.countLoop_succ, ih.eachLoop_succ⟩

theorem fair_script {R : Closure → Prop} {x : Statement → Eval Unit Flow} {ss : List Statement}
    (hs : ∀ s ∈ ss, Fair R (Flow.Obeys R) (x s)) (last : Value) (hv : last.Obeys R) :
    Fair R (Value.Obeys R) (script x last ss) := by
  induction ss generalizing last with
  | nil => exact .pure hv
  | cons s ss ih =>
    obtain ⟨first, rest⟩ := List.forall_mem_cons.1 hs
    refine .bind first fun flow hf => ?_
    cases flow with
    | normal v => exact ih rest v hf
    | _ => exact .pure trivial

end Structured

/-! ### scripts -/

/-- Bare contexts have the locals they had. -/
theorem World.Obeys.bare {R : Closure → Prop} {w : World} (h : w.Obeys R) :
    (w.through Contexts.bare).Obeys R := by
  refine ⟨fun i => ?_, h.heap⟩
  have same : (w.contexts.bare.context i).locals = (w.context i).locals := by
    rw [Contexts.context_bare]
    rfl
  intro l member
  change l ∈ (w.contexts.bare.context i).locals at member
  rw [same] at member
  exact h.contexts i l member

theorem Observer.none_harmless : Observer.none.Harmless :=
  ⟨fun _ _ _ => ⟨_, _, rfl⟩, fun _ _ _ => ⟨_, rfl⟩⟩

/-- **A well placed script never fails for want of a loop or a call**, if it starts in a context
without frames and the routines of all functions there are well placed. -/
theorem Session.ofPlace_of_wellPlaced (s : Session) (w : World)
    (live : s.context < w.contexts.size) (none : (w.context s.context).frames = ⟨[], []⟩)
    (placed : s.program.wellPlaced = true) (obeys : w.Obeys Closure.WellPlaced) (fuel : Nat)
    {e : RuntimeError} (failed : (s.rest .none fuel ⟨w, ()⟩).1 = .error e) :
    e.fault.ofPlace = false := by
  have run := s.rest_structured Observer.none_harmless ⟨w, ()⟩ live none fuel
  have remaining : ∀ st ∈ s.remaining, st.wellPlaced .outside = true := fun st member =>
    Statement.wellPlacedAll_iff.1 placed st (List.mem_of_mem_drop member)
  have fair := Structured.fair_script (x := fun st => Structured.statement fuel .outside st s.context)
    (fun st member => (Structured.Sound.all fuel).statement .outside st s.context (remaining st member))
    .null trivial ⟨w.through Contexts.bare, ()⟩ obeys.bare
  have outcome : (Structured.run fuel s (w.through Contexts.bare)).1 = .error e := by
    rw [run]
    exact failed
  unfold Structured.run at outcome
  generalize Structured.script (fun st => Structured.statement fuel .outside st s.context) .null
    s.remaining ⟨w.through Contexts.bare, ()⟩ = r at fair outcome
  cases fair with
  | error h =>
    cases outcome
    exact h
  | ok _ _ => cases outcome
  | exhausted => cases outcome
  | aborted => cases outcome

end Roteiro
