import Roteiro.Proofs.Eval.Fuel
import Roteiro.Proofs.Flow.Agreement
import Roteiro.Proofs.Parser.Layout
import Roteiro.Proofs.World.Bare

/-!
Layout means nothing to a running script. A script and the same script without its spans run in step:
in worlds that differ only in spans, every node has the same value up to spans, or fails with the
same fault, and leaves such worlds again (`Eval.Bares`, by induction on the fuel in `RunsBare`). So
two sources with the same bare tokens are the same script, and their runs go on for ever together or
end with the same value on show or the same fault, and with the same output (`layout_irrelevant`).
-/

namespace Roteiro

/-- An outcome, and the same one up to spans; `f` takes them from the result. -/
inductive Outcome.Bares {α β : Type} (f : α → β) : Outcome α → Outcome β → Prop where
  | ok (a : α) : Bares f (.ok a) (.ok (f a))
  | error (fault : RuntimeFault) (s t : Span) : Bares f (.error ⟨fault, s⟩) (.error ⟨fault, t⟩)
  | exhausted : Bares f .exhausted .exhausted
  | aborted : Bares f .aborted .aborted

namespace Eval

/-- In a world of bare values `y` ends as `x` does, up to spans, and leaves such a world. -/
def Bares {α β : Type} (f : α → β) (x : Eval Unit α) (y : Eval Unit β) : Prop :=
  ∀ m m' : Machine Unit, m.world.Bares m'.world →
    (x m).1.Bares f (y m').1 ∧ (x m).2.world.Bares (y m').2.world

namespace Bares

variable {α β γ δ : Type} {f : α → β} {g : γ → δ}

protected theorem pure {a : α} {b : β} (h : b = f a) : Bares f (Pure.pure a) (Pure.pure b) := by
  intro m m' bares
  rw [h]
  exact ⟨.ok a, bares⟩

theorem exhausted : Bares f Eval.exhausted Eval.exhausted :=
  fun _ _ bares => ⟨.exhausted, bares⟩

theorem aborted : Bares f Eval.aborted Eval.aborted :=
  fun _ _ bares => ⟨.aborted, bares⟩

theorem raise (fault : RuntimeFault) (s t : Span) :
    Bares f (Eval.raise fault s) (Eval.raise fault t) :=
  fun _ _ bares => ⟨.error fault s t, bares⟩

theorem bind {x : Eval Unit α} {y : Eval Unit β} {k : α → Eval Unit γ} {l : β → Eval Unit δ}
    (hx : Bares f x y) (hk : ∀ a, Bares g (k a) (l (f a))) : Bares g (x >>= k) (y >>= l) := by
  intro m m' bares
  obtain ⟨ends, after⟩ := hx m m' bares
  change (Eval.bind x k m).1.Bares g (Eval.bind y l m').1 ∧
    (Eval.bind x k m).2.world.Bares (Eval.bind y l m').2.world
  unfold Eval.bind
  generalize x m = r at ends after ⊢
  generalize y m' = r' at ends after ⊢
  obtain ⟨o, n⟩ := r
  obtain ⟨o', n'⟩ := r'
  dsimp only at ends after
  cases ends with
  | ok a => exact hk a n n' after
  | error fault s t => exact ⟨.error fault s t, after⟩
  | exhausted => exact ⟨.exhausted, after⟩
  | aborted => exact ⟨.aborted, after⟩

theorem ask {a : World → α} {b : World → β} (h : ∀ {w w' : World}, w.Bares w' → b w' = f (a w)) :
    Bares f (Eval.ask a) (Eval.ask b) := by
  intro m m' bares
  unfold Eval.ask
  rw [h bares]
  exact ⟨.ok _, bares⟩

theorem change {a b : World → World} (h : ∀ {w w' : World}, w.Bares w' → (a w).Bares (b w')) :
    Bares id (Eval.change a) (Eval.change b) :=
  fun _ _ bares => ⟨.ok (), h bares⟩

theorem make {a : World → α × World} {b : World → β × World} (h : Effect.Makes f a b) :
    Bares f (Eval.make a) (Eval.make b) := by
  intro m m' bares
  obtain ⟨made, after⟩ := h _ _ bares
  unfold Eval.make
  dsimp only
  rw [made]
  exact ⟨.ok _, after⟩

theorem require (s t : Span) (r : Except RuntimeFault α) :
    Bares f (Eval.require s r) (Eval.require t (r.map f)) := by
  cases r with
  | error fault => exact raise fault s t
  | ok a => exact .pure rfl

/-- What holds no value is the same up to spans. -/
theorem require_id (s t : Span) (r : Except RuntimeFault α) :
    Bares id (Eval.require s r) (Eval.require t r) := by
  cases r with
  | error fault => exact raise fault s t
  | ok a => exact .pure rfl

theorem truth (s t : Span) (v : Value) :
    Bares id (Eval.require s v.truth) (Eval.require t v.bare.truth) := by
  rw [v.truth_bare]
  exact require_id s t _

theorem perform (s t : Span) {a : Effect α} {b : Effect β} (h : Effect.Bares f a b) :
    Bares f (Eval.perform s a) (Eval.perform t b) := by
  intro m m' bares
  obtain ⟨done, after⟩ := h _ _ bares
  unfold Eval.perform
  generalize a m.world = r at done after ⊢
  generalize b m'.world = r' at done after ⊢
  obtain ⟨o, n⟩ := r
  obtain ⟨o', n'⟩ := r'
  dsimp only at done after
  subst done
  cases o with
  | error fault => exact ⟨.error fault s t, after⟩
  | ok a => exact ⟨.ok a, after⟩

theorem closing (s t : Span) {x : Eval Unit α} {y : Eval Unit β} {a : Effect γ} {b : Effect δ}
    (hx : Bares f x y) (h : Effect.Bares g a b) :
    Bares g (Eval.closing s x a) (Eval.closing t y b) := by
  intro m m' bares
  obtain ⟨ends, after⟩ := hx m m' bares
  unfold Eval.closing
  generalize x m = r at ends after ⊢
  generalize y m' = r' at ends after ⊢
  obtain ⟨o, n⟩ := r
  obtain ⟨o', n'⟩ := r'
  dsimp only at ends after
  cases ends with
  | ok _ => exact perform s t h n n' after
  | error fault s t => exact ⟨.error fault s t, (h _ _ after).2⟩
  | exhausted => exact ⟨.exhausted, (h _ _ after).2⟩
  | aborted => exact ⟨.aborted, after⟩

/-! ### expressions -/

variable {x y : Expression → Eval Unit Value} (he : ∀ e, Bares Value.bare (x e) (y e.bare))

theorem atom (a : Atom) (s t : Span) (c : ContextId) :
    Bares Value.bare (Eval.atom a s c) (Eval.atom a.bare t c) := by
  cases a with
  | identifier name => exact perform s t (World.bares_lookup c name.text)
  | _ => exact .pure rfl

include he

theorem all (es : List Expression) :
    Bares (List.map Value.bare) (Eval.all x es) (Eval.all y (Expression.bareAll es)) := by
  induction es with
  | nil => exact .pure rfl
  | cons e es ih => exact bind (he e) fun v => bind ih fun vs => .pure rfl

theorem entryKey (k : Key) : Bares id (Eval.entryKey x k) (Eval.entryKey y k.bare) := by
  cases k with
  | name name => exact .pure rfl
  | computed e => exact bind (he e) fun v => ask fun h => h.heap.key v

theorem pairs (es : List Entry) :
    Bares (List.map (Prod.map id Value.bare)) (Eval.pairs x es) (Eval.pairs y (Entry.bareAll es)) := by
  induction es with
  | nil => exact .pure rfl
  | cons e es ih =>
    obtain ⟨key, value⟩ := e
    exact bind (entryKey he key) fun k => bind (he value) fun v => bind ih fun rest => .pure rfl

theorem operand (op : Operator) (e : Expression) :
    Bares Value.bare (Eval.operand x op e) (Eval.operand y op e.bare) := by
  refine bind (he e) fun v => ?_
  dsimp only
  split
  · exact bind (truth _ _ v) fun _ => .pure rfl
  · exact .pure rfl

theorem assign (c : ContextId) (a : Assignment) :
    Bares Value.bare (Eval.assign x c a) (Eval.assign y c a.bare) := by
  obtain ⟨target, value, span⟩ := a
  cases target with
  | name name =>
    refine bind (he value) fun v => ?_
    exact bind (perform _ _ (World.bares_assign c name.text v)) fun _ => .pure rfl
  | property object key =>
    refine bind (he object) fun o => bind (he key) fun k => bind (he value) fun v => ?_
    exact bind (perform _ _ (World.bares_setProperty o k v)) fun _ => .pure rfl

theorem choose (otherwise : Option (List Statement)) (bs : List Branch) :
    Bares Statement.bareOption (Eval.choose x otherwise bs)
      (Eval.choose y (Statement.bareOption otherwise) (Branch.bareAll bs)) := by
  induction bs with
  | nil => exact .pure rfl
  | cons b bs ih =>
    obtain ⟨e, body⟩ := b
    refine bind (he e) fun v => bind (truth _ _ v) fun holds => ?_
    cases holds with
    | true => exact .pure rfl
    | false => exact ih

end Bares

/-! ### statements -/

namespace Bares

variable {α β : Type} {f : α → β} {x y : Statement → Eval Unit Value}

theorem hasReturned (c : ContextId) : Bares id (Eval.ask fun w => (w.context c).hasReturned)
    (Eval.ask fun w => (w.context c).hasReturned) := by
  refine ask fun h => ?_
  rw [h.context]
  exact Context.hasReturned_mapValues _ _

theorem body (c : ContextId) (hs : ∀ s, Bares Value.bare (x s) (y s.bare)) (ss : List Statement) :
    Bares id (Eval.body x c ss) (Eval.body y c (Statement.bareAll ss)) := by
  have interrupted : Bares id (Eval.ask fun w => (w.context c).interrupted)
      (Eval.ask fun w => (w.context c).interrupted) := by
    refine ask fun h => ?_
    rw [h.context]
    exact Context.interrupted_mapValues _ _
  induction ss with
  | nil => exact .pure rfl
  | cons s ss ih =>
    refine bind (hs s) fun _ => bind interrupted fun stops => ?_
    cases stops with
    | true => exact .pure rfl
    | false => exact ih

theorem openScope (c : ContextId) : Bares id (Eval.openScope c) (Eval.openScope c) := by
  have full : Bares id (Eval.ask fun w => (w.context c).full)
      (Eval.ask fun w => (w.context c).full) := by
    refine ask fun h => ?_
    rw [h.context]
    rfl
  refine bind full fun full => ?_
  cases full with
  | true => exact aborted
  | false => exact change fun bares => bares.enterScope c

theorem inScope (c : ContextId) (s t : Span) {a : Eval Unit α} {b : Eval Unit β}
    (h : Bares f a b) : Bares id (Eval.inScope c s a) (Eval.inScope c t b) := by
  refine bind (openScope c) fun _ => ?_
  exact closing s t h fun _ _ bares => ⟨rfl, bares.leaveScope c⟩

theorem inRound (c : ContextId) (s t : Span) {a : Eval Unit α} {b : Eval Unit β}
    (h : Bares f a b) : Bares id (Eval.inRound c s a) (Eval.inRound c t b) :=
  bind (openScope c) fun _ => bind (change fun bares => bares.update c fun _ => rfl) fun _ =>
    closing s t h (World.bares_closeRound c)

theorem round (c : ContextId) (s t : Span) (hs : ∀ s, Bares Value.bare (x s) (y s.bare))
    (ss : List Statement) {step step' : Option (Eval Unit Value)}
    (ha : Option.Rel (Bares Value.bare) step step') :
    Bares id (Eval.round x c s ss step) (Eval.round y c t (Statement.bareAll ss) step') := by
  have after : Bares id (Eval.afterBody c step) (Eval.afterBody c step') := by
    cases ha with
    | none => exact .pure rfl
    | some ha =>
      refine bind (hasReturned c) fun returned => ?_
      cases returned with
      | true => exact .pure rfl
      | false => exact bind ha fun _ => .pure rfl
  rw [Eval.round_eq, Eval.round_eq]
  refine bind (inRound c s t (bind (body c hs ss) fun _ => after)) fun frame => ask fun bares => ?_
  rw [bares.context, Context.hasReturned_mapValues]
  rfl

/-- A round, and the rounds after it. -/
theorem again {r r' : Eval Unit Bool} {x y : Eval Unit Unit} (hr : Bares id r r')
    (hx : Bares id x y) : Bares id (do if ← r then x) (do if ← r' then y) := by
  refine bind hr fun again => ?_
  cases again with
  | false => exact .pure rfl
  | true => exact hx

/-! ### calls -/

theorem parameters (c : ContextId) (ps : List Ident) (vs : List Value) :
    Bares id (Eval.parameters c ps vs)
      (Eval.parameters c (ps.map Ident.bare) (vs.map Value.bare)) := by
  induction ps generalizing vs with
  | nil => exact .pure rfl
  | cons p ps ih =>
    cases vs with
    | nil => exact .pure rfl
    | cons v vs => exact bind (perform _ _ (World.bares_define c p.text v)) fun _ => ih vs

theorem callClosure {x y : Statement → ContextId → Eval Unit Value}
    (hs : ∀ s c, Bares Value.bare (x s c) (y s.bare c)) (f : Closure) (vs : List Value)
    (s t : Span) : Bares Value.bare (Eval.callClosure x f vs s)
      (Eval.callClosure y f.bare (vs.map Value.bare) t) := by
  obtain ⟨⟨name, ps, ss, span⟩, parent⟩ := f
  refine bind (make (World.bares_newChild parent)) fun c => ?_
  refine bind (change fun bares => bares.update c fun _ => rfl) fun _ => ?_
  refine bind (closing (f := id) s t ?_ (World.bares_popCall c)) fun returned => .pure ?_
  · exact bind (parameters c ps vs) fun _ => body c (fun s => hs s c) ss
  · cases returned with
    | nil => rfl
    | cons v vs => rfl

end Bares

end Eval

open Eval

theorem Eval.shortOf_bare (current limit : Value) :
    shortOf current.bare limit.bare = shortOf current limit := by
  cases limit with
  | number x => exact Value.compareBy_bare _ _ current (.number x)
  | _ => rfl

/-! ### the evaluator -/

/-- With this much fuel all functions of the evaluator do the same on bare trees. -/
structure RunsBare (fuel : Nat) : Prop where
  evaluate : ∀ e c, Bares Value.bare (evaluate .none fuel e c) (evaluate .none fuel e.bare c)
  execute : ∀ s c, Bares Value.bare (execute .none fuel s c) (execute .none fuel s.bare c)
  whileRounds : ∀ e ss c, Bares id (whileRounds .none fuel e ss c)
    (whileRounds .none fuel e.bare (Statement.bareAll ss) c)
  countRounds : ∀ i limit step ss c, Bares id (countRounds .none fuel i limit step ss c)
    (countRounds .none fuel i.bare (Expression.bareOption limit) (Assignment.bareOption step)
      (Statement.bareAll ss) c)
  eachRounds : ∀ it i j span span' ss c, Bares id (eachRounds .none fuel it i j span ss c)
    (eachRounds .none fuel it i.bare j.bare span' (Statement.bareAll ss) c)

namespace RunsBare

variable {fuel : Nat} (ih : RunsBare fuel)

include ih

theorem evaluate_succ (e : Expression) (c : ContextId) : Bares Value.bare
    (Roteiro.evaluate .none (fuel + 1) e c) (Roteiro.evaluate .none (fuel + 1) e.bare c) := by
  have he := fun e => ih.evaluate e c
  cases e with
  | atom a span =>
    rw [Expression.bare, Roteiro.evaluate, Roteiro.evaluate]
    simp only [Observer.captureTimes_none]
    exact .atom a span _ c
  | array items span =>
    rw [Expression.bare, Roteiro.evaluate, Roteiro.evaluate]
    simp only [Observer.captureTimes_none]
    refine .bind (.all he items) fun vs => ?_
    rw [← List.map_toArray]
    exact .make (World.bares_newArray vs.toArray)
  | dictionary entries span =>
    rw [Expression.bare, Roteiro.evaluate, Roteiro.evaluate]
    simp only [Observer.captureTimes_none, Eval.entries_eq, Eval.bind_assoc]
    exact .bind (.pairs he entries) fun l =>
      .make (World.bares_newDictionary (Dictionary.Bares.empty.writes l))
  | function routine =>
    rw [Expression.bare, Roteiro.evaluate, Roteiro.evaluate]
    simp only [Observer.captureTimes_none]
    exact .make (World.bares_newFunction ⟨routine, c⟩)
  | negate operand span =>
    rw [Expression.bare, Roteiro.evaluate, Roteiro.evaluate]
    simp only [Observer.captureTimes_none]
    refine .bind (he operand) fun v => ?_
    rw [v.negate_bare]
    exact .require _ _ _
  | binary op left right span =>
    rw [Expression.bare, Roteiro.evaluate, Roteiro.evaluate]
    simp only [Observer.captureTimes_none]
    refine .bind (.operand he op left) fun a => .bind (.operand he op right) fun b => ?_
    rw [Value.apply_bare]
    exact .require _ _ _
  | call callee arguments span =>
    rw [Expression.bare, Roteiro.evaluate, Roteiro.evaluate]
    simp only [Observer.captureTimes_none]
    refine .bind (he callee) fun f => .bind (.all he arguments) fun vs => ?_
    cases f with
    | function id closure => exact .callClosure ih.execute closure vs _ _
    | native id b =>
      change Bares _ _ (if b.breaksOff (vs.map Value.bare) then Eval.aborted
        else Eval.perform _ (World.callBuiltin b (vs.map Value.bare)))
      rw [b.breaksOff_bare]
      dsimp only
      split
      · exact .aborted
      · exact .perform _ _ (World.bares_callBuiltin b vs)
    | _ => exact .raise _ _ _
  | property object key span =>
    rw [Expression.bare, Roteiro.evaluate, Roteiro.evaluate]
    simp only [Observer.captureTimes_none]
    exact .bind (he object) fun x => .bind (he key) fun k =>
      .perform _ _ (World.bares_property x k)

theorem execute_succ (s : Statement) (c : ContextId) : Bares Value.bare
    (Roteiro.execute .none (fuel + 1) s c) (Roteiro.execute .none (fuel + 1) s.bare c) := by
  have he := fun e => ih.evaluate e c
  have hs := fun s => ih.execute s c
  have void {x y : Eval Unit Unit} (h : Bares id x y) :
      Bares Value.bare (x >>= fun _ => pure .null) (y >>= fun _ => pure .null) :=
    .bind h fun _ => .pure rfl
  cases s with
  | declaration name e span =>
    rw [Statement.bare]
    simp only [Roteiro.execute, Observer.capture_none]
    exact .bind (he e) fun v => .bind (.perform _ _ (World.bares_define c name.text v)) fun _ =>
      .pure rfl
  | assignment a =>
    rw [Statement.bare]
    simp only [Roteiro.execute, Observer.capture_none]
    exact .assign he c a
  | expression e =>
    rw [Statement.bare]
    simp only [Roteiro.execute, Observer.capture_none]
    exact he e
  | block body span =>
    rw [Statement.bare]
    simp only [Roteiro.execute, Observer.capture_none]
    exact void (.inScope c _ _ (.body c hs body))
  | whileLoop condition body span =>
    rw [Statement.bare]
    simp only [Roteiro.execute, Observer.capture_none]
    exact void (ih.whileRounds condition body c)
  | countLoop counter first limit step body span =>
    rw [Statement.bare]
    simp only [Roteiro.execute, Observer.capture_none]
    have knows : Bares id (Eval.ask fun w => w.knows c counter.text)
        (Eval.ask fun w => w.knows c counter.bare.text) :=
      .ask fun bares => bares.knows c counter.text
    have rounds := ih.countRounds counter limit step body c
    have define (s t : Span) := Bares.perform s t (World.bares_define c counter.text (.number 0))
    have set (s t : Span) (v : Value) := Bares.perform s t (World.bares_assign c counter.text v)
    refine void (.inScope (f := id) c _ _ (.bind knows fun known => ?_))
    -- With the counter known or defined, both set it to its first value and go round.
    cases first with
    | none =>
      cases known with
      | true => exact rounds
      | false => exact .bind (define _ _) fun _ => rounds
    | some e =>
      cases known with
      | true => exact .bind (he e) fun v => .bind (set _ _ v) fun _ => rounds
      | false =>
        exact .bind (define _ _) fun _ => .bind (he e) fun v => .bind (set _ _ v) fun _ => rounds
  | eachLoop key value collection body span =>
    rw [Statement.bare]
    simp only [Roteiro.execute, Observer.capture_none]
    have iterate (v : Value) : Effect.Bares id (fun w => (w.heap.iterate v, w))
        (fun w => (w.heap.iterate v.bare, w)) := by
      intro w w' bares
      refine ⟨?_, bares⟩
      dsimp only
      rw [bares.heap.iterate]
      cases w.heap.iterate v with
      | error fault => rfl
      | ok it => rfl
    refine .bind (he collection) fun v => .bind (.perform _ _ (iterate v)) fun it => ?_
    refine void (.inScope (f := id) c _ _ ?_)
    refine .bind (.perform _ _ (World.bares_define c key.text .null)) fun _ => ?_
    refine .bind (.perform _ _ (World.bares_define c value.text .null)) fun _ => ?_
    exact ih.eachRounds it key value _ _ body c
  | function routine =>
    obtain ⟨name, parameters, body, span⟩ := routine
    rw [Statement.bare]
    simp only [Roteiro.execute, Observer.capture_none]
    refine .bind (.make (World.bares_newFunction ⟨_, c⟩)) fun f => ?_
    cases name with
    | none => exact .pure rfl
    | some name =>
      exact .bind (.perform _ _ (World.bares_define c name.text f)) fun _ => .pure rfl
  | conditional branches otherwise span =>
    rw [Statement.bare]
    simp only [Roteiro.execute, Observer.capture_none]
    refine .bind (.choose he otherwise branches) fun chosen => ?_
    cases chosen with
    | none => exact .pure rfl
    | some body => exact void (.inScope c _ _ (.body c hs body))
  | breakLoop span =>
    rw [Statement.bare]
    simp only [Roteiro.execute, Observer.capture_none]
    exact void (.perform _ _ (World.bares_onContext c fun d => d.signal_mapValues _ _))
  | continueLoop span =>
    rw [Statement.bare]
    simp only [Roteiro.execute, Observer.capture_none]
    exact void (.perform _ _ (World.bares_onContext c fun d => d.signal_mapValues _ _))
  | returnValues values span =>
    rw [Statement.bare]
    simp only [Roteiro.execute, Observer.capture_none]
    refine .bind (.all he values) fun vs => void (.perform _ _ ?_)
    have returned : (if (vs.map Value.bare).isEmpty then [.null] else vs.map Value.bare) =
        (if vs.isEmpty then [.null] else vs).map Value.bare := by
      cases vs with
      | nil => rfl
      | cons v vs => rfl
    rw [returned]
    exact World.bares_onContext c fun d => d.pushReturns_mapValues _ _

theorem whileRounds_succ (e : Expression) (ss : List Statement) (c : ContextId) :
    Bares id (Roteiro.whileRounds .none (fuel + 1) e ss c)
      (Roteiro.whileRounds .none (fuel + 1) e.bare (Statement.bareAll ss) c) := by
  simp only [Roteiro.whileRounds]
  exact .bind (ih.evaluate e c) fun v => .again (.truth _ _ v) <|
    .again (.round c _ _ (fun s => ih.execute s c) ss .none) (ih.whileRounds e ss c)

theorem countRounds_succ (i : Ident) (limit : Option Expression) (step : Option Assignment)
    (ss : List Statement) (c : ContextId) :
    Bares id (Roteiro.countRounds .none (fuel + 1) i limit step ss c)
      (Roteiro.countRounds .none (fuel + 1) i.bare (Expression.bareOption limit)
        (Assignment.bareOption step) (Statement.bareAll ss) c) := by
  have he := fun e => ih.evaluate e c
  have after : Option.Rel (Bares Value.bare)
      (step.map (Eval.assign (fun e => Roteiro.evaluate .none fuel e c) c))
      ((Assignment.bareOption step).map
        (Eval.assign (fun e => Roteiro.evaluate .none fuel e c) c)) := by
    cases step with
    | none => exact .none
    | some a => exact .some (.assign he c a)
  let execute (s : Statement) := Roteiro.execute .none fuel s c
  have round (s t : Span) := Bares.round (x := execute) (y := execute) c s t
    (fun s => ih.execute s c) ss after
  have turn (s t : Span) := (round s t).again (ih.countRounds i limit step ss c)
  cases limit with
  | none =>
    rw [Expression.bareOption]
    simp only [Roteiro.countRounds]
    exact turn _ _
  | some e =>
    rw [Expression.bareOption]
    simp only [Roteiro.countRounds]
    refine .bind (he e) fun v => ?_
    refine .bind (.perform _ _ (World.bares_lookup c i.text)) fun current => ?_
    rw [Eval.shortOf_bare]
    exact .again (.require_id _ _ _) (turn _ _)

theorem eachRounds_succ (it : Iteration) (i j : Ident) (s t : Span) (ss : List Statement)
    (c : ContextId) : Bares id (Roteiro.eachRounds .none (fuel + 1) it i j s ss c)
      (Roteiro.eachRounds .none (fuel + 1) it i.bare j.bare t (Statement.bareAll ss) c) := by
  simp only [Roteiro.eachRounds]
  refine .bind (.ask fun bares => bares.heap.advance it) fun next => ?_
  obtain ⟨entry, it⟩ := next
  cases entry with
  | none => exact .pure rfl
  | some entry =>
    refine .bind (.perform _ _ (World.bares_assign c i.text entry.1)) fun _ => ?_
    refine .bind (.perform _ _ (World.bares_assign c j.text entry.2)) fun _ => ?_
    exact .again (.round c _ _ (fun s => ih.execute s c) ss .none) (ih.eachRounds it i j _ _ ss c)

end RunsBare

theorem RunsBare.all (fuel : Nat) : RunsBare fuel := by
  induction fuel with
  | zero =>
    constructor
    · intro e c
      rw [Roteiro.evaluate, Roteiro.evaluate]
      exact .exhausted
    · intro s c
      simp only [Roteiro.execute]
      exact .exhausted
    · intro e ss c
      simp only [Roteiro.whileRounds]
      exact .exhausted
    · intro i limit step ss c
      simp only [Roteiro.countRounds]
      exact .exhausted
    · intro it i j s t ss c
      simp only [Roteiro.eachRounds]
      exact .exhausted
  | succ fuel ih =>
    exact ⟨ih.evaluate_succ, ih.execute_succ, ih.whileRounds_succ, ih.countRounds_succ,
      ih.eachRounds_succ⟩

/-! ### scripts -/

theorem Eval.Bares.runStatements {x y : Statement → Eval Unit Value}
    (hs : ∀ s, Bares Value.bare (x s) (y s.bare)) (last : Value) (ss : List Statement) :
    Bares Value.bare (runStatements x last ss)
      (runStatements y last.bare (Statement.bareAll ss)) := by
  induction ss generalizing last with
  | nil => exact .pure rfl
  | cons s ss ih => exact .bind (hs s) fun v => ih v

/-- What is seen of an outcome: its value on show, or its fault. -/
def Outcome.seen (h : Heap) : Outcome Value → Outcome Shown
  | .ok v => .ok (h.shown v)
  | .error e => .error ⟨e.fault, .nowhere⟩
  | .exhausted => .exhausted
  | .aborted => .aborted

theorem Outcome.Bares.seen {h h' : Heap} (bares : h.Bares h') {o o' : Outcome Value}
    (ends : o.Bares Value.bare o') : o'.seen h' = o.seen h := by
  cases ends with
  | ok v => exact congrArg Outcome.ok (bares.shown v)
  | error fault s t => rfl
  | exhausted => rfl
  | aborted => rfl

theorem Outcome.seen_exhausted {h : Heap} {o : Outcome Value} :
    o.seen h = .exhausted ↔ o = .exhausted := by
  cases o <;> simp [seen]

/-- What is seen of a run: how it ends, and the terminal it leaves. -/
def Program.seen (p : Program) (fuel : Nat) (w : World) : Outcome Shown × Terminal :=
  ((p.run fuel w).1.seen (p.run fuel w).2.heap, (p.run fuel w).2.terminal)

/-- A run that goes on for ever. -/
def Program.Diverges (p : Program) (w : World) : Prop :=
  ∀ fuel, (p.run fuel w).1 = .exhausted

/-- A run that ends with an outcome, and leaves a world. -/
def Program.Ends (p : Program) (w : World) (o : Outcome Value) (u : World) : Prop :=
  o ≠ .exhausted ∧ ∃ fuel, p.run fuel w = (o, u)

/-- The runs of two scripts cannot be told apart, if they have the same lines to read and draw the
same random numbers: both go on for ever, or both end with the same value on show, with the same
fault or by breaking off, and leave the same terminal. -/
def Program.RunsAlike (p q : Program) : Prop :=
  ∀ terminal dice seed, let w : World := { World.around terminal with dice, seed }
    (p.Diverges w ∧ q.Diverges w) ∨ ∃ o u o' u', p.Ends w o u ∧ q.Ends w o' u' ∧
      o.seen u.heap = o'.seen u'.heap ∧ u.terminal = u'.terminal

namespace Program

variable {p q : Program}

/-- **A script without its spans runs in step with the script.** -/
theorem run_bare (p : Program) (fuel : Nat) {w w' : World} (h : w.Bares w') :
    (p.run fuel w).1.Bares Value.bare (p.bare.run fuel w').1 ∧
      (p.run fuel w).2.Bares (p.bare.run fuel w').2 := by
  obtain ⟨same, after⟩ := World.bares_newGlobal w w' h
  let execute (s : Statement) := Roteiro.execute .none fuel s w.newGlobal.1
  have script := Eval.Bares.runStatements (x := execute) (y := execute)
    (fun s => (RunsBare.all fuel).execute s _) .null p.statements
    ⟨w.newGlobal.2, ()⟩ ⟨w'.newGlobal.2, ()⟩ after
  unfold run runWith
  dsimp only
  rw [same, Session.rest_none, Session.rest_none]
  exact script

theorem seen_bare (p : Program) (fuel : Nat) {w w' : World} (h : w.Bares w') :
    p.bare.seen fuel w' = p.seen fuel w := by
  obtain ⟨ends, after⟩ := p.run_bare fuel h
  unfold seen
  rw [ends.seen after.heap, after.terminal]

theorem seen_eq (same : p.bare = q.bare) (fuel : Nat) {w : World} (h : w.Bares w) :
    p.seen fuel w = q.seen fuel w := by
  rw [← p.seen_bare fuel h, same, q.seen_bare fuel h]

theorem runsAlike_of_bare (same : p.bare = q.bare) : p.RunsAlike q := by
  intro terminal dice seed w
  have seen (fuel : Nat) := seen_eq same fuel (World.Bares.around terminal dice seed)
  have exhausted (fuel : Nat) :
      (p.run fuel w).1 = .exhausted ↔ (q.run fuel w).1 = .exhausted := by
    rw [← Outcome.seen_exhausted, ← Outcome.seen_exhausted]
    exact iff_of_eq (congrArg (fun s => s.1 = .exhausted) (seen fuel))
  by_cases diverges : p.Diverges w
  · exact .inl ⟨diverges, fun fuel => (exhausted fuel).1 (diverges fuel)⟩
  · obtain ⟨fuel, ended⟩ := not_forall.1 diverges
    obtain ⟨ends, leaves⟩ := Prod.mk.inj (seen fuel)
    exact .inr ⟨_, _, _, _, ⟨ended, fuel, rfl⟩, ⟨mt (exhausted fuel).2 ended, fuel, rfl⟩, ends, leaves⟩

end Program

/-- **Layout means nothing.** Two sources without lexical errors whose tokens agree in kind and, for
names, numbers and strings, in text are both rejected for the same fault, or are the same script up
to spans; and then their runs cannot be told apart. -/
theorem layout_irrelevant {source other : String} {ts us : List Token}
    (hts : tokenize source = ts.map .ok) (hus : tokenize other = us.map .ok)
    (alike : List.Forall₂ Token.Alike ts us) :
    (∃ e e', Program.ofText source = .error e ∧ Program.ofText other = .error e' ∧
      e.fault = e'.fault) ∨
    ∃ p q, Program.ofText source = .ok p ∧ Program.ofText other = .ok q ∧ p.bare = q.bare ∧
      p.RunsAlike q := by
  have same := Program.bareOf_eq hts hus alike
  unfold Program.bareOf at same
  cases hp : Program.ofText source with
  | error e =>
    cases hq : Program.ofText other with
    | error e' =>
      rw [hp, hq] at same
      exact .inl ⟨e, e', rfl, rfl, Except.error.inj same⟩
    | ok q =>
      rw [hp, hq] at same
      cases same
  | ok p =>
    cases hq : Program.ofText other with
    | error e' =>
      rw [hp, hq] at same
      cases same
    | ok q =>
      rw [hp, hq] at same
      have bares := Except.ok.inj same
      exact .inr ⟨p, q, rfl, rfl, bares, Program.runsAlike_of_bare bares⟩

/-- A conditional on one line, and with a comment, on two lines and without the cedilla. -/
theorem layout_irrelevant_of_conditional :
    let ts : List Token :=
      [⟨.keyword .se, "se", ⟨0, 2⟩, 1⟩, ⟨.keyword .falso, "falso", ⟨3, 5⟩, 1⟩,
        ⟨.keyword .faca, "faça", ⟨9, 5⟩, 1⟩, ⟨.identifier, "x", ⟨15, 1⟩, 1⟩,
        ⟨.keyword .fim, "fim", ⟨17, 3⟩, 1⟩]
    let us : List Token :=
      [⟨.keyword .se, "se", ⟨0, 2⟩, 1⟩, ⟨.keyword .falso, "falso", ⟨3, 5⟩, 1⟩,
        ⟨.keyword .faca, "faca", ⟨13, 4⟩, 2⟩, ⟨.identifier, "x", ⟨18, 1⟩, 2⟩,
        ⟨.keyword .fim, "fim", ⟨20, 3⟩, 2⟩]
    TokensOf "se falso faça x fim" ts ⟨.eof, "", ⟨20, 0⟩, 1⟩ ∧
      TokensOf "se falso # x\nfaca x fim" us ⟨.eof, "", ⟨23, 0⟩, 2⟩ ∧
      ∃ p q, Program.ofText "se falso faça x fim" = .ok p ∧
        Program.ofText "se falso # x\nfaca x fim" = .ok q ∧ p.bare = q.bare ∧ p.RunsAlike q := by
  intro ts us
  have hts : TokensOf "se falso faça x fim" ts ⟨.eof, "", ⟨20, 0⟩, 1⟩ :=
    ⟨by decide +kernel, rfl, by decide⟩
  have hus : TokensOf "se falso # x\nfaca x fim" us ⟨.eof, "", ⟨23, 0⟩, 2⟩ :=
    ⟨by decide +kernel, rfl, by decide⟩
  have alike : List.Forall₂ Token.Alike (ts ++ [⟨.eof, "", ⟨20, 0⟩, 1⟩])
      (us ++ [⟨.eof, "", ⟨23, 0⟩, 2⟩]) := by decide
  refine ⟨hts, hus, (layout_irrelevant hts.items hus.items alike).resolve_left ?_⟩
  rintro ⟨e, e', rejected, -⟩
  rw [Program.ofText, Parser.program] at rejected
  dsimp only at rejected
  rw [hts.run] at rejected
  cases rejected

end Roteiro
