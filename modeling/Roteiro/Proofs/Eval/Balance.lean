import Roteiro.Proofs.Eval.Invariants
import Roteiro.Proofs.Scope.Shape
import Roteiro.Proofs.World.Apart

/-!
Execution is balanced and stays in its context. Whatever is entered for an expression or a statement
is left again, whether it ends with a value or with an error. An expression leaves all contexts as
they were but for the values of locals; a statement touches only its own context, where it may
signal the innermost loop, return from the innermost call, and define one name if it is a
declaration (`execution_balanced`).
-/

namespace Roteiro

open Eval World

variable {σ α β : Type}

/-! ### evaluations -/

/-- An outcome that is a value or an error. -/
def Outcome.Ended : Outcome α → Prop
  | .ok _ | .error _ => True
  | .exhausted | .aborted => False

/-- An evaluation that ends has changed the world as `R` says. -/
def Eval.Keeps (R : World → World → Prop) (x : Eval σ α) : Prop :=
  ∀ m, (x m).1.Ended → R m.world (x m).2.world

theorem Eval.world_perform (span : Span) (f : Effect α) (m : Machine σ) :
    (Eval.perform span f m).2.world = (f m.world).2 := by
  unfold Eval.perform
  rcases f m.world with ⟨fault | a, w⟩
  · rfl
  · rfl

namespace Eval.Keeps

variable {R Q : World → World → Prop}

theorem mono (h : ∀ {w w'}, R w w' → Q w w') {x : Eval σ α} (hx : Keeps R x) : Keeps Q x :=
  fun m ended => h (hx m ended)

theorem aborted : Keeps R (Eval.aborted : Eval σ α) := fun _ ended => ended.elim

theorem exhausted : Keeps R (Eval.exhausted : Eval σ α) := fun _ ended => ended.elim

theorem make {f : World → α × World} (h : ∀ w, R w (f w).2) : Keeps R (Eval.make f : Eval σ α) :=
  fun m _ => h m.world

theorem perform (span : Span) {f : Effect α} (h : ∀ w, R w (f w).2) :
    Keeps R (Eval.perform span f : Eval σ α) := by
  intro m _
  rw [world_perform]
  exact h m.world

theorem closing (span : Span) {close : Effect β} {x : Eval σ α}
    (h : ∀ {w w'}, R w w' → Q w (close w').2) (hx : Keeps R x) :
    Keeps Q (Eval.closing span x close) := by
  intro m ended
  have hm := hx m
  unfold Eval.closing at ended ⊢
  rcases hr : x m with ⟨a | e | _ | _, m'⟩
  all_goals rw [hr] at hm ended
  · dsimp only
    rw [world_perform]
    exact h (hm trivial)
  · exact h (hm trivial)
  · exact ended.elim
  · exact ended.elim

/-- What is done after a change of the world that cannot fail. -/
theorem change_bind {f : World → World} {x : Eval σ α}
    (hx : Keeps (fun v w' => ∀ w, v = f w → R w w') x) :
    Keeps R (Eval.change f >>= fun _ => x) :=
  fun m ended => hx { m with world := f m.world } ended m.world rfl

/-- What is done in a scope for which a level was left. -/
theorem openScope_bind {c : ContextId} {x : Eval σ α}
    (hx : Keeps (fun v w' => ∀ w, (w.context c).full = false → v = w.enterScope c → R w w') x) :
    Keeps R (Eval.openScope c >>= fun _ => x) := by
  intro m ended
  rw [Eval.openScope_bind] at ended ⊢
  split at ended
  · exact ended.elim
  · next free =>
    rw [if_neg free]
    exact hx _ ended m.world (Bool.eq_false_iff.2 free) rfl

/-- One evaluation after another, each with a relation of its own. -/
theorem andThen {P : World → World → Prop} {x : Eval σ α} {f : α → Eval σ β} (hx : Keeps P x)
    (hf : ∀ a, Keeps Q (f a)) (first : ∀ {w w'}, P w w' → R w w')
    (both : ∀ {w w' w''}, P w w' → Q w' w'' → R w w'') : Keeps R (x >>= f) := by
  intro m ended
  have hm := hx m
  change (Eval.bind x f m).1.Ended at ended
  change R m.world (Eval.bind x f m).2.world
  unfold Eval.bind at ended ⊢
  rcases hr : x m with ⟨a | e | _ | _, m'⟩
  all_goals rw [hr] at hm ended
  · exact both (hm trivial) (hf a m' ended)
  · exact first (hm trivial)
  · exact ended.elim
  · exact ended.elim

/-- What comes after leaves the world as it is. -/
theorem bind_still {x : Eval σ α} {f : α → Eval σ β} (hx : Keeps R x)
    (hf : ∀ a, Keeps (fun w w' => w' = w) (f a)) : Keeps R (x >>= f) :=
  hx.andThen hf id fun h same => same ▸ h

variable (hR : Composes R)

include hR

theorem pure (a : α) : Keeps R (Pure.pure a : Eval σ α) := fun m _ => hR.refl m.world

theorem raise (fault : RuntimeFault) (span : Span) :
    Keeps R (Eval.raise fault span : Eval σ α) := fun m _ => hR.refl m.world

theorem ask (f : World → α) : Keeps R (Eval.ask f : Eval σ α) := fun m _ => hR.refl m.world

theorem bind {x : Eval σ α} {f : α → Eval σ β} (hx : Keeps R x) (hf : ∀ a, Keeps R (f a)) :
    Keeps R (x >>= f) :=
  hx.andThen hf id hR.trans

end Eval.Keeps

/-! ### silent observers -/

/-- An observer that writes nothing; it may end the evaluation. -/
structure Observer.Silent (o : Observer σ) : Prop where
  enter : ∀ node c m, (o.enter node c m).2.world = m.world
  leave : ∀ value c m, (o.leave value c m).2.world = m.world

theorem Observer.Silent.leaving {o : Observer σ} (silent : o.Silent) (span : Span) (c : ContextId)
    (value : Value) (m : Machine σ) : (o.leaving span c value m).2.world = m.world := by
  have left := silent.leave value c m
  unfold Observer.leaving
  rcases ho : o.leave value c m with ⟨fault | _, m'⟩
  · rw [ho] at left
    exact left
  · rw [ho] at left
    exact left

theorem Observer.Silent.capture {o : Observer σ} (silent : o.Silent) {R : World → World → Prop}
    (hR : Composes R) (node : Node) (c : ContextId) {x : Eval σ Value} (hx : Keeps R x) :
    Keeps R (o.capture node c x) := by
  intro m ended
  have entered := silent.enter node c m
  unfold Observer.capture at ended ⊢
  rcases ho : o.enter node c m with ⟨fault | taken, m'⟩
  all_goals rw [ho] at entered ended
  · dsimp only
    rw [entered]
    exact hR.refl m.world
  · have shown : Keeps R (x >>= fun value =>
        if taken then o.leaving node.span c value else Eval.pure value) := by
      refine hx.bind_still fun value m'' _ => ?_
      cases taken with
      | false => rfl
      | true => exact silent.leaving node.span c value m''
    have := shown m' ended
    rw [entered] at this
    exact this

/-! ### what is done to worlds -/

theorem World.SameShape.plain {f : Effect α} (h : f.Plain) (w : World) : SameShape w (f w).2 := by
  cases h with
  | lookup c name => exact .refl w
  | assign c name v => exact .assign c name v w
  | property x k => exact .of_contexts ((apart_property x k).contexts w)
  | setProperty x k v => exact .of_contexts ((apart_setProperty x k v).contexts w)
  | callBuiltin b vs => exact .of_contexts ((apart_callBuiltin b vs).contexts w)

theorem World.SameShape.making {f : World → Value × World} (h : Making f) (w : World) :
    SameShape w (f w).2 := by
  cases h with
  | newArray items => exact .of_contexts ((apart_newArray items).contexts w)
  | newDictionary d => exact .of_contexts ((apart_newDictionary d).contexts w)
  | newFunction f => exact .of_contexts ((apart_newFunction f).contexts w)

/-- The parts of expressions keep what expressions keep. -/
theorem Eval.Keeps.compatible {R : World → World → Prop} (hR : Composes R)
    (h : ∀ {w w'}, SameShape w w' → R w w') :
    Compatible fun {α} (x : Eval σ α) (_ : Eval σ α) => Keeps R x where
  pure := .pure hR
  bind := .bind hR
  raise := .raise hR
  aborted := .aborted
  key _ := .ask hR _
  make hf := .make fun w => h (.making hf w)
  perform span hf := .perform span fun w => h (.plain hf w)

theorem Eval.Keeps.shapes : Compatible fun {α} (x : Eval σ α) (_ : Eval σ α) => Keeps SameShape x :=
  compatible SameShape.composes id

/-! ### scopes, rounds and calls -/

namespace Eval.Keeps

variable {c : ContextId} {x : Eval σ α}

theorem inScope (span : Span) (hx : Keeps (Under c Context.Grown) x) :
    Keeps (Under c Context.Settled) (Eval.inScope c span x) :=
  .openScope_bind (.closing span (fun ran _ free entered => (entered ▸ ran).scope free) hx)

theorem inRound (span : Span) (hx : Keeps (Under c Context.Grown) x) :
    Keeps (Under c Context.Settled) (Eval.inRound c span x) := by
  refine .openScope_bind (.change_bind (.closing span (fun ran _ opened _ free entered => ?_) hx))
  subst entered opened
  exact Under.round free ran

/-- A call leaves no trace in the contexts that were there before it. -/
theorem inCall (parent : ContextId) (span : Span) {x : ContextId → Eval σ α}
    (hx : ∀ d, Keeps (Under d Context.Grown) (x d)) :
    Keeps SameShape (Eval.inCall parent span x) := by
  intro m ended
  have called : Keeps (fun v w' =>
      v = (m.world.newChild parent).2.update m.world.contexts.size Context.pushCall →
        SameShape m.world w') _ :=
    .closing span (fun ran opened => .call parent (opened ▸ ran)) (hx m.world.contexts.size)
  exact called
    { m with world := (m.world.newChild parent).2.update m.world.contexts.size Context.pushCall }
    ended rfl

end Eval.Keeps

/-! ### declarations -/

/-- The result of an evaluation in the context `c` of the world `w` that has defined a name if it is
a value, and none if it is an error. -/
def World.Declaring (c : ContextId) (name : Option String) (w : World) :
    Outcome α × Machine σ → Prop
  | (.ok _, m) => At c (Context.Adds name) w m.world
  | (.error _, m) => At c Context.Settled w m.world
  | (.exhausted, _) | (.aborted, _) => True

/-- An evaluation in the context `c` that defines a name if it ends with a value, and none if it
ends with an error. -/
def Eval.Declares (c : ContextId) (name : Option String) (x : Eval σ α) : Prop :=
  ∀ m : Machine σ, c < m.world.contexts.size → m.world.Declaring c name (x m)

namespace Eval.Declares

variable {c : ContextId} {name : Option String}

theorem of_keeps {x : Eval σ α} (h : Keeps (Under c Context.Settled) x) : Declares c none x := by
  intro m hc
  have hm := h m
  rcases hr : x m with ⟨a | e | _ | _, m'⟩
  all_goals rw [hr] at hm
  · exact (hm trivial hc).mono Context.Settled.adds
  · exact hm trivial hc
  · trivial
  · trivial

theorem keeps {x : Eval σ α} (h : Declares c name x) : Keeps (Under c Context.Grown) x := by
  intro m ended hc
  have hm := h m hc
  rcases hr : x m with ⟨a | e | _ | _, m'⟩
  all_goals rw [hr] at hm ended
  · exact hm.mono Context.Adds.grown
  · exact hm.mono Context.Settled.grown
  · exact ended.elim
  · exact ended.elim

theorem bind {x : Eval σ α} {f : α → Eval σ β} (hx : Keeps SameShape x)
    (hf : ∀ a, Declares c name (f a)) : Declares c name (x >>= f) := by
  intro m hc
  have hm := hx m
  change m.world.Declaring c name (Eval.bind x f m)
  unfold Eval.bind
  rcases hr : x m with ⟨a | e | _ | _, m'⟩
  all_goals rw [hr] at hm
  · have first := At.of_shape hc (hm trivial)
    have second := hf a m' (Nat.lt_of_lt_of_le hc first.size)
    dsimp only
    rcases hs : f a m' with ⟨b | e | _ | _, m''⟩
    all_goals rw [hs] at second
    · exact first.trans second (first.here.trans_adds second.here)
    · exact first.trans second (first.here.trans second.here)
    · trivial
    · trivial
  · exact .of_shape hc (hm trivial)
  · trivial
  · trivial

theorem define (span : Span) (name : String) (v a : Value) :
    Declares c (some name)
      (Eval.perform span (World.define c name v) >>= fun _ => Pure.pure a : Eval σ Value) := by
  intro m hc
  change m.world.Declaring c _ (Eval.bind (Eval.perform span (World.define c name v)) _ m)
  unfold Eval.bind Eval.perform
  rcases World.define_cases hc name v with ⟨done, added⟩ | ⟨fault, failed⟩
  · rcases hd : World.define c name v m.world with ⟨fault | _, w'⟩
    all_goals rw [hd] at done added
    · cases done
    · exact added
  · rw [failed]
    exact .of_shape hc (.refl m.world)

end Eval.Declares

/-! ### the evaluator -/

/-- How an evaluation changes the world: for the value of an expression it leaves all shapes, for a
statement it may mark the innermost frames, and in a scope it may add names. -/
def Eval.Site.Leaves (c : ContextId) : Site → World → World → Prop
  | .value => SameShape
  | .direct _ => Under c Context.Settled
  | .inside _ => Under c Context.Grown

theorem Eval.Site.composes (c : ContextId) (s : Site) : Composes (s.Leaves c) := by
  cases s with
  | value => exact SameShape.composes
  | direct _ => exact Under.settled c
  | inside _ => exact Under.grown c

theorem World.SameShape.leaves {w w' : World} (h : SameShape w w') (c : ContextId) (s : Site) :
    s.Leaves c w w' := by
  cases s with
  | value => exact h
  | direct _ => exact h.under
  | inside _ => exact h.under.toGrown

namespace Observer.Silent

variable {o : Observer σ} (silent : o.Silent)

include silent

theorem keeping : Eval.Invariant anything o (fun c s {_} _ x _ => Keeps (s.Leaves c) x)
    fun s c x _ => Declares c s.declared x where
  exhausted := .exhausted
  aborted := .aborted
  raise _ _ := .raise (Site.composes _ _) _ _
  pure _ := .pure (Site.composes _ _) _
  bind {_ _ _ _ good _ _ _ _ _} hx hf :=
    .bind (Site.composes _ _) hx fun a => hf a (good.whole a)
  ask f := .ask (Site.composes _ _) f
  advance _ := .ask (Site.composes _ _) _
  iterate _ _ := .perform _ fun w => (SameShape.refl w).leaves _ _
  gives h _ := .perform _ fun w => (SameShape.plain h.plain w).leaves _ _
  makes h := .make (.making h.making)
  signals h _ := by
    cases h with
    | markBreak => exact .perform _ fun w => .onContext .of_markBreak w
    | markContinue => exact .perform _ fun w => .onContext .of_markContinue w
    | pushReturns _ => exact .perform _ fun w => .onContext .of_pushReturns w
  define name _ _ _ := .perform _ fun w => .define name _ w
  direct hx := hx.mono SameShape.under
  inside hx := hx.mono Under.toGrown
  known hx := hx
  inScope _ hx := hx.inScope _
  capture _ hx := silent.capture SameShape.composes _ _ hx
  finish unnamed hx := unnamed ▸ .of_keeps hx
  declare named _ hx := named ▸ .bind hx fun v => .define _ _ v v
  shown _ hx := silent.capture (Under.grown _) _ _ hx.keeps

theorem keepingOpenly : Eval.OpenInvariant anything o (fun c s {_} _ x _ => Keeps (s.Leaves c) x)
    fun s c x _ => Declares c s.declared x :=
  silent.keeping.openly id (fun _ hx => hx.inRound _) fun parent _ hx => .inCall parent _ hx

theorem balanced (fuel : Nat) :
    Upheld anything .raising o (fun c s {_} _ x _ => Keeps (s.Leaves c) x) fuel :=
  silent.keepingOpenly.upheld .whole .raising fuel

theorem evaluate_keeps (fuel : Nat) (e : Expression) (c : ContextId) :
    Keeps SameShape (evaluate o fuel e c) :=
  (silent.balanced fuel).evaluate e c trivial

theorem execute_keeps (fuel : Nat) (s : Statement) (c : ContextId) :
    Keeps (Under c Context.Grown) (execute o fuel s c) :=
  (silent.balanced fuel).execute s c trivial

theorem runStatements_keeps (fuel : Nat) (last : Value) (ss : List Statement) (c : ContextId) :
    Keeps (Under c Context.Grown) (runStatements (fun s => execute o fuel s c) last ss) :=
  (silent.balanced fuel).runStatements silent.keepingOpenly last (Grade.value.whole last)
    (fun _ _ => trivial) c

/-- A statement is shown to the observer around an evaluation that defines its name. -/
theorem execute_declares (fuel : Nat) (s : Statement) (c : ContextId) :
    ∃ x, execute o (fuel + 1) s c = o.capture (.statement s) c x ∧ Declares c s.declared x := by
  obtain ⟨x, _, hx, -, declares⟩ :=
    (silent.balanced fuel).execute_done silent.keepingOpenly .whole s c trivial
  exact ⟨x, hx, declares⟩

/-- A call leaves all shapes, whatever statements do. -/
theorem callClosure_keeps {x : Statement → ContextId → Eval σ Value}
    (hx : ∀ s c, Keeps (Under c Context.Grown) (x s c)) (f : Closure) (vs : List Value)
    (span : Span) : Keeps SameShape (Eval.callClosure x f vs span) :=
  silent.keepingOpenly.callClosure (c := 0) (y := x) .whole (.whole span) (fun s _ d => hx s d)
    trivial (Grade.values.whole vs) fun _ => .aborted

end Observer.Silent

/-! ### statements under an observer -/

/-- The observer has ended an evaluation by the error `e` when it was shown the value of a node at
`span` in the context `c` of the world `w`. -/
def Observer.Refuses (o : Observer σ) (span : Span) (c : ContextId) (w : World)
    (e : RuntimeError) : Prop :=
  e.span = span ∧ ∃ value watch, (o.leave value c ⟨w, watch⟩).1 = .error e.fault

/-- A statement that the observer lets pass has defined its name if it has a value, and else none.
A statement whose value the observer refuses has been carried out. -/
theorem Observer.Silent.capture_declares {o : Observer σ} (silent : o.Silent) {node : Node}
    {c : ContextId} {name : Option String} {x : Eval σ Value} (hx : Declares c name x)
    (m : Machine σ) (hc : c < m.world.contexts.size) (ready : (m.world.context c).Ready) :
    match o.capture node c x m with
    | (.ok _, m') => At c (Context.Declared name) m.world m'.world
    | (.error e, m') => At c (Context.Declared .none) m.world m'.world ∨
        At c (Context.Declared name) m.world m'.world ∧ o.Refuses node.span c m'.world e
    | (.exhausted, _) | (.aborted, _) => True := by
  have entered := silent.enter node c m
  unfold Observer.capture
  rcases ho : o.enter node c m with ⟨fault | taken, m₁⟩
  all_goals rw [ho] at entered
  · dsimp only at entered ⊢
    rw [entered]
    exact .inl ((At.of_shape hc (.refl m.world)).mono fun h => h.adds.declared ready)
  · dsimp only at entered ⊢
    have ran := hx m₁ (by rw [entered]; exact hc)
    rw [entered] at ran
    unfold Eval.bind
    rcases hr : x m₁ with ⟨value | e | _ | _, m₂⟩
    all_goals rw [hr] at ran
    · have declared := At.mono ran fun h => h.declared ready
      cases taken with
      | false => exact declared
      | true =>
        have left := silent.leave value c m₂
        dsimp only
        rw [if_pos rfl]
        unfold Observer.leaving
        rcases hl : o.leave value c m₂ with ⟨fault | _, m₃⟩
        all_goals
          rw [hl] at left
          dsimp only at left ⊢
          rw [left]
        · exact .inr ⟨declared, rfl, value, m₂.watch, by rw [hl]⟩
        · exact declared
    · exact .inl (At.mono ran fun h => h.adds.declared ready)
    · trivial
    · trivial

/-- **Execution is balanced and stays in its context**, on success and on error alike, under any
observer that writes nothing, in contexts that can be reached. An expression leaves all contexts
that were there as they were but for the values of locals. A statement in a context with an open
scope leaves the others so, and in its own it keeps the level and marks at most the innermost
frames; it adds one name at the current level if it is a declaration that was carried out, and else
no name. A run that breaks off, such as at a scope for which no level is left, has no end of which
anything is said. -/
theorem execution_balanced {o : Observer σ} (silent : o.Silent) (fuel : Nat) (m : Machine σ)
    (reachable : m.world.contexts.Reachable) :
    (∀ e c, (evaluate o fuel e c m).1.Ended →
      SameShape m.world (evaluate o fuel e c m).2.world) ∧
    ∀ s c, c < m.world.contexts.size → Context.baseLevel ≤ (m.world.context c).level →
      match execute o fuel s c m with
      | (.ok _, m') => At c (Context.Declared s.declared) m.world m'.world
      | (.error e, m') => At c (Context.Declared none) m.world m'.world ∨
          At c (Context.Declared s.declared) m.world m'.world ∧ o.Refuses s.span c m'.world e
      | (.exhausted, _) | (.aborted, _) => True := by
  refine ⟨fun e c ended => silent.evaluate_keeps fuel e c m ended, fun s c hc base => ?_⟩
  have ready := (reachable.layered c).ready base
  cases fuel with
  | zero =>
    rw [execute]
    trivial
  | succ fuel =>
    obtain ⟨x, hx, declares⟩ := silent.execute_declares fuel s c
    rw [hx]
    exact silent.capture_declares declares m hc ready

/-- An observer that halts at the end of the first statement. -/
def Observer.halting : Observer Unit where
  enter node _ m := (.ok (match node with | .statement _ => true | _ => false), m)
  leave _ _ m := (.error .halted, m)

theorem Observer.halting_silent : halting.Silent := ⟨fun _ _ _ => rfl, fun _ _ _ => rfl⟩

/-- A declaration that the observer halts after it was carried out. -/
theorem execution_balanced_of_halting :
    let s : Statement := .declaration ⟨"x", ⟨0, 1⟩⟩ (.atom (.number 2) ⟨4, 1⟩) ⟨0, 5⟩
    let w : World := { contexts := #[.root], terminal := .captured [] }
    let w' : World :=
      { w with contexts := #[{ Context.root with locals := [⟨"x", 1, .number 2⟩] }] }
    let e : RuntimeError := ⟨.halted, ⟨0, 5⟩⟩
    Observer.halting.Silent ∧ w.contexts.Reachable ∧
      execute .halting 2 s 0 ⟨w, ()⟩ = (.error e, ⟨w', ()⟩) ∧
      (At 0 (Context.Declared none) w w' ∨
        At 0 (Context.Declared (some "x")) w w' ∧ Observer.halting.Refuses ⟨0, 5⟩ 0 w' e) := by
  intro s w w' e
  have reachable : w.contexts.Reachable :=
    .single (.newRoot { terminal := .captured [] })
  have run : execute .halting 2 s 0 ⟨w, ()⟩ = (.error e, ⟨w', ()⟩) := by with_unfolding_all rfl
  have balanced := (execution_balanced Observer.halting_silent 2 ⟨w, ()⟩ reachable).2 s 0
    Nat.zero_lt_one (Nat.le_refl 1)
  rw [run] at balanced
  exact ⟨Observer.halting_silent, reachable, run, balanced⟩

end Roteiro
