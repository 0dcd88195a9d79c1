import Roteiro.Proofs.Eval.Fuel

/-!
Observation does not alter execution. A harmless observer changes nothing but its own state and
never ends an evaluation; whichever nodes it takes, a run under it ends exactly when the run without
an observer does, and with the same outcome and the same world (`Session.ends_iff_unobserved`).

One evaluation *mirrors* another if it does the same to the world as it is seen through a change of
its contexts. Here nothing is changed; the same notion serves for worlds without their frames.
-/

namespace Roteiro

open Eval

variable {σ α β : Type} {g : Contexts → Contexts}

/-! ### mirrored evaluations -/

/-- A world whose contexts are seen through `g`. -/
def World.through (g : Contexts → Contexts) (w : World) : World :=
  { w with contexts := g w.contexts }

/-- A machine whose contexts are seen through `g`, without the state of whoever watches. -/
def Machine.through (g : Contexts → Contexts) (m : Machine σ) : Machine Unit :=
  ⟨m.world.through g, ()⟩

/-- `y` does to the world seen through `g` what `x` does to the world. -/
def Eval.Mirrors (g : Contexts → Contexts) (x : Eval σ α) (y : Eval Unit α) : Prop :=
  ∀ m, y (m.through g) = ((x m).1, (x m).2.through g)

namespace Eval.Mirrors

theorem pure (a : α) : Mirrors g (Pure.pure a : Eval σ α) (Pure.pure a) := fun _ => rfl

theorem raise (fault : RuntimeFault) (span : Span) :
    Mirrors g (Eval.raise fault span : Eval σ α) (Eval.raise fault span) := fun _ => rfl

theorem aborted : Mirrors g (Eval.aborted : Eval σ α) Eval.aborted := fun _ => rfl

theorem exhausted : Mirrors g (Eval.exhausted : Eval σ α) Eval.exhausted := fun _ => rfl

theorem bind {x : Eval σ α} {y : Eval Unit α} {f : α → Eval σ β} {k : α → Eval Unit β}
    (hxy : Mirrors g x y) (hfk : ∀ a, Mirrors g (f a) (k a)) : Mirrors g (x >>= f) (y >>= k) := by
  intro m
  change Eval.bind y k (m.through g) = ((Eval.bind x f m).1, (Eval.bind x f m).2.through g)
  unfold Eval.bind
  rw [hxy m]
  rcases x m with ⟨a | e | _ | _, m'⟩
  · exact hfk a m'
  · rfl
  · rfl
  · rfl

theorem ask {f : World → α} (h : ∀ w : World, f (w.through g) = f w) :
    Mirrors g (Eval.ask f : Eval σ α) (Eval.ask f) := by
  intro m
  change (Outcome.ok (f (m.world.through g)), m.through g) = (Outcome.ok (f m.world), m.through g)
  rw [h]

theorem change {f : World → World} (h : ∀ w : World, f (w.through g) = (f w).through g) :
    Mirrors g (Eval.change f : Eval σ Unit) (Eval.change f) := by
  intro m
  exact congrArg (fun w => (Outcome.ok (), Machine.mk w ())) (h m.world)

theorem make {f : World → α × World}
    (h : ∀ w : World, f (w.through g) = ((f w).1, (f w).2.through g)) :
    Mirrors g (Eval.make f : Eval σ α) (Eval.make f) := by
  intro m
  exact congrArg (fun r => (Outcome.ok r.1, Machine.mk r.2 ())) (h m.world)

theorem perform (span : Span) {f : Effect α}
    (h : ∀ w : World, f (w.through g) = ((f w).1, (f w).2.through g)) :
    Mirrors g (Eval.perform span f : Eval σ α) (Eval.perform span f) := by
  intro m
  have hm := h m.world
  unfold Eval.perform Machine.through
  dsimp only
  rw [hm]
  rcases f m.world with ⟨fault | a, w⟩
  · rfl
  · rfl

theorem closing (span : Span) {close : Effect β} {x : Eval σ α} {y : Eval Unit α}
    (h : ∀ w : World, close (w.through g) = ((close w).1, (close w).2.through g))
    (hxy : Mirrors g x y) : Mirrors g (Eval.closing span x close) (Eval.closing span y close) := by
  intro m
  unfold Eval.closing
  rw [hxy m]
  rcases x m with ⟨a | e | _ | _, m'⟩
  · exact perform span h m'
  · exact congrArg (fun r => (Outcome.error e, Machine.mk r.2 ())) (h m'.world)
  · exact congrArg (fun r => (Outcome.exhausted, Machine.mk r.2 ())) (h m'.world)
  · rfl

/-- To mirror without a change of the contexts goes through every step of the evaluator. -/
theorem congruent : Congruent fun {α} => @Mirrors σ α id where
  pure := pure
  bind := bind
  raise := raise
  aborted := aborted
  ask _ := ask fun _ => rfl
  change _ := change fun _ => rfl
  make _ := make fun _ => rfl
  perform span _ := perform span fun _ => rfl
  closing span _ _ := closing span fun _ => rfl

end Eval.Mirrors

/-! ### harmless observers -/

/-- An observer that never ends an evaluation and changes nothing but its own state. -/
structure Observer.Harmless (o : Observer σ) : Prop where
  enter : ∀ node c m, ∃ taken watch, o.enter node c m = (.ok taken, { m with watch })
  leave : ∀ value c m, ∃ watch, o.leave value c m = (.ok (), { m with watch })

namespace Observer

/-- The observer that takes nothing leaves every evaluation as it is. -/
theorem capture_none (node : Node) (c : ContextId) (x : Eval Unit Value) :
    Observer.none.capture node c x = x :=
  x.bind_pure

theorem Harmless.capture {o : Observer σ} (h : o.Harmless) (node : Node) (c : ContextId)
    (x : Eval σ Value) (y : Eval Unit Value) (hxy : Mirrors id x y) :
    Mirrors id (o.capture node c x) (Observer.none.capture node c y) := by
  intro m
  rw [capture_none]
  obtain ⟨taken, watch, entered⟩ := h.enter node c m
  unfold Observer.capture Eval.bind
  rw [entered]
  -- The world of `m` is not changed by entering, so `y` starts where `x` does.
  have hm := hxy { m with watch }
  change y (m.through id) = _ at hm
  rw [hm]
  dsimp only
  rcases x { m with watch } with ⟨a | e | _ | _, m'⟩
  · cases taken with
    | false => rfl
    | true =>
      obtain ⟨watch', left⟩ := h.leave a c m'
      have shown : o.leaving node.span c a m' = (.ok a, { m' with watch := watch' }) := by
        unfold Observer.leaving
        rw [left]
      exact congrArg (fun p => (p.1, p.2.through id)) shown.symm
  · rfl
  · rfl
  · rfl

end Observer

/-- Every function of the evaluator under a harmless observer mirrors the one without observer. -/
theorem Observer.Harmless.agree {o : Observer σ} (h : o.Harmless) (fuel : Nat) :
    Agree (fun {α} => @Mirrors σ α id) o .none fuel fuel :=
  Mirrors.congruent.agree Mirrors.exhausted h.capture fuel

theorem Session.rest_mirrors {o : Observer σ} (h : o.Harmless) (s : Session) (fuel : Nat) :
    Mirrors id (s.rest o fuel) (s.rest .none fuel) :=
  h.capture _ _ _ _ (Mirrors.congruent.runStatements
    (fun st => (h.agree fuel).execute st s.context) .null s.remaining)

/-- **Observation does not alter execution.** Under a harmless observer a run ends if and only if
the run without an observer ends, and then with the same outcome, session and world: the contexts,
the collections, what was written and the lines still to be read are the same. -/
theorem Session.ends_iff_unobserved {o : Observer σ} (h : o.Harmless) (s : Session) (m : Machine σ)
    (r : Outcome Value) (s' : Session) (w : World) :
    s.Ends o m r s' w ↔ s.Ends .none ⟨m.world, ()⟩ r s' w := by
  have same : ∀ fuel, s.run .none fuel ⟨m.world, ()⟩ =
      ((s.run o fuel m).1, (s.run o fuel m).2.1, ⟨(s.run o fuel m).2.2.world, ()⟩) := by
    intro fuel
    unfold Session.run
    exact congrArg (fun p => (p.1, s.exhaust, p.2)) (s.rest_mirrors h fuel m)
  constructor
  · rintro ⟨hr, fuel, watch, run⟩
    exact ⟨hr, fuel, (), by rw [same, run]⟩
  · rintro ⟨hr, fuel, watch, run⟩
    rw [same] at run
    refine ⟨hr, fuel, (s.run o fuel m).2.2.watch, ?_⟩
    cases run
    rfl

/-- An observer that counts what it is shown and takes every second node. -/
def Observer.tally : Observer Nat where
  enter _ _ m := (.ok (m.watch % 2 == 0), { m with watch := m.watch + 1 })
  leave _ _ m := (.ok (), { m with watch := m.watch + 1 })

theorem Observer.tally_harmless : tally.Harmless :=
  ⟨fun _ _ _ => ⟨_, _, rfl⟩, fun _ _ _ => ⟨_, rfl⟩⟩

/-- A declaration counted by an observer, and the same without. -/
theorem Session.ends_unobserved_of_tally :
    let s : Session :=
      { program := ⟨[.declaration ⟨"x", ⟨0, 1⟩⟩ (.atom (.number 2) ⟨4, 1⟩) ⟨0, 5⟩], ⟨0, 5⟩⟩
        context := 0 }
    let w : World := { contexts := #[.root], terminal := .captured [] }
    let w' : World :=
      { w with contexts := #[{ Context.root with locals := [⟨"x", 1, .number 2⟩] }] }
    Observer.tally.Harmless ∧ s.Ends .tally ⟨w, 0⟩ (.ok (.number 2)) s.exhaust w' ∧
      s.Ends .none ⟨w, ()⟩ (.ok (.number 2)) s.exhaust w' := by
  intro s w w'
  have watched : s.Ends .tally ⟨w, 0⟩ (.ok (.number 2)) s.exhaust w' :=
    ⟨by simp, 3, 12, by with_unfolding_all rfl⟩
  exact ⟨Observer.tally_harmless, watched,
    (s.ends_iff_unobserved Observer.tally_harmless ⟨w, 0⟩ _ _ _).1 watched⟩

end Roteiro
