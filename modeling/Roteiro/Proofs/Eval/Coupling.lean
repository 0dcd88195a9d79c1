import Roteiro.Proofs.Eval.Observation

/-!
Two evaluations of one script side by side, each under a watcher of its own. They are *coupled* if
they do the same to the world as long as the first watcher lets its evaluation go on; once it stops
it, the second evaluation runs on alone. `R` relates the watchers up to there and `Q` from there on.
-/

namespace Roteiro

open Eval

variable {σ τ α β : Type} {R Q : σ → τ → Prop}

/-! ### coupled evaluations -/

/-- How two evaluations ended side by side: alike, or the first one was stopped. -/
inductive Outcome.Beside (R Q : σ → τ → Prop) :
    Outcome α × Machine σ → Outcome α × Machine τ → Prop
  | alike {s : σ} {t : τ} (o : Outcome α) (w : World) (related : R s t) :
    Beside R Q (o, ⟨w, s⟩) (o, ⟨w, t⟩)
  | stopped {s : σ} (e : RuntimeError) (w : World) (r : Outcome α × Machine τ)
    (left : Q s r.2.watch) : Beside R Q (.error e, ⟨w, s⟩) r

/-- `x` and `y` go side by side, and `y` alone keeps what holds once `x` was stopped. -/
structure Eval.Coupled (R Q : σ → τ → Prop) (x : Eval σ α) (y : Eval τ α) : Prop where
  beside : ∀ w s t, R s t → Outcome.Beside R Q (x ⟨w, s⟩) (y ⟨w, t⟩)
  alone : ∀ s m, Q s m.watch → Q s (y m).2.watch

namespace Eval

theorem perform_watch (span : Span) (f : Effect α) (m : Machine σ) :
    (perform span f m).2.watch = m.watch := by
  unfold perform
  rcases f m.world with ⟨_ | _, _⟩
  · rfl
  · rfl

theorem closing_watch (span : Span) (x : Eval σ α) (close : Effect β) (m : Machine σ) :
    (closing span x close m).2.watch = (x m).2.watch := by
  unfold closing
  rcases x m with ⟨_ | _ | _ | _, m'⟩
  · exact perform_watch span close m'
  · rfl
  · rfl
  · rfl

/-- What only looks at the world and changes only the world is coupled with itself. -/
theorem Coupled.of_world {x : Eval σ α} {y : Eval τ α} (f : World → Outcome α × World)
    (hx : ∀ m, x m = ((f m.world).1, ⟨(f m.world).2, m.watch⟩))
    (hy : ∀ m, y m = ((f m.world).1, ⟨(f m.world).2, m.watch⟩)) : Coupled R Q x y where
  beside w s t related := by
    rw [hx, hy]
    exact .alike _ _ related
  alone s m left := by
    rw [hy]
    exact left

theorem Coupled.perform (span : Span) (f : Effect α) :
    Coupled R Q (Eval.perform span f) (Eval.perform span f) := by
  let alone (w : World) : Outcome α × Machine Unit := Eval.perform span f ⟨w, ()⟩
  have performs : ∀ {ρ : Type} (m : Machine ρ),
      Eval.perform span f m = ((alone m.world).1, ⟨(alone m.world).2.world, m.watch⟩) := by
    intro ρ m
    dsimp only [alone, Eval.perform]
    rcases f m.world with ⟨_ | _, _⟩
    · rfl
    · rfl
  exact .of_world (fun w => ((alone w).1, (alone w).2.world)) performs performs

theorem Coupled.bind {x : Eval σ α} {y : Eval τ α} {f : α → Eval σ β} {g : α → Eval τ β}
    (hxy : Coupled R Q x y) (hfg : ∀ a, Coupled R Q (f a) (g a)) :
    Coupled R Q (x >>= f) (y >>= g) := by
  have after : ∀ s m, Q s (y m).2.watch → Q s (Eval.bind y g m).2.watch := by
    intro s m left
    unfold Eval.bind
    revert left
    rcases y m with ⟨a | e | _ | _, m'⟩
    all_goals intro left
    · exact (hfg a).alone s m' left
    · exact left
    · exact left
    · exact left
  refine ⟨fun w s t related => ?_, fun s m left => after s m (hxy.alone s m left)⟩
  change Outcome.Beside R Q (Eval.bind x f _) (Eval.bind y g _)
  have ran := hxy.beside w s t related
  generalize hy : y ⟨w, t⟩ = ry at ran
  generalize hx : x ⟨w, s⟩ = rx at ran
  cases ran with
  | alike o w' related' =>
    unfold Eval.bind
    rw [hx, hy]
    cases o with
    | ok a => exact (hfg a).beside w' _ _ related'
    | error e => exact .alike _ _ related'
    | exhausted => exact .alike _ _ related'
    | aborted => exact .alike _ _ related'
  | @stopped s' e w' _ left =>
    have stops : Eval.bind x f ⟨w, s⟩ = (.error e, ⟨w', s'⟩) := by
      unfold Eval.bind
      rw [hx]
    rw [stops]
    exact .stopped e w' _ (after _ _ (by rw [hy]; exact left))

theorem Coupled.closing {x : Eval σ α} {y : Eval τ α} (span : Span) (close : Effect β)
    (hxy : Coupled R Q x y) : Coupled R Q (Eval.closing span x close) (Eval.closing span y close) := by
  refine ⟨fun w s t related => ?_, fun s m left => ?_⟩
  · have ran := hxy.beside w s t related
    generalize hy : y ⟨w, t⟩ = ry at ran
    generalize hx : x ⟨w, s⟩ = rx at ran
    cases ran with
    | alike o w' related' =>
      unfold Eval.closing
      rw [hx, hy]
      cases o with
      | ok a => exact (Coupled.perform span close).beside w' _ _ related'
      | error e => exact .alike _ _ related'
      | exhausted => exact .alike _ _ related'
      | aborted => exact .alike _ _ related'
    | @stopped s' e w' _ left =>
      have stops : Eval.closing span x close ⟨w, s⟩ = (.error e, ⟨(close w').2, s'⟩) := by
        unfold Eval.closing
        rw [hx]
      rw [stops]
      exact .stopped e _ _ (by rw [closing_watch, hy]; exact left)
  · rw [closing_watch]
    exact hxy.alone s m left

/-- To be coupled goes through every step of the evaluator. -/
theorem Coupled.congruent : Congruent fun {α} => @Coupled σ τ α R Q where
  pure a := .of_world (fun w => (.ok a, w)) (fun _ => rfl) (fun _ => rfl)
  bind := bind
  raise fault span := .of_world (fun w => (.error ⟨fault, span⟩, w)) (fun _ => rfl) (fun _ => rfl)
  aborted := .of_world (fun w => (.aborted, w)) (fun _ => rfl) (fun _ => rfl)
  ask f := .of_world (fun w => (.ok (f w), w)) (fun _ => rfl) (fun _ => rfl)
  change f := .of_world (fun w => (.ok (), f w)) (fun _ => rfl) (fun _ => rfl)
  make f := .of_world (fun w => (.ok (f w).1, (f w).2)) (fun _ => rfl) (fun _ => rfl)
  perform := perform
  closing span _ _ := closing span _

theorem Coupled.exhausted : Coupled R Q (Eval.exhausted : Eval σ α) Eval.exhausted :=
  .of_world (fun w => (.exhausted, w)) (fun _ => rfl) (fun _ => rfl)

end Eval

/-! ### coupled observers -/

namespace Observer

/-- Shows a node to an observer before its evaluation. -/
def entering (o : Observer σ) (node : Node) (c : ContextId) : Eval σ Bool :=
  fun m =>
    match o.enter node c m with
    | (.ok taken, m) => (.ok taken, m)
    | (.error fault, m) => (.error ⟨fault, node.span⟩, m)

theorem entering_ok {o : Observer σ} {node : Node} {c : ContextId} {m m' : Machine σ} {taken : Bool}
    (h : o.enter node c m = (.ok taken, m')) : o.entering node c m = (.ok taken, m') := by
  unfold entering
  rw [h]

theorem entering_error {o : Observer σ} {node : Node} {c : ContextId} {m m' : Machine σ}
    {fault : RuntimeFault} (h : o.enter node c m = (.error fault, m')) :
    o.entering node c m = (.error ⟨fault, node.span⟩, m') := by
  unfold entering
  rw [h]

theorem entering_watch (o : Observer σ) (node : Node) (c : ContextId) (m : Machine σ) :
    (o.entering node c m).2.watch = (o.enter node c m).2.watch := by
  unfold entering
  rcases o.enter node c m with ⟨_ | _, _⟩
  · rfl
  · rfl

theorem leaving_ok {o : Observer σ} {span : Span} {c : ContextId} {value : Value} {m m' : Machine σ}
    (h : o.leave value c m = (.ok (), m')) : o.leaving span c value m = (.ok value, m') := by
  unfold leaving
  rw [h]

theorem leaving_error {o : Observer σ} {span : Span} {c : ContextId} {value : Value}
    {m m' : Machine σ} {fault : RuntimeFault} (h : o.leave value c m = (.error fault, m')) :
    o.leaving span c value m = (.error ⟨fault, span⟩, m') := by
  unfold leaving
  rw [h]

theorem leaving_watch (o : Observer σ) (span : Span) (c : ContextId) (value : Value)
    (m : Machine σ) : (o.leaving span c value m).2.watch = (o.leave value c m).2.watch := by
  unfold leaving
  rcases o.leave value c m with ⟨_ | _, _⟩
  · rfl
  · rfl

theorem capture_eq (o : Observer σ) (node : Node) (c : ContextId) (x : Eval σ Value) :
    o.capture node c x = (do
      let taken ← o.entering node c
      let value ← x
      if taken then o.leaving node.span c value else pure value) := by
  funext m
  change _ = Eval.bind _ _ m
  unfold Observer.capture Eval.bind entering
  rcases o.enter node c m with ⟨_ | _, _⟩
  · rfl
  · rfl

/-- Two observers that couple what they watch. -/
structure Coupled (R Q : σ → τ → Prop) (o : Observer σ) (o' : Observer τ) : Prop where
  entering : ∀ node c, Eval.Coupled R Q (o.entering node c) (o'.entering node c)
  leaving : ∀ span c value, Eval.Coupled R Q (o.leaving span c value) (o'.leaving span c value)

theorem Coupled.capture {o : Observer σ} {o' : Observer τ} (h : o.Coupled R Q o') (node : Node)
    (c : ContextId) (x : Eval σ Value) (y : Eval τ Value) (hxy : Eval.Coupled R Q x y) :
    Eval.Coupled R Q (o.capture node c x) (o'.capture node c y) := by
  rw [capture_eq, capture_eq]
  refine .bind (h.entering node c) fun taken => .bind hxy fun value => ?_
  cases taken with
  | true => exact h.leaving node.span c value
  | false => exact Eval.Coupled.congruent.pure value

/-- An observer that is harmless as long as its state meets `I`, and keeps it so. -/
structure HarmlessWhile (I : σ → Prop) (o : Observer σ) : Prop where
  enter : ∀ node c m, I m.watch → ∃ taken watch, I watch ∧
    o.enter node c m = (.ok taken, { m with watch })
  leave : ∀ value c m, I m.watch → ∃ watch, I watch ∧
    o.leave value c m = (.ok (), { m with watch })

theorem HarmlessWhile.capture {I : σ → Prop} {o : Observer σ} (h : o.HarmlessWhile I) (node : Node)
    (c : ContextId) (x : Eval σ Value) (y : Eval Unit Value)
    (hxy : Eval.Coupled (fun s _ => I s) (fun _ _ => False) x y) :
    Eval.Coupled (fun s _ => I s) (fun _ _ => False) (o.capture node c x)
      (Observer.none.capture node c y) := by
  rw [capture_none]
  refine ⟨fun w s t meets => ?_, fun s m left => left⟩
  obtain ⟨taken, s₁, meets₁, entered⟩ := h.enter node c ⟨w, s⟩ meets
  unfold Observer.capture Eval.bind
  rw [entered]
  have ran := hxy.beside w s₁ t meets₁
  generalize y ⟨w, t⟩ = ry at ran
  generalize hx : x ⟨w, s₁⟩ = rx at ran
  cases ran with
  | stopped e w' _ left => exact left.elim
  | @alike s₂ _ o w' meets₂ =>
    dsimp only
    rw [hx]
    cases o with
    | ok value =>
      cases taken with
      | false => exact .alike _ _ meets₂
      | true =>
        obtain ⟨s₃, meets₃, left⟩ := h.leave value c ⟨w', s₂⟩ meets₂
        dsimp only
        rw [if_pos rfl, leaving_ok left]
        exact .alike _ _ meets₃
    | error e => exact .alike _ _ meets₂
    | exhausted => exact .alike _ _ meets₂
    | aborted => exact .alike _ _ meets₂

end Observer

/-! ### scripts -/

/-- Observers that couple what they are shown couple the runs of a session. -/
theorem Session.beside_of_capture {o : Observer σ} {o' : Observer τ}
    (hc : ∀ node c x y, Eval.Coupled R Q x y →
      Eval.Coupled R Q (o.capture node c x) (o'.capture node c y))
    (session : Session) {s : σ} {t : τ} (related : R s t) (fuel : Nat) (w : World) :
    Outcome.Beside R Q (session.rest o fuel ⟨w, s⟩) (session.rest o' fuel ⟨w, t⟩) := by
  have agree := Eval.Coupled.congruent.agree Eval.Coupled.exhausted hc fuel
  exact (hc _ _ _ _ (Eval.Coupled.congruent.runStatements
    (fun st => agree.execute st _) .null _)).beside _ _ _ related

/-- Observers that couple what they are shown couple whole runs. -/
theorem Program.beside_of_capture {o : Observer σ} {o' : Observer τ}
    (hc : ∀ node c x y, Eval.Coupled R Q x y →
      Eval.Coupled R Q (o.capture node c x) (o'.capture node c y))
    (p : Program) {s : σ} {t : τ} (related : R s t) (fuel : Nat) (w : World) :
    Outcome.Beside R Q (p.runWith o s fuel w) (p.runWith o' t fuel w) :=
  Session.beside_of_capture hc _ related fuel _

end Roteiro
