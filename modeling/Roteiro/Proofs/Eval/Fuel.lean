import Roteiro.Proofs.Eval.Congruence

/-!
Fuel is only a bound on the length of a run: an evaluation that ends before its fuel is used up
ends in the same way with more fuel (`Session.run_mono`). So a run has at most one end
(`Session.Ends.unique`), and it can be spoken of without its fuel.
-/

namespace Roteiro

open Eval

variable {σ α : Type}

/-- `y` goes on where `x` is out of fuel, and does the same everywhere else. -/
def Eval.Extends (x y : Eval σ α) : Prop :=
  ∀ m, (x m).1 ≠ .exhausted → y m = x m

namespace Eval.Extends

theorem refl (x : Eval σ α) : Extends x x := fun _ _ => rfl

theorem exhausted (y : Eval σ α) : Extends Eval.exhausted y := fun _ h => absurd rfl h

theorem bind {β : Type} {x y : Eval σ α} {f g : α → Eval σ β} (hxy : Extends x y)
    (hfg : ∀ a, Extends (f a) (g a)) : Extends (x >>= f) (y >>= g) := by
  intro m h
  change Eval.bind y g m = Eval.bind x f m
  change (Eval.bind x f m).1 ≠ .exhausted at h
  unfold Eval.bind at h ⊢
  have hm := hxy m
  rcases hx : x m with ⟨a | e | _ | _, m'⟩
  all_goals rw [hx] at hm h
  · rw [hm (by simp)]
    exact hfg a m' h
  · rw [hm (by simp)]
  · exact absurd rfl h
  · rw [hm (by simp)]

theorem closing {β : Type} {x y : Eval σ α} (span : Span) (close : Effect β) (hxy : Extends x y) :
    Extends (closing span x close) (closing span y close) := by
  intro m h
  unfold Eval.closing at h ⊢
  have hm := hxy m
  rcases hx : x m with ⟨a | e | _ | _, m'⟩
  all_goals rw [hx] at hm h
  · rw [hm (by simp)]
  · rw [hm (by simp)]
  · exact absurd rfl h
  · rw [hm (by simp)]

theorem congruent : Congruent (@Extends σ) where
  pure _ := refl _
  bind := bind
  raise _ _ := refl _
  aborted := refl _
  ask _ := refl _
  change _ := refl _
  make _ := refl _
  perform _ _ := refl _
  closing span _ _ := closing span _

theorem capture (o : Observer σ) (node : Node) (c : ContextId) (x y : Eval σ Value)
    (hxy : Extends x y) : Extends (o.capture node c x) (o.capture node c y) := by
  intro m h
  unfold Observer.capture at h ⊢
  rcases he : o.enter node c m with ⟨fault | taken, m'⟩
  · rfl
  · rw [he] at h
    exact bind hxy (fun _ => refl _) m' h

end Eval.Extends

/-- More fuel extends every function of an evaluator. -/
theorem Agree.extends (o : Observer σ) {n k : Nat} (hnk : n ≤ k) :
    Agree (@Eval.Extends σ) o o n k := by
  induction n generalizing k with
  | zero =>
    constructor
    · intros; rw [Roteiro.evaluate]; exact .exhausted _
    · intros; rw [Roteiro.execute]; exact .exhausted _
    · intros; rw [Roteiro.whileRounds]; exact .exhausted _
    · intros; rw [Roteiro.countRounds]; exact .exhausted _
    · intros; rw [Roteiro.eachRounds]; exact .exhausted _
  | succ n ih =>
    obtain ⟨k, rfl⟩ : ∃ j, k = j + 1 := ⟨k - 1, by omega⟩
    exact (ih (by omega)).succ Extends.congruent (Extends.capture o)

/-! ### sessions -/

theorem Eval.Congruent.runStatements {τ : Type}
    {rel : ∀ {α : Type}, Eval σ α → Eval τ α → Prop} (h : Congruent rel)
    {x : Statement → Eval σ Value} {y : Statement → Eval τ Value} (hs : ∀ s, rel (x s) (y s))
    (last : Value) (ss : List Statement) :
    rel (runStatements x last ss) (runStatements y last ss) :=
  h.compatible.runStatements last fun s _ => hs s

theorem Session.rest_extends (o : Observer σ) (s : Session) {n k : Nat} (hnk : n ≤ k) :
    Extends (s.rest o n) (s.rest o k) :=
  Extends.capture o _ _ _ _ (Extends.congruent.runStatements
    (fun st => (Agree.extends o hnk).execute st s.context) .null s.remaining)

/-- **More fuel does not change a run that has ended.** -/
theorem Session.run_mono (o : Observer σ) (s : Session) (m : Machine σ) {n k : Nat} (hnk : n ≤ k)
    (h : (s.run o n m).1 ≠ .exhausted) : s.run o k m = s.run o n m := by
  unfold Session.run at h ⊢
  rw [s.rest_extends o hnk m h]

/-- A run of a session ends with an outcome, and leaves a session and a world. -/
def Session.Ends (s : Session) (o : Observer σ) (m : Machine σ) (r : Outcome Value) (s' : Session)
    (w : World) : Prop :=
  r ≠ .exhausted ∧ ∃ fuel watch, s.run o fuel m = (r, s', ⟨w, watch⟩)

/-- A run ends in one way only. -/
theorem Session.Ends.unique {s s₁ s₂ : Session} {o : Observer σ} {m : Machine σ}
    {r₁ r₂ : Outcome Value} {w₁ w₂ : World} (h₁ : s.Ends o m r₁ s₁ w₁) (h₂ : s.Ends o m r₂ s₂ w₂) :
    r₁ = r₂ ∧ s₁ = s₂ ∧ w₁ = w₂ := by
  obtain ⟨hr₁, n, watch₁, e₁⟩ := h₁
  obtain ⟨hr₂, k, watch₂, e₂⟩ := h₂
  have same : s.run o n m = s.run o k m := by
    rcases Nat.le_total n k with hnk | hkn
    · exact (s.run_mono o m hnk (by rw [e₁]; exact hr₁)).symm
    · exact s.run_mono o m hkn (by rw [e₂]; exact hr₂)
  rw [e₁, e₂] at same
  cases same
  exact ⟨rfl, rfl, rfl⟩

end Roteiro
