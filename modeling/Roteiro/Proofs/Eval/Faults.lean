import Roteiro.Proofs.Eval.Invariants

/-!
The faults of a run. A run fails with the faults of scripts and with those of its observer, and with
no others (`Observer.raises`). So if nobody brings one up, no run ends with the fault of a node that
cannot be evaluated: every kind of node is evaluated somewhere.
-/

namespace Roteiro

open Eval

variable {σ α β : Type} {S : RuntimeFault → Prop}

/-- An outcome that is an error only with a fault of `S`. -/
def Outcome.Raises (S : RuntimeFault → Prop) : Outcome α → Prop
  | .error e => S e.fault
  | .ok _ | .exhausted | .aborted => True

/-- An evaluation that fails only with faults of `S`. -/
def Eval.Raises (S : RuntimeFault → Prop) (x : Eval σ α) : Prop :=
  ∀ m, (x m).1.Raises S

/-- An observer that brings up only faults of `S`. -/
structure Observer.Brings (S : RuntimeFault → Prop) (o : Observer σ) : Prop where
  enter : ∀ node c m fault, (o.enter node c m).1 = .error fault → S fault
  leave : ∀ value c m fault, (o.leave value c m).1 = .error fault → S fault

namespace Eval.Raises

theorem pure (a : α) : Raises S (Pure.pure a : Eval σ α) := fun _ => trivial

theorem exhausted : Raises S (Eval.exhausted : Eval σ α) := fun _ => trivial

theorem aborted : Raises S (Eval.aborted : Eval σ α) := fun _ => trivial

theorem ask (f : World → α) : Raises S (Eval.ask f : Eval σ α) := fun _ => trivial

theorem change (f : World → World) : Raises S (Eval.change f : Eval σ Unit) := fun _ => trivial

theorem make (f : World → α × World) : Raises S (Eval.make f : Eval σ α) := fun _ => trivial

theorem bind {x : Eval σ α} {f : α → Eval σ β} (hx : Raises S x) (hf : ∀ a, Raises S (f a)) :
    Raises S (x >>= f) := by
  intro m
  have first := hx m
  change (Eval.bind x f m).1.Raises S
  unfold Eval.bind
  rcases ran : x m with ⟨a | e | _ | _, m'⟩
  all_goals rw [ran] at first
  · exact hf a m'
  · exact first
  · trivial
  · trivial

theorem perform_of {span : Span} {f : Effect α}
    (h : ∀ w w' fault, f w = (.error fault, w') → S fault) :
    Raises S (Eval.perform span f : Eval σ α) := by
  intro m
  unfold Eval.perform
  rcases done : f m.world with ⟨fault | a, w⟩
  · exact h _ _ _ done
  · trivial

/-- An observer brings up no other faults. -/
theorem capture {o : Observer σ} (brings : o.Brings S) (node : Node) (c : ContextId)
    {x : Eval σ Value} (hx : Raises S x) : Raises S (o.capture node c x) := by
  intro m
  unfold Observer.capture
  rcases shown : o.enter node c m with ⟨fault | taken, m'⟩
  · exact brings.enter node c m fault (by rw [shown])
  · refine hx.bind (fun value => ?_) m'
    cases taken with
    | false => exact pure value
    | true =>
      intro m
      change (o.leaving node.span c value m).1.Raises S
      unfold Observer.leaving
      rcases left : o.leave value c m with ⟨fault | _, m'⟩
      · exact brings.leave value c m fault (by rw [left])
      · trivial

/-! ### what is done to worlds -/

variable (script : ∀ fault : RuntimeFault, fault.ofScript → S fault)

include script

theorem perform (span : Span) {f : Effect α} (h : f.Simple) :
    Raises S (Eval.perform span f : Eval σ α) :=
  perform_of fun _ _ fault failed => script fault (h.ofScript failed)

theorem closing (span : Span) {x : Eval σ α} (hx : Raises S x) {close : Effect β}
    (h : close.Closing) : Raises S (Eval.closing span x close) := by
  intro m
  have first := hx m
  unfold Eval.closing
  rcases ran : x m with ⟨a | e | _ | _, m'⟩
  all_goals rw [ran] at first
  · exact perform_of (fun _ _ fault failed => script fault (h.ofScript failed)) m'
  · exact first
  · trivial
  · trivial

omit script in
theorem openScope (c : ContextId) : Raises S (Eval.openScope c : Eval σ Unit) := by
  refine (ask _).bind fun full => ?_
  cases full with
  | true => exact aborted
  | false => exact change _

theorem inScope (c : ContextId) (span : Span) {x : Eval σ α} (hx : Raises S x) :
    Raises S (Eval.inScope c span x) :=
  (openScope c).bind fun _ => closing script span hx (.scope c)

theorem inRound (c : ContextId) (span : Span) {x : Eval σ α} (hx : Raises S x) :
    Raises S (Eval.inRound c span x) :=
  (openScope c).bind fun _ => (change _).bind fun _ => closing script span hx (.round c)

theorem inCall (parent : ContextId) (span : Span) {x : ContextId → Eval σ α}
    (hx : ∀ d, Raises S (x d)) : Raises S (Eval.inCall parent span x) :=
  (make _).bind fun d => (change _).bind fun _ => closing script span (hx d) (.call d)

end Eval.Raises

/-! ### the evaluator -/

namespace Observer.Brings

variable {o : Observer σ} (brings : o.Brings S)
  (script : ∀ fault : RuntimeFault, fault.ofScript → S fault)

include brings script

theorem keeping : Eval.Invariant anything o (fun _ _ {_} _ x _ => Raises S x)
    fun _ _ x _ => Raises S x where
  exhausted := .exhausted
  aborted := .aborted
  raise ofScript _ _ := script _ ofScript
  pure _ := .pure _
  bind {_ _ _ _ good _ _ _ _ _} hx hf := hx.bind fun a => hf a (good.whole a)
  ask f := .ask f
  advance _ := .ask _
  iterate v _ := .perform script _ (.iterate v)
  gives h _ := .perform script _ (.plain h.plain)
  makes _ := .make _
  signals h _ := .perform script _ h.simple
  define name _ _ _ := .perform script _ (.define _ name _)
  direct hx := hx
  inside hx := hx
  known hx := hx
  inScope _ hx := hx.inScope script _ _
  capture _ hx := hx.capture brings _ _
  finish _ hx := hx
  declare _ _ hx := hx.bind fun v => (Raises.perform script _ (.define _ _ v)).bind fun _ => .pure v
  shown _ hx := hx.capture brings _ _

theorem keepingOpenly : Eval.OpenInvariant anything o (fun _ _ {_} _ x _ => Raises S x)
    fun _ _ x _ => Raises S x :=
  (brings.keeping script).openly id (fun _ hx => hx.inRound script _ _) fun parent _ hx =>
    .inCall script parent _ hx

/-- **A run fails with the faults of scripts and those of its observer only.** -/
theorem raising (fuel : Nat) : Upheld anything .raising o (fun _ _ {_} _ x _ => Raises S x) fuel :=
  (brings.keepingOpenly script).upheld .whole .raising fuel

end Observer.Brings

end Roteiro
