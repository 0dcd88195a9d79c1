import Mathlib.Data.List.Chain
import Roteiro.Proofs.Eval.Balance
import Roteiro.Proofs.Trace.Chronicle

/-!
The events of a run are well bracketed. The evaluation of a node is shown from one to six times over,
and a guarded observer takes it once: it refuses the node when it is shown again, since the node is
still the innermost one that was taken, and it takes every node inside, since that one has another
key. So the guarded moments are the others with each such repetition collapsed (`Visits`), and what
is open when a run ends before its time is the chain of nodes under evaluation (`Underway`).
-/

namespace Roteiro

open Eval World

variable {α β : Type}

/-! ### visits -/

/-- The moments of evaluations that were finished for a node, one after the other: all of them, and
those that a guarded observer takes. Each evaluation is shown as often as its node asks for, and
taken once. -/
inductive Visits : Node → List Moment → List Moment → Prop
  | nil {N : Node} : Visits N [] []
  | cons {N node : Node} (c : ContextId) (w w' : World) (v : Value) {u g u' g' : List Moment}
    (held : N.Holds node) (live : c < w.contexts.size)
    (level : (w'.context c).level = (w.context c).level) (inner : Visits node u g)
    (later : Visits N u' g') :
    Visits N
      (List.replicate node.captures (.enter node c w) ++ u ++
        List.replicate node.captures (.leave v c w') ++ u')
      (.enter node c w :: g ++ .leave v c w' :: g')

/-- The moments of an evaluation that was begun for a node and is not finished, down a chain of nodes
that each hold the next one. -/
inductive Underway : Node → List Node → List Moment → List Moment → Prop
  | here {N : Node} {u g : List Moment} (done : Visits N u g) : Underway N [] u g
  | inside {N node : Node} {chain : List Node} {u g u' g' : List Moment} (done : Visits N u g)
    (c : ContextId) (w : World) (held : N.Holds node)
    (inner : Underway node chain u' g') :
    Underway N (node :: chain) (u ++ List.replicate node.captures (.enter node c w) ++ u')
      (g ++ .enter node c w :: g')

namespace Visits

variable {N : Node} {u g u' g' : List Moment}

theorem append (h : Visits N u g) (k : Visits N u' g') : Visits N (u ++ u') (g ++ g') := by
  induction h with
  | nil => exact k
  | cons c w w' v held live level inner _ _ ih =>
    have joined := Visits.cons c w w' v held live level inner (ih k)
    simpa using joined

/-- What is open stays open. -/
theorem foldl_reopen (h : Visits N u g) (opened : List Node) :
    g.foldl Moment.reopen opened = opened := by
  induction h generalizing opened with
  | nil => rfl
  | cons _ _ _ _ _ _ _ _ _ inner later =>
    rw [List.cons_append, List.foldl_cons, List.foldl_append, inner, List.foldl_cons]
    exact later opened

end Visits

namespace Underway

variable {N : Node} {chain : List Node} {u g u' g' : List Moment}

theorem after (h : Visits N u g) (k : Underway N chain u' g') :
    Underway N chain (u ++ u') (g ++ g') := by
  cases k with
  | here done => exact .here (h.append done)
  | inside done c w held inner =>
    have joined := Underway.inside (h.append done) c w held inner
    simpa using joined

/-- What was open stays so, and the chain is open besides. -/
theorem foldl_reopen (h : Underway N chain u g) (opened : List Node) :
    g.foldl Moment.reopen opened = chain.reverse ++ opened := by
  induction h generalizing opened with
  | here done => exact done.foldl_reopen opened
  | inside done _ _ _ _ ih =>
    rw [List.foldl_append, done.foldl_reopen, List.foldl_cons, ih]
    simp [Moment.reopen]

/-- Each node of the chain holds the next one. -/
theorem isChain (h : Underway N chain u g) : List.IsChain Node.Holds (N :: chain) := by
  induction h with
  | here _ => exact .singleton _
  | inside _ _ _ held _ ih => exact .cons_cons held ih

end Underway

/-! ### two chronicles -/

namespace Chronicle

/-- A chronicle with more moments. -/
def extend (t : Chronicle) (ms : List Moment) : Chronicle :=
  { t with moments := t.moments ++ ms }

@[simp] theorem extend_nil (t : Chronicle) : t.extend [] = t := by
  simp [extend]

@[simp] theorem extend_extend (t : Chronicle) (ms ns : List Moment) :
    (t.extend ms).extend ns = t.extend (ms ++ ns) := by
  simp [extend]

@[simp] theorem add_eq_extend (t : Chronicle) (m : Moment) : t.add m = t.extend [m] :=
  rfl

/-- A guarded chronicle of an evaluation that is at work on a node. -/
structure Guards (N : Node) (s : Chronicle) : Prop where
  guarded : s.guarded = true
  unstopped : s.stopAt = none
  top : s.opened.head? = some N

/-- A chronicle that takes all it is shown. -/
structure Free (t : Chronicle) : Prop where
  unguarded : t.guarded = false
  unstopped : t.stopAt = none

theorem Free.extend {t : Chronicle} (h : t.Free) (ms : List Moment) : (t.extend ms).Free :=
  ⟨h.unguarded, h.unstopped⟩

theorem Guards.extend {N : Node} {s : Chronicle} (h : s.Guards N) {u g : List Moment}
    (visits : Visits N u g) : (s.extend g).Guards N where
  guarded := h.guarded
  unstopped := h.unstopped
  top := by
    unfold opened Chronicle.extend Moment.opened
    rw [List.foldl_append, visits.foldl_reopen]
    exact h.top

theorem Guards.enter {N node : Node} {s : Chronicle} (h : s.Guards N) (c : ContextId) (w : World) :
    (s.extend [.enter node c w]).Guards node where
  guarded := h.guarded
  unstopped := h.unstopped
  top := by
    rw [← add_eq_extend, opened_add]
    rfl

/-- The node at work is refused. -/
theorem Guards.refuses {N : Node} {s : Chronicle} (h : s.Guards N) : s.refuses N = true := by
  unfold Chronicle.refuses
  rw [h.guarded, h.top]
  simp

/-- A node that it holds is not. -/
theorem Guards.takes {N node : Node} {s : Chronicle} (h : s.Guards N) (held : N.Holds node) :
    s.refuses node = false :=
  takes_of_held h.top held

theorem Free.takes {t : Chronicle} (h : t.Free) (node : Node) : t.refuses node = false := by
  unfold Chronicle.refuses
  rw [h.unguarded]
  rfl

theorem silent : observer.Silent where
  enter node c m := by
    unfold observer
    dsimp only
    split
    · rfl
    · rfl
  leave value c m := rfl

end Chronicle

/-! ### shadows -/

/-- How a guarded evaluation and an unguarded one end that were begun for a node. -/
inductive Shadowing (N : Node) (w : World) (s t : Chronicle) :
    Outcome α × Machine Chronicle → Outcome α × Machine Chronicle → Prop
  | value (a : α) (w' : World) {u g : List Moment} (grown : w.contexts.size ≤ w'.contexts.size)
    (visits : Visits N u g) :
    Shadowing N w s t (.ok a, ⟨w', s.extend g⟩) (.ok a, ⟨w', t.extend u⟩)
  | short (o : Outcome α) (w' : World) {chain : List Node} {u g : List Moment}
    (no_value : ∀ a, o ≠ .ok a) (underway : Underway N chain u g) :
    Shadowing N w s t (o, ⟨w', s.extend g⟩) (o, ⟨w', t.extend u⟩)

/-- `x` does under a guarded observer what `y` does under an unguarded one, at work on a node in a
context. -/
def Eval.Shadows (N : Node) (c : ContextId) (x y : Eval Chronicle α) : Prop :=
  ∀ (w : World) (s t : Chronicle), c < w.contexts.size → s.Guards N → t.Free →
    Shadowing N w s t (x ⟨w, s⟩) (y ⟨w, t⟩)

namespace Shadowing

variable {N : Node} {w : World} {s t : Chronicle}

theorem still (o : Outcome α) (w' : World) (grown : w.contexts.size ≤ w'.contexts.size) :
    Shadowing N w s t (o, ⟨w', s⟩) (o, ⟨w', t⟩) := by
  cases o with
  | ok a => simpa using Shadowing.value (N := N) (s := s) (t := t) a w' grown .nil
  | error e => simpa using Shadowing.short (N := N) (s := s) (t := t) (.error e) w' (by simp) (.here .nil)
  | exhausted => simpa using Shadowing.short (N := N) (s := s) (t := t) .exhausted w' (by simp) (.here .nil)
  | aborted => simpa using Shadowing.short (N := N) (s := s) (t := t) .aborted w' (by simp) (.here .nil)

/-- What comes after finished evaluations. -/
theorem after {w' : World} {u g : List Moment} (grown : w.contexts.size ≤ w'.contexts.size)
    (visits : Visits N u g) {rx ry : Outcome α × Machine Chronicle}
    (h : Shadowing N w' (s.extend g) (t.extend u) rx ry) : Shadowing N w s t rx ry := by
  cases h with
  | value a w'' grown' visits' =>
    rw [Chronicle.extend_extend, Chronicle.extend_extend]
    exact .value a w'' (Nat.le_trans grown grown') (visits.append visits')
  | short o w'' no_value underway =>
    rw [Chronicle.extend_extend, Chronicle.extend_extend]
    exact .short o w'' no_value (.after visits underway)

end Shadowing

namespace Eval.Shadows

variable {N : Node} {c : ContextId}

/-- What only looks at the world and changes only the world. -/
theorem of_world {x : Eval Chronicle α} (f : World → Outcome α × World)
    (hx : ∀ m, x m = ((f m.world).1, ⟨(f m.world).2, m.watch⟩))
    (grows : ∀ w, w.contexts.size ≤ (f w).2.contexts.size) : Shadows N c x x := by
  intro w s t _ _ _
  rw [hx, hx]
  exact .still _ _ (grows w)

theorem perform (span : Span) {f : Effect α}
    (grows : ∀ w, w.contexts.size ≤ (f w).2.contexts.size) :
    Shadows N c (Eval.perform span f) (Eval.perform span f) := by
  intro w s t _ _ _
  have grown := grows w
  unfold Eval.perform
  dsimp only
  generalize f w = r at grown ⊢
  rcases r with ⟨fault | a, w'⟩
  · exact .still _ _ grown
  · exact .still _ _ grown

theorem make {f : World → α × World}
    (grows : ∀ w, w.contexts.size ≤ (f w).2.contexts.size) :
    Shadows N c (Eval.make f) (Eval.make f) :=
  of_world (fun w => (.ok (f w).1, (f w).2)) (fun _ => rfl) grows

theorem bind {x y : Eval Chronicle α} {f g : α → Eval Chronicle β} (hxy : Shadows N c x y)
    (hfg : ∀ a, Shadows N c (f a) (g a)) : Shadows N c (x >>= f) (y >>= g) := by
  intro w s t live guards free
  change Shadowing N w s t (Eval.bind x f _) (Eval.bind y g _)
  unfold Eval.bind
  have ran := hxy w s t live guards free
  generalize x ⟨w, s⟩ = rx at ran ⊢
  generalize y ⟨w, t⟩ = ry at ran ⊢
  cases ran with
  | value a w' grown visits =>
    exact .after grown visits (hfg a w' _ _ (Nat.lt_of_lt_of_le live grown) (guards.extend visits)
      (free.extend _))
  | short o w' no_value underway =>
    cases o with
    | ok a => exact absurd rfl (no_value a)
    | error e => exact .short _ w' (by simp) underway
    | exhausted => exact .short _ w' (by simp) underway
    | aborted => exact .short _ w' (by simp) underway

theorem change {f : World → World} (grows : ∀ w, w.contexts.size ≤ (f w).contexts.size) :
    Shadows N c (Eval.change f) (Eval.change f) :=
  of_world (fun w => (.ok (), f w)) (fun _ => rfl) grows

/-- What was opened in the context before an evaluation is closed after it. -/
theorem closing {x y : Eval Chronicle α} {close : Effect β} (span : Span)
    (closes : ∀ w, w.contexts.size ≤ (close w).2.contexts.size) (hxy : Shadows N c x y) :
    Shadows N c (Eval.closing span x close) (Eval.closing span y close) := by
  intro w s t live guards free
  unfold Eval.closing
  have ran := hxy w s t live guards free
  generalize x ⟨w, s⟩ = rx at ran ⊢
  generalize y ⟨w, t⟩ = ry at ran ⊢
  cases ran with
  | value a w' grown visits =>
    exact .after grown visits (perform (c := c) span closes w' _ _
      (Nat.lt_of_lt_of_le live grown) (guards.extend visits) (free.extend _))
  | short o w' no_value underway =>
    cases o with
    | ok a => exact absurd rfl (no_value a)
    | error e => exact .short _ _ (by simp) underway
    | exhausted => exact .short _ _ (by simp) underway
    | aborted => exact .short _ _ (by simp) underway

end Eval.Shadows

/-! ### the number of contexts -/

theorem World.onContexts_size {f : Contexts → Except RuntimeFault Contexts} (w : World)
    (h : ∀ cs, f w.contexts = .ok cs → cs.size = w.contexts.size) :
    (onContexts f w).2.contexts.size = w.contexts.size := by
  unfold onContexts
  cases hf : f w.contexts with
  | ok cs => exact h cs hf
  | error fault => rfl

theorem World.onContext_size (c : ContextId) (f : Context → Except RuntimeFault Context) (w : World) :
    (onContext c f w).2.contexts.size = w.contexts.size := by
  refine onContexts_size w fun cs done => ?_
  cases hf : f (w.contexts.context c) with
  | ok d =>
    rw [hf] at done
    cases done
    exact Array.size_setIfInBounds
  | error fault =>
    rw [hf] at done
    cases done

/-- What is done for an expression or a statement keeps the contexts there are. -/
theorem Effect.Simple.size_eq {f : Effect α} (h : f.Simple) (w : World) :
    (f w).2.contexts.size = w.contexts.size := by
  cases h with
  | plain h =>
    cases h with
    | lookup c name => rfl
    | assign c name v =>
      refine onContexts_size w fun cs done => ?_
      unfold Contexts.assign at done
      split at done
      · cases done
        exact Array.size_modify
      · cases done
    | property x k => rw [(apart_property x k).contexts w]
    | setProperty x k v => rw [(apart_setProperty x k v).contexts w]
    | callBuiltin b vs => rw [(apart_callBuiltin b vs).contexts w]
  | define c name v =>
    refine onContexts_size w fun cs done => ?_
    unfold Contexts.define at done
    cases hd : (w.contexts.context c).define name v with
    | ok d =>
      rw [hd] at done
      cases done
      exact Array.size_setIfInBounds
    | error fault =>
      rw [hd] at done
      cases done
  | markBreak c => exact onContext_size c _ w
  | markContinue c => exact onContext_size c _ w
  | pushReturns c vs => exact onContext_size c _ w
  | iterate v => rfl

theorem World.update_size (c : ContextId) (f : Context → Context) (w : World) :
    (w.update c f).contexts.size = w.contexts.size :=
  Array.size_modify

theorem World.popLoop_size (c : ContextId) (w : World) :
    (popLoop c w).2.contexts.size = w.contexts.size := by
  unfold popLoop
  split
  · exact Array.size_setIfInBounds
  · rfl

theorem World.popCall_size (c : ContextId) (w : World) :
    (popCall c w).2.contexts.size = w.contexts.size := by
  unfold popCall
  split
  · exact Array.size_setIfInBounds
  · rfl

theorem Eval.Shadows.update {N : Node} {c : ContextId} (d : ContextId) (f : Context → Context) :
    Shadows N c (Eval.change (World.update d f)) (Eval.change (World.update d f)) :=
  change fun w => Nat.le_of_eq (update_size d f w).symm

theorem Eval.Shadows.openScope {N : Node} {c : ContextId} (d : ContextId) :
    Shadows N c (Eval.openScope d) (Eval.openScope d) := by
  refine (of_world (fun w => (.ok (w.context d).full, w)) (fun _ => rfl) fun _ => Nat.le_refl _).bind
    fun full => ?_
  cases full with
  | true => exact of_world (fun w => (.aborted, w)) (fun _ => rfl) fun _ => Nat.le_refl _
  | false => exact update d Context.enter

/-- Shadows go through every step of the evaluator in a context. -/
theorem Eval.Shadows.placed (N : Node) :
    Placed fun c {α} (z : Bool → Eval Chronicle α) => Shadows N c (z false) (z true) where
  fit c :=
    { pure := fun a => of_world (fun w => (.ok a, w)) (fun _ => rfl) fun _ => Nat.le_refl _
      bind := bind
      raise := fun fault span =>
        of_world (fun w => (.error ⟨fault, span⟩, w)) (fun _ => rfl) fun _ => Nat.le_refl _
      aborted := of_world (fun w => (.aborted, w)) (fun _ => rfl) fun _ => Nat.le_refl _
      key := fun v => of_world (fun w => (.ok (w.heap.key v), w)) (fun _ => rfl) fun _ => Nat.le_refl _
      perform := fun span plain => perform span fun w =>
        Nat.le_of_eq (Effect.Simple.size_eq (.plain plain) w).symm }
  ask c f := of_world (fun w => (.ok (f w), w)) (fun _ => rfl) fun _ => Nat.le_refl _
  newArray c items := make fun _ => Nat.le_refl _
  newDictionary c l := make fun _ => Nat.le_refl _
  newFunction c f := make fun _ => Nat.le_refl _
  perform c span simple := perform span fun w => Nat.le_of_eq (simple.size_eq w).symm
  inScope {_ _ c} span hxy :=
    (openScope c).bind fun _ =>
      closing span (fun w => Nat.le_of_eq (update_size c _ w).symm) hxy
  inRound {_ _ c} span hxy :=
    (openScope c).bind fun _ => (update c Context.pushLoop).bind fun _ =>
      closing span (fun w => Nat.le_of_eq ((update_size c _ _).trans (popLoop_size c w)).symm) hxy
  inCall {_ x} c parent span hxy := by
    intro w s t live guards free
    let d := w.contexts.size
    let w₁ := (w.newChild parent).2
    have made : w₁.contexts.size = d + 1 := Array.size_push _
    have called : Shadows N d
        (Eval.change (World.update d Context.pushCall) >>= fun _ =>
          Eval.closing span (x d false) (World.popCall d))
        (Eval.change (World.update d Context.pushCall) >>= fun _ =>
          Eval.closing span (x d true) (World.popCall d)) :=
      (update d Context.pushCall).bind fun _ =>
        closing span (fun w => Nat.le_of_eq (popCall_size d w).symm) (hxy d)
    have ran := called w₁ s t (by rw [made]; exact Nat.lt_succ_self d) guards free
    have grown : w.contexts.size ≤ w₁.contexts.size := by rw [made]; exact Nat.le_succ _
    have joined := Shadowing.after (s := s) (t := t) grown .nil (by simpa using ran)
    exact joined

/-! ### showing a node -/

namespace Chronicle

/-- A node that is refused is evaluated all the same. -/
theorem captureTimes_refused {node : Node} {s : Chronicle} (h : s.Guards node) (c : ContextId)
    (x : Eval Chronicle Value) (w : World) (times : Nat) :
    observer.captureTimes times node c x ⟨w, s⟩ = x ⟨w, s⟩ := by
  induction times with
  | zero => rfl
  | succ times ih =>
    have passed : observer.capture node c (observer.captureTimes times node c x) ⟨w, s⟩ =
        Eval.bind (observer.captureTimes times node c x) Eval.pure ⟨w, s⟩ := by
      rw [Observer.capture_eq]
      change Eval.bind _ _ _ = _
      unfold Eval.bind
      rw [s.entering_refused node c w h.refuses]
      rfl
    rw [Eval.bind_pure, ih] at passed
    exact passed

/-- A node that is taken is evaluated between two moments. -/
theorem capture_taken {node : Node} {t : Chronicle} (takes : t.refuses node = false)
    (unstopped : t.stopAt = none) (c : ContextId) (x : Eval Chronicle Value) (w : World) :
    observer.capture node c x ⟨w, t⟩ =
      Eval.bind x (observer.leaving node.span c) ⟨w, t.extend [.enter node c w]⟩ := by
  rw [Observer.capture_eq]
  change Eval.bind _ _ _ = _
  conv_lhs => unfold Eval.bind
  rw [t.entering_taken node c w takes (not_stopped unstopped)]
  rfl

/-- The moments at which a value is shown several times over. -/
def leaves (times : Nat) (c : ContextId) (w : World) : Outcome Value → List Moment
  | .ok v => List.replicate times (.leave v c w)
  | _ => []

theorem bind_leaving {node : Node} {t t' : Chronicle} {c : ContextId} {x : Eval Chronicle Value}
    {w w' : World} {o : Outcome Value} (ran : x ⟨w, t⟩ = (o, ⟨w', t'⟩))
    (unstopped : t'.stopAt = none) :
    Eval.bind x (observer.leaving node.span c) ⟨w, t⟩ = (o, ⟨w', t'.extend (leaves 1 c w' o)⟩) := by
  unfold Eval.bind
  rw [ran]
  cases o with
  | ok v => exact t'.leaving_taken c v node.span w' (not_stopped unstopped)
  | error e => simp [leaves]
  | exhausted => simp [leaves]
  | aborted => simp [leaves]

theorem leaves_succ (times : Nat) (c : ContextId) (w : World) (o : Outcome Value) :
    leaves times c w o ++ leaves 1 c w o = leaves (times + 1) c w o := by
  cases o with
  | ok v => exact (List.replicate_add times 1 _).symm
  | error e => rfl
  | exhausted => rfl
  | aborted => rfl

theorem leaves_of_short {o : Outcome Value} (h : ∀ v, o ≠ .ok v) (times : Nat) (c : ContextId)
    (w : World) : leaves times c w o = [] := by
  cases o with
  | ok v => exact absurd rfl (h v)
  | error e => rfl
  | exhausted => rfl
  | aborted => rfl

/-- One who takes all is shown a node several times over. -/
theorem captureTimes_free {t : Chronicle} (free : t.Free) {node : Node} {c : ContextId}
    {x : Eval Chronicle Value} {w w' : World} {o : Outcome Value} {u : List Moment} {times : Nat}
    (ran : x ⟨w, t.extend (List.replicate times (.enter node c w))⟩ =
      (o, ⟨w', (t.extend (List.replicate times (.enter node c w))).extend u⟩)) :
    observer.captureTimes times node c x ⟨w, t⟩ =
      (o, ⟨w', t.extend (List.replicate times (.enter node c w) ++ u ++ leaves times c w' o)⟩) := by
  induction times generalizing t with
  | zero =>
    have none_left : leaves 0 c w' o = [] := by cases o <;> rfl
    change x ⟨w, t⟩ = _
    simpa [none_left] using ran
  | succ times ih =>
    have again := ih (free.extend [.enter node c w])
      (by simpa [List.replicate_succ] using ran)
    change observer.capture node c (observer.captureTimes times node c x) ⟨w, t⟩ = _
    rw [capture_taken (free.takes node) free.unstopped, bind_leaving again free.unstopped]
    rw [extend_extend, extend_extend, ← leaves_succ times]
    simp [List.replicate_succ]

end Chronicle

/-- **Showing a node leads from what holds at work on it to what holds for one that holds it.** A
guarded observer takes the node the first time and refuses it from then on. -/
theorem Eval.Shadows.shown {N node : Node} {c : ContextId} (held : N.Holds node)
    {x y : Eval Chronicle Value}
    (balanced : Keeps (Under c Context.Grown)
      (Chronicle.observer.captureTimes node.captures node c x))
    (hxy : Shadows node c x y) :
    Shadows N c (Chronicle.observer.captureTimes node.captures node c x)
      (Chronicle.observer.captureTimes node.captures node c y) := by
  intro w s t live guards free
  obtain ⟨n, captures⟩ : ∃ n, node.captures = n + 1 :=
    ⟨node.captures - 1, (Nat.sub_add_cancel node.captures_pos).symm⟩
  have entered : (s.extend [.enter node c w]).Guards node := guards.enter c w
  have ran := hxy w _ (t.extend (List.replicate node.captures (.enter node c w))) live entered
    (free.extend _)
  -- What the guarded evaluation does, from what `x` does.
  have guarded : ∀ {o : Outcome Value} {w' : World} {g : List Moment},
      x ⟨w, s.extend [.enter node c w]⟩ = (o, ⟨w', (s.extend [.enter node c w]).extend g⟩) →
      Chronicle.observer.captureTimes node.captures node c x ⟨w, s⟩ =
        (o, ⟨w', s.extend (.enter node c w :: g ++ Chronicle.leaves 1 c w' o)⟩) := by
    intro o w' g hx
    rw [captures]
    change Chronicle.observer.capture node c (Chronicle.observer.captureTimes n node c x) ⟨w, s⟩ = _
    rw [Chronicle.capture_taken (guards.takes held) guards.unstopped]
    rw [← Chronicle.captureTimes_refused entered c x w n] at hx
    rw [Chronicle.bind_leaving hx guards.unstopped]
    simp
  have kept := balanced ⟨w, s⟩
  generalize hx : x ⟨w, s.extend [.enter node c w]⟩ = rx at ran
  generalize hy : y ⟨w, t.extend (List.replicate node.captures (.enter node c w))⟩ = ry at ran
  cases ran with
  | value v w' grown visits =>
    rw [guarded hx] at kept ⊢
    rw [Chronicle.captureTimes_free free hy]
    have level : (w'.context c).level = (w.context c).level := (kept trivial live).here.level
    have visit := Visits.cons c w w' v held live level visits .nil
    simp only [List.append_nil] at visit
    exact .value v w' grown visit
  | short o w' no_value underway =>
    rw [guarded hx, Chronicle.captureTimes_free free hy, Chronicle.leaves_of_short no_value,
      Chronicle.leaves_of_short no_value, List.append_nil, List.append_nil]
    have inside := Underway.inside .nil c w held underway
    simp only [List.nil_append] at inside
    exact .short o w' no_value inside

/-- **All functions of a guarded evaluator are shadows of those of an unguarded one.** -/
theorem Chronicle.nested (fuel : Nat) :
    Nested (fun N c {α} (z : Bool → Eval Chronicle α) => Shadows N c (z false) (z true))
      (fun _ => observer) fun _ => fuel := by
  have out (N : Node) (c : ContextId) {α : Type} :
      Shadows N c (Eval.exhausted : Eval Chronicle α) Eval.exhausted :=
    .of_world (fun w => (.exhausted, w)) (fun _ => rfl) fun _ => Nat.le_refl _
  induction fuel with
  | zero =>
    constructor
    · intros; rw [evaluate]; exact out _ _
    · intros; rw [execute]; exact out _ _
    · intros; rw [whileRounds]; exact out _ _
    · intros; rw [countRounds]; exact out _ _
    · intros; rw [eachRounds]; exact out _ _
  | succ fuel ih =>
    refine ih.succ Shadows.placed ⟨?_, ?_⟩
    · intro N e c z held hz hxy
      have kept := (silent.evaluate_keeps (fuel + 1) e c).mono fun h => h.under (c := c).toGrown
      rw [hz false] at kept
      have shadows : Shadows N c (observer.captureTimes e.captures (.expression e) c (z false))
          (observer.captureTimes e.captures (.expression e) c (z true)) :=
        Shadows.shown held kept hxy
      rw [← hz true] at shadows
      exact hz false ▸ shadows
    · intro N s c z held hz hxy
      have kept := silent.execute_keeps (fuel + 1) s c
      rw [hz false] at kept
      have shadows : Shadows N c (observer.capture (.statement s) c (z false))
          (observer.capture (.statement s) c (z true)) := Shadows.shown held kept hxy
      rw [← hz true] at shadows
      exact hz false ▸ shadows

/-! ### whole runs -/

/-- The moments of a run of a script in a context of a world, all of them and those that a guarded
observer takes: the script itself is shown once. -/
inductive Program.Recounts (p : Program) (c : ContextId) (w : World) :
    Outcome Value → List Moment → List Moment → Prop
  | value (v : Value) (w' : World) {u g : List Moment}
    (level : (w'.context c).level = (w.context c).level) (visits : Visits (.program p) u g) :
    Recounts p c w (.ok v) (.enter (.program p) c w :: u ++ [.leave v c w'])
      (.enter (.program p) c w :: g ++ [.leave v c w'])
  | short (o : Outcome Value) {chain : List Node} {u g : List Moment} (no_value : ∀ v, o ≠ .ok v)
    (underway : Underway (.program p) chain u g) :
    Recounts p c w o (.enter (.program p) c w :: u) (.enter (.program p) c w :: g)

/-- **A guarded observer takes each evaluation of a run once.** -/
theorem Program.recounts (p : Program) (fuel : Nat) (w : World) :
    p.Recounts w.newGlobal.1 w.newGlobal.2
      (p.runWith Chronicle.observer { guarded := true } fuel w).1
      (p.history false fuel w) (p.history true fuel w) := by
  have nested := Chronicle.nested fuel
  have live := w.newGlobal_live
  unfold Program.history Program.runWith
  generalize w.newGlobal = global at live ⊢
  obtain ⟨c, g⟩ := global
  dsimp only at live ⊢
  let enter : Moment := .enter (.program p) c g
  let script : Eval Chronicle Value :=
    runStatements (fun st => execute Chronicle.observer fuel st c) .null p.statements
  have level : Keeps (Under c Context.Grown) script :=
    Chronicle.silent.runStatements_keeps fuel .null p.statements c
  have shadows : Shadows (.program p) c script script :=
    ((Shadows.placed (.program p)).fit c).runStatements
      (x := fun st _ => execute Chronicle.observer fuel st c) .null fun st member =>
        nested.execute (.script member) c
  -- The script is taken from both sides, so what is left is to put its moments around those inside.
  have whole : ∀ (guarded : Bool) {o : Outcome Value} {w' : World} {ms : List Moment},
      script ⟨g, Chronicle.extend { guarded } [enter]⟩ =
        (o, ⟨w', (Chronicle.extend { guarded } [enter]).extend ms⟩) →
      Session.rest Chronicle.observer fuel { program := p, context := c } ⟨g, { guarded }⟩ =
        (o, ⟨w', { guarded, moments := enter :: ms ++ Chronicle.leaves 1 c w' o }⟩) := by
    intro guarded o w' ms ran
    have takes : Chronicle.refuses { guarded } (.program p) = false := by
      cases guarded <;> rfl
    exact (Chronicle.capture_taken takes rfl c script g).trans (Chronicle.bind_leaving ran rfl)
  have ran := shadows g (Chronicle.extend { guarded := true } [enter])
    (Chronicle.extend { guarded := false } [enter]) live ⟨rfl, rfl, rfl⟩ ⟨rfl, rfl⟩
  have kept := level ⟨g, Chronicle.extend { guarded := true } [enter]⟩
  generalize hx : script ⟨g, Chronicle.extend { guarded := true } [enter]⟩ = rx at ran kept
  generalize hy : script ⟨g, Chronicle.extend { guarded := false } [enter]⟩ = ry at ran
  cases ran with
  | value v w' grown visits =>
    rw [whole true hx, whole false hy]
    exact .value v w' (kept trivial live).here.level visits
  | short o w' no_value underway =>
    rw [whole true hx, whole false hy, Chronicle.leaves_of_short no_value, List.append_nil,
      List.append_nil]
    exact .short o no_value underway

end Roteiro
