import Roteiro.Proofs.Eval.Fuel
import Roteiro.Proofs.Trace.Steady

/-!
Between two moments of a run there is only so much to do. An evaluator that is to be stopped after
some moments comes to its end, or it has come to an *idle* loop: a loop over a counter that has
neither limit nor step nor body, and shows nothing while it goes round (`Chronicle.settles`).

What is looked at are families of evaluations, one for each amount of fuel. The induction is on the
number of moments that are left. Each node that is evaluated takes one of them, so whatever goes
round for ever without a new moment has no node inside.
-/

namespace Roteiro

open Eval

variable {α β : Type}

/-! ### orderly families -/

/-- A family of evaluations, one for each amount of fuel, of which each goes on where the one before
is out of fuel. -/
def Eval.Rising (x : Nat → Eval Chronicle α) : Prop :=
  ∀ n, Extends (x n) (x (n + 1))

theorem Eval.Rising.const (x : Eval Chronicle α) : Rising fun _ => x :=
  fun _ => .refl x

/-- More fuel does not change an evaluation that has ended. -/
theorem Eval.Rising.eq_of_le {x : Nat → Eval Chronicle α} (h : Rising x) {n k : Nat} (le : n ≤ k)
    {m : Machine Chronicle} (ended : (x n m).1 ≠ .exhausted) : x k m = x n m := by
  induction le with
  | refl => rfl
  | @step k _ ih => exact (h k m (ih ▸ ended)).trans ih

theorem Eval.Rising.bind {x : Nat → Eval Chronicle α} {f : α → Nat → Eval Chronicle β}
    (hx : Rising x) (hf : ∀ a, Rising (f a)) : Rising fun n => x n >>= fun a => f a n :=
  fun n => Extends.bind (hx n) fun a => hf a n

/-- A rising family of clean and steady evaluations. -/
def Eval.Orderly (x : Nat → Eval Chronicle α) : Prop :=
  Rising x ∧ (∀ n, Clean (x n)) ∧ ∀ n, Steady (x n)

namespace Eval.Orderly

theorem placed : Placed fun _ {α} (x : Nat → Eval Chronicle α) => Orderly x :=
  (Placed.all fun n => Extends.congruent.placed (i := n) (j := n + 1)).and
    ((Placed.all fun n => Clean.congruent.placed (i := n) (j := n)).and (.all Steady.placed))

variable {x : Nat → Eval Chronicle α} (h : Orderly x)

include h

theorem rising : Rising x := h.1

theorem clean (n : Nat) : Clean (x n) := h.2.1 n

theorem steady (n : Nat) : Steady (x n) := h.2.2 n

end Eval.Orderly

theorem Eval.Orderly.capture {x : Nat → Eval Chronicle Value} (h : Orderly x) (node : Node)
    (c : ContextId) : Orderly fun n => Chronicle.observer.capture node c (x n) :=
  ⟨fun n => Extends.capture _ node c _ _ (h.1 n), fun n => (h.clean n).capture node c,
    fun n => (h.steady n).capture node c⟩

/-- Every function of an evaluator is orderly as a family. -/
theorem Chronicle.nested_orderly :
    Nested (fun _ _ {α} (x : Nat → Eval Chronicle α) => Orderly x) (fun _ => observer) fun n => n where
  evaluate held c := ⟨fun n => (Agree.extends observer (Nat.le_succ n)).evaluate _ c,
    fun n => (agree_clean n).evaluate _ c, fun n => (nested_steady n).evaluate held c⟩
  execute held c := ⟨fun n => (Agree.extends observer (Nat.le_succ n)).execute _ c,
    fun n => (agree_clean n).execute _ c, fun n => (nested_steady n).execute held c⟩
  whileRounds e ss span c :=
    ⟨fun n => (Agree.extends observer (Nat.le_succ n)).whileRounds e ss c,
      fun n => (agree_clean n).whileRounds e ss c,
      fun n => (nested_steady n).whileRounds e ss span c⟩
  countRounds counter first limit step ss span c :=
    ⟨fun n => (Agree.extends observer (Nat.le_succ n)).countRounds counter limit step ss c,
      fun n => (agree_clean n).countRounds counter limit step ss c,
      fun n => (nested_steady n).countRounds counter first limit step ss span c⟩
  eachRounds key value e ss span it c :=
    ⟨fun n => (Agree.extends observer (Nat.le_succ n)).eachRounds it key value e.span ss c,
      fun n => (agree_clean n).eachRounds it key value e.span ss c,
      fun n => (nested_steady n).eachRounds key value e ss span it c⟩

/-! ### ends -/

/-- A loop over a counter that has neither limit nor step nor body. -/
def Statement.Idle : Statement → Prop
  | countLoop _ _ none none [] _ => True
  | _ => False

/-- From some fuel on, all of a family are out of fuel after the same moments, and the innermost node
that is open is an idle loop. -/
def Eval.IdlesAt (x : Nat → Eval Chronicle α) (m : Machine Chronicle) : Prop :=
  ∃ fuel s t, s.Idle ∧ t.opened.head? = some (.statement s) ∧
    ∀ n, fuel ≤ n → ∃ w, x n m = (.exhausted, ⟨w, t⟩)

/-- With enough fuel a family ends, or it idles. -/
def Eval.EndsAt (x : Nat → Eval Chronicle α) (m : Machine Chronicle) : Prop :=
  (∃ n, (x n m).1 ≠ .exhausted) ∨ IdlesAt x m

namespace Eval.EndsAt

variable {m m' : Machine Chronicle}

theorem now {x : Eval Chronicle α} (h : (x m).1 ≠ .exhausted) : EndsAt (fun _ => x) m :=
  .inl ⟨0, h⟩

theorem of_eq {x y : Nat → Eval Chronicle α} (same : ∀ n, x n m = y n m') (h : EndsAt y m') :
    EndsAt x m := by
  rcases h with ⟨n, ended⟩ | ⟨fuel, s, t, idle, top, out⟩
  · exact .inl ⟨n, by rw [same]; exact ended⟩
  · exact .inr ⟨fuel, s, t, idle, top, fun n le => by rw [same]; exact out n le⟩

/-- Fuel may be counted from one on. -/
theorem of_succ {x : Nat → Eval Chronicle α} (h : EndsAt (fun n => x (n + 1)) m) : EndsAt x m := by
  rcases h with ⟨n, ended⟩ | ⟨fuel, s, t, idle, top, out⟩
  · exact .inl ⟨n + 1, ended⟩
  · refine .inr ⟨fuel + 1, s, t, idle, top, fun n le => ?_⟩
    obtain ⟨k, rfl⟩ : ∃ k, n = k + 1 := ⟨n - 1, by omega⟩
    exact out k (by omega)

theorem perform (span : Span) (f : Effect α) : EndsAt (fun _ => Eval.perform span f) m := by
  refine now ?_
  unfold Eval.perform
  rcases f m.world with ⟨fault | a, w⟩
  · simp
  · simp

theorem bind {x : Nat → Eval Chronicle α} {f : α → Nat → Eval Chronicle β} (hx : Rising x)
    (hf : ∀ a, Rising (f a)) (ends : EndsAt x m)
    (later : ∀ n a m', x n m = (.ok a, m') → EndsAt (f a) m') :
    EndsAt (fun n => x n >>= fun a => f a n) m := by
  rcases ends with ⟨n, ended⟩ | ⟨fuel, s, t, idle, top, out⟩
  · have more := fun k (le : n ≤ k) => hx.eq_of_le le ended
    rcases ran : x n m with ⟨a | e | _ | _, m'⟩
    · have begun : ∀ k, n ≤ k → (x k >>= fun a => f a k) m = f a k m' :=
        fun k le => bind_ok ((more k le).trans ran)
      rcases later n a m' ran with ⟨k, ended'⟩ | ⟨fuel, s, t, idle, top, out⟩
      · -- Fuel for both is enough for one after the other.
        refine .inl ⟨max n k, ?_⟩
        dsimp only
        rw [begun _ (Nat.le_max_left n k), (hf a).eq_of_le (Nat.le_max_right n k) ended']
        exact ended'
      · refine .inr ⟨max n fuel, s, t, idle, top, fun j le => ?_⟩
        dsimp only
        rw [begun j (by omega)]
        exact out j (by omega)
    · exact .inl ⟨n, by dsimp only; rw [bind_error ran]; simp⟩
    · rw [ran] at ended
      exact absurd rfl ended
    · exact .inl ⟨n, by dsimp only; rw [bind_aborted ran]; simp⟩
  · refine .inr ⟨fuel, s, t, idle, top, fun n le => ?_⟩
    obtain ⟨w, ran⟩ := out n le
    exact ⟨w, bind_exhausted ran⟩

theorem change {x : Nat → Eval Chronicle α} {f : World → World}
    (ends : EndsAt x ⟨f m.world, m.watch⟩) :
    EndsAt (fun n => Eval.change f >>= fun _ => x n) m :=
  .of_eq (fun _ => rfl) ends

/-- If no level is left for a scope, an evaluation in it has ended. -/
theorem openScope {x : Nat → Eval Chronicle α} {c : ContextId}
    (ends : EndsAt x ⟨m.world.enterScope c, m.watch⟩) :
    EndsAt (fun n => Eval.openScope c >>= fun _ => x n) m := by
  cases full : (m.world.context c).full with
  | true =>
    refine .inl ⟨0, ?_⟩
    dsimp only
    rw [bind_aborted (openScope_of_full full)]
    exact nofun
  | false => exact .of_eq (fun _ => bind_ok (openScope_of_free full)) ends

theorem closing {x : Nat → Eval Chronicle α} {close : Effect β} (span : Span)
    (ends : EndsAt x m) : EndsAt (fun n => Eval.closing span (x n) close) m := by
  have closed : ∀ n r, x n m = r →
      Eval.closing span (x n) close m = Eval.closing span (fun _ => r) close m := by
    rintro n _ rfl
    rfl
  rcases ends with ⟨n, ended⟩ | ⟨fuel, s, t, idle, top, out⟩
  · refine .inl ⟨n, ?_⟩
    dsimp only
    rw [closed n _ rfl]
    generalize x n m = r at ended ⊢
    rcases r with ⟨a | e | _ | _, m'⟩
    · unfold Eval.closing Eval.perform
      dsimp only
      rcases close m'.world with ⟨fault | b, w⟩
      · simp
      · simp
    · exact nofun
    · exact absurd rfl ended
    · exact nofun
  · refine .inr ⟨fuel, s, t, idle, top, fun n le => ?_⟩
    obtain ⟨w, ran⟩ := out n le
    exact ⟨_, closed n _ ran⟩

/-- A node is shown, and then it is evaluated unless the evaluation is stopped. -/
theorem capture {x : Nat → Eval Chronicle Value} (hx : Rising x) {node : Node} {c : ContextId}
    {w : World} {t : Chronicle} (again : t.refuses node = true → EndsAt x ⟨w, t⟩)
    (inside : t.refuses node = false → (t.add (.enter node c w)).stopped = false →
      EndsAt x ⟨w, t.add (.enter node c w)⟩) :
    EndsAt (fun n => Chronicle.observer.capture node c (x n)) ⟨w, t⟩ := by
  let rest (taken : Bool) (n : Nat) : Eval Chronicle Value := x n >>= fun v =>
    if taken then Chronicle.observer.leaving node.span c v else Eval.pure v
  have ends : ∀ taken m, EndsAt x m → EndsAt (rest taken) m := by
    intro taken m ends
    refine bind hx (fun v => .const _) ends fun n v m' _ => now ?_
    cases taken with
    | true =>
      rw [if_pos rfl]
      unfold Observer.leaving
      split
      · simp
      · simp
    | false => exact nofun
  have shown : ∀ n, Chronicle.observer.capture node c (x n) =
      Chronicle.observer.entering node c >>= fun taken => rest taken n :=
    fun n => Observer.capture_eq _ _ _ _
  cases refused : t.refuses node with
  | true =>
    refine of_eq (fun n => ?_) (ends false _ (again refused))
    rw [shown n, bind_ok (t.entering_refused node c w refused)]
  | false =>
    cases stops : (t.add (.enter node c w)).stopped with
    | true =>
      refine .inl ⟨0, ?_⟩
      dsimp only
      rw [shown 0, bind_error (t.entering_stopped node c w refused stops)]
      simp
    | false =>
      refine of_eq (fun n => ?_) (ends true _ (inside refused stops))
      rw [shown n, bind_ok (t.entering_taken node c w refused stops)]

end Eval.EndsAt

/-! ### moments that are left -/

/-- An evaluator is at work on a node in a tidy world, and is to be stopped after at most so many
moments more. -/
structure Machine.Ready (left : Nat) (N : Node) (m : Machine Chronicle) : Prop where
  tidy : m.world.Tidy
  running : m.watch.Running
  top : m.watch.opened.head? = some N
  stop : ∃ k, m.watch.stopAt = some k ∧ k ≤ m.watch.moments.length + left

namespace Machine.Ready

variable {left left' : Nat} {N : Node} {m m' : Machine Chronicle}

/-- There is a moment left. -/
theorem pos (h : m.Ready left N) : 0 < left := by
  obtain ⟨k, stopAt, le⟩ := h.stop
  have := h.running k stopAt
  omega

/-- Contexts may change. -/
theorem of_eq (h : m.Ready left N) (watch : m'.watch = m.watch)
    (heap : m'.world.heap = m.world.heap) : m'.Ready left N where
  tidy := by
    unfold World.Tidy
    rw [heap]
    exact h.tidy
  running := watch ▸ h.running
  top := watch ▸ h.top
  stop := watch ▸ h.stop

/-- An evaluation that has ended with a value is followed by another one for the same node, with the
moments that it has left. -/
theorem after (h : m.Ready left N) {x : Eval Chronicle α} (clean : Clean x) (steady : Steady x)
    {a : α} (ran : x m = (.ok a, m'))
    (spent : m.watch.moments.length + left ≤ m'.watch.moments.length + left') :
    m'.Ready left' N := by
  have leaves := clean m h.running
  have kept := steady m
  rw [ran] at leaves kept
  cases leaves with
  | value _ _ running closed =>
    obtain ⟨k, stopAt, le⟩ := h.stop
    exact ⟨kept.tidy h.tidy, running, by rw [closed]; exact h.top, k, kept.stopAt.trans stopAt,
      Nat.le_trans le spent⟩
  | short _ _ _ no_value => exact absurd rfl (no_value a)

/-- A node that was taken has used up a moment. -/
theorem enter {w : World} {t : Chronicle} (tidy : w.Tidy) (running : t.Running) {k : Nat}
    (stopAt : t.stopAt = some k) (le : k ≤ t.moments.length + (left + 1)) {node : Node}
    {c : ContextId} (goes : (t.add (.enter node c w)).stopped = false) :
    Ready left node ⟨w, t.add (.enter node c w)⟩ where
  tidy := tidy
  running := running.add goes
  top := by
    rw [Chronicle.opened_add]
    rfl
  stop := ⟨k, stopAt, by rw [Chronicle.length_moments_add]; omega⟩

end Machine.Ready

/-! ### settled families -/

/-- At work on a node, a family ends or idles as long as it is to be stopped after at most so many
moments more. -/
structure Eval.Settles (left : Nat) (N : Node) (x : Nat → Eval Chronicle α) : Prop where
  orderly : Orderly x
  ends : ∀ m : Machine Chronicle, m.Ready left N → EndsAt x m

namespace Eval.Settles

variable {left : Nat} {N node : Node}

theorem bind {x : Nat → Eval Chronicle α} {f : α → Nat → Eval Chronicle β} (hx : Settles left N x)
    (hf : ∀ a, Settles left N (f a)) : Settles left N fun n => x n >>= fun a => f a n where
  orderly := (Orderly.placed.fit 0).bind hx.orderly fun a => (hf a).orderly
  ends m ready := .bind hx.orderly.rising (fun a => (hf a).orderly.rising) (hx.ends m ready)
    fun n a m' ran => (hf a).ends m' <| ready.after (hx.orderly.clean n) (hx.orderly.steady n) ran <| by
      have kept := hx.orderly.steady n m
      rw [ran] at kept
      exact Nat.add_le_add_right kept.later left

/-- To settle goes through every step of the evaluator. -/
theorem placed (left : Nat) (N : Node) :
    Placed fun _ {α} (x : Nat → Eval Chronicle α) => Settles left N x where
  fit c :=
    have fits := Orderly.placed.fit c
    { pure := fun a => ⟨fits.pure a, fun _ _ => .now nofun⟩
      bind := bind
      raise := fun fault span => ⟨fits.raise fault span, fun _ _ => .now nofun⟩
      aborted := ⟨fits.aborted, fun _ _ => .now nofun⟩
      key := fun v => ⟨fits.key v, fun _ _ => .now nofun⟩
      perform := fun span plain => ⟨fits.perform span plain, fun _ _ => .perform span _⟩ }
  ask c f := ⟨Orderly.placed.ask c f, fun _ _ => .now nofun⟩
  newArray c items := ⟨Orderly.placed.newArray c items, fun _ _ => .now nofun⟩
  newDictionary c l := ⟨Orderly.placed.newDictionary c l, fun _ _ => .now nofun⟩
  newFunction c f := ⟨Orderly.placed.newFunction c f, fun _ _ => .now nofun⟩
  perform c span simple := ⟨Orderly.placed.perform c span simple, fun _ _ => .perform span _⟩
  inScope span hx := ⟨Orderly.placed.inScope span hx.orderly,
    fun m ready => .openScope (.closing span (hx.ends _ (ready.of_eq rfl rfl)))⟩
  inRound span hx := ⟨Orderly.placed.inRound span hx.orderly,
    fun m ready => .openScope (.change (.closing span (hx.ends _ (ready.of_eq rfl rfl))))⟩
  inCall {_ x} c parent span hx :=
    { orderly := Orderly.placed.inCall c parent span fun d => (hx d).orderly
      ends := fun m ready => by
        let d := m.world.contexts.size
        have called : EndsAt (fun n => Eval.change (World.update d Context.pushCall) >>= fun _ =>
            Eval.closing span (x d n) (World.popCall d)) ⟨(m.world.newChild parent).2, m.watch⟩ :=
          .change (.closing span ((hx d).ends _ (ready.of_eq rfl rfl)))
        exact called }

/-- A node that is shown again takes nothing from what is inside. -/
theorem capture {x : Nat → Eval Chronicle Value} (h : Settles left node x) (c : ContextId) :
    Settles left node fun n => Chronicle.observer.capture node c (x n) where
  orderly := h.orderly.capture node c
  ends := by
    rintro ⟨w, t⟩ ready
    refine .capture h.orderly.rising (fun _ => h.ends _ ready) fun _ goes => ?_
    obtain ⟨k, stopAt, le⟩ := ready.stop
    exact h.ends _ (.enter ready.tidy ready.running stopAt (Nat.le_succ_of_le le) goes)

theorem captureTimes {x : Nat → Eval Chronicle Value} (h : Settles left node x) (c : ContextId)
    (times : Nat) :
    Settles left node fun n => Chronicle.observer.captureTimes times node c (x n) := by
  induction times with
  | zero => exact h
  | succ times ih => exact ih.capture c

/-- **A node that is held takes a moment**, so what is inside has one less. -/
theorem shown {x : Nat → Eval Chronicle Value} (h : Settles left node x) (held : N.Holds node)
    (c : ContextId) :
    Settles (left + 1) N fun n => Chronicle.observer.capture node c (x n) where
  orderly := h.orderly.capture node c
  ends := by
    rintro ⟨w, t⟩ ready
    refine .capture h.orderly.rising (fun refused => ?_) fun _ goes => ?_
    · cases refused.symm.trans (Chronicle.takes_of_held ready.top held)
    · obtain ⟨k, stopAt, le⟩ := ready.stop
      exact h.ends _ (.enter ready.tidy ready.running stopAt le goes)

end Eval.Settles

/-! ### loops -/

namespace Chronicle

/-- A loop without a limit goes on after each round. -/
theorem countRounds_unlimited (fuel : Nat) (counter : Ident) (step : Option Assignment)
    (ss : List Statement) (c : ContextId) :
    countRounds observer (fuel + 1) counter none step ss c =
      (Eval.round (fun s => execute observer fuel s c) c counter.span ss
          (step.map (Eval.assign (fun e => evaluate observer fuel e c) c)) >>= fun again =>
        if again then countRounds observer fuel counter none step ss c else pure ()) := by
  rw [countRounds]
  rfl

/-- An idle loop goes round without a new moment, however much fuel there is. -/
theorem countRounds_idle (counter : Ident) {c : ContextId} (t : Chronicle) (fuel : Nat) :
    ∀ w : World, c < w.contexts.size → (w.context c).hasReturned = false →
      (w.context c).full = false →
      ∃ w', countRounds observer fuel counter none none [] c ⟨w, t⟩ = (.exhausted, ⟨w', t⟩) := by
  induction fuel with
  | zero =>
    intro w _ _ _
    exact ⟨w, by rw [countRounds]; rfl⟩
  | succ fuel ih =>
    intro w live unreturned free
    obtain ⟨o, w', ran, rounded, here, _⟩ :=
      round_nil (fun s => execute observer fuel s c) c counter.span none w t (.inl rfl) free
    obtain ⟨goes, level⟩ := here live
    rw [unreturned] at goes
    subst goes
    have again : countRounds observer (fuel + 1) counter none none [] c ⟨w, t⟩ =
        countRounds observer fuel counter none none [] c ⟨w', t⟩ := by
      rw [countRounds_unlimited]
      exact bind_ok ran
    rw [again]
    refine ih w' (by rw [rounded.size]; exact live) ?_ ?_
    · unfold Context.hasReturned at unreturned ⊢
      rw [rounded.calls]
      exact unreturned
    · unfold Context.full at free ⊢
      rw [level]
      exact free

/-- A loop with nothing in it idles, unless it ends in its first round. -/
theorem countRounds_empty (counter : Ident) (first : Option Expression) (span : Span)
    (c : ContextId) {m : Machine Chronicle}
    (top : m.watch.opened.head? = some (.statement (.countLoop counter first none none [] span))) :
    EndsAt (fun n => countRounds observer n counter none none [] c) m := by
  obtain ⟨w, t⟩ := m
  cases free : (w.context c).full with
  | true =>
    refine .of_succ (.inl ⟨0, ?_⟩)
    dsimp only
    rw [countRounds_unlimited, bind_aborted (round_of_full _ counter.span [] _ free)]
    exact nofun
  | false =>
  by_cases idle : c < w.contexts.size ∧ (w.context c).hasReturned = false
  · have never : Statement.Idle (.countLoop counter first none none [] span) := trivial
    exact .inr ⟨0, _, t, never, top, fun n _ => countRounds_idle counter t n w idle.1 idle.2 free⟩
  · refine .of_succ (.inl ⟨0, ?_⟩)
    obtain ⟨o, w', ran, _, here, gone⟩ :=
      round_nil (fun s => execute observer 0 s c) c counter.span none w t (.inl rfl) free
    dsimp only
    rw [countRounds_unlimited, Option.map_none]
    by_cases live : c < w.contexts.size
    · have returned : (w.context c).hasReturned = true := by simpa [live] using idle
      have ended := (here live).1
      rw [returned] at ended
      subst ended
      rw [bind_ok ran]
      exact nofun
    · obtain ⟨e, rfl⟩ := gone live
      rw [bind_error ran]
      exact nofun

section Each

variable {key value : Ident} {span : Span} {ss : List Statement} {c : ContextId}
  {it next : Iteration} {m : Machine Chronicle}

/-- A loop over a collection goes on after a round. -/
theorem rising_again (again : Bool) : Rising fun n =>
    if again then eachRounds observer n next key value span ss c else pure () := by
  cases again with
  | true => exact fun n => (Agree.extends observer (Nat.le_succ n)).eachRounds next key value span ss c
  | false => exact .const _

theorem rising_round : Rising fun n =>
    Eval.round (fun s => execute observer n s c) c span ss none :=
  (Orderly.placed.round (x := fun s n => execute observer n s c) c span
    (fun s _ => nested_orderly.execute (N := .statement (.block [s] s.span))
      (.inner (List.mem_singleton_self s)) c) none (by simp)).rising

theorem eachRounds_of_none (advanced : m.world.heap.advance it = (none, next)) :
    EndsAt (fun n => eachRounds observer n it key value span ss c) m := by
  have ended : EndsAt (fun _ => (Eval.pure () : Eval Chronicle Unit)) m := .now nofun
  refine .of_succ (ended.of_eq fun n => ?_)
  have asked : Eval.ask (fun w => w.heap.advance it) m = (.ok (none, next), m) :=
    congrArg (fun r => (Outcome.ok r, m)) advanced
  simp only [eachRounds]
  rw [bind_ok asked]
  rfl

/-- A loop over a collection ends if the round for the next entry does, with what comes after it. The
entry is assigned before, which changes contexts only. -/
theorem eachRounds_of_round {k v : Value}
    (advanced : m.world.heap.advance it = (some (k, v), next))
    (ends : ∀ m' : Machine Chronicle, m'.watch = m.watch → m'.world.heap = m.world.heap →
      EndsAt (fun n => Eval.round (fun s => execute observer n s c) c span ss none >>= fun again =>
        if again then eachRounds observer n next key value span ss c else pure ()) m') :
    EndsAt (fun n => eachRounds observer n it key value span ss c) m := by
  have assigned : ∀ {span : Span} {name : String} {v : Value} {m m' : Machine Chronicle},
      Eval.perform span (World.assign c name v) m = (.ok (), m') →
      m'.watch = m.watch ∧ m'.world.heap = m.world.heap := by
    intro span name v m m' ran
    obtain ⟨done, watch⟩ := of_perform_ok ran
    have kept : (World.assign c name v m.world).2.heap = m.world.heap := World.heap_onContexts _ _
    rw [done] at kept
    exact ⟨watch, kept⟩
  let tail (n : Nat) : Eval Chronicle Unit :=
    Eval.round (fun s => execute observer n s c) c span ss none >>= fun again =>
      if again then eachRounds observer n next key value span ss c else pure ()
  have rising : Rising tail := rising_round.bind rising_again
  have asked : Eval.ask (fun w => w.heap.advance it) m = (.ok (some (k, v), next), m) :=
    congrArg (fun r => (Outcome.ok r, m)) advanced
  have entered : EndsAt (fun n => Eval.perform key.span (World.assign c key.text k) >>= fun _ =>
      Eval.perform value.span (World.assign c value.text v) >>= fun _ => tail n) m := by
    refine .bind (.const _) (fun _ => (Rising.const _).bind fun _ => rising) (.perform _ _) ?_
    intro _ _ m₁ ran₁
    refine .bind (.const _) (fun _ => rising) (.perform _ _) ?_
    intro _ _ m₂ ran₂
    obtain ⟨watch₁, heap₁⟩ := assigned ran₁
    obtain ⟨watch₂, heap₂⟩ := assigned ran₂
    exact ends m₂ (watch₂.trans watch₁) (heap₂.trans heap₁)
  refine .of_succ (entered.of_eq fun n => ?_)
  simp only [eachRounds]
  rw [bind_ok asked]

end Each

/-- A loop over a collection without a body comes to the end of the collection. -/
theorem eachRounds_nil (key value : Ident) (span : Span) (c : ContextId) {h : Heap} {it : Iteration}
    (runsOut : h.RunsOut it) (m : Machine Chronicle) (same : m.world.heap = h) :
    EndsAt (fun n => eachRounds observer n it key value span [] c) m := by
  induction runsOut generalizing m with
  | @step it later ih =>
    subst same
    rcases advanced : m.world.heap.advance it with ⟨entry, next⟩
    cases entry with
    | none => exact eachRounds_of_none advanced
    | some entry =>
      have later := ih entry (congrArg Prod.fst advanced)
      rw [advanced] at later
      refine eachRounds_of_round advanced fun ⟨w, t⟩ _ heap => ?_
      cases free : (w.context c).full with
      | true =>
        have breaks := fun n =>
          round_of_full (fun s => execute observer n s c) span [] none (m := ⟨w, t⟩) free
        refine .bind rising_round rising_again (.inl ⟨0, ?_⟩) fun n again m' ran => ?_
        · dsimp only
          rw [breaks 0]
          exact nofun
        · exact nomatch (breaks n).symm.trans ran
      | false =>
      have nothing := fun n =>
        round_nil (fun s => execute observer n s c) c span none w t (.inl rfl) free
      refine .bind rising_round rising_again (.inl ⟨0, ?_⟩) fun n again m' ran => ?_
      · obtain ⟨o, w', ran, _, here, gone⟩ := nothing 0
        dsimp only
        rw [ran]
        by_cases live : c < w.contexts.size
        · rw [(here live).1]
          simp
        · obtain ⟨e, failed⟩ := gone live
          rw [failed]
          simp
      · obtain ⟨o, w', same, rounded, _⟩ := nothing n
        rw [same] at ran
        cases ran
        cases again with
        | false => exact .now nofun
        | true => exact later _ (rounded.heap.trans heap)

end Chronicle

/-! ### the evaluator settles -/

namespace Chronicle

variable {left : Nat}

/-- A node that is shown leads to what is settled with one moment more. -/
theorem captures_settle (left : Nat) :
    Nested.Captures (fun N _ {α} (x : Nat → Eval Chronicle α) => Settles left N x)
      (fun N _ {α} (x : Nat → Eval Chronicle α) => Settles (left + 1) N x) (fun _ => observer)
      fun n => n where
  expression {N e c x} held shown settles := by
    obtain ⟨times, captures⟩ : ∃ n, e.captures = n + 1 :=
      ⟨e.captures - 1, (Nat.sub_add_cancel (Node.expression e).captures_pos).symm⟩
    have again := (settles.captureTimes c times).shown held c
    have same : (fun n => evaluate observer (n + 1) e c) = fun n =>
        observer.capture (.expression e) c (observer.captureTimes times (.expression e) c (x n)) := by
      funext n
      rw [shown n, captures]
      rfl
    exact same ▸ again
  statement {N s c x} held shown settles := by
    have same : (fun n => execute observer (n + 1) s c) = fun n =>
        observer.capture (.statement s) c (x n) := funext shown
    exact same ▸ settles.shown held c

end Chronicle

/-- What is left to do after an evaluation that has taken a moment. -/
theorem Machine.Ready.spent {left : Nat} {N : Node} {m m' : Machine Chronicle}
    (h : m.Ready (left + 1) N) {x : Nat → Eval Chronicle α} (orderly : Orderly x) {n : Nat} {a : α}
    (ran : x n m = (.ok a, m'))
    (spent : m.watch.moments.length < m'.watch.moments.length) : m'.Ready left N :=
  h.after (orderly.clean n) (orderly.steady n) ran (by omega)

namespace Chronicle

section Loops

/-- With one moment less everything is settled, and with it expressions and statements are. -/
structure Settling (left : Nat) : Prop where
  less : Nested (fun N _ {α} (x : Nat → Eval Chronicle α) => Settles left N x) (fun _ => observer)
    fun n => n
  evaluate : ∀ {N : Node} {e : Expression}, N.Holds (.expression e) → ∀ c,
    Settles (left + 1) N fun n => Roteiro.evaluate observer n e c
  execute : ∀ {N : Node} {s : Statement}, N.Holds (.statement s) → ∀ c,
    Settles (left + 1) N fun n => Roteiro.execute observer n s c

variable {left : Nat} (h : Settling left)

include h

/-- Each round evaluates the condition. -/
theorem Settling.whileRounds (e : Expression) (ss : List Statement) (span : Span) (c : ContextId) :
    Settles (left + 1) (.statement (.whileLoop e ss span)) fun n =>
      Roteiro.whileRounds observer n e ss c where
  orderly := nested_orderly.whileRounds e ss span c
  ends m ready := by
    have held : Node.Holds (.statement (.whileLoop e ss span)) (.expression e) :=
      .part (List.mem_singleton_self e)
    have first := h.evaluate held c
    have rest := h.less.whileRounds_after (Settles.placed left) e ss span c
    refine .of_succ ?_
    simp only [Roteiro.whileRounds]
    refine .bind first.orderly.rising (fun v => (rest v).orderly.rising) (first.ends m ready) ?_
    intro n v m' ran
    exact (rest v).ends m' (ready.spent first.orderly ran
      (evaluate_spends held n c m m' v ready.top ran))

/-- A loop with a limit evaluates it in each round. -/
theorem Settling.countRounds_limit (counter : Ident) (first : Option Expression) (e : Expression)
    (step : Option Assignment) (ss : List Statement) (span : Span) (c : ContextId)
    {m : Machine Chronicle}
    (ready : m.Ready (left + 1) (.statement (.countLoop counter first (some e) step ss span))) :
    EndsAt (fun n => Roteiro.countRounds observer n counter (some e) step ss c) m := by
  have held : Node.Holds (.statement (.countLoop counter first (some e) step ss span))
      (.expression e) := .part (by simp [Statement.parts])
  have limit := h.evaluate held c
  have fits := (Settles.placed left
    (.statement (.countLoop counter first (some e) step ss span))).fit c
  have after := h.less.countRounds_after (Settles.placed left) counter first (some e) step ss span c
  have rest := fun v => fits.bind (fits.perform counter.span (.lookup c counter.text)) fun current =>
    fits.bind (fits.require e.span (shortOf current v)) after
  refine .of_succ ?_
  simp only [Roteiro.countRounds]
  refine .bind limit.orderly.rising (fun v => (rest v).orderly.rising) (limit.ends m ready) ?_
  intro n v m' ran
  exact (rest v).ends m' (ready.spent limit.orderly ran
    (evaluate_spends held n c m m' v ready.top ran))

/-- A loop without a limit shows what is in its body or its step, if there is something. -/
theorem Settling.countRounds_filled (counter : Ident) (first : Option Expression)
    (step : Option Assignment) (ss : List Statement) (span : Span) (c : ContextId)
    (filled : ss ≠ [] ∨ step ≠ none) {m : Machine Chronicle}
    (ready : m.Ready (left + 1) (.statement (.countLoop counter first none step ss span))) :
    EndsAt (fun n => Roteiro.countRounds observer n counter none step ss c) m := by
  let N : Node := .statement (.countLoop counter first none step ss span)
  have inner : ∀ s ∈ ss, N.Holds (.statement s) := fun s member => .inner member
  have part : ∀ e ∈ step.toList.flatMap Assignment.parts, N.Holds (.expression e) :=
    fun e member => .part (List.mem_append_right _ member)
  have turn := (Settles.placed (left + 1) N).turn c counter.span
    (fun s member => h.execute (inner s member) c) fun e member => h.evaluate (part e member) c
  have again := h.less.countRounds counter first none step ss span c
  have rising : ∀ goes : Bool, Rising fun n =>
      if goes then Roteiro.countRounds observer n counter none step ss c else pure () := by
    intro goes
    cases goes with
    | true => exact again.orderly.rising
    | false => exact .const _
  refine .of_succ ?_
  simp only [countRounds_unlimited]
  refine .bind turn.orderly.rising rising (turn.ends m ready) fun n goes m' ran => ?_
  cases goes with
  | false => exact .now nofun
  | true =>
    refine again.ends m' (ready.spent turn.orderly ran ?_)
    refine round_spends (N := N) (fun s member => ?_) (fun a member => ?_) ?_ ready.top ran
    · exact ⟨(h.execute (inner s member) c).orderly.steady n, execute_spends (inner s member) n c⟩
    · obtain ⟨a, found, rfl⟩ := Option.map_eq_some_iff.1 member
      have parts : ∀ e ∈ a.parts, N.Holds (.expression e) := fun e he => part e (by simp [found, he])
      have steady : ∀ e ∈ a.parts, Steady (Roteiro.evaluate observer n e c) :=
        fun e he => (h.evaluate (parts e he) c).orderly.steady n
      refine ⟨?_, .assign c steady fun e he => evaluate_spends (parts e he) n c⟩
      exact ((Steady.placed ()).fit c).assign (x := fun e _ => Roteiro.evaluate observer n e c) c steady
    · rcases filled with body | stepped
      · exact .inl body
      · exact .inr (by simpa using stepped)

theorem Settling.countRounds (counter : Ident) (first limit : Option Expression)
    (step : Option Assignment) (ss : List Statement) (span : Span) (c : ContextId) :
    Settles (left + 1) (.statement (.countLoop counter first limit step ss span)) fun n =>
      Roteiro.countRounds observer n counter limit step ss c where
  orderly := nested_orderly.countRounds counter first limit step ss span c
  ends m ready := by
    cases limit with
    | some e => exact h.countRounds_limit counter first e step ss span c ready
    | none =>
      by_cases filled : ss ≠ [] ∨ step ≠ none
      · exact h.countRounds_filled counter first step ss span c filled ready
      · obtain ⟨rfl, rfl⟩ : ss = [] ∧ step = none := by simpa using filled
        exact countRounds_empty counter first span c ready.top

/-- A loop over a collection shows what is in its body, or comes to the end of the collection. -/
theorem Settling.eachRounds (key value : Ident) (e : Expression) (ss : List Statement) (span : Span)
    (it : Iteration) (c : ContextId) :
    Settles (left + 1) (.statement (.eachLoop key value e ss span)) fun n =>
      Roteiro.eachRounds observer n it key value e.span ss c where
  orderly := nested_orderly.eachRounds key value e ss span it c
  ends m ready := by
    by_cases filled : ss = []
    · subst filled
      exact eachRounds_nil key value e.span c (ready.tidy.runsOut it) m rfl
    · let N : Node := .statement (.eachLoop key value e ss span)
      have inner : ∀ s ∈ ss, N.Holds (.statement s) := fun s member => .inner member
      have round := (Settles.placed (left + 1) N).round c e.span
        (fun s member => h.execute (inner s member) c) none (by simp)
      rcases advanced : m.world.heap.advance it with ⟨entry, next⟩
      cases entry with
      | none => exact eachRounds_of_none advanced
      | some entry =>
        refine eachRounds_of_round advanced fun m₁ watch heap => ?_
        have ready₁ : m₁.Ready (left + 1) N := ready.of_eq watch heap
        refine .bind round.orderly.rising rising_again (round.ends m₁ ready₁) fun n goes m' ran => ?_
        cases goes with
        | false => exact .now nofun
        | true =>
          refine (h.less.eachRounds key value e ss span next c).ends m'
            (ready₁.spent round.orderly ran ?_)
          refine round_spends (N := N) (fun s member => ?_) (by simp) (.inl filled) ready₁.top ran
          exact ⟨(h.execute (inner s member) c).orderly.steady n, execute_spends (inner s member) n c⟩

end Loops

/-- **Every function of an evaluator settles**, by induction on the moments that are left. -/
theorem settles (left : Nat) :
    Nested (fun N _ {α} (x : Nat → Eval Chronicle α) => Settles left N x) (fun _ => observer)
      fun n => n := by
  induction left with
  | zero =>
    have never : ∀ {α : Type} {N : Node} {x : Nat → Eval Chronicle α}, Orderly x → Settles 0 N x :=
      fun orderly => ⟨orderly, fun m ready => absurd ready.pos (Nat.lt_irrefl 0)⟩
    exact
      { evaluate := fun held c => never (nested_orderly.evaluate held c)
        execute := fun held c => never (nested_orderly.execute held c)
        whileRounds := fun e ss span c => never (nested_orderly.whileRounds e ss span c)
        countRounds := fun counter first limit step ss span c =>
          never (nested_orderly.countRounds counter first limit step ss span c)
        eachRounds := fun key value e ss span it c =>
          never (nested_orderly.eachRounds key value e ss span it c) }
  | succ left ih =>
    have h : Settling left :=
      { less := ih
        evaluate := fun held c => ⟨nested_orderly.evaluate held c, fun m ready => .of_succ
          ((ih.evaluate_succ (Settles.placed left) (captures_settle left) held c).ends m ready)⟩
        execute := fun held c => ⟨nested_orderly.execute held c, fun m ready => .of_succ
          ((ih.execute_succ (Settles.placed left) (captures_settle left) held c).ends m ready)⟩ }
    exact ⟨h.evaluate, h.execute, h.whileRounds, h.countRounds, h.eachRounds⟩

end Chronicle

/-! ### runs -/

/-- **A run that is to be stopped ends, or it idles.** -/
theorem Program.endsAt (p : Program) (guarded : Bool) {w : World} (tidy : w.Tidy) {k : Nat}
    (pos : 0 < k) :
    EndsAt (fun n => Session.rest Chronicle.observer n { program := p, context := w.newGlobal.1 })
      ⟨w.newGlobal.2, { guarded, stopAt := some k }⟩ := by
  let t : Chronicle := { guarded, stopAt := some k }
  let c := w.newGlobal.1
  have running : t.Running := by
    intro j same
    cases same
    exact pos
  have inside : Settles (k - 1) (.program p) fun n =>
      runStatements (fun st => execute Chronicle.observer n st c) .null p.statements :=
    ((Settles.placed (k - 1) (.program p)).fit c).runStatements
      (x := fun st n => execute Chronicle.observer n st c) .null fun st member =>
        (Chronicle.settles (k - 1)).execute (.script member) c
  refine .capture inside.orderly.rising (fun refused => ?_) fun _ goes => ?_
  · have takes : t.refuses (.program p) = false := by
      change (guarded && _) = false
      cases guarded with
      | true => rfl
      | false => rfl
    cases refused.symm.trans takes
  · exact inside.ends _ (.enter tidy.newGlobal running rfl
      (by change k ≤ 0 + (k - 1 + 1); omega) goes)

end Roteiro
