import Roteiro.Proofs.Eval.Balance
import Roteiro.Proofs.Eval.Fallback
import Roteiro.Proofs.Eval.Faults
import Roteiro.Proofs.World.Standing

/-!
The evaluator's failure branches are not reached. In a context that can be reached, with a scope
open, all that the evaluator relies on holds, whatever the script does in between: frames are there
when they are closed, the names of a loop are known in every round, and no operator reaches the end
of the cascade. So no fallback is ever tried, and with any fallback all runs are the same
(`Observer.Silent.unfailing`).
-/

namespace Roteiro

open Eval World

variable {σ α β : Type}

/-! ### evaluations that are the same in some worlds -/

/-- Two evaluations are the same in the worlds of which `P` holds. -/
def Eval.SameOn (P : World → Prop) (x y : Eval σ α) : Prop :=
  ∀ m, P m.world → y m = x m

namespace Eval.SameOn

variable {P : World → Prop}

theorem refl (x : Eval σ α) : SameOn P x x := fun _ _ => rfl

theorem mono {Q : World → Prop} {x y : Eval σ α} (h : SameOn Q x y) (sub : ∀ {w}, P w → Q w) :
    SameOn P x y :=
  fun m holds => h m (sub holds)

/-- What comes after is the same in the worlds that the first part leaves. -/
theorem bind {Q : α → World → Prop} {x y : Eval σ α} {f g : α → Eval σ β} (hx : SameOn P x y)
    (leaves : ∀ m a m', P m.world → x m = (.ok a, m') → Q a m'.world)
    (hf : ∀ a, SameOn (Q a) (f a) (g a)) : SameOn P (x >>= f) (y >>= g) := by
  intro m holds
  change Eval.bind y g m = Eval.bind x f m
  unfold Eval.bind
  rw [hx m holds]
  rcases ran : x m with ⟨a | e | _ | _, m'⟩
  · exact hf a m' (leaves m a m' holds ran)
  · rfl
  · rfl
  · rfl

theorem expect (span : Span) {f : Effect α} (done : ∀ w, P w → ∃ a w', f w = (.ok a, w'))
    (otherwise : RuntimeError → Eval σ α) :
    SameOn P (Eval.perform span f) (Eval.expect span f otherwise) := by
  intro m holds
  obtain ⟨a, w', ok⟩ := done m.world holds
  unfold Eval.expect Eval.perform
  rw [ok]

/-- Closing does not fail if it can be done in the worlds in which the body ends. -/
theorem closing {Q : World → Prop} (span : Span) {x y : Eval σ α} {close : Effect β}
    (hx : SameOn P x y) (leaves : ∀ m, P m.world → (x m).1.Ended → Q (x m).2.world)
    (done : ∀ w, Q w → ∃ b w', close w = (.ok b, w')) (otherwise : RuntimeError → Eval σ β) :
    SameOn P (Eval.closing span x close) (Eval.closingOr span y close otherwise) := by
  intro m holds
  have left := leaves m holds
  unfold Eval.closingOr Eval.closing
  rw [hx m holds]
  rcases ran : x m with ⟨a | e | _ | _, m'⟩
  · rw [ran] at left
    exact expect span done otherwise m' (left trivial)
  · rw [ran] at left
    obtain ⟨b, w', ok⟩ := done m'.world (left trivial)
    unfold Eval.expect Eval.bind
    dsimp only
    rw [ok]
    rfl
  · rfl
  · rfl

/-- A second name fails to be defined only if it is the first once more. -/
theorem defineSecond {c : ContextId} (first second : Ident)
    (otherwise : RuntimeError → Eval σ Unit) :
    SameOn (Lone · c first.text)
      (Eval.perform second.span (World.define c second.text .null))
      (Eval.defineSecond first second c otherwise) := by
  intro m lone
  unfold Eval.defineSecond Eval.expect Eval.perform
  rcases done : World.define c second.text .null m.world with ⟨fault | _, w⟩
  · dsimp only
    rw [World.define_error done]
    by_cases same : first.text = second.text
    · rw [if_pos same]
      rfl
    · obtain ⟨w', done'⟩ := lone.define same .null
      rw [done'] at done
      cases done
  · rfl

end Eval.SameOn

/-! ### parts of evaluations -/

/-- The evaluation `y` is the same as `x` wherever statements can run in `c` and some names are
known, and `x` does there what statements do. -/
structure Eval.Agrees (c : ContextId) (names : List String) (x y : Eval σ α) : Prop where
  same : SameOn (Stands · c names) x y
  keeps : Keeps (Under c Context.Grown) x

namespace Eval.Agrees

variable {c : ContextId} {names : List String}

theorem leaves {x : Eval σ α} (keeps : Keeps (Under c Context.Grown) x) (m : Machine σ)
    (stands : m.world.Stands c names) (ended : (x m).1.Ended) : (x m).2.world.Stands c names :=
  stands.after (keeps m ended stands.live)

theorem of_keeps {x : Eval σ α} (keeps : Keeps (Under c Context.Grown) x) : Agrees c names x x :=
  ⟨.refl x, keeps⟩

theorem bind {x y : Eval σ α} {f g : α → Eval σ β} (hx : Agrees c names x y)
    (hf : ∀ a, Agrees c names (f a) (g a)) : Agrees c names (x >>= f) (y >>= g) where
  keeps := .bind (Under.grown c) hx.keeps fun a => (hf a).keeps
  same := hx.same.bind (fun m a m' stands ran => by
    have left := leaves hx.keeps m stands
    rw [ran] at left
    exact left trivial) fun a => (hf a).same

theorem pure (a : α) : Agrees c names (Pure.pure a : Eval σ α) (Pure.pure a) :=
  of_keeps (.pure (Under.grown c) a)

theorem ask (f : World → α) : Agrees c names (Eval.ask f : Eval σ α) (Eval.ask f) :=
  of_keeps (.ask (Under.grown c) f)

theorem perform (span : Span) {f : Effect α} (h : ∀ w, Under c Context.Grown w (f w).2) :
    Agrees c names (Eval.perform span f : Eval σ α) (Eval.perform span f) :=
  of_keeps (.perform span h)

/-- An effect that does not fail where names are known. -/
theorem expect (span : Span) {f : Effect α} (h : ∀ w, Under c Context.Grown w (f w).2)
    (done : ∀ w, w.Stands c names → ∃ a w', f w = (.ok a, w'))
    (otherwise : RuntimeError → Eval σ α) :
    Agrees c names (Eval.perform span f) (Eval.expect span f otherwise) :=
  ⟨.expect span done otherwise, .perform span h⟩

theorem mono {x y : Eval σ α} (h : Agrees c [] x y) : Agrees c names x y :=
  ⟨h.same.mono fun stands => stands.mono (List.nil_subset _), h.keeps⟩

theorem capture {o : Observer σ} (silent : o.Silent) (node : Node) {x y : Eval σ Value}
    (h : Agrees c names x y) : Agrees c names (o.capture node c x) (o.capture node c y) where
  keeps := silent.capture (Under.grown c) node c h.keeps
  same := by
    intro m stands
    have entered := silent.enter node c m
    unfold Observer.capture
    rcases shown : o.enter node c m with ⟨fault | taken, m'⟩
    · rfl
    · rw [shown] at entered
      dsimp only at entered ⊢
      unfold Eval.bind
      rw [h.same m' (by rw [entered]; exact stands)]

/-! #### scopes, rounds and calls -/

/-- A frame that was opened is closed again after what statements do. -/
theorem closing {push : Context → Context} (span : Span) {x y : Eval σ α} {close : Effect β}
    (h : Agrees c names x y) (done : ∀ w, w.Within push c → ∃ b w', close w = (.ok b, w'))
    (otherwise : RuntimeError → Eval σ β) :
    SameOn (Opened · push c names) (Eval.closing span x close)
      (Eval.closingOr span y close otherwise) := by
  refine .closing span (h.same.mono fun ⟨_, _, _, stands⟩ => stands) ?_ done otherwise
  rintro m ⟨v, live, opened, stands⟩ ended
  refine ⟨v, live, ?_⟩
  rw [← opened]
  exact h.keeps m ended stands.live

theorem inScope (span : Span) {x y : Eval σ α} (same : SameOn (Fresh · c names) x y)
    (keeps : Keeps (Under c Context.Grown) x) :
    Agrees c names (Eval.inScope c span x) (Eval.inScope c span y) where
  keeps := (Keeps.inScope span keeps).mono Under.toGrown
  same := by
    intro m stands
    unfold Eval.inScope
    rw [openScope_bind, openScope_bind]
    split
    · rfl
    · next free =>
      unfold Eval.closing
      rw [same ⟨m.world.enterScope c, m.watch⟩ (stands.enterScope (Bool.eq_false_iff.2 free))]

/-- **The frame of a round is there when the round ends.** -/
theorem inRound (span : Span) {x y : Eval σ α} (h : Agrees c names x y)
    (otherwise : RuntimeError → Eval σ LoopFrame) :
    Agrees c names (Eval.inRound c span x) (inRoundOr otherwise c span y) where
  keeps := (Keeps.inRound span h.keeps).mono Under.toGrown
  same := by
    unfold Eval.inRound inRoundOr
    refine (SameOn.refl _).bind (Q := fun _ w => w.Fresh c names) ?_ fun _ =>
      (SameOn.refl _).bind (Q := fun _ w => w.Opened Context.pushLoop c names) ?_ fun _ =>
        h.closing span ?_ otherwise
    · intro m _ m' stands ran
      cases full : (m.world.context c).full with
      | true =>
        rw [openScope_of_full full] at ran
        cases ran
      | false =>
        rw [openScope_of_free full] at ran
        cases ran
        exact stands.enterScope full
    · rintro m _ m' fresh ⟨⟩
      exact ⟨_, fresh.live, rfl, fresh.toStands.pushLoop⟩
    · intro w within
      obtain ⟨frame, d, popped⟩ := within.popLoop
      exact ⟨frame, d.leaveScope c, by rw [popped]⟩

/-- **The frame of a call is there when the call ends.** -/
theorem inCall (parent : ContextId) (span : Span) {x y : ContextId → Eval σ α}
    (h : ∀ d, Agrees d [] (x d) (y d)) (otherwise : RuntimeError → Eval σ (List Value)) :
    Agrees c names (Eval.inCall parent span x) (inCallOr otherwise parent span y) where
  keeps := (Keeps.inCall parent span fun d => (h d).keeps).mono fun shape => shape.under.toGrown
  same := by
    unfold Eval.inCall inCallOr
    refine (SameOn.refl _).bind (Q := fun d w => d < w.contexts.size ∧
      (w.update d Context.pushCall).Stands d []) ?_ fun d =>
        (SameOn.refl _).bind (Q := fun _ w => w.Opened Context.pushCall d []) ?_ fun _ =>
          (h d).closing span (fun w within => within.popCall) otherwise
    · rintro m _ m' - ⟨⟩
      exact ⟨newChild_live m.world parent, stands_newCall m.world parent⟩
    · rintro m _ m' ⟨live, stands⟩ ⟨⟩
      exact ⟨_, live, rfl, stands⟩

/-! #### the names of loops -/

/-- **The counter of a loop is known in all of its rounds**: if it is not known before, it can be
defined. -/
theorem counter {x y : Eval σ α} (span : Span) (name : Ident) (v : Value)
    (rest : Agrees c [name.text] x y) (otherwise : RuntimeError → Eval σ Unit) :
    Agrees c names
      (Eval.inScope c span (Eval.ask (fun w => w.knows c name.text) >>= fun known =>
        if !known then Eval.perform name.span (World.define c name.text v) >>= fun _ => x else x))
      (Eval.inScope c span (Eval.ask (fun w => w.knows c name.text) >>= fun known =>
        if !known then
          Eval.expect name.span (World.define c name.text v) otherwise >>= fun _ => y
        else y)) := by
  refine .inScope span ?_ ?_
  · refine (SameOn.refl _).bind (Q := fun known w => w.Fresh c names ∧ w.knows c name.text = known)
      ?_ fun known => ?_
    · rintro m _ m' fresh ⟨⟩
      exact ⟨fresh, rfl⟩
    · cases known with
      | true =>
        refine rest.same.mono fun ⟨fresh, known⟩ => ?_
        exact (fresh.toStands.cons known).mono (by simp)
      | false =>
        refine (SameOn.expect name.span (fun w holds => ?_) otherwise).bind
          (Q := fun _ w => w.Stands c [name.text]) (fun m _ m' holds ran => ?_) fun _ => rest.same
        · obtain ⟨w', done⟩ := holds.1.define name.text v
          exact ⟨(), w', done⟩
        · obtain ⟨-, stands⟩ := holds.1.toStands.after_define (of_perform_ok ran).1
          exact stands.mono (by simp)
  · have grown := Under.grown c
    refine .bind grown (.ask grown _) fun known => ?_
    cases known with
    | true => exact rest.keeps
    | false =>
      exact .bind grown (.perform name.span fun w => .define name.text v w) fun _ => rest.keeps

/-- **The names of a loop over a collection are known in all of its rounds**: the first can be
defined, and the second unless it is the first once more. -/
theorem pair {x y : Eval σ α} (span : Span) (first second : Ident)
    (rest : Agrees c [second.text, first.text] x y) (otherwise : RuntimeError → Eval σ Unit)
    (otherwise' : RuntimeError → Eval σ Unit) :
    Agrees c names
      (Eval.inScope c span (Eval.perform first.span (World.define c first.text .null) >>= fun _ =>
        Eval.perform second.span (World.define c second.text .null) >>= fun _ => x))
      (Eval.inScope c span (Eval.expect first.span (World.define c first.text .null) otherwise >>=
        fun _ => Eval.defineSecond first second c otherwise' >>= fun _ => y)) := by
  refine .inScope span ?_ ?_
  · refine (SameOn.expect first.span (fun w fresh => ?_) otherwise).bind
      (Q := fun _ w => w.Stands c (first.text :: names) ∧ w.Lone c first.text)
      (fun m _ m' fresh ran => ?_) fun _ =>
        ((SameOn.defineSecond first second otherwise').mono And.right).bind
          (Q := fun _ w => w.Stands c [second.text, first.text]) ?_ fun _ => rest.same
    · obtain ⟨w', done⟩ := fresh.define first.text .null
      exact ⟨(), w', done⟩
    · have done := (of_perform_ok ran).1
      exact ⟨(fresh.toStands.after_define done).2, fresh.lone done⟩
    · rintro m _ m' ⟨stands, -⟩ ran
      exact (stands.after_define (of_perform_ok ran).1).2.mono (by simp)
  · have grown := Under.grown c
    exact .bind grown (.perform first.span fun w => .define first.text _ w) fun _ =>
      .bind grown (.perform second.span fun w => .define second.text _ w) fun _ => rest.keeps

end Eval.Agrees

/-! ### the evaluator -/

/-- The names that are known at a site. -/
def Eval.Site.names : Site → List String
  | .value => []
  | .direct names | .inside names => names

namespace Observer.Silent

variable {o : Observer σ} (silent : o.Silent)

include silent

theorem relying : Eval.OpenInvariant anything o (fun c s {_} _ x y => Agrees c s.names x y)
    fun _ c x y => Agrees c [] x y where
  exhausted := .of_keeps .exhausted
  aborted := .of_keeps .aborted
  raise _ _ := .of_keeps (.raise (Under.grown _) _ _)
  pure _ := .pure _
  bind {_ _ _ _ good _ _ _ _ _} hx hf := hx.bind fun a => hf a (good.whole a)
  ask f := .ask f
  advance _ := .ask _
  iterate _ _ := .perform _ fun w => (Under.grown _).refl w
  gives h _ := .perform _ fun w => (SameShape.plain h.plain w).under.toGrown
  makes h := .of_keeps (.make fun w => (SameShape.making h.making w).under.toGrown)
  signals h _ := .of_keeps ((silent.keeping.signals h (.whole _)).mono Under.toGrown)
  define name _ _ _ := .perform _ fun w => .define name _ w
  direct hx := hx.mono
  inside hx := hx
  known hx := hx.mono
  inScope _ hx := .inScope _ (hx.same.mono fun fresh => fresh.toStands) hx.keeps
  capture _ hx := hx.capture silent _
  finish _ hx := hx
  declare _ _ hx := hx.bind fun v =>
    (Agrees.perform _ fun w => .define _ v w).bind fun _ => .pure v
  shown _ hx := hx.capture silent _
  lookupKnown otherwise member _ := by
    refine .expect _ (fun w => (Under.grown _).refl w) (fun w stands => ?_) otherwise
    obtain ⟨current, done⟩ := stands.lookup member
    exact ⟨current, w, done⟩
  assignKnown otherwise member _ _ := by
    refine .expect _ (fun w => (SameShape.assign _ _ _ w).under.toGrown) (fun w stands => ?_) otherwise
    obtain ⟨w', done⟩ := stands.assign member _
    exact ⟨(), w', done⟩
  inRound otherwise _ hx := hx.inRound _ otherwise
  inCall otherwise parent _ hx := .inCall parent _ hx otherwise
  counter otherwise name _ _ _ _ hx := .counter _ name _ hx otherwise
  pair otherwise otherwise' first second _ _ _ hx := .pair _ first second hx otherwise otherwise'

/-- **With any fallback all runs are the same** under an observer that writes nothing, wherever
statements can run. -/
theorem unfailing (alt : Fallback σ) (fuel : Nat) :
    Upheld anything alt o (fun c s {_} _ x y => Agrees c s.names x y) fuel :=
  silent.relying.upheld .whole alt fuel

end Observer.Silent

/-! ### a name given twice -/

/-- A loop over a collection whose two names are one fails when the second is defined, if a scope can
be opened for it. -/
theorem inScope_twice {c : ContextId} {names : List String} {m : Machine σ}
    (stands : m.world.Stands c names) (free : (m.world.context c).full = false) (span : Span)
    {key value : Ident} (twice : key.text = value.text) (rest : Eval σ Unit) :
    ∃ n, Eval.inScope c span (do
      Eval.perform key.span (World.define c key.text .null)
      Eval.perform value.span (World.define c value.text .null)
      rest) m = (.error ⟨.alreadyDefined value.text, value.span⟩, n) := by
  obtain ⟨w, first⟩ := (stands.enterScope free).define key.text .null
  have second := (stands.enterScope free).toStands.define_again first .null
  rw [← twice]
  exact ⟨_, (inScope_of_free free span _).trans (closing_error
    ((bind_ok (perform_ok first)).trans (bind_error (perform_error second))))⟩

/-! ### failure branches -/

/-- An observer that does not bring up the fault of a node that cannot be evaluated. -/
def Observer.Sober (o : Observer σ) : Prop :=
  o.Brings fun fault => ∀ text, fault ≠ .unreachableNode text

theorem Observer.none_sober : Observer.none.Sober where
  enter _ _ _ _ brought := nomatch brought
  leave _ _ _ _ brought := nomatch brought

/-- The failure branches of the evaluator are not reached from the context `c` of the machine `m`,
whatever is evaluated, carried out or run. -/
structure Unreached (o : Observer σ) (fuel : Nat) (c : ContextId) (m : Machine σ) : Prop where
  /-- With the fallback that raises the errors, this is the evaluator. -/
  own : Unaltered o fuel
  /-- With any other fallback it does the same. -/
  evaluate : ∀ alt e, evaluateOr alt o fuel e c m = evaluate o fuel e c m
  execute : ∀ alt s, executeOr alt o fuel s c m = execute o fuel s c m
  session : ∀ alt (s : Session), s.context = c → s.restOr alt o fuel m = s.rest o fuel m
  /-- The one failure that is left is that of a loop over a collection whose second name is the first
  once more: it fails when the second is defined, unless there is no level for its scope. -/
  twice : ∀ (key value : Ident) collection ss span, key.text = value.text →
    ∃ x, Roteiro.execute o (fuel + 1) (.eachLoop key value collection ss span) c =
        o.capture (.statement (.eachLoop key value collection ss span)) c x ∧
      ∀ v it m', Roteiro.evaluate o fuel collection c m = (.ok v, m') →
        m'.world.heap.iterate v = .ok it →
        (x m).1 =
          if (m'.world.context c).full then .aborted
          else .error ⟨.alreadyDefined value.text, value.span⟩
  /-- No run ends with the error of a node that cannot be evaluated. -/
  evaluated : ∀ e text span, (Roteiro.evaluate o fuel e c m).1 ≠ .error ⟨.unreachableNode text, span⟩
  executed : ∀ s text span, (Roteiro.execute o fuel s c m).1 ≠ .error ⟨.unreachableNode text, span⟩
  ran : ∀ s : Session, s.context = c → ∀ text span,
    (s.rest o fuel m).1 ≠ .error ⟨.unreachableNode text, span⟩

/-- **The failure branches of the evaluator are not reached** from any context that can be reached
and has a scope open. Where no level is left for a scope the run breaks off before them. -/
theorem failure_branches_unreached {o : Observer σ} (silent : o.Silent) (sober : o.Sober)
    (fuel : Nat) {c : ContextId} {m : Machine σ} (reachable : m.world.contexts.Reachable)
    (live : c < m.world.contexts.size) (base : Context.baseLevel ≤ (m.world.context c).level) :
    Unreached o fuel c m := by
  have stands : m.world.Stands c [] :=
    ⟨live, (reachable.layered c).ready base, List.forall_mem_nil _⟩
  have unfailing := fun alt => silent.unfailing alt fuel
  have script : ∀ fault : RuntimeFault, fault.ofScript → ∀ text, fault ≠ .unreachableNode text :=
    fun fault ofScript text same => by subst same; cases ofScript
  have raising := sober.raising script fuel
  have clean : ∀ {x : Eval σ Value}, Raises (fun fault => ∀ text, fault ≠ .unreachableNode text) x →
      ∀ text span, (x m).1 ≠ .error ⟨.unreachableNode text, span⟩ := by
    intro x raises text span ended
    have raised := raises m
    rw [ended] at raised
    exact raised text rfl
  exact {
    own := o.unaltered fuel
    evaluate := fun alt e => ((unfailing alt).evaluate e c trivial).same m stands
    execute := fun alt s => ((unfailing alt).execute s c trivial).same m stands
    session := by
      rintro alt s rfl
      have statements : Agrees s.context [] _ _ := (unfailing alt).runStatements silent.relying
        .null trivial (fun st (_ : st ∈ s.remaining) => trivial) s.context
      exact (statements.capture silent (.program s.program)).same m stands
    twice := by
      intro key value collection ss span twice
      refine ⟨_, by rw [Roteiro.execute], fun v it m' evaluated iterates => ?_⟩
      have left := Agrees.leaves ((unfailing .raising).evaluate collection c trivial).keeps m stands
      rw [evaluated] at left
      have starts : Eval.perform collection.span (fun w => (w.heap.iterate v, w)) m' =
          (.ok it, m') := perform_ok (congrArg (·, m'.world) iterates)
      rw [bind_ok evaluated, bind_ok starts]
      cases free : (m'.world.context c).full with
      | true => exact congrArg Prod.fst (bind_aborted (bind_aborted (openScope_of_full free)))
      | false =>
        obtain ⟨n, fails⟩ := inScope_twice (left trivial) free span twice
          (eachRounds o fuel it key value collection.span ss c)
        exact congrArg Prod.fst (bind_error fails)
    evaluated := fun e => clean (raising.evaluate e c trivial)
    executed := fun s => clean (raising.execute s c trivial)
    ran := by
      rintro s rfl
      refine clean (.capture sober (.program s.program) s.context ?_)
      exact raising.runStatements (sober.keepingOpenly script) .null trivial (fun _ _ => trivial)
        s.context }

/-- Whether an outcome is a value. -/
def Outcome.hasValue {α : Type} : Outcome α → Bool
  | .ok _ => true
  | .error _ | .exhausted | .aborted => false

theorem Outcome.hasValue_iff {α : Type} {x : Outcome α} :
    x.hasValue = true ↔ ∃ a, x = .ok a := by
  constructor
  · intro settled
    cases x with
    | ok a => exact ⟨a, rfl⟩
    | error | exhausted | aborted => cases settled
  · rintro ⟨a, rfl⟩
    rfl

/-- A loop over a collection whose body declares the first name anew and then signals. It ends with
a value even if the failure branches break off. -/
theorem failure_branches_unreached_of_shadowing :
    let k : Ident := ⟨"k", ⟨5, 1⟩⟩
    let v : Ident := ⟨"v", ⟨7, 1⟩⟩
    let s : Statement :=
      .eachLoop k v (.array [.atom (.boolean true) ⟨13, 10⟩] ⟨12, 12⟩)
        [.declaration k (.atom (.identifier v) ⟨40, 1⟩) ⟨36, 5⟩, .continueLoop ⟨42, 9⟩] ⟨0, 55⟩
    let w : World := { contexts := #[.root], terminal := .captured [] }
    w.contexts.Reachable ∧ 0 < w.contexts.size ∧ Context.baseLevel ≤ (w.context 0).level ∧
      ∃ value m, executeOr (fun _ _ _ => Eval.aborted) .none 4 s 0 ⟨w, ()⟩ = (.ok value, m) := by
  intro k v s w
  have reachable : w.contexts.Reachable := .single (.newRoot { terminal := .captured [] })
  have unreached := failure_branches_unreached (m := ⟨w, ()⟩)
    ⟨fun _ _ _ => rfl, fun _ _ _ => rfl⟩ Observer.none_sober 4 reachable Nat.zero_lt_one
    (Nat.le_refl 1)
  refine ⟨reachable, Nat.zero_lt_one, Nat.le_refl 1, ?_⟩
  rw [unreached.execute]
  have ends : (execute .none 4 s 0 ⟨w, ()⟩).1.hasValue = true := by decide +kernel
  obtain ⟨value, ended⟩ := Outcome.hasValue_iff.1 ends
  exact ⟨value, _, Prod.ext ended rfl⟩

end Roteiro
