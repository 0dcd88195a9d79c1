import Roteiro.Proofs.Debug.Quitting
import Roteiro.Proofs.Parser.Soundness
import Roteiro.Proofs.Trace.Settling

/-!
Whether a script can be stopped. A run that is to be stopped at some event ends, by itself or there,
unless it comes to an idle loop: such a loop shows nothing and goes round for ever. So a session
answers every call, but for a step forward into an idle loop, and it can be quit at every pause.
-/

namespace Roteiro

open Eval

/-! ### stopped runs -/

/-- The script comes to an idle loop after fewer than `k` moments, and never gets any further. -/
def Program.Idles (p : Program) (guarded : Bool) (w : World) (k : Nat) : Prop :=
  ∃ fuel s, s.Idle ∧ (Moment.opened (p.history guarded fuel w)).head? = some (.statement s) ∧
    (p.history guarded fuel w).length < k ∧
    ∀ n, fuel ≤ n → (p.run n w).1 = .exhausted ∧ p.history guarded n w = p.history guarded fuel w

theorem Program.idles_of_stopped {p : Program} {guarded : Bool} {w : World} {k : Nat} (pos : 0 < k)
    (h : IdlesAt
      (fun n => Session.rest Chronicle.observer n { program := p, context := w.newGlobal.1 })
      ⟨w.newGlobal.2, { guarded, stopAt := some k }⟩) : p.Idles guarded w k := by
  obtain ⟨fuel, s, t, idle, top, out⟩ := h
  -- A run that is out of fuel was not stopped, so the full run is where it is.
  have along : ∀ n, fuel ≤ n → (p.run n w).1 = .exhausted ∧ p.history guarded n w = t.moments ∧
      t.moments.length < k := by
    intro n le
    obtain ⟨w', ran⟩ := out n le
    have beside := p.beside_stopped guarded n w pos
    have unobserved := (p.trace_run guarded n w).1
    have traced := congrArg Prod.fst (p.trace_eq { guarded } n w)
    change (p.runWith Trace.observer { guarded } n w).1 = _ at traced
    rw [traced] at unobserved
    change p.runWith Chronicle.observer { guarded, stopAt := some k } n w = _ at ran
    rw [ran] at beside
    unfold Program.history
    generalize p.runWith Chronicle.observer { guarded } n w = full at beside unobserved ⊢
    cases beside with
    | alike _ _ short => exact ⟨unobserved.symm, short.moments.symm, short.moments ▸ short.short⟩
  obtain ⟨_, moments, short⟩ := along fuel (Nat.le_refl fuel)
  refine ⟨fuel, s, idle, ?_, by rw [moments]; exact short, fun n le => ?_⟩
  · rw [moments]
    exact top
  · obtain ⟨exhausted, same, _⟩ := along n le
    exact ⟨exhausted, same.trans moments.symm⟩

/-- A run that is to be stopped ends, or the script idles. -/
theorem Program.stops_or_idles (p : Program) (guarded : Bool) {w : World} (tidy : w.Tidy) {k : Nat}
    (pos : 0 < k) :
    (∃ fuel, (p.runWith Chronicle.observer { guarded, stopAt := some k } fuel w).1 ≠ .exhausted) ∨
      p.Idles guarded w k := by
  rcases p.endsAt guarded tidy pos with ends | idles
  · exact .inl ends
  · exact .inr (idles_of_stopped pos idles)

/-! ### sessions -/

/-- The next step of a script ends, or the script idles before it. -/
theorem Program.acts_or_idles (p : Program) {w : World} (tidy : w.Tidy) (k : Nat) :
    (∃ a, p.Acts w (List.replicate (k + 1) .step) a) ∨ p.Idles true w (k + 1) := by
  rcases p.stops_or_idles true tidy (Nat.succ_pos k) with ⟨fuel, ended⟩ | idles
  · refine .inl ⟨_, fuel, ?_, rfl⟩
    have begins : p.debug (.playing (List.replicate (k + 1) .step)) [] fuel w =
        let (outcome, m) := p.runWith
          (Controller.playing (List.replicate (k + 1) .step)).observer ⟨{}, [({}, w)]⟩ fuel w
        ⟨outcome, m.watch.view, m.world, m.watch.driver⟩ := rfl
    have line := p.debug_inLine k fuel w
    rw [begins]
    generalize p.runWith (Controller.playing _).observer _ fuel w = rx at line ⊢
    generalize p.runWith Chronicle.observer _ fuel w = ry at line ended
    cases line with
    | on o w' _ => exact ended
    | stopped e w' _ => exact nofun
  · exact .inr idles

namespace Debugging

variable {p : Program} {w : World} {s : State}

/-- The script was told to make a step, and idles instead. -/
def State.Stuck (p : Program) (w : World) (s : State) : Prop :=
  ∃ k, s.runner = .running (List.replicate (k + 1) .step) ∧ p.Idles true w (k + 1)

/-- One of the parties can go on, unless the session is closed or the script idles. -/
theorem Phase.progress_or_stuck (h : Phase p w s) (tidy : w.Tidy) :
    s.Done ∨ (∃ t, Step p w s t) ∨ s.Stuck p w := by
  by_cases returns : s.Returns p w
  · rcases h.progress_of_returns returns with done | goes
    · exact .inl done
    · exact .inr (.inl goes)
  · unfold State.Returns at returns
    simp only [not_forall] at returns
    obtain ⟨k, runs, never⟩ := returns
    exact .inr (.inr ⟨k, runs, (p.acts_or_idles tidy k).resolve_left never⟩)

end Debugging

/-! ### an idle loop -/

/-- In a scope that was just entered every name can be defined. -/
theorem World.define_entered {w : World} {c : ContextId} (live : c < w.contexts.size)
    (free : (w.context c).full = false)
    (layered : ∀ l ∈ (w.context c).locals, l.level ≤ (w.context c).level) (name : String) (v : Value) :
    ∃ w', World.define c name v (w.enterScope c) = (.ok (), w') ∧
      w'.contexts.size = w.contexts.size ∧ (w'.context c).calls = (w.context c).calls ∧
      (w'.context c).level = (w.context c).level + 1 := by
  have next := Context.level_enter free
  have entered : (w.enterScope c).contexts.context c = (w.context c).enter :=
    Contexts.context_update_self live Context.enter
  have size : (w.enterScope c).contexts.size = w.contexts.size := Array.size_modify
  have unknown : (w.context c).enter.definedHere name = false := by
    unfold Context.definedHere
    rw [List.any_eq_false]
    intro l member
    have below := layered l member
    have differ : (l.level == (w.context c).level + 1) = false := by
      rw [beq_eq_false_iff_ne]
      omega
    rw [next, differ]
    simp
  unfold World.define World.onContexts Contexts.define Context.define
  dsimp only
  rw [entered, unknown]
  refine ⟨_, rfl, Array.size_setIfInBounds.trans size, ?_, ?_⟩
  · change (Contexts.context (Array.setIfInBounds _ c _) c).calls = _
    rw [Contexts.context_set_self (by rw [size]; exact live)]
    rfl
  · change (Contexts.context (Array.setIfInBounds _ c _) c).level = _
    rw [Contexts.context_set_self (by rw [size]; exact live)]
    exact next

namespace Chronicle

theorem capture_exhausted {node : Node} {c : ContextId} {x : Eval Chronicle Value} {w : World}
    {t : Chronicle} (takes : t.refuses node = false)
    (goes : (t.add (.enter node c w)).stopped = false) {m : Machine Chronicle}
    (ran : x ⟨w, t.add (.enter node c w)⟩ = (.exhausted, m)) :
    observer.capture node c x ⟨w, t⟩ = (.exhausted, m) := by
  rw [Observer.capture_eq, bind_ok (t.entering_taken node c w takes goes)]
  exact bind_exhausted ran

/-- An idle loop is not left again, if there are levels for its scope and for that of a round. -/
theorem execute_idle (counter : Ident) (span : Span) {c : ContextId} {w : World} {t : Chronicle}
    (live : c < w.contexts.size) (unreturned : (w.context c).hasReturned = false)
    (layered : ∀ l ∈ (w.context c).locals, l.level ≤ (w.context c).level)
    (shallow : (w.context c).level + 1 < Context.lastLevel)
    (takes : t.refuses (.statement (.countLoop counter none none none [] span)) = false)
    (goes : (t.add (.enter (.statement (.countLoop counter none none none [] span)) c w)).stopped =
      false) (fuel : Nat) :
    ∃ m, execute observer fuel (.countLoop counter none none none [] span) c ⟨w, t⟩ =
      (.exhausted, m) := by
  cases fuel with
  | zero => exact ⟨_, by rw [execute]; rfl⟩
  | succ fuel =>
    rw [execute]
    have free : (w.context c).full = false := decide_eq_false (by omega)
    let t' := t.add (.enter (.statement (.countLoop counter none none none [] span)) c w)
    -- Wherever the counter is, nothing has returned.
    have rounds : ∀ w' : World, w'.contexts.size = w.contexts.size →
        (w'.context c).calls = (w.context c).calls →
        (w'.context c).level = (w.context c).level + 1 →
        ∃ w'', countRounds observer fuel counter none none [] c ⟨w', t'⟩ = (.exhausted, ⟨w'', t'⟩) := by
      intro w' size calls level
      refine countRounds_idle counter t' fuel w' (by rw [size]; exact live) ?_
        (decide_eq_false (by omega))
      unfold Context.hasReturned at unreturned ⊢
      rw [calls]
      exact unreturned
    have inner : ∃ m, (Eval.ask (fun w => w.knows c counter.text) >>= fun known =>
        if !known then Eval.perform counter.span (World.define c counter.text (.number 0)) >>= fun _ =>
          countRounds observer fuel counter none none [] c
        else countRounds observer fuel counter none none [] c) ⟨w.enterScope c, t'⟩ =
          (.exhausted, m) := by
      have asked : Eval.ask (fun w => w.knows c counter.text) ⟨w.enterScope c, t'⟩ =
          (.ok ((w.enterScope c).knows c counter.text), (⟨w.enterScope c, t'⟩ : Machine Chronicle)) := rfl
      rw [bind_ok asked]
      cases (w.enterScope c).knows c counter.text with
      | true =>
        obtain ⟨w', ran⟩ := rounds (w.enterScope c) Array.size_modify
          (World.calls_update c Context.enter (fun _ => rfl) w)
          ((congrArg Context.level (Contexts.context_update_self live Context.enter)).trans
            (Context.level_enter free))
        exact ⟨_, ran⟩
      | false =>
        obtain ⟨w', defined, size, calls, level⟩ :=
          World.define_entered live free layered counter.text (.number 0)
        obtain ⟨w'', ran⟩ := rounds w' size calls level
        have done : Eval.perform counter.span (World.define c counter.text (.number 0))
            ⟨w.enterScope c, t'⟩ = (.ok (), ⟨w', t'⟩) := by
          unfold Eval.perform
          rw [defined]
        exact ⟨_, (bind_ok done).trans ran⟩
    obtain ⟨m, ran⟩ := inner
    exact ⟨_, capture_exhausted takes goes (bind_exhausted
      ((inScope_of_free (m := ⟨w, t'⟩) free span _).trans (closing_exhausted ran)))⟩

end Chronicle

/-- A script that is an idle loop does not get beyond its two events. -/
theorem Program.idle_exhausted (counter : Ident) (span whole : Span) (w : World) (fuel : Nat) :
    (Program.runWith ⟨[.countLoop counter none none none [] span], whole⟩ Trace.observer
      { guarded := true, stopAt := some 3 } fuel w).1 = .exhausted := by
  let p : Program := ⟨[.countLoop counter none none none [] span], whole⟩
  let t : Chronicle := { guarded := true, stopAt := some 3 }
  have traced := congrArg Prod.fst (p.trace_eq t fuel w)
  change (p.runWith Trace.observer { guarded := true, stopAt := some 3 } fuel w).1 = _ at traced
  rw [traced]
  have live := w.newGlobal_live
  obtain ⟨locals, here, levels⟩ := w.context_newGlobal
  unfold Program.runWith
  generalize w.newGlobal = global at live here ⊢
  obtain ⟨c, g⟩ := global
  dsimp only at live here ⊢
  have unreturned : (g.context c).hasReturned = false := by
    rw [here]
    rfl
  have layered : ∀ l ∈ (g.context c).locals, l.level ≤ (g.context c).level := by
    rw [here]
    intro l member
    rw [levels l member]
    exact Nat.zero_le _
  have held : Node.Holds (.program p) (.statement (.countLoop counter none none none [] span)) :=
    .script (List.mem_singleton_self _)
  have shallow : (g.context c).level + 1 < Context.lastLevel := by
    rw [here]
    exact (by decide : Context.baseLevel + 1 < Context.lastLevel)
  obtain ⟨m, ran⟩ := Chronicle.execute_idle counter span (t := t.add (.enter (.program p) c g)) live
    unreturned layered shallow (Chronicle.takes_of_held (by rw [Chronicle.opened_add]; rfl) held) rfl fuel
  have whole : Session.rest Chronicle.observer fuel { program := p, context := c } ⟨g, t⟩ =
      (.exhausted, m) :=
    Chronicle.capture_exhausted rfl rfl (bind_exhausted ran)
  rw [whole]

/-! ### stopping -/

/-- **A script can be stopped, unless it idles.** A run that is to be stopped at some event ends, or
the script has come to an idle loop and stays in it without another event. There is an end to what a
session and the script can do, and until the session is closed one of them can go on, unless the
script makes a step and idles; so every step forward returns but for that, and a script that is told
to quit always ends. -/
theorem stops_unless_idle (p : Program) (terminal : Terminal) (dice : Dice) (seed : Nat) :
    let w : World := { World.around terminal with dice, seed }
    (∀ guarded k, 0 < k →
      (∃ fuel, (p.runWith Trace.observer { guarded, stopAt := some k } fuel w).1 ≠ .exhausted) ∨
        p.Idles guarded w k) ∧
    ∀ calls s, Debugging.Reachable p w calls s →
      Acc (fun t s => Debugging.Step p w s t) s ∧
        (s.Done ∨ (∃ t, Debugging.Step p w s t) ∨ s.Stuck p w) := by
  intro w
  have tidy : w.Tidy := World.tidy_around terminal dice seed
  refine ⟨fun guarded k pos => ?_, fun calls s reachable => ?_⟩
  · rcases p.stops_or_idles guarded tidy pos with ⟨fuel, ended⟩ | idles
    · refine .inl ⟨fuel, ?_⟩
      have traced := congrArg Prod.fst (p.trace_eq { guarded, stopAt := some k } fuel w)
      change (p.runWith Trace.observer { guarded, stopAt := some k } fuel w).1 = _ at traced
      rw [traced]
      exact ended
    · exact .inr idles
  · exact ⟨reachable.phase.acc, reachable.phase.progress_or_stuck tidy⟩

/-- A loop without limit, step and body, which idles after its second event. -/
theorem stops_unless_idle_of_loop :
    let p : Program := ⟨[.countLoop ⟨"i", ⟨5, 1⟩⟩ none none none [] ⟨0, 15⟩], ⟨0, 15⟩⟩
    let w : World := .around (.captured [])
    let s : Debugging.State := { calls := [.forward, .quit], world := w }
    p.Idles true w 3 ∧ Debugging.Reachable p w [.forward, .quit] s ∧
      (s.Done ∨ (∃ t, Debugging.Step p w s t) ∨ s.Stuck p w) := by
  intro p w s
  have reachable : Debugging.Reachable p w [.forward, .quit] s := .refl
  obtain ⟨stops, answers⟩ := stops_unless_idle p (.captured []) w.dice w.seed
  refine ⟨(stops true 3 (by decide)).resolve_left ?_, reachable, (answers _ s reachable).2⟩
  rintro ⟨fuel, ended⟩
  exact ended (Program.idle_exhausted _ _ _ w fuel)

/-- **A loop without limit, step and body cannot be stopped** once it is entered, which is its second
event. -/
theorem loop_not_stopped :
    let p : Program := ⟨[.countLoop ⟨"i", ⟨5, 1⟩⟩ none none none [] ⟨0, 15⟩], ⟨0, 15⟩⟩
    Program.ofText "para i faca fim" = .ok p ∧
      ¬ ∃ fuel, (p.runWith Trace.observer { guarded := true, stopAt := some 3 } fuel
        (.around (.captured []))).1 ≠ .exhausted := by
  intro p
  have tokens : TokensOf "para i faca fim"
      [⟨.keyword .para, "para", ⟨0, 4⟩, 1⟩, ⟨.identifier, "i", ⟨5, 1⟩, 1⟩,
        ⟨.keyword .faca, "faca", ⟨7, 4⟩, 1⟩, ⟨.keyword .fim, "fim", ⟨12, 3⟩, 1⟩]
      ⟨.eof, "", ⟨15, 0⟩, 1⟩ := ⟨by decide +kernel, rfl, by decide⟩
  refine ⟨?_, fun ⟨fuel, ended⟩ => ended (Program.idle_exhausted _ _ _ _ fuel)⟩
  rw [Program.ofText, Parser.program]
  dsimp only
  rw [tokens.run]
  rfl

end Roteiro
