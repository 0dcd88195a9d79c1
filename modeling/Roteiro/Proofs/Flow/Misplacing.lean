import Roteiro.Proofs.Flow.Soundness
import Roteiro.Proofs.Trace.Coherence

/-!
Misplaced statements. Where a break, a continue or a return may stand is seen in the text; whether
it fails is seen in the frames of a context. The two agree (`Session.misplaced_fail`): a well placed
script never fails for want of a loop or a call, and a run that comes to a misplaced statement ends
there, whoever called the function that it stands in.
-/

namespace Roteiro

open Eval

/-! ### what a run comes to -/

/-- A run of a session comes to some tasks. -/
def Session.Reaches (s : Session) (w : World) (T : List Task) : Prop :=
  ∃ fuel ms, ms <+: s.history fuel w ∧ Moment.tasks ms = T

/-- A chronicle does not alter the run of a session. -/
theorem Session.rest_chronicle (s : Session) (fuel : Nat) (w : World) :
    (s.rest .none fuel ⟨w, ()⟩).1 =
      (s.rest Chronicle.observer fuel ⟨w, { guarded := false }⟩).1 := by
  have ran := s.beside_of_capture Chronicle.harmlessWhile.capture (s := { guarded := false })
    (t := ()) rfl fuel w
  generalize s.rest Chronicle.observer fuel ⟨w, { guarded := false }⟩ = rx at ran ⊢
  generalize s.rest .none fuel ⟨w, ()⟩ = ry at ran ⊢
  cases ran with
  | alike o w' _ => rfl
  | stopped _ _ _ left => exact left.elim

namespace Session

variable {s : Session} {w : World} {T : List Task}

/-- The history of a run ends with a misplaced statement only if the run fails with its error. -/
theorem fails_of_misplaced (live : s.context < w.contexts.size)
    (frameless : (w.context s.context).frames = ⟨[], []⟩) {fuel : Nat} {e : RuntimeError}
    (misplaced : Misplaced (Moment.tasks (s.history fuel w)) e) :
    (s.rest .none fuel ⟨w, ()⟩).1 = .error e := by
  rw [s.rest_chronicle]
  have reports := s.reports fuel w live frameless
  unfold history at misplaced
  generalize s.rest Chronicle.observer fuel ⟨w, { guarded := false }⟩ = r at reports misplaced ⊢
  cases reports with
  | ok tells =>
    rw [tells.tasks] at misplaced
    cases misplaced
  | short _ _ failed => exact failed e misplaced

/-- What a run comes to stands in the text where the tasks say. -/
theorem Reaches.placed (live : s.context < w.contexts.size)
    (frameless : (w.context s.context).frames = ⟨[], []⟩) (h : s.Reaches w T) : Task.Placed T := by
  obtain ⟨fuel, ms, ⟨later, all⟩, rfl⟩ := h
  have coherent := coherent live frameless fuel
  rw [← all] at coherent
  exact coherent.of_append.placed List.suffix_rfl

/-- A misplaced statement is the last that a run comes to. -/
theorem Reaches.ends (live : s.context < w.contexts.size)
    (frameless : (w.context s.context).frames = ⟨[], []⟩) (h : s.Reaches w T) {e : RuntimeError}
    (misplaced : Misplaced T e) : ∃ w', s.Ends .none ⟨w, ()⟩ (.error e) s.exhaust w' := by
  obtain ⟨fuel, ms, ⟨later, all⟩, rfl⟩ := h
  cases later with
  | nil =>
    rw [List.append_nil] at all
    subst all
    have failed := fails_of_misplaced live frameless misplaced
    refine ⟨(s.rest .none fuel ⟨w, ()⟩).2.world, by simp, fuel, (), ?_⟩
    unfold run
    rw [← failed]
  | cons mo later =>
    have coherent := coherent live frameless fuel
    rw [← all] at coherent
    exact absurd misplaced (coherent.next.placed e)

end Session

/-! ### the two halves -/

/-- **Exactly the misplaced statements fail for their place.** In a context without frames, a well
placed script does not end for want of a loop or a call, if the functions that are there before it
are well placed too. Any script that comes to a break or a continue outside all loops of the same
routine, or to the end of the values of a return outside all routines, ends with that error at the
span of the statement; the loops and calls around a call of the routine do not matter. -/
theorem Session.misplaced_fail (s : Session) (w : World) (live : s.context < w.contexts.size)
    (frameless : (w.context s.context).frames = ⟨[], []⟩) :
    (s.program.wellPlaced = true → w.Obeys Closure.WellPlaced →
      ∀ e s' w', s.Ends .none ⟨w, ()⟩ (.error e) s' w' →
        e.fault ≠ .noLoop ∧ e.fault ≠ .noFunction) ∧
    ∀ T, s.Reaches w T → Task.Placed T ∧
      ∀ e, Misplaced T e → ∃ w', s.Ends .none ⟨w, ()⟩ (.error e) s.exhaust w' := by
  refine ⟨fun placed obeys e s' w' ends => ?_, fun T reaches =>
    ⟨reaches.placed live frameless, fun e misplaced => reaches.ends live frameless misplaced⟩⟩
  obtain ⟨-, fuel, watch, run⟩ := ends
  have failed : (s.rest .none fuel ⟨w, ()⟩).1 = .error e := congrArg Prod.fst run
  have fair := s.ofPlace_of_wellPlaced w live frameless placed obeys fuel failed
  refine ⟨fun same => ?_, fun same => ?_⟩
  · rw [same] at fair
    cases fair
  · rw [same] at fair
    cases fair

/-- A function that returns out of a loop is well placed wherever it is called; one that breaks a
loop of its caller ends the run at its own break. -/
theorem Session.misplaced_fail_of_break :
    let f : Ident := ⟨"f", ⟨7, 1⟩⟩
    let yes : Expression := .atom (.boolean true) ⟨9, 10⟩
    let call : Expression := .call (.atom (.identifier f) ⟨50, 1⟩) [] ⟨50, 3⟩
    let returning : Routine :=
      .mk none [] [.whileLoop yes [.returnValues [] ⟨14, 7⟩] ⟨10, 16⟩] ⟨0, 30⟩
    let breaking : Routine := .mk (some f) [] [.breakLoop ⟨11, 5⟩] ⟨0, 20⟩
    let loop : Statement := .whileLoop yes [.expression call, .breakLoop ⟨54, 5⟩] ⟨30, 33⟩
    let good : Session := { program := ⟨[loop], ⟨0, 70⟩⟩, context := 0 }
    let bad : Session := { program := ⟨[.function breaking, loop], ⟨0, 70⟩⟩, context := 0 }
    let empty : World := { contexts := #[.root], terminal := .captured [] }
    let filled : World :=
      { empty with
        contexts := #[{ Context.root with locals := [⟨"f", 1, .function 0 ⟨returning, 0⟩⟩] }]
        identities := 1 }
    (good.program.wellPlaced = true ∧ filled.Obeys Closure.WellPlaced ∧
      ∀ e s' w', good.Ends .none ⟨filled, ()⟩ (.error e) s' w' →
        e.fault ≠ .noLoop ∧ e.fault ≠ .noFunction) ∧
    ∃ w', bad.Ends .none ⟨empty, ()⟩ (.error ⟨.noLoop, ⟨11, 5⟩⟩) bad.exhaust w' := by
  intro f yes call returning breaking loop good bad empty filled
  have placed : good.program.wellPlaced = true := by decide
  have obeys : filled.Obeys Closure.WellPlaced := by
    refine ⟨fun i l member => ?_, fun cell member => nomatch member⟩
    rcases i with _ | i
    · cases List.mem_singleton.1 member
      exact rfl
    · have absent : filled.context (i + 1) = .root := by
        simp [filled, World.context, Contexts.context]
      rw [absent] at member
      cases member
  let broken : Value := .function 0 ⟨breaking, 0⟩
  let T : List Task := [⟨.statement (.breakLoop ⟨11, 5⟩), []⟩, ⟨.expression call, [broken]⟩] ++
    List.replicate 5 ⟨.expression call, []⟩ ++ [⟨.statement (.expression call), []⟩,
      ⟨.statement loop, [.boolean true]⟩, ⟨.program bad.program, [broken]⟩]
  have reaches : bad.Reaches empty T := ⟨12, _, List.prefix_rfl, by unfold T; cbv⟩
  refine ⟨⟨placed, obeys, (good.misplaced_fail filled (by decide) rfl).1 placed obeys⟩, ?_⟩
  exact ((bad.misplaced_fail empty (by decide) rfl).2 T reaches).2 _ (.breakLoop rfl)

/-- A script may be well placed and yet call a function that was there before it and is not. -/
theorem Session.foreign_break_fails :
    ¬ ∀ (s : Session) (w : World), s.context < w.contexts.size →
      (w.context s.context).frames = ⟨[], []⟩ → s.program.wellPlaced = true →
      ∀ e s' w', s.Ends .none ⟨w, ()⟩ (.error e) s' w' →
        e.fault ≠ .noLoop ∧ e.fault ≠ .noFunction := by
  intro claimed
  let routine : Routine := .mk none [] [.breakLoop ⟨9, 5⟩] ⟨0, 18⟩
  let call : Expression := .call (.atom (.identifier ⟨"f", ⟨0, 1⟩⟩) ⟨0, 1⟩) [] ⟨0, 3⟩
  let s : Session := { program := ⟨[.expression call], ⟨0, 3⟩⟩, context := 0 }
  let w : World :=
    { contexts := #[{ Context.root with locals := [⟨"f", 1, .function 0 ⟨routine, 0⟩⟩] }]
      identities := 1
      terminal := .captured [] }
  let w' : World := { w with contexts := w.contexts.push (.inside 0) }
  have ends : s.Ends .none ⟨w, ()⟩ (.error ⟨.noLoop, ⟨9, 5⟩⟩) s.exhaust w' :=
    ⟨by simp, 8, (), by unfold w'; cbv⟩
  exact (claimed s w (by decide) rfl rfl _ _ _ ends).1 rfl

end Roteiro
