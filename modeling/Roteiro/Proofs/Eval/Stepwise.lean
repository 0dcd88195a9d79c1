import Roteiro.Proofs.Eval.Observation

/-!
Stepping through a script agrees with running it (`Session.stepwise`). A run gives all statements out
at once and a step one at a time, but both carry out the same statements one after the other: a step
that has a value leaves the rest of the run, the last one has the value of the run, and the first one
that has none ends as the run ends. Harmless observers may watch; only what they see differs.
-/

namespace Roteiro

open Eval

variable {σ : Type}

namespace Session

/-! ### results -/

/-- What is seen of a run from outside: how it ends, and the world that it leaves. -/
def result (o : Observer σ) (fuel : Nat) (s : Session) (m : Machine σ) : Outcome Value × World :=
  ((s.run o fuel m).1, (s.run o fuel m).2.2.world)

/-- Steps, the given number of them unless one has no value before, and then a run. -/
def stepThenRun (o : Observer σ) (fuel : Nat) : Nat → Session → Machine σ → Outcome Value × World
  | 0, s, m => s.result o fuel m
  | k + 1, s, m =>
    match s.step o fuel m with
    | (some (.ok _), s, m) => stepThenRun o fuel k s m
    | (some r, _, m) => (r, m.world)
    | (none, s, m) => s.result o fuel m

/-- `Stepped o fuel s m vs s' m'`: successive steps, with the values `vs`, have brought the session
`s` and the machine `m` to `s'` and `m'`. -/
inductive Stepped (o : Observer σ) (fuel : Nat) :
    Session → Machine σ → List Value → Session → Machine σ → Prop
  | start (s : Session) (m : Machine σ) : Stepped o fuel s m [] s m
  | step {s s' s'' : Session} {m m' m'' : Machine σ} {v : Value} {vs : List Value}
    (first : s.step o fuel m = (some (.ok v), s', m'))
    (rest : Stepped o fuel s' m' vs s'' m'') : Stepped o fuel s m (v :: vs) s'' m''

/-! ### one step -/

variable {o : Observer σ} {fuel : Nat} {s s' : Session} {m m' : Machine σ}

theorem step_of_nil (done : s.remaining = []) : s.step o fuel m = (none, s, m) := by
  unfold step
  rw [done]

theorem step_of_cons {st : Statement} {rest : List Statement} (next : s.remaining = st :: rest) :
    s.step o fuel m = (some (execute o fuel st s.context m).1, { s with cursor := s.cursor + 1 },
      (execute o fuel st s.context m).2) := by
  unfold step
  rw [next]

/-- A step with an outcome has carried out the first of the remaining statements. -/
theorem of_step {r : Outcome Value} (stepped : s.step o fuel m = (some r, s', m')) :
    ∃ st, s.remaining = st :: s'.remaining ∧ s'.program = s.program ∧ s'.context = s.context ∧
      execute o fuel st s.context m = (r, m') := by
  cases next : s.remaining with
  | nil =>
    rw [step_of_nil next] at stepped
    cases stepped
  | cons st rest =>
    rw [step_of_cons next] at stepped
    cases stepped
    refine ⟨st, ?_, rfl, rfl, rfl⟩
    have tail : s.program.statements.drop (s.cursor + 1) = rest := by
      rw [← List.tail_drop]
      exact congrArg List.tail next
    exact congrArg (st :: ·) tail.symm

theorem step_eq_none_iff : (s.step o fuel m).1 = none ↔ s.remaining = [] := by
  cases next : s.remaining with
  | nil => simp [step_of_nil next]
  | cons st rest => simp [step_of_cons next]

/-- Once all statements were given out, no call carries out anything. -/
theorem remaining_exhaust : s.exhaust.remaining = [] := List.drop_length

/-! ### the result after a step -/

/-- The program node is shown around a run only, which is not seen from outside. -/
theorem result_eq (harmless : o.Harmless) : s.result o fuel m =
    ((runStatements (fun st => execute o fuel st s.context) .null s.remaining m).1,
      (runStatements (fun st => execute o fuel st s.context) .null s.remaining m).2.world) := by
  have shown := s.rest_mirrors harmless fuel m
  have plain := Mirrors.congruent.runStatements
    (fun st => (harmless.agree fuel).execute st s.context) .null s.remaining m
  have same : s.rest .none fuel =
      runStatements (fun st => execute .none fuel st s.context) .null s.remaining :=
    Observer.capture_none _ _ _
  rw [same, plain] at shown
  exact Prod.ext (congrArg Prod.fst shown).symm (congrArg (·.2.world) shown).symm

variable (harmless : o.Harmless)

include harmless

theorem result_of_nil (done : s.remaining = []) : s.result o fuel m = (.ok .null, m.world) := by
  rw [result_eq harmless, done]
  rfl

/-- After a step with a value the run goes on, or has this value if no statement is left. -/
theorem result_of_step {v : Value} (stepped : s.step o fuel m = (some (.ok v), s', m')) :
    s.result o fuel m =
      if s'.remaining = [] then (.ok v, m'.world) else s'.result o fuel m' := by
  obtain ⟨st, next, -, context, ran⟩ := of_step stepped
  rw [result_eq harmless, result_eq harmless, next, context]
  have goes_on : runStatements (fun st => execute o fuel st s.context) .null (st :: s'.remaining) m =
      runStatements (fun st => execute o fuel st s.context) v s'.remaining m' := bind_ok ran
  rw [goes_on]
  cases s'.remaining with
  | nil => rfl
  | cons st' rest => rfl

/-- A step without a value ends as the run does. -/
theorem result_of_step_failed {r : Outcome Value} (stepped : s.step o fuel m = (some r, s', m'))
    (failed : ∀ v, r ≠ .ok v) : s.result o fuel m = (r, m'.world) := by
  obtain ⟨st, next, -, -, ran⟩ := of_step stepped
  rw [result_eq harmless, next]
  have ends : runStatements (fun st => execute o fuel st s.context) .null (st :: s'.remaining) m =
      (r, m') := by
    cases r with
    | ok v => exact absurd rfl (failed v)
    | error e => exact bind_error ran
    | exhausted => exact bind_exhausted ran
    | aborted => exact bind_aborted ran
  rw [ends]

/-! ### several steps -/

theorem stepThenRun_eq {k : Nat} (short : k < s.remaining.length) :
    stepThenRun o fuel k s m = s.result o fuel m := by
  induction k generalizing s m with
  | zero => rfl
  | succ k ih =>
    unfold stepThenRun
    rcases stepped : s.step o fuel m with ⟨_ | r, s', m'⟩
    · have done : s.remaining = [] := step_eq_none_iff.1 (by rw [stepped])
      rw [done] at short
      cases short
    · obtain ⟨st, next, -⟩ := of_step stepped
      rw [next, List.length_cons] at short
      have left : s'.remaining ≠ [] := fun empty => by
        rw [empty] at short
        exact absurd short (by simp)
      cases r with
      | ok v =>
        rw [result_of_step harmless stepped, if_neg left]
        exact ih (by omega)
      | error e => exact (result_of_step_failed harmless stepped (by simp)).symm
      | exhausted => exact (result_of_step_failed harmless stepped (by simp)).symm
      | aborted => exact (result_of_step_failed harmless stepped (by simp)).symm

omit harmless in
/-- Steps carry out the remaining statements in order. -/
theorem Stepped.remaining {vs : List Value} (steps : Stepped o fuel s m vs s' m') :
    s'.remaining = s.remaining.drop vs.length ∧ vs.length ≤ s.remaining.length ∧
      s'.program = s.program ∧ s'.context = s.context := by
  induction steps with
  | start s m => exact ⟨rfl, Nat.zero_le _, rfl, rfl⟩
  | step first _ ih =>
    obtain ⟨st, next, program, context, -⟩ := of_step first
    obtain ⟨left, fits, program', context'⟩ := ih
    rw [next]
    exact ⟨left, Nat.succ_le_succ fits, program'.trans program, context'.trans context⟩

/-- A run after some steps ends as one from the start, as long as there is a statement left. -/
theorem Stepped.result {vs : List Value} (steps : Stepped o fuel s m vs s' m')
    (left : s'.remaining ≠ []) : s'.result o fuel m' = s.result o fuel m := by
  induction steps with
  | start s m => rfl
  | step first rest ih =>
    have earlier := result_of_step harmless first
    rw [if_neg] at earlier
    · rw [earlier]
      exact ih left
    · intro empty
      rw [rest.remaining.1, empty, List.drop_nil] at left
      exact left rfl

/-- Steps to the end end with the value of the run. -/
theorem Stepped.result_last {vs : List Value} (steps : Stepped o fuel s m vs s' m')
    (done : s'.remaining = []) : s.result o fuel m = (.ok (vs.getLastD .null), m'.world) := by
  induction steps with
  | start s m => exact result_of_nil harmless done
  | @step s s₁ _ m m₁ _ v vs first rest ih =>
    rw [result_of_step harmless first]
    cases rest with
    | start _ _ =>
      rw [if_pos done]
      rfl
    | @step _ _ _ _ _ _ v' vs' second more =>
      obtain ⟨st, next, -⟩ := of_step second
      rw [if_neg (by rw [next]; exact List.cons_ne_nil _ _), ih done]
      rfl

omit harmless in
/-- Stepping comes to the end or to a step without a value. -/
theorem stepped_far (o : Observer σ) (fuel : Nat) (s : Session) (m : Machine σ) :
    ∃ vs s' m', Stepped o fuel s m vs s' m' ∧
      ((s'.step o fuel m').1 = none ∨ ∃ r, (s'.step o fuel m').1 = some r ∧ ∀ v, r ≠ .ok v) := by
  generalize length : s.remaining.length = n
  induction n generalizing s m with
  | zero =>
    refine ⟨[], s, m, .start s m, .inl ?_⟩
    rw [step_of_nil (List.length_eq_zero_iff.1 length)]
  | succ n ih =>
    rcases stepped : s.step o fuel m with ⟨_ | r, s', m'⟩
    · exact ⟨[], s, m, .start s m, .inl (by rw [stepped])⟩
    · by_cases succeeded : ∃ v, r = .ok v
      · obtain ⟨v, rfl⟩ := succeeded
        obtain ⟨st, next, -⟩ := of_step stepped
        rw [next] at length
        obtain ⟨vs, s'', m'', rest, far⟩ := ih s' m' (Nat.succ.inj length)
        exact ⟨v :: vs, s'', m'', .step stepped rest, far⟩
      · exact ⟨[], s, m, .start s m, .inr ⟨r, by rw [stepped], fun v hv => succeeded ⟨v, hv⟩⟩⟩

/-- **Stepping statement by statement agrees with running**, in any session, under any observer that
does no harm. Steps that are fewer than the remaining statements, and then a run unless one of them
fails, end as a single run ends and leave the same world. Stepping comes to the end or to a first
step that fails. It comes to the end with one value for each statement, the last of them that of the
run; and the first step that fails does so as the run does, in the same world, after which the next
step carries out the statement behind it. After a run, be it failed or not, nothing is carried out
any more. -/
theorem stepwise (fuel : Nat) (s : Session) (m : Machine σ) :
    (∀ k < s.remaining.length, stepThenRun o fuel k s m = s.result o fuel m) ∧
      (∃ vs s' m', Stepped o fuel s m vs s' m' ∧
        ((s'.step o fuel m').1 = none ∨
          ∃ r, (s'.step o fuel m').1 = some r ∧ ∀ v, r ≠ .ok v)) ∧
      (∀ vs s' m', Stepped o fuel s m vs s' m' →
        ((s'.step o fuel m').1 = none ↔ vs.length = s.remaining.length) ∧
        ((s'.step o fuel m').1 = none →
          s.result o fuel m = (.ok (vs.getLastD .null), m'.world)) ∧
        ∀ r s'' m'', s'.step o fuel m' = (some r, s'', m'') → (∀ v, r ≠ .ok v) →
          s.result o fuel m = (r, m''.world) ∧
          ∀ st, s.remaining[vs.length + 1]? = some st →
            (s''.step o fuel m'').1 = some (execute o fuel st s.context m'').1 ∧
            (s''.step o fuel m'').2.2 = (execute o fuel st s.context m'').2) ∧
      (s.run o fuel m).2.1 = s.exhaust ∧
      ∀ m', s.exhaust.step o fuel m' = (none, s.exhaust, m') ∧
        s.exhaust.result o fuel m' = (.ok .null, m'.world) := by
  refine ⟨fun k short => stepThenRun_eq harmless short, stepped_far o fuel s m,
    fun vs s' m' steps => ?_, rfl,
    fun m' => ⟨step_of_nil remaining_exhaust, result_of_nil harmless remaining_exhaust⟩⟩
  obtain ⟨left, fits, -, context⟩ := steps.remaining
  refine ⟨?_, fun done => steps.result_last harmless (step_eq_none_iff.1 done),
    fun r s'' m'' failing failed => ?_⟩
  · rw [step_eq_none_iff, left, List.drop_eq_nil_iff]
    omega
  · obtain ⟨st, next, -, context', -⟩ := of_step failing
    refine ⟨?_, fun st' following => ?_⟩
    · rw [← steps.result harmless (by rw [next]; exact List.cons_ne_nil _ _)]
      exact result_of_step_failed harmless failing failed
    · have behind : s''.remaining = s.remaining.drop (vs.length + 1) := by
        rw [← List.tail_drop, ← left, next]
        rfl
      obtain ⟨inside, rfl⟩ := List.getElem?_eq_some_iff.1 following
      rw [List.drop_eq_getElem_cons inside] at behind
      rw [step_of_cons behind, context', context]
      exact ⟨rfl, rfl⟩

omit harmless in
/-- A declaration and then a name that is not known: the first step has a value, and the second one
fails as the run does. -/
theorem stepwise_of_unknown :
    let x : Statement := .declaration ⟨"x", ⟨0, 1⟩⟩ (.atom (.number 2) ⟨4, 1⟩) ⟨0, 5⟩
    let y : Statement := .expression (.atom (.identifier ⟨"y", ⟨6, 1⟩⟩) ⟨6, 1⟩)
    let s : Session := { program := ⟨[x, y], ⟨0, 7⟩⟩, context := 0 }
    let w : World := { contexts := #[.root], terminal := .captured [] }
    let m : Machine Nat := (s.step .tally 3 ⟨w, 0⟩).2.2
    let e : RuntimeError := ⟨.unknownName "y", ⟨6, 1⟩⟩
    Observer.tally.Harmless ∧
      Stepped .tally 3 s ⟨w, 0⟩ [.number 2] { s with cursor := 1 } m ∧
      (step .tally 3 { s with cursor := 1 } m).1 = some (.error e) ∧
      s.result .tally 3 ⟨w, 0⟩ = (.error e, m.world) := by
  intro x y s w m e
  have first : s.step .tally 3 ⟨w, 0⟩ = (some (.ok (.number 2)), { s with cursor := 1 }, m) := by
    with_unfolding_all rfl
  have second : step .tally 3 { s with cursor := 1 } m =
      (some (.error e), { s with cursor := 2 }, ⟨m.world, m.watch + 7⟩) := by
    with_unfolding_all rfl
  have steps : Stepped .tally 3 s ⟨w, 0⟩ [.number 2] { s with cursor := 1 } m :=
    .step first (.start _ _)
  have agrees := (stepwise Observer.tally_harmless 3 s ⟨w, 0⟩).2.2.1 _ _ _ steps
  exact ⟨Observer.tally_harmless, steps, congrArg Prod.fst second,
    (agrees.2.2 _ _ _ second (by simp)).1⟩

end Session

end Roteiro
