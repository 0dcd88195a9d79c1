import Roteiro.Proofs.Debug.Protocol

/-!
A debugging session is safe, whatever its calls are and however the two parties take turns. The
parties are always in one of three phases (`Phase`): the script waits for a command, or it has been
given one that the session waits to see answered, or it is gone. In each of them one of the parties
can go on (`Phase.progress`), and each step leads to one of them again (`Phase.step`).
-/

namespace Roteiro.Debugging

variable {p : Program} {w : World} {s t : State}

/-! ### what every step keeps -/

namespace State

/-- All calls of a session, with an answer or without. -/
def asked (s : State) : List Request :=
  s.transcript.reverse.map Exchange.request ++ s.calls

theorem answer_asked {request : Request} {rest : List Request} (reply : Reply)
    (h : s.calls = request :: rest) : (s.answer request rest reply).asked = s.asked := by
  simp [answer, asked, h]

theorem call_asked (s : State) : s.call.asked = s.asked := by
  unfold call
  split
  · split <;> rfl
  · split
    · exact answer_asked _ ‹_›
    · rfl
  · split
    · exact answer_asked _ ‹_›
    · rfl
  all_goals exact answer_asked _ ‹_›

theorem conclude_asked (s : State) (signal : Option Signal) :
    (s.conclude signal).asked = s.asked := by
  unfold conclude
  split
  case h_6 => rfl
  all_goals exact answer_asked (s := { s with finished := _ }) _ ‹_›

theorem call_finished (s : State) : s.call.finished = s.finished := by
  unfold call
  repeat' split
  all_goals rfl

theorem conclude_finished (h : s.finished = true) (signal : Option Signal) :
    (s.conclude signal).finished = true := by
  unfold conclude
  split
  · exact h
  all_goals rfl

end State

/-- No step loses a call, or answers one that was not made. -/
theorem Step.asked (h : Step p w s t) : t.asked = s.asked := by
  cases h with
  | call _ => exact s.call_asked
  | resume _ _ => rfl
  | act _ _ => rfl
  | signal _ _ => exact State.conclude_asked _ _
  | hangUp _ _ => exact s.conclude_asked none
  | join _ _ => rfl

/-- A session that has finished stays so. -/
theorem Step.finished (h : Step p w s t) (finished : s.finished = true) : t.finished = true := by
  cases h with
  | call _ => exact s.call_finished.trans finished
  | resume _ _ => exact finished
  | act _ _ => exact finished
  | signal _ _ =>
    apply State.conclude_finished
    exact finished
  | hangUp _ _ => exact State.conclude_finished finished none
  | join _ _ => exact finished

/-! ### phases -/

/-- The calls for which a command is sent. -/
inductive Due : Resume → List Request → Prop
  | forward (rest : List Request) : Due .step (.forward :: rest)
  | quit (rest : List Request) : Due .quit (.quit :: rest)
  /-- When the session is closed. -/
  | close : Due .quit []

theorem Due.of_step {calls : List Request} (h : Due .step calls) :
    ∃ rest, calls = .forward :: rest := by
  cases h with
  | forward rest => exact ⟨rest, rfl⟩

theorem Due.of_quit {calls : List Request} (h : Due .quit calls) :
    calls = [] ∨ ∃ rest, calls = .quit :: rest := by
  cases h with
  | close => exact .inl rfl
  | quit rest => exact .inr ⟨rest, rfl⟩

/-- The script waits for a command, after `k` steps. -/
structure Parked (p : Program) (w : World) (k : Nat) (s : State) : Prop where
  unfinished : s.finished = false
  runner : s.runner = .waiting (List.replicate k .step)
  held : p.Acts w (List.replicate k .step) (.pause s.view s.world)
  told : Transcribes p w s.transcript (.stepping k s.view.last)
  answered : Answered s.messages
  client : s.client = .idle ∨ ∃ command, s.client = .sending command ∧ Due command s.calls

/-- The script was given a command after `k` steps, and the session waits for its signal. -/
structure Resumed (p : Program) (w : World) (k : Nat) (command : Resume) (s : State) : Prop where
  unfinished : s.finished = false
  client : s.client = .receiving
  due : Due command s.calls
  held : ∃ view world, p.Acts w (List.replicate k .step) (.pause view world)
  told : ∃ last, Transcribes p w s.transcript (.stepping k last)
  answered : ∃ earlier, s.messages = .resume command :: earlier ∧ Answered earlier
  /-- Either it is still running, or what it did can be seen. -/
  runner : s.runner = .running (List.replicate k .step ++ [command]) ∨
    ∃ a, p.Acts w (List.replicate k .step ++ [command]) a ∧
      s.runner = .after (List.replicate k .step ++ [command]) a ∧ s.view = a.view ∧
      s.world = a.world

/-- A run of the script breaks off. -/
def BreaksOff (p : Program) (w : World) : Prop :=
  ∃ fuel, (p.run fuel w).1 = .aborted

/-- The script is gone, and the session knows it. -/
structure Ended (p : Program) (w : World) (s : State) : Prop where
  finished : s.finished = true
  told : ∃ stage, Transcribes p w s.transcript stage ∧ (s.client = .idle → stage = .ended s.view.last)
  runner : s.runner = .gone (some s.world) ∧ Answered s.messages ∨
    s.runner = .gone none ∧ BreaksOff p w
  client : s.client = .idle ∨
    s.calls = [] ∧ (s.client = .joining ∨ ∃ c, s.client = .closed c ∧ s.runner = .gone c)

theorem Ended.gone (h : Ended p w s) : ∃ c, s.runner = .gone c := by
  obtain ⟨gone, _⟩ | ⟨gone, _⟩ := h.runner
  · exact ⟨_, gone⟩
  · exact ⟨_, gone⟩

/-- Where the two parties can be. -/
inductive Phase (p : Program) (w : World) (s : State) : Prop
  | parked {k : Nat} (h : Parked p w k s)
  | resumed {k : Nat} {command : Resume} (h : Resumed p w k command s)
  | ended (h : Ended p w s)

theorem Phase.start (p : Program) (w : World) (calls : List Request) :
    Phase p w { calls, world := w } :=
  .parked (k := 0)
    { unfinished := rfl, runner := rfl, held := p.acts_nil w, told := .nil, answered := .nil,
      client := .inl rfl }

/-! ### calls -/

/-- Looking does not change where the script is. -/
theorem Parked.answer {k : Nat} (h : Parked p w k s) {request : Request} {reply : Reply}
    (rest : List Request)
    (fits : Exchange.Fits p w (.stepping k s.view.last) ⟨request, reply, s.world⟩
      (.stepping k s.view.last)) : Phase p w (s.answer request rest reply) :=
  .parked { h with told := .cons h.told fits, client := .inl rfl }

theorem Parked.send {k : Nat} (h : Parked p w k s) {command : Resume} (due : Due command s.calls) :
    Phase p w { s with client := .sending command } :=
  .parked { h with client := .inr ⟨command, rfl, due⟩ }

theorem Parked.call {k : Nat} (h : Parked p w k s) : Phase p w s.call := by
  have going : ¬ s.finished = true := by rw [h.unfinished]; simp
  unfold State.call
  simp only [if_neg going]
  split
  · next none => exact h.send (none ▸ .close)
  · next forward => exact h.send (forward ▸ .forward _)
  · next quit => exact h.send (quit ▸ .quit _)
  · exact h.answer _ .backward
  · exact h.answer _ .locals
  · exact h.answer _ .last
  · rw [h.unfinished]
    exact h.answer _ .finished

theorem Ended.answer (h : Ended p w s) (idle : s.client = .idle) {request : Request} {reply : Reply}
    (rest : List Request)
    (fits : Exchange.Fits p w (.ended s.view.last) ⟨request, reply, s.world⟩ (.ended s.view.last)) :
    Phase p w (s.answer request rest reply) := by
  obtain ⟨stage, told, ended⟩ := h.told
  rw [ended idle] at told
  exact .ended { h with told := ⟨_, .cons told fits, fun _ => rfl⟩, client := .inl rfl }

theorem Ended.call (h : Ended p w s) (idle : s.client = .idle) : Phase p w s.call := by
  unfold State.call
  simp only [if_pos h.finished]
  split
  · next none =>
    obtain ⟨stage, told, _⟩ := h.told
    exact .ended
      { h with told := ⟨stage, told, fun idle => by cases idle⟩, client := .inr ⟨none, .inl rfl⟩ }
  · exact h.answer idle _ .forward
  · exact h.answer idle _ .quitAgain
  · exact h.answer idle _ .backward
  · exact h.answer idle _ .locals
  · exact h.answer idle _ .last
  · rw [h.finished]
    exact h.answer idle _ .finished

/-! ### commands and signals -/

theorem Parked.resume {k : Nat} {command : Resume} (h : Parked p w k s)
    (sends : s.client = .sending command) :
    Phase p w (s.resumed (List.replicate k .step) command) := by
  have due : Due command s.calls := by
    obtain idle | ⟨command', sends', due⟩ := h.client
    · rw [idle] at sends
      cases sends
    · rw [sends'] at sends
      cases sends
      exact due
  exact .resumed
    { unfinished := h.unfinished, client := rfl, due := due, held := ⟨_, _, h.held⟩,
      told := ⟨_, h.told⟩, answered := ⟨_, rfl, h.answered⟩, runner := .inl rfl }

theorem Ended.not_waiting (h : Ended p w s) :
    ¬ (s.client = .receiving ∨ ∃ command, s.client = .sending command) := by
  rintro (waits | ⟨command, waits⟩)
  all_goals
    obtain client | ⟨_, client | ⟨c, client, _⟩⟩ := h.client
    all_goals cases client.symm.trans waits

theorem Ended.join {context : Option World} (h : Ended p w s) (joins : s.client = .joining)
    (gone : s.runner = .gone context) : Phase p w { s with client := .closed context } := by
  obtain ⟨stage, told, _⟩ := h.told
  obtain idle | ⟨none, _⟩ := h.client
  · cases idle.symm.trans joins
  · exact .ended
      { h with
        told := ⟨stage, told, fun idle => by cases idle⟩
        client := .inr ⟨none, .inr ⟨context, rfl, gone⟩⟩ }

theorem Resumed.act {k : Nat} {command : Resume} {a : Act} (h : Resumed p w k command s)
    (acts : p.Acts w (List.replicate k .step ++ [command]) a) :
    Phase p w (s.acted (List.replicate k .step ++ [command]) a) :=
  .resumed { h with runner := .inr ⟨a, acts, rfl, rfl, rfl⟩ }

/-- A script that has done something has a signal to send, unless it broke off. -/
theorem after_cases {received : List Resume} {a : Act} (acts : p.Acts w received a) :
    (∃ signal, Runner.after received a = .sending received signal) ∨
      Runner.after received a = .gone none ∧ ∃ view world, a = .finish .aborted view world := by
  cases a with
  | pause _ _ => exact .inl ⟨_, rfl⟩
  | finish outcome _ _ =>
    cases outcome with
    | ok _ => exact .inl ⟨_, rfl⟩
    | error _ => exact .inl ⟨_, rfl⟩
    | aborted => exact .inr ⟨rfl, _, _, rfl⟩
    | exhausted => exact absurd rfl acts.outcome_ne

/-- A script that is running has just been given its command. -/
theorem Resumed.received_eq {k : Nat} {command : Resume} {received : List Resume}
    (h : Resumed p w k command s) (runs : s.runner = .running received) :
    received = List.replicate k .step ++ [command] := by
  obtain running | ⟨a, acts, runner, _⟩ := h.runner
  · cases running.symm.trans runs
    rfl
  · obtain ⟨signal, after⟩ | ⟨after, _⟩ := after_cases acts
    · cases (after.symm.trans runner.symm).trans runs
    · cases (after.symm.trans runner.symm).trans runs

theorem Resumed.messages_answered {k : Nat} {command : Resume} (h : Resumed p w k command s)
    (signal : Signal) : Answered (.signal signal :: s.messages) := by
  obtain ⟨earlier, messages, answered⟩ := h.answered
  rw [messages]
  exact .cons answered

/-- A session that was told the end of the script has finished. -/
theorem Resumed.finish {k : Nat} {command : Resume} (h : Resumed p w k command s) (signal : Signal)
    {request : Request} {reply : Reply} (rest : List Request) {last : Option Value}
    (seen : s.view.last = last)
    (fits : ∀ {before}, Exchange.Fits p w (.stepping k before) ⟨request, reply, s.world⟩
      (.ended last)) :
    Phase p w (({ s with
      finished := true
      runner := .gone (some s.world)
      messages := .signal signal :: s.messages }).answer request rest reply) := by
  obtain ⟨before, told⟩ := h.told
  subst seen
  exact .ended
    { finished := rfl, told := ⟨_, .cons told fits, fun _ => rfl⟩,
      runner := .inl ⟨rfl, h.messages_answered signal⟩, client := .inl rfl }

/-- After a step the script is held at the next event or has ended. -/
theorem Resumed.signal_step {k : Nat} {a : Act} {signal : Signal} {received : List Resume}
    (h : Resumed p w k .step s) (acts : p.Acts w (List.replicate k .step ++ [.step]) a)
    (view : s.view = a.view) (world : s.world = a.world)
    (sends : Runner.after (List.replicate k .step ++ [.step]) a = .sending received signal) :
    Phase p w (s.signalled received signal) := by
  obtain ⟨_, _, held⟩ := h.held
  obtain ⟨last, told⟩ := h.told
  obtain ⟨rest, calls⟩ := h.due.of_step
  rw [← List.replicate_succ'] at acts sends
  unfold State.signalled State.conclude
  simp only [calls]
  -- What can be looked at is what the script has just done, so the report is about event `k`.
  cases a with
  | pause v w' =>
    obtain rfl : s.view = v := view
    obtain rfl : s.world = w' := world
    cases sends
    exact .parked (k := k + 1)
      { unfinished := h.unfinished, runner := rfl, held := acts,
        told := .cons told (.pause acts.tells), answered := h.messages_answered _,
        client := .inl rfl }
  | finish outcome v w' =>
    obtain rfl : s.view = v := view
    obtain rfl : s.world = w' := world
    obtain ⟨ends, value⟩ := held.ends acts
    cases outcome with
    | ok result =>
      cases sends
      exact h.finish _ rest (value result rfl) (.ended ends)
    | error e =>
      cases sends
      exact h.finish _ rest rfl (.failed ends)
    | aborted => cases sends
    | exhausted => cases sends

/-- Told to quit, the script has ended. -/
theorem Resumed.signal_quit {k : Nat} {a : Act} {signal : Signal} {received : List Resume}
    (h : Resumed p w k .quit s) (acts : p.Acts w (List.replicate k .step ++ [.quit]) a)
    (sends : Runner.after (List.replicate k .step ++ [.quit]) a = .sending received signal) :
    Phase p w (s.signalled received signal) := by
  obtain ⟨_, _, held⟩ := h.held
  obtain ⟨e, view, world, quits⟩ := held.ends_of_quit
  cases acts.unique quits
  cases sends
  unfold State.signalled State.conclude
  obtain calls | ⟨rest, calls⟩ := h.due.of_quit
  · -- There is no call to answer: the session is being closed and waits for the script to be gone.
    obtain ⟨last, told⟩ := h.told
    simp only [calls]
    exact .ended
      { finished := rfl, told := ⟨_, told, fun idle => by cases idle⟩,
        runner := .inl ⟨rfl, h.messages_answered _⟩, client := .inr ⟨rfl, .inl rfl⟩ }
  · simp only [calls]
    exact h.finish _ rest rfl .quit

theorem Resumed.signal {k : Nat} {command : Resume} {signal : Signal} {received : List Resume}
    (h : Resumed p w k command s) (sends : s.runner = .sending received signal) :
    Phase p w (s.signalled received signal) := by
  obtain running | ⟨a, acts, runner, view, world⟩ := h.runner
  · rw [running] at sends
    cases sends
  · rw [runner] at sends
    cases command with
    | step => exact h.signal_step acts view world sends
    | quit => exact h.signal_quit acts sends

/-- Only a script that broke off is gone without a signal. -/
theorem Resumed.hangUp {k : Nat} {command : Resume} {context : Option World}
    (h : Resumed p w k command s) (gone : s.runner = .gone context) :
    Phase p w (s.conclude none) := by
  obtain ⟨_, _, held⟩ := h.held
  obtain ⟨last, told⟩ := h.told
  obtain running | ⟨a, acts, runner, _, world⟩ := h.runner
  · cases running.symm.trans gone
  obtain ⟨signal, after⟩ | ⟨after, _, w', rfl⟩ := after_cases acts
  · cases (after.symm.trans runner.symm).trans gone
  cases command with
  | quit =>
    -- A script that is told to quit sends its last signal before it is gone.
    obtain ⟨e, _, _, quits⟩ := held.ends_of_quit
    cases acts.unique quits
  | step =>
    obtain ⟨rest, calls⟩ := h.due.of_step
    obtain rfl : s.world = w' := world
    rw [← List.replicate_succ'] at acts
    obtain ⟨ends, _⟩ := held.ends acts
    have broken : BreaksOff p w := by
      obtain ⟨_, fuel, run, _⟩ := ends
      exact ⟨fuel, by rw [run]⟩
    unfold State.conclude
    simp only [calls]
    exact .ended
      { finished := rfl, told := ⟨_, .cons told (.brokenOff ends), fun _ => rfl⟩,
        runner := .inr ⟨runner.trans after, broken⟩, client := .inl rfl }

/-! ### steps -/

/-- **Each step leads from one of the three phases to one of them.** -/
theorem Phase.step (h : Phase p w s) (step : Step p w s t) : Phase p w t := by
  cases step with
  | call idle =>
    cases h with
    | parked h => exact h.call
    | resumed h => cases h.client.symm.trans idle
    | ended h => exact h.call idle
  | resume sends waits =>
    cases h with
    | parked h =>
      cases h.runner.symm.trans waits
      exact h.resume sends
    | resumed h => cases h.client.symm.trans sends
    | ended h =>
      obtain ⟨c, gone⟩ := h.gone
      cases gone.symm.trans waits
  | act runs acts =>
    cases h with
    | parked h => cases h.runner.symm.trans runs
    | resumed h =>
      obtain rfl := h.received_eq runs
      exact h.act acts
    | ended h =>
      obtain ⟨c, gone⟩ := h.gone
      cases gone.symm.trans runs
  | signal receives sends =>
    cases h with
    | parked h => cases h.runner.symm.trans sends
    | resumed h => exact h.signal sends
    | ended h =>
      obtain ⟨c, gone⟩ := h.gone
      cases gone.symm.trans sends
  | hangUp waits gone =>
    cases h with
    | parked h => cases h.runner.symm.trans gone
    | resumed h => exact h.hangUp gone
    | ended h => exact (h.not_waiting waits).elim
  | join joins gone =>
    cases h with
    | parked h => cases h.runner.symm.trans gone
    | resumed h => cases h.client.symm.trans joins
    | ended h => exact h.join joins gone

theorem Reachable.phase {calls : List Request} (h : Reachable p w calls s) : Phase p w s := by
  induction h with
  | refl => exact .start p w calls
  | tail _ step ih => exact ih.step step

/-! ### progress -/

/-- The session is closed, all its calls were answered, and the script is gone. -/
def State.Done (s : State) : Prop :=
  s.calls = [] ∧ ∃ context, s.client = .closed context ∧ s.runner = .gone context

/-- Whatever step the script is making comes to an end. -/
def State.Returns (p : Program) (w : World) (s : State) : Prop :=
  ∀ k, s.runner = .running (List.replicate (k + 1) .step) →
    ∃ a, p.Acts w (List.replicate (k + 1) .step) a

/-- A script that was given a command comes to an end or to a pause. -/
theorem Resumed.acts {k : Nat} {command : Resume} (h : Resumed p w k command s)
    (running : s.runner = .running (List.replicate k .step ++ [command])) (returns : s.Returns p w) :
    ∃ a, p.Acts w (List.replicate k .step ++ [command]) a := by
  cases command with
  | step =>
    rw [← List.replicate_succ'] at running ⊢
    exact returns k running
  | quit =>
    obtain ⟨_, _, held⟩ := h.held
    obtain ⟨e, view, world, quits⟩ := held.ends_of_quit
    exact ⟨_, quits⟩

theorem Resumed.progress {k : Nat} {command : Resume} (h : Resumed p w k command s)
    (returns : s.Returns p w) : ∃ t, Step p w s t := by
  obtain running | ⟨a, acts, runner, _⟩ := h.runner
  · obtain ⟨a, acts⟩ := h.acts running returns
    exact ⟨_, .act running acts⟩
  · obtain ⟨signal, after⟩ | ⟨after, _⟩ := after_cases acts
    · exact ⟨_, .signal h.client (runner.trans after)⟩
    · exact ⟨_, .hangUp (.inl h.client) (runner.trans after)⟩

/-- The two parties never wait for one another while the script makes a step that ends. -/
theorem Phase.progress_of_returns (h : Phase p w s) (returns : s.Returns p w) :
    s.Done ∨ ∃ t, Step p w s t := by
  cases h with
  | parked h =>
    obtain idle | ⟨command, sends, _⟩ := h.client
    · exact .inr ⟨_, .call idle⟩
    · exact .inr ⟨_, .resume sends h.runner⟩
  | resumed h => exact .inr (h.progress returns)
  | ended h =>
    obtain ⟨c, gone⟩ := h.gone
    obtain idle | ⟨none, joins | ⟨c, closed⟩⟩ := h.client
    · exact .inr ⟨_, .call idle⟩
    · exact .inr ⟨_, .join joins gone⟩
    · exact .inl ⟨none, c, closed⟩

/-- **The two parties never wait for one another.** -/
theorem Phase.progress (h : Phase p w s) (steppable : p.Steppable w) :
    s.Done ∨ ∃ t, Step p w s t :=
  h.progress_of_returns fun k _ => steppable k

/-! ### termination -/

/-- How much a party has before it until the session is idle again or closed. -/
def State.pending (s : State) : Nat :=
  match s.client, s.runner with
  | .idle, _ => 5
  | .sending _, _ => 4
  | .receiving, .running _ => 3
  | .receiving, _ => 2
  | .joining, _ => 1
  | .closed _, _ => 0

/-- How many steps a session has before it, at most. -/
def State.length (s : State) : Nat :=
  6 * s.calls.length + s.pending

namespace State

theorem length_answer {request : Request} {rest : List Request} (reply : Reply)
    (h : s.calls = request :: rest) :
    (s.answer request rest reply).length < 6 * s.calls.length := by
  rw [h]
  exact Nat.lt_succ_self _

theorem length_call (idle : s.client = .idle) : s.call.length < s.length := by
  have before : s.length = 6 * s.calls.length + 5 := by simp only [length, pending, idle]
  have sent : 6 * s.calls.length + 4 < 6 * s.calls.length + 5 := Nat.lt_succ_self _
  have joined : 6 * s.calls.length + 1 < 6 * s.calls.length + 5 := by omega
  rw [before]
  unfold call
  split
  · split
    · exact joined
    · exact sent
  · split
    · exact Nat.lt_add_right _ (length_answer _ ‹_›)
    · exact sent
  · split
    · exact Nat.lt_add_right _ (length_answer _ ‹_›)
    · exact sent
  all_goals exact Nat.lt_add_right _ (length_answer _ ‹_›)

theorem length_conclude (s : State) (signal : Option Signal) :
    (s.conclude signal).length ≤ 6 * s.calls.length + 1 := by
  unfold conclude
  split
  case h_6 => exact Nat.le_refl _
  all_goals
    exact Nat.le_succ_of_le (Nat.le_of_lt (length_answer (s := { s with finished := _ }) _ ‹_›))

end State

/-- What the script has done leaves it less to do. -/
theorem Resumed.length_acted {k : Nat} {command : Resume} {received : List Resume} {a : Act}
    (h : Resumed p w k command s) (runs : s.runner = .running received)
    (acts : p.Acts w received a) : (s.acted received a).length < s.length := by
  have before : s.length = 6 * s.calls.length + 3 := by
    simp only [State.length, State.pending, h.client, runs]
  have after : (s.acted received a).length = 6 * s.calls.length + 2 := by
    obtain ⟨signal, after⟩ | ⟨after, _⟩ := after_cases acts
    · simp only [State.length, State.pending, State.acted, h.client, after]
    · simp only [State.length, State.pending, State.acted, h.client, after]
  omega

/-- A session that waits for the script has more before it than one that has heard of it. -/
theorem State.length_waiting (waits : s.client = .receiving ∨ ∃ command, s.client = .sending command) :
    6 * s.calls.length + 1 < s.length := by
  unfold length pending
  obtain client | ⟨command, client⟩ := waits
  · rw [client]
    cases s.runner <;> simp
  · rw [client]
    simp

/-- Each step leaves a session fewer steps. -/
theorem Phase.length_lt (h : Phase p w s) (step : Step p w s t) : t.length < s.length := by
  cases step with
  | call idle => exact State.length_call idle
  | resume sends waits =>
    simp only [State.length, State.pending, State.resumed, sends]
    omega
  | act runs acts =>
    cases h with
    | parked h => cases h.runner.symm.trans runs
    | resumed h => exact h.length_acted runs acts
    | ended h =>
      obtain ⟨c, gone⟩ := h.gone
      cases gone.symm.trans runs
  | signal receives sends =>
    exact Nat.lt_of_le_of_lt (State.length_conclude _ _) (State.length_waiting (.inl receives))
  | hangUp waits gone =>
    exact Nat.lt_of_le_of_lt (State.length_conclude _ _) (State.length_waiting waits)
  | join joins gone =>
    simp only [State.length, State.pending, joins]
    omega

/-- No session goes on for ever. -/
theorem Phase.acc {p : Program} {w : World} {s : State} (h : Phase p w s) :
    Acc (fun t s => Step p w s t) s :=
  ⟨s, fun _ step => (h.step step).acc⟩
termination_by s.length
decreasing_by exact h.length_lt step

/-! ### safety -/

/-- What holds of a session at any time, however the two parties take turns. -/
structure Safe (p : Program) (w : World) (calls : List Request) (s : State) : Prop where
  /-- One of the parties can go on, unless the session is closed. -/
  progress : s.Done ∨ ∃ t, Step p w s t
  /-- There is an end to what they can do. -/
  terminates : Acc (fun t s => Step p w s t) s
  /-- The calls are answered in turn, each of them once. -/
  asked : s.asked = calls
  /-- Each command is answered by one signal, or is the one whose signal is waited for. -/
  answered : ¬ BreaksOff p w → Answered s.messages ∨ s.client = .receiving ∧
    ∃ command earlier, s.messages = .resume command :: earlier ∧ Answered earlier
  /-- The answers are what they should be, and between two calls the session knows whether the
  script has ended. -/
  told : ∃ stage, Transcribes p w s.transcript stage ∧ (s.client = .idle → stage.hasEnded = s.finished)
  /-- A session that has finished stays so. -/
  finished : ∀ t, Relation.ReflTransGen (Step p w) s t → s.finished = true → t.finished = true
  /-- Between two calls the script does not move. -/
  still : s.client = .idle →
    (∃ received, s.runner = .waiting received) ∨ ∃ context, s.runner = .gone context
  /-- A session that is closed hands back the world of the script. -/
  handsBack : ∀ context, s.client = .closed context → ¬ BreaksOff p w → context = some s.world

theorem Phase.answered (h : Phase p w s) (whole : ¬ BreaksOff p w) :
    Answered s.messages ∨ s.client = .receiving ∧
      ∃ command earlier, s.messages = .resume command :: earlier ∧ Answered earlier := by
  cases h with
  | parked h => exact .inl h.answered
  | resumed h => exact .inr ⟨h.client, _, h.answered⟩
  | ended h =>
    obtain ⟨_, answered⟩ | ⟨_, broken⟩ := h.runner
    · exact .inl answered
    · exact absurd broken whole

theorem Phase.told (h : Phase p w s) :
    ∃ stage, Transcribes p w s.transcript stage ∧
      (s.client = .idle → stage.hasEnded = s.finished) := by
  cases h with
  | parked h => exact ⟨_, h.told, fun _ => h.unfinished.symm⟩
  | resumed h =>
    obtain ⟨last, told⟩ := h.told
    exact ⟨_, told, fun _ => h.unfinished.symm⟩
  | ended h =>
    obtain ⟨stage, told, ended⟩ := h.told
    refine ⟨stage, told, fun idle => ?_⟩
    rw [ended idle, h.finished]
    rfl

theorem Phase.still (h : Phase p w s) (idle : s.client = .idle) :
    (∃ received, s.runner = .waiting received) ∨ ∃ context, s.runner = .gone context := by
  cases h with
  | parked h => exact .inl ⟨_, h.runner⟩
  | resumed h => cases h.client.symm.trans idle
  | ended h => exact .inr h.gone

theorem Phase.handsBack {context : Option World} (h : Phase p w s)
    (closed : s.client = .closed context) (whole : ¬ BreaksOff p w) : context = some s.world := by
  cases h with
  | parked h =>
    obtain client | ⟨_, client, _⟩ := h.client
    · cases client.symm.trans closed
    · cases client.symm.trans closed
  | resumed h => cases h.client.symm.trans closed
  | ended h =>
    obtain ⟨gone, _⟩ | ⟨_, broken⟩ := h.runner
    · obtain client | ⟨_, client | ⟨c, client, gone'⟩⟩ := h.client
      · cases client.symm.trans closed
      · cases client.symm.trans closed
      · cases client.symm.trans closed
        cases gone.symm.trans gone'
        rfl
    · exact absurd broken whole

theorem Reachable.asked {calls : List Request} (h : Reachable p w calls s) : s.asked = calls := by
  induction h with
  | refl => rfl
  | tail _ step ih => exact step.asked.trans ih

theorem finished_of_steps (h : Relation.ReflTransGen (Step p w) s t) (finished : s.finished = true) :
    t.finished = true := by
  induction h with
  | refl => exact finished
  | tail _ step ih => exact step.finished ih

/-- **A debugging session is safe for any calls.** If the evaluation of a script between two pauses
always comes to an end, then no reachable state of the session and the script is a deadlock, each
command is answered by one signal, each step forward reports the next event of the guarded trace,
the one after the last event reports how the script ends without a debugger, and every call after
that is answered as it should be. -/
theorem session_safe (p : Program) (w : World) (steppable : p.Steppable w) (calls : List Request)
    (s : State) (reachable : Reachable p w calls s) : Safe p w calls s :=
  have phase := reachable.phase
  { progress := phase.progress steppable
    terminates := phase.acc
    asked := reachable.asked
    answered := phase.answered
    told := phase.told
    finished := fun _ => finished_of_steps
    still := phase.still
    handsBack := fun _ => phase.handsBack }

/-- A script that is a number, stepped once and then told to quit. -/
theorem session_safe_of_number :
    let p : Program := ⟨[.expression (.atom (.number 2) ⟨0, 1⟩)], ⟨0, 1⟩⟩
    let w : World := .around (.captured [])
    p.Steppable w ∧ ∃ s, Reachable p w [.forward, .quit] s ∧ s.Done ∧
      Safe p w [.forward, .quit] s := by
  intro p w
  have ends : ∀ (c : ContextId) (g : World),
      Session.rest .none 2 { program := p, context := c } ⟨g, ()⟩ = (.ok (.number 2), ⟨g, ()⟩) :=
    fun _ _ => by with_unfolding_all rfl
  have ended : (p.run 2 w).1 ≠ .exhausted := by
    unfold Program.run Program.runWith
    dsimp only
    rw [ends]
    simp
  have steppable : p.Steppable w := .of_run ended
  let view : DebugView :=
    ⟨[((Node.program p).key, (Node.program p).text)], none, some w.newGlobal.1⟩
  have halted : (p.debug (.playing [.step]) [] 2 w).outcome = .error ⟨.halted, ⟨0, 1⟩⟩ := rfl
  have paused : p.Acts w [.step] (.pause view w.newGlobal.2) := ⟨2, by rw [halted]; simp, rfl⟩
  obtain ⟨e, view', world', quits⟩ := Program.Acts.ends_of_quit (k := 1) paused
  -- The state after each step of the session; the last one is closed.
  let start : State := { calls := [.forward, .quit], world := w }
  let stepped := (start.call.resumed [] .step).acted [.step] (.pause view w.newGlobal.2)
  let told := stepped.signalled [.step] .paused
  let quitted := (told.call.resumed [.step] .quit).acted [.step, .quit] (.finish (.error e) view' world')
  let ended := quitted.signalled [.step, .quit] (.finished (.error e))
  have reachable : Reachable p w [.forward, .quit] { ended.call with client := .closed (some world') } :=
    .tail (.tail (.tail (.tail (.tail (.tail (.tail (.tail (.tail (.tail .refl (.call rfl))
      (.resume rfl rfl)) (.act rfl paused)) (.signal rfl rfl)) (.call rfl)) (.resume rfl rfl))
      (.act rfl quits)) (.signal rfl rfl)) (.call rfl)) (.join rfl rfl)
  exact ⟨steppable, _, reachable, ⟨rfl, _, rfl, rfl⟩, session_safe p w steppable _ _ reachable⟩

end Roteiro.Debugging
