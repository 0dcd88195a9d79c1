import Roteiro.Proofs.Debug.Conversation

/-!
Runs from a console that has lines of its own. A run is told from the lines and from the run in
which their orders are played back (`Console.run_eq`). So lines that drive nothing can be left out,
each command takes one line and none is read behind the one that ends the run, and the end of the
lines is to quit (`Program.driven_by_steps`).
-/

namespace Roteiro

open Command

/-! ### what is told of a run -/

/-- The texts that were written, oldest first. -/
def Desk.answers : Desk → List String
  | shared => []
  | separate _ _ answers => answers.reverse

/-- The replies to steps, as they stand among the prompts and replies that some lines were read
for. -/
def Console.stepReplies : List String → List String → List String
  | line :: lines, _ :: reply :: texts =>
    if ofLine? line = some .step then reply :: stepReplies lines texts
    else stepReplies lines texts
  | _, _ => []

/-- What a console told of the steps. Before the first prompt it only told what commands there
are. -/
def ConsoleRun.traceLines (lines : List String) (run : ConsoleRun) : List String :=
  Console.stepReplies lines (run.desk.answers.drop 1)

/-- Runs that come out alike, for whoever gets the result and for the world. -/
structure ConsoleRun.Alike (run run' : ConsoleRun) : Prop where
  result : run.result = run'.result
  finished : run.finished = run'.finished
  world : run.world = run'.world
  handedBack : run.handedBack = run'.handedBack

/-- From either of two desks a script runs alike, and comes to an end with the same fuel. -/
structure Program.AlikeFrom (p : Program) (desk desk' : Desk) (fuel : Nat) (w : World) :
    Prop where
  outcome : (p.debug Console.controller { desk } fuel w).outcome =
    (p.debug Console.controller { desk := desk' } fuel w).outcome
  run : (p.runConsole desk fuel w).Alike (p.runConsole desk' fuel w)

namespace Console

/-- What the console says from the start, newest first. -/
def heard (answered : Exchanges) : List String :=
  (help :: said answered).reverse

/-- No command is to quit. -/
def GoesOn (answered : Exchanges) : Prop :=
  ∀ e ∈ answered, ofLine? e.1 ≠ some .quit

end Console

open Console in
/-- How a console with lines of its own went through them. There is a prompt for each line that was
read, and all of them but the one that ended the run have replies. What comes after that one is
left. -/
inductive ConsoleRun.Account (lines : List String) (undecodable : Bool) (run : ConsoleRun) : Prop
  /-- The script came to its end in a step. -/
  | finished {answered : Exchanges} {line : String} {rest : List String} {v : Value} :
      GoesOn answered → ofLine? line = some .step →
      lines = answered.map Prod.fst ++ line :: rest → run.result = .ok v →
      run.desk = .separate rest undecodable
        (heard (answered ++ [(line, finishText run.world.heap v ++ "\n")])) →
      Account lines undecodable run
  /-- The script failed in a step. -/
  | failed {answered : Exchanges} {line : String} {rest : List String} {e : DebugError} :
      GoesOn answered → ofLine? line = some .step →
      lines = answered.map Prod.fst ++ line :: rest → run.result = .error e → e ≠ .programExit →
      run.desk = .separate rest undecodable (prompt :: heard answered) →
      Account lines undecodable run
  | quit {answered : Exchanges} {line : String} {rest : List String} :
      GoesOn answered → ofLine? line = some .quit →
      lines = answered.map Prod.fst ++ line :: rest → run.result = .error .programExit →
      run.desk = .separate rest undecodable (prompt :: heard answered) →
      Account lines undecodable run
  /-- All lines have replies. -/
  | ended {answered : Exchanges} :
      GoesOn answered → lines = answered.map Prod.fst →
      run.result = .error (endError undecodable) →
      run.desk = .separate [] false (prompt :: heard answered) →
      Account lines undecodable run

namespace Console

/-! ### runs are told from their pauses -/

/-- What is left of a console when its script has come to an end. -/
def close (console : Console) (outcome : Outcome Value) (w : World) : ConsoleRun :=
  match console.stopped, outcome with
  | some (.console reason), _ =>
    { result := .error (.console reason), finished := false, desk := console.desk, world := w }
  | some e, _ => { result := .error e, finished := true, desk := console.desk, world := w }
  | none, .ok v =>
    let (desk, world) := console.desk.write (finishText w.heap v ++ "\n") w
    { result := .ok v, finished := true, desk, world }
  | none, .error e =>
    { result := .error (.failed e), finished := true, desk := console.desk, world := w }
  | none, outcome =>
    { result := .error .programFinished, finished := true, desk := console.desk, world := w
      handedBack := outcome.handsBack w }

/-- The run that comes of some lines, of the pauses of a script, and of its end. -/
def tell (lines : List String) (undecodable : Bool) (p : DebugView × World)
    (ps : List (DebugView × World)) (outcome : Outcome Value) (w : World) : ConsoleRun :=
  (conclude undecodable [help] (converse lines p ps)).2.close outcome w

/-- A run from a console is told from the run in which its orders are played back. -/
theorem run_eq (prog : Program) (lines : List String) (undecodable : Bool) (fuel : Nat)
    (w : World) :
    ∃ outcome view world, ∃ log : Log, ∃ p ps, log.reverse = p :: ps ∧
      prog.debug (.playing (List.replicate (orders undecodable lines).1 .step)) [] fuel w =
        ⟨outcome, view, world, log⟩ ∧
      (prog.debug controller { desk := .separate lines undecodable [] } fuel w).outcome =
        outcome ∧
      prog.runConsole (.separate lines undecodable []) fuel w =
        tell lines undecodable p ps outcome world := by
  have line := inLine prog lines undecodable fuel w
  have closed : prog.runConsole (.separate lines undecodable []) fuel w =
      let r := prog.debug controller { desk := .separate lines undecodable [] } fuel w
      r.driver.close r.outcome r.world := rfl
  rw [closed]
  generalize prog.debug controller { desk := .separate lines undecodable [] } fuel w = r at line ⊢
  generalize prog.debug (.playing (List.replicate (orders undecodable lines).1 .step)) [] fuel w =
    r' at line ⊢
  cases line with
  | @on console log outcome view world follows =>
    obtain ⟨p, ps, hlog, state⟩ := follows
    refine ⟨outcome, view, world, log, p, ps, hlog, rfl, rfl, ?_⟩
    rw [tell, state]
  | @stopped console log e view world follows =>
    obtain ⟨p, ps, hlog, state⟩ := follows
    refine ⟨.error e, view, world, log, p, ps, hlog, rfl, rfl, ?_⟩
    rw [tell, state]

section Tell

variable {lines rest : List String} {undecodable : Bool} {p : DebugView × World}
  {ps : List (DebugView × World)} {outcome : Outcome Value} {w : World} {answered : Exchanges}
  {line : String}

theorem heard_append (answered : Exchanges) (e : String × String) :
    heard (answered ++ [e]) = e.2 :: prompt :: heard answered := by
  simp [heard, said]

theorem heard_eq (answered : Exchanges) : (said answered).reverse ++ [help] = heard answered := by
  simp [heard]

/-- The first line without a reply is a step: the script came to an end in it. -/
theorem tell_step (h : converse lines p ps = (answered, line :: rest))
    (hline : ofLine? line = some .step) :
    tell lines undecodable p ps outcome w =
      close { desk := .separate rest undecodable (prompt :: heard answered), stepping := true }
        outcome w := by
  rw [tell, h, conclude, if_pos hline, heard_eq]

theorem tell_quit (h : converse lines p ps = (answered, line :: rest))
    (hline : ofLine? line = some .quit) :
    tell lines undecodable p ps outcome w =
      ⟨.error .programExit, true, .separate rest undecodable (prompt :: heard answered), w,
        some w⟩ := by
  have hno : ¬ofLine? line = some .step := by simp [hline]
  rw [tell, h, conclude, if_neg hno, heard_eq]
  rfl

theorem tell_end (h : converse lines p ps = (answered, [])) :
    tell lines undecodable p ps outcome w =
      ⟨.error (endError undecodable), !undecodable, .separate [] false (prompt :: heard answered),
        w, some w⟩ := by
  rw [tell, h, conclude, heard_eq]
  cases undecodable with
  | true => rfl
  | false => rfl

/-! ### how the lines are read -/

theorem goesOn_nil : GoesOn [] :=
  fun _ he => absurd he List.not_mem_nil

/-- Each line is replied to in turn, up to the first one without a reply, and none of them is to
quit. -/
theorem converse_lines (lines : List String) (p : DebugView × World)
    (ps : List (DebugView × World)) :
    lines = (converse lines p ps).1.map Prod.fst ++ (converse lines p ps).2 ∧
      GoesOn (converse lines p ps).1 := by
  induction lines, p, ps using converse_induction with
  | nil p ps => exact ⟨rfl, goesOn_nil⟩
  | quit line rest p ps hline =>
    rw [converse_quit hline]
    exact ⟨rfl, goesOn_nil⟩
  | last line rest p hline =>
    rw [converse_last hline]
    exact ⟨rfl, goesOn_nil⟩
  | step line rest p q ps hline ih =>
    rw [converse_step hline]
    exact ⟨congrArg (line :: ·) ih.1, List.forall_mem_cons.2 ⟨by simp [hline], ih.2⟩⟩
  | remark line rest p ps hline ih =>
    rw [converse_remark hline]
    exact ⟨congrArg (line :: ·) ih.1, List.forall_mem_cons.2 ⟨ne_quit_of_not_drives hline, ih.2⟩⟩

/-- The first line without a reply drives the script. -/
theorem converse_left (h : (converse lines p ps).2 = line :: rest) :
    ofLine? line = some .step ∨ ofLine? line = some .quit := by
  induction lines, p, ps using converse_induction with
  | nil p ps => cases h
  | quit first others p ps hfirst =>
    rw [converse_quit hfirst] at h
    cases h
    exact .inr hfirst
  | last first others p hfirst =>
    rw [converse_last hfirst] at h
    cases h
    exact .inl hfirst
  | step first others p q ps hfirst ih =>
    rw [converse_step hfirst] at h
    exact ih h
  | remark first others p ps hfirst ih =>
    rw [converse_remark hfirst] at h
    exact ih h

/-- All lines have replies, or there is a first one without a reply, which drives the script. -/
theorem converse_cases (lines : List String) (p : DebugView × World)
    (ps : List (DebugView × World)) :
    (∃ answered, converse lines p ps = (answered, []) ∧ GoesOn answered ∧
      lines = answered.map Prod.fst) ∨
    ∃ answered line rest, converse lines p ps = (answered, line :: rest) ∧ GoesOn answered ∧
      lines = answered.map Prod.fst ++ line :: rest ∧
      (ofLine? line = some .step ∨ ofLine? line = some .quit) := by
  obtain ⟨hcut, hon⟩ := converse_lines lines p ps
  rcases h : converse lines p ps with ⟨answered, _ | ⟨line, rest⟩⟩
  · rw [h] at hcut hon
    exact .inl ⟨answered, rfl, hon, by simpa using hcut⟩
  · have hleft := converse_left (congrArg Prod.snd h)
    rw [h] at hcut hon
    exact .inr ⟨answered, line, rest, rfl, hon, hcut, hleft⟩

/-- Each run goes through its lines as it should. -/
theorem tell_account : (tell lines undecodable p ps outcome w).Account lines undecodable := by
  rcases converse_cases lines p ps with ⟨answered, h, hon, hcut⟩ |
    ⟨answered, line, rest, h, hon, hcut, hline | hline⟩
  · rw [tell_end h]
    exact .ended hon hcut rfl rfl
  · rw [tell_step h hline]
    cases outcome with
    | ok v => exact .finished hon hline hcut rfl (by rw [heard_append]; rfl)
    | error e => exact .failed hon hline hcut rfl nofun rfl
    | exhausted => exact .failed hon hline hcut rfl nofun rfl
    | aborted => exact .failed hon hline hcut rfl nofun rfl
  · rw [tell_quit h hline]
    exact .quit hon hline hcut rfl rfl

/-! ### what is told of the steps -/

/-- The replies to steps. -/
def steps (answered : Exchanges) : List String :=
  (answered.filter fun e => ofLine? e.1 = some .step).map Prod.snd

theorem steps_cons_step (h : ofLine? line = some .step) (reply : String) (answered : Exchanges) :
    steps ((line, reply) :: answered) = reply :: steps answered := by
  simp [steps, h]

theorem steps_cons_other (h : ofLine? line ≠ some .step) (reply : String) (answered : Exchanges) :
    steps ((line, reply) :: answered) = steps answered := by
  simp [steps, h]

/-- Lines that drive nothing change no reply to a step. -/
theorem steps_converse_filter (lines : List String) (p : DebugView × World)
    (ps : List (DebugView × World)) :
    steps (converse (lines.filter drives) p ps).1 = steps (converse lines p ps).1 := by
  induction lines, p, ps using converse_induction with
  | nil p ps => rfl
  | quit line rest p ps hline =>
    rw [List.filter_cons_of_pos (drives_of_quit hline), converse_quit hline, converse_quit hline]
  | last line rest p hline =>
    rw [List.filter_cons_of_pos (drives_of_step hline), converse_last hline, converse_last hline]
  | step line rest p q ps hline ih =>
    rw [List.filter_cons_of_pos (drives_of_step hline), converse_step hline, converse_step hline,
      steps_cons_step hline, steps_cons_step hline, ih]
  | remark line rest p ps hline ih =>
    rw [List.filter_cons_of_neg (by simp [hline]), converse_remark hline,
      steps_cons_other (ne_step_of_not_drives hline), ih]

theorem stepReplies_said (answered : Exchanges) (left tail : List String) :
    stepReplies (answered.map Prod.fst ++ left) (said answered ++ tail) =
      steps answered ++ stepReplies left tail := by
  induction answered with
  | nil => rfl
  | cons e answered ih =>
    obtain ⟨line, reply⟩ := e
    change stepReplies (line :: (answered.map Prod.fst ++ left))
      (prompt :: reply :: (said answered ++ tail)) = _
    rw [stepReplies, ih]
    split
    · next hline => rw [steps_cons_step hline, List.cons_append]
    · next hline => rw [steps_cons_other hline]

/-- A prompt without a reply tells of no step. -/
theorem stepReplies_unfinished (answered : Exchanges) (left : List String) :
    stepReplies (answered.map Prod.fst ++ left) ((prompt :: heard answered).reverse.drop 1) =
      steps answered ++ [] := by
  have texts : (prompt :: heard answered).reverse.drop 1 = said answered ++ [prompt] := by
    simp [heard]
  have last : stepReplies left [prompt] = [] := by
    cases left <;> rfl
  rw [texts, stepReplies_said, last]

/-- What was told of the steps comes from the pauses and from the end. -/
theorem traceLines_tell :
    (tell lines undecodable p ps outcome w).traceLines lines = steps (converse lines p ps).1 ++
      match (tell lines undecodable p ps outcome w).result with
      | .ok v => [finishText w.heap v ++ "\n"]
      | .error _ => [] := by
  rcases converse_cases lines p ps with ⟨answered, h, -, hcut⟩ |
    ⟨answered, line, rest, h, -, hcut, hline | hline⟩
  · have told := stepReplies_unfinished answered []
    rw [List.append_nil, ← hcut] at told
    rw [tell_end h, h]
    exact told
  · rw [tell_step h hline, h, hcut]
    cases outcome with
    | ok v =>
      have last (finish : String) : stepReplies (line :: rest) [prompt, finish] = [finish] := by
        rw [stepReplies, if_pos hline]
        cases rest <;> rfl
      have texts (finish : String) : (finish :: prompt :: heard answered).reverse.drop 1 =
          said answered ++ [prompt, finish] := by
        simp [heard]
      change stepReplies _ ((_ :: prompt :: heard answered).reverse.drop 1) = _
      rw [texts, stepReplies_said, last]
      rfl
    | error e => exact stepReplies_unfinished answered _
    | exhausted => exact stepReplies_unfinished answered _
    | aborted => exact stepReplies_unfinished answered _
  · rw [tell_quit h hline, h, hcut]
    exact stepReplies_unfinished answered _

/-! ### lines with the same orders -/

theorem close_alike {console console' : Console} (hstopped : console.stopped = console'.stopped)
    {rest rest' answers answers' : List String} {bad bad' : Bool}
    (hdesk : console.desk = .separate rest bad answers)
    (hdesk' : console'.desk = .separate rest' bad' answers') (outcome : Outcome Value) (w : World) :
    (console.close outcome w).Alike (console'.close outcome w) := by
  unfold close
  rw [hstopped, hdesk, hdesk']
  cases console'.stopped with
  | some e => cases e <;> exact ⟨rfl, rfl, rfl, rfl⟩
  | none => cases outcome <;> exact ⟨rfl, rfl, rfl, rfl⟩

theorem conclude_desk (undecodable : Bool) (answers : List String)
    (heard : Exchanges × List String) :
    ∃ rest bad texts, (conclude undecodable answers heard).2.desk = .separate rest bad texts := by
  obtain ⟨answered, _ | ⟨line, rest⟩⟩ := heard
  · exact ⟨_, _, _, rfl⟩
  · rw [conclude]
    split
    · exact ⟨_, _, _, rfl⟩
    · exact ⟨_, _, _, rfl⟩

theorem tell_alike {lines' : List String}
    (horders : orders undecodable lines' = orders undecodable lines) (p : DebugView × World)
    (ps : List (DebugView × World)) (outcome : Outcome Value) (w : World) :
    (tell lines undecodable p ps outcome w).Alike (tell lines' undecodable p ps outcome w) := by
  obtain ⟨rest, bad, answers, hdesk⟩ := conclude_desk undecodable [help] (converse lines p ps)
  obtain ⟨rest', bad', answers', hdesk'⟩ := conclude_desk undecodable [help] (converse lines' p ps)
  refine close_alike ?_ hdesk hdesk' outcome w
  rw [(conclude_orders undecodable lines [help] p ps).2,
    (conclude_orders undecodable lines' [help] p ps).2, horders]

/-- Lines that drive nothing change nothing that is told of the steps. -/
theorem traceLines_tell_filter :
    (tell lines undecodable p ps outcome w).traceLines lines =
      (tell (lines.filter drives) undecodable p ps outcome w).traceLines (lines.filter drives) := by
  have alike := tell_alike (orders_filter undecodable lines) p ps outcome w
  rw [traceLines_tell, traceLines_tell, steps_converse_filter, alike.result]

/-- A line to quit behind all lines is only met when they have replies. -/
theorem converse_append_quit {quit : String} (hquit : ofLine? quit = some .quit)
    (more lines : List String) (p : DebugView × World) (ps : List (DebugView × World)) :
    converse (lines ++ quit :: more) p ps =
      ((converse lines p ps).1, (converse lines p ps).2 ++ quit :: more) := by
  induction lines, p, ps using converse_induction with
  | nil p ps => exact converse_quit hquit
  | quit line rest p ps hline =>
    rw [List.cons_append, converse_quit hline, converse_quit hline, List.cons_append]
  | last line rest p hline =>
    rw [List.cons_append, converse_last hline, converse_last hline, List.cons_append]
  | step line rest p q ps hline ih =>
    rw [List.cons_append, converse_step hline, converse_step hline, ih]
  | remark line rest p ps hline ih =>
    rw [List.cons_append, converse_remark hline, converse_remark hline, ih]

/-- At the end of the lines the console says the same as when it is told to quit there. -/
theorem answers_tell_quit {quit : String} (hquit : ofLine? quit = some .quit)
    (more : List String) :
    (tell lines false p ps outcome w).desk.answers =
      (tell (lines ++ quit :: more) false p ps outcome w).desk.answers := by
  have grown := converse_append_quit hquit more lines p ps
  rcases converse_cases lines p ps with ⟨answered, h, -, -⟩ |
    ⟨answered, line, rest, h, -, -, hline | hline⟩
  · rw [h] at grown
    rw [tell_end h, tell_quit grown hquit]
    rfl
  · rw [h] at grown
    rw [tell_step h hline, tell_step grown hline]
    cases outcome <;> rfl
  · rw [h] at grown
    rw [tell_quit h hline, tell_quit grown hline]
    rfl

end Tell

end Console

open Console in
/-- **Only steps drive a script from a console** that has lines of its own. Without the lines that
drive nothing the script runs alike, to the same result and the same world, and the same is told of
the steps. Each command takes a line, and none is read behind the one that ends the run. The end of
the lines is the same as to quit there. -/
theorem Program.driven_by_steps (prog : Program) (lines : List String) (undecodable : Bool)
    (fuel : Nat) (w : World) :
    let desk : Desk := .separate lines undecodable []
    let fewer := lines.filter drives
    let desk' : Desk := .separate fewer undecodable []
    let run := prog.runConsole desk fuel w
    prog.AlikeFrom desk desk' fuel w ∧
      run.traceLines lines = (prog.runConsole desk' fuel w).traceLines fewer ∧
      run.Account lines undecodable ∧
      (undecodable = false → ∀ quit more, ofLine? quit = some .quit →
        let desk'' : Desk := .separate (lines ++ quit :: more) false []
        prog.AlikeFrom desk desk'' fuel w ∧
          run.desk.answers = (prog.runConsole desk'' fuel w).desk.answers) := by
  intro desk fewer desk' run
  obtain ⟨outcome, view, world, log, p, ps, hlog, played, ended, ran⟩ :=
    run_eq prog lines undecodable fuel w
  have hrun : run = tell lines undecodable p ps outcome world := ran
  -- Lines with the same orders are told from the same run.
  have same (others : List String)
      (horders : orders undecodable others = orders undecodable lines) :
      prog.AlikeFrom desk (.separate others undecodable []) fuel w ∧
        prog.runConsole (.separate others undecodable []) fuel w =
          tell others undecodable p ps outcome world := by
    obtain ⟨_, _, _, _, _, _, hlog', played', ended', ran'⟩ := run_eq prog others undecodable fuel w
    rw [horders, played] at played'
    cases played'
    rw [hlog] at hlog'
    cases hlog'
    refine ⟨⟨ended.trans ended'.symm, ?_⟩, ran'⟩
    rw [ran, ran']
    exact tell_alike horders p ps outcome world
  obtain ⟨halike, hrun'⟩ := same fewer (orders_filter _ _)
  refine ⟨halike, ?_, ?_, ?_⟩
  · rw [hrun, hrun']
    exact traceLines_tell_filter
  · rw [hrun]
    exact tell_account
  · rintro rfl quit more hquit desk''
    obtain ⟨halike'', hrun''⟩ := same _ (orders_append_quit hquit lines more)
    refine ⟨halike'', ?_⟩
    rw [hrun, hrun'']
    exact answers_tell_quit hquit more

/-- A script that is a number, with a look at the locals and a line that is no command. -/
theorem Program.driven_by_steps_of_locals :
    let prog : Program := ⟨[.expression (.atom (.number 2) ⟨0, 1⟩)], ⟨0, 1⟩⟩
    let w : World := .around (.captured [])
    let run := prog.runConsole (.separate ["l", " S", "?"] false []) 2 w
    ofLine? "Quit" = some .quit ∧
      prog.AlikeFrom (.separate ["l", " S", "?"] false [])
        (.separate ["l", " S", "?", "Quit", "left"] false []) 2 w ∧
      run.traceLines ["l", " S", "?"] =
        (prog.runConsole (.separate [" S"] false []) 2 w).traceLines [" S"] ∧
      run.traceLines ["l", " S", "?"] = ["programa -> ...\n"] := by
  intro prog w run
  obtain ⟨-, told, -, atEnd⟩ := Program.driven_by_steps prog ["l", " S", "?"] false 2 w
  exact ⟨by decide +kernel, (atEnd rfl "Quit" ["left"] (by decide +kernel)).1, told, rfl⟩

end Roteiro
