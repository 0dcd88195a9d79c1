import Roteiro.Debug.Console
import Roteiro.Proofs.Debug.Alike
import Roteiro.Proofs.Debug.Playback

/-!
What is read and said at a console that has lines of its own. It is told from the lines and from the
pauses of the script alone (`Console.converse`, `Console.Follows`). What the console tells the
script depends on even less: to go on for each line that is a step, up to one that is to quit or to
the end of the lines. So the script runs as with these orders played back (`Console.inLine`).
-/

namespace Roteiro

/-- A line that tells the script to go on or to end. -/
def Command.drives (line : String) : Bool :=
  match Command.ofLine? line with
  | some .step => true
  | some .quit => true
  | _ => false

namespace Command

variable {line : String}

theorem drives_of_step (h : ofLine? line = some .step) : drives line = true := by
  rw [drives, h]

theorem drives_of_quit (h : ofLine? line = some .quit) : drives line = true := by
  rw [drives, h]

theorem ne_step_of_not_drives (h : drives line = false) : ofLine? line ≠ some .step := by
  intro hstep
  rw [drives_of_step hstep] at h
  cases h

theorem ne_quit_of_not_drives (h : drives line = false) : ofLine? line ≠ some .quit := by
  intro hquit
  rw [drives_of_quit hquit] at h
  cases h

/-- A line is a step, is to quit, or drives nothing. -/
theorem line_cases (line : String) :
    ofLine? line = some .step ∨ ofLine? line = some .quit ∨ drives line = false := by
  unfold drives
  split
  · exact .inl ‹_›
  · exact .inr (.inl ‹_›)
  · exact .inr (.inr rfl)

end Command

namespace Console

open Command

/-! ### what is read and said -/

/-- Some lines with the replies to them. -/
abbrev Exchanges := List (String × String)

/-- What is told of a pause that a step led to. -/
def stepText (pause : DebugView × World) : String :=
  pause.1.pauseText pause.2.heap ++ "\n"

/-- The reply to a command that does not drive the script. -/
def remark (pause : DebugView × World) : Option Command → String
  | some .back => backText
  | some .locals => localsText pause.1 pause.2
  | _ => help

/-- The lines that have replies after a pause and some later ones, and the lines from the first one
on that has none. -/
def converse : List String → DebugView × World → List (DebugView × World) → Exchanges × List String
  | [], _, _ => ([], [])
  | line :: rest, pause, later =>
    match ofLine? line with
    | some .quit => ([], line :: rest)
    | some .step =>
      match later with
      | [] => ([], line :: rest)
      | next :: later =>
        ((line, stepText next) :: (converse rest next later).1, (converse rest next later).2)
    | command =>
      ((line, remark pause command) :: (converse rest pause later).1, (converse rest pause later).2)

/-- Prompts and replies. -/
def said (answered : Exchanges) : List String :=
  answered.flatMap fun e => [prompt, e.2]

/-- Why a console stops at the end of its lines. -/
def endError (undecodable : Bool) : DebugError :=
  if undecodable then .console "stream did not contain valid UTF-8" else .programExit

/-- What a console answers after some exchanges, and what becomes of it. -/
def conclude (undecodable : Bool) (answers : List String) :
    Exchanges × List String → Resume × Console
  | (answered, []) =>
    (.quit, { desk := .separate [] false (prompt :: ((said answered).reverse ++ answers)),
              stopped := some (endError undecodable) })
  | (answered, line :: rest) =>
    let desk := .separate rest undecodable (prompt :: ((said answered).reverse ++ answers))
    if ofLine? line = some .step then (.step, { desk, stepping := true })
    else (.quit, { desk, stopped := some .programExit })

section Converse

variable {line : String} {rest : List String} {p q : DebugView × World}
  {ps : List (DebugView × World)}

theorem converse_quit (h : ofLine? line = some .quit) :
    converse (line :: rest) p ps = ([], line :: rest) := by
  rw [converse.eq_def]
  dsimp only
  rw [h]

theorem converse_last (h : ofLine? line = some .step) :
    converse (line :: rest) p [] = ([], line :: rest) := by
  rw [converse.eq_def]
  dsimp only
  rw [h]

theorem converse_step (h : ofLine? line = some .step) :
    converse (line :: rest) p (q :: ps) =
      ((line, stepText q) :: (converse rest q ps).1, (converse rest q ps).2) := by
  rw [converse.eq_def]
  dsimp only
  rw [h]

theorem converse_remark (h : drives line = false) :
    converse (line :: rest) p ps =
      ((line, remark p (ofLine? line)) :: (converse rest p ps).1, (converse rest p ps).2) := by
  unfold drives at h
  rw [converse.eq_def]
  dsimp only
  split at h
  · cases h
  · cases h
  · next hstep hquit =>
    split
    · next hline => exact absurd hline hquit
    · next hline => exact absurd hline hstep
    · rfl

/-- Lines and pauses as they are taken off: a step takes a pause, and other commands do not. -/
theorem converse_induction
    {motive : List String → DebugView × World → List (DebugView × World) → Prop}
    (nil : ∀ p ps, motive [] p ps)
    (quit : ∀ line rest p ps, ofLine? line = some .quit → motive (line :: rest) p ps)
    (last : ∀ line rest p, ofLine? line = some .step → motive (line :: rest) p [])
    (step : ∀ line rest p q ps, ofLine? line = some .step → motive rest q ps →
      motive (line :: rest) p (q :: ps))
    (remark : ∀ line rest p ps, drives line = false → motive rest p ps →
      motive (line :: rest) p ps)
    (lines : List String) (p : DebugView × World) (ps : List (DebugView × World)) :
    motive lines p ps := by
  induction lines generalizing p ps with
  | nil => exact nil p ps
  | cons line rest ih =>
    rcases line_cases line with hline | hline | hline
    · cases ps with
      | nil => exact last line rest p hline
      | cons q ps => exact step line rest p q ps hline (ih q ps)
    · exact quit line rest p ps hline
    · exact remark line rest p ps hline (ih p ps)

end Converse

/-! ### the console converses -/

section Serve

variable {undecodable : Bool}

theorem conclude_cons (e : String × String) (answered : Exchanges) (left answers : List String) :
    conclude undecodable answers (e :: answered, left) =
      conclude undecodable (e.2 :: prompt :: answers) (answered, left) := by
  have same : (said (e :: answered)).reverse ++ answers =
      (said answered).reverse ++ e.2 :: prompt :: answers := by
    simp [said]
  cases left with
  | nil => simp only [conclude, same]
  | cons line rest => simp only [conclude, same]

theorem conclude_append (answered more : Exchanges) (left answers : List String) :
    conclude undecodable answers (answered ++ more, left) =
      conclude undecodable ((said answered).reverse ++ answers) (more, left) := by
  induction answered generalizing answers with
  | nil => rfl
  | cons e answered ih =>
    rw [List.cons_append, conclude_cons, ih]
    simp [said]

/-- A line that drives nothing is replied to. -/
theorem serve_remark (view : DebugView) (w : World) {line : String} {rest answers : List String}
    {fuel : Nat} (h : drives line = false) :
    serve view (fuel + 1) (.separate (line :: rest) undecodable answers) w =
      serve view fuel (.separate rest undecodable
        (remark (view, w) (ofLine? line) :: prompt :: answers)) w := by
  unfold drives at h
  simp only [serve, Desk.write, Desk.read]
  split at h
  · cases h
  · cases h
  · next hstep hquit =>
    split
    · next hline => exact absurd hline hstep
    · next hline => exact absurd hline hquit
    · next hline => rw [hline, remark]
    · next hline => rw [hline, remark]
    · next hline => rw [hline, remark] <;> exact nofun

/-- At a pause the console converses up to a line that drives the script. -/
theorem serve_eq (view : DebugView) (w : World) {lines answers : List String} {fuel : Nat}
    (hfuel : lines.length < fuel) :
    serve view fuel (.separate lines undecodable answers) w =
      ((conclude undecodable answers (converse lines (view, w) [])).1, w,
        (conclude undecodable answers (converse lines (view, w) [])).2) := by
  induction lines generalizing answers fuel with
  | nil =>
    obtain ⟨fuel, rfl⟩ := Nat.exists_eq_add_of_lt hfuel
    cases undecodable with
    | true => rfl
    | false => rfl
  | cons line rest ih =>
    obtain ⟨fuel, rfl⟩ : ∃ n, fuel = n + 1 := ⟨fuel - 1, by simp at hfuel; omega⟩
    have hrest : rest.length < fuel := by simpa using hfuel
    rcases line_cases line with hline | hline | hline
    · rw [converse_last hline]
      simp only [serve, Desk.write, Desk.read, hline, conclude, said]
      rfl
    · rw [converse_quit hline]
      simp only [serve, Desk.write, Desk.read, hline, conclude, said, stop]
      rfl
    · rw [converse_remark hline, conclude_cons, serve_remark view w hline, ih hrest]

end Serve

/-! ### one pause more -/

/-- Where a step was said, the next pause is told, and then the console converses at that pause. -/
theorem converse_concat {lines rest : List String} {line : String} {answered : Exchanges}
    {p : DebugView × World} {ps : List (DebugView × World)}
    (h : converse lines p ps = (answered, line :: rest)) (hline : ofLine? line = some .step)
    (q : DebugView × World) :
    converse lines p (ps ++ [q]) =
      (answered ++ (line, stepText q) :: (converse rest q []).1, (converse rest q []).2) := by
  induction lines, p, ps using converse_induction generalizing answered with
  | nil p ps => cases h
  | quit first others p ps hfirst =>
    rw [converse_quit hfirst] at h
    cases h
    rw [hline] at hfirst
    cases hfirst
  | last first others p hfirst =>
    rw [converse_last hfirst] at h
    cases h
    exact converse_step hfirst
  | step first others p next ps hfirst ih =>
    rw [converse_step hfirst] at h
    obtain ⟨rfl, hleft⟩ := Prod.mk.inj h
    rw [List.cons_append, converse_step hfirst, ih (Prod.ext rfl hleft)]
    rfl
  | remark first others p ps hfirst ih =>
    rw [converse_remark hfirst] at h
    obtain ⟨rfl, hleft⟩ := Prod.mk.inj h
    rw [converse_remark hfirst, ih (Prod.ext rfl hleft)]
    rfl

/-- A console that has heard and said what comes of its lines and of the pauses, and has answered
the last one. -/
def Follows (lines : List String) (undecodable : Bool) (answer : Resume) (console : Console)
    (log : Log) : Prop :=
  ∃ p ps, log.reverse = p :: ps ∧
    conclude undecodable [help] (converse lines p ps) = (answer, console)

section Follows

variable {lines : List String} {undecodable : Bool} {console : Console} {log : Log}

/-- The first time, the console tells what commands there are. -/
theorem resume_first (lines : List String) (undecodable : Bool) (view : DebugView) (w : World) :
    ∃ answer console, resume view w { desk := .separate lines undecodable [] } =
        (answer, w, console) ∧ Follows lines undecodable answer console [(view, w)] :=
  ⟨_, _, serve_eq view w (Nat.lt_succ_self _), _, _, rfl, rfl⟩

/-- Every other time it tells of the pause. -/
theorem Follows.resume (h : Follows lines undecodable .step console log) (view : DebugView)
    (w : World) :
    ∃ answer console', Console.resume view w console = (answer, w, console') ∧
      Follows lines undecodable answer console' ((view, w) :: log) := by
  obtain ⟨p, ps, hlog, state⟩ := h
  rcases heard : converse lines p ps with ⟨answered, _ | ⟨line, rest⟩⟩
  · rw [heard] at state
    cases state
  · rw [heard, conclude] at state
    split at state
    · next hline =>
      obtain ⟨-, rfl⟩ := Prod.mk.inj state
      have grown := converse_concat heard hline (view, w)
      refine ⟨_, _, serve_eq view w (Nat.lt_succ_self _), p, ps ++ [(view, w)], ?_, ?_⟩
      · rw [List.reverse_cons, hlog, List.cons_append]
      · rw [grown, conclude_append, conclude_cons]
        rfl
    · cases state

end Follows

/-! ### what the lines order -/

/-- How often some lines tell the script to go on, and why they stop it then. -/
def orders (undecodable : Bool) : List String → Nat × DebugError
  | [] => (0, endError undecodable)
  | line :: rest =>
    match ofLine? line with
    | some .step => ((orders undecodable rest).1 + 1, (orders undecodable rest).2)
    | some .quit => (0, .programExit)
    | _ => orders undecodable rest

section Orders

variable {undecodable : Bool} {line : String} {rest : List String}

theorem orders_step (h : ofLine? line = some .step) :
    orders undecodable (line :: rest) =
      ((orders undecodable rest).1 + 1, (orders undecodable rest).2) := by
  rw [orders, h]

theorem orders_quit (h : ofLine? line = some .quit) :
    orders undecodable (line :: rest) = (0, .programExit) := by
  rw [orders, h]

theorem orders_remark (h : drives line = false) :
    orders undecodable (line :: rest) = orders undecodable rest := by
  unfold drives at h
  rw [orders]
  split at h
  · cases h
  · cases h
  · rfl

/-- Lines that drive nothing order nothing. -/
theorem orders_filter (undecodable : Bool) (lines : List String) :
    orders undecodable (lines.filter drives) = orders undecodable lines := by
  induction lines with
  | nil => rfl
  | cons line rest ih =>
    rcases line_cases line with hline | hline | hline
    · rw [List.filter_cons_of_pos (drives_of_step hline), orders_step hline, orders_step hline, ih]
    · rw [List.filter_cons_of_pos (drives_of_quit hline), orders_quit hline, orders_quit hline]
    · rw [List.filter_cons_of_neg (by simp [hline]), orders_remark hline, ih]

/-- To quit at the end of the lines is what they order without it. -/
theorem orders_append_quit (h : ofLine? line = some .quit) (lines more : List String) :
    orders false (lines ++ line :: more) = orders false lines := by
  induction lines with
  | nil => exact orders_quit h
  | cons first lines ih =>
    rw [List.cons_append]
    rcases line_cases first with hfirst | hfirst | hfirst
    · rw [orders_step hfirst, orders_step hfirst, ih]
    · rw [orders_quit hfirst, orders_quit hfirst]
    · rw [orders_remark hfirst, orders_remark hfirst, ih]

/-- The console says to go on as often as its lines order, and then it stops for their reason. -/
theorem conclude_orders (undecodable : Bool) (lines answers : List String) (p : DebugView × World)
    (ps : List (DebugView × World)) :
    let r := conclude undecodable answers (converse lines p ps)
    let o := orders undecodable lines
    r.1 = (if ps.length < o.1 then .step else .quit) ∧
      r.2.stopped = if ps.length < o.1 then none else some o.2 := by
  induction lines, p, ps using converse_induction generalizing answers with
  | nil p ps => exact ⟨rfl, rfl⟩
  | quit line rest p ps hline =>
    have hno : ¬ofLine? line = some .step := by simp [hline]
    rw [converse_quit hline, orders_quit hline, conclude, if_neg hno]
    exact ⟨rfl, rfl⟩
  | last line rest p hline =>
    rw [converse_last hline, orders_step hline, conclude, if_pos hline]
    exact ⟨(if_pos (Nat.succ_pos _)).symm, (if_pos (Nat.succ_pos _)).symm⟩
  | step line rest p q ps hline ih =>
    rw [converse_step hline, orders_step hline, conclude_cons]
    simpa using ih (stepText q :: prompt :: answers)
  | remark line rest p ps hline ih =>
    rw [converse_remark hline, orders_remark hline, conclude_cons]
    exact ih _

end Orders

/-! ### orders played back -/

/-- A console answers as its orders do when they are played back. -/
theorem Follows.alike {lines : List String} {undecodable : Bool} {console : Console} {log : Log}
    {answer : Resume} {view : DebugView} {w : World}
    (h : Follows lines undecodable answer console ((view, w) :: log)) :
    Resume.Alike (Follows lines undecodable .step) (Follows lines undecodable .quit)
      (answer, w, console)
      ((Controller.playing (List.replicate (orders undecodable lines).1 .step)).resume view w
        log) := by
  obtain ⟨p, ps, hlog, state⟩ := h
  have hlength : ps.length = log.length := by
    simpa using (congrArg List.length hlog).symm
  have ordered := (conclude_orders undecodable lines [help] p ps).1
  rw [state, hlength] at ordered
  rw [Controller.playing_steps]
  by_cases short : log.length < (orders undecodable lines).1
  · rw [if_pos short] at ordered ⊢
    cases ordered
    exact .step w ⟨p, ps, hlog, state⟩
  · rw [if_neg short] at ordered ⊢
    cases ordered
    exact .quit w ⟨p, ps, hlog, state⟩

/-- **What drives a script from a console** is what its lines order: the script goes the same way as
with these orders played back. -/
theorem inLine (p : Program) (lines : List String) (undecodable : Bool) (fuel : Nat) (w : World) :
    Debugged.InLine (Follows lines undecodable .step) (Follows lines undecodable .quit)
      (p.debug controller { desk := .separate lines undecodable [] } fuel w)
      (p.debug (.playing (List.replicate (orders undecodable lines).1 .step)) [] fuel w) := by
  refine p.debug_inLine_of_alike ?_ ?_ fuel
  · obtain ⟨answer, console, resumed, follows⟩ := resume_first lines undecodable {} w
    change Resume.Alike _ _ (resume {} w { desk := .separate lines undecodable [] }) _
    rw [resumed]
    exact follows.alike
  · intro view w console log h
    obtain ⟨answer, console', resumed, follows⟩ := h.resume view w
    change Resume.Alike _ _ (resume view w console) _
    rw [resumed]
    exact follows.alike

end Console

end Roteiro
