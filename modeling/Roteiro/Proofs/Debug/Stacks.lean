import Roteiro.Proofs.Debug.Quitting
import Roteiro.Proofs.Trace.Brackets

/-!
What is on the stack at a pause. In the moments of a guarded run every value stands at the end of an
evaluation that was entered in the same context and at the same level (`Matched`), so the innermost
open node is the one whose value is shown (`Closes.head_opened`). The debugger shows it on top of
its stack, together with the context that the node runs in (`brackets`).
-/

namespace Roteiro

/-! ### matching -/

/-- What comes before a value that is shown in the context `c` of the world `w'`: its node was
entered in the same context and at the same level, and all that came since was evaluated for it and
finished. -/
def Closes (before : List Moment) (node : Node) (c : ContextId) (w' : World) : Prop :=
  ∃ earlier w inner all, before = earlier ++ .enter node c w :: inner ∧ Visits node all inner ∧
    (w'.context c).level = (w.context c).level

/-- Every value is that of a node that was entered before. -/
def Matched (ms : List Moment) : Prop :=
  ∀ before v c w after, ms = before ++ .leave v c w :: after → ∃ node, Closes before node c w

namespace Closes

variable {before : List Moment} {node : Node} {c : ContextId} {w : World}

theorem prepend (ms : List Moment) (h : Closes before node c w) : Closes (ms ++ before) node c w := by
  obtain ⟨earlier, w₀, inner, all, rfl, visits, level⟩ := h
  exact ⟨ms ++ earlier, w₀, inner, all, by simp, visits, level⟩

/-- The node is the innermost open one. -/
theorem head_opened (h : Closes before node c w) : (Moment.opened before).head? = some node := by
  obtain ⟨earlier, w₀, inner, all, rfl, visits, _⟩ := h
  unfold Moment.opened
  rw [List.foldl_append, List.foldl_cons, visits.foldl_reopen]
  rfl

end Closes

namespace Matched

variable {ms ns : List Moment}

theorem nil : Matched [] := by
  intro before v c w after cut
  simp at cut

theorem append (h : Matched ms) (k : Matched ns) : Matched (ms ++ ns) := by
  intro before v c w after cut
  rcases List.append_eq_append_iff.1 cut with ⟨rest, rfl, split⟩ | ⟨rest, rfl, split⟩
  · obtain ⟨node, closes⟩ := k rest v c w after split
    exact ⟨node, closes.prepend ms⟩
  · cases rest with
    | nil =>
      obtain ⟨node, closes⟩ := k [] v c w after split.symm
      exact ⟨node, by simpa using closes.prepend before⟩
    | cons m rest =>
      rw [List.cons_append, List.cons.injEq] at split
      obtain ⟨rfl, -⟩ := split
      exact h before v c w rest rfl

theorem enter (node : Node) (c : ContextId) (w : World) : Matched [.enter node c w] := by
  intro before v d w' after cut
  rcases before with _ | ⟨m, before⟩
  · cases cut
  · simp at cut

/-- An evaluation that was finished. -/
theorem closed {node : Node} {c : ContextId} {w w' : World} {u : List Moment} (h : Matched ms)
    (visits : Visits node u ms) (level : (w'.context c).level = (w.context c).level) (v : Value) :
    Matched (.enter node c w :: ms ++ [.leave v c w']) := by
  intro before v' d w'' after cut
  rcases List.append_eq_append_iff.1 cut with ⟨rest, rfl, split⟩ | ⟨rest, entered, split⟩
  · cases rest with
    | nil =>
      cases split
      exact ⟨node, [], w, ms, u, by simp, visits, level⟩
    | cons m rest => simp at split
  · cases rest with
    | nil =>
      cases split
      rw [List.append_nil] at entered
      exact ⟨node, [], w, ms, u, entered.symm, visits, level⟩
    | cons m rest =>
      rw [List.cons_append, List.cons.injEq] at split
      obtain ⟨rfl, -⟩ := split
      exact (enter node c w).append h before v' d w'' rest entered

end Matched

theorem Visits.matched {N : Node} {u g : List Moment} (h : Visits N u g) : Matched g := by
  induction h with
  | nil => exact .nil
  | cons c w w' v _ _ level inner _ ih later =>
    have joined := (ih.closed inner level v).append later
    simpa using joined

theorem Underway.matched {N : Node} {chain : List Node} {u g : List Moment}
    (h : Underway N chain u g) : Matched g := by
  induction h with
  | here done => exact done.matched
  | @inside _ node _ _ _ _ _ done c w _ _ ih =>
    have joined := done.matched.append ((Matched.enter node c w).append ih)
    simpa using joined

namespace Program.Recounts

variable {p : Program} {c : ContextId} {w : World} {o : Outcome Value} {u g : List Moment}
  (h : p.Recounts c w o u g)

include h

theorem matched : Matched g := by
  cases h with
  | value v w' level visits => exact visits.matched.closed visits level v
  | short o no_value underway =>
    exact (Matched.enter (.program p) c w).append underway.matched

/-- A run that ends with a value leaves nothing open. -/
theorem opened_of_value {v : Value} (value : o = .ok v) : Moment.opened g = [] := by
  cases h with
  | value v' w' level visits =>
    have closed := visits.foldl_reopen [Node.program p]
    unfold Moment.opened
    rw [List.foldl_append]
    exact congrArg (List.drop 1) closed
  | short o no_value underway => exact absurd value (no_value v)

/-- Another one leaves open the nodes under evaluation, from the script down. -/
theorem opened_of_short (no_value : ∀ v, o ≠ .ok v) :
    ∃ chain, List.IsChain Node.Holds (.program p :: chain) ∧
      Moment.opened g = (Node.program p :: chain).reverse := by
  cases h with
  | value v => exact absurd rfl (no_value v)
  | @short o chain _ _ no_value underway =>
    refine ⟨chain, underway.isChain, ?_⟩
    unfold Moment.opened
    rw [List.foldl_cons, underway.foldl_reopen, List.reverse_cons]
    rfl

end Program.Recounts

/-! ### locals -/

/-- The locals that are listed of a context are those of its current level, from the oldest to the
newest, each with its name and its value. -/
def Context.Lists (a : Context) (listed : List (String × Value)) : Prop :=
  listed = (a.locals.reverse.filter fun l => l.level = a.level).map fun l => (l.name, l.value)

theorem Context.lists_currentLocals (a : Context) : a.Lists a.currentLocals := by
  unfold Lists currentLocals
  rw [List.filter_reverse, List.map_reverse]
  simp only [beq_eq_decide]

/-! ### brackets -/

/-- The events of a run of a script are well bracketed. -/
structure Program.Bracketed (p : Program) (fuel : Nat) (w : World) : Prop where
  /-- The events of a trace are those of the moments of the run. -/
  told : ∀ guarded, (p.runWith Trace.observer { guarded } fuel w).2.watch.events =
    (p.history guarded fuel w).map Moment.event
  /-- A guarded observer takes each evaluation once: its moments are the others with the repetitions
  collapsed. -/
  once : p.Recounts w.newGlobal.1 w.newGlobal.2 (p.run fuel w).1 (p.history false fuel w)
    (p.history true fuel w)
  /-- Every value is that of a node entered in the same context and at the same level. -/
  matched : Matched (p.history true fuel w)
  /-- A run that ends with a value leaves nothing open. -/
  balanced : ∀ v, (p.run fuel w).1 = .ok v → Moment.opened (p.history true fuel w) = []
  /-- Another one leaves open the chain of nodes under evaluation, from the script down. -/
  unmatched : (∀ v, (p.run fuel w).1 ≠ .ok v) → ∃ chain,
    List.IsChain Node.Holds (.program p :: chain) ∧
      Moment.opened (p.history true fuel w) = (Node.program p :: chain).reverse

theorem Program.bracketed (p : Program) (fuel : Nat) (w : World) : p.Bracketed fuel w := by
  have recounts := p.recounts fuel w
  have same : (p.runWith Chronicle.observer { guarded := true } fuel w).1 = (p.run fuel w).1 :=
    (congrArg Prod.fst (p.trace_eq { guarded := true } fuel w)).symm.trans (p.trace_run true fuel w).1
  rw [same] at recounts
  exact
    { told := fun guarded => p.events_eq guarded fuel w
      once := recounts
      matched := recounts.matched
      balanced := fun v => recounts.opened_of_value
      unmatched := recounts.opened_of_short }

/-- **The trace is well bracketed and names each evaluation once.** A guarded observer takes every
evaluation of a run once; each value is matched with the node that was entered for it, in the same
context and at the same level; and what is open at the end is nothing, or else the chain of nodes
under evaluation. So whenever a script is paused with a value, the node on top of the stack is the
one that has the value, the context on display is the one that it runs in, and the locals are those
of this context at its current level. -/
theorem brackets (p : Program) (w : World) :
    (∀ fuel, p.Bracketed fuel w) ∧
    ∀ k view world v, p.Acts w (List.replicate (k + 1) .step) (.pause view world) →
      view.last = some v →
      ∃ fuel before after node c,
        p.history true fuel w = before ++ .leave v c world :: after ∧ before.length = k ∧
        Closes before node c world ∧ view.stack.head? = some node.label ∧
        view.context = some c ∧ view.locals world = (world.context c).currentLocals ∧
        (world.context c).Lists (view.locals world) := by
  refine ⟨fun fuel => p.bracketed fuel w, fun k view world v acts last => ?_⟩
  obtain ⟨fuel, before, moment, after, history, length, rfl, rfl⟩ := acts.held_at
  cases moment with
  | enter node c w' => cases last
  | leave v' c w' =>
    cases last
    obtain ⟨node, closes⟩ := (p.bracketed fuel w).matched before v c w' after history
    refine ⟨fuel, before, after, node, c, history, length, closes, ?_, rfl, rfl,
      (w'.context c).lists_currentLocals⟩
    change ((Moment.opened before).map Node.label).head? = _
    rw [List.head?_map, closes.head_opened]
    rfl

/-- A script that is a number, paused where the number has its value. -/
theorem brackets_of_number :
    let p : Program := ⟨[.expression (.atom (.number 2) ⟨0, 1⟩)], ⟨0, 1⟩⟩
    let w : World := .around (.captured [])
    ∃ view world, p.Acts w [.step, .step, .step, .step] (.pause view world) ∧
      view.last = some (.number 2) ∧ ∃ node c, view.stack.head? = some (Node.label node) ∧
        view.context = some c ∧ view.locals world = (world.context c).currentLocals ∧
        (world.context c).Lists (view.locals world) := by
  intro p w
  let run (c : ContextId) (g : World) := Session.rest
    (Controller.playing [.step, .step, .step, .step]).observer 2 { program := p, context := c }
    ⟨g, ⟨{}, [({}, w)]⟩⟩
  have halted : ∀ c g, (run c g).1 = .error ⟨.halted, ⟨0, 1⟩⟩ :=
    fun _ _ => by with_unfolding_all rfl
  have asked : ∀ c g, (run c g).2.watch.driver.length = 5 := fun _ _ => by with_unfolding_all rfl
  have valued : ∀ c g, ((run c g).2.watch.driver.head?.bind fun seen => seen.1.last) =
      some (.number 2) := fun _ _ => by with_unfolding_all rfl
  have begins : ∀ (p : Program) (w : World), p.debug (.playing [.step, .step, .step, .step]) [] 2 w =
      let (outcome, m) := Session.rest (Controller.playing [.step, .step, .step, .step]).observer 2
        { program := p, context := w.newGlobal.1 } ⟨w.newGlobal.2, ⟨{}, [({}, w)]⟩⟩
      ⟨outcome, m.watch.view, m.world, m.watch.driver⟩ := fun _ _ => rfl
  have debugged := begins p w
  generalize w.newGlobal = global at debugged
  specialize halted global.1 global.2
  specialize asked global.1 global.2
  specialize valued global.1 global.2
  change p.debug _ [] 2 w = Debugged.mk (run global.1 global.2).1 _ _ _ at debugged
  obtain ⟨⟨view, world⟩, earlier, driver⟩ := List.exists_cons_of_length_eq_add_one asked
  rw [driver] at asked valued
  have paused : p.Acts w [.step, .step, .step, .step] (.pause view world) :=
    ⟨2, by rw [debugged, halted]; simp,
      by rw [debugged, Debugged.act_cons driver]; exact if_pos (Nat.succ.inj asked)⟩
  obtain ⟨_, _, _, node, c, _, _, _, top, locals⟩ := (brackets p w).2 3 view world _ paused valued
  exact ⟨view, world, paused, valued, node, c, top, locals⟩

end Roteiro
