import Roteiro.Proofs.World.Apart
import Roteiro.Proofs.World.Closures
import Roteiro.Proofs.World.Tidy

/-!
All functions of a world. Besides the locals and the collections, functions also stand among the
values that the running calls have returned so far. So that something holds of every function that a
call gives back, it has to hold of those too (`World.Admits`). Scopes, rounds and calls are opened
and closed without a function getting in that was not there before.
-/

namespace Roteiro

variable {α : Type} {R : Closure → Prop}

/-! ### contexts -/

/-- A context of which all functions obey `R`, those among returned values too. -/
structure Context.Admits (R : Closure → Prop) (c : Context) : Prop where
  locals : c.Obeys R
  calls : ∀ values ∈ c.calls, ∀ v ∈ values, v.Obeys R

namespace Context.Admits

variable {c c' : Context}

theorem root : Context.Admits R .root where
  locals := .root
  calls _ member := nomatch member

theorem inside (parent : ContextId) : Context.Admits R (.inside parent) where
  locals _ member := nomatch member
  calls _ member := nomatch member

theorem write (h : c.Admits R) (slot : Nat) {v : Value} (hv : v.Obeys R) :
    (c.write slot v).Admits R := by
  refine ⟨h.locals.write slot hv, ?_⟩
  unfold Context.write
  split
  · exact h.calls
  · exact h.calls

theorem define (h : c.Admits R) {name : String} {v : Value} (hv : v.Obeys R)
    (defined : c.define name v = .ok c') : c'.Admits R := by
  refine ⟨h.locals.define hv defined, ?_⟩
  unfold Context.define at defined
  split at defined
  · cases defined
  · cases defined
    exact h.calls

theorem leave (h : c.Admits R) : c.leave.Admits R :=
  ⟨h.locals.leave, h.calls⟩

theorem pushCall (h : c.Admits R) : c.pushCall.Admits R :=
  ⟨h.locals, List.forall_mem_cons.2 ⟨fun _ member => (List.not_mem_nil member).elim, h.calls⟩⟩

theorem signal (h : c.Admits R) {f : LoopFrame → LoopFrame} (marked : c.signal f = .ok c') :
    c'.Admits R := by
  unfold Context.signal at marked
  split at marked
  · cases marked
    exact ⟨h.locals, h.calls⟩
  · cases marked

theorem popLoop (h : c.Admits R) {frame : LoopFrame} (popped : c.popLoop = .ok (frame, c')) :
    c'.Admits R := by
  unfold Context.popLoop at popped
  split at popped
  · cases popped
    exact ⟨h.locals, h.calls⟩
  · cases popped

theorem pushReturns (h : c.Admits R) {vs : List Value} (hvs : ∀ v ∈ vs, v.Obeys R)
    (pushed : c.pushReturns vs = .ok c') : c'.Admits R := by
  obtain ⟨hl, hc⟩ := h
  unfold Context.pushReturns at pushed
  split at pushed
  · next returned rest open_calls =>
    cases pushed
    rw [open_calls] at hc
    obtain ⟨first, others⟩ := List.forall_mem_cons.1 hc
    exact ⟨hl, List.forall_mem_cons.2 ⟨List.forall_mem_append.2 ⟨first, hvs⟩, others⟩⟩
  · cases pushed

/-- What a call gives back is what it has returned. -/
theorem popCall (h : c.Admits R) {returned : List Value} (popped : c.popCall = .ok (returned, c')) :
    (∀ v ∈ returned, v.Obeys R) ∧ c'.Admits R := by
  obtain ⟨hl, hc⟩ := h
  unfold Context.popCall at popped
  split at popped
  · next innermost rest open_calls =>
    cases popped
    rw [open_calls] at hc
    obtain ⟨first, others⟩ := List.forall_mem_cons.1 hc
    exact ⟨first, hl, others⟩
  · cases popped

end Context.Admits

/-! ### worlds -/

/-- A world of which all functions obey `R`. -/
structure World.Admits (R : Closure → Prop) (w : World) : Prop where
  contexts : ∀ i, (w.context i).Admits R
  heap : w.heap.Obeys R

/-- A new world has no functions. -/
theorem World.admits_new (terminal : Terminal) (dice : Dice) (seed : Nat) :
    World.Admits R { terminal, dice, seed } where
  contexts _ := .root
  heap _ member := (Array.not_mem_empty _ member).elim

namespace World.Admits

variable {w : World} (h : w.Admits R)

include h

theorem obeys : w.Obeys R :=
  ⟨fun i => (h.contexts i).locals, h.heap⟩

theorem update (c : ContextId) {f : Context → Context} (hf : (f (w.context c)).Admits R) :
    (w.update c f).Admits R :=
  ⟨Contexts.forall_update h.contexts hf, h.heap⟩

theorem set (c : ContextId) {d : Context} (hd : d.Admits R) :
    World.Admits R { w with contexts := w.contexts.setIfInBounds c d } :=
  ⟨Contexts.forall_set h.contexts hd, h.heap⟩

theorem addContext {c : Context} (hc : c.Admits R) : (w.addContext c).2.Admits R :=
  ⟨Contexts.forall_push h.contexts hc, h.heap⟩

/-- What stands apart from the contexts leaves the returned values alone. -/
theorem apart {f : World → α × World} (hf : Apart f) (obeys : (f w).2.Obeys R) :
    (f w).2.Admits R := by
  refine ⟨fun i => ⟨obeys.contexts i, ?_⟩, obeys.heap⟩
  unfold World.context
  rw [hf.contexts w]
  exact (h.contexts i).calls

/-! #### names -/

theorem onContext (c : ContextId) {f : Context → Except RuntimeFault Context}
    (hf : ∀ d, f (w.context c) = .ok d → d.Admits R) : (World.onContext c f w).2.Admits R := by
  unfold World.onContext World.onContexts
  change ∀ d, f (w.contexts.context c) = .ok d → d.Admits R at hf
  dsimp only
  cases done : f (w.contexts.context c) with
  | error fault => exact h
  | ok d => exact h.set c (hf d done)

theorem define (c : ContextId) (name : String) {v : Value} (hv : v.Obeys R) :
    (World.define c name v w).2.Admits R := by
  show (World.onContext c (·.define name v) w).2.Admits R
  exact h.onContext c fun _ defined => (h.contexts c).define hv defined

theorem assign (c : ContextId) (name : String) {v : Value} (hv : v.Obeys R) :
    (World.assign c name v w).2.Admits R := by
  unfold World.assign World.onContexts Contexts.assign
  dsimp only
  cases w.contexts.resolve? c name with
  | none => exact h
  | some b => exact h.update b.context ((h.contexts b.context).write b.slot hv)

/-! #### scopes, rounds and calls -/

theorem enterScope (c : ContextId) : (w.enterScope c).Admits R :=
  h.update c ⟨(h.contexts c).locals, (h.contexts c).calls⟩

theorem leaveScope (c : ContextId) : (w.leaveScope c).Admits R :=
  h.update c (h.contexts c).leave

theorem pushLoop (c : ContextId) : (w.update c Context.pushLoop).Admits R :=
  h.update c ⟨(h.contexts c).locals, (h.contexts c).calls⟩

theorem popLoop (c : ContextId) : (World.popLoop c w).2.Admits R := by
  unfold World.popLoop
  split
  · next popped => exact h.set c ((h.contexts c).popLoop popped)
  · exact h

theorem pushCall (c : ContextId) : (w.update c Context.pushCall).Admits R :=
  h.update c (h.contexts c).pushCall

theorem popCall (c : ContextId) : (World.popCall c w).2.Admits R ∧
    ∀ returned, (World.popCall c w).1 = .ok returned → ∀ v ∈ returned, v.Obeys R := by
  unfold World.popCall
  split
  · next popped =>
    obtain ⟨obeyed, after⟩ := (h.contexts c).popCall popped
    exact ⟨h.set c after, fun returned done => by cases done; exact obeyed⟩
  · exact ⟨h, fun _ done => nomatch done⟩

theorem newChild (parent : ContextId) : (w.newChild parent).2.Admits R :=
  h.addContext (.inside parent)

end World.Admits

/-! ### the library -/

theorem Dictionary.Obeys.writes {d : Dictionary} (h : d.Obeys R) {l : List (String × Value)}
    (hl : ∀ e ∈ l, e.2.Obeys R) : Dictionary.Obeys R (l.foldl (fun d e => d.set e.1 e.2) d) := by
  induction l generalizing d with
  | nil => exact h
  | cons e l ih =>
    obtain ⟨first, rest⟩ := List.forall_mem_cons.1 hl
    exact ih (h.set e.1 first) rest

theorem World.obeys_newBuiltins (builtins : List Builtin) (w : World) :
    ∀ e ∈ (w.newBuiltins builtins).1, e.2.Obeys R := by
  induction builtins generalizing w with
  | nil => exact fun _ member => nomatch member
  | cons b rest ih => exact List.forall_mem_cons.2 ⟨trivial, ih (w.newBuiltin b).2⟩

namespace World.Admits

variable {w : World} (h : w.Admits R)

include h

theorem newLibrary (name : String) (constants : List (String × Value)) (builtins : List Builtin)
    (hc : ∀ e ∈ constants, e.2.Obeys R) : (w.newLibrary name constants builtins).2.Admits R := by
  have entries : Dictionary.Obeys R (.ofList (constants ++ (w.newBuiltins builtins).1)) :=
    Dictionary.Obeys.empty.writes (List.forall_mem_append.2 ⟨hc, w.obeys_newBuiltins builtins⟩)
  have made : (w.newBuiltins builtins).2.Admits R := by
    refine ⟨fun i => ?_, ?_⟩
    · unfold World.context
      rw [w.contexts_newBuiltins]
      exact h.contexts i
    · rw [World.heap_newBuiltins]
      exact h.heap
  exact made.apart (apart_newDictionary _) (made.obeys.newDictionary entries)

/-- The functions of the library are built in, so they have no closures. -/
theorem newGlobal : w.newGlobal.2.Admits R := by
  have math := h.newLibrary "math" [("PI", .number pi), ("TAU", .number (2 * pi))]
    (MathFunction.all.map Builtin.math ++ [.random]) (by simp [Value.Obeys])
  have console := math.newLibrary "console" [] (ConsoleFunction.all.map Builtin.console) (by simp)
  have sleep := console.newLibrary "sleep" [] [.sleep] (by simp)
  refine sleep.addContext ⟨fun l member => ?_, fun _ member => nomatch member⟩
  simp only [List.mem_cons, List.not_mem_nil, or_false] at member
  rcases member with rfl | rfl | rfl
  · trivial
  · trivial
  · trivial

end World.Admits

end Roteiro
