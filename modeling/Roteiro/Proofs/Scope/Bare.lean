import Roteiro.Proofs.Eval.Observation
import Roteiro.Proofs.Scope.Layers
import Roteiro.Proofs.World.Apart

/-!
Contexts without their frames. Names are looked up, written and defined in bare contexts as they are
in the contexts themselves, and nothing that expressions are put together from looks at frames
(`Eval.Mirrors.bare`).
-/

namespace Roteiro

open Eval

variable {σ α : Type}

/-- A context without its frames. -/
def Context.bare (c : Context) : Context :=
  { c with loops := [], calls := [] }

/-- All contexts without their frames. -/
def Contexts.bare (cs : Contexts) : Contexts :=
  cs.map Context.bare

/-! ### contexts -/

namespace Context

theorem bare_define (c : Context) (name : String) (v : Value) :
    c.bare.define name v = (c.define name v).map bare := by
  unfold define
  change (if c.definedHere name then _ else _) = _
  split
  · rfl
  · rfl

theorem bare_write (c : Context) (slot : Nat) (v : Value) :
    c.bare.write slot v = (c.write slot v).bare := by
  unfold write
  change (if slot < c.locals.length then _ else _) = _
  split
  · rfl
  · rfl

theorem bare_valueAt (c : Context) (slot : Nat) : c.bare.valueAt slot = c.valueAt slot := rfl

theorem bare_slot (c : Context) (name : String) : c.bare.slot? name = c.slot? name := rfl

theorem bare_parent (c : Context) : c.bare.parent = c.parent := rfl

end Context

namespace Contexts

variable (cs : Contexts)

theorem size_bare : cs.bare.size = cs.size := Array.size_map

theorem context_bare (i : ContextId) : cs.bare.context i = (cs.context i).bare := by
  unfold context bare
  rw [Array.getElem?_map]
  cases cs[i]? with
  | none => rfl
  | some c => rfl

theorem bare_push (c : Context) : bare (cs.push c) = cs.bare.push c.bare := Array.map_push

theorem bare_set (i : ContextId) (c : Context) :
    bare (cs.setIfInBounds i c) = cs.bare.setIfInBounds i c.bare := by
  unfold bare
  exact Array.map_setIfInBounds

theorem bare_update (i : ContextId) (f : Context → Context) (hf : ∀ a, f a.bare = (f a).bare) :
    (cs.update i f).bare = cs.bare.update i f := by
  refine Array.ext (by simp [bare, update]) fun j hj _ => ?_
  simp only [bare, update, Array.getElem_map, Array.getElem_modify]
  split
  · exact (hf _).symm
  · rfl

/-- What changes only frames is not seen. -/
theorem bare_update_frames (i : ContextId) (f : Context → Context) (hf : ∀ a, (f a).bare = a.bare) :
    (cs.update i f).bare = cs.bare := by
  refine Array.ext (by simp [bare, update]) fun j hj _ => ?_
  simp only [bare, update, Array.getElem_map, Array.getElem_modify]
  split
  · exact hf _
  · rfl

theorem bare_set_frames {i : ContextId} {c : Context} (hc : c.bare = (cs.context i).bare) :
    bare (cs.setIfInBounds i c) = cs.bare := by
  refine Array.ext (by simp [bare]) fun j hj _ => ?_
  have hlt : j < cs.size := by simpa [bare] using hj
  simp only [bare, Array.getElem_map]
  rw [Array.getElem_setIfInBounds hlt]
  split
  · next hij =>
    subst hij
    rw [hc]
    unfold context
    rw [Array.getElem?_eq_getElem hlt]
    rfl
  · rfl

/-! ### names -/

theorem bare_resolveWithin (name : String) (fuel : Nat) (i : ContextId) :
    cs.bare.resolveWithin name fuel i = cs.resolveWithin name fuel i := by
  induction fuel generalizing i with
  | zero => rfl
  | succ fuel ih =>
    unfold resolveWithin
    rw [context_bare, Context.bare_slot, Context.bare_parent]
    cases (cs.context i).slot? name with
    | some slot => rfl
    | none =>
      cases (cs.context i).parent with
      | none => rfl
      | some parent => exact ih parent

theorem bare_resolve (i : ContextId) (name : String) :
    cs.bare.resolve? i name = cs.resolve? i name := by
  unfold resolve?
  rw [size_bare, bare_resolveWithin]

theorem bare_lookup (i : ContextId) (name : String) : cs.bare.lookup i name = cs.lookup i name := by
  unfold lookup read
  rw [bare_resolve]
  cases cs.resolve? i name with
  | none => rfl
  | some b =>
    dsimp only
    rw [context_bare, Context.bare_valueAt]

theorem bare_assign (i : ContextId) (name : String) (v : Value) :
    cs.bare.assign i name v = (cs.assign i name v).map bare := by
  unfold assign
  rw [bare_resolve]
  cases cs.resolve? i name with
  | none => rfl
  | some b =>
    have written : (cs.write b v).bare = cs.bare.write b v :=
      cs.bare_update b.context _ fun a => a.bare_write b.slot v
    exact congrArg Except.ok written.symm

theorem bare_define (i : ContextId) (name : String) (v : Value) :
    cs.bare.define i name v = (cs.define i name v).map bare := by
  unfold define
  rw [context_bare, Context.bare_define]
  cases (cs.context i).define name v with
  | error fault => rfl
  | ok c => exact congrArg Except.ok (cs.bare_set i c).symm

end Contexts

/-! ### worlds -/

namespace World

theorem Apart.through {f : World → α × World} (h : Apart f) (g : Contexts → Contexts) (w : World) :
    f (w.through g) = ((f w).1, (f w).2.through g) := by
  have moved := h (g w.contexts) w
  unfold World.through
  rw [h.contexts]
  exact moved

theorem bare_onContexts {f : Contexts → Except RuntimeFault Contexts}
    (hf : ∀ cs : Contexts, f cs.bare = (f cs).map Contexts.bare) (w : World) :
    onContexts f (w.through Contexts.bare) =
      ((onContexts f w).1, (onContexts f w).2.through Contexts.bare) := by
  have hw := hf w.contexts
  unfold onContexts World.through
  dsimp only
  rw [hw]
  cases f w.contexts with
  | ok cs => rfl
  | error fault => rfl

theorem bare_define (c : ContextId) (name : String) (v : Value) (w : World) :
    define c name v (w.through Contexts.bare) =
      ((define c name v w).1, (define c name v w).2.through Contexts.bare) :=
  bare_onContexts (fun cs => cs.bare_define c name v) w

theorem bare_plain {f : Effect α} (h : f.Plain) (w : World) :
    f (w.through Contexts.bare) = ((f w).1, (f w).2.through Contexts.bare) := by
  cases h with
  | lookup c name =>
    exact congrArg (fun r => (r, w.through Contexts.bare)) (w.contexts.bare_lookup c name)
  | assign c name v => exact bare_onContexts (fun cs => cs.bare_assign c name v) w
  | property x k => exact (apart_property x k).through _ w
  | setProperty x k v => exact (apart_setProperty x k v).through _ w
  | callBuiltin b vs => exact (apart_callBuiltin b vs).through _ w

theorem bare_making {f : World → Value × World} (h : Making f) (w : World) :
    f (w.through Contexts.bare) = ((f w).1, (f w).2.through Contexts.bare) := by
  cases h with
  | newArray items => exact (apart_newArray items).through _ w
  | newDictionary d => exact (apart_newDictionary d).through _ w
  | newFunction f => exact (apart_newFunction f).through _ w

/-! ### scopes and frames -/

theorem full_through (c : ContextId) (w : World) :
    ((w.through Contexts.bare).context c).full = (w.context c).full := by
  have same := congrArg Context.full (w.contexts.context_bare c)
  exact same

theorem through_enterScope (c : ContextId) (w : World) :
    (w.enterScope c).through Contexts.bare = (w.through Contexts.bare).enterScope c :=
  congrArg (fun cs => { w with contexts := cs }) (w.contexts.bare_update c Context.enter fun _ => rfl)

theorem through_leaveScope (c : ContextId) (w : World) :
    (w.leaveScope c).through Contexts.bare = (w.through Contexts.bare).leaveScope c :=
  congrArg (fun cs => { w with contexts := cs }) (w.contexts.bare_update c Context.leave fun _ => rfl)

theorem through_pushLoop (c : ContextId) (w : World) :
    (w.update c Context.pushLoop).through Contexts.bare = w.through Contexts.bare :=
  congrArg (fun cs => { w with contexts := cs }) (w.contexts.bare_update_frames c Context.pushLoop
    fun _ => rfl)

theorem through_pushCall (c : ContextId) (w : World) :
    (w.update c Context.pushCall).through Contexts.bare = w.through Contexts.bare :=
  congrArg (fun cs => { w with contexts := cs }) (w.contexts.bare_update_frames c Context.pushCall
    fun _ => rfl)

/-- What sets only the frames of a context is not seen. -/
theorem through_setFrames {c : ContextId} {w : World} {d : Context}
    (hd : d.bare = (w.context c).bare) :
    ({ w with contexts := w.contexts.setIfInBounds c d } : World).through Contexts.bare =
      w.through Contexts.bare :=
  congrArg (fun cs => { w with contexts := cs }) (w.contexts.bare_set_frames hd)

theorem through_popLoop (c : ContextId) (w : World) :
    (w.popLoop c).2.through Contexts.bare = w.through Contexts.bare := by
  unfold popLoop Context.popLoop
  cases (w.context c).loops with
  | nil => rfl
  | cons frame rest => exact through_setFrames rfl

theorem through_popCall (c : ContextId) (w : World) :
    (w.popCall c).2.through Contexts.bare = w.through Contexts.bare := by
  unfold popCall Context.popCall
  cases (w.context c).calls with
  | nil => rfl
  | cons returned rest => exact through_setFrames rfl

theorem bare_newChild (parent : ContextId) (w : World) :
    (w.through Contexts.bare).newChild parent =
      ((w.newChild parent).1, (w.newChild parent).2.through Contexts.bare) := by
  have size : (w.through Contexts.bare).contexts.size = w.contexts.size := w.contexts.size_bare
  have pushed := w.contexts.bare_push (.inside parent)
  unfold newChild addContext
  rw [size]
  exact congrArg (fun cs => (w.contexts.size, { w with contexts := cs })) pushed.symm

end World

/-- The parts of expressions mirror themselves in bare contexts. -/
theorem Eval.Mirrors.bare : Compatible fun {α} => @Mirrors σ α Contexts.bare where
  pure := pure
  bind := bind
  raise := raise
  aborted := aborted
  key _ := ask fun _ => rfl
  make hf := make (World.bare_making hf)
  perform span hf := perform span (World.bare_plain hf)

end Roteiro
