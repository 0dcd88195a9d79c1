import Roteiro.Proofs.Scope.Shape

/-!
Sequences of operations on contexts. Whatever is done to the contexts of a world, balanced or not,
no context has two names alike on one level, and leaving a scope above the base level drops the names
of that scope and no others. So a scope that is entered and left again, with anything done in between
that stays inside it and below the last level, leaves the names and the level of its context as they
were (`Operation.scopes_stack`).
-/

namespace Roteiro

/-- An operation on the contexts of a world. -/
inductive Operation where
  | newRoot
  | newGlobal
  | newChild (parent : ContextId)
  | define (context : ContextId) (name : String) (value : Value)
  | assign (context : ContextId) (name : String) (value : Value)
  | write (binding : Binding) (value : Value)
  | enter (context : ContextId)
  | leave (context : ContextId)
  | pushLoop (context : ContextId)
  | popLoop (context : ContextId)
  | markBreak (context : ContextId)
  | markContinue (context : ContextId)
  | pushCall (context : ContextId)
  | popCall (context : ContextId)
  | pushReturns (context : ContextId) (values : List Value)

namespace Operation

/-- The world after an operation. One that fails changes nothing, as entering a scope does if no
level is left for it, and neither does one on a context that is not there. -/
def apply (w : World) : Operation → World
  | newRoot => w.newRoot.2
  | newGlobal => w.newGlobal.2
  | newChild parent => if parent < w.contexts.size then (w.newChild parent).2 else w
  | define c name v => (w.define c name v).2
  | assign c name v => (w.assign c name v).2
  | write b v => { w with contexts := w.contexts.write b v }
  | enter c => if (w.context c).full then w else w.enterScope c
  | leave c => w.leaveScope c
  | pushLoop c => w.update c Context.pushLoop
  | popLoop c => (w.popLoop c).2
  | markBreak c => (w.onContext c Context.markBreak).2
  | markContinue c => (w.onContext c Context.markContinue).2
  | pushCall c => w.update c Context.pushCall
  | popCall c => (w.popCall c).2
  | pushReturns c values => (w.onContext c (·.pushReturns values)).2

/-- The world after some operations, from first to last. -/
def run (w : World) (ops : List Operation) : World :=
  ops.foldl apply w

/-- How many scopes of a context are open after an operation, where `depth` were open before it;
none if it leaves a scope beyond these. -/
def deepen (i : ContextId) (depth : Nat) : Operation → Option Nat
  | enter c => some (if c = i then depth + 1 else depth)
  | leave c => if c = i then if depth = 0 then none else some (depth - 1) else some depth
  | _ => some depth

/-- Every scope of the context that the operations enter they leave, and no other. -/
def Balanced (i : ContextId) (ops : List Operation) : Prop :=
  ops.foldlM (deepen i) 0 = some 0

/-- Whether an operation is to enter a scope of the context for which no level is left. -/
def overflows (i : ContextId) (w : World) : Operation → Bool
  | enter c => c = i && (w.context i).full
  | _ => false

/-- A level is left for every scope of the context that the operations enter. -/
def Fits (i : ContextId) : World → List Operation → Prop
  | _, [] => True
  | w, op :: ops => op.overflows i w = false ∧ Fits i (op.apply w) ops

end Operation

/-! ### what an operation does to a context -/

namespace Context

/-- The level stays, and at most one name is added to it, which is new there. -/
structure Holding (a b : Context) : Prop where
  level : b.level = a.level
  names : b.names = a.names ∨
    ∃ name, (name, a.level) ∉ a.names ∧ b.names = (name, a.level) :: a.names

theorem Holding.of_names {a b : Context} (level : b.level = a.level) (names : b.names = a.names) :
    Holding a b :=
  ⟨level, .inl names⟩

theorem Holding.of_shape {a b : Context} (h : b.shape = a.shape) : Holding a b :=
  .of_names (congrArg Shape.level h) (congrArg Shape.names h)

theorem Holding.define {a b : Context} {name : String} {v : Value} (h : a.define name v = .ok b) :
    Holding a b := by
  rw [names_of_define h]
  exact ⟨rfl, .inr ⟨name, not_mem_names_of_define h, rfl⟩⟩

/-- Opening, marking or closing a frame changes neither names nor level. -/
theorem Holding.frames {a b : Context} (h : a.Reframes b) : Holding a b := by
  obtain ⟨loops, calls, rfl⟩ := h
  exact .of_names rfl rfl

end Context

namespace World

open Context (Holding)

variable {w : World} {c : ContextId}

/-- A change of one context holds in every context if it holds there. -/
theorem holding_set {d : Context} (h : Holding (w.context c) d) (i : ContextId) :
    Holding (w.context i) (Contexts.context (w.contexts.setIfInBounds c d) i) :=
  Contexts.related_set (fun _ => .of_names rfl rfl) h i

theorem holding_update {f : Context → Context} (h : Holding (w.context c) (f (w.context c)))
    (i : ContextId) : Holding (w.context i) ((w.update c f).context i) :=
  Contexts.related_update (fun _ => .of_names rfl rfl) h i

theorem holding_onContext {f : Context → Except RuntimeFault Context}
    (h : ∀ {a b}, f a = .ok b → Holding a b) (i : ContextId) :
    Holding (w.context i) ((onContext c f w).2.context i) := by
  rcases onContext_cases c f w with ⟨d, hd, done⟩ | ⟨fault, -, failed⟩
  · rw [done]
    exact holding_set (h hd) i
  · rw [failed]
    exact .of_names rfl rfl

theorem holding_popLoop (i : ContextId) :
    Holding (w.context i) ((popLoop c w).2.context i) := by
  unfold World.popLoop
  split
  · next popped => exact holding_set (.frames (.of_popLoop popped)) i
  · exact .of_names rfl rfl

theorem holding_popCall (i : ContextId) :
    Holding (w.context i) ((popCall c w).2.context i) := by
  unfold World.popCall
  split
  · next popped => exact holding_set (.frames (.of_popCall popped)) i
  · exact .of_names rfl rfl

theorem holding_addContext {i : ContextId} (live : i < w.contexts.size) (d : Context) :
    Holding (w.context i) ((w.addContext d).2.context i) := by
  rw [show (w.addContext d).2.context i = w.context i from
    Contexts.context_push_of_ne (Nat.ne_of_lt live) d]
  exact .of_names rfl rfl

end World

namespace Operation

open Context (Holding)

theorem apply_enter {w : World} {c : ContextId} (free : (w.context c).full = false) :
    (enter c).apply w = w.enterScope c := by
  change (if (w.context c).full then w else w.enterScope c) = _
  rw [free]
  rfl

theorem free_of_fits {i : ContextId} {w : World} (fits : (enter i).overflows i w = false) :
    (w.context i).full = false := by
  unfold overflows at fits
  simpa using fits

/-- **What an operation does to a context**: it enters a scope of it if it can, leaves one, or at most
adds a name on the current level. -/
theorem apply_cases (op : Operation) {w : World} {i : ContextId} (live : i < w.contexts.size) :
    (op = .enter i ∧ ((op.apply w).context i).names = (w.context i).names ∧
      ((w.context i).full = false → (op.apply w).context i = (w.context i).enter)) ∨
    (op = .leave i ∧ (op.apply w).context i = (w.context i).leave) ∨
    (op ≠ .enter i ∧ op ≠ .leave i ∧ Holding (w.context i) ((op.apply w).context i)) := by
  cases op with
  | enter c =>
    by_cases same : c = i
    · subst same
      have entered : (w.context c).full = false →
          ((enter c).apply w).context c = (w.context c).enter := fun free => by
        rw [apply_enter free]
        exact Contexts.context_update_self live _
      refine .inl ⟨rfl, ?_, entered⟩
      cases full : (w.context c).full with
      | false =>
        rw [entered full]
        rfl
      | true =>
        rw [show (enter c).apply w = w from if_pos full]
    · refine .inr (.inr ⟨by simpa using same, by simp, ?_⟩)
      unfold apply
      dsimp only
      split
      · exact .of_names rfl rfl
      · rw [show (w.enterScope c).context i = w.context i from
          Contexts.context_update_of_ne (Ne.symm same) _]
        exact .of_names rfl rfl
  | leave c =>
    by_cases same : c = i
    · subst same
      exact .inr (.inl ⟨rfl, Contexts.context_update_self live _⟩)
    · refine .inr (.inr ⟨by simp, by simpa using same, ?_⟩)
      rw [show ((leave c).apply w).context i = w.context i from
        Contexts.context_update_of_ne (Ne.symm same) _]
      exact .of_names rfl rfl
  | newRoot => exact .inr (.inr ⟨by simp, by simp, World.holding_addContext live _⟩)
  | newGlobal =>
    obtain ⟨d, made, -⟩ := w.contexts_newGlobal
    have kept : ((newGlobal.apply w).context i) = w.context i := by
      unfold World.context
      rw [show (newGlobal.apply w).contexts = w.contexts.push d from made]
      exact Contexts.context_push_of_ne (Nat.ne_of_lt live) d
    rw [kept]
    exact .inr (.inr ⟨by simp, by simp, .of_names rfl rfl⟩)
  | newChild parent =>
    refine .inr (.inr ⟨by simp, by simp, ?_⟩)
    unfold apply
    dsimp only
    split
    · exact World.holding_addContext live _
    · exact .of_names rfl rfl
  | define c name v =>
    exact .inr (.inr ⟨by simp, by simp, World.holding_onContext (f := (·.define name v)) .define i⟩)
  | assign c name v =>
    exact .inr (.inr ⟨by simp, by simp, .of_shape ((World.SameShape.assign c name v w).shape i live)⟩)
  | write b v => exact .inr (.inr ⟨by simp, by simp, .of_shape (World.shape_write _ b v i)⟩)
  | pushLoop c => exact .inr (.inr ⟨by simp, by simp, World.holding_update (.frames .pushLoop) i⟩)
  | popLoop c => exact .inr (.inr ⟨by simp, by simp, World.holding_popLoop i⟩)
  | markBreak c =>
    refine .inr (.inr ⟨by simp, by simp, World.holding_onContext (fun marked => ?_) i⟩)
    exact .frames (.of_signal marked)
  | markContinue c =>
    refine .inr (.inr ⟨by simp, by simp, World.holding_onContext (fun marked => ?_) i⟩)
    exact .frames (.of_signal marked)
  | pushCall c => exact .inr (.inr ⟨by simp, by simp, World.holding_update (.frames .pushCall) i⟩)
  | popCall c => exact .inr (.inr ⟨by simp, by simp, World.holding_popCall i⟩)
  | pushReturns c values =>
    refine .inr (.inr ⟨by simp, by simp, World.holding_onContext (fun pushed => ?_) i⟩)
    exact .frames (.of_pushReturns pushed)

/-- An operation is a step, or it fails and changes nothing. -/
theorem apply_step (op : Operation) (w : World) :
    (op.apply w).contexts = w.contexts ∨ Contexts.Step w.contexts (op.apply w).contexts := by
  -- What is done to one context is done as `step` says, or fails.
  have one : ∀ (c : ContextId) (f : Context → Except RuntimeFault Context),
      (∀ {d}, f (w.context c) = .ok d →
        Contexts.Step w.contexts (w.contexts.setIfInBounds c d)) →
      (w.onContext c f).2.contexts = w.contexts ∨
        Contexts.Step w.contexts (w.onContext c f).2.contexts := by
    intro c f step
    rcases World.onContext_cases c f w with ⟨d, hd, done⟩ | ⟨fault, -, failed⟩
    · rw [done]
      exact .inr (step hd)
    · rw [failed]
      exact .inl rfl
  cases op with
  | newRoot => exact .inr (.newRoot w)
  | newGlobal => exact .inr (.newGlobal w)
  | newChild parent =>
    unfold apply
    dsimp only
    split
    · next live => exact .inr (.newChild w parent live)
    · exact .inl rfl
  | define c name v =>
    refine one c (·.define name v) fun hd => .define c name v ?_
    unfold Contexts.define
    rw [show (w.contexts.context c).define name v = _ from hd]
    rfl
  | assign c name v =>
    unfold apply World.assign
    dsimp only
    rcases World.onContexts_cases (fun cs => cs.assign c name v) w with
      ⟨cs, done, h⟩ | ⟨fault, -, h⟩
    · rw [h]
      exact .inr (.assign c name v done)
    · rw [h]
      exact .inl rfl
  | write b v => exact .inr (.write _ b v)
  | enter c =>
    unfold apply
    dsimp only
    split
    · exact .inl rfl
    · next free => exact .inr (.enter (Bool.eq_false_iff.2 free))
  | leave c => exact .inr (.leave _ c)
  | pushLoop c => exact .inr (.pushLoop _ c)
  | popLoop c =>
    unfold apply World.popLoop
    dsimp only
    split
    · next popped => exact .inr (.popLoop popped)
    · exact .inl rfl
  | markBreak c => exact one c _ .markBreak
  | markContinue c => exact one c _ .markContinue
  | pushCall c => exact .inr (.pushCall _ c)
  | popCall c =>
    unfold apply World.popCall
    dsimp only
    split
    · next popped => exact .inr (.popCall popped)
    · exact .inl rfl
  | pushReturns c values => exact one c _ .pushReturns

theorem size_le_apply (op : Operation) (w : World) :
    w.contexts.size ≤ (op.apply w).contexts.size := by
  rcases op.apply_step w with same | step
  · exact Nat.le_of_eq (by rw [same])
  · exact step.size_le

/-! ### sequences -/

@[simp] theorem run_nil (w : World) : run w [] = w := rfl

@[simp] theorem run_cons (w : World) (op : Operation) (ops : List Operation) :
    run w (op :: ops) = run (op.apply w) ops := rfl

@[simp] theorem run_append (w : World) (ops ops' : List Operation) :
    run w (ops ++ ops') = run (run w ops) ops' := by
  unfold run
  exact List.foldl_append

theorem size_le_run (w : World) (ops : List Operation) :
    w.contexts.size ≤ (run w ops).contexts.size := by
  induction ops generalizing w with
  | nil => exact Nat.le_refl _
  | cons op ops ih => exact Nat.le_trans (op.size_le_apply w) (ih _)

theorem run_reachable {w : World} (h : w.contexts.Reachable) (ops : List Operation) :
    (run w ops).contexts.Reachable := by
  induction ops generalizing w with
  | nil => exact h
  | cons op ops ih =>
    refine ih ?_
    rcases op.apply_step w with same | step
    · rw [same]
      exact h
    · exact h.tail step

/-- No two names of a context are alike on one level. -/
theorem apply_nodup (op : Operation) {w : World} (h : ∀ i, (w.context i).names.Nodup)
    (i : ContextId) : ((op.apply w).context i).names.Nodup := by
  unfold World.context
  rcases op.apply_step w with same | step
  · rw [same]
    exact h i
  · exact step.nodup h i

theorem run_nodup {w : World} (h : ∀ i, (w.context i).names.Nodup) (ops : List Operation) :
    ∀ i, ((run w ops).context i).names.Nodup := by
  induction ops generalizing w with
  | nil => exact h
  | cons op ops ih => exact ih (op.apply_nodup h)

end Operation

/-! ### scopes -/

namespace Context

/-- **Leaving a scope above the base level drops the names of its level and no others.** -/
theorem Layered.locals_leave {c : Context} (h : c.Layered) (above : baseLevel < c.level) :
    c.leave.locals = c.locals.filter fun l => l.level != c.level := by
  change (if baseLevel < c.level then c.locals.dropWhile fun l => l.level == c.level
    else c.locals) = _
  rw [if_pos above]
  have below : ∀ l ∈ c.locals, l.level ≤ c.level := fun l member => by
    have := h.below _ (List.mem_map_of_mem member)
    dsimp only at this
    omega
  have sorted : c.locals.Pairwise fun newer older => older.level ≤ max newer.level baseLevel :=
    List.pairwise_map.1 h.sorted
  generalize c.locals = locals at below sorted
  induction locals with
  | nil => rfl
  | cons l older ih =>
    obtain ⟨first, rest⟩ := List.pairwise_cons.1 sorted
    by_cases here : l.level = c.level
    · rw [List.dropWhile_cons_of_pos (by simpa using here), List.filter_cons_of_neg (by simpa using here)]
      exact ih (fun k member => below k (List.mem_cons_of_mem _ member)) rest
    · -- The newest name stays, and so do all older ones, which are not above it.
      rw [List.dropWhile_cons_of_neg (by simpa using here)]
      refine (List.filter_eq_self.2 fun k member => ?_).symm
      have top := below l List.mem_cons_self
      rcases List.mem_cons.1 member with rfl | member
      · simpa using here
      · have := first k member
        simp only [bne_iff_ne, ne_eq]
        omega

/-- A context in which `depth` scopes are open above the level of another, whose names it has and
above them only names of these scopes. -/
structure Above (base : Context) (depth : Nat) (c : Context) : Prop where
  level : c.level = base.level + depth
  names : ∃ added, c.names = added ++ base.names ∧ ∀ p ∈ added, base.level < p.2

namespace Above

variable {base c d : Context} {depth : Nat}

theorem enter (h : Above base depth c) (free : c.full = false) :
    Above base (depth + 1) c.enter := by
  refine ⟨?_, h.names⟩
  rw [level_enter free, h.level, Nat.add_assoc]

theorem holding (h : Above base (depth + 1) c) (k : Holding c d) : Above base (depth + 1) d := by
  refine ⟨k.level.trans h.level, ?_⟩
  obtain ⟨added, names, above⟩ := h.names
  rcases k.names with same | ⟨name, -, more⟩
  · exact ⟨added, same.trans names, above⟩
  · refine ⟨(name, c.level) :: added, by rw [more, names]; rfl, fun p member => ?_⟩
    rcases List.mem_cons.1 member with rfl | member
    · have := h.level
      dsimp only
      omega
    · exact above p member

/-- Leaving a scope does not reach the names below. -/
theorem leave (h : Above base (depth + 1) c) (ready : base.Ready) : Above base depth c.leave := by
  have level := h.level
  obtain ⟨added, names, above⟩ := h.names
  refine ⟨?_, ?_⟩
  · change c.level - 1 = _
    omega
  · have bottom := ready.base
    rw [names_leave, if_pos (by omega), names]
    refine ⟨added.dropWhile fun p => p.2 == c.level, ?_, fun p member =>
      above p ((List.dropWhile_suffix _).subset member)⟩
    rw [List.dropWhile_append]
    split
    · next none =>
      rw [List.isEmpty_iff.1 none, ready.dropWhile_names (by omega)]
      rfl
    · rfl

end Above

end Context

namespace Operation

theorem deepen_of_ne {i : ContextId} {op : Operation} (enters : op ≠ enter i)
    (leaves : op ≠ leave i) (depth : Nat) : deepen i depth op = some depth := by
  cases op with
  | enter c => rw [deepen, if_neg fun same => enters (by rw [same])]
  | leave c => rw [deepen, if_neg fun same => leaves (by rw [same])]
  | _ => rfl

/-- Operations that do not leave the scope they begin in keep what is below it. -/
theorem above_run {base : Context} (ready : base.Ready) {i : ContextId} {w : World}
    (live : i < w.contexts.size) {ops : List Operation} {depth depth' : Nat}
    (h : Context.Above base (depth + 1) (w.context i))
    (stays : ops.foldlM (deepen i) depth = some depth') (fits : Fits i w ops) :
    Context.Above base (depth' + 1) ((run w ops).context i) := by
  induction ops generalizing w depth with
  | nil =>
    cases stays
    exact h
  | cons op ops ih =>
    rw [run_cons]
    have live' := Nat.lt_of_lt_of_le live (op.size_le_apply w)
    obtain ⟨free, fits⟩ := fits
    rcases op.apply_cases live with ⟨rfl, -, entered⟩ | ⟨rfl, left⟩ | ⟨enters, leaves, holding⟩
    · rw [List.foldlM_cons, deepen, if_pos rfl] at stays
      have here := free_of_fits free
      exact ih live' (entered here ▸ h.enter here) stays fits
    · rw [List.foldlM_cons, deepen, if_pos rfl] at stays
      cases depth with
      | zero => cases stays
      | succ depth => exact ih live' (left ▸ h.leave ready) stays fits
    · rw [List.foldlM_cons, deepen_of_ne enters leaves] at stays
      exact ih live' (h.holding holding) stays fits

/-- A scope that is entered and left again leaves the names and the level as they were. -/
theorem run_scope {w : World} (reachable : w.contexts.Reachable) {i : ContextId}
    (live : i < w.contexts.size) (opened : Context.baseLevel ≤ (w.context i).level)
    {inner : List Operation} (balanced : Balanced i inner) (fits : Fits i w (enter i :: inner)) :
    ((run w (enter i :: inner ++ [leave i])).context i).names = (w.context i).names ∧
      ((run w (enter i :: inner ++ [leave i])).context i).level = (w.context i).level := by
  have ready : (w.context i).Ready := (reachable.layered i).ready opened
  obtain ⟨first, fits⟩ := fits
  have free := free_of_fits first
  have entered : ((enter i).apply w).context i = (w.context i).enter := by
    rw [apply_enter free]
    exact Contexts.context_update_self live _
  have live₁ : i < ((enter i).apply w).contexts.size := Nat.lt_of_lt_of_le live (size_le_apply _ w)
  have above : Context.Above (w.context i) 1 (((enter i).apply w).context i) := by
    rw [entered]
    exact ⟨Context.level_enter free, [], rfl, by simp⟩
  have inside := (above_run ready live₁ above balanced fits).leave ready
  have left : (run w (enter i :: inner ++ [leave i])).context i =
      ((run w (enter i :: inner)).context i).leave := by
    rw [run_append]
    exact Contexts.context_update_self (Nat.lt_of_lt_of_le live (size_le_run _ _)) _
  have layered : ((run w (enter i :: inner)).context i).leave.Layered :=
    ((run_reachable reachable (enter i :: inner)).layered i).leave
  rw [run_cons] at left layered
  rw [left]
  refine ⟨?_, inside.level⟩
  -- A name that was added would be above the level, where no name is.
  obtain ⟨added, names, above⟩ := inside.names
  cases added with
  | nil => exact names
  | cons p rest =>
    have high := above p List.mem_cons_self
    have low := layered.below p (by rw [names]; exact List.mem_cons_self)
    rw [inside.level] at low
    omega

/-- **The scopes of a context form a stack**, whatever is done to the contexts from the start on.
No two names of a context are alike on one level; a name above the base level is not above the
current one, and no newer name is below it. So leaving a scope above the base level drops exactly the
names of its level; and entering a scope, then doing anything that leaves as many scopes of the
context as it enters and never this one, and leaving it restores the names and the level, as long as
there is a level for each scope. -/
theorem scopes_stack (t : Terminal) (ops : List Operation) (i : ContextId)
    (live : i < (run (.around t) ops).contexts.size) :
    let w := run (.around t) ops
    let c := w.context i
    c.names.Nodup ∧
    (∀ l ∈ c.locals, Context.baseLevel < l.level → l.level ≤ c.level) ∧
    (c.locals.Pairwise fun newer older =>
      Context.baseLevel < older.level → older.level ≤ newer.level) ∧
    (Context.baseLevel < c.level →
      ((run w [leave i]).context i).locals = c.locals.filter fun l => l.level != c.level) ∧
    (Context.baseLevel ≤ c.level → ∀ inner, Balanced i inner → Fits i w (enter i :: inner) →
      ((run w (enter i :: inner ++ [leave i])).context i).names = c.names ∧
      ((run w (enter i :: inner ++ [leave i])).context i).level = c.level) := by
  intro w c
  have reachable : w.contexts.Reachable := run_reachable (w := .around t) Relation.ReflTransGen.refl ops
  have layered : c.Layered := reachable.layered i
  have nodup : c.names.Nodup := by
    refine run_nodup (fun j => ?_) ops i
    unfold World.context
    rw [Contexts.context_of_size_le (Nat.zero_le j)]
    exact .nil
  refine ⟨nodup, fun l member above => ?_, ?_, fun above => ?_, fun opened inner balanced fits => ?_⟩
  · have := layered.below _ (List.mem_map_of_mem member)
    dsimp only at this
    omega
  · refine (List.pairwise_map.1 layered.sorted).imp fun {newer older} sorted above => ?_
    omega
  · rw [run_cons, run_nil, show ((leave i).apply w).context i = c.leave from
      Contexts.context_update_self live _]
    exact layered.locals_leave above
  · exact run_scope reachable live opened balanced fits

/-- A scope in which a name is hidden, in a context whose base level was left and entered again. -/
theorem scopes_stack_of_hiding :
    let ops : List Operation :=
      [.newRoot, .define 0 "x" .null, .leave 0, .define 0 "x" .null, .enter 0, .enter 0,
        .define 0 "y" .null]
    let inner : List Operation :=
      [.define 0 "x" .null, .newChild 0, .leave 1, .enter 0, .define 0 "x" .null, .leave 0]
    let w := run (.around (.captured [])) ops
    (w.context 0).names = [("y", 2), ("x", 0), ("x", 1)] ∧ (w.context 0).level = 2 ∧
      Balanced 0 inner ∧ Fits 0 w (enter 0 :: inner) ∧
      ((run w (enter 0 :: inner)).context 0).names = [("x", 3), ("y", 2), ("x", 0), ("x", 1)] ∧
      ((run w (enter 0 :: inner ++ [leave 0])).context 0).names =
        [("y", 2), ("x", 0), ("x", 1)] := by
  intro ops inner w
  have names : (w.context 0).names = [("y", 2), ("x", 0), ("x", 1)] := by decide +kernel
  have balanced : Balanced 0 inner := by unfold Balanced; decide
  have fits : Fits 0 w (enter 0 :: inner) :=
    ⟨by decide +kernel, rfl, rfl, rfl, by decide +kernel, rfl, rfl, trivial⟩
  have stack := scopes_stack (.captured []) ops 0 (by decide +kernel)
  obtain ⟨-, -, -, -, restored⟩ := stack
  refine ⟨names, by decide +kernel, balanced, fits, by decide +kernel, ?_⟩
  exact (restored (by decide +kernel) inner balanced fits).1.trans names

end Operation

end Roteiro
